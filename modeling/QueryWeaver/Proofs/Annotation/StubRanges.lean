import Mathlib
import QueryWeaver.Annotation.Segment
import QueryWeaver.Proofs.Source.Tokens
import QueryWeaver.Proofs.Text.Ranges
/-!
The stubs of a source cut out by byte offsets: a function up to the offset behind its closing brace,
and the code behind it from the size of the function on. The cuts do not fail, and the segments are
those of the source.
-/

namespace QueryWeaver

namespace Stub

/-- The function that ends among the characters left of the code, if one does. -/
def slicedFrom (code : Text) (s : LiteralState) (depth : Nat) :
    List (Nat × Char) → Option (Option Text)
  | [] => some none
  | (i, c) :: r =>
    let next := s.step c
    if s.covers c then slicedFrom code next depth r
    else if c = '{' then slicedFrom code next (depth + 1) r
    else if c = '}' ∧ 0 < depth then
      if depth - 1 = 0 then (Text.slice? code 0 (i + c.utf8Size)).map some
      else slicedFrom code next (depth - 1) r
    else slicedFrom code next depth r

/-- The first function of the code; none in the outer option where it cannot be cut out. -/
def slicedFunction (code : Text) : Option (Option Text) :=
  slicedFrom code .between 0 (Text.indexed 0 code)

theorem slicedFrom_eq (a t : Text) (s : LiteralState) (depth : Nat) :
    slicedFrom (a ++ t) s depth (Text.indexed (Text.size a) t) =
      some ((splitFrom s depth t).map fun parts => a ++ parts.1) := by
  induction t generalizing a s depth with
  | nil => rfl
  | cons c r ih =>
    have later (s : LiteralState) (depth : Nat) :
        slicedFrom (a ++ c :: r) s depth (Text.indexed (Text.size a + c.utf8Size) r) =
          some (((splitFrom s depth r).map fun parts => (c :: parts.1, parts.2)).map
            fun parts => a ++ parts.1) := by
      have rest := ih (a ++ [c]) s depth
      rw [Text.size_append, List.append_assoc] at rest
      rw [Option.map_map]
      simpa [Function.comp_def] using rest
    have whole : Text.slice? (a ++ c :: r) 0 (Text.size a + c.utf8Size) = some (a ++ [c]) := by
      have front := Text.slice?_front (a ++ [c]) r
      rw [Text.size_append, List.append_assoc] at front
      exact front
    rw [Text.indexed_cons, slicedFrom, splitFrom]
    by_cases covered : s.covers c = true
    · rw [if_pos covered, if_pos covered, later]
    rw [if_neg covered, if_neg covered]
    by_cases opening : c = '{'
    · rw [if_pos opening, if_pos opening, later]
    rw [if_neg opening, if_neg opening]
    by_cases closing : c = '}'
    · subst closing
      cases depth with
      | zero =>
        rw [if_neg (by simp), if_neg (by simp), if_pos rfl]
        exact later _ 0
      | succ depth =>
        rw [if_pos ⟨rfl, Nat.succ_pos _⟩]
        cases depth with
        | zero =>
          rw [if_pos rfl, if_pos ⟨rfl, rfl⟩, whole]
          rfl
        | succ depth =>
          rw [if_neg (by omega), if_neg (by simp), if_pos rfl]
          exact later _ (depth + 1)
    · simp only [closing, false_and, if_false, later]

theorem slicedFunction_eq (code : Text) :
    slicedFunction code = some ((split? code).map Prod.fst) := by
  have whole := slicedFrom_eq [] code .between 0
  simpa [slicedFunction, split?] using whole

end Stub

namespace Segment

/-- The block of a comment, and the plain text left of the code after it. -/
def slicedClaim (a : Annotations) (code : Text) : Option (List Segment) := do
  match ← Stub.slicedFunction code with
  | some function =>
    let rest ← Text.slice? code (Text.size function) (Text.size code)
    return annotated ⟨a, function, false⟩ :: (if rest.isEmpty then [] else [plain rest])
  | none => return [annotated ⟨a, [], Stub.opensBody code⟩, plain code]

def sliced : List Token → Option (List Segment)
  | [] => some []
  | .code t :: r => (sliced r).map (plain t :: ·)
  | .comment t :: .code u :: r =>
    let a := Comment.annotations t
    if a.isEmpty then (sliced r).map ([plain t, plain u] ++ ·)
    else do
      let claimed ← slicedClaim a u
      let rest ← sliced r
      return plain t :: (claimed ++ rest)
  | .comment t :: r =>
    let a := Comment.annotations t
    if a.isEmpty then (sliced r).map (plain t :: ·)
    else (sliced r).map ([plain t, annotated ⟨a, [], false⟩] ++ ·)

theorem slicedClaim_eq (a : Annotations) (code : Text) :
    slicedClaim a code = some (claim a code) := by
  rw [slicedClaim, Stub.slicedFunction_eq, claim]
  cases cut : Stub.split? code with
  | none => rfl
  | some parts =>
    obtain ⟨function, rest⟩ := parts
    have behind := Text.slice?_behind function rest
    rw [Stub.split?_eq cut] at behind
    simp [behind]

/-- The segments cut out are those of the tokens. -/
theorem sliced_eq (tokens : List Token) : sliced tokens = some (ofTokens tokens) := by
  fun_induction ofTokens tokens with
  | case1 => rfl
  | case2 t r ih =>
    rw [sliced, ih]
    rfl
  | case3 t u r a empty ih =>
    rw [sliced, if_pos empty, ih]
    rfl
  | case4 t u r a some ih =>
    rw [sliced, if_neg some, slicedClaim_eq, ih]
    rfl
  | case5 t r other a empty ih =>
    rw [sliced, if_pos empty, ih]
    · rfl
    · exact other
  | case6 t r other a some ih =>
    rw [sliced, if_neg some, ih]
    · rfl
    · exact other

end Segment
end QueryWeaver
