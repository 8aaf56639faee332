import Mathlib
import QueryWeaver.Proofs.Annotation.Resegment
import QueryWeaver.Proofs.Source.Braces
/-!
The stubs that annotated comments claim. A comment claims the code behind it up to the partner of
the first live open brace, and its block is unclosed where that brace has no partner.
-/

namespace QueryWeaver

namespace Block

/-- The block of a comment and the code behind it. -/
def ofCode (a : Annotations) (u : Text) : Block :=
  match Stub.split? u with
  | some (f, _) => ⟨a, f, false⟩
  | none => ⟨a, [], Stub.opensBody u⟩

/-- The block of a comment and the tokens behind it. -/
def ofTokens (a : Annotations) : List Token → Block
  | .code u :: _ => ofCode a u
  | _ => ⟨a, [], false⟩

variable {a : Annotations}

theorem ofCode_unclosed (a : Annotations) (u : Text) :
    (ofCode a u).unclosed = true ↔ Stub.LeaveOpen (LiteralState.between.marked u) := by
  have opens := Stub.opensFrom_marked .between u
  rw [ofCode]
  cases cut : Stub.split? u with
  | some parts =>
    constructor
    · intro unclosed
      cases unclosed
    · intro leaves
      rw [Stub.split?_none_iff.mpr (.inr leaves)] at cut
      cases cut
  | none =>
    constructor
    · intro body
      exact (Stub.split?_none_iff.mp cut).resolve_left fun missing => missing (opens.mp body)
    · intro leaves
      obtain ⟨b, r, whole, -, -⟩ := leaves
      apply opens.mpr
      rw [whole]
      simp

theorem ofCode_code {u : Text} (unclosed : (ofCode a u).unclosed = true) :
    (ofCode a u).code = [] := by
  unfold ofCode at unclosed ⊢
  cases cut : Stub.split? u with
  | some parts =>
    rw [cut] at unclosed
    cases unclosed
  | none => rfl

theorem ofTokens_other {post : List Token} (other : ∀ u q, post ≠ .code u :: q) :
    ofTokens a post = ⟨a, [], false⟩ := by
  unfold ofTokens
  split
  next u q => exact absurd rfl (other u q)
  next => rfl

theorem ofTokens_annotations (a : Annotations) (post : List Token) :
    (ofTokens a post).annotations = a := by
  unfold ofTokens ofCode
  split
  · split <;> rfl
  · rfl

/-- A block is unclosed if the first live open brace of the code behind its comment has no
partner, and then it has no code. -/
theorem ofTokens_unclosed (a : Annotations) (post : List Token) :
    ((ofTokens a post).unclosed = true ↔
      ∃ u q, post = .code u :: q ∧ Stub.LeaveOpen (LiteralState.between.marked u)) ∧
    ((ofTokens a post).unclosed = true → (ofTokens a post).code = []) := by
  by_cases code : ∃ u q, post = .code u :: q
  · obtain ⟨u, q, same⟩ := code
    subst same
    refine ⟨(ofCode_unclosed a u).trans ?_, ofCode_code⟩
    simp
  · have other : ∀ u q, post ≠ .code u :: q := fun u q same => code ⟨u, q, same⟩
    rw [ofTokens_other other]
    simp [other]

end Block

namespace Segment

theorem claim_ofCode (a : Annotations) (u : Text) :
    ∃ rest, claim a u = annotated (Block.ofCode a u) :: rest ∧ ∀ s ∈ rest, s.block? = none := by
  unfold claim Block.ofCode
  cases Stub.split? u with
  | none => exact ⟨[plain u], rfl, by simp [block?]⟩
  | some parts =>
    refine ⟨_, rfl, ?_⟩
    split <;> simp [block?]

/-- A block behind plain segments stands behind all of them. -/
theorem behind_plains {segments before after : List Segment} {block : Block}
    (plains : List Segment) (blockless : ∀ s ∈ plains, s.block? = none)
    (whole : plains ++ segments = before ++ annotated block :: after) :
    ∃ further, before = plains ++ further ∧ segments = further ++ annotated block :: after := by
  induction plains generalizing before with
  | nil => exact ⟨before, rfl, whole⟩
  | cons s plains ih =>
    obtain ⟨here, blockless⟩ := List.forall_mem_cons.mp blockless
    cases before with
    | nil =>
      rw [(List.cons.inj whole).1] at here
      cases here
    | cons s' before =>
      obtain ⟨same, whole⟩ := List.cons.inj whole
      obtain ⟨further, front, rest⟩ := ih blockless whole
      exact ⟨further, by rw [same, front]; rfl, rest⟩

theorem ofTokens_code (t : Text) (r : List Token) :
    ofTokens (.code t :: r) = plain t :: ofTokens r := rfl

theorem ofTokens_claim {t : Text} (entries : ¬(Comment.annotations t).isEmpty = true) (u : Text)
    (r : List Token) :
    ofTokens (.comment t :: .code u :: r) =
      plain t :: (claim (Comment.annotations t) u ++ ofTokens r) := by
  rw [ofTokens, if_neg entries]

/-- Tokens that do not begin with code have no part in front that does. -/
theorem not_code_left {tokens pre post : List Token} (whole : tokens = pre ++ post)
    (other : ∀ u q, tokens = .code u :: q → False) : ∀ u q, pre ≠ .code u :: q := by
  intro u q same
  rw [same] at whole
  exact other u _ whole

/-- Each block is that of the comment whose segment stands before it. -/
theorem block_comment {tokens : List Token} {before after : List Segment} {block : Block}
    (whole : ofTokens tokens = before ++ annotated block :: after) :
    ∃ pre t post, tokens = pre ++ .comment t :: post ∧ before = ofTokens pre ++ [plain t] ∧
      block = .ofTokens (Comment.annotations t) post := by
  fun_induction ofTokens tokens generalizing before with
  | case1 => simp at whole
  | case2 t r ih =>
    obtain ⟨further, front, rest⟩ := behind_plains [plain t] (by simp [block?]) whole
    obtain ⟨pre, t', post, tokens, behind, own⟩ := ih rest
    refine ⟨.code t :: pre, t', post, congrArg (_ :: ·) tokens, ?_, own⟩
    rw [front, behind, ofTokens_code]
    rfl
  | case3 t u r a empty =>
    rename_i ih
    obtain ⟨further, front, rest⟩ := behind_plains [plain t, plain u] (by simp [block?]) whole
    obtain ⟨pre, t', post, tokens, behind, own⟩ := ih rest
    refine ⟨.comment t :: .code u :: pre, t', post, by rw [tokens]; rfl, ?_, own⟩
    rw [front, behind, ofTokens, if_pos empty]
    rfl
  | case4 t u r a entries =>
    rename_i ih
    obtain ⟨further, front, rest⟩ := behind_plains [plain t] (by simp [block?]) whole
    obtain ⟨left, claimed, blockless⟩ := claim_ofCode a u
    rw [claimed] at rest
    cases further with
    | nil =>
      have own : annotated (Block.ofCode a u) = annotated block := (List.cons.inj rest).1
      exact ⟨[], t, .code u :: r, rfl, front, (annotated.inj own).symm⟩
    | cons s further =>
      obtain ⟨first, rest⟩ := List.cons.inj rest
      obtain ⟨further, front', rest⟩ := behind_plains left blockless rest
      obtain ⟨pre, t', post, tokens, behind, own⟩ := ih rest
      refine ⟨.comment t :: .code u :: pre, t', post, by rw [tokens]; rfl, ?_, own⟩
      rw [front, ← first, front', behind, ofTokens_claim entries, claimed]
      simp
  | case5 t r last a empty =>
    rename_i ih
    obtain ⟨further, front, rest⟩ := behind_plains [plain t] (by simp [block?]) whole
    obtain ⟨pre, t', post, tokens, behind, own⟩ := ih rest
    refine ⟨.comment t :: pre, t', post, by rw [tokens]; rfl, ?_, own⟩
    rw [front, behind, ofTokens_comment (not_code_left tokens last), if_pos empty]
    rfl
  | case6 t r last a entries =>
    rename_i ih
    obtain ⟨further, front, rest⟩ := behind_plains [plain t] (by simp [block?]) whole
    cases further with
    | nil =>
      have own : annotated ⟨a, [], false⟩ = annotated block := (List.cons.inj rest).1
      have other : ∀ u q, r ≠ .code u :: q := fun u q same => last u q same
      refine ⟨[], t, r, rfl, front, ?_⟩
      rw [Block.ofTokens_other other]
      exact (annotated.inj own).symm
    | cons s further =>
      obtain ⟨first, rest⟩ := List.cons.inj rest
      obtain ⟨pre, t', post, tokens, behind, own⟩ := ih rest
      refine ⟨.comment t :: pre, t', post, by rw [tokens]; rfl, ?_, own⟩
      rw [front, ← first, behind, ofTokens_comment (not_code_left tokens last), if_neg entries]
      rfl

/-- The function that code begins with ends with the partner of its first live open brace, whatever
stands behind it. Where that brace has no partner the block of the comment before is unclosed. -/
theorem stubs_exact (code : Text) (tokens : List Token) :
    (∀ f rest, Stub.split? code = some (f, rest) ↔
      f ++ rest = code ∧ Stub.CloseFirst (LiteralState.between.marked f)) ∧
    (∀ f p, f <+: code → p <+: code → Stub.CloseFirst (LiteralState.between.marked f) →
      Stub.CloseFirst (LiteralState.between.marked p) → f = p) ∧
    (Stub.split? code = none ↔ Stub.opening ∉ LiteralState.between.marked code ∨
      Stub.LeaveOpen (LiteralState.between.marked code)) ∧
    (∀ f rest x, Stub.split? code = some (f, rest) →
      Stub.split? (code ++ x) = some (f, rest ++ x)) ∧
    ∀ before block after, ofTokens tokens = before ++ annotated block :: after →
      ∃ pre t post, tokens = pre ++ .comment t :: post ∧ before = ofTokens pre ++ [plain t] ∧
        block.annotations = Comment.annotations t ∧
        (block.unclosed = true ↔
          ∃ u q, post = .code u :: q ∧ Stub.LeaveOpen (LiteralState.between.marked u)) ∧
        (block.unclosed = true → block.code = []) := by
  refine ⟨fun f rest => Stub.split?_iff, ?_, Stub.split?_none_iff, ?_, ?_⟩
  · intro f p first first' closes closes'
    obtain ⟨rest, whole⟩ := first
    obtain ⟨rest', whole'⟩ := first'
    have cut := Stub.split?_iff.mpr ⟨whole, closes⟩
    rw [Stub.split?_iff.mpr ⟨whole', closes'⟩] at cut
    cases cut
    rfl
  · intro f rest x cut
    obtain ⟨whole, closes⟩ := Stub.split?_iff.mp cut
    apply Stub.split?_iff.mpr
    rw [← List.append_assoc, whole]
    exact ⟨rfl, closes⟩
  · intro before block after whole
    obtain ⟨pre, t, post, split, front, own⟩ := block_comment whole
    obtain ⟨unclosed, code⟩ := Block.ofTokens_unclosed (Comment.annotations t) post
    have annotations := Block.ofTokens_annotations (Comment.annotations t) post
    rw [← own] at annotations unclosed code
    exact ⟨pre, t, post, split, front, annotations, unclosed, code⟩

/-- A live brace behind the first function is left open. The function is claimed all the same. -/
theorem later_brace_open :
    let u : Text := "void f() \x7b\x7d void g() \x7b"
    let source : Text := ("/* @k v */" : Text) ++ u
    Token.tokenize source = [.comment "/* @k v */", .code u] ∧
    (∃ a r, LiteralState.between.marked u = a ++ Stub.opening :: r ∧
      ∀ k q, Stub.Nested k → r ≠ k ++ Stub.closing :: q) ∧
    ((ofSource source).filterMap block?).map (fun block => (block.code, block.unclosed)) =
      [(("void f() \x7b\x7d" : Text), false)] := by
  intro u source
  refine ⟨by decide +kernel, ?_, by decide +kernel⟩
  refine ⟨LiteralState.between.marked "void f() \x7b\x7d void g() ", [], by decide +kernel, ?_⟩
  intro k q _
  simp

end Segment
end QueryWeaver
