import Mathlib
import QueryWeaver.Proofs.Statement.ColumnList
import QueryWeaver.Proofs.Statement.WordRanges
/-!
Column lists cut out by byte offsets: the list between two words of a statement, its parts between
commas, and the alias of a part behind a word or a blank. Each offset was found in the text that it
cuts, so no cut fails.
-/

namespace QueryWeaver

namespace Nesting

/-- The offsets at the top of the characters that satisfy `p`. -/
def offsets (p : Char → Bool) (s : Nesting) : List (Nat × Char) → List Nat
  | [] => []
  | (i, c) :: r =>
    let rest := offsets p (s.step c) r
    if s.isTop && p c then i :: rest else rest

/-- The trimmed parts from offset `last` on, with a separator of one byte at each of the offsets. -/
def slicedFrom (t : Text) (last : Nat) : List Nat → Option (List Text)
  | [] => (Text.slice? t last (Text.size t)).map ([Text.trim ·])
  | pos :: r => do
    let part ← Text.slice? t last pos
    let parts ← slicedFrom t (pos + 1) r
    return Text.trim part :: parts

def slicedParts (t : Text) : Option (List Text) :=
  slicedFrom t 0 (start.offsets (· == ',') (Text.indexed 0 t))

/-- The text before the last blank at the top, and the text from it on. -/
def slicedLastBlank (t : Text) : Option (Option (Text × Text)) :=
  match (start.offsets isBlank (Text.indexed 0 t)).getLast? with
  | none => some none
  | some split => do
    let before ← Text.slice? t 0 split
    let after ← Text.slice? t split (Text.size t)
    return some (before, after)

theorem modifyHead_empty (parts : List Text) : parts.modifyHead ([] ++ ·) = parts :=
  congrFun List.modifyHead_id parts

theorem slicedFrom_eq (s : Nesting) (a u t : Text) :
    slicedFrom (a ++ (u ++ t)) (Text.size a)
        (s.offsets (· == ',') (Text.indexed (Text.size (a ++ u)) t)) =
      some (((s.splitCommas t).modifyHead (u ++ ·)).map Text.trim) := by
  induction t generalizing s a u with
  | nil =>
    rw [Text.indexed_nil, offsets, slicedFrom, Text.slice?_behind]
    simp [splitCommas]
  | cons c r ih =>
    rw [Text.indexed_cons, offsets]
    cases comma : s.isTop && c == ',' with
    | true =>
      obtain ⟨-, same⟩ := Bool.and_eq_true_iff.mp comma
      obtain rfl := beq_iff_eq.mp same
      have part := Text.slice?_append a u (',' :: r)
      have rest := ih (s.step ',') (a ++ (u ++ [','])) []
      have one : (',' : Char).utf8Size = 1 := rfl
      rw [← Text.size_append] at part
      rw [List.append_nil, Text.size_snoc, one, modifyHead_empty] at rest
      simp only [List.append_assoc, List.nil_append, List.singleton_append] at rest
      rw [if_pos rfl, slicedFrom, part, splitCommas, comma, if_pos rfl, one, Option.bind_eq_bind,
        Option.bind_some, rest]
      simp
    | false =>
      have rest := ih (s.step c) a (u ++ [c])
      rw [Text.size_snoc] at rest
      simp only [List.append_assoc, List.singleton_append] at rest
      rw [if_neg (by simp), splitCommas_cons comma, List.modifyHead_modifyHead, rest]
      rfl

theorem slicedParts_eq (t : Text) : slicedParts t = some (topLevelParts t) := by
  have whole := slicedFrom_eq start [] [] t
  rwa [modifyHead_empty] at whole

theorem splitLastBlank_append {s : Nesting} {t before after : Text}
    (split : s.splitLastBlank t = some (before, after)) : before ++ after = t := by
  induction t generalizing s before with
  | nil => cases split
  | cons c r ih =>
    rw [splitLastBlank] at split
    split at split
    next before' after' later =>
      cases split
      rw [List.cons_append, ih later]
    next =>
      split at split
      next =>
        cases split
        rfl
      next => cases split

/-- The last of the offsets is the one where the text is split. -/
theorem offsets_getLast? (s : Nesting) (pos : Nat) (t : Text) :
    (s.offsets isBlank (Text.indexed pos t)).getLast? =
      (s.splitLastBlank t).map fun (before, _) => pos + Text.size before := by
  induction t generalizing s pos with
  | nil => rfl
  | cons c r ih =>
    have rest := ih (s.step c) (pos + c.utf8Size)
    rw [Text.indexed_cons, offsets, splitLastBlank]
    cases later : (s.step c).splitLastBlank r with
    | some parts =>
      obtain ⟨before, after⟩ := parts
      rw [later] at rest
      split <;> simp [List.getLast?_cons, rest, Nat.add_assoc]
    | none =>
      rw [later, Option.map_none, List.getLast?_eq_none_iff] at rest
      rw [rest]
      split <;> simp

theorem slicedLastBlank_eq (t : Text) :
    slicedLastBlank t = some (start.splitLastBlank t) := by
  rw [slicedLastBlank, offsets_getLast?]
  cases split : start.splitLastBlank t with
  | none => rfl
  | some parts =>
    obtain ⟨before, after⟩ := parts
    have front := Text.slice?_front before after
    have behind := Text.slice?_behind before after
    rw [splitLastBlank_append split] at front behind
    simp [front, behind]

end Nesting

namespace Projection

/-- The column list of a statement, without the blanks and semicolons around it. -/
def slicedText (sql : Text) (kind : StatementKind) : Option (Option Text) := do
  let words ← Word.sliced sql
  match start? kind words with
  | none => return none
  | some start =>
    let stop := (words.find? fun w => start ≤ w.start && isEnd w).map Word.start
    let list ← Text.slice? sql start (stop.getD (Text.size sql))
    return some (Text.trim (Text.trimEnd (· == ';') (Text.trim list)))

theorem isRange_list {sql : Text} {kind : StatementKind} {start stop : Nat}
    (range : range? sql kind = some (start, stop)) : Text.IsRange sql start stop := by
  obtain ⟨n, found, same⟩ := Option.bind_eq_some_iff.mp range
  cases same
  obtain ⟨before, w, after, words, rfl, -⟩ := exists_begins found
  have first : w ∈ Word.ofText sql := by
    rw [words]
    simp
  have starts := (Word.isRange first).stops
  cases last : (Word.ofText sql).find? fun x => w.stop ≤ x.start && isEnd x with
  | none => exact ⟨starts.le_size, Nat.le_refl _, starts, Text.boundary_size sql⟩
  | some w' =>
    have stops := (Word.isRange (List.mem_of_find?_eq_some last)).starts
    have kept : (decide (w.stop ≤ w'.start) && isEnd w') = true :=
      List.find?_some (p := fun x => decide (w.stop ≤ x.start) && isEnd x) last
    have ordered := of_decide_eq_true (Bool.and_eq_true_iff.mp kept).1
    exact ⟨ordered, stops.le_size, starts, stops⟩

theorem slicedText_eq (sql : Text) (kind : StatementKind) :
    slicedText sql kind = some (text? sql kind) := by
  rw [slicedText, Word.sliced_eq, text?]
  cases found : start? kind (Word.ofText sql) with
  | none => simp [found, range?]
  | some start =>
    have range : range? sql kind = some (start, (((Word.ofText sql).find? fun w =>
        start ≤ w.start && isEnd w).map Word.start).getD (Text.size sql)) := by
      rw [range?, found]
      rfl
    have cut := Text.slice?_of_range (isRange_list range)
    simp [found, range, cut]

end Projection

namespace ColumnName

/-- The alias of `expression alias` without the keyword. -/
def slicedImplicitAlias (expr : Text) : Option (Option Text) := do
  match ← Nesting.slicedLastBlank expr with
  | none => return none
  | some (before, after) =>
    let head := Text.trimEnd isBlank before
    let tail := Text.trim after
    return if head.isEmpty || tail.isEmpty then none
      else if isAliasName tail && isOperand head then some tail
      else none

/-- The text after the last `AS` outside parentheses. -/
def slicedExplicitAlias (expr : Text) : Option (Option Text) := do
  let words ← Word.sliced expr
  match words.reverse.find? fun w => w.isTop "as" with
  | none => return none
  | some w =>
    let name ← Text.slice? expr w.stop (Text.size expr)
    return some (Text.trim name)

def sliced (expression : Text) : Option Text := do
  let expr := Text.trim expression
  match ← slicedExplicitAlias expr with
  | some name => return unquote name
  | none =>
    match ← slicedImplicitAlias expr with
    | some name => return unquote name
    | none => return unquote ((referenced? expr).getD expr)

theorem slicedImplicitAlias_eq (expr : Text) :
    slicedImplicitAlias expr = some (implicitAlias? expr) := by
  rw [slicedImplicitAlias, Nesting.slicedLastBlank_eq, implicitAlias?]
  cases Nesting.start.splitLastBlank expr <;> rfl

theorem slicedExplicitAlias_eq (expr : Text) :
    slicedExplicitAlias expr = some (explicitAlias? expr) := by
  rw [slicedExplicitAlias, Word.sliced_eq, Option.bind_eq_bind, Option.bind_some, explicitAlias?]
  cases found : (Word.ofText expr).reverse.find? fun w => w.isTop "as" with
  | none => rfl
  | some w =>
    have member : w ∈ Word.ofText expr := List.mem_reverse.mp (List.mem_of_find?_eq_some found)
    obtain ⟨before, after, whole, size⟩ := (Word.isRange member).stops
    have behind := Text.slice?_behind before after
    have dropped := Text.dropBytes_append before after
    rw [← whole, size] at behind dropped
    simp [behind, dropped]

theorem sliced_eq (expression : Text) : sliced expression = some (ofExpression expression) := by
  rw [sliced, slicedExplicitAlias_eq, slicedImplicitAlias_eq, ofExpression]
  cases explicitAlias? (Text.trim expression) with
  | some name => rfl
  | none => cases implicitAlias? (Text.trim expression) <;> rfl

end ColumnName
end QueryWeaver
