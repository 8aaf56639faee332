import QueryWeaver.Proofs.Signature.Spellings
import QueryWeaver.Proofs.Text.Blanks
/-!
The grammar of types: word characters and colons, with at most one closed group of angle brackets
behind them. The reader of types takes exactly these, up to the spacing that follows.
-/

namespace QueryWeaver

namespace Spelling

/-- Text whose angle brackets are closed, each by a bracket of its own. -/
inductive Nested : Text → Prop
  | nil : Nested []
  | char {c : Char} {r : Text} : c ≠ '<' → c ≠ '>' → Nested r → Nested (c :: r)
  | group {body r : Text} : Nested body → Nested r → Nested ('<' :: (body ++ '>' :: r))

/-- Text of spacing only. -/
def Spacing (t : Text) : Prop := ∀ c ∈ t, isSpacing c = true

section

variable (depth : Nat) (r : Text) {c : Char}

theorem spanAngles_opening : spanAngles depth ('<' :: r) =
    (spanAngles (depth + 1) r).map fun q => ('<' :: q.1, q.2) := rfl

theorem spanAngles_closing : spanAngles (depth + 2) ('>' :: r) =
    (spanAngles (depth + 1) r).map fun q => ('>' :: q.1, q.2) := rfl

theorem spanAngles_other (opening : c ≠ '<') (closing : c ≠ '>') : spanAngles depth (c :: r) =
    (spanAngles depth r).map fun q => (c :: q.1, q.2) := by
  rw [spanAngles, if_neg opening, if_neg closing]

theorem anglesBalanced_opening :
    anglesBalanced depth ('<' :: r) = anglesBalanced (depth + 1) r := rfl

theorem anglesBalanced_closing :
    anglesBalanced (depth + 1) ('>' :: r) = anglesBalanced depth r := rfl

theorem anglesBalanced_other (opening : c ≠ '<') (closing : c ≠ '>') :
    anglesBalanced depth (c :: r) = anglesBalanced depth r := by
  rw [anglesBalanced, if_neg opening, if_neg closing]

end

namespace Nested

variable {t u : Text}

theorem append (first : Nested t) (second : Nested u) : Nested (t ++ u) := by
  induction first with
  | nil => exact second
  | char opening closing _ ih => exact .char opening closing ih
  | @group body r inner _ _ ih =>
    rw [List.cons_append, List.append_assoc, List.cons_append]
    exact .group inner ih

/-- Characters of a class without angle brackets. -/
theorem ofClass {p : Char → Bool} (opening : p '<' = false) (closing : p '>' = false)
    (all : ∀ c ∈ t, p c = true) : Nested t := by
  induction t with
  | nil => exact .nil
  | cons c t ih =>
    obtain ⟨here, rest⟩ := List.forall_mem_cons.mp all
    exact .char (ne_of_class here opening) (ne_of_class here closing) (ih rest)

theorem anglesBalanced (nested : Nested t) (depth : Nat) (rest : Text) :
    Spelling.anglesBalanced depth (t ++ rest) = Spelling.anglesBalanced depth rest := by
  induction nested generalizing depth rest with
  | nil => rfl
  | char opening closing _ ih =>
    rw [List.cons_append, anglesBalanced_other _ _ opening closing, ih]
  | group _ _ ihBody ihRest =>
    rw [List.cons_append, List.append_assoc, List.cons_append, anglesBalanced_opening, ihBody,
      anglesBalanced_closing, ihRest]

theorem balanced (nested : Nested t) : Spelling.anglesBalanced 0 t = true := by
  have whole := nested.anglesBalanced 0 []
  rwa [List.append_nil] at whole

theorem checkAngles (nested : Nested t) : Spelling.checkAngles t = .ok () := by
  rw [Spelling.checkAngles, nested.balanced]
  rfl

/-- Nested text stays in the group that is open. -/
theorem spanAngles (nested : Nested t) (depth : Nat) (rest : Text) :
    Spelling.spanAngles (depth + 1) (t ++ rest) =
      (Spelling.spanAngles (depth + 1) rest).map fun q => (t ++ q.1, q.2) := by
  induction nested generalizing depth rest with
  | nil => simp
  | char opening closing _ ih =>
    rw [List.cons_append, spanAngles_other _ _ opening closing, ih, Option.map_map]
    rfl
  | group _ _ ihBody ihRest =>
    rw [List.cons_append, List.append_assoc, List.cons_append, spanAngles_opening, ihBody,
      spanAngles_closing, ihRest]
    simp [Function.comp_def]

theorem spanAngles_group {body : Text} (nested : Nested body) (rest : Text) :
    Spelling.spanAngles 0 ('<' :: (body ++ '>' :: rest)) = some ('<' :: (body ++ ['>']), rest) := by
  rw [spanAngles_opening, nested.spanAngles]
  rfl

end Nested

/-- A text closes the bracket open before it, or it leaves that bracket open to the end. -/
theorem nested_or_open (t : Text) : (∃ body r, Nested body ∧ t = body ++ '>' :: r) ∨
    ∀ depth, spanAngles (depth + 1) t = none ∧ anglesBalanced (depth + 1) t = false := by
  induction size : t.length using Nat.strong_induction_on generalizing t with
  | _ n ih =>
    subst size
    cases t with
    | nil => exact .inr fun _ => ⟨rfl, rfl⟩
    | cons c t =>
      by_cases closing : c = '>'
      · exact .inl ⟨[], t, .nil, by rw [closing]; rfl⟩
      by_cases opening : c = '<'
      · subst opening
        rcases ih t.length (by simp) t rfl with ⟨inner, u, nested, rfl⟩ | unclosed
        · -- The inner group is closed: the outer one is closed behind it or not at all.
          rcases ih u.length (by simp; omega) u rfl with ⟨body, r, further, rfl⟩ | unclosed
          · exact .inl ⟨'<' :: (inner ++ '>' :: body), r, .group nested further, by simp⟩
          · refine .inr fun depth => ⟨?_, ?_⟩
            · rw [spanAngles_opening, nested.spanAngles, spanAngles_closing, (unclosed depth).1]
              rfl
            · rw [anglesBalanced_opening, nested.anglesBalanced, anglesBalanced_closing,
                (unclosed depth).2]
        · refine .inr fun depth => ⟨?_, ?_⟩
          · rw [spanAngles_opening, (unclosed (depth + 1)).1]
            rfl
          · rw [anglesBalanced_opening, (unclosed (depth + 1)).2]
      · rcases ih t.length (by simp) t rfl with ⟨body, r, nested, rfl⟩ | unclosed
        · exact .inl ⟨c :: body, r, .char opening closing nested, rfl⟩
        · refine .inr fun depth => ⟨?_, ?_⟩
          · rw [spanAngles_other _ _ opening closing, (unclosed depth).1]
            rfl
          · rw [anglesBalanced_other _ _ opening closing, (unclosed depth).2]

theorem nested_of_balanced {t : Text} (balanced : anglesBalanced 0 t = true) : Nested t := by
  induction size : t.length using Nat.strong_induction_on generalizing t with
  | _ n ih =>
    subst size
    cases t with
    | nil => exact .nil
    | cons c t =>
      by_cases opening : c = '<'
      · subst opening
        rw [anglesBalanced_opening] at balanced
        rcases nested_or_open t with ⟨body, r, nested, rfl⟩ | unclosed
        · rw [nested.anglesBalanced, anglesBalanced_closing] at balanced
          exact .group nested (ih r.length (by simp; omega) balanced rfl)
        · rw [(unclosed 0).2] at balanced
          cases balanced
      · have closing : c ≠ '>' := by
          rintro rfl
          simp [anglesBalanced] at balanced
        rw [anglesBalanced_other _ _ opening closing] at balanced
        exact .char opening closing (ih t.length (by simp) balanced rfl)

theorem nested_iff {t : Text} : checkAngles t = .ok () ↔ Nested t := by
  refine ⟨fun checked => nested_of_balanced ?_, Nested.checkAngles⟩
  rw [checkAngles] at checked
  split at checked
  next balanced => exact balanced
  next => cases checked

/-- Nested text stays nested without a nested part at its end. -/
theorem nested_of_append {t u : Text} (whole : Nested (t ++ u)) (behind : Nested u) : Nested t := by
  have ends (depth : Nat) : anglesBalanced depth (t ++ u) = anglesBalanced depth t := by
    clear whole
    induction t generalizing depth with
    | nil => simpa using behind.anglesBalanced depth []
    | cons c t ih => rw [List.cons_append, anglesBalanced, anglesBalanced, ih, ih, ih]
  exact nested_of_balanced (by rw [← ends, whole.balanced])

/-- A type: word characters and colons, and one closed group of angle brackets or none. -/
inductive IsType : Text → Prop
  | plain {stem : Text} : stem ≠ [] → (∀ c ∈ stem, isTypeChar c = true) → IsType stem
  | angled {stem body : Text} : stem ≠ [] → (∀ c ∈ stem, isTypeChar c = true) → Nested body →
      IsType (stem ++ '<' :: (body ++ ['>']))

theorem isTypeChar_of_spacing {c : Char} (spacing : isSpacing c = true) : isTypeChar c = false := by
  simp only [isSpacing, Bool.or_eq_true, beq_iff_eq, or_assoc] at spacing
  rcases spacing with rfl | rfl | rfl | rfl <;> decide

theorem isSpacing_of_type {c : Char} (type : isTypeChar c = true) : isSpacing c = false := by
  cases spacing : isSpacing c with
  | false => rfl
  | true => exact absurd type (by simp [isTypeChar_of_spacing spacing])

theorem isSpacing_of_word {c : Char} (word : isWordChar c = true) : isSpacing c = false :=
  isSpacing_of_type (by simp [isTypeChar, word])

namespace IsType

variable {type : Text}

theorem head? (isType : IsType type) : ∃ c r, type = c :: r ∧ isTypeChar c = true := by
  cases isType with
  | plain ne all =>
    obtain ⟨c, r, rfl⟩ := List.exists_cons_of_ne_nil ne
    exact ⟨c, r, rfl, all c (List.mem_cons_self ..)⟩
  | angled ne all nested =>
    obtain ⟨c, r, rfl⟩ := List.exists_cons_of_ne_nil ne
    exact ⟨c, _, rfl, all c (List.mem_cons_self ..)⟩

theorem nested (isType : IsType type) : Nested type := by
  cases isType with
  | plain _ all => exact .ofClass (by decide) (by decide) all
  | angled _ all inner => exact .append (.ofClass (by decide) (by decide) all) (.group inner .nil)

/-- A type is read up to the spacing behind it. -/
theorem type? (isType : IsType type) {c : Char} (spacing : isSpacing c = true) (rest : Text) :
    Spelling.type? (type ++ c :: rest) = some (type, c :: rest) := by
  cases isType with
  | plain ne all =>
    have other : isTypeChar c = false := isTypeChar_of_spacing spacing
    have opening : c ≠ '<' := ne_of_class spacing (by decide)
    have stem : (type ++ c :: rest).takeWhile isTypeChar = type := by
      rw [List.takeWhile_append_of_pos all]
      simp [other]
    have behind : (type ++ c :: rest).dropWhile isTypeChar = c :: rest := by
      rw [List.dropWhile_append_of_pos all]
      simp [other]
    rw [Spelling.type?, stem, behind]
    simp [ne, opening]
  | @angled stem body ne all nested =>
    have whole : stem ++ '<' :: (body ++ ['>']) ++ c :: rest =
        stem ++ '<' :: (body ++ '>' :: c :: rest) := by simp
    have first : (stem ++ '<' :: (body ++ '>' :: c :: rest)).takeWhile isTypeChar = stem := by
      rw [List.takeWhile_append_of_pos all]
      simp [show isTypeChar '<' = false by decide]
    have behind : (stem ++ '<' :: (body ++ '>' :: c :: rest)).dropWhile isTypeChar =
        '<' :: (body ++ '>' :: c :: rest) := by
      rw [List.dropWhile_append_of_pos all]
      simp [show isTypeChar '<' = false by decide]
    rw [whole, Spelling.type?, first, behind]
    simp [ne, nested.spanAngles_group]

end IsType

/-- What the reader takes in front of spacing is a type. -/
theorem isType_of_type? {t type r : Text} {c : Char} (spacing : isSpacing c = true)
    (read : type? t = some (type, c :: r)) : IsType type := by
  have all : ∀ x ∈ t.takeWhile isTypeChar, isTypeChar x = true :=
    fun x member => List.mem_takeWhile_imp member
  simp only [type?] at read
  split at read
  next => cases read
  next full =>
    have ne : t.takeWhile isTypeChar ≠ [] := by simpa using full
    split at read
    next opened found =>
      rw [found] at read
      rcases nested_or_open opened with ⟨body, behind, nested, rfl⟩ | unclosed
      · rw [nested.spanAngles_group] at read
        cases read
        exact .angled ne all nested
      · -- An unclosed group is no part of the type, and its bracket is no spacing.
        rw [spanAngles_opening, (unclosed 0).1] at read
        obtain ⟨-, behind⟩ := Prod.mk.inj (Option.some.inj read)
        obtain rfl : '<' = c := (List.cons.inj behind).1
        cases spacing
    next =>
      obtain ⟨rfl, -⟩ := Prod.mk.inj (Option.some.inj read)
      exact .plain ne all

/-- The reader of a type and the spacing behind it accepts exactly its grammar. -/
theorem typeThen?_iff {t type rest : Text} : typeThen? t = some (type, rest) ↔
    IsType type ∧ (∀ c ∈ rest.head?, isSpacing c = false) ∧
      ∃ gap, gap ≠ [] ∧ Spacing gap ∧ t = type ++ (gap ++ rest) := by
  constructor
  · intro read
    rw [typeThen?] at read
    split at read
    next type' c r first =>
      split at read
      next spacing =>
        cases read
        refine ⟨isType_of_type? spacing first, Text.head?_trimStart r, c :: r.takeWhile isSpacing,
          by simp, ?_, ?_⟩
        · exact List.forall_mem_cons.mpr ⟨spacing, fun x member => List.mem_takeWhile_imp member⟩
        · rw [← type?_append first, List.cons_append, List.takeWhile_append_dropWhile]
      next => cases read
    next => cases read
  · rintro ⟨isType, head, gap, ne, spacing, rfl⟩
    obtain ⟨c, gap, rfl⟩ := List.exists_cons_of_ne_nil ne
    obtain ⟨first, others⟩ := List.forall_mem_cons.mp spacing
    have behind : (gap ++ rest).dropWhile isSpacing = rest := by
      rw [List.dropWhile_append_of_pos others]
      exact Text.trimStart_of_head head
    rw [typeThen?, List.cons_append, isType.type? first]
    simp [first, behind]

end Spelling
end QueryWeaver
