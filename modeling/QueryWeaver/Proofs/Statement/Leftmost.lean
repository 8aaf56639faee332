import Mathlib
import QueryWeaver.Proofs.Statement.Rewriting
/-!
A statement cut at its placeholders. There is one cut that leaves no placeholder starting in the
texts between, and the replacement puts a question mark for each placeholder of this cut.
-/

namespace QueryWeaver

namespace Placeholder

/-- The parts of a placeholder `:name(type)`. -/
@[ext] structure Occurrence where
  name : Text
  type : Text
  named : name ≠ []
  plain : ∀ c ∈ name, isBlank c = false ∧ c ∉ ['(', ')', ':', ',']
  typed : type ≠ []
  inside : ')' ∉ type

namespace Occurrence

def written (o : Occurrence) : Text := ':' :: (o.name ++ '(' :: (o.type ++ [')']))

def param (o : Occurrence) : Field := ⟨Text.trim o.type, o.name⟩

end Occurrence

/-- A text with the placeholders in it: before each of them a text, and the text behind the last. -/
@[ext] structure Cut where
  slots : List (Text × Occurrence)
  last : Text

namespace Cut

def whole (cut : Cut) : Text :=
  cut.slots.foldr (fun slot rest => slot.1 ++ (slot.2.written ++ rest)) cut.last

/-- The text with a question mark for each placeholder. -/
def asked (cut : Cut) : Text :=
  cut.slots.foldr (fun slot rest => slot.1 ++ '?' :: rest) cut.last

def params (cut : Cut) : List Field := cut.slots.map fun slot => slot.2.param

/-- No colon of the text starts a placeholder, which may reach into the rest. -/
def Passed (t rest : Text) : Prop :=
  ∀ a b, t = a ++ ':' :: b → ∀ o : Occurrence, ¬o.written <+: ':' :: (b ++ rest)

def LeftmostFrom : List (Text × Occurrence) → Text → Prop
  | [], last => Passed last []
  | (t, o) :: slots, last =>
    Passed t (o.written ++ (Cut.mk slots last).whole) ∧ LeftmostFrom slots last

/-- No placeholder starts in the texts between. -/
def Leftmost (cut : Cut) : Prop := LeftmostFrom cut.slots cut.last

/-- The cut with a character more in front. -/
def consChar (c : Char) : Cut → Cut
  | ⟨[], last⟩ => ⟨[], c :: last⟩
  | ⟨(t, o) :: slots, last⟩ => ⟨(c :: t, o) :: slots, last⟩

/-- The cut with a placeholder more in front. -/
def cons (o : Occurrence) (cut : Cut) : Cut := ⟨([], o) :: cut.slots, cut.last⟩

end Cut

theorem isNameChar_iff (c : Char) :
    isNameChar c = true ↔ isBlank c = false ∧ c ∉ ['(', ')', ':', ','] := by
  simp only [isNameChar, Bool.and_eq_true, Bool.not_eq_true', bne_iff_ne, List.mem_cons,
    List.not_mem_nil, or_false, not_or, and_assoc]

namespace Occurrence

theorem after?_written (o : Occurrence) (rest : Text) :
    after? (o.name ++ '(' :: (o.type ++ ')' :: rest)) = some (o.param, rest) := by
  have chars : ∀ c ∈ o.name, isNameChar c = true := by
    intro c member
    exact (isNameChar_iff c).mpr (o.plain c member)
  have types : ∀ c ∈ o.type, (c != ')') = true := by
    intro c member
    apply bne_iff_ne.mpr
    intro same
    exact o.inside (same ▸ member)
  have opening : isNameChar '(' = false := by decide
  simp [after?, List.takeWhile_append_of_pos chars, List.dropWhile_append_of_pos chars,
    List.takeWhile_append_of_pos types, List.dropWhile_append_of_pos types, opening, o.named,
    o.typed, param]

theorem first?_written (o : Occurrence) (rest : Text) :
    first? (o.written ++ rest) = some (o.param, rest) := by
  have text : o.written ++ rest = ':' :: (o.name ++ '(' :: (o.type ++ ')' :: rest)) := by
    simp [written]
  rw [text]
  exact o.after?_written rest

/-- A text begins with one placeholder at most. -/
theorem written_inj {o o' : Occurrence} {rest rest' : Text}
    (same : o.written ++ rest = o'.written ++ rest') : o = o' ∧ rest = rest' := by
  have read := o.first?_written rest
  rw [same, first?_written] at read
  obtain ⟨params, rests⟩ := Prod.mk.inj (Option.some.inj read)
  have name : o.name = o'.name := (Field.mk.inj params).2.symm
  have text : o.written = o'.written := by
    rw [rests] at same
    exact List.append_cancel_right same
  simp only [written, name, List.cons.injEq, true_and, List.append_cancel_left_eq,
    List.append_cancel_right_eq] at text
  exact ⟨Occurrence.ext name text, rests.symm⟩

end Occurrence

/-- A placeholder is read where one is written. -/
theorem first?_occurrence {t rest : Text} {param : Field}
    (read : first? t = some (param, rest)) :
    ∃ o : Occurrence, t = o.written ++ rest ∧ param = o.param := by
  unfold first? at read
  split at read
  next r =>
    obtain ⟨type, whole, types, trimmed, named, chars, typed⟩ := after?_written read
    have inside : ')' ∉ type := by
      intro member
      exact absurd (types ')' member) (by decide)
    refine ⟨⟨param.name, type, named, ?_, typed, inside⟩, ?_, ?_⟩
    · intro c member
      exact (isNameChar_iff c).mp (chars c member)
    · simp [Occurrence.written, whole]
    · rw [Occurrence.param, ← trimmed]
  next => cases read

theorem first?_none_iff (t : Text) : first? t = none ↔ ∀ o : Occurrence, ¬o.written <+: t := by
  constructor
  · intro none o starts
    obtain ⟨rest, whole⟩ := starts
    rw [← whole, o.first?_written] at none
    cases none
  · intro apart
    cases read : first? t with
    | none => rfl
    | some found =>
      obtain ⟨o, whole, -⟩ := first?_occurrence read
      exact absurd ⟨found.2, whole.symm⟩ (apart o)

namespace Cut

theorem whole_nil (last : Text) : (Cut.mk [] last).whole = last := rfl

theorem whole_cons (t : Text) (o : Occurrence) (slots : List (Text × Occurrence)) (last : Text) :
    (Cut.mk ((t, o) :: slots) last).whole = t ++ (o.written ++ (Cut.mk slots last).whole) := rfl

theorem passed_nil (rest : Text) : Passed [] rest := by
  intro a b whole
  simp at whole

theorem passed_cons (c : Char) (t rest : Text) :
    Passed (c :: t) rest ↔ first? (c :: (t ++ rest)) = none ∧ Passed t rest := by
  constructor
  · intro passed
    constructor
    · apply (first?_none_iff _).mpr
      intro o starts
      have colon : ':' = c := (List.cons_prefix_cons.mp starts).1
      apply passed [] t (by rw [colon]; rfl) o
      rw [colon]
      exact starts
    · intro a b whole
      exact passed (c :: a) b (congrArg (c :: ·) whole)
  · intro both a b whole o starts
    cases a with
    | nil =>
      obtain ⟨same, rest'⟩ := List.cons.inj whole
      rw [same, rest'] at both
      exact (first?_none_iff _).mp both.1 o starts
    | cons d a => exact both.2 a b (List.cons.inj whole).2 o starts

theorem consChar_whole (c : Char) (cut : Cut) : (cut.consChar c).whole = c :: cut.whole := by
  obtain ⟨slots, last⟩ := cut
  cases slots <;> rfl

theorem consChar_asked (c : Char) (cut : Cut) : (cut.consChar c).asked = c :: cut.asked := by
  obtain ⟨slots, last⟩ := cut
  cases slots <;> rfl

theorem consChar_params (c : Char) (cut : Cut) : (cut.consChar c).params = cut.params := by
  obtain ⟨slots, last⟩ := cut
  cases slots <;> rfl

theorem consChar_leftmost (c : Char) (cut : Cut) :
    (cut.consChar c).Leftmost ↔ first? (c :: cut.whole) = none ∧ cut.Leftmost := by
  obtain ⟨slots, last⟩ := cut
  cases slots with
  | nil =>
    have text := passed_cons c last []
    rw [List.append_nil] at text
    exact text
  | cons slot slots =>
    obtain ⟨t, o⟩ := slot
    simp only [Leftmost, consChar, LeftmostFrom, passed_cons, whole_cons, and_assoc]

theorem cons_leftmost (o : Occurrence) (cut : Cut) :
    (cut.cons o).Leftmost ↔ cut.Leftmost := and_iff_right (passed_nil _)

/-- A cut of a text that is not empty begins with a placeholder or a character. -/
theorem front (cut : Cut) {c : Char} {r : Text} (text : cut.whole = c :: r) :
    (∃ o rest, cut = cons o rest) ∨ ∃ rest, cut = consChar c rest := by
  obtain ⟨slots, last⟩ := cut
  cases slots with
  | nil =>
    rw [whole_nil] at text
    right
    exact ⟨⟨[], r⟩, by rw [text]; rfl⟩
  | cons slot slots =>
    obtain ⟨t, o⟩ := slot
    cases t with
    | nil =>
      left
      exact ⟨o, ⟨slots, last⟩, rfl⟩
    | cons d t =>
      right
      have same : d = c := (List.cons.inj text).1
      exact ⟨⟨(t, o) :: slots, last⟩, by rw [same]; rfl⟩

/-- At a placeholder a leftmost cut begins with it. -/
theorem Leftmost.of_some {cut : Cut} {o : Occurrence} {rest : Text} (leftmost : cut.Leftmost)
    (text : cut.whole = o.written ++ rest) :
    ∃ next, cut = cons o next ∧ next.whole = rest ∧ next.Leftmost := by
  cases cut.front text with
  | inl starts =>
    obtain ⟨o', next, same⟩ := starts
    subst same
    have front : o'.written ++ next.whole = o.written ++ rest := text
    obtain ⟨here, behind⟩ := Occurrence.written_inj front
    exact ⟨next, congrArg (Cut.cons · next) here, behind, (cons_leftmost o' next).mp leftmost⟩
  | inr goes =>
    obtain ⟨next, same⟩ := goes
    subst same
    have none := ((consChar_leftmost _ next).mp leftmost).1
    rw [consChar_whole] at text
    rw [text, o.first?_written] at none
    cases none

/-- Where no placeholder starts a leftmost cut begins with the character. -/
theorem Leftmost.of_none {cut : Cut} {c : Char} {r : Text} (leftmost : cut.Leftmost)
    (text : cut.whole = c :: r) (none : first? (c :: r) = none) :
    ∃ next, cut = consChar c next ∧ next.whole = r ∧ next.Leftmost := by
  cases cut.front text with
  | inl starts =>
    obtain ⟨o, next, same⟩ := starts
    subst same
    have read := o.first?_written next.whole
    have whole : o.written ++ next.whole = c :: r := text
    rw [whole, none] at read
    cases read
  | inr goes =>
    obtain ⟨next, same⟩ := goes
    subst same
    rw [consChar_whole] at text
    exact ⟨next, rfl, (List.cons.inj text).2, ((consChar_leftmost c next).mp leftmost).2⟩

theorem eq_of_whole_nil {cut : Cut} (text : cut.whole = []) : cut = ⟨[], []⟩ := by
  obtain ⟨slots, last⟩ := cut
  cases slots with
  | nil => rw [show last = [] from text]
  | cons slot slots => simp [whole, Occurrence.written] at text

end Cut

/-- What the replacement reads is a leftmost cut. -/
theorem exists_cut (sql : Text) :
    ∃ cut : Cut, cut.whole = sql ∧ cut.Leftmost ∧ replaceAll sql = ⟨cut.asked, cut.params⟩ := by
  fun_induction replaceAll sql with
  | case1 => exact ⟨⟨[], []⟩, rfl, Cut.passed_nil [], rfl⟩
  | case2 c r param rest read q ih =>
    obtain ⟨cut, whole, leftmost, query⟩ := ih
    obtain ⟨o, text, same⟩ := first?_occurrence read
    refine ⟨cut.cons o, ?_, (Cut.cons_leftmost o cut).mpr leftmost, ?_⟩
    · rw [text, ← whole]
      rfl
    · rw [show q = _ from query, same]
      rfl
  | case3 c r none q ih =>
    obtain ⟨cut, whole, leftmost, query⟩ := ih
    refine ⟨cut.consChar c, ?_, ?_, ?_⟩
    · rw [Cut.consChar_whole, whole]
    · apply (Cut.consChar_leftmost c cut).mpr
      rw [whole]
      exact ⟨none, leftmost⟩
    · rw [show q = _ from query, Cut.consChar_asked, Cut.consChar_params]

/-- A text has one leftmost cut. The replacement leaves its texts as they are, puts a question mark
for each of its placeholders, and returns their parameters in order. -/
theorem replaceAll_leftmost (sql : Text) :
    ∃ cut : Cut, cut.whole = sql ∧ cut.Leftmost ∧ replaceAll sql = ⟨cut.asked, cut.params⟩ ∧
      ∀ other : Cut, other.whole = sql → other.Leftmost → other = cut := by
  fun_induction replaceAll sql with
  | case1 =>
    refine ⟨⟨[], []⟩, rfl, Cut.passed_nil [], rfl, ?_⟩
    intro other text _
    exact Cut.eq_of_whole_nil text
  | case2 c r param rest read q ih =>
    obtain ⟨cut, whole, leftmost, query, unique⟩ := ih
    obtain ⟨o, text, same⟩ := first?_occurrence read
    refine ⟨cut.cons o, ?_, (Cut.cons_leftmost o cut).mpr leftmost, ?_, ?_⟩
    · rw [text, ← whole]
      rfl
    · rw [show q = _ from query, same]
      rfl
    · intro other entire further
      obtain ⟨next, front, behind, later⟩ := further.of_some (entire.trans text)
      rw [front, unique next behind later]
  | case3 c r none q ih =>
    obtain ⟨cut, whole, leftmost, query, unique⟩ := ih
    refine ⟨cut.consChar c, ?_, ?_, ?_, ?_⟩
    · rw [Cut.consChar_whole, whole]
    · apply (Cut.consChar_leftmost c cut).mpr
      rw [whole]
      exact ⟨none, leftmost⟩
    · rw [show q = _ from query, Cut.consChar_asked, Cut.consChar_params]
    · intro other entire further
      obtain ⟨next, front, behind, later⟩ := further.of_none entire none
      rw [front, unique next behind later]

end Placeholder
end QueryWeaver
