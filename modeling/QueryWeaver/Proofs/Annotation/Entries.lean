import Mathlib
import QueryWeaver.Proofs.Annotation.Values
import QueryWeaver.Proofs.Text.Blanks
/-!
Entries written into a comment and read back. Both grammars give each key its last value, and in a
block comment a value may go on behind line breaks with margins of blanks and stars.
-/

namespace QueryWeaver

namespace Text

theorem trimBy_around {p : Char → Bool} {a b : Text} (before : ∀ c ∈ a, p c = true)
    (after : ∀ c ∈ b, p c = true) (t : Text) : trimBy p (a ++ (t ++ b)) = trimBy p t := by
  rw [trimBy, trimStart_append before, trimStart, List.dropWhile_append]
  split
  next empty =>
    have nothing : t.dropWhile p = [] := List.isEmpty_iff.mp empty
    have rest : b.dropWhile p = [] := List.dropWhile_eq_nil_iff.mpr after
    rw [rest, trimBy, trimStart, nothing]
  next => exact trimEnd_append after _

/-- A text without the end of a block comment, character by character. -/
theorem unclosed_cons {c : Char} {t : Text} :
    cut ['*', '/'] (c :: t) = none ↔ (c = '*' → '/' ∉ t.head?) ∧ cut ['*', '/'] t = none := by
  constructor
  · intro missing
    refine ⟨?_, cut_none_right (t := [c]) missing⟩
    rintro rfl first
    obtain ⟨rest, rfl⟩ := List.head?_eq_some_iff.mp first
    have found := cut_prefix ['*', '/'] rest
    cases missing.symm.trans found
  · rintro ⟨apart, missing⟩
    have other : ¬['*', '/'] <+: c :: t := by
      rintro ⟨rest, whole⟩
      obtain ⟨rfl, rfl⟩ := List.cons.inj whole
      exact apart rfl rfl
    rw [cut_cons other, missing]
    rfl

end Text

namespace Dictionary

variable {α : Type}

theorem get?_foldl (l : List (Text × α)) (d : Dictionary α) (key : Text) :
    (l.foldl (fun d (k, v) => d.insert k v) d).get? key =
      (lookup key l.reverse).or (d.get? key) := by
  induction l using List.reverseRecOn with
  | nil => rfl
  | append_singleton l e ih =>
    obtain ⟨k, v⟩ := e
    rw [List.foldl_append, List.reverse_append]
    simp only [List.foldl_cons, List.foldl_nil, List.reverse_singleton, List.singleton_append,
      get?_insert, lookup, ih]
    split <;> rfl

/-- The last value of a key counts. -/
theorem get?_ofList (l : List (Text × α)) (key : Text) :
    (ofList l).get? key = lookup key l.reverse := by
  rw [ofList, get?_foldl, get?_empty, Option.or_none]

theorem isSome_lookup {l : List (Text × α)} {key : Text} :
    (lookup key l).isSome = true ↔ key ∈ l.map Prod.fst := by
  induction l with
  | nil => simp [lookup]
  | cons e l ih =>
    obtain ⟨k, v⟩ := e
    rw [lookup, List.map_cons, List.mem_cons]
    split
    next same => simp [same]
    next other => simp [ih, Ne.symm other]

theorem contains_ofList {l : List (Text × α)} {key : Text} :
    (ofList l).contains key = true ↔ key ∈ l.map Prod.fst := by
  rw [contains, get?_ofList, isSome_lookup, List.map_reverse, List.mem_reverse]

end Dictionary

namespace Comment

/-- An entry that a comment can hold. -/
structure Writable (e : Entry) : Prop where
  named : e.1 ≠ []
  solid : ∀ c ∈ e.1, isBlank c = false ∧ c ≠ '@'
  keyUnclosed : Text.cut ['*', '/'] e.1 = none
  trimmed : Text.trim e.2 = e.2
  joined : ∀ c ∈ e.2, isLineBreak c = false
  valueUnclosed : Text.cut ['*', '/'] e.2 = none

instance decidableWritable (e : Entry) : Decidable (Writable e) :=
  haveI := List.decidableBAll (fun c => isBlank c = false ∧ c ≠ '@') e.1
  haveI := List.decidableBAll (fun c => isLineBreak c = false) e.2
  decidable_of_iff
    (e.1 ≠ [] ∧ (∀ c ∈ e.1, isBlank c = false ∧ c ≠ '@') ∧ Text.cut ['*', '/'] e.1 = none ∧
      Text.trim e.2 = e.2 ∧ (∀ c ∈ e.2, isLineBreak c = false) ∧ Text.cut ['*', '/'] e.2 = none)
    ⟨fun ⟨named, solid, keyUnclosed, trimmed, joined, valueUnclosed⟩ =>
        ⟨named, solid, keyUnclosed, trimmed, joined, valueUnclosed⟩,
      fun ⟨named, solid, keyUnclosed, trimmed, joined, valueUnclosed⟩ =>
        ⟨named, solid, keyUnclosed, trimmed, joined, valueUnclosed⟩⟩

/-- A text with each `@` escaped. -/
def escapeMarks (t : Text) : Text := t.flatMap fun c => if c = '@' then ['\\', '@'] else [c]

/-- An entry on one line. -/
def writeEntry (e : Entry) : Text := ' ' :: '@' :: (e.1 ++ escapeMarks (' ' :: e.2))

def writeAll (entries : List Entry) : Text := entries.flatMap writeEntry

def lineBreaks : List Text := [['\n'], ['\r'], ['\r', '\n']]

def isMargin (c : Char) : Bool := c == ' ' || c == '\t' || c == '*'

theorem mem_lineBreaks {t : Text} :
    t ∈ lineBreaks ↔ t = ['\n'] ∨ t = ['\r'] ∨ t = ['\r', '\n'] := by
  simp [lineBreaks]

/-- A text with line breaks and margins for some of its spaces. What follows such a space neither
continues the margin nor closes the comment with it. -/
inductive Spread : Text → Text → Prop
  | nil : Spread [] []
  | char (c : Char) {v w : Text} (rest : Spread v w) : Spread (c :: v) (c :: w)
  | wrap {lineBreak margin v w : Text} {c : Char} (breaks : lineBreak ∈ lineBreaks)
      (blank : ∀ x ∈ margin, isMargin x = true) (next : v.head? = some c)
      (other : isMargin c = false) (apart : margin.getLast? = some '*' → c ≠ '/')
      (rest : Spread v w) : Spread (' ' :: v) (lineBreak ++ (margin ++ w))

/-- An entry that may be spread over several lines, the space behind its key included. -/
def WrittenEntry (e : Entry) (part : Text) : Prop :=
  ∃ raw, Spread (' ' :: e.2) raw ∧ part = ' ' :: '@' :: (e.1 ++ escapeMarks raw)

/-- An entry read from a comment, its value as written. -/
def Reads (e read : Entry) : Prop := read.1 = e.1 ∧ cleanValue read.2 = e.2

theorem escapeMarks_mark (t : Text) : escapeMarks ('@' :: t) = '\\' :: '@' :: escapeMarks t := rfl

theorem escapeMarks_other {c : Char} (other : c ≠ '@') (t : Text) :
    escapeMarks (c :: t) = c :: escapeMarks t := by
  simp [escapeMarks, other]

/-- No escaped text begins with `@`, and one that begins with a slash did so before. -/
theorem escapeMarks_head? {t rest : Text} {c : Char} (space : ∀ x ∈ rest.head?, x = ' ')
    (first : (escapeMarks t ++ rest).head? = some c) :
    c ≠ '@' ∧ (c = '/' → t.head? = some '/') := by
  cases t with
  | nil =>
    obtain rfl := space c first
    exact ⟨by decide, by decide⟩
  | cons d t =>
    by_cases mark : d = '@'
    · subst mark
      cases first
      exact ⟨by decide, fun slash => absurd slash (by decide)⟩
    · rw [escapeMarks_other mark] at first
      cases first
      exact ⟨mark, by rintro rfl; rfl⟩

namespace Spread

theorem kept (t : Text) {v w : Text} (rest : Spread v w) : Spread (t ++ v) (t ++ w) := by
  induction t with
  | nil => exact rest
  | cons c t ih => exact .char c ih

theorem refl (t : Text) : Spread t t := by
  have same := kept t .nil
  rwa [List.append_nil] at same

theorem head? {v w : Text} {c : Char} (spread : Spread v w) (next : v.head? = some c)
    (other : isMargin c = false) : w.head? = some c := by
  cases spread with
  | nil => cases next
  | char d rest => exact next
  | wrap breaks =>
    cases next
    cases other

/-- A margin closes no comment, nor does it with the character behind it. -/
theorem unclosed_margin {margin w : Text} (blank : ∀ x ∈ margin, isMargin x = true)
    (apart : margin.getLast? = some '*' → '/' ∉ w.head?)
    (missing : Text.cut ['*', '/'] w = none) : Text.cut ['*', '/'] (margin ++ w) = none := by
  induction margin with
  | nil => exact missing
  | cons x margin ih =>
    have further := (List.forall_mem_cons.mp blank).2
    refine Text.unclosed_cons.mpr ⟨?_, ih further ?_⟩
    · rintro rfl slash
      cases margin with
      | nil => exact apart rfl slash
      | cons y margin =>
        obtain rfl : y = '/' := Option.some.inj slash
        exact absurd (further '/' (List.mem_cons_self ..)) (by decide)
    · cases margin with
      | nil => simp
      | cons y margin => exact apart

/-- Line breaks and margins close no comment. -/
theorem unclosed {v w : Text} (spread : Spread v w) (missing : Text.cut ['*', '/'] v = none) :
    Text.cut ['*', '/'] w = none := by
  induction spread with
  | nil => exact missing
  | @char c v w rest ih =>
    obtain ⟨apart, missing⟩ := Text.unclosed_cons.mp missing
    refine Text.unclosed_cons.mpr ⟨fun star slash => apart star ?_, ih missing⟩
    cases rest with
    | nil => exact slash
    | char d rest => exact slash
    | wrap breaks =>
      rcases mem_lineBreaks.mp breaks with rfl | rfl | rfl <;> cases slash
  | @wrap lineBreak margin v w c breaks blank next other apart rest ih =>
    have inner : Text.cut ['*', '/'] (margin ++ w) = none := by
      refine unclosed_margin blank (fun star slash => apart star ?_)
        (ih (Text.unclosed_cons.mp missing).2)
      rw [rest.head? next other] at slash
      exact Option.some.inj slash
    rcases mem_lineBreaks.mp breaks with rfl | rfl | rfl <;>
      simpa [Text.unclosed_cons] using inner

theorem joinLines_margin {margin : Text} (blank : ∀ x ∈ margin, isMargin x = true) (t : Text) :
    joinLines true (margin ++ t) = joinLines true t := by
  induction margin with
  | nil => rfl
  | cons x margin ih =>
    have here := blank x (List.mem_cons_self ..)
    have dropped : isContinuation x = true := by
      rw [isContinuation]
      exact Bool.or_eq_true_iff.mpr (.inl here)
    rw [List.cons_append, joinLines, Bool.true_and, if_pos dropped,
      ih fun y member => blank y (List.mem_cons_of_mem x member)]

/-- Joining the lines of a spread text gives the text back, whatever follows it. -/
theorem joinLines {v w : Text} (spread : Spread v w) (joined : ∀ c ∈ v, isLineBreak c = false)
    (u : Text) : joinLines false (w ++ u) = v ++ joinLines false u := by
  induction spread with
  | nil => rfl
  | @char c v w rest ih =>
    have here := joined c (List.mem_cons_self ..)
    rw [List.cons_append, Comment.joinLines, here,
      ih fun x member => joined x (List.mem_cons_of_mem c member)]
    rfl
  | @wrap lineBreak margin v w c breaks blank next other apart rest ih =>
    have whole := ih fun x member => joined x (List.mem_cons_of_mem ' ' member)
    obtain ⟨w, rfl⟩ := List.head?_eq_some_iff.mp (rest.head? next other)
    obtain ⟨v, rfl⟩ := List.head?_eq_some_iff.mp next
    have kept : isContinuation c = false := by
      have here := joined c (by simp)
      simp only [isMargin, Bool.or_eq_false_iff] at other
      simp [isContinuation, other, here]
    have resumed : Comment.joinLines true (margin ++ (c :: w ++ u)) =
        c :: v ++ Comment.joinLines false u := by
      have here := joined c (by simp)
      rw [joinLines_margin blank, ← whole, List.cons_append, Comment.joinLines,
        Comment.joinLines, kept, here]
      rfl
    rcases mem_lineBreaks.mp breaks with rfl | rfl | rfl
    all_goals
      simp only [List.cons_append, List.nil_append, List.append_assoc] at resumed ⊢
      simp [Comment.joinLines, isLineBreak, isContinuation, resumed]

end Spread

theorem writeAll_cons (e : Entry) (entries : List Entry) :
    writeAll (e :: entries) =
      ' ' :: '@' :: (e.1 ++ (escapeMarks (' ' :: e.2) ++ writeAll entries)) := by
  simp [writeAll, writeEntry]

theorem writtenEntry_writeEntry (e : Entry) : WrittenEntry e (writeEntry e) :=
  ⟨' ' :: e.2, .refl _, rfl⟩

theorem joinLines_joined {t : Text} (joined : ∀ c ∈ t, isLineBreak c = false) :
    joinLines false t = t := by
  have same := (Spread.refl t).joinLines joined []
  simpa [joinLines] using same

/-- What is read of a value between spaces is the value. -/
theorem cleanValue_spread {a b value raw : Text} (spread : Spread (a ++ value) raw)
    (joined : ∀ c ∈ value, isLineBreak c = false) (trimmed : Text.trim value = value)
    (lead : ∀ c ∈ a, c = ' ') (trail : ∀ c ∈ b, c = ' ') : cleanValue (raw ++ b) = value := by
  have spaces {t : Text} {P : Char → Prop} (only : ∀ c ∈ t, c = ' ') (here : P ' ') :
      ∀ c ∈ t, P c := by
    intro c member
    rw [only c member]
    exact here
  have blank : isBlank ' ' = true := by decide
  have inLine : isLineBreak ' ' = false := by decide
  rw [cleanValue, spread.joinLines (List.forall_mem_append.mpr ⟨spaces lead inLine, joined⟩),
    joinLines_joined (spaces trail inLine), List.append_assoc, Text.trim,
    Text.trimBy_around (spaces lead blank) (spaces trail blank)]
  exact trimmed

/-- A character of a value that escapes, begins and ends nothing. -/
theorem blockValue_cons {c : Char} {r : Text} (escapes : c = '\\' → '@' ∉ r.head?) (other : c ≠ '@')
    (closes : c = '*' → '/' ∉ r.head?) :
    blockValue (c :: r) = (c :: (blockValue r).1, (blockValue r).2) := by
  rw [blockValue]
  · rintro rest rfl rfl
    exact escapes rfl rfl
  · exact other
  · rintro rest rfl rfl
    exact closes rfl rfl

theorem lineValue_cons {c : Char} {r : Text} (escapes : c = '\\' → '@' ∉ r.head?)
    (other : c ≠ '@') : lineValue (c :: r) = (c :: (lineValue r).1, (lineValue r).2) := by
  rw [lineValue]
  · rintro rest rfl rfl
    exact escapes rfl rfl
  · exact other

theorem blockValue_escapeMarks {raw rest : Text} (missing : Text.cut ['*', '/'] raw = none)
    (space : ∀ c ∈ rest.head?, c = ' ') :
    blockValue (escapeMarks raw ++ rest) =
      (raw ++ (blockValue rest).1, (blockValue rest).2) := by
  induction raw with
  | nil => rfl
  | cons c raw ih =>
    obtain ⟨apart, further⟩ := Text.unclosed_cons.mp missing
    by_cases mark : c = '@'
    · subst mark
      rw [escapeMarks_mark, List.cons_append, List.cons_append, blockValue, ih further]
      rfl
    · rw [escapeMarks_other mark, List.cons_append, blockValue_cons, ih further]
      · rfl
      · exact fun _ first => (escapeMarks_head? space first).1 rfl
      · exact mark
      · exact fun star first => apart star ((escapeMarks_head? space first).2 rfl)

theorem lineValue_escapeMarks {rest : Text} (space : ∀ c ∈ rest.head?, c = ' ') (value : Text) :
    lineValue (escapeMarks value ++ rest) =
      (value ++ (lineValue rest).1, (lineValue rest).2) := by
  induction value with
  | nil => rfl
  | cons c value ih =>
    by_cases mark : c = '@'
    · subst mark
      rw [escapeMarks_mark, List.cons_append, List.cons_append, lineValue, ih]
      rfl
    · rw [escapeMarks_other mark, List.cons_append, lineValue_cons, ih]
      · rfl
      · exact fun _ first => (escapeMarks_head? space first).1 rfl
      · exact mark

/-- A key is read up to the blank behind it, and the value begins with that blank. -/
theorem blockKey_key {key r : Text} {b : Char} (solid : ∀ c ∈ key, isBlank c = false)
    (missing : Text.cut ['*', '/'] key = none) (blank : isBlank b = true) :
    blockKey (key ++ b :: r) = (key, b :: (blockValue r).1, (blockValue r).2) := by
  have slash : b ≠ '/' := ne_of_class blank (by decide)
  have star : b ≠ '*' := ne_of_class blank (by decide)
  induction key with
  | nil => rw [List.nil_append, blockKey_cons (fun _ same => absurd same star), if_pos blank]
  | cons c key ih =>
    obtain ⟨here, solid⟩ := List.forall_mem_cons.mp solid
    obtain ⟨apart, missing⟩ := Text.unclosed_cons.mp missing
    rw [List.cons_append, blockKey_cons, ih solid missing, here]
    · rfl
    · rintro rest rfl same
      cases key with
      | nil => exact slash (List.cons.inj same).1
      | cons d key => exact apart rfl (congrArg some (List.cons.inj same).1)

theorem lineKey_key {key : Text} (solid : ∀ c ∈ key, isBlank c = false ∧ c ≠ '@') (r : Text) :
    lineKey (key ++ ' ' :: r) = (key, (lineValue r).1, (lineValue r).2) := by
  induction key with
  | nil => rw [List.nil_append, lineKey_cons (by simp) (by decide), if_pos (by decide)]
  | cons c key ih =>
    obtain ⟨⟨here, other⟩, solid⟩ := List.forall_mem_cons.mp solid
    rw [List.cons_append, lineKey_cons, ih solid, here]
    · rfl
    · rintro rest - same
      cases key with
      | nil => exact absurd (List.cons.inj same).1 (by decide)
      | cons d key => exact (solid d (List.mem_cons_self ..)).2 (List.cons.inj same).1
    · exact other

/-- The character that parts a key from its value in a spread entry is blank. -/
theorem Spread.blank_head {v raw : Text} (spread : Spread (' ' :: v) raw) :
    ∃ b r, raw = b :: r ∧ isBlank b = true ∧ b ≠ '@' := by
  cases spread with
  | char _ rest => exact ⟨' ', _, rfl, by decide, by decide⟩
  | wrap breaks =>
    rcases mem_lineBreaks.mp breaks with rfl | rfl | rfl
    all_goals exact ⟨_, _, rfl, by decide, by decide⟩

theorem blockKey_written {e : Entry} {raw r : Text} (writable : Writable e)
    (spread : Spread (' ' :: e.2) raw) (space : ∀ c ∈ r.head?, c = ' ') :
    blockKey (e.1 ++ (escapeMarks raw ++ r)) =
      (e.1, raw ++ (blockValue r).1, (blockValue r).2) := by
  have missing : Text.cut ['*', '/'] raw = none :=
    spread.unclosed (Text.unclosed_cons.mpr ⟨by simp, writable.valueUnclosed⟩)
  obtain ⟨b, t, rfl, blank, other⟩ := spread.blank_head
  rw [escapeMarks_other other, List.cons_append,
    blockKey_key (fun c member => (writable.solid c member).1) writable.keyUnclosed blank,
    blockValue_escapeMarks (Text.unclosed_cons.mp missing).2 space]
  rfl

/-- The written entries up to the end of the comment, read behind a value and outside any. -/
theorem block_written {entries : List Entry} {parts : List Text}
    (written : List.Forall₂ WrittenEntry entries parts) (writable : ∀ e ∈ entries, Writable e) :
    ∃ rest reads, parts.flatten ++ [' ', '*', '/'] = ' ' :: rest ∧
      blockValue (' ' :: rest) = ([' '], reads) ∧ blockOutside (' ' :: rest) = reads ∧
      List.Forall₂ Reads entries reads := by
  induction written with
  | nil => exact ⟨_, [], rfl, by simp [blockValue, blockOutside], by simp [blockOutside], .nil⟩
  | @cons e part entries parts first _ ih =>
    obtain ⟨here, writable⟩ := List.forall_mem_cons.mp writable
    obtain ⟨rest, reads, whole, value, -, each⟩ := ih writable
    obtain ⟨raw, spread, rfl⟩ := first
    have key := blockKey_written here spread (r := ' ' :: rest) (by simp)
    rw [value] at key
    refine ⟨'@' :: (e.1 ++ (escapeMarks raw ++ ' ' :: rest)), (e.1, raw ++ [' ']) :: reads, ?_, ?_,
      ?_, .cons ⟨rfl, ?_⟩ each⟩
    · rw [List.flatten_cons, List.append_assoc, whole]
      simp
    · rw [blockValue_cons (by simp) (by decide) (by simp), blockValue, key]
    · rw [blockOutside, blockOutside, key]
      simp
    · exact cleanValue_spread (a := [' ']) spread here.joined here.trimmed (by simp) (by simp)

/-- The entries written on one line, read behind a value and outside any. -/
theorem line_written {entries : List Entry} (writable : ∀ e ∈ entries, Writable e) :
    ∃ pad reads, (∀ c ∈ (writeAll entries).head?, c = ' ') ∧ (∀ c ∈ pad, c = ' ') ∧
      lineValue (writeAll entries) = (pad, reads) ∧
      lineOutside (writeAll entries) = reads ∧ List.Forall₂ Reads entries reads := by
  induction entries with
  | nil =>
    exact ⟨[], [], by simp [writeAll], by simp, by simp [writeAll, lineValue],
      by simp [writeAll, lineOutside], .nil⟩
  | cons e entries ih =>
    obtain ⟨here, writable⟩ := List.forall_mem_cons.mp writable
    obtain ⟨pad, reads, space, spaces, value, -, each⟩ := ih writable
    have key : lineKey (e.1 ++ (escapeMarks (' ' :: e.2) ++ writeAll entries)) =
        (e.1, e.2 ++ pad, reads) := by
      rw [escapeMarks_other (by decide), List.cons_append, lineKey_key here.solid,
        lineValue_escapeMarks space, value]
    refine ⟨[' '], (e.1, e.2 ++ pad) :: reads, by simp [writeAll_cons], by simp, ?_, ?_,
      .cons ⟨rfl, ?_⟩ each⟩
    · rw [writeAll_cons, lineValue_cons (by simp) (by decide), lineValue, key]
    · rw [writeAll_cons, lineOutside, lineOutside, key]
      all_goals simp
    · exact cleanValue_spread (a := []) (.refl e.2) here.joined here.trimmed (by simp) spaces

theorem collect_reads {entries reads : List Entry} (each : List.Forall₂ Reads entries reads)
    (named : ∀ e ∈ entries, e.1 ≠ []) : collect reads = Dictionary.ofList entries := by
  have same : (reads.filter fun e => !e.1.isEmpty).map (fun e => (e.1, cleanValue e.2)) =
      entries := by
    induction each with
    | nil => rfl
    | @cons e read entries reads first _ ih =>
      obtain ⟨here, named⟩ := List.forall_mem_cons.mp named
      obtain ⟨key, value⟩ := first
      have kept : (!read.1.isEmpty) = true := by simpa [key] using here
      rw [List.filter_cons_of_pos (p := fun e : Entry => !e.1.isEmpty) kept, List.map_cons,
        ih named, key, value]
  rw [collect, same]

/-- Entries written into a comment come back from both grammars: on one line, and in a block
comment also spread over several. -/
theorem annotations_written {entries : List Entry} {parts : List Text}
    (writable : ∀ e ∈ entries, Writable e) (written : List.Forall₂ WrittenEntry entries parts) :
    annotations (("/*" : Text) ++ writeAll entries ++ (" */" : Text)) = Dictionary.ofList entries ∧
    annotations (("//" : Text) ++ writeAll entries) = Dictionary.ofList entries ∧
    annotations (("/*" : Text) ++ parts.flatten ++ (" */" : Text)) = Dictionary.ofList entries ∧
    ∀ key, Dictionary.get? (Dictionary.ofList entries) key =
      Dictionary.lookup key entries.reverse := by
  have named : ∀ e ∈ entries, e.1 ≠ [] := fun e member => (writable e member).named
  have block {parts : List Text} (written : List.Forall₂ WrittenEntry entries parts) :
      annotations (("/*" : Text) ++ parts.flatten ++ (" */" : Text)) =
        Dictionary.ofList entries := by
    obtain ⟨rest, reads, whole, -, outside, each⟩ := block_written written writable
    have text : ("/*" : Text) ++ parts.flatten ++ (" */" : Text) = '/' :: '*' :: ' ' :: rest := by
      rw [List.append_assoc]
      exact congrArg ('/' :: '*' :: ·) whole
    rw [text, annotations, ofBlock, blockOutside, blockOutside, outside]
    · exact collect_reads each named
    all_goals simp
  have oneLine : List.Forall₂ WrittenEntry entries (entries.map writeEntry) :=
    List.forall₂_map_right_iff.mpr
      (List.forall₂_same.mpr fun e _ => writtenEntry_writeEntry e)
  refine ⟨block oneLine, ?_, block written, Dictionary.get?_ofList entries⟩
  obtain ⟨pad, reads, space, -, -, outside, each⟩ := line_written writable
  have body : Text.trimStart (· == '/') ('/' :: '/' :: writeAll entries) = writeAll entries := by
    refine (Text.trimStart_append (a := ['/', '/']) (by simp) _).trans ?_
    refine Text.trimStart_of_head fun c first => ?_
    rw [space c first]
    decide
  calc annotations (("//" : Text) ++ writeAll entries)
      = collect (lineOutside (Text.trimStart (· == '/') ('/' :: '/' :: writeAll entries))) := rfl
    _ = collect reads := by rw [body, outside]
    _ = Dictionary.ofList entries := collect_reads each named

/-- Two entries, the first of them written over two lines. -/
def sampleEntries : List Entry :=
  [("sql", "SELECT '@*' /a\\@"), ("-x*", ""), ("sql", "b* /c")]

theorem sample_written :
    let parts : List Text :=
      [" @sql\r\n * \tSELECT\n'\\@*'\n\t/a\\\\@", " @-x* ", " @sql\r**b* /c"]
    (∀ e ∈ sampleEntries, Writable e) ∧ List.Forall₂ WrittenEntry sampleEntries parts ∧
      annotations (("/*" : Text) ++ parts.flatten ++ (" */" : Text)) =
        Dictionary.ofList sampleEntries := by
  intro parts
  have writable : ∀ e ∈ sampleEntries, Writable e := by decide
  have first : Spread " SELECT '@*' /a\\@" "\r\n * \tSELECT\n'@*'\n\t/a\\@" := by
    refine @Spread.wrap ['\r', '\n'] " * \t" _ _ 'S' (by decide) (by simp [isMargin]) rfl
      (by decide) (by decide) (.kept "SELECT" ?_)
    refine @Spread.wrap ['\n'] [] _ _ '\'' (by decide) (by simp) rfl (by decide) (by decide)
      (.kept "'@*'" ?_)
    exact @Spread.wrap ['\n'] ['\t'] _ _ '/' (by decide) (by simp [isMargin]) rfl (by decide)
      (by decide) (.refl "/a\\@")
  have last : Spread " b* /c" "\r**b* /c" :=
    @Spread.wrap ['\r'] ['*', '*'] _ _ 'b' (by decide) (by simp [isMargin]) rfl (by decide)
      (by decide) (.refl "b* /c")
  have written : List.Forall₂ WrittenEntry sampleEntries parts :=
    .cons ⟨_, first, by decide⟩ (.cons ⟨_, .refl [' '], by decide⟩
      (.cons ⟨_, last, by decide⟩ .nil))
  exact ⟨writable, written, (annotations_written writable written).2.2.1⟩

end Comment
end QueryWeaver
