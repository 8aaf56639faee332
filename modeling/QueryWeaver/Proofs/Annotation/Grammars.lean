import Mathlib
import QueryWeaver.Proofs.Annotation.Entries
/-!
The two comment grammars on one body. Where the first `@` of the body is not escaped, they read the
same annotations exactly when no key goes on over an `@`.
-/

namespace QueryWeaver

namespace Comment

/-- The end of a block comment, behind a space. -/
def ending : Text := [' ', '*', '/']

/-- What a text begins with, up to its first blank. -/
def word (t : Text) : Text := t.takeWhile fun c => !isBlank c

/-- The words behind the `@`s that no backslash stands directly before. -/
def words : Text → List Text
  | [] => []
  | '\\' :: '@' :: r => words r
  | '@' :: r => word r :: words r
  | _ :: r => words r

/-- The first `@` has no backslash directly before it. -/
def Started (t : Text) : Prop :=
  '@' ∈ t → (t.takeWhile (· ≠ '@')).getLast? ≠ some '\\'

def Unmarked (keys : List Text) : Prop := ∀ key ∈ keys, '@' ∉ key

/-- The end of a block comment does not stand in the text. -/
def Unclosed (t : Text) : Prop := Text.cut ['*', '/'] t = none

def Joined (t : Text) : Prop := ∀ c ∈ t, isLineBreak c = false

instance decidableStarted (t : Text) : Decidable (Started t) :=
  inferInstanceAs (Decidable ('@' ∈ t → _))

instance decidableUnmarked (keys : List Text) : Decidable (Unmarked keys) :=
  List.decidableBAll (fun key => '@' ∉ key) keys

instance decidableUnclosed (t : Text) : Decidable (Unclosed t) :=
  inferInstanceAs (Decidable (Text.cut ['*', '/'] t = none))

instance decidableJoined (t : Text) : Decidable (Joined t) :=
  List.decidableBAll (fun c => isLineBreak c = false) t

/-- The entries of a block comment, from a place behind an `@`. -/
def blockEntries (t : Text) : List Entry := ((blockKey t).1, (blockKey t).2.1) :: (blockKey t).2.2

/-- The entries of a line comment, from a place behind an `@`. -/
def lineEntries (t : Text) : List Entry := ((lineKey t).1, (lineKey t).2.1) :: (lineKey t).2.2

def keys (entries : List Entry) : List Text := entries.map Prod.fst

/-- An entry as two readings give it. -/
def SameEntry (e e' : Entry) : Prop := e.1 = e'.1 ∧ cleanValue e.2 = cleanValue e'.2

section

variable {c : Char} {r : Text}

theorem word_blank (blank : isBlank c = true) : word (c :: r) = [] := by
  simp [word, blank]

theorem word_solid (solid : isBlank c = false) : word (c :: r) = c :: word r := by
  simp [word, solid]

theorem mem_head?_of_word {x : Char} (first : x ∈ (word r).head?) : x ∈ r.head? := by
  cases r with
  | nil => exact first
  | cons d r =>
    cases blank : isBlank d with
    | true =>
      rw [word_blank blank] at first
      cases first
    | false =>
      rw [word_solid blank] at first
      exact first

theorem words_cons (escapes : c = '\\' → '@' ∉ r.head?) (other : c ≠ '@') :
    words (c :: r) = words r := by
  rw [words]
  · rintro rest rfl rfl
    exact escapes rfl rfl
  · exact other

theorem Started.tail (started : Started (c :: r)) (other : c ≠ '@') : Started r := by
  intro mark last
  apply started (List.mem_cons_of_mem c mark)
  rw [List.takeWhile_cons_of_pos (by simpa using other), List.getLast?_cons, last]
  rfl

theorem Started.not_escaped (started : Started ('\\' :: '@' :: r)) : False :=
  started (by simp) (by simp)

theorem Unclosed.tail (body : Unclosed (c :: r)) : Unclosed r := (Text.unclosed_cons.mp body).2

theorem Unclosed.suffix {t : Text} (body : Unclosed t) (behind : r <:+ t) : Unclosed r := by
  obtain ⟨u, rfl⟩ := behind
  exact Text.cut_none_right body

theorem Joined.tail (joined : Joined (c :: r)) : Joined r := (List.forall_mem_cons.mp joined).2

/-- The end of the comment makes no star of the body close it. -/
theorem Unclosed.open (body : Unclosed (c :: r)) : c = '*' → '/' ∉ (r ++ ending).head? := by
  intro star slash
  apply (Text.unclosed_cons.mp body).1 star
  cases r with
  | nil => exact absurd slash (by decide)
  | cons d r => exact slash

theorem Unclosed.blockKey_cons (body : Unclosed (c :: r)) :
    blockKey (c :: r ++ ending) =
      if isBlank c then ([], c :: (blockValue (r ++ ending)).1, (blockValue (r ++ ending)).2)
      else (c :: (blockKey (r ++ ending)).1, (blockKey (r ++ ending)).2.1,
        (blockKey (r ++ ending)).2.2) := by
  rw [List.cons_append, Comment.blockKey_cons]
  intro rest star same
  exact body.open star (by simp [same])

theorem Unclosed.blockValue_cons (body : Unclosed (c :: r)) (escapes : c = '\\' → '@' ∉ r.head?)
    (other : c ≠ '@') :
    blockValue (c :: r ++ ending) =
      (c :: (blockValue (r ++ ending)).1, (blockValue (r ++ ending)).2) := by
  have before : c = '\\' → '@' ∉ (r ++ ending).head? := by
    intro backslash mark
    cases r with
    | nil => exact absurd mark (by decide)
    | cons d r => exact escapes backslash mark
  exact Comment.blockValue_cons before other body.open

/-- Of two characters in a row, as the scans ask for them. -/
theorem not_head? {x y : Char} (apart : ∀ rest, c = x → r = y :: rest → False) :
    c = x → y ∉ r.head? := by
  intro first second
  obtain ⟨rest, same⟩ := List.head?_eq_some_iff.mp second
  exact apart rest first same

end

theorem blockKey_ending : blockKey ending = ([], [' '], []) := by
  have blank : isBlank ' ' = true := by decide
  simp [ending, blockKey, blockValue, blockOutside, blank]

theorem blockValue_ending : blockValue ending = ([' '], []) := by
  simp [ending, blockValue, blockOutside]

theorem blockOutside_ending : blockOutside ending = [] := by
  simp [ending, blockOutside]

/-- Blanks around a value that do not break its line are cleaned away. -/
theorem cleanValue_around {a b t : Text}
    (before : ∀ c ∈ a, isBlank c = true ∧ isLineBreak c = false)
    (after : ∀ c ∈ b, isBlank c = true ∧ isLineBreak c = false)
    (joined : Joined t) : cleanValue (a ++ (t ++ b)) = cleanValue t := by
  have whole : Joined (a ++ (t ++ b)) := by
    intro c member
    simp only [List.mem_append] at member
    rcases member with first | inside | last
    · exact (before c first).2
    · exact joined c inside
    · exact (after c last).2
  rw [cleanValue, cleanValue, joinLines_joined whole, joinLines_joined joined, Text.trim,
    Text.trimBy_around (fun c member => (before c member).1) fun c member => (after c member).1]
  rfl

/-- A value in a block comment has in addition the blank before it and the space before the end of
the comment. -/
theorem line_block :
    (∀ r, Unclosed r → Joined r → '@' ∉ word r → Unmarked (words r) →
      List.Forall₂ SameEntry (lineEntries r) (blockEntries (r ++ ending))) ∧
    (∀ r, Unclosed r → Joined r → Unmarked (words r) →
      (∃ q, (∀ c ∈ q, c = ' ') ∧ (blockValue (r ++ ending)).1 = (lineValue r).1 ++ q) ∧
      List.Forall₂ SameEntry (lineValue r).2 (blockValue (r ++ ending)).2) := by
  apply lineKey.mutual_induct
  all_goals intros
  case case1 =>
    rw [List.nil_append, lineEntries, blockEntries, blockKey_ending]
    exact .cons ⟨rfl, by decide⟩ .nil
  case case2 r key value entries read ih body joined plain further =>
    exact absurd (show '@' ∈ '\\' :: '@' :: word r by simp) plain
  case case3 r key value entries read ih body joined plain further =>
    exact absurd (List.mem_cons_self (a := '@') (l := word r)) plain
  case case4 c r escapes other blank value entries read ih body joined plain further =>
    rw [words_cons (not_head? escapes) other] at further
    obtain ⟨⟨q, spaces, value⟩, each⟩ := ih body.tail joined.tail further
    have inLine : Joined (lineValue r).1 :=
      ((lineKey_over (fun x => isLineBreak x = false)).2 r joined.tail).1
    have around : cleanValue ([c] ++ ((lineValue r).1 ++ q)) = cleanValue (lineValue r).1 := by
      refine cleanValue_around ?_ ?_ inLine
      · intro x member
        obtain rfl := List.mem_singleton.mp member
        exact ⟨blank, joined x (List.mem_cons_self ..)⟩
      · intro x member
        rw [spaces x member]
        decide
    rw [lineEntries, blockEntries, lineKey_cons escapes other, if_pos blank, body.blockKey_cons,
      if_pos blank, value]
    exact .cons ⟨rfl, around.symm⟩ each
  case case5 c r escapes other solid key value entries read ih body joined plain further =>
    rw [words_cons (not_head? escapes) other] at further
    rw [word_solid (eq_false_of_ne_true solid)] at plain
    have rest := ih body.tail joined.tail (fun mark => plain (List.mem_cons_of_mem c mark)) further
    obtain ⟨⟨key, value⟩, each⟩ := List.forall₂_cons.mp rest
    rw [lineEntries, blockEntries, lineKey_cons escapes other, if_neg solid, body.blockKey_cons,
      if_neg solid]
    exact .cons ⟨congrArg (c :: ·) key, value⟩ each
  case case6 =>
    rw [List.nil_append, blockValue_ending, lineValue]
    exact ⟨⟨[' '], by simp, rfl⟩, .nil⟩
  case case7 r value entries read ih body joined further =>
    obtain ⟨⟨q, spaces, value⟩, each⟩ := ih body.tail.tail joined.tail.tail further
    exact ⟨⟨q, spaces, congrArg ('@' :: ·) value⟩, each⟩
  case case8 r key value entries read ih body joined further =>
    obtain ⟨plain, further⟩ := List.forall_mem_cons.mp further
    exact ⟨⟨[], by simp, rfl⟩, ih body.tail joined.tail plain further⟩
  case case9 c r escapes other value entries read ih body joined further =>
    rw [words_cons (not_head? escapes) other] at further
    obtain ⟨⟨q, spaces, value⟩, each⟩ := ih body.tail joined.tail further
    rw [lineValue_cons (not_head? escapes) other, body.blockValue_cons (not_head? escapes) other]
    exact ⟨⟨q, spaces, congrArg (c :: ·) value⟩, each⟩

/-- On a line each `@` that is not escaped begins an entry. Its key is read of the word behind it
and holds no `@`. -/
theorem line_words :
    (∀ r, (lineKey r).1 = (lineKey (word r)).1 ∧ '@' ∉ (lineKey r).1 ∧
      keys (lineKey r).2.2 = (words r).map fun w => (lineKey w).1) ∧
    (∀ r, keys (lineValue r).2 = (words r).map fun w => (lineKey w).1) := by
  apply lineKey.mutual_induct
  all_goals intros
  case case1 => exact ⟨rfl, List.not_mem_nil, rfl⟩
  case case2 r key value entries read ih => exact ih
  case case3 r key value entries read ih =>
    obtain ⟨key, -, each⟩ := ih
    exact ⟨rfl, List.not_mem_nil, List.cons_eq_cons.mpr ⟨key, each⟩⟩
  case case4 c r escapes other blank value entries read ih =>
    rw [lineKey_cons escapes other, if_pos blank, word_blank blank,
      words_cons (not_head? escapes) other]
    exact ⟨rfl, List.not_mem_nil, ih⟩
  case case5 c r escapes other solid key value entries read ih =>
    obtain ⟨key, unmarked, each⟩ := ih
    have apart : ∀ rest, c = '\\' → word r = '@' :: rest → False := by
      intro rest backslash same
      exact not_head? escapes backslash (mem_head?_of_word (by simp [same]))
    rw [lineKey_cons escapes other, if_neg solid, word_solid (eq_false_of_ne_true solid),
      lineKey_cons apart other, if_neg solid, words_cons (not_head? escapes) other]
    refine ⟨congrArg (c :: ·) key, fun mark => ?_, each⟩
    rcases List.mem_cons.mp mark with same | later
    · exact other same.symm
    · exact unmarked later
  case case6 => rfl
  case case7 r value entries read ih => exact ih
  case case8 r key value entries read ih =>
    obtain ⟨key, -, each⟩ := ih
    exact List.cons_eq_cons.mpr ⟨key, each⟩
  case case9 c r escapes other value entries read ih =>
    rw [lineValue_cons (not_head? escapes) other, words_cons (not_head? escapes) other]
    exact ih

/-- In a block comment some of the `@`s that are not escaped begin an entry, and all of them if no
key holds an `@`. -/
theorem block_words :
    (∀ r, Unclosed r → (blockKey (r ++ ending)).1 = word r ∧
      (keys (blockKey (r ++ ending)).2.2).Sublist (words r) ∧
      ('@' ∉ word r → Unmarked (keys (blockKey (r ++ ending)).2.2) →
        keys (blockKey (r ++ ending)).2.2 = words r)) ∧
    (∀ r, Unclosed r → (keys (blockValue (r ++ ending)).2).Sublist (words r) ∧
      (Unmarked (keys (blockValue (r ++ ending)).2) →
        keys (blockValue (r ++ ending)).2 = words r)) := by
  apply lineKey.mutual_induct
  all_goals intros
  case case1 =>
    rw [List.nil_append, blockKey_ending]
    exact ⟨rfl, .slnil, fun _ _ => rfl⟩
  case case2 r key value entries read ih body =>
    obtain ⟨key, some, -⟩ := ih body.tail.tail
    have mark : isBlank '@' = false := by decide
    have backslash : isBlank '\\' = false := by decide
    rw [body.blockKey_cons, body.tail.blockKey_cons, word_solid backslash, word_solid mark]
    simp only [mark, backslash]
    refine ⟨congrArg ('\\' :: '@' :: ·) key, some, fun plain => ?_⟩
    exact absurd (by simp) plain
  case case3 r key value entries read ih body =>
    obtain ⟨key, some, -⟩ := ih body.tail
    have mark : isBlank '@' = false := by decide
    rw [body.blockKey_cons, word_solid mark]
    simp only [mark]
    refine ⟨congrArg ('@' :: ·) key, some.cons _, fun plain => ?_⟩
    exact absurd (by simp) plain
  case case4 c r escapes other blank value entries read ih body =>
    rw [body.blockKey_cons, if_pos blank, word_blank blank, words_cons (not_head? escapes) other]
    exact ⟨rfl, (ih body.tail).1, fun _ => (ih body.tail).2⟩
  case case5 c r escapes other solid key value entries read ih body =>
    obtain ⟨key, some, all⟩ := ih body.tail
    rw [body.blockKey_cons, if_neg solid, word_solid (eq_false_of_ne_true solid),
      words_cons (not_head? escapes) other]
    refine ⟨congrArg (c :: ·) key, some, fun plain => all ?_⟩
    exact fun mark => plain (List.mem_cons_of_mem c mark)
  case case6 =>
    rw [List.nil_append, blockValue_ending]
    exact ⟨.slnil, fun _ => rfl⟩
  case case7 r value entries read ih body => exact ih body.tail.tail
  case case8 r key value entries read ih body =>
    obtain ⟨key, some, all⟩ := ih body.tail
    have first : keys (blockValue ('@' :: r ++ ending)).2 =
        word r :: keys (blockKey (r ++ ending)).2.2 := congrArg (· :: _) key
    rw [first, words]
    refine ⟨some.cons_cons _, fun unmarked => ?_⟩
    obtain ⟨plain, later⟩ := List.forall_mem_cons.mp unmarked
    rw [all plain later]
  case case9 c r escapes other value entries read ih body =>
    rw [body.blockValue_cons (not_head? escapes) other, words_cons (not_head? escapes) other]
    exact ih body.tail

theorem lineOutside_words (b : Text) :
    keys (lineOutside b) = (words b).map fun w => (lineKey w).1 := by
  fun_induction lineOutside b with
  | case1 => rfl
  | case2 r ih => exact ih
  | case3 r key value entries read =>
    obtain ⟨first, -, each⟩ := line_words.1 r
    rw [read] at first each
    exact List.cons_eq_cons.mpr ⟨first, each⟩
  | case4 c r escapes other ih =>
    rw [words_cons (not_head? escapes) other]
    exact ih

/-- Outside any entry the first `@` begins one, in both grammars. -/
theorem Started.read {b : Text} (started : Started b) :
    (lineOutside b = [] ∧ blockOutside (b ++ ending) = [] ∧ words b = []) ∨
      ∃ r, r <:+ b ∧ lineOutside b = lineEntries r ∧
        blockOutside (b ++ ending) = blockEntries (r ++ ending) ∧ words b = word r :: words r := by
  fun_induction lineOutside b with
  | case1 => exact .inl ⟨rfl, blockOutside_ending, rfl⟩
  | case2 r ih => exact started.not_escaped.elim
  | case3 r key value entries read =>
    exact .inr ⟨r, List.suffix_cons '@' r, by rw [lineEntries, read], rfl, rfl⟩
  | case4 c r escapes other ih =>
    rw [List.cons_append, blockOutside, words_cons (not_head? escapes) other]
    · rcases ih (started.tail other) with none | ⟨rest, behind, found⟩
      · exact .inl none
      · exact .inr ⟨rest, behind.trans (List.suffix_cons c r), found⟩
    · exact other

theorem line_block_outside {b : Text} (started : Started b) (body : Unclosed b) (joined : Joined b)
    (unmarked : Unmarked (words b)) :
    List.Forall₂ SameEntry (lineOutside b) (blockOutside (b ++ ending)) := by
  rcases started.read with ⟨line, block, -⟩ | ⟨r, behind, line, block, found⟩
  · rw [line, block]
    exact .nil
  · rw [found] at unmarked
    obtain ⟨plain, further⟩ := List.forall_mem_cons.mp unmarked
    have inLine : Joined r := fun c member => joined c (behind.subset member)
    rw [line, block]
    exact line_block.1 r (body.suffix behind) inLine plain further

theorem blockOutside_words {b : Text} (started : Started b) (body : Unclosed b) :
    (keys (blockOutside (b ++ ending))).Sublist (words b) ∧
      (Unmarked (keys (blockOutside (b ++ ending))) →
        keys (blockOutside (b ++ ending)) = words b) := by
  rcases started.read with ⟨-, block, found⟩ | ⟨r, behind, -, block, found⟩
  · rw [block, found]
    exact ⟨.slnil, fun _ => rfl⟩
  · obtain ⟨key, some, all⟩ := block_words.1 r (body.suffix behind)
    have first : keys (blockEntries (r ++ ending)) =
        word r :: keys (blockKey (r ++ ending)).2.2 := congrArg (· :: _) key
    rw [block, found, first]
    refine ⟨some.cons_cons _, fun unmarked => ?_⟩
    obtain ⟨plain, later⟩ := List.forall_mem_cons.mp unmarked
    rw [all plain later]

theorem lineOutside_unmarked (t : Text) : Unmarked (keys (lineOutside t)) := by
  intro key member
  rw [lineOutside_words] at member
  obtain ⟨w, -, rfl⟩ := List.mem_map.mp member
  exact (line_words.1 w).2.1

theorem collect_congr {entries entries' : List Entry}
    (each : List.Forall₂ SameEntry entries entries') : collect entries = collect entries' := by
  have same : (entries.filter fun e => !e.1.isEmpty).map (fun e => (e.1, cleanValue e.2)) =
      (entries'.filter fun e => !e.1.isEmpty).map (fun e => (e.1, cleanValue e.2)) := by
    induction each with
    | nil => rfl
    | @cons e e' _ _ first _ ih =>
      obtain ⟨key, value⟩ := first
      simp only [List.filter_cons, key]
      split
      · rw [List.map_cons, List.map_cons, ih, key, value]
      · exact ih
  rw [collect, same, ← collect]

/-- The keys of the annotations are those of the entries, but for the empty key. -/
theorem contains_collect {entries : List Entry} {key : Text} :
    Dictionary.contains (collect entries) key = true ↔ key ≠ [] ∧ key ∈ keys entries := by
  rw [collect, Dictionary.contains_ofList]
  simp only [keys, List.map_map, List.mem_map, List.mem_filter, Function.comp]
  constructor
  · rintro ⟨e, ⟨member, named⟩, rfl⟩
    exact ⟨by simpa using named, e, member, rfl⟩
  · rintro ⟨named, e, member, rfl⟩
    exact ⟨e, ⟨member, by simpa using named⟩, rfl⟩

/-- One body in both comments. Unless its first `@` is escaped, the block comment's entries begin at
`@`s that are not, and the annotations agree exactly when no key goes on over an `@`. On a line
every `@` that is not escaped begins an entry, and no other does. -/
theorem grammars_agree {b : Text} (body : Unclosed b) (started : Started b) :
    (keys (blockOutside (("/*" : Text) ++ b ++ (" */" : Text)))).Sublist (words b) ∧
    (Joined b → '/' ∉ b.head? →
      (ofBlock (("/*" : Text) ++ b ++ (" */" : Text)) = ofLine (("//" : Text) ++ b) ↔
        Unmarked (words b))) ∧
    ∀ t, keys (lineOutside t) = (words t).map fun w => (lineKey w).1 := by
  have block : blockOutside (("/*" : Text) ++ b ++ (" */" : Text)) =
      blockOutside (b ++ ending) := by
    rw [List.append_assoc]
    exact rfl
  obtain ⟨some, all⟩ := blockOutside_words started body
  rw [ofBlock, block]
  refine ⟨some, fun joined unslashed => ?_, lineOutside_words⟩
  have line : ofLine (("//" : Text) ++ b) = collect (lineOutside b) := by
    refine congrArg (fun t => collect (lineOutside t)) ?_
    refine (Text.trimStart_append (a := ['/', '/']) (by simp) b).trans (Text.trimStart_of_head ?_)
    intro c first
    refine beq_false_of_ne fun slash => unslashed (slash ▸ first)
  rw [line]
  constructor
  · intro same
    have unmarked : Unmarked (keys (blockOutside (b ++ ending))) := by
      intro key member mark
      have named : key ≠ [] := List.ne_nil_of_mem mark
      have held : Dictionary.contains (collect (blockOutside (b ++ ending))) key = true :=
        contains_collect.mpr ⟨named, member⟩
      rw [same] at held
      exact lineOutside_unmarked b key (contains_collect.mp held).2 mark
    exact all unmarked ▸ unmarked
  · intro unmarked
    exact (collect_congr (line_block_outside started body joined unmarked)).symm

theorem sample_agrees :
    let b : Text := " @k*\tv /\\@w@\\ @l"
    Unclosed b ∧ Started b ∧
      ofBlock (("/*" : Text) ++ b ++ (" */" : Text)) = ofLine (("//" : Text) ++ b) := by
  intro b
  have body : Unclosed b := by decide
  have started : Started b := by decide
  have joined : Joined b := by decide
  have unmarked : Unmarked (words b) := by decide
  exact ⟨body, started, ((grammars_agree body started).2.1 joined (by decide)).mpr unmarked⟩

/-- A key that goes on over an `@`, and a first `@` that is escaped. -/
theorem grammars_differ :
    let b : Text := " @a@b v"
    let e : Text := " \\@k v"
    (Unclosed b ∧ Joined b ∧ '/' ∉ b.head? ∧
      ofBlock (("/*" : Text) ++ b ++ (" */" : Text)) ≠ ofLine (("//" : Text) ++ b)) ∧
    (Unclosed e ∧ Joined e ∧ '/' ∉ e.head? ∧
      Dictionary.entries (ofBlock (("/*" : Text) ++ e ++ (" */" : Text))) = [(['k'], ['v'])] ∧
      ofLine (("//" : Text) ++ e) = Dictionary.empty) := by
  intro b e
  refine ⟨⟨by decide, by decide, by decide, fun same => ?_⟩,
    by decide, by decide, by decide, ?_, ?_⟩
  · have entries := congrArg Dictionary.entries same
    revert entries
    decide +kernel
  · decide +kernel
  · rfl

end Comment
end QueryWeaver
