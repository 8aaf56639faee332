import QueryWeaver.Proofs.Signature.Sentences
/-!
The grammar of field lists. A list is read exactly when it is spacing only or fields with commas
between them, and it gives these fields. So printed fields come back, and no comma is left over.
-/

namespace QueryWeaver

theorem Text.trimBy_split (p : Char → Bool) (t : Text) : ∃ a b,
    t = a ++ (trimBy p t ++ b) ∧ (∀ c ∈ a, p c = true) ∧ ∀ c ∈ b, p c = true := by
  obtain ⟨b, behind, after⟩ := trimEnd_split p (trimStart p t)
  refine ⟨t.takeWhile p, b, ?_, fun c member => List.mem_takeWhile_imp member, after⟩
  rw [trimBy, ← behind]
  exact List.takeWhile_append_dropWhile.symm

namespace Field

open Spelling

variable {t u r : Text} {f : Field} {fields : List Field}

theorem splitList_ne_nil (depth : Nat) (t : Text) : splitList depth t ≠ [] := by
  cases t with
  | nil => simp [splitList]
  | cons c r =>
    rw [splitList]
    split
    next => simp
    next =>
      dsimp only
      split <;> simp

/-- A character that does not cut stays in front of its part. -/
theorem splitList_cons {depth : Nat} {c : Char} (kept : ¬(c = ',' ∧ depth = 0)) (r : Text) :
    splitList depth (c :: r) =
      (splitList (if c = '<' then depth + 1 else if c = '>' then depth - 1 else depth) r).modifyHead
        (c :: ·) := by
  rw [splitList, if_neg kept]
  generalize (if c = '<' then depth + 1 else if c = '>' then depth - 1 else depth) = next
  cases parts : splitList next r with
  | nil => exact absurd parts (splitList_ne_nil next r)
  | cons part others =>
    dsimp only
    rw [parts]
    rfl

theorem splitList_comma (r : Text) : splitList 0 (',' :: r) = [] :: splitList 0 r := rfl

theorem joinWith_splitList (depth : Nat) (t : Text) :
    Text.joinWith [','] (splitList depth t) = t := by
  induction t generalizing depth with
  | nil => rfl
  | cons c r ih =>
    by_cases cut : c = ',' ∧ depth = 0
    · obtain ⟨rfl, rfl⟩ := cut
      rw [splitList_comma, Text.joinWith_cons (splitList_ne_nil 0 r), ih]
      rfl
    · rw [splitList_cons cut]
      generalize (if c = '<' then depth + 1 else if c = '>' then depth - 1 else depth) = next
      have rest := ih next
      match parts : splitList next r with
      | [] => exact absurd parts (splitList_ne_nil next r)
      | [part] =>
        rw [parts] at rest
        exact congrArg (c :: ·) rest
      | part :: _ :: _ =>
        rw [parts] at rest
        exact congrArg (c :: ·) rest

/-- Nested text stays in one part inside a group. -/
theorem splitList_nested (nested : Nested t) (depth : Nat) (r : Text) :
    splitList (depth + 1) (t ++ r) = (splitList (depth + 1) r).modifyHead (t ++ ·) := by
  induction nested generalizing depth r with
  | nil => exact (congrFun List.modifyHead_id _).symm
  | char opening closing _ ih =>
    rw [List.cons_append, splitList_cons (by simp), if_neg opening, if_neg closing, ih,
      List.modifyHead_modifyHead]
    rfl
  | group _ _ ihBody ihRest =>
    rw [List.cons_append, List.append_assoc, List.cons_append, splitList_cons (by simp),
      if_pos rfl, ihBody, splitList_cons (by simp), if_neg (by decide), if_pos rfl,
      Nat.add_sub_cancel, ihRest]
    simp [Function.comp_def]

theorem splitList_group {body : Text} (nested : Nested body) (r : Text) :
    splitList 0 ('<' :: (body ++ '>' :: r)) =
      (splitList 0 r).modifyHead ('<' :: (body ++ ['>']) ++ ·) := by
  rw [splitList_cons (by simp), if_pos rfl, splitList_nested nested, splitList_cons (by simp),
    if_neg (by decide), if_pos rfl, Nat.add_sub_cancel]
  simp [Function.comp_def]

/-- Characters of a class without commas and angle brackets stay in one part. -/
theorem splitList_class {p : Char → Bool} (comma : p ',' = false) (opening : p '<' = false)
    (closing : p '>' = false) (all : ∀ c ∈ t, p c = true) (r : Text) :
    splitList 0 (t ++ r) = (splitList 0 r).modifyHead (t ++ ·) := by
  induction t with
  | nil => exact (congrFun List.modifyHead_id _).symm
  | cons c t ih =>
    obtain ⟨here, rest⟩ := List.forall_mem_cons.mp all
    rw [List.cons_append, splitList_cons fun cut => ne_of_class here comma cut.1,
      if_neg (ne_of_class here opening), if_neg (ne_of_class here closing), ih rest,
      List.modifyHead_modifyHead]
    rfl

theorem splitList_spacing (spacing : Spacing t) (r : Text) :
    splitList 0 (t ++ r) = (splitList 0 r).modifyHead (t ++ ·) :=
  splitList_class (by decide) (by decide) (by decide) spacing r

theorem splitList_alone (spacing : Spacing t) : splitList 0 t = [t] := by
  have whole := splitList_spacing spacing []
  rw [List.append_nil] at whole
  rw [whole, splitList]
  simp

theorem splitList_type {type : Text} (isType : IsType type) (r : Text) :
    splitList 0 (type ++ r) = (splitList 0 r).modifyHead (type ++ ·) := by
  cases isType with
  | plain _ all => exact splitList_class (by decide) (by decide) (by decide) all r
  | angled _ all nested =>
    rw [List.append_assoc, splitList_class (by decide) (by decide) (by decide) all,
      List.cons_append, List.append_assoc, List.singleton_append, splitList_group nested]
    simp [Function.comp_def]

/-- A comma outside all groups cuts the list in two. -/
theorem splitList_cut (nested : Nested t) (r : Text) :
    splitList 0 (t ++ ',' :: r) = splitList 0 t ++ splitList 0 r := by
  have grown {parts : List Text} (some : parts ≠ []) (rest : List Text) (g : Text → Text) :
      (parts ++ rest).modifyHead g = parts.modifyHead g ++ rest := by
    obtain ⟨part, parts, rfl⟩ := List.exists_cons_of_ne_nil some
    rfl
  induction nested with
  | nil => rfl
  | @char c t opening closing _ ih =>
    by_cases cut : c = ','
    · subst cut
      rw [List.cons_append, splitList_comma, ih]
      rfl
    · have kept : ¬(c = ',' ∧ 0 = 0) := fun both => cut both.1
      rw [List.cons_append, splitList_cons kept, splitList_cons kept, if_neg opening,
        if_neg closing, ih, grown (splitList_ne_nil 0 t)]
  | @group body t inner _ _ ih =>
    rw [List.cons_append, List.append_assoc, List.cons_append, splitList_group inner, ih,
      splitList_group inner, grown (splitList_ne_nil 0 t)]

/-- A field as it is written: its type, spacing and its name. -/
structure Written (t : Text) (f : Field) : Prop where
  type : IsType f.type
  name : isIdentifier f.name = true
  text : ∃ gap, gap ≠ [] ∧ Spacing gap ∧ t = f.type ++ (gap ++ f.name)

namespace Written

variable (written : Written t f)

include written

theorem nested : Nested t := by
  obtain ⟨type, name, gap, -, spacing, rfl⟩ := written
  have letters := List.all_eq_true.mp (isIdentifier_all name)
  exact type.nested.append ((Nested.ofClass (by decide) (by decide) spacing).append
    (.ofClass (by decide) (by decide) letters))

theorem splitList (r : Text) :
    Field.splitList 0 (t ++ r) = (Field.splitList 0 r).modifyHead (t ++ ·) := by
  obtain ⟨type, name, gap, -, spacing, rfl⟩ := written
  have letters := List.all_eq_true.mp (isIdentifier_all name)
  rw [List.append_assoc, List.append_assoc, splitList_type type, splitList_spacing spacing,
    splitList_class (by decide) (by decide) (by decide) letters]
  simp [Function.comp_def]

/-- A field begins and ends with characters that are no spacing. -/
theorem head? : ∃ c r, t = c :: r ∧ isSpacing c = false := by
  obtain ⟨type, name, gap, -, spacing, rfl⟩ := written
  obtain ⟨c, r, spelled, first⟩ := type.head?
  exact ⟨c, r ++ (gap ++ f.name), by rw [spelled]; rfl, isSpacing_of_type first⟩

theorem last : ∀ c ∈ t.getLast?, isSpacing c = false := by
  obtain ⟨type, name, gap, -, spacing, rfl⟩ := written
  have letters := List.all_eq_true.mp (isIdentifier_all name)
  have ne : f.name ≠ [] := by
    rintro empty
    rw [empty] at name
    cases name
  rw [← List.append_assoc, List.getLast?_append_of_ne_nil _ ne]
  exact fun c last => isSpacing_of_word (letters c (List.mem_of_getLast? last))

theorem trimBy {a b : Text} (lead : Spacing a) (trail : Spacing b) :
    Text.trimBy isSpacing (a ++ (t ++ b)) = t := by
  obtain ⟨c, r, rfl, solid⟩ := written.head?
  rw [Text.trimBy, Text.trimStart_append lead, Text.trimStart_of_head (by simp [solid]),
    Text.trimEnd_append trail, Text.trimEnd_of_last written.last]

end Written

/-- A field with spacing around it. -/
def Padded (t : Text) (f : Field) : Prop :=
  ∃ a u b, Spacing a ∧ Spacing b ∧ Written u f ∧ t = a ++ (u ++ b)

theorem parse?_iff : parse? t = some f ↔ Padded t f := by
  rw [parse?_eq_some]
  constructor
  · rintro ⟨first, named⟩
    obtain ⟨type, -, gap, ne, spacing, whole⟩ := typeThen?_iff.mp first
    obtain ⟨a, b, around, lead, trail⟩ := Text.trimBy_split isSpacing t
    exact ⟨a, _, b, lead, trail, ⟨type, named, gap, ne, spacing, whole⟩, around⟩
  · rintro ⟨a, u, b, lead, trail, written, rfl⟩
    obtain ⟨type, name, gap, ne, spacing, whole⟩ := id written
    refine ⟨?_, name⟩
    rw [written.trimBy lead trail, whole]
    refine typeThen?_iff.mpr ⟨type, fun c first => ?_, gap, ne, spacing, rfl⟩
    exact isSpacing_of_word (List.all_eq_true.mp (isIdentifier_all name) c
      (List.mem_of_mem_head? first))

/-- Fields with a comma, and spacing around it, between each two. -/
inductive Entries : Text → List Field → Prop
  | last {t : Text} {f : Field} : Written t f → Entries t [f]
  | more {t a b r : Text} {f : Field} {fields : List Field} : Written t f → Spacing a →
      Spacing b → Entries r fields → Entries (t ++ (a ++ ',' :: (b ++ r))) (f :: fields)

/-- A list of fields: spacing only, or entries with spacing around them. -/
def Listed (t : Text) (fields : List Field) : Prop :=
  (Spacing t ∧ fields = []) ∨
    ∃ a u b, Spacing a ∧ Spacing b ∧ Entries u fields ∧ t = a ++ (u ++ b)

namespace Entries

theorem nested (entries : Entries t fields) : Nested t := by
  have spacing {t : Text} (all : Spacing t) : Nested t := .ofClass (by decide) (by decide) all
  induction entries with
  | last written => exact written.nested
  | more written before after _ ih =>
    exact written.nested.append ((spacing before).append
      (.char (by decide) (by decide) ((spacing after).append ih)))

theorem head? (entries : Entries t fields) : ∃ c r, t = c :: r ∧ isSpacing c = false := by
  cases entries with
  | last written => exact written.head?
  | more written _ _ _ =>
    obtain ⟨c, r, rfl, solid⟩ := written.head?
    exact ⟨c, _, rfl, solid⟩

/-- The commas cut the entries apart, whatever spacing stands around them. -/
theorem splitList (entries : Entries t fields) {a b : Text} (lead : Spacing a) (trail : Spacing b) :
    List.Forall₂ Padded (Field.splitList 0 (a ++ (t ++ b))) fields := by
  induction entries generalizing a with
  | @last t f written =>
    rw [splitList_spacing lead, written.splitList, splitList_alone trail]
    exact .cons ⟨a, t, b, lead, trail, written, rfl⟩ .nil
  | @more t before after r f fields written beforeComma afterComma _ ih =>
    have whole : a ++ (t ++ (before ++ ',' :: (after ++ r)) ++ b) =
        a ++ (t ++ (before ++ ',' :: (after ++ (r ++ b)))) := by simp
    rw [whole, splitList_spacing lead, written.splitList, splitList_spacing beforeComma,
      splitList_comma]
    simp only [List.modifyHead_cons, List.append_nil]
    exact .cons ⟨a, t, before, lead, beforeComma, written, rfl⟩ (ih afterComma)

/-- Padded fields with commas between them are entries with spacing around them. -/
theorem exists_of_padded {parts : List Text} (padded : List.Forall₂ Padded parts fields)
    (ne : parts ≠ []) : ∃ a u b, Spacing a ∧ Spacing b ∧ Entries u fields ∧
      Text.joinWith [','] parts = a ++ (u ++ b) := by
  induction padded with
  | nil => exact absurd rfl ne
  | @cons part f parts fields first others ih =>
    obtain ⟨a, t, b, lead, trail, written, rfl⟩ := first
    cases others with
    | nil => exact ⟨a, t, b, lead, trail, .last written, rfl⟩
    | cons second others =>
      obtain ⟨a', u, b', lead', trail', entries, joined⟩ := ih (by simp)
      refine ⟨a, _, b', lead, trail', .more written trail lead' entries, ?_⟩
      rw [Text.joinWith_cons (by simp), joined]
      simp

end Entries

theorem listed_of_parseList (read : parseList t = .ok fields) : Listed t fields := by
  obtain ⟨-, parts⟩ := parseList_eq_ok.mp read
  split at parts
  next blank => exact .inl ⟨List.all_eq_true.mp blank, parts⟩
  next =>
    have padded := parts.imp fun part f read => parse?_iff.mp read
    have whole := Entries.exists_of_padded padded (splitList_ne_nil 0 t)
    rw [joinWith_splitList] at whole
    exact .inr whole

theorem parseList_of_listed (listed : Listed t fields) : parseList t = .ok fields := by
  have spacing {t : Text} (all : Spacing t) : Nested t := .ofClass (by decide) (by decide) all
  rw [parseList_eq_ok]
  rcases listed with ⟨blank, rfl⟩ | ⟨a, u, b, lead, trail, entries, rfl⟩
  · exact ⟨(spacing blank).checkAngles, by rw [if_pos (List.all_eq_true.mpr blank)]⟩
  · refine ⟨((spacing lead).append (entries.nested.append (spacing trail))).checkAngles, ?_⟩
    obtain ⟨c, r, rfl, solid⟩ := entries.head?
    have full : ¬(a ++ (c :: r ++ b)).all isSpacing = true := by simp [solid]
    rw [if_neg full]
    exact (entries.splitList lead trail).imp fun part f padded => parse?_iff.mpr padded

/-- A list with a comma in it is refused when one of its parts is blank. -/
theorem parseList_blank (comma : ',' ∈ t) {part : Text} (member : part ∈ splitList 0 t)
    (blank : Spacing part) : ∃ e, parseList t = .error e := by
  cases read : parseList t with
  | error e => exact ⟨e, rfl⟩
  | ok fields =>
    obtain ⟨-, parts⟩ := parseList_eq_ok.mp read
    have full : ¬t.all isSpacing = true := fun all =>
      absurd (List.all_eq_true.mp all ',' comma) (by decide)
    rw [if_neg full] at parts
    obtain ⟨n, bound, rfl⟩ := List.getElem_of_mem member
    obtain ⟨a, u, b, -, -, written, whole⟩ :=
      parse?_iff.mp (parts.get bound (parts.length_eq ▸ bound))
    obtain ⟨c, r, rfl, solid⟩ := written.head?
    have inside : c ∈ (splitList 0 t).get ⟨n, bound⟩ := by
      rw [whole]
      simp
    cases solid.symm.trans (blank c inside)

/-- The fields as a list is written: each as its type, a space and its name. -/
def printList (fields : List Field) : Text :=
  Text.joinWith ", " (fields.map fun f => f.type ++ (' ' :: f.name))

theorem listed_printList
    (spelled : ∀ f ∈ fields, IsType f.type ∧ isIdentifier f.name = true) :
    Listed (printList fields) fields := by
  have written {f : Field} (spelled : IsType f.type ∧ isIdentifier f.name = true) :
      Written (f.type ++ (' ' :: f.name)) f :=
    ⟨spelled.1, spelled.2, [' '], by simp, by simp [Spacing, isSpacing], rfl⟩
  suffices entries : fields ≠ [] → Entries (printList fields) fields by
    by_cases empty : fields = []
    · exact .inl ⟨by simp [empty, printList, Text.joinWith, Spacing], empty⟩
    · exact .inr ⟨[], _, [], by simp [Spacing], by simp [Spacing], entries empty, by simp⟩
  intro ne
  induction fields with
  | nil => exact absurd rfl ne
  | cons f fields ih =>
    obtain ⟨here, others⟩ := List.forall_mem_cons.mp spelled
    cases fields with
    | nil => exact .last (written here)
    | cons next fields =>
      have whole : printList (f :: next :: fields) = f.type ++ (' ' :: f.name) ++
          ([] ++ ',' :: ([' '] ++ printList (next :: fields))) := by
        rw [printList, List.map_cons, Text.joinWith_cons (by simp)]
        rfl
      rw [whole]
      exact .more (written here) (by simp [Spacing]) (by simp [Spacing, isSpacing])
        (ih others (by simp))

/-- A list of fields is read exactly when it is one, as the fields it lists. What is printed comes
back, and a comma that no field stands in front of or behind is an error. -/
theorem parseList_grammar :
    (∀ t fields, parseList t = .ok fields ↔ Listed t fields) ∧
    (∀ fields : List Field, (∀ f ∈ fields, IsType f.type ∧ isIdentifier f.name = true) →
      parseList (printList fields) = .ok fields) ∧
    (∀ a r, Spacing a → ∃ e, parseList (a ++ ',' :: r) = .error e) ∧
    (∀ t a, Spacing a → ∃ e, parseList (t ++ ',' :: a) = .error e) ∧
    (∀ t a r, Nested t → Spacing a → ∃ e, parseList (t ++ ',' :: (a ++ ',' :: r)) = .error e) := by
  have first {a : Text} (spacing : Spacing a) (r : Text) : a ∈ splitList 0 (a ++ ',' :: r) := by
    rw [splitList_spacing spacing, splitList_comma]
    simp
  refine ⟨fun t fields => ⟨listed_of_parseList, parseList_of_listed⟩,
    fun fields spelled => parseList_of_listed (listed_printList spelled), ?_, ?_, ?_⟩
  · intro a r spacing
    exact parseList_blank (by simp) (first spacing r) spacing
  · intro t a spacing
    -- Without closed groups in front of the comma, the brackets are refused already.
    cases angles : checkAngles (t ++ ',' :: a) with
    | error e => exact ⟨e, by simp [parseList, angles, bind, Except.bind]⟩
    | ok =>
      have behind : Nested (',' :: a) :=
        .char (by decide) (by decide) (.ofClass (by decide) (by decide) spacing)
      have nested : Nested t := nested_of_append (nested_iff.mp angles) behind
      refine parseList_blank (by simp) ?_ spacing
      rw [splitList_cut nested, splitList_alone spacing]
      simp
  · intro t a r nested spacing
    refine parseList_blank (by simp) ?_ spacing
    rw [splitList_cut nested]
    exact List.mem_append_right _ (first spacing r)

/-- A type with a comma and spacing of its own, and one without brackets. -/
def sampleFields : List Field := [⟨"map<int, b<c>>", "by_id"⟩, ⟨"std::string", "n_2"⟩]

theorem sampleFields_spelled :
    ∀ f ∈ sampleFields, IsType f.type ∧ isIdentifier f.name = true := by
  have outside : ("int, b" : Text).all (fun c => c != '<' && c != '>') = true := by decide
  have body : Nested ("int, b<c>" : Text) :=
    (Nested.ofClass (by decide) (by decide) (List.all_eq_true.mp outside)).append
      (.group (.char (by decide) (by decide) .nil) .nil)
  have map : ("map" : Text).all isTypeChar = true := by decide
  have string : ("std::string" : Text).all isTypeChar = true := by decide
  simp only [sampleFields, List.forall_mem_cons]
  refine ⟨⟨?_, by decide⟩, ⟨?_, by decide⟩, by simp⟩
  · exact .angled (by decide) (List.all_eq_true.mp map) body
  · exact .plain (by decide) (List.all_eq_true.mp string)

theorem sample_listed :
    parseList ("map<int, b<c>> by_id, std::string n_2" : Text) = .ok sampleFields ∧
    (∃ e, parseList ("map<int, b<c>> by_id, \t, std::string n_2" : Text) = .error e) ∧
    ∃ e, parseList ("map<int, b<c>> by_id, " : Text) = .error e := by
  obtain ⟨-, printed, -, trailing, doubled⟩ := parseList_grammar
  have nested : Nested ("map<int, b<c>> by_id" : Text) := nested_iff.mp (by decide)
  have spacing {t : Text} (all : t.all isSpacing = true) : Spacing t := List.all_eq_true.mp all
  refine ⟨printed sampleFields sampleFields_spelled, ?_, ?_⟩
  · exact doubled "map<int, b<c>> by_id" " \t" " std::string n_2" nested (spacing (by decide))
  · exact trailing "map<int, b<c>> by_id" " " (spacing (by decide))

end Field
end QueryWeaver
