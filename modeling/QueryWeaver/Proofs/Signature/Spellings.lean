import Mathlib
import QueryWeaver.Proofs.Text.Inert
import QueryWeaver.Proofs.Text.Parts
import QueryWeaver.Signature.Basic
import QueryWeaver.Signature.Fields
import QueryWeaver.Statement.Placeholder
/-!
What the readers of signatures, field lists and placeholders give back: names are identifiers, and
every spelling is part of the text that was read.
-/

namespace QueryWeaver

namespace Spelling

theorem isIdentifier_all {t : Text} (h : isIdentifier t = true) : t.all isWordChar = true := by
  simp only [isIdentifier, Bool.and_eq_true] at h
  exact h.2

theorem spanAngles_append {depth : Nat} {t group rest : Text}
    (span : spanAngles depth t = some (group, rest)) : group ++ rest = t := by
  induction t generalizing depth group with
  | nil => cases span
  | cons c t ih =>
    have later {depth : Nat}
        (span : (spanAngles depth t).map (fun q => (c :: q.1, q.2)) = some (group, rest)) :
        group ++ rest = c :: t := by
      obtain ⟨⟨group', rest'⟩, inside, same⟩ := Option.map_eq_some_iff.mp span
      cases same
      exact congrArg (c :: ·) (ih inside)
    simp only [spanAngles] at span
    split at span
    next => exact later span
    split at span
    next =>
      split at span
      next =>
        cases span
        rfl
      next => exact later span
    next => exact later span

theorem type?_append {t type rest : Text} (read : type? t = some (type, rest)) :
    type ++ rest = t := by
  simp only [type?] at read
  split at read
  next => cases read
  split at read
  next opening found =>
    split at read
    next group rest' span =>
      cases read
      rw [List.append_assoc, spanAngles_append span]
      exact List.takeWhile_append_dropWhile
    next =>
      cases read
      exact List.takeWhile_append_dropWhile
  next =>
    cases read
    exact List.takeWhile_append_dropWhile

theorem typeThen?_subset {t type rest : Text} (read : typeThen? t = some (type, rest)) :
    type ⊆ t ∧ rest ⊆ t := by
  unfold typeThen? at read
  split at read
  next type' c r first =>
    split at read
    next =>
      cases read
      rw [← type?_append first]
      have rest : r.dropWhile isSpacing ⊆ r := (List.dropWhile_sublist isSpacing).subset
      exact ⟨List.subset_append_left _ _, fun x member =>
        List.mem_append_right _ (List.mem_cons_of_mem c (rest member))⟩
    next => cases read
  next => cases read

end Spelling

namespace ReturnType

/-- The type as it is spelled inside its wrapper. -/
def spelling : ReturnType → Text
  | plain type => type
  | collection inner => inner
  | optional inner => inner

theorem unwrap_subset {wrapper type inner : Text} (read : unwrap wrapper type = some inner) :
    inner ⊆ type := by
  simp only [unwrap, Option.bind_eq_bind, Option.bind_eq_some_iff] at read
  obtain ⟨unopened, opened, unclosed, closed, same⟩ := read
  rw [List.isPrefixOf?_eq_some_iff_append_eq] at opened
  rw [List.isSuffixOf?_eq_some_iff_append_eq] at closed
  cases same
  intro c member
  refine Text.dropPrefix_subset "std::" type ?_
  rw [← opened, ← closed]
  have trimmed := Text.trimBy_subset isBlank unclosed member
  simp [trimmed]

theorem spelling_ofText_subset (type : Text) : (ofText type).spelling ⊆ type := by
  unfold ofText
  split
  next inner collection => exact unwrap_subset collection
  next =>
    split
    next inner optional => exact unwrap_subset optional
    next => exact List.Subset.refl type

end ReturnType

namespace Signature

theorem nameParts_chars (t : Text) : ∀ c ∈ t, c = ':' ∨ ∃ part ∈ nameParts t, c ∈ part := by
  fun_induction nameParts t with
  | case1 => simp
  | case2 r ih =>
    intro c member
    simp only [List.mem_cons] at member
    rcases member with rfl | rfl | member
    · exact .inl rfl
    · exact .inl rfl
    · exact (ih c member).imp_right fun ⟨part, known, inside⟩ => ⟨part, by simp [known], inside⟩
  | case3 c r _ none ih =>
    intro x member
    rcases List.mem_cons.mp member with rfl | member
    · simp
    · exact .inl (by simpa [none] using ih x member)
  | case4 c r _ part parts some ih =>
    intro x member
    rcases List.mem_cons.mp member with rfl | member
    · simp
    · have known := ih x member
      rw [some] at known
      grind

theorem qualifiedName_chars {t : Text} (h : isQualifiedName t = true) :
    ∀ c ∈ t, isWordChar c = true ∨ c = ':' := by
  intro c member
  rcases nameParts_chars t c member with colon | ⟨part, known, inside⟩
  · exact .inr colon
  · have identifier := List.all_eq_true.mp h part known
    exact .inl (List.all_eq_true.mp (Spelling.isIdentifier_all identifier) c inside)

theorem qualifiedName_inert {p : Char → Prop} (printable : Printable p) {t : Text}
    (h : isQualifiedName t = true) : InertOver p t := by
  intro c member
  rcases qualifiedName_chars h c member with word | rfl
  · have range := wordChar_range word
    exact ⟨range.2.1, printable c range.1⟩
  · exact ⟨by decide, printable _ (by decide)⟩

theorem nameParts_ne_nil (t : Text) : nameParts t ≠ [] := by
  unfold nameParts
  split
  next => simp
  next => simp
  next => split <;> simp

/-- A part that begins at a single colon is no identifier. -/
theorem nameParts_colon (r : Text) :
    ∃ part parts, nameParts (':' :: r) = part :: parts ∧ Spelling.isIdentifier part = false := by
  have colon (part : Text) : Spelling.isIdentifier (':' :: part) = false := by
    have other : isWordChar ':' = false := by decide
    simp [Spelling.isIdentifier, other]
  unfold nameParts
  split
  next empty => cases empty
  next => exact ⟨[], _, rfl, rfl⟩
  next c r' _ same =>
    cases same
    split
    next => exact ⟨_, [], rfl, colon []⟩
    next part parts _ => exact ⟨_, parts, rfl, colon part⟩

/-- The name behind the last double colon, or the whole of a name without one. -/
def lastPart (name : Text) : Text :=
  match Text.cutLast scopeMark name with
  | some (_, method) => method
  | none => name

theorem cutLast_cons_of_not {c : Char} {r : Text} (other : ¬scopeMark <+: c :: r) :
    Text.cutLast scopeMark (c :: r) = (Text.cutLast scopeMark r).map fun q => (c :: q.1, q.2) := by
  rw [Text.cutLast]
  cases Text.cutLast scopeMark r with
  | some => rfl
  | none =>
    cases here : scopeMark.isPrefixOf? (c :: r) with
    | none => rfl
    | some rest =>
      rw [List.isPrefixOf?_eq_some_iff_append_eq] at here
      exact absurd ⟨rest, here⟩ other

theorem lastPart_scope {r : Text} (single : ¬scopeMark <+: ':' :: r) :
    lastPart (':' :: ':' :: r) = lastPart r := by
  have here : scopeMark.isPrefixOf? (':' :: ':' :: r) = some r := rfl
  simp only [lastPart]
  rw [Text.cutLast, cutLast_cons_of_not single, here]
  cases Text.cutLast scopeMark r with
  | some => rfl
  | none => rfl

theorem lastPart_cons {c : Char} {r : Text} (other : ¬scopeMark <+: c :: r) :
    lastPart (c :: r) = lastPart r ∨ lastPart (c :: r) = c :: lastPart r := by
  simp only [lastPart, cutLast_cons_of_not other]
  cases Text.cutLast scopeMark r with
  | some => exact .inl rfl
  | none => exact .inr rfl

theorem lastPart_words (t : Text) {part : Text} {parts : List Text}
    (split : nameParts t = part :: parts) (first : part.all isWordChar = true)
    (others : ∀ q ∈ parts, Spelling.isIdentifier q = true) :
    (lastPart t).all isWordChar = true := by
  fun_induction nameParts t generalizing part parts with
  | case1 => rfl
  | case2 r ih =>
    obtain ⟨rfl, rfl⟩ := List.cons.inj split
    have single : ¬scopeMark <+: ':' :: r := by
      rintro ⟨rest, whole⟩
      have colon : ':' :: rest = r := (List.cons.inj whole).2
      obtain ⟨q, qs, parts, none⟩ := nameParts_colon rest
      have identifier := others q (by rw [← colon, parts]; simp)
      rw [none] at identifier
      cases identifier
    rw [lastPart_scope single]
    cases inner : nameParts r with
    | nil => exact absurd inner (nameParts_ne_nil r)
    | cons q qs =>
      rw [inner] at others
      have identifier := others q (List.mem_cons_self ..)
      exact ih inner (Spelling.isIdentifier_all identifier)
        fun q' member => others q' (List.mem_cons_of_mem q member)
  | case3 c r _ none ih => exact absurd none (nameParts_ne_nil r)
  | case4 c r other q qs some ih =>
    obtain ⟨rfl, rfl⟩ := List.cons.inj split
    have single : ¬scopeMark <+: c :: r := by
      rintro ⟨rest, whole⟩
      have colons : ':' = c ∧ ':' :: rest = r := List.cons.inj whole
      exact other rest colons.1.symm colons.2.symm
    simp only [List.all_cons, Bool.and_eq_true] at first
    have tail := ih some first.2 others
    rcases lastPart_cons single with same | longer
    · rwa [same]
    · rw [longer, List.all_cons, first.1, tail]
      rfl

theorem lastPart_name {name : Text} (h : isQualifiedName name = true) :
    (lastPart name).all isWordChar = true := by
  unfold isQualifiedName at h
  cases split : nameParts name with
  | nil => exact absurd split (nameParts_ne_nil name)
  | cons part parts =>
    rw [split] at h
    have each := List.all_eq_true.mp h
    exact lastPart_words name split (Spelling.isIdentifier_all (each part (by simp)))
      fun q member => each q (by simp [member])

theorem ofName_method (type name : Text) : (ofName type name).method = lastPart name := by
  cases cut : Text.cutLast scopeMark name with
  | none => simp only [ofName, lastPart, cut]
  | some parts => simp only [ofName, lastPart, cut]

theorem ofName_enclosing {type name : Text} :
    ∀ scope ∈ (ofName type name).enclosing, scope ⊆ name := by
  unfold ofName
  split
  next scope method cut =>
    rintro _ ⟨rfl⟩
    rw [Text.cutLast_append cut, List.append_assoc]
    exact List.subset_append_left _ _
  next => simp

theorem ofName_returnType (type name : Text) : (ofName type name).returnType = .ofText type := by
  unfold ofName
  split <;> rfl

/-- A signature is read as a type with spacing behind it and a qualified name. -/
theorem parse_eq_ok {func : Text} {s : Signature} : parse func = .ok s ↔
    Spelling.checkAngles func = .ok () ∧ ∃ type rest,
      Spelling.typeThen? (func.dropWhile isSpacing) = some (type, rest) ∧
      isQualifiedName (Text.dropSuffix "()" (Text.trimEnd isSpacing rest)) = true ∧
      s = ofName type (Text.dropSuffix "()" (Text.trimEnd isSpacing rest)) := by
  have found : parse func = .ok s ↔
      Spelling.checkAngles func = .ok () ∧ parse? func = some s := by
    unfold parse
    cases Spelling.checkAngles func with
    | error e => simp [bind, Except.bind]
    | ok =>
      cases parse? func with
      | none => simp [bind, Except.bind]
      | some s' => simp [bind, Except.bind]
  simp only [found, parse?, Option.bind_eq_bind, Option.bind_eq_some_iff, Prod.exists,
    Option.ite_none_right_eq_some, Option.some.injEq, eq_comm (a := s)]

/-- The parts of a signature: word characters, a qualified name, and a part of the text. -/
theorem parse_parts {func : Text} {s : Signature} (read : parse func = .ok s) :
    s.method.all isWordChar = true ∧
      (∀ scope ∈ s.enclosing, ∃ name, isQualifiedName name = true ∧ scope ⊆ name) ∧
      s.returnType.spelling ⊆ func := by
  obtain ⟨-, type, rest, first, named, rfl⟩ := parse_eq_ok.mp read
  refine ⟨?_, fun scope known => ⟨_, named, ofName_enclosing scope known⟩, ?_⟩
  · rw [ofName_method]
    exact lastPart_name named
  · rw [ofName_returnType]
    intro c member
    exact (List.dropWhile_sublist isSpacing).subset
      ((Spelling.typeThen?_subset first).1 (ReturnType.spelling_ofText_subset type member))

end Signature

namespace Field

theorem splitList_subset {depth : Nat} {t : Text} : ∀ part ∈ splitList depth t, part ⊆ t := by
  induction t generalizing depth with
  | nil => simp [splitList]
  | cons c r ih =>
    have later {depth : Nat} {part : Text} (member : part ∈ splitList depth r) : part ⊆ c :: r :=
      fun x inside => List.mem_cons_of_mem c (ih part member inside)
    intro part member
    simp only [splitList] at member
    split at member
    next =>
      rcases List.mem_cons.mp member with rfl | member
      · exact List.nil_subset _
      · exact later member
    next =>
      generalize (if c = '<' then depth + 1 else if c = '>' then depth - 1 else depth) = next
        at member
      split at member
      next =>
        obtain rfl := List.mem_singleton.mp member
        exact List.cons_subset.mpr ⟨List.mem_cons_self .., List.nil_subset _⟩
      next q qs parts =>
        rcases List.mem_cons.mp member with rfl | member
        · have inside : q ∈ splitList next r := by simp [parts]
          exact List.cons_subset.mpr ⟨List.mem_cons_self .., later inside⟩
        · have rest : part ∈ splitList next r := by simp [parts, member]
          exact later rest

/-- A field is read as a type with spacing behind it and an identifier. -/
theorem parse?_eq_some {t : Text} {f : Field} : parse? t = some f ↔
    Spelling.typeThen? (Text.trimBy isSpacing t) = some (f.type, f.name) ∧
      Spelling.isIdentifier f.name = true := by
  simp only [parse?, Option.bind_eq_bind, Option.bind_eq_some_iff, Prod.exists,
    Option.ite_none_right_eq_some, Option.some.injEq]
  constructor
  · rintro ⟨type, name, first, named, rfl⟩
    exact ⟨first, named⟩
  · rintro ⟨first, named⟩
    exact ⟨f.type, f.name, first, named, rfl⟩

theorem parse?_parts {t : Text} {f : Field} (read : parse? t = some f) :
    f.name.all isWordChar = true ∧ f.type ⊆ t := by
  obtain ⟨first, named⟩ := parse?_eq_some.mp read
  exact ⟨Spelling.isIdentifier_all named, fun c member =>
    Text.trimBy_subset isSpacing t ((Spelling.typeThen?_subset first).1 member)⟩

theorem mapM_parse?_iff {parts : List Text} {fields : List Field} :
    parts.mapM parse? = some fields ↔
      List.Forall₂ (fun part f => parse? part = some f) parts fields := by
  induction parts generalizing fields with
  | nil => simp [eq_comm]
  | cons part parts ih =>
    simp only [List.mapM_cons, Option.bind_eq_bind, Option.bind_eq_some_iff, ih,
      List.forall₂_cons_left_iff]
    constructor
    · rintro ⟨f, first, fields', others, same⟩
      cases same
      exact ⟨f, fields', first, others, rfl⟩
    · rintro ⟨f, fields', first, others, rfl⟩
      exact ⟨f, first, fields', others, rfl⟩

/-- A list is read as spacing only, or part by part. -/
theorem parseList_eq_ok {t : Text} {fields : List Field} : parseList t = .ok fields ↔
    Spelling.checkAngles t = .ok () ∧
      if t.all isSpacing then fields = []
      else List.Forall₂ (fun part f => parse? part = some f) (splitList 0 t) fields := by
  have found : parseList t = .ok fields ↔
      Spelling.checkAngles t = .ok () ∧ parseList? t = some fields := by
    unfold parseList
    cases Spelling.checkAngles t with
    | error e => simp [bind, Except.bind]
    | ok =>
      cases parseList? t with
      | none => simp [bind, Except.bind]
      | some fields' => simp [bind, Except.bind]
  rw [found, parseList?]
  split
  next => simp [eq_comm]
  next => rw [mapM_parse?_iff]

theorem parseList_parts {t : Text} {fields : List Field} (read : parseList t = .ok fields) :
    ∀ f ∈ fields, f.name.all isWordChar = true ∧ f.type ⊆ t := by
  obtain ⟨-, found⟩ := parseList_eq_ok.mp read
  split at found
  next => simp [found]
  next =>
    intro f member
    obtain ⟨n, bound, rfl⟩ := List.getElem_of_mem member
    have known : n < (splitList 0 t).length := by rwa [found.length_eq]
    have parts := parse?_parts (found.get known bound)
    exact ⟨parts.1, fun c inside =>
      splitList_subset _ (List.getElem_mem known) (parts.2 inside)⟩

end Field

namespace Placeholder

theorem after?_subset {t rest : Text} {param : Field} (read : after? t = some (param, rest)) :
    param.type ⊆ t ∧ param.name ⊆ t ∧ rest ⊆ t := by
  simp only [after?] at read
  split at read
  next r opening =>
    have inner : r ⊆ t := fun c member =>
      (List.dropWhile_sublist isNameChar).subset (by rw [opening]; exact .tail _ member)
    split at read
    next rest' closing =>
      have outer : rest' ⊆ r := fun c member =>
        (List.dropWhile_sublist (· != ')')).subset (by rw [closing]; exact .tail _ member)
      split at read
      next => cases read
      next =>
        cases read
        have type := (List.takeWhile_sublist (· != ')') (l := r)).subset
        exact ⟨fun c member => inner (type (Text.trimBy_subset isBlank _ member)),
          (List.takeWhile_sublist isNameChar).subset, fun c member => inner (outer member)⟩
    next => cases read
  next => cases read

theorem first?_subset {t rest : Text} {param : Field} (read : first? t = some (param, rest)) :
    param.type ⊆ t ∧ param.name ⊆ t ∧ rest ⊆ t := by
  unfold first? at read
  split at read
  next r =>
    obtain ⟨type, name, rest⟩ := after?_subset read
    exact ⟨List.subset_cons_of_subset _ type, List.subset_cons_of_subset _ name,
      List.subset_cons_of_subset _ rest⟩
  next => cases read

theorem replaceAll_params (t : Text) :
    ∀ q ∈ (replaceAll t).params, q.type ⊆ t ∧ q.name ⊆ t := by
  fun_induction replaceAll t with
  | case1 => simp
  | case2 c r param rest read q ih =>
    obtain ⟨type, name, after⟩ := first?_subset read
    intro p member
    rcases List.mem_cons.mp member with rfl | member
    · exact ⟨type, name⟩
    · exact ⟨fun x inside => after ((ih p member).1 inside),
        fun x inside => after ((ih p member).2 inside)⟩
  | case3 c r plain q ih =>
    intro p member
    exact ⟨List.subset_cons_of_subset c (ih p member).1,
      List.subset_cons_of_subset c (ih p member).2⟩

end Placeholder
end QueryWeaver
