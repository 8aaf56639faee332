import QueryWeaver.Proofs.Signature.Types
/-!
The sentences of the signature grammar. A text is read as a signature exactly when it is one, its
parts are the only ones it can be cut into, and the signature says what they say.
-/

namespace QueryWeaver

namespace Text

variable {p : Char → Bool}

theorem joinWith_concat {parts : List Text} (ne : parts ≠ []) (sep t : Text) :
    joinWith sep (parts ++ [t]) = joinWith sep parts ++ (sep ++ t) := by
  induction parts with
  | nil => exact absurd rfl ne
  | cons first parts ih =>
    cases parts with
    | nil => simp [joinWith]
    | cons next parts => simpa [joinWith] using ih (by simp)

theorem joinWith_cons {parts : List Text} (ne : parts ≠ []) (sep t : Text) :
    joinWith sep (t :: parts) = t ++ (sep ++ joinWith sep parts) := by
  obtain ⟨next, parts, rfl⟩ := List.exists_cons_of_ne_nil ne
  simp [joinWith]

/-- Trimming the end leaves what stands in front of the characters it takes. -/
theorem trimEnd_split (p : Char → Bool) (t : Text) :
    ∃ b, t = trimEnd p t ++ b ∧ ∀ c ∈ b, p c = true := by
  refine ⟨(t.reverse.takeWhile p).reverse, ?_, fun c member => ?_⟩
  · have whole := congrArg List.reverse (List.takeWhile_append_dropWhile (p := p) (l := t.reverse))
    rw [List.reverse_append, List.reverse_reverse] at whole
    exact whole.symm
  · exact List.mem_takeWhile_imp (List.mem_reverse.mp member)

theorem dropSuffix_append (suf t : Text) : dropSuffix suf (t ++ suf) = t := by
  have here : suf.isSuffixOf? (t ++ suf) = some t := List.isSuffixOf?_eq_some_iff_append_eq.mpr rfl
  rw [dropSuffix, here]
  rfl

theorem dropSuffix_of_not {suf t : Text} (other : ¬suf <:+ t) : dropSuffix suf t = t := by
  cases here : suf.isSuffixOf? t with
  | none => rw [dropSuffix, here, Option.getD_none]
  | some rest =>
    rw [List.isSuffixOf?_eq_some_iff_append_eq] at here
    exact absurd ⟨rest, here⟩ other

end Text

namespace ReturnType

/-- A type that wraps `body`, with or without the standard namespace in front. -/
def Wraps (wrapper body type : Text) : Prop :=
  ∃ front ∈ (["", "std::"] : List Text), type = front ++ (wrapper ++ (body ++ ['>']))

theorem unwrap_iff {wrapper type inner : Text} (bare : ∀ t, ¬("std::" : Text) <+: wrapper ++ t) :
    unwrap wrapper type = some inner ↔
      ∃ body, Wraps wrapper body type ∧ inner = Text.trim body := by
  have read : unwrap wrapper type = some inner ↔
      ∃ body, Text.dropPrefix "std::" type = wrapper ++ (body ++ ['>']) ∧
        inner = Text.trim body := by
    simp only [unwrap, Option.bind_eq_bind, Option.bind_eq_some_iff,
      List.isPrefixOf?_eq_some_iff_append_eq, List.isSuffixOf?_eq_some_iff_append_eq]
    constructor
    · rintro ⟨_, opened, body, rfl, same⟩
      exact ⟨body, opened.symm, (Option.some.inj same).symm⟩
    · rintro ⟨body, opened, rfl⟩
      exact ⟨_, opened.symm, body, rfl, rfl⟩
  rw [read]
  refine exists_congr fun body => and_congr_left fun _ => ?_
  simp only [Wraps, List.mem_cons, List.not_mem_nil, or_false, exists_eq_or_imp, exists_eq_left]
  constructor
  · intro opened
    cases front : List.isPrefixOf? "std::" type with
    | none =>
      rw [Text.dropPrefix, front, Option.getD_none] at opened
      exact .inl opened
    | some rest =>
      rw [Text.dropPrefix, front, Option.getD_some] at opened
      rw [List.isPrefixOf?_eq_some_iff_append_eq] at front
      exact .inr (by rw [← front, opened])
  · rintro (rfl | rfl)
    · cases front : List.isPrefixOf? "std::" (wrapper ++ (body ++ ['>'])) with
      | none =>
        exact congrArg (Option.getD · (wrapper ++ (body ++ ['>']))) front
      | some rest =>
        rw [List.isPrefixOf?_eq_some_iff_append_eq] at front
        exact absurd ⟨rest, front⟩ (bare _)
    · have front : List.isPrefixOf? "std::" (("std::" : Text) ++ (wrapper ++ (body ++ ['>']))) =
          some (wrapper ++ (body ++ ['>'])) := List.isPrefixOf?_eq_some_iff_append_eq.mpr rfl
      rw [Text.dropPrefix, front, Option.getD_some]

/-- What a type is read as: the trimmed body of the wrapper it is, or its own text. -/
structure Reads (type : Text) (returnType : ReturnType) : Prop where
  collection : ∀ inner, returnType = .collection inner ↔
    ∃ body, Wraps "vector<" body type ∧ inner = Text.trim body
  optional : ∀ inner, returnType = .optional inner ↔
    ∃ body, Wraps "optional<" body type ∧ inner = Text.trim body
  plain : ∀ text, returnType = .plain text ↔
    text = type ∧ ∀ body, ¬Wraps "vector<" body type ∧ ¬Wraps "optional<" body type

theorem vector_bare (t : Text) : ¬("std::" : Text) <+: ("vector<" : Text) ++ t := by simp

theorem optional_bare (t : Text) : ¬("std::" : Text) <+: ("optional<" : Text) ++ t := by simp

theorem unwrap_none {wrapper type : Text} (bare : ∀ t, ¬("std::" : Text) <+: wrapper ++ t) :
    unwrap wrapper type = none ↔ ∀ body, ¬Wraps wrapper body type := by
  rw [Option.eq_none_iff_forall_ne_some]
  constructor
  · intro none body wraps
    exact none (Text.trim body) ((unwrap_iff bare).mpr ⟨body, wraps, rfl⟩)
  · intro none inner read
    obtain ⟨body, wraps, -⟩ := (unwrap_iff bare).mp read
    exact none body wraps

/-- A type that is wrapped as optional is no collection. -/
theorem unwrap_apart {type inner : Text} (optional : unwrap "optional<" type = some inner) :
    unwrap "vector<" type = none := by
  obtain ⟨body, wraps, -⟩ := (unwrap_iff optional_bare).mp optional
  refine (unwrap_none vector_bare).mpr fun body' wraps' => ?_
  simp only [Wraps, List.mem_cons, List.not_mem_nil, or_false, exists_eq_or_imp,
    exists_eq_left] at wraps wraps'
  rcases wraps with rfl | rfl <;> rcases wraps' with same | same <;> simp at same

theorem reads_ofText (type : Text) : Reads type (ofText type) := by
  refine ⟨fun inner => ?_, fun inner => ?_, fun text => ?_⟩
  · rw [← unwrap_iff vector_bare, ofText]
    cases unwrap "vector<" type with
    | some => simp
    | none => cases unwrap "optional<" type <;> simp
  · rw [← unwrap_iff optional_bare, ofText]
    cases second : unwrap "optional<" type with
    | some =>
      rw [unwrap_apart second]
      simp
    | none => cases unwrap "vector<" type <;> simp
  · rw [forall_and, ← unwrap_none vector_bare, ← unwrap_none optional_bare, ofText]
    cases unwrap "vector<" type with
    | some => simp
    | none => cases unwrap "optional<" type <;> simp [eq_comm]

end ReturnType

namespace Signature

theorem nameParts_other {c : Char} (other : c ≠ ':') (r : Text) :
    nameParts (c :: r) = (nameParts r).modifyHead (c :: ·) := by
  rw [nameParts.eq_3 _ _ fun _ colon => absurd colon other]
  cases parts : nameParts r with
  | nil => exact absurd parts (nameParts_ne_nil r)
  | cons part parts => rfl

theorem nameParts_solid {part : Text} (solid : ':' ∉ part) : nameParts part = [part] := by
  induction part with
  | nil => rfl
  | cons c part ih =>
    obtain ⟨other, solid⟩ := not_or.mp (mt List.mem_cons.mpr solid)
    rw [nameParts_other (Ne.symm other), ih solid]
    rfl

theorem nameParts_append {part : Text} (solid : ':' ∉ part) (r : Text) :
    nameParts (part ++ (scopeMark ++ r)) = part :: nameParts r := by
  induction part with
  | nil => rfl
  | cons c part ih =>
    obtain ⟨other, solid⟩ := not_or.mp (mt List.mem_cons.mpr solid)
    rw [List.cons_append, nameParts_other (Ne.symm other), ih solid]
    rfl

theorem colon_notMem {part : Text} (identifier : Spelling.isIdentifier part = true) :
    ':' ∉ part := by
  intro member
  have word := List.all_eq_true.mp (Spelling.isIdentifier_all identifier) ':' member
  cases word.symm.trans (show isWordChar ':' = false by decide)

/-- The parts of a name come back from the name they are joined to. -/
theorem nameParts_joinWith {parts : List Text} (ne : parts ≠ [])
    (identifiers : ∀ part ∈ parts, Spelling.isIdentifier part = true) :
    nameParts (Text.joinWith scopeMark parts) = parts := by
  induction parts with
  | nil => exact absurd rfl ne
  | cons part parts ih =>
    have solid := colon_notMem (identifiers part (List.mem_cons_self ..))
    cases parts with
    | nil => exact nameParts_solid solid
    | cons next parts =>
      have rest := ih (by simp) fun q member => identifiers q (List.mem_cons_of_mem part member)
      rw [Text.joinWith_cons (by simp), nameParts_append solid, rest]

theorem joinWith_nameParts (name : Text) : Text.joinWith scopeMark (nameParts name) = name := by
  fun_induction nameParts name with
  | case1 => rfl
  | case2 r ih => rw [Text.joinWith_cons (nameParts_ne_nil r), ih]; rfl
  | case3 c r _ none ih => exact absurd none (nameParts_ne_nil r)
  | case4 c r _ part parts some ih =>
    rw [some] at ih
    cases parts with
    | nil => exact congrArg (c :: ·) ih
    | cons next parts => exact congrArg (c :: ·) ih

theorem cutLast_solid {name : Text} (solid : ':' ∉ name) : Text.cutLast scopeMark name = none := by
  induction name with
  | nil => rfl
  | cons c name ih =>
    obtain ⟨other, solid⟩ := not_or.mp (mt List.mem_cons.mpr solid)
    have apart : ¬scopeMark <+: c :: name := fun here =>
      other (List.cons_prefix_cons.mp here).1
    rw [cutLast_cons_of_not apart, ih solid]
    rfl

/-- A double colon is the last one if no colon stands behind it. -/
theorem cutLast_append {method : Text} (solid : ':' ∉ method) (scope : Text) :
    Text.cutLast scopeMark (scope ++ (scopeMark ++ method)) = some (scope, method) := by
  induction scope with
  | nil =>
    have single : ¬scopeMark <+: ':' :: method := by
      rintro ⟨rest, whole⟩
      have colon : ':' :: rest = method := (List.cons.inj whole).2
      exact solid (colon ▸ List.mem_cons_self ..)
    change Text.cutLast scopeMark (':' :: ':' :: method) = some ([], method)
    rw [Text.cutLast, cutLast_cons_of_not single, cutLast_solid solid]
    rfl
  | cons c scope ih => rw [List.cons_append, Text.cutLast, ih]

/-- A written signature in its parts. -/
structure Written where
  lead : Text
  type : Text
  gap : Text
  /-- The parts of the name before its last double colon. -/
  scopes : List Text
  method : Text
  /-- Whether parentheses stand behind the name. -/
  called : Bool
  trail : Text

namespace Written

variable {w : Written}

def name (w : Written) : Text := Text.joinWith scopeMark (w.scopes ++ [w.method])

def call (w : Written) : Text := if w.called then "()" else ""

def text (w : Written) : Text :=
  w.lead ++ (w.type ++ (w.gap ++ (w.name ++ (w.call ++ w.trail))))

structure Valid (w : Written) : Prop where
  lead : Spelling.Spacing w.lead
  type : Spelling.IsType w.type
  gap_ne_nil : w.gap ≠ []
  gap : Spelling.Spacing w.gap
  identifiers : ∀ part ∈ w.scopes ++ [w.method], Spelling.isIdentifier part = true
  trail : Spelling.Spacing w.trail

namespace Valid

theorem nameParts (valid : w.Valid) : Signature.nameParts w.name = w.scopes ++ [w.method] :=
  nameParts_joinWith (by simp) valid.identifiers

theorem isQualifiedName (valid : w.Valid) : Signature.isQualifiedName w.name = true := by
  rw [Signature.isQualifiedName, valid.nameParts]
  exact List.all_eq_true.mpr valid.identifiers

theorem name_ne_nil (valid : w.Valid) : w.name ≠ [] := by
  intro empty
  have parts := valid.nameParts
  rw [empty] at parts
  have first := valid.identifiers [] (by rw [← parts]; simp [Signature.nameParts])
  cases first

theorem name_chars (valid : w.Valid) : ∀ c ∈ w.name, Spelling.isTypeChar c = true := by
  intro c member
  rcases qualifiedName_chars valid.isQualifiedName c member with word | rfl
  · simp [Spelling.isTypeChar, word]
  · decide

/-- Behind the name there are no angle brackets. -/
theorem nested (valid : w.Valid) : Spelling.Nested w.text := by
  have spacing {t : Text} (all : Spelling.Spacing t) : Spelling.Nested t :=
    .ofClass (by decide) (by decide) all
  have call : Spelling.Nested w.call := by
    rw [call]
    split
    · exact .ofClass (p := fun c => c == '(' || c == ')') (by decide) (by decide)
        (List.all_eq_true.mp (by decide))
    · exact .nil
  exact (spacing valid.lead).append (valid.type.nested.append ((spacing valid.gap).append
    ((Spelling.Nested.ofClass (by decide) (by decide) valid.name_chars).append
      (call.append (spacing valid.trail)))))

/-- The name and the call behind it hold no spacing. -/
theorem named_solid (valid : w.Valid) : ∀ c ∈ w.name ++ w.call, isSpacing c = false := by
  refine List.forall_mem_append.mpr
    ⟨fun c member => Spelling.isSpacing_of_type (valid.name_chars c member), ?_⟩
  rw [call]
  split <;> simp [isSpacing]

theorem takeWhile_text (valid : w.Valid) : w.text.takeWhile isSpacing = w.lead ∧
    w.text.dropWhile isSpacing = w.type ++ (w.gap ++ (w.name ++ (w.call ++ w.trail))) := by
  obtain ⟨c, r, type, first⟩ := valid.type.head?
  have solid : isSpacing c = false := Spelling.isSpacing_of_type first
  rw [text, List.takeWhile_append_of_pos valid.lead, List.dropWhile_append_of_pos valid.lead, type]
  simp [solid]

theorem typeThen? (valid : w.Valid) : Spelling.typeThen? (w.text.dropWhile isSpacing) =
    some (w.type, w.name ++ (w.call ++ w.trail)) := by
  rw [valid.takeWhile_text.2]
  refine Spelling.typeThen?_iff.mpr ⟨valid.type, ?_, w.gap, valid.gap_ne_nil, valid.gap, rfl⟩
  obtain ⟨c, r, name⟩ := List.exists_cons_of_ne_nil valid.name_ne_nil
  have solid := valid.named_solid c (by simp [name])
  rw [name]
  rintro x ⟨⟩
  exact solid

theorem trimEnd (valid : w.Valid) :
    Text.trimEnd isSpacing (w.name ++ (w.call ++ w.trail)) = w.name ++ w.call := by
  rw [← List.append_assoc, Text.trimEnd_append valid.trail, Text.trimEnd_of_last]
  exact fun c last => valid.named_solid c (List.mem_of_getLast? last)

theorem dropSuffix (valid : w.Valid) : Text.dropSuffix "()" (w.name ++ w.call) = w.name := by
  rw [call]
  split
  · exact Text.dropSuffix_append _ _
  · refine (congrArg (Text.dropSuffix "()") (List.append_nil w.name)).trans
      (Text.dropSuffix_of_not ?_)
    rintro ⟨rest, whole⟩
    have member : ')' ∈ w.name := by simp [← whole]
    exact ne_of_class (valid.name_chars ')' member) (x := ')') (by decide) rfl

/-- A sentence is read as its type and its name. -/
theorem parse (valid : w.Valid) : Signature.parse w.text = .ok (ofName w.type w.name) := by
  refine parse_eq_ok.mpr ⟨valid.nested.checkAngles, w.type, _, valid.typeThen?, ?_⟩
  rw [valid.trimEnd, valid.dropSuffix]
  exact ⟨valid.isQualifiedName, rfl⟩

/-- The parts of a text are found from its two ends. -/
theorem unique {w' : Written} (valid : w.Valid) (valid' : w'.Valid) (same : w.text = w'.text) :
    w = w' := by
  have lead : w.lead = w'.lead := by
    rw [← valid.takeWhile_text.1, same, valid'.takeWhile_text.1]
  obtain ⟨type, rest⟩ : w.type = w'.type ∧
      w.name ++ (w.call ++ w.trail) = w'.name ++ (w'.call ++ w'.trail) := by
    have read := valid.typeThen?
    rw [same, valid'.typeThen?] at read
    obtain ⟨type, rest⟩ := Prod.mk.inj (Option.some.inj read)
    exact ⟨type.symm, rest.symm⟩
  have gap : w.gap = w'.gap := by
    rw [text, text, lead, type, rest] at same
    exact List.append_cancel_right (List.append_cancel_left (List.append_cancel_left same))
  have named : w.name ++ w.call = w'.name ++ w'.call := by
    rw [← valid.trimEnd, rest, valid'.trimEnd]
  have name : w.name = w'.name := by rw [← valid.dropSuffix, named, valid'.dropSuffix]
  have trail : w.trail = w'.trail := by
    rw [← List.append_assoc, ← List.append_assoc, named] at rest
    exact List.append_cancel_left rest
  obtain ⟨scopes, method⟩ : w.scopes = w'.scopes ∧ w.method = w'.method := by
    have parts := valid.nameParts
    rw [name, valid'.nameParts] at parts
    obtain ⟨scopes, method⟩ := List.append_inj' parts rfl
    exact ⟨scopes.symm, (List.cons.inj method).1.symm⟩
  have called : w.called = w'.called := by
    have calls : w.call = w'.call := by
      rw [name] at named
      exact List.append_cancel_left named
    rw [call, call] at calls
    cases here : w.called <;> cases here' : w'.called <;> simp_all
  cases w
  cases w'
  simp_all

end Valid

/-- Every text that is read is a sentence. -/
theorem exists_of_parse {func : Text} {s : Signature} (read : Signature.parse func = .ok s) :
    ∃ w : Written, w.Valid ∧ w.text = func := by
  obtain ⟨-, type, rest, first, named, -⟩ := parse_eq_ok.mp read
  obtain ⟨isType, -, gap, ne, spacing, whole⟩ := Spelling.typeThen?_iff.mp first
  obtain ⟨trail, behind, trailing⟩ := Text.trimEnd_split isSpacing rest
  set inner := Text.trimEnd isSpacing rest with trimmed
  obtain ⟨called, call⟩ : ∃ called : Bool,
      inner = Text.dropSuffix "()" inner ++ (if called then ("()" : Text) else ("" : Text)) := by
    by_cases suffix : ("()" : Text) <:+ inner
    · obtain ⟨name, own⟩ := suffix
      exact ⟨true, by rw [← own, Text.dropSuffix_append]; rfl⟩
    · exact ⟨false, by rw [Text.dropSuffix_of_not suffix]; exact (List.append_nil inner).symm⟩
  obtain ⟨scopes, method, parts⟩ := (List.eq_nil_or_concat'
    (Signature.nameParts (Text.dropSuffix "()" inner))).resolve_left (nameParts_ne_nil _)
  have joined := joinWith_nameParts (Text.dropSuffix "()" inner)
  rw [parts] at joined
  rw [Signature.isQualifiedName, parts] at named
  refine ⟨⟨func.takeWhile isSpacing, type, gap, scopes, method, called, trail⟩,
    ⟨fun c member => List.mem_takeWhile_imp member, isType, ne, spacing,
      List.all_eq_true.mp named, trailing⟩, ?_⟩
  simp only [text, name, Written.call]
  rw [joined, ← List.append_assoc (Text.dropSuffix "()" inner), ← call, ← behind, ← whole]
  exact List.takeWhile_append_dropWhile

/-- What a signature takes from the parts: the type as it is wrapped, the name in front of and
behind its last double colon, and the whole name. -/
structure Describes (w : Written) (s : Signature) : Prop where
  returnType : ReturnType.Reads w.type s.returnType
  enclosing : s.enclosing =
    if w.scopes = [] then none else some (Text.joinWith scopeMark w.scopes)
  method : s.method = w.method
  qualifiedName : s.qualifiedName = w.name

theorem Valid.describes (valid : w.Valid) : w.Describes (ofName w.type w.name) := by
  have solid := colon_notMem (valid.identifiers w.method (by simp))
  obtain ⟨enclosing, method⟩ : (ofName w.type w.name).enclosing =
      (if w.scopes = [] then none else some (Text.joinWith scopeMark w.scopes)) ∧
        (ofName w.type w.name).method = w.method := by
    by_cases free : w.scopes = []
    · have whole : w.name = w.method := by simp [name, free, Text.joinWith]
      rw [ofName, whole, cutLast_solid solid, if_pos free]
      exact ⟨rfl, rfl⟩
    · rw [ofName, name, Text.joinWith_concat free, cutLast_append solid, if_neg free]
      exact ⟨rfl, rfl⟩
  refine ⟨?_, enclosing, method, ?_⟩
  · rw [ofName_returnType]
    exact ReturnType.reads_ofText w.type
  · rw [qualifiedName, enclosing, method, name]
    by_cases free : w.scopes = []
    · simp [free, Text.joinWith]
    · rw [if_neg free, Text.joinWith_concat free, ← List.append_assoc]

end Written

/-- A text is read exactly when it is a sentence of the grammar, as one sentence only, and the
signature says what the parts of that sentence say. -/
theorem parse_grammar (func : Text) :
    ((∃ s, parse func = .ok s) ↔ ∃ w : Written, w.Valid ∧ w.text = func) ∧
    (∀ w w' : Written, w.Valid → w'.Valid → w.text = func → w'.text = func → w = w') ∧
    ∀ (s : Signature) (w : Written), parse func = .ok s → w.Valid → w.text = func →
      w.Describes s := by
  refine ⟨⟨?_, ?_⟩, ?_, ?_⟩
  · rintro ⟨s, read⟩
    exact Written.exists_of_parse read
  · rintro ⟨w, valid, rfl⟩
    exact ⟨_, valid.parse⟩
  · intro w w' valid valid' whole whole'
    exact valid.unique valid' (whole.trans whole'.symm)
  · rintro s w read valid rfl
    rw [valid.parse] at read
    cases read
    exact valid.describes

/-- A wrapped type with a group, a comma and spacing of its own, and a nested scope. -/
def sampleWritten : Written where
  lead := " "
  type := "std::vector< Pair<a, b<c>> >"
  gap := "\t\n"
  scopes := ["app", "Users"]
  method := "all_2"
  called := true
  trail := "  "

theorem sampleWritten_valid : sampleWritten.Valid := by
  have inner : Spelling.Nested ("a, b<c>" : Text) := by
    have outside : ("a, b" : Text).all (fun c => c != '<' && c != '>') = true := by decide
    exact (Spelling.Nested.ofClass (by decide) (by decide) (List.all_eq_true.mp outside)).append
      (.group (.char (by decide) (by decide) .nil) .nil)
  have body : Spelling.Nested (" Pair<a, b<c>> " : Text) := by
    have outside : (" Pair" : Text).all (fun c => c != '<' && c != '>') = true := by decide
    exact (Spelling.Nested.ofClass (by decide) (by decide) (List.all_eq_true.mp outside)).append
      (.group inner (.char (by decide) (by decide) .nil))
  have spacing {t : Text} (all : t.all isSpacing = true) : Spelling.Spacing t :=
    List.all_eq_true.mp all
  have stem : ("std::vector" : Text).all Spelling.isTypeChar = true := by decide
  exact ⟨spacing (by decide), .angled (by decide) (List.all_eq_true.mp stem) body, by decide,
    spacing (by decide), by decide, spacing (by decide)⟩

theorem sample_sentence :
    (∃ s, parse (" std::vector< Pair<a, b<c>> >\t\napp::Users::all_2()  " : Text) = .ok s ∧
      sampleWritten.Describes s) := by
  have grammar := parse_grammar (" std::vector< Pair<a, b<c>> >\t\napp::Users::all_2()  " : Text)
  have whole : sampleWritten.text = " std::vector< Pair<a, b<c>> >\t\napp::Users::all_2()  " := by
    decide
  obtain ⟨s, read⟩ := grammar.1.mpr ⟨sampleWritten, sampleWritten_valid, whole⟩
  exact ⟨s, read, grammar.2.2 s sampleWritten read sampleWritten_valid whole⟩

end Signature
end QueryWeaver
