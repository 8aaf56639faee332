import Mathlib
import QueryWeaver.Proofs.Access.Retokenize
import QueryWeaver.Proofs.Header.Resplice
/-!
Spliced headers that can be spliced again. The texts of the two regions hold no marker, since line
terminators and indents keep their parts apart, so a header keeps both pairs of markers unless its
variables region encloses its functions region.
-/

namespace QueryWeaver

namespace Marker

instance (t : Text) : Decidable (Unmarked t) :=
  decidable_of_iff (∀ m ∈ [functionsBegin, functionsEnd, variablesBegin, variablesEnd],
    Text.cut m.text t = none) ⟨fun all m => all m (by cases m <;> simp), fun all m _ => all m⟩

/-- A blank of an indent or a line terminator. -/
def isFiller (c : Char) : Bool := c == ' ' || c == '\t' || c == '\r' || c == '\n'

theorem text_solid (m : Marker) : ∀ c ∈ m.text, isFiller c = false := by
  have solid : (m.text.all fun c => !isFiller c) = true := by
    cases m <;> decide
  intro c member
  simpa using List.all_eq_true.mp solid c member

namespace Unmarked

variable {a b t : Text}

theorem fill {c : Char} (filler : isFiller c = true) (left : Unmarked a) (right : Unmarked b) :
    Unmarked (a ++ c :: b) := by
  intro m
  apply Text.cut_apart _ m.text_ne_nil (left m) (right m)
  intro member
  rw [m.text_solid c member] at filler
  cases filler

theorem fill_left (filler : ∀ c ∈ t, isFiller c = true) (right : Unmarked b) :
    Unmarked (t ++ b) := by
  induction t with
  | nil => exact right
  | cons c t ih =>
    apply fill (a := []) (filler c (by simp)) unmarked_nil
    apply ih
    intro d member
    exact filler d (List.mem_cons_of_mem c member)

theorem fill_right (filler : ∀ c ∈ t, isFiller c = true) (left : Unmarked a) :
    Unmarked (a ++ t) := by
  cases t with
  | nil => rwa [List.append_nil]
  | cons c t =>
    apply left.fill (filler c (by simp))
    rw [← List.append_nil t]
    apply fill_left _ unmarked_nil
    intro d member
    exact filler d (List.mem_cons_of_mem c member)

theorem between (filler : ∀ c ∈ t, isFiller c = true) (ne : t ≠ []) (left : Unmarked a)
    (right : Unmarked b) : Unmarked (a ++ (t ++ b)) := by
  cases t with
  | nil => exact absurd rfl ne
  | cons c t =>
    apply left.fill (filler c (by simp))
    apply fill_left _ right
    intro d member
    exact filler d (List.mem_cons_of_mem c member)

end Unmarked
end Marker

theorem Layout.Spaced.fillers {layout : Layout} (spaced : layout.Spaced) :
    (∀ c ∈ layout.indent, Marker.isFiller c = true) ∧
      (∀ c ∈ layout.newline, Marker.isFiller c = true) ∧ layout.newline ≠ [] := by
  obtain ⟨indent, newline⟩ := spaced
  refine ⟨?_, ?_, ?_⟩
  · intro c member
    cases indent with
    | inl tab =>
      rw [tab] at member
      obtain rfl := List.mem_singleton.mp member
      rfl
    | inr spaces =>
      obtain ⟨n, spaces⟩ := spaces
      rw [spaces] at member
      obtain rfl := List.eq_of_mem_replicate member
      rfl
  · cases newline with
    | inl feed => simp [feed, Layout.lf, Marker.isFiller]
    | inr returns => simp [returns, Layout.crlf, Marker.isFiller]
  · cases newline with
    | inl feed => simp [feed, Layout.lf]
    | inr returns => simp [returns, Layout.crlf]

open Marker in
/-- Regions composed of texts without markers hold no marker. -/
theorem Regions.compose_unmarked {layout : Layout} (reachable : layout.Reachable)
    {records declarations members : Text} (recorded : Unmarked records)
    (declared : Unmarked declarations) (kept : Unmarked members) :
    Unmarked (compose layout records declarations members).functions ∧
      Unmarked (compose layout records declarations members).members := by
  obtain ⟨indent, newline, ne⟩ := reachable.spaced.fillers
  have last : Unmarked (declarations ++ layout.indent) := declared.fill_right indent
  constructor
  · have apart : Unmarked (records ++ ((if records.isEmpty then [] else
        layout.newline ++ layout.newline) ++ (declarations ++ layout.indent))) := by
      cases records with
      | nil => exact last
      | cons c r =>
        rw [List.isEmpty_cons, if_neg Bool.false_ne_true, List.append_assoc]
        exact recorded.between newline ne (.fill_left newline last)
    have whole := Unmarked.fill_left newline apart
    simpa only [compose, List.append_assoc] using whole
  · have whole := Unmarked.fill_left newline (kept.fill_right indent)
    simpa only [compose, List.append_assoc] using whole

namespace Header

/-- The text has the two markers, one behind the other. -/
def Paired (first last : Marker) (t : Text) : Prop :=
  ∃ a content b, t = a ++ first.text ++ content ++ last.text ++ b

/-- The header has both pairs of markers and takes the regions again without a change. -/
structure Stable (regions : Regions) (header : Text) : Prop where
  functions : Paired .functionsBegin .functionsEnd header
  members : Paired .variablesBegin .variablesEnd header
  again : splice regions header = .ok header

variable {regions : Regions} {header spliced : Text}

instance (header : Text) : Decidable (Apart header) :=
  decidable_of_iff (∀ parts ∈ Text.cut Marker.functionsBegin.text header,
      ∀ inner ∈ Text.cut Marker.variablesBegin.text parts.1,
        (Text.cut Marker.variablesEnd.text inner.2).isSome = true) <| by
    simp only [Apart, Option.isSome_iff_exists, Option.mem_def, Prod.forall, Prod.exists]

/-- A header that a splice gives back has both pairs. -/
theorem stable_of_again (again : splice regions header = .ok header) : Stable regions header := by
  obtain ⟨between, first, second⟩ := splice_ok again
  obtain ⟨a, rest, x, b, opened, closed, -⟩ := replaceRegion_ok first
  obtain ⟨c, -, -, d, -, -, whole⟩ := replaceRegion_ok second
  have parts := (Text.cut_append opened).trans (congrArg _ (Text.cut_append closed))
  exact ⟨⟨a, x, b, by simp [parts]⟩, ⟨c, regions.members, d, by simp [whole]⟩, again⟩

/-- A spliced header is stable where its regions stood apart. Else its variables region has taken
the place of the functions region, and what stands behind it decides. -/
theorem Spliced.stable (parts : Spliced regions header spliced)
    (functions : Marker.Unmarked regions.functions)
    (members : Marker.Unmarked regions.members) :
    Apart header ∧ Stable regions spliced ∨ ¬Apart header ∧ ∃ a rest,
      spliced = a ++ (Marker.variablesBegin.text ++ (regions.members ++
        (Marker.variablesEnd.text ++ rest))) ∧ rest <:+ header ∧
      (Stable regions spliced ↔
        replaceRegion .functionsBegin .functionsEnd regions.functions rest = .ok rest) := by
  cases parts.again functions members with
  | inl outcome =>
    obtain ⟨apart, again⟩ := outcome
    exact .inl ⟨apart, stable_of_again again⟩
  | inr enclosed =>
    obtain ⟨a, b, behind, c, unapart, opened, suffix, whole, again⟩ := enclosed
    right
    refine ⟨unapart, a, c, whole, ?_, ?_⟩
    · rw [Text.cut_append opened]
      exact suffix.trans (List.suffix_append _ _)
    · constructor
      · intro stable
        have same := again.symm.trans stable.again
        cases found : replaceRegion .functionsBegin .functionsEnd regions.functions c with
        | error e =>
          rw [found] at same
          cases same
        | ok h =>
          rw [found, whole] at same
          have equal := Except.ok.inj same
          simp only [List.append_cancel_left_eq] at equal
          rw [equal]
      · intro kept
        apply stable_of_again
        rw [again, kept, whole]
        rfl

open Marker in
/-- A header spliced with texts that hold no marker is stable, unless its variables region encloses
its functions region. That one is lost then, and the header is stable only if what stands behind the
variables region, which the splice has left as it was, holds these declarations already. -/
theorem splice_stable {layout : Layout} (reachable : layout.Reachable) {records : Registry}
    {declarations members : Text} (recorded : Unmarked (Interface.recordText layout records))
    (declared : Unmarked declarations) (kept : Unmarked members) :
    let regions :=
      Regions.compose layout (Interface.recordText layout records) declarations members
    ∀ header spliced, splice regions header = .ok spliced →
      (Apart header → Stable regions spliced) ∧
      (¬Apart header → ∃ a rest,
        spliced = a ++ (Marker.variablesBegin.text ++ (regions.members ++
          (Marker.variablesEnd.text ++ rest))) ∧ rest <:+ header ∧
        (Stable regions spliced ↔
          replaceRegion .functionsBegin .functionsEnd regions.functions rest = .ok rest)) := by
  intro regions header spliced done
  obtain ⟨functions, members⟩ := Regions.compose_unmarked reachable recorded declared kept
  cases (spliced_of_splice (functions _) done).stable functions members with
  | inl settled => exact ⟨fun _ => settled.2, absurd settled.1⟩
  | inr enclosed => exact ⟨fun apart => absurd apart enclosed.1, fun _ => enclosed.2⟩

def sampleRecords : Registry :=
  Dictionary.insert Dictionary.empty "User" ⟨"User", [⟨"int64_t", "id"⟩], true⟩

def sampleRegions : Regions :=
  Regions.compose .standard (Interface.recordText .standard sampleRecords)
    "\tUser byId(int id); // one row\r\n" "\tsqlgen::DatabaseQuery _byId;\r\n"

open Marker in
/-- Variables first, old text in both regions, and markers without a partner around them. -/
def looseHeader : Text :=
  functionsEnd.text ++ " class A: " ++ variablesBegin.text ++ "old " ++ variablesBegin.text ++
    variablesEnd.text ++ " " ++ functionsBegin.text ++ "int a; " ++ functionsEnd.text ++ " end\n" ++
    functionsBegin.text ++ variablesEnd.text

theorem looseHeader_stable :
    Apart looseHeader ∧ ∃ spliced, splice sampleRegions looseHeader = .ok spliced ∧
      spliced ≠ looseHeader ∧ Stable sampleRegions spliced := by
  have recorded : Marker.Unmarked (Interface.recordText .standard sampleRecords) := by
    decide +kernel
  have declared : Marker.Unmarked "\tUser byId(int id); // one row\r\n" := by decide +kernel
  have kept : Marker.Unmarked "\tsqlgen::DatabaseQuery _byId;\r\n" := by decide +kernel
  have reachable : Layout.standard.Reachable := .sniff ['\t', '\r', '\n'] .standard
  have apart : Apart looseHeader := by decide +kernel
  have success : (splice sampleRegions looseHeader).isOk = true := by decide +kernel
  have changed : splice sampleRegions looseHeader ≠ .ok looseHeader := by decide +kernel
  cases done : splice sampleRegions looseHeader with
  | error e =>
    rw [done] at success
    cases success
  | ok spliced =>
    refine ⟨apart, spliced, rfl, ?_, ?_⟩
    · intro same
      rw [done, same] at changed
      exact changed rfl
    · exact (splice_stable reachable recorded declared kept looseHeader spliced done).1 apart

open Marker in
/-- Functions in variables. The functions region is lost, and a second splice changes the header
again: it goes on to the functions region behind, or fails where none is left. -/
theorem enclosed_region_lost :
    let declarations : Text := "\tvoid clear();\n"
    let members : Text := "\tsqlgen::DatabaseQuery _clear;\n"
    let regions := Regions.compose (.sniff ['\t', '\n'] .standard) [] declarations members
    let further : Text := functionsBegin.text ++ functionsEnd.text
    let enclosed := variablesBegin.text ++ further ++ variablesEnd.text
    let spliced := variablesBegin.text ++ "\n" ++ members ++ "\t" ++ variablesEnd.text
    let added := functionsBegin.text ++ "\n" ++ declarations ++ "\t" ++ functionsEnd.text
    Unmarked declarations ∧ Unmarked members ∧
      splice regions enclosed = .ok spliced ∧
      splice regions spliced = .error (.missingMarkers functionsBegin functionsEnd) ∧
      splice regions (enclosed ++ further) = .ok (spliced ++ further) ∧
      splice regions (spliced ++ further) = .ok (spliced ++ added) := by
  decide +kernel

end Header
end QueryWeaver
