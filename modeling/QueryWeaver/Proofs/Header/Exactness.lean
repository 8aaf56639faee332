import Mathlib
import QueryWeaver.Proofs.Header.Resplice
/-!
What a splice changes. Where the two regions of a header stand apart, in either order, their
contents are replaced and nothing else; and a splice fails exactly where one of the regions is not
found, the second in the text that the first replacement leaves.
-/

namespace QueryWeaver

namespace Header

variable {first last : Marker} {content header : Text} {regions : Regions}

/-- The opening marker is missing, or no closing one stands behind the first. -/
def Lacks (first last : Marker) (header : Text) : Prop :=
  ¬first.text <:+: header ∨ ∃ a b, Text.First first.text header a b ∧ ¬last.text <:+: b

theorem replaceRegion_eq_error {e : Error} :
    replaceRegion first last content header = .error e ↔
      Lacks first last header ∧ e = .missingMarkers first last := by
  cases opened : Text.cut first.text header with
  | none =>
    have missing : Lacks first last header := .inl (Text.cut_eq_none_iff.mp opened)
    simp [replaceRegion, opened, missing, eq_comm]
  | some parts =>
    obtain ⟨a, rest⟩ := parts
    have opens := Text.cut_eq_some_iff.mp opened
    cases closed : Text.cut last.text rest with
    | none =>
      have missing : Lacks first last header :=
        .inr ⟨a, rest, opens, Text.cut_eq_none_iff.mp closed⟩
      simp [replaceRegion, opened, closed, missing, eq_comm]
    | some inner =>
      have present : ¬Lacks first last header := by
        intro lacks
        cases lacks with
        | inl missing => exact missing ⟨a, rest, opens.whole.symm⟩
        | inr unclosed =>
          obtain ⟨a', rest', opens', missing⟩ := unclosed
          rw [Text.cut_eq_some_iff.mpr opens'] at opened
          cases opened
          rw [Text.cut_eq_none_iff.mpr missing] at closed
          cases closed
      simp [replaceRegion, opened, closed, present]

theorem replaceRegion_region {h : Text}
    (replaced : replaceRegion first last content header = .ok h) :
    ∃ a x b, Region first last header a x b ∧ h = regioned first last a content b := by
  obtain ⟨a, rest, x, b, opened, closed, whole⟩ := replaceRegion_ok replaced
  obtain rfl := Text.cut_append closed
  exact ⟨a, x, b, ⟨Text.cut_eq_some_iff.mp opened, Text.cut_eq_some_iff.mp closed⟩,
    by simp [whole, regioned]⟩

/-- Behind a region that does not hold the opening marker the next region is found as if it stood
alone. -/
theorem replaceRegion_past {m m' : Marker} {a x : Text} (b : Text) (start : ¬m.text <:+: a)
    (clear : ¬m.text <:+: x) (opens : m ≠ first) (closes : m ≠ last) :
    replaceRegion m m' content (regioned first last a x b) =
      (replaceRegion m m' content b).map (regioned first last a x) := by
  have past := @cut_past_region m first last a x b (Text.cut_eq_none_iff.mpr start)
    (Text.cut_eq_none_iff.mpr clear) opens closes
  have passed : Text.cut m.text ((a ++ first.text ++ x ++ last.text) ++ b) =
      (Text.cut m.text b).map fun q => ((a ++ first.text ++ x ++ last.text) ++ q.1, q.2) := by
    simpa only [List.append_assoc] using past
  exact replaceRegion_behind passed

open Marker in
theorem splice_functions_first {a x b y : Text} (c : Text)
    (start : ¬functionsBegin.text <:+: a) (start' : ¬variablesBegin.text <:+: a)
    (inside : ¬functionsEnd.text <:+: x) (clear : ¬variablesBegin.text <:+: regions.functions)
    (between : ¬variablesBegin.text <:+: b) (inside' : ¬variablesEnd.text <:+: y) :
    splice regions (regioned functionsBegin functionsEnd a x
        (regioned variablesBegin variablesEnd b y c)) =
      .ok (regioned functionsBegin functionsEnd a regions.functions
        (regioned variablesBegin variablesEnd b regions.members c)) := by
  have first := (region_regioned (regioned variablesBegin variablesEnd b y c) start inside).replace
    regions.functions
  have second := (region_regioned c between inside').replace regions.members
  rw [splice, first]
  calc
    _ = (replaceRegion variablesBegin variablesEnd regions.members
          (regioned variablesBegin variablesEnd b y c)).map
          (regioned functionsBegin functionsEnd a regions.functions) :=
      replaceRegion_past _ start' clear (by decide) (by decide)
    _ = _ := by rw [second]; rfl

open Marker in
theorem splice_variables_first {a x b y : Text} (c : Text)
    (start : ¬functionsBegin.text <:+: a) (start' : ¬variablesBegin.text <:+: a)
    (clear : ¬functionsBegin.text <:+: y) (inside' : ¬variablesEnd.text <:+: y)
    (between : ¬functionsBegin.text <:+: b) (inside : ¬functionsEnd.text <:+: x) :
    splice regions (regioned variablesBegin variablesEnd a y
        (regioned functionsBegin functionsEnd b x c)) =
      .ok (regioned variablesBegin variablesEnd a regions.members
        (regioned functionsBegin functionsEnd b regions.functions c)) := by
  have first : replaceRegion functionsBegin functionsEnd regions.functions
      (regioned variablesBegin variablesEnd a y (regioned functionsBegin functionsEnd b x c)) =
      .ok (regioned variablesBegin variablesEnd a y
        (regioned functionsBegin functionsEnd b regions.functions c)) := by
    rw [replaceRegion_past _ start clear (by decide) (by decide),
      (region_regioned c between inside).replace]
    rfl
  rw [splice, first]
  exact (region_regioned _ start' inside').replace regions.members

open Marker in
/-- A splice fails where the header lacks its functions region, or else where what the first
replacement leaves lacks the variables region. -/
theorem splice_eq_error {e : Error} :
    splice regions header = .error e ↔
      Lacks functionsBegin functionsEnd header ∧ e = .missingMarkers functionsBegin functionsEnd ∨
      ∃ a x b, Region functionsBegin functionsEnd header a x b ∧
        Lacks variablesBegin variablesEnd
          (regioned functionsBegin functionsEnd a regions.functions b) ∧
        e = .missingMarkers variablesBegin variablesEnd := by
  cases first : replaceRegion functionsBegin functionsEnd regions.functions header with
  | error e' =>
    obtain ⟨lacks, rfl⟩ := replaceRegion_eq_error.mp first
    have unplaced : ∀ a x b, ¬Region functionsBegin functionsEnd header a x b := by
      intro a x b region
      rw [region.replace] at first
      cases first
    simp [splice, first, bind, Except.bind, lacks, unplaced, eq_comm]
  | ok h =>
    obtain ⟨a, x, b, region, rfl⟩ := replaceRegion_region first
    have present : ¬Lacks functionsBegin functionsEnd header := by
      intro lacks
      have failed : replaceRegion functionsBegin functionsEnd regions.functions header =
          .error (.missingMarkers functionsBegin functionsEnd) :=
        replaceRegion_eq_error.mpr ⟨lacks, rfl⟩
      rw [first] at failed
      cases failed
    have second : splice regions header = replaceRegion variablesBegin variablesEnd regions.members
        (regioned functionsBegin functionsEnd a regions.functions b) := by
      rw [splice, first]
      rfl
    rw [second, replaceRegion_eq_error]
    constructor
    · intro failed
      exact .inr ⟨a, x, b, region, failed⟩
    · intro causes
      cases causes with
      | inl missing => exact absurd missing.1 present
      | inr unplaced =>
        obtain ⟨a', x', b', region', failed⟩ := unplaced
        have same := (region.replace regions.functions).symm.trans (region'.replace _)
        rwa [Except.ok.inj same]

end Header
end QueryWeaver
