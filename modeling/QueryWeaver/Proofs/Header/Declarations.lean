import Mathlib
import QueryWeaver.Header.Splice
import QueryWeaver.Proofs.Access.Retokenize
import QueryWeaver.Proofs.Annotation.Values
/-!
The declarations that generated functions ask of a header. They have no slash, so no marker and no
comment can come in with them.
-/

namespace QueryWeaver

theorem Inert.slashless {t : Text} (inert : Inert t) : '/' ∉ t := fun member =>
  absurd (inert '/' member) (by decide)

theorem printable_free : Printable fun _ => True := fun _ _ => trivial

def Field.Plain (f : Field) : Prop := Inert f.type ∧ Inert f.name

namespace Interface

/-- All names and types that the interface declares are inert. -/
structure Plain (i : Interface) : Prop where
  prototypes : ∀ q ∈ i.prototypes, Inert q.returnType ∧ Inert q.method ∧ ∀ f ∈ q.params, f.Plain
  records : ∀ e ∈ Dictionary.entries i.records, Inert e.2.name ∧ ∀ f ∈ e.2.fields, f.Plain
  members : ∀ m ∈ i.members, Inert m

theorem plain_empty : empty.Plain := by
  constructor <;> simp [empty, Dictionary.empty]

end Interface

namespace Registry

theorem add_plain {registry next : Registry} {name : Text} {needsExists : Bool}
    {fields : List Field}
    (known : ∀ e ∈ Dictionary.entries registry, Inert e.2.name ∧ ∀ f ∈ e.2.fields, f.Plain)
    (inert : Inert name) (plain : ∀ f ∈ fields, f.Plain)
    (added : add registry name needsExists fields = .ok next) :
    ∀ e ∈ Dictionary.entries next, Inert e.2.name ∧ ∀ f ∈ e.2.fields, f.Plain := by
  intro e member
  unfold add at added
  split at added
  next =>
    cases added
    rcases Dictionary.mem_insertEntry member with rfl | before
    · exact ⟨inert, plain⟩
    · exact known e before
  next record found =>
    split at added
    next =>
      cases added
      rcases Dictionary.mem_insertEntry member with rfl | before
      · exact ⟨(known _ (Dictionary.get?_mem found)).1, plain⟩
      · exact known e before
    next => cases added

end Registry

namespace Access

variable {a : Access} (clean : a.Clean fun _ => True) (types : ∀ f ∈ a.fields, Inert f.type)
include clean

theorem recordFields_plain (types : ∀ f ∈ a.fields, Inert f.type) :
    ∀ f ∈ a.shape.recordFields a.fields, f.Plain := by
  have stored {f : Field} (member : f ∈ a.fields) : Inert (CodeType.stored f.type) :=
    (CodeType.stored_inert printable_free (types f member).free).inert
  intro f member
  unfold Shape.recordFields at member
  split at member
  next =>
    obtain ⟨g, known, rfl⟩ := List.mem_map.mp member
    exact ⟨stored (List.mem_of_mem_take known), (by decide : Inert "value".toList)⟩
  next =>
    obtain ⟨g, known, rfl⟩ := List.mem_map.mp member
    exact ⟨stored known, (InertOver.ofWord printable_free (clean.fields g known)).inert⟩

include types

/-- Generation keeps the interface plain. -/
theorem generate_plain {i next : Interface} {f : GeneratedFunction} (plain : i.Plain)
    (generated : a.generate i = .ok (f, next)) : next.Plain := by
  obtain ⟨-, registered, prototypes, members⟩ := generate_function generated
  constructor
  · intro q member
    rw [prototypes] at member
    rcases List.mem_append.mp member with before | new
    · exact plain.prototypes q before
    · obtain rfl := List.mem_singleton.mp new
      refine ⟨?_, (InertOver.ofWord printable_free clean.method).inert, ?_⟩
      · have outer : InertOver (fun _ => True) [] := by simp [InertOver]
        exact (a.shape.returnType_inert printable_free clean.spelling outer).inert
      · intro g known
        have inert := clean.parameters printable_free g known
        exact ⟨inert.1.inert, inert.2.inert⟩
  · unfold Registry.register at registered
    split at registered
    next =>
      rw [← Except.ok.inj registered]
      exact plain.records
    next name needsExists record =>
      have inert : Inert name := by
        have spelling := clean.spelling.inert
        cases shape : a.shape <;> simp_all [Shape.record?, Shape.spelling]
      exact Registry.add_plain plain.records inert (recordFields_plain clean types) registered
  · intro m member
    rw [members] at member
    unfold Interface.addMember at member
    split at member
    next => exact plain.members m member
    next =>
      rcases List.mem_append.mp member with before | new
      · exact plain.members m before
      · obtain rfl := List.mem_singleton.mp new
        exact (clean.function printable_free .empty).member.inert

end Access

namespace Regions

variable {layout : Layout} (layoutClean : layout.Clean fun _ => True)
include layoutClean

theorem line_slashless (depth : Nat) {t : Text} (slashless : '/' ∉ t) :
    '/' ∉ layout.line depth t := by
  have indentation := (layout.indentation_inert layoutClean depth).inert.slashless
  have newline := layoutClean.newline.inert.slashless
  simp [Layout.line, indentation, newline, slashless]

theorem renderRecord_slashless {record : Record} (name : Inert record.name)
    (fields : ∀ f ∈ record.fields, f.Plain) : '/' ∉ Interface.renderRecord layout record := by
  have line (depth : Nat) {t : Text} (slashless : '/' ∉ t) : '/' ∉ layout.line depth t :=
    line_slashless layoutClean depth slashless
  have head : '/' ∉ layout.line 1 ("struct " ++ record.name) :=
    line 1 (by simp [name.slashless])
  have flag : '/' ∉ (if record.hasExists then layout.line 2 "bool exists;" else []) := by
    split
    · exact line 2 (by decide)
    · simp
  have body : '/' ∉ record.fields.flatMap fun f =>
      layout.line 2 (f.type ++ " " ++ f.name ++ ";") := by
    intro member
    obtain ⟨f, known, inside⟩ := List.mem_flatMap.mp member
    obtain ⟨type, name⟩ := fields f known
    exact line 2 (by simp [type.slashless, name.slashless]) inside
  have opening : '/' ∉ layout.line 1 ['{'] := line 1 (by decide)
  have closing : '/' ∉ layout.line 1 ['}', ';'] := line 1 (by decide)
  simp only [Interface.renderRecord, List.mem_append, not_or]
  exact ⟨⟨⟨⟨head, opening⟩, flag⟩, body⟩, closing⟩

theorem ofInterface_slashless {i : Interface} (plain : i.Plain)
    (queryType : Inert layout.queryType) :
    '/' ∉ (ofInterface layout i).functions ∧ '/' ∉ (ofInterface layout i).members := by
  have newline := layoutClean.newline.inert.slashless
  have indent := layoutClean.indent.inert.slashless
  have records : '/' ∉ Interface.recordText layout i.records := by
    intro member
    obtain ⟨record, value, inside⟩ := List.mem_flatMap.mp member
    obtain ⟨e, entry, rfl⟩ := List.mem_map.mp value
    obtain ⟨name, fields⟩ := plain.records e entry
    exact renderRecord_slashless layoutClean name fields inside
  have declarations : '/' ∉ i.declarationText layout := by
    intro member
    obtain ⟨q, known, inside⟩ := List.mem_flatMap.mp member
    obtain ⟨returnType, method, params⟩ := plain.prototypes q known
    have list := (renderParams_inert printable_free fun f member =>
      ⟨(params f member).1.free, (params f member).2.free⟩).inert.slashless
    exact line_slashless layoutClean 1
      (by simp [returnType.slashless, method.slashless, list]) inside
  have members : '/' ∉ i.memberText layout := by
    intro member
    obtain ⟨m, known, inside⟩ := List.mem_flatMap.mp member
    exact line_slashless layoutClean 1
      (by simp [queryType.slashless, (plain.members m known).slashless]) inside
  have gap : '/' ∉ (if (Interface.recordText layout i.records).isEmpty then []
      else layout.newline ++ layout.newline) := by
    split <;> simp [newline]
  simp only [ofInterface, compose, List.mem_append, not_or]
  exact ⟨⟨⟨⟨⟨newline, records⟩, gap⟩, declarations⟩, indent⟩, ⟨newline, members⟩, indent⟩

end Regions
end QueryWeaver
