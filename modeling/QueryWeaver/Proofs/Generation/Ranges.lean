import Mathlib
import QueryWeaver.Header.Splice
import QueryWeaver.Proofs.Annotation.StubRanges
import QueryWeaver.Proofs.Source.TokenRanges
import QueryWeaver.Proofs.Statement.ListRanges
import QueryWeaver.Proofs.Statement.PlaceholderRanges
/-!
All cuts by byte offsets, from the source to the header. Whatever the texts are, each of them cuts a
range that is in order, within its text and between characters.
-/

namespace QueryWeaver

namespace Header

/-- The header up to the opening marker and from the closing one on, with the content between. -/
def slicedRegion (first last : Marker) (content header : Text) : Option (Except Error Text) :=
  match Text.find? first.text header with
  | none => some (.error (.missingMarkers first last))
  | some found => do
    let start := found + Text.size first.text
    let rest ← Text.slice? header start (Text.size header)
    match Text.find? last.text rest with
    | none => return .error (.missingMarkers first last)
    | some offset =>
      let before ← Text.slice? header 0 start
      let after ← Text.slice? header (start + offset) (Text.size header)
      return .ok (before ++ content ++ after)

theorem slicedRegion_eq (first last : Marker) (content header : Text) :
    slicedRegion first last content header = some (replaceRegion first last content header) := by
  rw [slicedRegion, replaceRegion]
  cases opened : Text.cut first.text header with
  | none => simp [Text.find?, opened]
  | some parts =>
    obtain ⟨before, rest⟩ := parts
    have found : Text.find? first.text header = some (Text.size before) :=
      Text.find?_eq_some.mpr ⟨before, rest, opened, rfl⟩
    have behind := Text.slice?_behind (before ++ first.text) rest
    have front := Text.slice?_front (before ++ first.text) rest
    rw [← Text.cut_append opened, Text.size_append] at behind front
    dsimp only
    rw [found]
    dsimp only
    rw [behind, Option.bind_eq_bind, Option.bind_some]
    cases closed : Text.cut last.text rest with
    | none => simp [Text.find?, closed]
    | some parts =>
      obtain ⟨inner, after⟩ := parts
      have found : Text.find? last.text rest = some (Text.size inner) :=
        Text.find?_eq_some.mpr ⟨inner, after, closed, rfl⟩
      have later := Text.slice?_behind (before ++ first.text ++ inner) (last.text ++ after)
      have text : before ++ first.text ++ inner ++ (last.text ++ after) = header := by
        rw [Text.cut_append opened, Text.cut_append closed]
        simp
      rw [text, Text.size_append, Text.size_append] at later
      rw [found]
      simp [front, later]

end Header

/-- No text makes a cut fail: the functions that find their parts by byte offsets give what the
library's functions give. The words of a text are ranges of it that hold at least one byte, one
behind the other with something between them. -/
theorem slices_succeed (t : Text) :
    Token.sliced t = some (Token.tokenize t) ∧
    Stub.slicedFunction t = some ((Stub.split? t).map Prod.fst) ∧
    (∀ tokens, Segment.sliced tokens = some (Segment.ofTokens tokens)) ∧
    Placeholder.sliced t = some (Placeholder.replaceAll t) ∧
    Word.sliced t = some (Word.ofText t) ∧
    Nesting.slicedParts t = some (topLevelParts t) ∧
    (∀ kind, Projection.slicedText t kind = some (Projection.text? t kind)) ∧
    ColumnName.sliced t = some (ColumnName.ofExpression t) ∧
    ColumnName.slicedImplicitAlias t = some (ColumnName.implicitAlias? t) ∧
    (∀ first last content, Header.slicedRegion first last content t =
      some (Header.replaceRegion first last content t)) ∧
    (∀ w ∈ Word.ofText t, w.start < w.stop ∧ Text.slice? t w.start w.stop = some w.text) ∧
    (Word.ofText t).Pairwise fun w w' => w.stop < w'.start := by
  refine ⟨Token.sliced_eq t, Stub.slicedFunction_eq t, Segment.sliced_eq,
    Placeholder.sliced_eq t, Word.sliced_eq t, Nesting.slicedParts_eq t,
    Projection.slicedText_eq t, ColumnName.sliced_eq t, ColumnName.slicedImplicitAlias_eq t,
    fun first last content => Header.slicedRegion_eq first last content t, ?_,
    Word.scan_ordered .start 0 t⟩
  intro w member
  exact ⟨(Word.scan_bounds member).2.1, Word.slice?_eq member⟩

/-- A character of two bytes stands before the words. -/
def samplePosted : Text := "SELECT 'ß,' AS x, f(y) FROM t;"

theorem sample_slices :
    (⟨"AS", 13, 15, 0⟩ : Word) ∈ Word.ofText samplePosted ∧ 13 < 15 ∧
      Text.slice? samplePosted 13 15 = some "AS" := by
  have member : (⟨"AS", 13, 15, 0⟩ : Word) ∈ Word.ofText samplePosted := by decide +kernel
  obtain ⟨-, -, -, -, -, -, -, -, -, -, words, -⟩ := slices_succeed samplePosted
  exact ⟨member, words _ member⟩

end QueryWeaver
