import Mathlib
import QueryWeaver.Header.Splice
import QueryWeaver.Proofs.Text.Parts
/-!
Where markers are found in texts put together, and from that: splicing the same regions into a
spliced header changes nothing.
-/

namespace QueryWeaver

namespace Marker

/-- A marker begins with two slashes and has no other slash. -/
theorem text_slashes (m : Marker) :
    ∃ name, m.text = '/' :: '/' :: '@' :: name ∧ '/' ∉ name := by
  cases m
  all_goals exact ⟨_, rfl, by decide⟩

variable {m m' : Marker} {t w : Text}

theorem text_ne_nil (m : Marker) : m.text ≠ [] := by
  cases m <;> exact List.cons_ne_nil _ _

theorem no_marker {c : Char} (other : c ≠ '/') : ¬m.text <+: c :: w := by
  obtain ⟨name, text, -⟩ := m.text_slashes
  rintro ⟨rest, whole⟩
  rw [text] at whole
  exact other (List.cons.inj whole).1.symm

theorem text_inj (same : m.text.take 20 = m'.text.take 20) : m = m' := by
  cases m <;> cases m'
  all_goals first | rfl | exact absurd same (by decide)

theorem text_length (m : Marker) : 20 ≤ m.text.length := by
  cases m <;> decide

theorem cut_slashless (slashless : '/' ∉ t) :
    Text.cut m.text (t ++ w) = (Text.cut m.text w).map fun q => (t ++ q.1, q.2) := by
  induction t with
  | nil => simp
  | cons c t ih =>
    have other : c ≠ '/' := fun same => slashless (same ▸ List.mem_cons_self ..)
    rw [List.cons_append, Text.cut_cons (no_marker other),
      ih fun member => slashless (List.mem_cons_of_mem c member), Option.map_map]
    rfl

/-- The text holds no marker. -/
def Unmarked (t : Text) : Prop := ∀ m : Marker, Text.cut m.text t = none

theorem unmarked_nil : Unmarked [] := by
  intro m
  cases m <;> rfl

theorem unmarked_of_slashless (slashless : '/' ∉ t) : Unmarked t := by
  intro m
  rw [← List.append_nil t, cut_slashless slashless, unmarked_nil m]
  rfl

/-- The second slash of a marker begins no marker. -/
theorem no_marker_tail {t : Text} : ¬m.text <+: '/' :: '@' :: t := by
  obtain ⟨name, text, -⟩ := m.text_slashes
  rintro ⟨rest, whole⟩
  rw [text] at whole
  have second := (List.cons.inj (List.cons.inj whole).2).1
  exact absurd second (by decide)

theorem cut_other (ne : m ≠ m') :
    Text.cut m.text (m'.text ++ w) = (Text.cut m.text w).map fun q => (m'.text ++ q.1, q.2) := by
  have first : ¬m.text <+: m'.text ++ w := by
    rintro ⟨rest, whole⟩
    have same := congrArg (List.take 20) whole
    rw [List.take_append_of_le_length m.text_length, List.take_append_of_le_length m'.text_length]
      at same
    exact ne (text_inj same)
  obtain ⟨name, text, slashless⟩ := m'.text_slashes
  have tail : '/' ∉ '@' :: name := by simp [slashless]
  rw [text] at first ⊢
  simp only [List.cons_append] at first ⊢
  rw [Text.cut_cons first, Text.cut_cons no_marker_tail, ← List.cons_append,
    cut_slashless tail, Option.map_map, Option.map_map]
  rfl

/-- No marker begins in a text and ends in the marker after it. -/
theorem no_marker_across {c : Char} (here : ¬m.text <+: c :: t) :
    ¬m.text <+: c :: (t ++ (m'.text ++ w)) := by
  intro further
  rcases List.prefix_or_prefix_of_prefix further
    (List.prefix_append (c :: t) (m'.text ++ w)) with whole | ⟨rest, whole⟩
  · exact here whole
  · obtain ⟨after, run⟩ := further
    rw [← whole, List.append_assoc, ← List.cons_append, List.append_cancel_left_eq] at run
    obtain ⟨name', text', -⟩ := m'.text_slashes
    obtain ⟨name, text, slashless⟩ := m.text_slashes
    rw [text'] at run
    rw [text] at whole
    cases rest with
    | nil => exact here ⟨[], by rw [text, ← whole]; simp⟩
    | cons slash rest =>
      obtain ⟨rfl, later⟩ := List.cons.inj run
      cases t with
      | nil =>
        obtain rfl : rest = '@' :: name := (List.cons.inj (List.cons.inj whole).2).2
        exact absurd (List.cons.inj later).1 (by decide)
      | cons d t =>
        have name : t ++ '/' :: rest = '@' :: name := (List.cons.inj (List.cons.inj whole).2).2
        have member : '/' ∈ t ++ '/' :: rest := by simp
        rw [name] at member
        simp [slashless] at member

/-- An occurrence of a marker does not run into the next marker. -/
theorem cut_before_marker (missing : Text.cut m.text t = none) :
    Text.cut m.text (t ++ (m'.text ++ w)) =
      (Text.cut m.text (m'.text ++ w)).map fun q => (t ++ q.1, q.2) := by
  induction t with
  | nil => simp
  | cons c t ih =>
    have here : ¬m.text <+: c :: t := Text.not_prefix missing
    rw [Text.cut_cons here, Option.map_eq_none_iff] at missing
    rw [List.cons_append, Text.cut_cons (no_marker_across here), ih missing, Option.map_map]
    rfl

end Marker

namespace Header

variable {regions : Regions} {header spliced : Text}

theorem replaceRegion_ok {first last : Marker} {content h h' : Text}
    (replaced : replaceRegion first last content h = .ok h') :
    ∃ a rest x b, Text.cut first.text h = some (a, rest) ∧
      Text.cut last.text rest = some (x, b) ∧
      h' = a ++ (first.text ++ (content ++ (last.text ++ b))) := by
  simp only [replaceRegion] at replaced
  split at replaced
  next => cases replaced
  next a rest opened =>
    split at replaced
    next => cases replaced
    next x b closed =>
      cases replaced
      refine ⟨a, rest, x, b, opened, closed, ?_⟩
      simp only [List.append_assoc]

/-- A text with a region in it: what stands before the region, in it and behind it. -/
def regioned (first last : Marker) (a x b : Text) : Text :=
  a ++ first.text ++ x ++ last.text ++ b

/-- The region of a header runs from its first opening marker to the first closing one behind. -/
structure Region (first last : Marker) (header a x b : Text) : Prop where
  opens : Text.First first.text header a (x ++ last.text ++ b)
  closes : Text.First last.text (x ++ last.text ++ b) x b

theorem Region.replace {first last : Marker} {a x b : Text}
    (region : Region first last header a x b) (content : Text) :
    replaceRegion first last content header = .ok (regioned first last a content b) := by
  simp only [replaceRegion, Text.cut_eq_some_iff.mpr region.opens,
    Text.cut_eq_some_iff.mpr region.closes, regioned]

/-- A region is found where it stands, if no marker of its own comes before. -/
theorem region_regioned {first last : Marker} {a x : Text} (b : Text) (start : ¬first.text <:+: a)
    (inside : ¬last.text <:+: x) : Region first last (regioned first last a x b) a x b := by
  have closed : Text.cut last.text (x ++ (last.text ++ b)) = some (x, b) := by
    rw [Marker.cut_before_marker (Text.cut_eq_none_iff.mpr inside), Text.cut_prefix]
    simp
  have opened : Text.cut first.text (a ++ (first.text ++ (x ++ (last.text ++ b)))) =
      some (a, x ++ (last.text ++ b)) := by
    rw [Marker.cut_before_marker (Text.cut_eq_none_iff.mpr start), Text.cut_prefix]
    simp
  constructor
  · apply Text.cut_eq_some_iff.mp
    simpa only [regioned, List.append_assoc] using opened
  · apply Text.cut_eq_some_iff.mp
    simpa only [List.append_assoc] using closed

/-- A region whose content does not hold its closing marker is found again and keeps that
content. -/
theorem replaceRegion_again (first last : Marker) {content a : Text} (b : Text)
    (clear : Text.cut last.text content = none) (start : Text.cut first.text a = none) :
    replaceRegion first last content (a ++ (first.text ++ (content ++ (last.text ++ b)))) =
      .ok (a ++ (first.text ++ (content ++ (last.text ++ b)))) := by
  have region := region_regioned b (Text.cut_eq_none_iff.mp start) (Text.cut_eq_none_iff.mp clear)
  have again := region.replace content
  simpa only [regioned, List.append_assoc] using again

theorem replaceRegion_error {first last : Marker} {content h : Text}
    (missing : Text.cut first.text h = none) :
    replaceRegion first last content h = .error (.missingMarkers first last) := by
  simp only [replaceRegion, missing]

/-- A region is looked for behind a text that does not hold its opening marker. -/
theorem replaceRegion_behind {first last : Marker} {content a b : Text}
    (passed : Text.cut first.text (a ++ b) =
      (Text.cut first.text b).map fun q => (a ++ q.1, q.2)) :
    replaceRegion first last content (a ++ b) =
      (replaceRegion first last content b).map (a ++ ·) := by
  simp only [replaceRegion, passed]
  cases Text.cut first.text b with
  | none => rfl
  | some parts =>
    simp only [Option.map_some]
    cases Text.cut last.text parts.2 with
    | none => rfl
    | some behind => simp [Except.map]

/-- Other markers are found behind a region whose content does not hold them. -/
theorem cut_region {m first last : Marker} {content b : Text}
    (clear : Text.cut m.text content = none) (starts : m ≠ first) (close : m ≠ last) :
    Text.cut m.text (first.text ++ (content ++ (last.text ++ b))) =
      (Text.cut m.text b).map fun q =>
        (first.text ++ (content ++ (last.text ++ q.1)), q.2) := by
  rw [Marker.cut_other starts, Marker.cut_before_marker clear, Marker.cut_other close,
    Option.map_map, Option.map_map]
  rfl

/-- A marker that neither a text nor the region behind it holds is found further on. -/
theorem cut_past_region {m first last : Marker} {a content b : Text}
    (start : Text.cut m.text a = none) (clear : Text.cut m.text content = none)
    (starts : m ≠ first) (close : m ≠ last) :
    Text.cut m.text (a ++ (first.text ++ (content ++ (last.text ++ b)))) =
      (Text.cut m.text b).map fun q =>
        (a ++ (first.text ++ (content ++ (last.text ++ q.1))), q.2) := by
  rw [Marker.cut_before_marker start, cut_region clear starts close, Option.map_map]
  rfl

theorem splice_ok (done : splice regions header = .ok spliced) :
    ∃ h, replaceRegion .functionsBegin .functionsEnd regions.functions header = .ok h ∧
      replaceRegion .variablesBegin .variablesEnd regions.members h = .ok spliced := by
  unfold splice at done
  cases first : replaceRegion .functionsBegin .functionsEnd regions.functions header with
  | error e => simp [first, bind, Except.bind] at done
  | ok h => exact ⟨h, rfl, by simpa [first, bind, Except.bind] using done⟩

/-- The variables region of a header does not enclose its functions region: where it opens first,
it closes first. -/
def Apart (header : Text) : Prop :=
  ∀ a rest, Text.cut Marker.functionsBegin.text header = some (a, rest) →
    ∀ p q, Text.cut Marker.variablesBegin.text a = some (p, q) →
      ∃ x b, Text.cut Marker.variablesEnd.text q = some (x, b)

/-- The parts of a spliced header: its variables region stands behind its functions region, or
before it, or in its place. -/
inductive Spliced (regions : Regions) (header : Text) : Text → Prop
  | behind {a b c : Text} (apart : Apart header)
      (start : Text.cut Marker.functionsBegin.text a = none)
      (start' : Text.cut Marker.variablesBegin.text a = none)
      (between : Text.cut Marker.variablesBegin.text b = none) :
      Spliced regions header (a ++ (Marker.functionsBegin.text ++ (regions.functions ++
        (Marker.functionsEnd.text ++ (b ++ (Marker.variablesBegin.text ++ (regions.members ++
          (Marker.variablesEnd.text ++ c))))))))
  | before {a b c : Text} (apart : Apart header)
      (start : Text.cut Marker.functionsBegin.text a = none)
      (start' : Text.cut Marker.variablesBegin.text a = none)
      (between : Text.cut Marker.functionsBegin.text b = none) :
      Spliced regions header (a ++ (Marker.variablesBegin.text ++ (regions.members ++
        (Marker.variablesEnd.text ++ (b ++ (Marker.functionsBegin.text ++ (regions.functions ++
          (Marker.functionsEnd.text ++ c))))))))
  | inPlace {a b rest c : Text} (enclosed : ¬Apart header)
      (start : Text.cut Marker.functionsBegin.text a = none)
      (start' : Text.cut Marker.variablesBegin.text a = none)
      (opened : Text.cut Marker.functionsBegin.text header = some (b, rest))
      (further : Text.cut Marker.variablesEnd.text regions.functions = none → c <:+ rest) :
      Spliced regions header (a ++ (Marker.variablesBegin.text ++ (regions.members ++
        (Marker.variablesEnd.text ++ c))))

theorem spliced_of_splice
    (clear : Text.cut Marker.variablesBegin.text regions.functions = none)
    (done : splice regions header = .ok spliced) : Spliced regions header spliced := by
  obtain ⟨between, first, second⟩ := splice_ok done
  obtain ⟨a, rest, x, b, opened, closed, rfl⟩ := replaceRegion_ok first
  obtain ⟨c, rest', y, d, opened', closed', rfl⟩ := replaceRegion_ok second
  have start := Text.cut_before opened Marker.functionsBegin.text_ne_nil
  have start' := Text.cut_before opened' Marker.variablesBegin.text_ne_nil
  cases before : Text.cut Marker.variablesBegin.text a with
  | none =>
    rw [cut_past_region before clear (by decide) (by decide)] at opened'
    obtain ⟨⟨c₂, after⟩, found, same⟩ := Option.map_eq_some_iff.mp opened'
    cases same
    have between := Text.cut_before found Marker.variablesBegin.text_ne_nil
    have apart : Apart header := by
      intro a' rest' opened' p q inside
      cases opened.symm.trans opened'
      cases before.symm.trans inside
    have parts := @Spliced.behind regions header a c₂ d apart start before between
    simpa only [List.append_assoc] using parts
  | some parts =>
    obtain ⟨c', a₂⟩ := parts
    rw [Text.cut_append_right before] at opened'
    cases opened'
    have parted := Text.cut_append before
    have head : Text.cut Marker.functionsBegin.text c = none := by
      rw [parted, List.append_assoc] at start
      exact Text.cut_none_left start
    cases inside : Text.cut Marker.variablesEnd.text a₂ with
    | none =>
      have enclosed : ¬Apart header := by
        intro apart
        obtain ⟨x, b, found⟩ := apart a rest opened c a₂ before
        rw [inside] at found
        cases found
      apply Spliced.inPlace enclosed head start' opened
      intro plain
      rw [cut_past_region inside plain (by decide) (by decide)] at closed'
      obtain ⟨⟨b₁, d'⟩, found, same⟩ := Option.map_eq_some_iff.mp closed'
      cases same
      rw [Text.cut_append closed, Text.cut_append found]
      exact ⟨x ++ Marker.functionsEnd.text ++ (b₁ ++ Marker.variablesEnd.text), by simp⟩
    | some parts =>
      obtain ⟨y', a₃⟩ := parts
      rw [Text.cut_append_right inside] at closed'
      cases closed'
      have between : Text.cut Marker.functionsBegin.text a₃ = none := by
        rw [parted, Text.cut_append inside] at start
        exact Text.cut_none_right (Text.cut_none_right start)
      have apart : Apart header := by
        intro a' rest' opened' p q found
        cases opened.symm.trans opened'
        cases before.symm.trans found
        exact ⟨_, _, inside⟩
      exact .before apart head start' between

/-- A spliced header has the members, and the declarations unless the splice of the members has
overwritten them. -/
theorem splice_keeps (done : splice regions header = .ok spliced) :
    regions.members <:+: spliced ∧
      (Text.contains Marker.variablesBegin.text regions.functions = false → Apart header →
        regions.functions <:+: spliced) := by
  constructor
  · obtain ⟨between, -, second⟩ := splice_ok done
    obtain ⟨c, rest, y, d, -, -, whole⟩ := replaceRegion_ok second
    exact ⟨c ++ Marker.variablesBegin.text, Marker.variablesEnd.text ++ d, by simp [whole]⟩
  · intro unmarked apart
    have clear : Text.cut Marker.variablesBegin.text regions.functions = none := by
      simpa [Text.contains] using unmarked
    cases spliced_of_splice clear done with
    | @behind a b c =>
      exact ⟨a ++ Marker.functionsBegin.text, Marker.functionsEnd.text ++ (b ++
        (Marker.variablesBegin.text ++ (regions.members ++ (Marker.variablesEnd.text ++ c)))),
        by simp⟩
    | @before a b c =>
      exact ⟨a ++ (Marker.variablesBegin.text ++ (regions.members ++ (Marker.variablesEnd.text ++
        (b ++ Marker.functionsBegin.text)))), Marker.functionsEnd.text ++ c, by simp⟩
    | inPlace enclosed => exact absurd apart enclosed

section

variable (functions : Marker.Unmarked regions.functions) (members : Marker.Unmarked regions.members)
include functions members

/-- A header whose variables region stands behind its functions region is given back. -/
theorem splice_behind {a b c : Text} (start : Text.cut Marker.functionsBegin.text a = none)
    (start' : Text.cut Marker.variablesBegin.text a = none)
    (between : Text.cut Marker.variablesBegin.text b = none) :
    let h := a ++ (Marker.functionsBegin.text ++ (regions.functions ++
      (Marker.functionsEnd.text ++ (b ++ (Marker.variablesBegin.text ++ (regions.members ++
        (Marker.variablesEnd.text ++ c)))))))
    splice regions h = .ok h := by
  intro h
  have first : replaceRegion .functionsBegin .functionsEnd regions.functions h = .ok h :=
    replaceRegion_again _ _ _ (functions _) start
  have front : Text.cut Marker.variablesBegin.text (a ++ (Marker.functionsBegin.text ++
      (regions.functions ++ (Marker.functionsEnd.text ++ b)))) = none := by
    rw [cut_past_region start' (functions _) (by decide) (by decide), between]
    rfl
  have second : replaceRegion .variablesBegin .variablesEnd regions.members h = .ok h := by
    have again := replaceRegion_again .variablesBegin .variablesEnd c (members _) front
    simpa only [List.append_assoc] using again
  rw [splice, first]
  exact second

omit functions in
/-- Where the variables region comes first, the declarations go behind it. -/
theorem splice_members_first {a c : Text} (start : Text.cut Marker.functionsBegin.text a = none)
    (start' : Text.cut Marker.variablesBegin.text a = none) :
    splice regions (a ++ (Marker.variablesBegin.text ++ (regions.members ++
        (Marker.variablesEnd.text ++ c)))) =
      (replaceRegion .functionsBegin .functionsEnd regions.functions c).map fun h =>
        a ++ (Marker.variablesBegin.text ++ (regions.members ++
          (Marker.variablesEnd.text ++ h))) := by
  have passed : Text.cut Marker.functionsBegin.text ((a ++ (Marker.variablesBegin.text ++
      (regions.members ++ Marker.variablesEnd.text))) ++ c) =
      (Text.cut Marker.functionsBegin.text c).map fun q =>
        ((a ++ (Marker.variablesBegin.text ++ (regions.members ++ Marker.variablesEnd.text))) ++
          q.1, q.2) := by
    have past := @cut_past_region .functionsBegin .variablesBegin .variablesEnd a regions.members c
      start (members _) (by decide) (by decide)
    simpa only [List.append_assoc] using past
  have first := @replaceRegion_behind .functionsBegin .functionsEnd regions.functions _ c passed
  simp only [List.append_assoc] at first
  rw [splice, first]
  cases replaceRegion .functionsBegin .functionsEnd regions.functions c with
  | error e => rfl
  | ok h => exact replaceRegion_again _ _ h (members _) start'

/-- Splicing a spliced header gives it back, unless the variables region has taken the place of the
functions region. Then the text behind it decides. -/
theorem Spliced.again (parts : Spliced regions header spliced) :
    Apart header ∧ splice regions spliced = .ok spliced ∨ ∃ a b rest c, ¬Apart header ∧
      Text.cut Marker.functionsBegin.text header = some (b, rest) ∧ c <:+ rest ∧
      spliced = a ++ (Marker.variablesBegin.text ++ (regions.members ++
        (Marker.variablesEnd.text ++ c))) ∧
      splice regions spliced =
        (replaceRegion .functionsBegin .functionsEnd regions.functions c).map fun h =>
          a ++ (Marker.variablesBegin.text ++ (regions.members ++
            (Marker.variablesEnd.text ++ h))) := by
  cases parts with
  | behind apart start start' between =>
    exact .inl ⟨apart, splice_behind functions members start start' between⟩
  | before apart start start' between =>
    left
    refine ⟨apart, ?_⟩
    rw [splice_members_first members start start',
      replaceRegion_again _ _ _ (functions _) between]
    rfl
  | @inPlace a b rest c enclosed start start' opened further =>
    exact .inr ⟨a, b, rest, c, enclosed, opened, further (functions _), rfl,
      splice_members_first members start start'⟩

end

/-- Splicing a spliced header gives it back or fails, where the functions region opens once. -/
theorem splice_again (functions : '/' ∉ regions.functions) (members : '/' ∉ regions.members)
    (once : ∀ a b, Text.cut Marker.functionsBegin.text header = some (a, b) →
      Text.cut Marker.functionsBegin.text b = none)
    (done : splice regions header = .ok spliced) :
    splice regions spliced = .ok spliced ∨ ∃ e, splice regions spliced = .error e := by
  have clear := Marker.unmarked_of_slashless functions
  have clear' := Marker.unmarked_of_slashless members
  obtain ⟨-, again⟩ | ⟨a, b, rest, c, -, opened, behind, -, spliceAgain⟩ :=
    (spliced_of_splice (clear _) done).again clear clear'
  · exact .inl again
  · right
    obtain ⟨x, whole⟩ := behind
    have missing : Text.cut Marker.functionsBegin.text c = none := by
      apply Text.cut_none_right (t := x)
      rw [whole]
      exact once b rest opened
    rw [spliceAgain, replaceRegion_error missing]
    exact ⟨_, rfl⟩

end Header
end QueryWeaver
