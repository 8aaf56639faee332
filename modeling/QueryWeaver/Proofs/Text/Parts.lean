import Mathlib
import QueryWeaver.Text.Blank
/-!
Cuts and trims of a text. What they give back is part of the text, in place and in order.
-/

namespace QueryWeaver

namespace Text

variable {t a b marker : Text}

/-- All characters of the text satisfy `p`. -/
def Over (p : Char → Prop) (t : Text) : Prop := ∀ c ∈ t, p c

variable {p : Char → Prop}

theorem over_nil : Over p [] := by
  simp [Over]

theorem over_cons {c : Char} : Over p (c :: t) ↔ p c ∧ Over p t := List.forall_mem_cons

theorem Over.subset (h : Over p t) (sub : a ⊆ t) : Over p a := fun c member => h c (sub member)

theorem dropPrefix_subset (pre t : Text) : dropPrefix pre t ⊆ t := by
  unfold dropPrefix
  cases h : pre.isPrefixOf? t with
  | none => simp
  | some rest =>
    rw [List.isPrefixOf?_eq_some_iff_append_eq] at h
    simp [← h]

theorem dropSuffix_subset (suf t : Text) : dropSuffix suf t ⊆ t := by
  unfold dropSuffix
  cases h : suf.isSuffixOf? t with
  | none => simp
  | some rest =>
    rw [List.isSuffixOf?_eq_some_iff_append_eq] at h
    simp [← h]

theorem trimStart_subset (p : Char → Bool) (t : Text) : trimStart p t ⊆ t :=
  (List.dropWhile_sublist p).subset

theorem trimEnd_subset (p : Char → Bool) (t : Text) : trimEnd p t ⊆ t := by
  intro c member
  have := (List.dropWhile_sublist p).subset (List.mem_reverse.mp member)
  exact List.mem_reverse.mp this

theorem trimBy_subset (p : Char → Bool) (t : Text) : trimBy p t ⊆ t := fun _ member =>
  trimStart_subset p t (trimEnd_subset p _ member)

theorem pieces_subset {sep : Char} {t : Text} : ∀ piece ∈ pieces sep t, piece ⊆ t := by
  induction t with
  | nil => simp [pieces]
  | cons c r ih =>
    have later {piece : Text} (member : piece ∈ pieces sep r) : piece ⊆ c :: r :=
      fun x inside => List.mem_cons_of_mem c (ih piece member inside)
    intro piece member
    simp only [pieces] at member
    split at member
    next =>
      rcases List.mem_cons.mp member with rfl | member
      · exact List.nil_subset _
      · exact later member
    next =>
      split at member
      next =>
        obtain rfl := List.mem_singleton.mp member
        exact List.cons_subset.mpr ⟨List.mem_cons_self .., List.nil_subset _⟩
      next q qs parts =>
        rcases List.mem_cons.mp member with rfl | member
        · have inside : q ∈ pieces sep r := by simp [parts]
          exact List.cons_subset.mpr ⟨List.mem_cons_self .., later inside⟩
        · exact later (by simp [parts, member])

theorem cut_append (h : cut marker t = some (a, b)) : t = a ++ marker ++ b := by
  induction t generalizing a with
  | nil =>
    simp only [cut] at h
    split at h
    next empty =>
      obtain ⟨rfl, rfl⟩ := h
      simp_all
    next => simp at h
  | cons c r ih =>
    simp only [cut] at h
    split at h
    next rest found =>
      rw [List.isPrefixOf?_eq_some_iff_append_eq] at found
      obtain ⟨rfl, rfl⟩ := h
      simpa using found.symm
    next =>
      obtain ⟨⟨before, after⟩, later, same⟩ := Option.map_eq_some_iff.mp h
      obtain ⟨rfl, rfl⟩ := same
      simp [ih later]

theorem cut_prefix (marker rest : Text) : cut marker (marker ++ rest) = some ([], rest) := by
  cases marker with
  | nil => cases rest <;> simp [cut, List.isPrefixOf?]
  | cons c marker =>
    have here : (c :: marker).isPrefixOf? (c :: (marker ++ rest)) = some rest := by
      rw [List.isPrefixOf?_eq_some_iff_append_eq]
      rfl
    rw [List.cons_append, cut, here]

theorem not_prefix (missing : cut marker t = none) : ¬marker <+: t := by
  intro here
  obtain ⟨rest, whole⟩ := here
  rw [← whole, cut_prefix] at missing
  cases missing

theorem cut_cons {c : Char} (other : ¬marker <+: c :: t) :
    cut marker (c :: t) = (cut marker t).map fun q => (c :: q.1, q.2) := by
  rw [cut]
  split
  next rest here =>
    rw [List.isPrefixOf?_eq_some_iff_append_eq] at here
    exact absurd ⟨rest, here⟩ other
  next => rfl

theorem cut_append_right (found : cut marker t = some (a, b)) (w : Text) :
    cut marker (t ++ w) = some (a, b ++ w) := by
  induction t generalizing a with
  | nil =>
    obtain ⟨rfl, rfl, rfl⟩ : a = [] ∧ marker = [] ∧ b = [] := by
      simpa [and_assoc] using (cut_append found).symm
    exact cut_prefix [] w
  | cons c t ih =>
    by_cases here : marker <+: c :: t
    · obtain ⟨rest, whole⟩ := here
      rw [← whole, cut_prefix] at found
      cases found
      rw [← whole, List.append_assoc, cut_prefix]
    · rw [cut_cons here] at found
      obtain ⟨⟨before, after⟩, later, same⟩ := Option.map_eq_some_iff.mp found
      cases same
      have fits : marker.length ≤ (c :: t).length := by
        have size := congrArg List.length (cut_append later)
        simp only [List.length_append, List.length_cons] at size ⊢
        omega
      have other : ¬marker <+: c :: (t ++ w) := fun further =>
        here (List.prefix_of_prefix_length_le further (List.prefix_append (c :: t) w) fits)
      rw [List.cons_append, cut_cons other, ih later]
      rfl

theorem cut_none_left (missing : cut marker (t ++ a) = none) : cut marker t = none := by
  cases found : cut marker t with
  | none => rfl
  | some parts =>
    obtain ⟨before, after⟩ := parts
    rw [cut_append_right found] at missing
    cases missing

theorem cut_none_right (missing : cut marker (t ++ a) = none) : cut marker a = none := by
  induction t with
  | nil => exact missing
  | cons c t ih =>
    have other : ¬marker <+: c :: (t ++ a) := not_prefix missing
    rw [List.cons_append, cut_cons other, Option.map_eq_none_iff] at missing
    exact ih missing

/-- Before its first occurrence a marker does not occur. -/
theorem cut_before (found : cut marker t = some (a, b)) (ne : marker ≠ []) :
    cut marker a = none := by
  cases again : cut marker a with
  | none => rfl
  | some parts =>
    obtain ⟨before, after⟩ := parts
    have first := cut_append_right again (marker ++ b)
    rw [← List.append_assoc, ← cut_append found, found] at first
    have whole := cut_append again
    have same : a = before := congrArg Prod.fst (Option.some.inj first)
    have size := congrArg List.length whole
    simp only [List.length_append, same] at size
    exact absurd (List.length_eq_zero_iff.mp (by omega)) ne

theorem cut_eq_none_iff : cut marker t = none ↔ ¬marker <:+: t := by
  constructor
  · intro missing inside
    obtain ⟨before, after, whole⟩ := inside
    rw [← whole, List.append_assoc] at missing
    have here := cut_prefix marker after
    rw [cut_none_right missing] at here
    cases here
  · intro apart
    cases found : cut marker t with
    | none => rfl
    | some parts => exact absurd ⟨parts.1, parts.2, (cut_append found).symm⟩ apart

/-- The first occurrence of the marker in the text stands between `a` and `b`. -/
structure First (marker t a b : Text) : Prop where
  whole : t = a ++ marker ++ b
  least : ∀ a' b', t = a' ++ marker ++ b' → a.length ≤ a'.length

theorem cut_least {a' b' : Text} (found : cut marker t = some (a, b))
    (other : t = a' ++ marker ++ b') : a.length ≤ a'.length := by
  induction t generalizing a a' with
  | nil =>
    have size := congrArg List.length (cut_append found)
    simp only [List.length_nil, List.length_append] at size
    omega
  | cons c t ih =>
    by_cases here : marker <+: c :: t
    · obtain ⟨rest, whole⟩ := here
      rw [← whole, cut_prefix] at found
      cases found
      exact Nat.zero_le _
    · rw [cut_cons here] at found
      obtain ⟨⟨before, after⟩, later, same⟩ := Option.map_eq_some_iff.mp found
      cases same
      cases a' with
      | nil => exact absurd ⟨b', other.symm⟩ here
      | cons d a' =>
        obtain ⟨-, rest⟩ := List.cons.inj other
        exact Nat.succ_le_succ (ih later rest)

theorem cut_eq_some_iff : cut marker t = some (a, b) ↔ First marker t a b := by
  constructor
  · intro found
    exact ⟨cut_append found, fun _ _ other => cut_least found other⟩
  · intro first
    cases found : cut marker t with
    | none => exact absurd ⟨a, b, first.whole.symm⟩ (cut_eq_none_iff.mp found)
    | some parts =>
      obtain ⟨before, after⟩ := parts
      have size : before.length = a.length :=
        Nat.le_antisymm (cut_least found first.whole) (first.least _ _ (cut_append found))
      have same := (cut_append found).symm.trans first.whole
      rw [List.append_assoc, List.append_assoc] at same
      obtain ⟨front, rest⟩ := List.append_inj same size
      rw [front, List.append_cancel_left rest]

/-- A marker does not run over a character that it does not have. -/
theorem cut_apart {c : Char} (other : c ∉ marker) (ne : marker ≠ [])
    (left : cut marker a = none) (right : cut marker b = none) :
    cut marker (a ++ c :: b) = none := by
  induction a with
  | nil =>
    have here : ¬marker <+: c :: b := by
      intro here
      obtain ⟨d, marker, rfl⟩ := List.exists_cons_of_ne_nil ne
      obtain ⟨same, -⟩ := List.cons_prefix_cons.mp here
      exact other (same ▸ List.mem_cons_self ..)
    rw [List.nil_append, cut_cons here, right]
    rfl
  | cons d a ih =>
    have here : ¬marker <+: d :: a := not_prefix left
    have further : ¬marker <+: d :: (a ++ c :: b) := by
      intro long
      rcases List.prefix_or_prefix_of_prefix long (List.prefix_append (d :: a) (c :: b)) with
        whole | ⟨rest, whole⟩
      · exact here whole
      · cases rest with
        | nil =>
          rw [List.append_nil] at whole
          exact here (whole ▸ List.prefix_refl _)
        | cons e rest =>
          rw [← whole, ← List.cons_append, List.prefix_append_right_inj,
            List.cons_prefix_cons] at long
          apply other
          rw [← whole, ← long.1]
          simp
    rw [cut_cons here, Option.map_eq_none_iff] at left
    rw [List.cons_append, cut_cons further, ih left]
    rfl

theorem cutLast_append (h : cutLast marker t = some (a, b)) : t = a ++ marker ++ b := by
  induction t generalizing a with
  | nil =>
    simp only [cutLast] at h
    split at h
    next empty =>
      obtain ⟨rfl, rfl⟩ := h
      simp_all
    next => simp at h
  | cons c r ih =>
    simp only [cutLast] at h
    split at h
    next before after later =>
      obtain ⟨rfl, rfl⟩ := h
      simp [ih later]
    next =>
      obtain ⟨rest, found, same⟩ := Option.map_eq_some_iff.mp h
      rw [List.isPrefixOf?_eq_some_iff_append_eq] at found
      obtain ⟨rfl, rfl⟩ := same
      simpa using found.symm

theorem cutLast_missing {mark : Char} (missing : mark ∉ t) : cutLast [mark] t = none := by
  induction t with
  | nil => rfl
  | cons c t ih =>
    obtain ⟨other, missing⟩ := not_or.mp (mt List.mem_cons.mpr missing)
    rw [cutLast, ih missing]
    simp [List.isPrefixOf?, other]

theorem cutLast_last {mark : Char} (missing : mark ∉ b) (a : Text) :
    cutLast [mark] (a ++ mark :: b) = some (a, b) := by
  induction a with
  | nil =>
    rw [List.nil_append, cutLast, cutLast_missing missing]
    simp [List.isPrefixOf?]
  | cons c a ih => rw [List.cons_append, cutLast, ih]

end Text
end QueryWeaver
