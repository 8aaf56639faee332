import QueryWeaver.Text.Order
/-!
Finite maps with text keys, kept in ascending key order. The main facts are the lookup laws of
`insert` and that two dictionaries with equal lookups are equal.
-/

namespace QueryWeaver

/-- Entries in strictly ascending order of their keys, code point by code point. -/
structure Dictionary (α : Type) where
  entries : List (Text × α)
  sorted : entries.Pairwise fun a b => Text.precedes a.1 b.1 = true

namespace Dictionary

variable {α : Type}

def empty : Dictionary α := ⟨[], .nil⟩

instance : Inhabited (Dictionary α) := ⟨empty⟩

def lookup (key : Text) : List (Text × α) → Option α
  | [] => none
  | (k, v) :: r => if k = key then some v else lookup key r

def get? (d : Dictionary α) (key : Text) : Option α := lookup key d.entries

def contains (d : Dictionary α) (key : Text) : Bool := (d.get? key).isSome

def isEmpty (d : Dictionary α) : Bool := d.entries.isEmpty

def keys (d : Dictionary α) : List Text := d.entries.map Prod.fst

def values (d : Dictionary α) : List α := d.entries.map Prod.snd

def insertEntry (key : Text) (value : α) : List (Text × α) → List (Text × α)
  | [] => [(key, value)]
  | (k, v) :: r =>
    if Text.precedes key k then (key, value) :: (k, v) :: r
    else if key = k then (key, value) :: r
    else (k, v) :: insertEntry key value r

theorem mem_insertEntry {key : Text} {value : α} {e : Text × α} {l : List (Text × α)}
    (h : e ∈ insertEntry key value l) : e = (key, value) ∨ e ∈ l := by
  induction l with
  | nil => simpa [insertEntry] using h
  | cons head r ih => grind [insertEntry]

theorem insertEntry_sorted (key : Text) (value : α) {l : List (Text × α)}
    (h : l.Pairwise fun a b => Text.precedes a.1 b.1 = true) :
    (insertEntry key value l).Pairwise fun a b => Text.precedes a.1 b.1 = true := by
  induction l with
  | nil => simp [insertEntry]
  | cons head r ih =>
    obtain ⟨k, v⟩ := head
    obtain ⟨hk, hr⟩ := List.pairwise_cons.mp h
    simp only [insertEntry]
    split
    next lt =>
      refine List.pairwise_cons.mpr ⟨?_, h⟩
      intro e he
      rcases List.mem_cons.mp he with rfl | he
      · exact lt
      · exact Text.precedes_trans lt (hk e he)
    next nlt =>
      split
      next eq => exact List.pairwise_cons.mpr ⟨fun e he => eq ▸ hk e he, hr⟩
      next ne =>
        refine List.pairwise_cons.mpr ⟨?_, ih hr⟩
        intro e he
        rcases mem_insertEntry he with rfl | he
        · exact Text.precedes_of_not (by simpa using nlt) ne
        · exact hk e he

/-- A later value for a key replaces the earlier one. -/
def insert (d : Dictionary α) (key : Text) (value : α) : Dictionary α :=
  ⟨insertEntry key value d.entries, insertEntry_sorted key value d.sorted⟩

def ofList (l : List (Text × α)) : Dictionary α :=
  l.foldl (fun d (key, value) => d.insert key value) empty

theorem lookup_insertEntry_self (key : Text) (value : α) (l : List (Text × α)) :
    lookup key (insertEntry key value l) = some value := by
  induction l with
  | nil => simp [insertEntry, lookup]
  | cons head r ih => grind [insertEntry, lookup]

theorem lookup_insertEntry_ne {key other : Text} (ne : key ≠ other) (value : α)
    (l : List (Text × α)) : lookup other (insertEntry key value l) = lookup other l := by
  induction l with
  | nil => simp [insertEntry, lookup, ne]
  | cons head r ih => grind [insertEntry, lookup]

theorem lookup_behind {key : Text} {l : List (Text × α)}
    (behind : ∀ e ∈ l, Text.precedes key e.1 = true) : lookup key l = none := by
  induction l with
  | nil => rfl
  | cons head r ih =>
    have ne : head.1 ≠ key := by
      intro same
      have before := behind head (List.mem_cons_self ..)
      rw [same, Text.precedes_irrefl] at before
      cases before
    rw [lookup, if_neg ne]
    exact ih fun e member => behind e (List.mem_cons_of_mem head member)

/-- The first key of a sorted list is not missing from a list with equal lookups. -/
theorem not_precedes_head {k k' : Text} {v v' : α} {r r' : List (Text × α)}
    (sorted : ((k', v') :: r').Pairwise fun a b => Text.precedes a.1 b.1 = true)
    (same : ∀ key, lookup key ((k, v) :: r) = lookup key ((k', v') :: r')) :
    Text.precedes k k' = false := by
  cases order : Text.precedes k k' with
  | false => rfl
  | true =>
    have missing : lookup k ((k', v') :: r') = none := by
      apply lookup_behind
      intro e member
      rcases List.mem_cons.mp member with rfl | member
      · exact order
      · exact Text.precedes_trans order ((List.pairwise_cons.mp sorted).1 e member)
    rw [← same k, lookup, if_pos rfl] at missing
    cases missing

theorem eq_of_lookup {l l' : List (Text × α)}
    (sorted : l.Pairwise fun a b => Text.precedes a.1 b.1 = true)
    (sorted' : l'.Pairwise fun a b => Text.precedes a.1 b.1 = true)
    (same : ∀ key, lookup key l = lookup key l') : l = l' := by
  induction l generalizing l' with
  | nil =>
    cases l' with
    | nil => rfl
    | cons e r' => simpa [lookup] using same e.1
  | cons e r ih =>
    cases l' with
    | nil => simpa [lookup] using same e.1
    | cons e' r' =>
      obtain ⟨k, v⟩ := e
      obtain ⟨k', v'⟩ := e'
      have first := not_precedes_head sorted' same
      have second := not_precedes_head sorted fun key => (same key).symm
      by_cases key : k = k'
      · subst key
        have value := same k
        rw [lookup, lookup, if_pos rfl, if_pos rfl, Option.some.injEq] at value
        obtain ⟨behind, tail⟩ := List.pairwise_cons.mp sorted
        obtain ⟨behind', tail'⟩ := List.pairwise_cons.mp sorted'
        have rest : ∀ key, lookup key r = lookup key r' := by
          intro key
          by_cases head : k = key
          · rw [← head, lookup_behind behind, lookup_behind behind']
          · have later := same key
            rwa [lookup, lookup, if_neg head, if_neg head] at later
        rw [value, ih tail tail' rest]
      · have order := Text.precedes_of_not first key
        rw [second] at order
        cases order

theorem ext_get? {d d' : Dictionary α} (same : ∀ key, d.get? key = d'.get? key) : d = d' := by
  obtain ⟨entries, sorted⟩ := d
  obtain ⟨entries', sorted'⟩ := d'
  have equal : entries = entries' := eq_of_lookup sorted sorted' same
  subst equal
  rfl

theorem get?_empty (key : Text) : (empty : Dictionary α).get? key = none := rfl

theorem get?_insert (d : Dictionary α) (key other : Text) (value : α) :
    (d.insert key value).get? other = if key = other then some value else d.get? other := by
  split
  next eq => subst eq; exact lookup_insertEntry_self key value d.entries
  next ne => exact lookup_insertEntry_ne ne value d.entries

end Dictionary
end QueryWeaver
