import QueryWeaver.CommandLine.FileStore
import QueryWeaver.Proofs.Text.Parts
import QueryWeaver.Proofs.Signature.Sentences
/-!
Where paths lead while files are made and changed. A path that leads to a file goes on leading to it
whatever is put at the end of another path, and what is added to its last name leads nowhere else
than to the file of that longer name.
-/

namespace QueryWeaver

namespace Text

variable {sep : Char}

theorem pieces_of_not_mem {t : Text} (free : sep ∉ t) : pieces sep t = [t] := by
  induction t with
  | nil => rfl
  | cons c r ih =>
    obtain ⟨other, rest⟩ := List.ne_and_not_mem_of_not_mem_cons free
    rw [pieces, if_neg other.symm, ih rest]

/-- What is added without a separator belongs to the last piece. -/
theorem pieces_append (t : Text) {u : Text} (free : sep ∉ u) :
    ∃ front last, pieces sep t = front ++ [last] ∧ pieces sep (t ++ u) = front ++ [last ++ u] := by
  induction t with
  | nil => exact ⟨[], [], rfl, pieces_of_not_mem free⟩
  | cons c r ih =>
    obtain ⟨front, last, whole, longer⟩ := ih
    rw [List.cons_append, pieces, pieces, whole, longer]
    by_cases cut : c = sep
    · rw [if_pos cut, if_pos cut]
      exact ⟨[] :: front, last, rfl, rfl⟩
    · rw [if_neg cut, if_neg cut]
      cases front with
      | nil => exact ⟨[], c :: last, rfl, rfl⟩
      | cons first front => exact ⟨(c :: first) :: front, last, rfl, rfl⟩

end Text

namespace Dictionary

variable {α : Type}

theorem mem_keys_iff {d : Dictionary α} {key : Text} :
    key ∈ d.keys ↔ d.contains key = true := by
  obtain ⟨entries, sorted⟩ := d
  simp only [keys, contains, get?]
  induction entries with
  | nil => simp [lookup]
  | cons e r ih =>
    rw [List.map_cons, List.mem_cons, lookup]
    split
    next same => simp [same]
    next other => simp [Ne.symm other, ih (List.pairwise_cons.mp sorted).2]

theorem contains_insert (d : Dictionary α) (key other : Text) (value : α) :
    (d.insert key value).contains other = (decide (key = other) || d.contains other) := by
  rw [contains, get?_insert]
  split
  next same => simp [same]
  next different => simp [different, contains]

end Dictionary

namespace FileStore

variable {s : FileStore} {k k₀ t path part : Text} {here? : Option (List Text)}
  {parts r : List Text} {place : Place}

/-- The store with a text put at a key. -/
def put (s : FileStore) (key text : Text) : FileStore :=
  { s with files := s.files.insert key text }

theorem get?_put (s : FileStore) (k other t : Text) :
    (s.put k t).files.get? other = if k = other then some t else s.files.get? other :=
  Dictionary.get?_insert s.files k other t

theorem contains_put (s : FileStore) (k other t : Text) :
    (s.put k t).files.contains other = (decide (k = other) || s.files.contains other) :=
  Dictionary.contains_insert s.files k other t

theorem isDirectory_put {names : List Text} (directory : s.isDirectory names = true) (k t : Text) :
    (s.put k t).isDirectory names = true := by
  simp only [isDirectory, Bool.or_eq_true, List.any_eq_true] at directory ⊢
  refine directory.imp_right fun ⟨below, member, pre⟩ => ⟨below, ?_, pre⟩
  rw [Dictionary.mem_keys_iff] at member ⊢
  rw [contains_put, member, Bool.or_true]

theorem isDirectory_key {names : List Text} (ne : names ≠ []) :
    s.isDirectory [key names] = s.isDirectory names := by
  rw [isDirectory, isDirectory, List.isEmpty_eq_false_iff.mpr ne]
  rfl

/-- A key of a file, or one that no directory has: what is put there hides nothing. -/
def Free (s : FileStore) (k : Text) : Prop :=
  s.files.contains k = true ∨ s.isDirectory [k] = false

/-- The directory above one of the store, or above what lies outside it. -/
def above : Option (List Text) → Option (List Text)
  | some (name :: names) => some (name :: names).dropLast
  | _ => none

/-- A part of a path that names a file or a directory. -/
structure Named (part : Text) : Prop where
  moves : isIdle part = false
  short : Text.size part ≤ maxName
  down : part ≠ ['.', '.']

/-- The walks that lead to a place, by the first part of what is left of the path. -/
inductive Leads (s : FileStore) : Option (List Text) → List Text → Place → Prop
  | here (here? : Option (List Text)) : Leads s here? [] .directory
  | idle {here? : Option (List Text)} {part : Text} {r : List Text} {place : Place}
    (idle : isIdle part = true) (rest : Leads s here? r place) : Leads s here? (part :: r) place
  | up {here? : Option (List Text)} {part : Text} {r : List Text} {place : Place}
    (back : part = ['.', '.']) (rest : Leads s (above here?) r place) :
    Leads s here? (part :: r) place
  | file {names : List Text} {part : Text} (named : Named part)
    (file : s.files.contains (key (names ++ [part])) = true) :
    Leads s (some names) [part] (.file (key (names ++ [part])))
  | into {names : List Text} {part : Text} {r : List Text} {place : Place} (named : Named part)
    (missing : s.files.contains (key (names ++ [part])) = false)
    (directory : s.isDirectory (names ++ [part]) = true)
    (rest : Leads s (some (names ++ [part])) r place) : Leads s (some names) (part :: r) place
  | absent {names : List Text} {part : Text} (named : Named part)
    (missing : s.files.contains (key (names ++ [part])) = false)
    (bare : s.isDirectory (names ++ [part]) = false) :
    Leads s (some names) [part] (.absent (key (names ++ [part])))

theorem walk_idle (idle : isIdle part = true) : s.walk here? (part :: r) = s.walk here? r := by
  rw [walk.eq_def]
  simp only [if_pos idle]

theorem walk_long (moves : isIdle part = false) (long : maxName < Text.size part) :
    s.walk here? (part :: r) = .error .nameTooLong := by
  rw [walk.eq_def]
  simp only [moves, Bool.false_eq_true, if_false, if_pos long]

theorem walk_up : s.walk here? (['.', '.'] :: r) = s.walk (above here?) r := by
  have moves : ¬isIdle ['.', '.'] = true := by decide
  have short : ¬maxName < Text.size ['.', '.'] := by decide
  rw [walk.eq_def]
  simp only [if_neg moves, if_neg short]
  rcases here? with _ | _ | _ <;> rfl

theorem walk_outside (named : Named part) : s.walk none (part :: r) = .error .noEntry := by
  rw [walk.eq_def]
  simp only [named.moves, Bool.false_eq_true, if_false, if_neg (Nat.not_lt.mpr named.short),
    if_neg named.down]

theorem walk_named (named : Named part) (names r : List Text) :
    s.walk (some names) (part :: r) =
      if s.files.contains (key (names ++ [part])) then
        if r.isEmpty then .ok (.file (key (names ++ [part]))) else .error .notDirectory
      else if s.isDirectory (names ++ [part]) then s.walk (some (names ++ [part])) r
      else if r.isEmpty then .ok (.absent (key (names ++ [part])))
      else .error .noEntry := by
  rw [walk.eq_def]
  simp only [named.moves, Bool.false_eq_true, if_false, if_neg (Nat.not_lt.mpr named.short),
    if_neg named.down]

theorem leads_of_walk (walked : s.walk here? parts = .ok place) : Leads s here? parts place := by
  induction parts generalizing here? with
  | nil =>
    cases walked
    exact .here here?
  | cons part r ih =>
    cases idle : isIdle part with
    | true =>
      rw [walk_idle idle] at walked
      exact .idle idle (ih walked)
    | false =>
      by_cases back : part = ['.', '.']
      · rw [back, walk_up] at walked
        exact .up back (ih walked)
      by_cases long : maxName < Text.size part
      · rw [walk_long idle long] at walked
        cases walked
      have named : Named part := ⟨idle, Nat.le_of_not_lt long, back⟩
      cases here? with
      | none =>
        rw [walk_outside named] at walked
        cases walked
      | some names =>
        rw [walk_named named] at walked
        cases file : s.files.contains (key (names ++ [part])) with
        | true =>
          rw [file, if_pos rfl] at walked
          split at walked
          next last =>
            cases walked
            rw [List.isEmpty_iff.mp last]
            exact .file named file
          next => cases walked
        | false =>
          rw [file, if_neg Bool.false_ne_true] at walked
          cases directory : s.isDirectory (names ++ [part]) with
          | true =>
            rw [directory, if_pos rfl] at walked
            exact .into named file directory (ih walked)
          | false =>
            rw [directory, if_neg Bool.false_ne_true] at walked
            split at walked
            next last =>
              cases walked
              rw [List.isEmpty_iff.mp last]
              exact .absent named file directory
            next => cases walked

theorem Leads.walk (leads : Leads s here? parts place) : s.walk here? parts = .ok place := by
  induction leads with
  | here => rfl
  | idle idle _ ih => rw [walk_idle idle, ih]
  | up back _ ih => rw [back, walk_up, ih]
  | file named file =>
    rw [walk_named named, if_pos file]
    rfl
  | into named missing directory _ ih =>
    rw [walk_named named, missing, if_neg Bool.false_ne_true, if_pos directory, ih]
  | absent named missing bare =>
    rw [walk_named named, missing, bare, if_neg Bool.false_ne_true, if_neg Bool.false_ne_true]
    rfl

theorem Leads.contains (leads : Leads s here? parts (.file k)) : s.files.contains k = true := by
  generalize place : Place.file k = p at leads
  induction leads with
  | idle _ _ ih => exact ih place
  | up _ _ ih => exact ih place
  | into _ _ _ _ ih => exact ih place
  | file _ file =>
    cases place
    exact file
  | here => cases place
  | absent => cases place

theorem Leads.bare (leads : Leads s here? parts (.absent k)) : s.isDirectory [k] = false := by
  generalize place : Place.absent k = p at leads
  induction leads with
  | idle _ _ ih => exact ih place
  | up _ _ ih => exact ih place
  | into _ _ _ _ ih => exact ih place
  | absent _ _ bare =>
    cases place
    rwa [isDirectory_key (by simp)]
  | here => cases place
  | file => cases place

/-- A walk passes no key at which something is put, unless it ends there. -/
theorem Leads.put (leads : Leads s here? parts place) (free : s.Free k)
    (ends : place = .file k₀ ∨ place = .absent k ∧ k₀ = k) (t : Text) :
    Leads (s.put k t) here? parts (.file k₀) := by
  induction leads with
  | here => simp at ends
  | idle idle _ ih => exact .idle idle (ih ends)
  | up back _ ih => exact .up back (ih ends)
  | @file names part named file =>
    simp only [Place.file.injEq, reduceCtorEq, false_and, or_false] at ends
    rw [← ends]
    refine .file named ?_
    rw [contains_put, file, Bool.or_true]
  | @into names part r place named missing directory _ ih =>
    refine .into named ?_ (isDirectory_put directory k t) (ih ends)
    have other : k ≠ key (names ++ [part]) := by
      rintro rfl
      rcases free with file | bare
      · rw [missing] at file
        cases file
      · rw [isDirectory_key (by simp), directory] at bare
        cases bare
    rw [contains_put, missing, decide_eq_false other, Bool.or_false]
  | @absent names part named missing bare =>
    simp only [reduceCtorEq, Place.absent.injEq, false_or] at ends
    rw [ends.2, ← ends.1]
    refine .file named ?_
    rw [contains_put, decide_eq_true rfl, Bool.true_or]

theorem Named.append (named : Named part) {u : Text} (ne : u ≠ []) :
    isIdle (part ++ u) = false ∧ part ++ u ≠ ['.', '.'] := by
  have moves := named.moves
  simp only [isIdle, Bool.or_eq_false_iff, decide_eq_false_iff_not] at moves ⊢
  obtain ⟨c, r, rfl⟩ := List.exists_cons_of_ne_nil moves.1
  obtain ⟨d, q, rfl⟩ := List.exists_cons_of_ne_nil ne
  cases r with
  | nil => simpa using fun dot : c = '.' => absurd (congrArg (· :: []) dot) moves.2
  | cons e r => simp

theorem key_append (names : List Text) (part u : Text) :
    key (names ++ [part ++ u]) = key (names ++ [part]) ++ u := by
  by_cases first : names = []
  · rw [first]
    rfl
  · rw [key, key, Text.joinWith_concat first, Text.joinWith_concat first, List.append_assoc,
      List.append_assoc]

/-- A longer last name is that of another file, or of nothing, or of a directory. -/
theorem Leads.append {front : List Text} {last u : Text} (ne : u ≠ [])
    (leads : Leads s here? (front ++ [last]) (.file k))
    (walked : s.walk here? (front ++ [last ++ u]) = .ok place) :
    place = .file (k ++ u) ∨ place = .absent (k ++ u) ∨ place = .directory := by
  induction front generalizing here? with
  | nil =>
    cases leads with
    | idle _ rest => cases rest
    | up _ rest => nomatch rest.walk
    | into _ _ _ rest => cases rest
    | file named =>
      cases leads_of_walk walked with
      | idle idle =>
        rw [(named.append ne).1] at idle
        cases idle
      | up back => exact absurd back (named.append ne).2
      | file => exact .inl (congrArg Place.file (key_append ..))
      | absent => exact .inr (.inl (congrArg Place.absent (key_append ..)))
      | into _ _ _ rest =>
        cases rest
        exact .inr (.inr rfl)
  | cons part front ih =>
    rw [List.cons_append] at walked leads
    generalize tail : front ++ [last] = r at leads
    cases leads with
    | idle idle rest =>
      rw [walk_idle idle] at walked
      exact ih (tail ▸ rest) walked
    | up back rest =>
      rw [back, walk_up] at walked
      exact ih (tail ▸ rest) walked
    | into named missing directory rest =>
      rw [walk_named named, missing, if_neg Bool.false_ne_true, if_pos directory] at walked
      exact ih (tail ▸ rest) walked
    | file => simp at tail

/-- Where the walk of a path begins, and its parts. -/
def start (root path : Text) : Option (List Text) × List Text :=
  match List.isPrefixOf? (root ++ ['/']) path with
  | some inside => (some [], Text.pieces '/' inside)
  | none => (if path.head? = some '/' then none else some [], Text.pieces '/' path)

/-- A path that can be looked up. -/
structure Locatable (path : Text) : Prop where
  ne : path ≠ []
  plain : path.any (· == '\x00') = false
  short : Text.size path ≤ maxPath

theorem locate_eq (locatable : Locatable path) :
    s.locate path = s.walk (start s.root path).1 (start s.root path).2 := by
  obtain ⟨ne, plain, short⟩ := locatable
  obtain ⟨c, r, rfl⟩ := List.exists_cons_of_ne_nil ne
  rw [locate.eq_def, plain, if_neg Bool.false_ne_true, if_neg (Nat.not_lt.mpr short), start]
  cases List.isPrefixOf? (s.root ++ ['/']) (c :: r) with
  | some inside => simp
  | none =>
    by_cases slash : c = '/'
    · simp only [slash, List.head?_cons, if_true, Text.pieces]
      exact (walk_idle rfl).symm
    · simp [slash]

theorem locatable_of_ok (located : s.locate path = .ok place) : Locatable path := by
  rw [locate.eq_def] at located
  split at located
  · cases located
  next plain =>
    split at located
    · cases located
    next short =>
      refine ⟨?_, Bool.eq_false_iff.mpr plain, Nat.le_of_not_lt short⟩
      rintro rfl
      cases located

theorem leads_of_locate (located : s.locate path = .ok place) :
    Leads s (start s.root path).1 (start s.root path).2 place :=
  leads_of_walk ((locate_eq (locatable_of_ok located)).symm.trans located)

/-- What leaves the current directory in front of a path is part of the path as it was. -/
theorem isPrefixOf?_append (root path : Text) {u : Text} (free : '/' ∉ u) :
    List.isPrefixOf? (root ++ ['/']) (path ++ u) =
      (List.isPrefixOf? (root ++ ['/']) path).map (· ++ u) := by
  cases inside? : List.isPrefixOf? (root ++ ['/']) path with
  | some inside =>
    rw [List.isPrefixOf?_eq_some_iff_append_eq] at inside?
    rw [Option.map_some, List.isPrefixOf?_eq_some_iff_append_eq, ← inside?,
      List.append_assoc _ inside]
  | none =>
    rw [Option.map_none, Option.eq_none_iff_forall_ne_some]
    intro inside longer
    rw [List.isPrefixOf?_eq_some_iff_append_eq] at longer
    rcases List.append_eq_append_iff.mp longer with ⟨rest, whole, -⟩ | ⟨rest, whole, tail⟩
    · have found : List.isPrefixOf? (root ++ ['/']) path = some rest :=
        List.isPrefixOf?_eq_some_iff_append_eq.mpr whole.symm
      rw [inside?] at found
      cases found
    · rcases List.eq_nil_or_concat rest with rfl | ⟨front, last, rfl⟩
      · rw [List.append_nil] at whole
        have found : List.isPrefixOf? (root ++ ['/']) path = some [] :=
          List.isPrefixOf?_eq_some_iff_append_eq.mpr ((List.append_nil _).trans whole)
        rw [inside?] at found
        cases found
      · rw [List.concat_eq_append, ← List.append_assoc] at whole
        obtain rfl : '/' = last := List.singleton_inj.mp (List.append_inj_right' whole rfl)
        exact free (by simp [tail])

theorem start_append (root : Text) {u : Text} (ne : path ≠ []) (free : '/' ∉ u) :
    ∃ front last, (start root path).2 = front ++ [last] ∧
      start root (path ++ u) = ((start root path).1, front ++ [last ++ u]) := by
  rw [start, start, isPrefixOf?_append root path free]
  cases List.isPrefixOf? (root ++ ['/']) path with
  | some inside =>
    obtain ⟨front, last, whole, longer⟩ := Text.pieces_append inside free
    exact ⟨front, last, whole, Prod.ext rfl longer⟩
  | none =>
    obtain ⟨front, last, whole, longer⟩ := Text.pieces_append path free
    refine ⟨front, last, whole, Prod.ext ?_ longer⟩
    simp only [Option.map_none, List.head?_append_of_ne_nil path ne]

/-- A path that leads to a file, made longer, leads to the file of the longer name or to none. -/
theorem locate_append {u : Text} (ne : u ≠ []) (free : '/' ∉ u)
    (located : s.locate path = .ok (.file k)) (longer : s.locate (path ++ u) = .ok place) :
    place = .file (k ++ u) ∨ place = .absent (k ++ u) ∨ place = .directory := by
  obtain ⟨front, last, whole, more⟩ := start_append s.root (locatable_of_ok located).ne free
  have leads := leads_of_locate located
  have walked := (leads_of_locate longer).walk
  rw [whole] at leads
  rw [more] at walked
  exact leads.append ne walked

theorem locate_put (located : s.locate path = .ok place) (free : s.Free k)
    (ends : place = .file k₀ ∨ place = .absent k ∧ k₀ = k) (t : Text) :
    (s.put k t).locate path = .ok (.file k₀) := by
  rw [locate_eq (locatable_of_ok located)]
  exact ((leads_of_locate located).put free ends t).walk

/-- A path leads to a file with a text. -/
structure Holds (s : FileStore) (path key text : Text) : Prop where
  located : s.locate path = .ok (.file key)
  stored : s.files.get? key = some text

theorem Holds.read (holds : s.Holds path k t) : s.read path = .ok t := by
  rw [FileStore.read, holds.located]
  simp only [holds.stored, Option.getD_some]

theorem holds_of_read (read : s.read path = .ok t) : ∃ k, s.Holds path k t := by
  unfold FileStore.read at read
  split at read
  next k located =>
    have stored := (leads_of_locate located).contains
    rw [Dictionary.contains, Option.isSome_iff_exists] at stored
    obtain ⟨text, stored⟩ := stored
    rw [stored, Option.getD_some, Except.ok.injEq] at read
    exact ⟨k, located, stored.trans (congrArg some read)⟩
  all_goals cases read

/-- What is put elsewhere leaves a file as it is. -/
theorem Holds.put {text : Text} (holds : s.Holds path k₀ text) (free : s.Free k) (other : k ≠ k₀)
    (t : Text) : (s.put k t).Holds path k₀ text :=
  ⟨locate_put holds.located free (.inl rfl) t, by rw [get?_put, if_neg other, holds.stored]⟩

/-- A path at whose end something can be put under a key. -/
def Ends (s : FileStore) (path key : Text) : Prop :=
  s.locate path = .ok (.file key) ∨ s.locate path = .ok (.absent key)

theorem Ends.free (ends : s.Ends path k) : s.Free k :=
  ends.imp (fun located => (leads_of_locate located).contains)
    fun located => (leads_of_locate located).bare

theorem Ends.holds (ends : s.Ends path k) (t : Text) : (s.put k t).Holds path k t := by
  have stored : (s.put k t).files.get? k = some t := by rw [get?_put, if_pos rfl]
  rcases ends with located | located
  · exact ⟨locate_put located (Ends.free (.inl located)) (.inl rfl) t, stored⟩
  · exact ⟨locate_put located (Ends.free (.inr located)) (.inr ⟨rfl, rfl⟩) t, stored⟩

theorem write_ok {next : FileStore} (written : s.write path t = .ok next) :
    ∃ k, s.Ends path k ∧ next = s.put k t := by
  unfold FileStore.write at written
  split at written
  next k located =>
    cases written
    exact ⟨k, .inl located, rfl⟩
  next k located =>
    cases written
    exact ⟨k, .inr located, rfl⟩
  all_goals cases written

/-- What is added to the path of a file is put at the key of the longer name. -/
theorem Ends.append {u : Text} (ends : s.Ends (path ++ u) k) (ne : u ≠ []) (free : '/' ∉ u)
    (located : s.locate path = .ok (.file k₀)) : k = k₀ ++ u := by
  rcases ends with longer | longer
  · simpa using locate_append ne free located longer
  · simpa using locate_append ne free located longer

/-- Nothing but what stands at a key is changed. -/
def Keeps (s next : FileStore) (k : Text) : Prop :=
  ∀ {path other text : Text}, other ≠ k → s.Holds path other text → next.Holds path other text

theorem keeps_put (free : s.Free k) (t : Text) : s.Keeps (s.put k t) k :=
  fun other holds => holds.put free other.symm t

theorem write_holds {next : FileStore} {old : Text} (written : s.write path t = .ok next)
    (holds : s.Holds path k old) : next.Holds path k t ∧ s.Keeps next k := by
  obtain ⟨end_, ends, rfl⟩ := write_ok written
  obtain rfl : k = end_ := by
    rcases ends with located | located
    · cases holds.located.symm.trans located
      rfl
    · cases holds.located.symm.trans located
  exact ⟨ends.holds t, keeps_put ends.free t⟩

theorem copy_ok {target : Text} {next : FileStore} (copied : s.copy path target = .ok next) :
    ∃ text, s.read path = .ok text ∧ s.write target text = .ok next := by
  unfold copy at copied
  cases read : s.read path with
  | error fault =>
    rw [read] at copied
    cases copied
  | ok text =>
    rw [read] at copied
    exact ⟨text, rfl, copied⟩

/-- What is written under a longer name stands next to the file. -/
theorem write_beside {u text : Text} {next : FileStore} (ne : u ≠ []) (free : '/' ∉ u)
    (written : s.write (path ++ u) t = .ok next) (holds : s.Holds path k text) :
    next.Holds (path ++ u) (k ++ u) t ∧ s.Keeps next (k ++ u) := by
  obtain ⟨end_, ends, rfl⟩ := write_ok written
  obtain rfl := ends.append ne free holds.located
  exact ⟨ends.holds t, keeps_put ends.free t⟩

/-- A copy writes the text that the file holds. -/
theorem Holds.write_of_copy {target text : Text} {next : FileStore} (holds : s.Holds path k text)
    (copied : s.copy path target = .ok next) : s.write target text = .ok next := by
  obtain ⟨copy, read, written⟩ := copy_ok copied
  obtain rfl : text = copy := Except.ok.inj (holds.read.symm.trans read)
  exact written

/-- The file of a database is made where there is no file. -/
theorem createDatabase_eq (s : FileStore) (path : Text) :
    s.createDatabase path = s ∨
      ∃ k, s.createDatabase path = s.put k [] ∧ s.Free k ∧ s.files.get? k = none := by
  unfold createDatabase
  split
  next names inside absent =>
    rw [databaseFile, inside] at absent
    simp only at absent
    split at absent
    · split at absent <;> cases absent
    next missing =>
      split at absent
      · cases absent
      next bare =>
        have ne : names ≠ [] := by
          rintro rfl
          exact bare rfl
        exact .inr ⟨key names, rfl, .inr (by simpa [isDirectory_key ne] using bare), missing⟩
  next => exact .inl rfl

theorem Holds.createDatabase (holds : s.Holds path k t) (database : Text) :
    (s.createDatabase database).Holds path k t := by
  rcases createDatabase_eq s database with same | ⟨made, new, free, missing⟩
  · rwa [same]
  · rw [new]
    refine holds.put free ?_ []
    rintro rfl
    rw [holds.stored] at missing
    cases missing

/-- Opening databases leaves the files that there are. -/
theorem Holds.endSession (holds : s.Holds path k t) (left : MemoryEngine) :
    (s.endSession left).Holds path k t := by
  unfold FileStore.endSession
  induction left.opened generalizing s with
  | nil => exact holds
  | cons database opened ih => exact ih (holds.createDatabase database)

end FileStore
end QueryWeaver
