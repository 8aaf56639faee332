import QueryWeaver.Proofs.CommandLine.Effects
/-!
The user's files in a run of the command line. Whatever the database engine does elsewhere and
whatever steps fail, the source and the header are changed only after both have backups, each by one
write of the text that was generated for it.
-/

namespace QueryWeaver

namespace CommandLine

variable {σ : Type} {conditions : Conditions σ} {d : Draft} {o : Options}
  {files s next : FileStore} {ks kh t : Text}

/-- What a backup adds to the name of a file. -/
def mark (stamp : TimeStamp) : Text := backupPath [] stamp.text

theorem backupPath_eq (path : Text) (stamp : TimeStamp) :
    backupPath path stamp.text = path ++ mark stamp := by
  simp [mark, backupPath]

theorem mark_ne_nil (stamp : TimeStamp) : mark stamp ≠ [] := by
  simp [mark, backupPath]

theorem mark_length (stamp : TimeStamp) : (mark stamp).length = 29 := by
  simp [mark, backupPath, stamp.length_eq]

theorem slash_not_mem_mark (stamp : TimeStamp) : '/' ∉ mark stamp := by
  have plain : '/' ∉ stamp.text := fun member => by
    rcases stamp.plain '/' member with digit | dash
    · exact absurd digit (by decide)
    · exact absurd dash (by decide)
  simp [mark, backupPath, plain]

/-- Source and header are in place, with given texts. -/
structure Intact (o : Options) (ks kh source header : Text) (s : FileStore) : Prop where
  source : s.Holds o.source ks source
  header : s.Holds (headerPath o) kh header

/-- Source and header read the same before and after a change. -/
def Untouched (o : Options) (before after : FileStore) : Prop :=
  ∀ path ∈ [o.source, headerPath o], after.read path = before.read path

section

variable {source header : Text}

theorem Intact.untouched {before after : FileStore} (intact : Intact o ks kh source header before)
    (later : Intact o ks kh source header after) : Untouched o before after := by
  intro path member
  rcases List.mem_pair.mp member with rfl | rfl
  · rw [later.source.read, intact.source.read]
  · rw [later.header.read, intact.header.read]

end

namespace Draft

/-- The text of the one or the other file when it was read. -/
def old (d : Draft) (o : Options) (path : Text) : Text :=
  if path = o.source then d.source else d.header

/-- The text that was generated for the one or the other file. -/
def new (d : Draft) (o : Options) (path : Text) : Text :=
  if path = o.source then d.output.source else d.output.header

/-- A change to the text at a path where both backups hold what was read. It writes what was
generated, which is new, or it is a failure of this write, which may leave any text. -/
structure Secures (d : Draft) (conditions : Conditions σ) (o : Options) (before : FileStore)
    (change : Change) (after : FileStore) (path : Text) : Prop where
  wrote : change = .wrote path (d.new o path) ∧ after.read path = .ok (d.new o path) ∨
    ∃ text, conditions.Breaks text ∧ change = .broke path text ∧ after.read path = .ok text
  differs : d.new o path ≠ d.old o path
  before_read : before.read path = .ok (d.old o path)
  source_backup : before.read (d.sourceBackup o) = .ok d.source
  header_backup : before.read (d.headerBackup o) = .ok d.header

/-- A change that touches source and header only as a secured one. -/
def Guards (d : Draft) (conditions : Conditions σ) (o : Options) (before : FileStore)
    (change : Change) (after : FileStore) : Prop :=
  ∀ path ∈ [o.source, headerPath o], after.read path ≠ before.read path →
    d.Secures conditions o before change after path

/-- Both backups hold what was read. -/
structure Secured (d : Draft) (o : Options) (ks kh : Text) (s : FileStore) : Prop where
  source : s.Holds (d.sourceBackup o) (ks ++ mark d.sourceStamp) d.source
  header : s.Holds (d.headerBackup o) (kh ++ mark d.headerStamp) d.header

/-- The two files and their backups are four files. -/
structure Parted (d : Draft) (ks kh : Text) : Prop where
  ne : ks ≠ kh
  source : ks ≠ kh ++ mark d.headerStamp
  header : kh ≠ ks ++ mark d.sourceStamp

theorem Parted.backups (parted : d.Parted ks kh) :
    ks ++ mark d.sourceStamp ≠ kh ++ mark d.headerStamp := by
  intro same
  have lengths : (mark d.sourceStamp).length = (mark d.headerStamp).length := by
    rw [mark_length, mark_length]
  exact parted.ne (List.append_inj_left' same lengths)

theorem ne_append_mark (k : Text) (stamp : TimeStamp) : k ≠ k ++ mark stamp := fun same =>
  mark_ne_nil stamp (List.self_eq_append_right.mp same)

theorem Guards.of_untouched {before after : FileStore} {change : Change}
    (untouched : Untouched o before after) : d.Guards conditions o before change after :=
  fun path member touched => absurd (untouched path member) touched

/-- Both files hold what was read. -/
abbrev Kept (d : Draft) (o : Options) (ks kh : Text) : FileStore → Prop :=
  Intact o ks kh d.source d.header

/-- Whatever comes to stand where the backup of the source goes, both files are kept. -/
theorem source_backup_kept (intact : d.Kept o ks kh s) (parted : d.Parted ks kh)
    (written : s.write (d.sourceBackup o) t = .ok next) :
    d.Kept o ks kh next ∧ next.Holds (d.sourceBackup o) (ks ++ mark d.sourceStamp) t := by
  rw [sourceBackup, backupPath_eq] at written ⊢
  obtain ⟨backup, keeps⟩ := FileStore.write_beside (mark_ne_nil d.sourceStamp)
    (slash_not_mem_mark d.sourceStamp) written intact.source
  exact ⟨⟨keeps (ne_append_mark ks _) intact.source, keeps parted.header intact.header⟩, backup⟩

/-- The same of the header, and of the backup that the source has by then. -/
theorem header_backup_kept {old : Text} (intact : d.Kept o ks kh s) (parted : d.Parted ks kh)
    (source : s.Holds (d.sourceBackup o) (ks ++ mark d.sourceStamp) old)
    (written : s.write (d.headerBackup o) t = .ok next) :
    d.Kept o ks kh next ∧ next.Holds (d.sourceBackup o) (ks ++ mark d.sourceStamp) old ∧
      next.Holds (d.headerBackup o) (kh ++ mark d.headerStamp) t := by
  rw [headerBackup, backupPath_eq] at written ⊢
  obtain ⟨backup, keeps⟩ := FileStore.write_beside (mark_ne_nil d.headerStamp)
    (slash_not_mem_mark d.headerStamp) written intact.header
  exact ⟨⟨keeps parted.source intact.source, keeps (ne_append_mark kh _) intact.header⟩,
    keeps parted.backups source, backup⟩

theorem Secured.keeps (secured : d.Secured o ks kh s) {k : Text} (keeps : s.Keeps next k)
    (source : ks ++ mark d.sourceStamp ≠ k) (header : kh ++ mark d.headerStamp ≠ k) :
    d.Secured o ks kh next :=
  ⟨keeps source secured.source, keeps header secured.header⟩

/-- The state after the write of the source: it holds a text, and the header what was read. -/
structure Between (d : Draft) (o : Options) (ks kh now : Text) (s : FileStore) : Prop where
  source : s.Holds o.source ks now
  header : s.Holds (headerPath o) kh d.header
  secured : d.Secured o ks kh s

theorem source_write_between (intact : d.Kept o ks kh s) (secured : d.Secured o ks kh s)
    (parted : d.Parted ks kh) (written : s.write o.source t = .ok next) :
    d.Between o ks kh t next := by
  obtain ⟨source, keeps⟩ := FileStore.write_holds written intact.source
  have others := secured.keeps keeps (ne_append_mark ks _).symm parted.source.symm
  exact ⟨source, keeps parted.ne.symm intact.header, others⟩

/-- The write of a text to a file, or a failure of this write. -/
def Attempts (conditions : Conditions σ) (path new t : Text) (change : Change) : Prop :=
  change = .wrote path new ∧ t = new ∨ conditions.Breaks t ∧ change = .broke path t

theorem Attempts.wrote {path new : Text} {change : Change}
    (attempts : Attempts conditions path new t change) (read : next.read path = .ok t) :
    change = .wrote path new ∧ next.read path = .ok new ∨
      ∃ text, conditions.Breaks text ∧ change = .broke path text ∧ next.read path = .ok text := by
  rcases attempts with ⟨wrote, rfl⟩ | ⟨breaks, broke⟩
  · exact .inl ⟨wrote, read⟩
  · exact .inr ⟨t, breaks, broke, read⟩

theorem source_write_guarded (intact : d.Kept o ks kh s) (secured : d.Secured o ks kh s)
    (parted : d.Parted ks kh) (differs : d.source ≠ d.output.source) {change : Change}
    (attempts : Attempts conditions o.source d.output.source t change)
    (written : s.write o.source t = .ok next) : d.Guards conditions o s change next := by
  have between := source_write_between intact secured parted written
  have was : d.old o o.source = d.source := if_pos rfl
  have is : d.new o o.source = d.output.source := if_pos rfl
  intro path member touched
  rcases List.mem_pair.mp member with rfl | rfl
  · exact {
      wrote := by rw [is]; exact attempts.wrote between.source.read
      differs := by rw [is, was]; exact differs.symm
      before_read := by rw [was, intact.source.read]
      source_backup := secured.source.read
      header_backup := secured.header.read }
  · exact absurd (between.header.read.trans intact.header.read.symm) touched

theorem Between.paths_ne (between : d.Between o ks kh t s) (ne : ks ≠ kh) :
    headerPath o ≠ o.source := by
  intro same
  have located := between.header.located
  rw [same, between.source.located] at located
  cases located
  exact ne rfl

theorem Between.header_write_guarded {now : Text} (between : d.Between o ks kh now s)
    (parted : d.Parted ks kh) (differs : d.header ≠ d.output.header) {change : Change}
    (attempts : Attempts conditions (headerPath o) d.output.header t change)
    (written : s.write (headerPath o) t = .ok next) : d.Guards conditions o s change next := by
  obtain ⟨header, keeps⟩ := FileStore.write_holds written between.header
  have other := between.paths_ne parted.ne
  have was : d.old o (headerPath o) = d.header := if_neg other
  have is : d.new o (headerPath o) = d.output.header := if_neg other
  intro path member touched
  rcases List.mem_pair.mp member with rfl | rfl
  · have source := keeps parted.ne between.source
    exact absurd (source.read.trans between.source.read.symm) touched
  · exact {
      wrote := by rw [is]; exact attempts.wrote header.read
      differs := by rw [is, was]; exact differs.symm
      before_read := by rw [was, between.header.read]
      source_backup := between.secured.source.read
      header_backup := between.secured.header.read }

/-- A copy is safe if nothing that comes to stand at its target touches the two files. -/
theorem safe_copied {path target : Text}
    (untouched : ∀ t next, s.write target t = .ok next → Untouched o s next) :
    Conditions.Safe conditions (d.Guards conditions o) [.copied path target] s := by
  constructor
  · intro next copied
    obtain ⟨text, -, written⟩ := FileStore.copy_ok copied
    exact ⟨.of_untouched (untouched text next written), trivial⟩
  · intro text broken next _ half written
    cases half
    exact .of_untouched (untouched text next written)

theorem safe_changed {P : FileStore → Change → FileStore → Prop} {path old new : Text}
    (step : old ≠ new → ∀ t change next, Attempts conditions path new t change →
      s.write path t = .ok next → P s change next) :
    Conditions.Safe conditions P (changed path old new) s := by
  unfold changed
  split
  next differs =>
    constructor
    · exact fun next written => ⟨step differs new _ next (.inl ⟨rfl, rfl⟩) written, trivial⟩
    · intro text broken next breaks half written
      cases half
      exact step differs text _ next (.inr ⟨breaks, rfl⟩) written
  next => trivial

theorem replay_changed {path old new : Text}
    (replayed : Change.replay (changed path old new) s = .ok next) :
    old = new ∧ next = s ∨ s.write path new = .ok next := by
  unfold changed at replayed
  split at replayed
  next =>
    obtain ⟨last, written, rest⟩ := Change.replay_cons_ok.mp replayed
    cases rest
    exact .inr written
  next same =>
    cases replayed
    exact .inl ⟨not_not.mp same, rfl⟩

/-- The changes that save a run touch both files as secured ones, also if one of them fails. -/
theorem saving_safe (intact : d.Kept o ks kh s) (parted : d.Parted ks kh) :
    Conditions.Safe conditions (d.Guards conditions o) (d.saving o) s := by
  refine .append ?_ fun copied first => ?_
  · exact safe_copied fun t next written =>
      intact.untouched (source_backup_kept intact parted written).1
  obtain ⟨_, applied, ends⟩ := Change.replay_cons_ok.mp first
  cases ends
  obtain ⟨intact, backup⟩ :=
    source_backup_kept intact parted (intact.source.write_of_copy applied)
  refine .append ?_ fun safe second => ?_
  · exact safe_copied fun t next written =>
      intact.untouched (header_backup_kept intact parted backup written).1
  obtain ⟨_, applied, ends⟩ := Change.replay_cons_ok.mp second
  cases ends
  obtain ⟨intact, source, header⟩ :=
    header_backup_kept intact parted backup (intact.header.write_of_copy applied)
  have secured : d.Secured o ks kh safe := ⟨source, header⟩
  refine .append ?_ fun half third => ?_
  · exact safe_changed fun differs t change next attempts written =>
      source_write_guarded intact secured parted differs attempts written
  have between : ∃ now, d.Between o ks kh now half := by
    rcases replay_changed third with ⟨same, rfl⟩ | written
    · exact ⟨_, intact.source, intact.header, secured⟩
    · exact ⟨_, source_write_between intact secured parted written⟩
  obtain ⟨now, between⟩ := between
  exact safe_changed fun differs t change next attempts written =>
    between.header_write_guarded parted differs attempts written

end Draft

/-- The files as the session of a run leaves them that was prepared and read both texts. -/
def Leaves (conditions : Conditions σ) (o : Options) (files left : FileStore) : Prop :=
  ∃ settings attachments, Prepared conditions files o settings attachments ∧
    Ended conditions files settings o attachments left

/-- Source and header are different files, neither stands where a backup of the other goes, and the
session with the databases of the run leaves both as they are. -/
def Apart (conditions : Conditions σ) (o : Options) (files : FileStore) : Prop :=
  ∀ ks kh, files.locate o.source = .ok (.file ks) →
    files.locate (headerPath o) = .ok (.file kh) →
      ks ≠ kh ∧ (∀ n, kh ≠ backupPath ks (conditions.stamp n).text ∧
        ks ≠ backupPath kh (conditions.stamp n).text) ∧
      ∀ left, Leaves conditions o files left → ∀ source header,
        Intact o ks kh source header files → Intact o ks kh source header left

/-- A draft of a run from a store. -/
def Drafted (conditions : Conditions σ) (o : Options) (files : FileStore) (d : Draft) : Prop :=
  ∃ settings attachments, Prepared conditions files o settings attachments ∧
    d.Of conditions files settings o attachments

/-- A change that touches source and header only where both are saved. -/
def Allowed (conditions : Conditions σ) (o : Options) (files before : FileStore) (change : Change)
    (after : FileStore) : Prop :=
  ∀ path ∈ [o.source, headerPath o], after.read path ≠ before.read path →
    o.dryRun = false ∧
      ∃ d, Drafted conditions o files d ∧ d.Secures conditions o before change after path

theorem Apart.parted (apart : Apart conditions o files)
    (source : files.Holds o.source ks d.source) (header : files.Holds (headerPath o) kh d.header)
    (stamped : ∃ n, d.sourceStamp = conditions.stamp n)
    (stamped' : ∃ n, d.headerStamp = conditions.stamp n) : d.Parted ks kh := by
  obtain ⟨ne, free, -⟩ := apart ks kh source.located header.located
  obtain ⟨n, first⟩ := stamped
  obtain ⟨m, second⟩ := stamped'
  refine ⟨ne, ?_, ?_⟩
  · rw [second, ← backupPath_eq]
    exact (free m).2
  · rw [first, ← backupPath_eq]
    exact (free n).1

theorem Apart.kept {left : FileStore} {source header : Text} (apart : Apart conditions o files)
    (leaves : Leaves conditions o files left) (intact : Intact o ks kh source header files) :
    Intact o ks kh source header left :=
  (apart ks kh intact.source.located intact.header.located).2.2 left leaves source header intact

theorem Runs.allowed {changes : List Change} (runs : Runs conditions files o changes)
    (apart : Apart conditions o files) :
    Change.Each (Allowed conditions o files) changes files := by
  cases runs with
  | unprepared => trivial
  | prepared prepared effects =>
    cases effects with
    | unread => trivial
    | session ended =>
      obtain ⟨source, header, read, read', -⟩ := id ended
      obtain ⟨ks, source⟩ := FileStore.holds_of_read read
      obtain ⟨kh, header⟩ := FileStore.holds_of_read read'
      have intact : Intact o ks kh _ _ files := ⟨source, header⟩
      intro left applied
      cases applied
      have untouched := intact.untouched (apart.kept ⟨_, _, prepared, ended⟩ intact)
      exact ⟨fun path member touched => absurd (untouched path member) touched, trivial⟩
    | @saved left d saved ended draft wet part =>
      obtain ⟨ks, source⟩ := FileStore.holds_of_read draft.source_read
      obtain ⟨kh, header⟩ := FileStore.holds_of_read draft.header_read
      have intact : d.Kept o ks kh files := ⟨source, header⟩
      have parted := apart.parted source header draft.source_stamped draft.header_stamped
      intro left applied
      cases applied
      have kept := apart.kept ⟨_, _, prepared, ended⟩ intact
      have untouched := intact.untouched kept
      refine ⟨fun path member touched => absurd (untouched path member) touched, ?_⟩
      refine ((Draft.saving_safe kept parted).each part).mono fun before change after guards => ?_
      intro path member touched
      exact ⟨wet, d, ⟨_, _, prepared, draft⟩, guards path member touched⟩

/-- Without a write to the two files nothing that is allowed touches them. -/
theorem untouched_unwritten {done rest : List Change} {before : FileStore}
    (each : Change.Each (Allowed conditions o files) (done ++ rest) s)
    (reached : Change.replay done s = .ok before)
    (unwritten : ∀ path ∈ [o.source, headerPath o], ∀ text,
      .wrote path text ∉ done ∧ .broke path text ∉ done) : Untouched o s before := by
  induction done generalizing s with
  | nil =>
    cases reached
    exact fun _ _ => rfl
  | cons change done ih =>
    obtain ⟨next, applied, replayed⟩ := Change.replay_cons_ok.mp reached
    obtain ⟨allowed, behind⟩ := each next applied
    have later := ih behind replayed fun path member text =>
      ⟨fun known => (unwritten path member text).1 (List.mem_cons_of_mem change known),
        fun known => (unwritten path member text).2 (List.mem_cons_of_mem change known)⟩
    intro path member
    refine (later path member).trans (not_not.mp fun touched => ?_)
    obtain ⟨-, d, -, secures⟩ := allowed path member touched
    rcases secures.wrote with ⟨wrote, -⟩ | ⟨text, -, broke, -⟩
    · exact (unwritten path member _).1 (List.mem_cons.mpr (.inl wrote.symm))
    · exact (unwritten path member text).2 (List.mem_cons.mpr (.inl broke.symm))

theorem Runs.dry {changes : List Change} (runs : Runs conditions files o changes)
    (dry : o.dryRun = true) :
    ∀ change ∈ changes, ∃ left, change = .session left ∧ Leaves conditions o files left := by
  cases runs with
  | unprepared => exact nofun
  | prepared prepared effects =>
    cases effects with
    | unread => exact nofun
    | session ended =>
      intro change member
      exact ⟨_, List.mem_singleton.mp member, _, _, prepared, ended⟩
    | saved _ _ wet =>
      rw [dry] at wet
      cases wet

/-- Whatever the engine does and whatever steps fail, what a run does to the files is a sequence of
changes such that, after every beginning of it, source and header are changed next only if the run
is not dry, both backups hold what was read, and the change writes the text that was generated,
which is a new one, or is a failure of this write. Up to the first write both files stay as they
were, and a dry run does no more than the session with its databases. -/
theorem run_saves (conditions : Conditions σ) (o : Options) (files : FileStore)
    (apart : Apart conditions o files) :
    let recorded := ((run conditions.host o).run (.begin files)).2
    Change.replay recorded.changes files = .ok recorded.files ∧
      (∀ done change rest before after, recorded.changes = done ++ change :: rest →
        Change.replay done files = .ok before → change.apply before = .ok after →
          ∀ path ∈ [o.source, headerPath o], after.read path ≠ before.read path →
            o.dryRun = false ∧
              ∃ d, Drafted conditions o files d ∧ d.Secures conditions o before change after path) ∧
      (∀ done rest before, recorded.changes = done ++ rest →
        Change.replay done files = .ok before →
          (∀ path ∈ [o.source, headerPath o], ∀ text,
            .wrote path text ∉ done ∧ .broke path text ∉ done) →
          ∀ path ∈ [o.source, headerPath o], before.read path = files.read path) ∧
      (o.dryRun = true → ∀ change ∈ recorded.changes,
        ∃ left, change = .session left ∧ Leaves conditions o files left) := by
  obtain ⟨runs, replayed⟩ := run_changes conditions o files
  have allowed := runs.allowed apart
  intro recorded
  refine ⟨replayed, ?_, ?_, runs.dry⟩
  · intro done change rest before after whole reached applied
    rw [whole] at allowed
    exact allowed.step reached applied
  · intro done rest before whole reached unwritten
    rw [whole] at allowed
    exact untouched_unwritten allowed reached unwritten

end CommandLine

namespace Conditions

/-- The machine of a store of files, and one time. -/
def stored (fault? : Nat → Option Fault) (stamp : TimeStamp) : Conditions MemoryEngine where
  engine := MemoryEngine.engine
  beginSession := FileStore.beginSession
  endSession := FileStore.endSession
  fault? := fault?
  stamp := fun _ => stamp

/-- The same without failures. -/
def steady (stamp : TimeStamp) : Conditions MemoryEngine := stored (fun _ => none) stamp

end Conditions

namespace CommandLine

/-- A header with a declaration that no annotation asks for. -/
def staleHeader : Text :=
  "//@-SQLGenFunctionsBegin\nvoid old();\n//@-SQLGenFunctionsEnd\n" ++
    "//@-SQLGenVariablesBegin\n//@-SQLGenVariablesEnd\n"

def plainSource : Text := "int x;\n"

def newYear : TimeStamp := ⟨"20000101-000000", rfl, by simp⟩

/-- A store with the given files. -/
def storeOf (files : List (Text × Text)) : FileStore :=
  ⟨Dictionary.ofList files, "/work", none, newYear.text⟩

def staleFiles : FileStore := storeOf [("t.cpp", plainSource), ("t.h", staleHeader)]

/-- A run on the source `t.cpp` with the database `data`. -/
def plainOptions : Options :=
  { database := "data", source := "t.cpp", attach := [], header := none, config := none,
    dryRun := false, format := .text, strict := false, verbose := false }

def freshHeader : Text :=
  "//@-SQLGenFunctionsBegin\n    //@-SQLGenFunctionsEnd\n" ++
    "//@-SQLGenVariablesBegin\n    //@-SQLGenVariablesEnd\n"

theorem staleFiles_apart : Apart (Conditions.steady newYear) plainOptions staleFiles := by
  have source : staleFiles.locate plainOptions.source = .ok (.file "t.cpp") := by decide +kernel
  have header : staleFiles.locate (headerPath plainOptions) = .ok (.file "t.h") := by
    decide +kernel
  intro ks kh located located'
  cases source.symm.trans located
  cases header.symm.trans located'
  have free : ("t.h" : Text) ≠ backupPath "t.cpp" newYear.text := by decide +kernel
  have free' : ("t.cpp" : Text) ≠ backupPath "t.h" newYear.text := by decide +kernel
  refine ⟨by decide, fun _ => ⟨free, free'⟩, ?_⟩
  rintro left ⟨_, _, -, _, _, -, -, rfl⟩ _ _ intact
  exact ⟨intact.source.endSession _, intact.header.endSession _⟩

/-- A header with a stale declaration is written once both files are copied. -/
theorem stale_header_saved :
    let recorded := ((run (Conditions.steady newYear).host plainOptions).run (.begin staleFiles)).2
    let backups : List Change := [.session (staleFiles.createDatabase "data"),
      .copied "t.cpp" "t.cpp.20000101-000000.sqlgenbackup",
      .copied "t.h" "t.h.20000101-000000.sqlgenbackup"]
    recorded.changes = backups ++ [.wrote "t.h" freshHeader] ∧
      ∃ before, Change.replay backups staleFiles = .ok before ∧
        Change.apply (.wrote "t.h" freshHeader) before = .ok recorded.files ∧
        before.read "t.h" = .ok staleHeader ∧ recorded.files.read "t.h" = .ok freshHeader ∧
        ∃ d, Drafted (Conditions.steady newYear) plainOptions staleFiles d ∧
          d.Secures (Conditions.steady newYear) plainOptions before (.wrote "t.h" freshHeader)
            recorded.files "t.h" := by
  intro recorded backups
  have changes : recorded.changes = backups ++ [.wrote "t.h" freshHeader] := by decide +kernel
  obtain ⟨replayed, saves, -⟩ :=
    run_saves (Conditions.steady newYear) plainOptions staleFiles staleFiles_apart
  rw [changes] at replayed
  obtain ⟨before, reached, written⟩ := Change.replay_append_ok.mp replayed
  obtain ⟨after, applied, ends⟩ := Change.replay_cons_ok.mp written
  have same : after = recorded.files := Except.ok.inj ends
  rw [same] at applied
  have first : before.read "t.h" = .ok staleHeader := by
    have kept : (Change.replay backups staleFiles).bind (fun s => s.read "t.h") =
        .ok staleHeader := by decide +kernel
    rw [reached] at kept
    exact kept
  have last : recorded.files.read "t.h" = .ok freshHeader := by
    have fresh : (Change.replay (backups ++ [.wrote "t.h" freshHeader]) staleFiles).bind
        (fun s => s.read "t.h") = .ok freshHeader := by decide +kernel
    rw [replayed] at fresh
    exact fresh
  have touched : recorded.files.read "t.h" ≠ before.read "t.h" := by
    rw [first, last]
    decide +kernel
  have member : ("t.h" : Text) ∈ [plainOptions.source, headerPath plainOptions] := by
    decide +kernel
  exact ⟨changes, before, reached, applied, first, last,
    (saves backups _ [] before _ changes reached applied "t.h" member touched).2⟩

/-- The store after a run from it. -/
def filesAfter {σ : Type} (conditions : Conditions σ) (o : Options) (files : FileStore) :
    FileStore :=
  ((run conditions.host o).run (.begin files)).2.files

def dryOptions : Options := { plainOptions with dryRun := true }

/-- One file under two paths. -/
def twiceOptions : Options := { plainOptions with source := "t.h", header := some "./t.h" }

/-- A header that stands where the backup of the source goes. -/
def hiddenOptions : Options :=
  { plainOptions with header := some (backupPath "t.cpp" newYear.text) }

def hiddenFiles : FileStore :=
  storeOf [("t.cpp", plainSource), (headerPath hiddenOptions, staleHeader)]

/-- The disk is full when the header is written, which is emptied by then. -/
def fullDisk : Conditions MemoryEngine :=
  .stored (fun n => if n = 10 then some ⟨"No space left on device (os error 28)", some []⟩ else none)
    newYear

/-- How the file of a database with tables begins. -/
def databaseMark : Text := "SQLite format 3\x00"

/-- An engine that makes the table which the first statement asks for. -/
def makesTable : Conditions MemoryEngine :=
  { Conditions.steady newYear with
    beginSession := fun s database attached =>
      { s.beginSession database attached with outcomes := [.ok []] }
    endSession := fun s left =>
      if left.outcomes.isEmpty then
        left.opened.foldl (fun s path => (s.write path databaseMark).toOption.getD s) s
      else s.endSession left }

/-- An empty header that is the database of a dry run, and a source with a setup statement. -/
def headerDatabase : Options := { dryOptions with database := "t.h" }

def setupFiles : FileStore :=
  storeOf [("t.cpp", "// @-SQLGenTempSetup @sql CREATE TABLE users (id INTEGER)\n"), ("t.h", [])]

/-- A dry run makes the file of its database, and its setup statements change an empty header that is
its database. A source that is its own header under another path is written with the text of the
header, although its own did not change. A header that stands where the backup of the source goes is
lost. A write that fails leaves a text that was not generated. -/
theorem unguarded_files :
    (staleFiles.read "data" = .error .noEntry ∧
      (filesAfter (Conditions.steady newYear) dryOptions staleFiles).read "data" = .ok []) ∧
    (headerDatabase.source ≠ headerPath headerDatabase ∧ setupFiles.read "t.h" = .ok [] ∧
      (filesAfter makesTable headerDatabase setupFiles).read "t.h" = .ok databaseMark) ∧
    (twiceOptions.source ≠ headerPath twiceOptions ∧
      (generated (Conditions.steady newYear) staleFiles .standard twiceOptions [] staleHeader
        staleHeader).1.toOption.map Generation.Output.source = some staleHeader ∧
      (filesAfter (Conditions.steady newYear) twiceOptions staleFiles).read twiceOptions.source =
        .ok freshHeader) ∧
    (hiddenOptions.source ≠ headerPath hiddenOptions ∧
      hiddenFiles.read (headerPath hiddenOptions) = .ok staleHeader ∧
      staleHeader ∉ (filesAfter (Conditions.steady newYear) hiddenOptions hiddenFiles).files.values) ∧
    ((generated fullDisk staleFiles .standard plainOptions [] plainSource
        staleHeader).1.toOption.map Generation.Output.header = some freshHeader ∧
      (filesAfter fullDisk plainOptions staleFiles).read "t.h" = .ok []) := by
  decide +kernel

end CommandLine
end QueryWeaver
