import QueryWeaver.Proofs.Generation.Calls
import QueryWeaver.Proofs.Generation.Idempotence
import QueryWeaver.Proofs.Statement.Rewriting
/-!
What a probe makes a database execute. The prefix of a probe covers its first statement, so a probe
is inert as long as its text is one statement, and that is up to the annotation.
-/

namespace QueryWeaver

namespace WordMode

/-- Whether a character is a blank, a semicolon, or part of a comment. Outside comments a dash or
a slash may begin one; the next character tells. -/
def isIdle : WordMode → Char → Bool
  | dash, c => c == '-'
  | slash, c => c == '*'
  | through close, _ => close == '\n'
  | block _, _ => true
  | _, c => isSpacing c || c == ';' || c == '-' || c == '/'

/-- Whether a text, read on from a mode, holds nothing but blanks, semicolons and comments. -/
def idle (mode : WordMode) : Text → Bool
  | [] => mode != dash && mode != slash
  | c :: r => mode.isIdle c && idle (mode.step c) r

theorem idle_append {mode : WordMode} {a b : Text} (idle : mode.idle (a ++ b) = true) :
    (mode.run a).idle b = true := by
  induction a generalizing mode with
  | nil => exact idle
  | cons c a ih =>
    rw [List.cons_append, WordMode.idle, Bool.and_eq_true] at idle
    exact ih idle.2

/-- A text that goes on after a placeholder leaves the scan as one that goes on after `?`. -/
def Steady (mode : WordMode) (t : Text) : Prop := mode.run t = mode.step '?'

instance (mode : WordMode) (t : Text) : Decidable (Steady mode t) :=
  inferInstanceAs (Decidable (mode.run t = mode.step '?'))

end WordMode

/-- No semicolon outside quotes and comments is followed by further statement text. -/
def SingleStatement (sql : Text) : Prop :=
  ∀ u v, sql = u ++ ';' :: v → (WordMode.plain.run u).isOpen = true → WordMode.plain.idle v = true

/-- The semicolons of a text, checked one by one. -/
theorem singleStatement_iff {sql : Text} : SingleStatement sql ↔
    ∀ n < sql.length, sql[n]? = some ';' → (WordMode.plain.run (sql.take n)).isOpen = true →
      WordMode.plain.idle (sql.drop (n + 1)) = true := by
  constructor
  · intro single n bound semicolon
    refine single _ _ ?_
    obtain ⟨_, here⟩ := List.getElem?_eq_some_iff.mp semicolon
    rw [← here, List.getElem_cons_drop, List.take_append_drop]
  · rintro each u v rfl isOpen
    have here := each u.length (by simp) (by simp)
    rw [List.take_left, ← List.drop_drop, List.drop_left] at here
    exact here isOpen

instance (sql : Text) : Decidable (SingleStatement sql) :=
  decidable_of_iff _ singleStatement_iff.symm

namespace Placeholder

/-- No placeholder of a statement begins or ends quoted text or a comment. -/
def AllSteady (sql : Text) : Prop := Each WordMode.Steady .plain (pieces sql)

instance (sql : Text) : Decidable (AllSteady sql) :=
  decidableEach WordMode.Steady .plain (pieces sql)

section

variable {mode : WordMode} {ps qs : List Piece}

theorem Each.steady (outside : Each WordMode.Outside mode ps) : Each WordMode.Steady mode ps := by
  induction ps generalizing mode with
  | nil => trivial
  | cons p ps ih =>
    cases p with
    | char c => exact ih outside
    | param name type => exact ⟨run_written outside.1, ih outside.2⟩

theorem each_append {P : WordMode → Text → Prop} : Each P mode (ps ++ qs) ↔
    Each P mode ps ∧ Each P (mode.run (ps.flatMap Piece.written)) qs := by
  induction ps generalizing mode with
  | nil => simp [Each]
  | cons p ps ih =>
    rw [List.cons_append, List.flatMap_cons, WordMode.run_append]
    cases p with
    | char c => exact ih
    | param name type => rw [Each, Each, ih, and_assoc]

theorem run_mark (steady : Each WordMode.Steady mode ps) :
    mode.run (ps.flatMap Piece.written) = mode.run (ps.map Piece.mark) := by
  induction ps generalizing mode with
  | nil => rfl
  | cons p ps ih =>
    rw [List.flatMap_cons, List.map_cons, WordMode.run_append, WordMode.run_cons]
    cases p with
    | char c => exact ih steady
    | param name type =>
      obtain ⟨here, further⟩ := steady
      rw [ih further, here]
      rfl

/-- Idle text has placeholders in comments only, and there a marker is idle too. -/
theorem idle_mark (steady : Each WordMode.Steady mode ps)
    (idle : mode.idle (ps.flatMap Piece.written) = true) :
    mode.idle (ps.map Piece.mark) = true := by
  induction ps generalizing mode with
  | nil => exact idle
  | cons p ps ih =>
    cases p with
    | char c =>
      rw [List.flatMap_cons, Piece.written, List.singleton_append, WordMode.idle,
        Bool.and_eq_true] at idle
      rw [List.map_cons, Piece.mark, WordMode.idle, idle.1, ih steady idle.2]
      rfl
    | param name type =>
      obtain ⟨here, further⟩ := steady
      rw [List.flatMap_cons] at idle
      have rest := ih further (WordMode.idle_append idle)
      rw [here] at rest
      rw [Piece.written, List.cons_append, WordMode.idle, Bool.and_eq_true] at idle
      rw [List.map_cons, Piece.mark, WordMode.idle, rest, Bool.and_true]
      cases mode with
      | through close => exact idle.1
      | block star => rfl
      | dash | slash | plain | word | number => exact absurd idle.1 (by decide)

/-- Outside comments no marker is idle, so idle text with markers has no placeholders. -/
theorem idle_written (outside : Each WordMode.Outside mode ps)
    (idle : mode.idle (ps.map Piece.mark) = true) :
    mode.idle (ps.flatMap Piece.written) = true := by
  induction ps generalizing mode with
  | nil => exact idle
  | cons p ps ih =>
    rw [List.map_cons, WordMode.idle, Bool.and_eq_true] at idle
    cases p with
    | char c =>
      rw [List.flatMap_cons, Piece.written, List.singleton_append, WordMode.idle,
        ih outside idle.2, Bool.and_true]
      exact idle.1
    | param name type =>
      have isOpen := (WordMode.outside_cons.mp outside.1).1
      have marker : mode.isIdle '?' = true := idle.1
      cases mode with
      | through _ | block _ => cases isOpen
      | dash | slash | plain | word | number => exact absurd marker (by decide)

/-- A character that is in no placeholder stands for itself among the pieces. -/
theorem split_pieces {c : Char} {u v : Text} (whole : ps.flatMap Piece.written = u ++ c :: v)
    (other : c ∉ ps.flatMap Piece.replaced) : ∃ before after, ps = before ++ .char c :: after ∧
      before.flatMap Piece.written = u ∧ after.flatMap Piece.written = v := by
  induction ps generalizing u with
  | nil => simp at whole
  | cons p ps ih =>
    rw [List.flatMap_cons, List.mem_append, not_or] at other
    rw [List.flatMap_cons] at whole
    have later {u' : Text} (rest : ps.flatMap Piece.written = u' ++ c :: v)
        (first : p.written ++ u' = u) : ∃ before after, p :: ps = before ++ .char c :: after ∧
          before.flatMap Piece.written = u ∧ after.flatMap Piece.written = v := by
      obtain ⟨before, after, rfl, rfl, rfl⟩ := ih rest other.2
      exact ⟨p :: before, after, rfl, first, rfl⟩
    rcases List.append_eq_append_iff.mp whole with ⟨u', same, rest⟩ | ⟨w, same, rest⟩
    · exact later rest same.symm
    · cases w with
      | nil => exact @later [] rest.symm (by simpa using same)
      | cons d w =>
        obtain ⟨rfl, rfl⟩ := List.cons.inj rest
        cases p with
        | param name type =>
          exact absurd (show c ∈ (Piece.param name type).written by simp [same]) other.1
        | char d =>
          obtain ⟨rfl, rfl, rfl⟩ : u = [] ∧ d = c ∧ w = [] := by
            cases u with
            | nil => simpa [Piece.written, eq_comm] using same
            | cons x u => simp [Piece.written] at same
          exact ⟨[], ps, rfl, rfl, rfl⟩

end

variable {sql : Text}

/-- Rewriting makes no further statement of a single one. -/
theorem single_replaceAll (steady : AllSteady sql) (single : SingleStatement sql) :
    SingleStatement (replaceAll sql).sql := by
  obtain ⟨written, marked, -⟩ := replaceAll_pieces sql
  intro u v whole isOpen
  rw [marked] at whole
  obtain ⟨before, rest, cut, rfl, behind⟩ := List.map_eq_append_iff.mp whole
  obtain ⟨p, after, rfl, mark, rfl⟩ := List.map_eq_cons_iff.mp behind
  obtain rfl : p = .char ';' := by
    cases p with
    | char c => exact congrArg Piece.char mark
    | param name type => cases mark
  rw [AllSteady, cut, each_append] at steady
  obtain ⟨first, last⟩ := steady
  rw [← run_mark first] at isOpen
  rw [← written, cut, List.flatMap_append, List.flatMap_cons] at single
  have idle := single _ _ rfl isOpen
  rw [Each, WordMode.step_plain isOpen (by decide)] at last
  exact idle_mark last idle

theorem single_of_replaceAll (outside : AllOutside sql)
    (bare : ';' ∉ (pieces sql).flatMap Piece.replaced)
    (single : SingleStatement (replaceAll sql).sql) : SingleStatement sql := by
  obtain ⟨written, marked, -⟩ := replaceAll_pieces sql
  intro u v whole isOpen
  rw [← written] at whole
  obtain ⟨before, after, cut, rfl, rfl⟩ := split_pieces whole bare
  rw [AllOutside, cut, each_append] at outside
  obtain ⟨first, last⟩ := outside
  rw [marked, cut, List.map_append, List.map_cons] at single
  have idle := single _ _ rfl (by rwa [← run_mark first.steady])
  rw [Each, WordMode.step_plain isOpen (by decide)] at last
  exact idle_written last idle

end Placeholder

namespace Generation

open Placeholder

/-- Each read of a run probes the rewritten statement of a checked block. When no placeholder of the
block begins or ends quoted text or a comment, the probe is one statement if the annotation is. It
is so only then when the placeholders stand outside quotes and comments and hold no semicolon. -/
theorem run_probes {σ : Type} (db : Database σ) (types : Collaborators) (source header : Text)
    (s : σ) : ∀ text, Call.read text ∈ (run db.logged types source header (s, [])).2.2 →
      ∃ block sql, block ∈ blocksFor .access (Segment.ofSource source) ∧
        Dictionary.get? block.annotations "sql" = some sql ∧
        text = ("EXPLAIN " : Text) ++ (replaceAll sql).sql ∧
        (AllSteady sql → SingleStatement sql → SingleStatement (replaceAll sql).sql) ∧
        (AllOutside sql → ';' ∉ (pieces sql).flatMap Piece.replaced →
          SingleStatement (replaceAll sql).sql → SingleStatement sql) := by
  intro text member
  rw [run_logged] at member
  rcases List.mem_append.mp member with setup | probed
  · obtain ⟨block, -, call⟩ := List.mem_filterMap.mp setup
    obtain ⟨sql, other, -⟩ := setupCall?_eq_some.mp call
    cases other
  · obtain ⟨block, asked, call⟩ := List.mem_filterMap.mp probed
    obtain ⟨plan, planned, read⟩ := probeCall?_eq_some.mp call
    obtain ⟨-, -, -, ⟨sql, given, query⟩, -⟩ := Plan.ofBlock_parts planned
    refine ⟨block, sql, asked, Plan.nonempty?_get given, ?_, single_replaceAll,
      single_of_replaceAll⟩
    rw [probe, query] at read
    exact Call.read.inj read

/-- A statement whose semicolons stand in quotes, in a comment, or last. -/
def sampleStatement : Text := "DELETE FROM t WHERE a=';b' AND n=:n(int); -- ;c;"

theorem sample_probe :
    let source : Text := ("// @-SQLGenAccess @func void f @sql " : Text) ++ sampleStatement
    let calls := (run silentDatabase.logged .standard source [] ((), [])).2.2
    let text : Text := "DELETE FROM t WHERE a=';b' AND n=?; -- ;c;"
    AllSteady sampleStatement ∧ SingleStatement sampleStatement ∧
      .read (("EXPLAIN " : Text) ++ text) ∈ calls ∧ SingleStatement text := by
  intro source calls text
  have steady : AllSteady sampleStatement := by decide +kernel
  have single : SingleStatement sampleStatement := by decide +kernel
  have member : .read (("EXPLAIN " : Text) ++ text) ∈ calls := by decide +kernel
  have stated : ∀ block ∈ blocksFor .access (Segment.ofSource source),
      Dictionary.get? block.annotations "sql" = some sampleStatement := by decide +kernel
  obtain ⟨block, sql, asked, given, rewritten, kept, -⟩ :=
    run_probes silentDatabase .standard source [] () _ member
  obtain rfl : sampleStatement = sql := Option.some.inj ((stated block asked).symm.trans given)
  refine ⟨steady, single, member, ?_⟩
  rw [List.append_cancel_left rewritten]
  exact kept steady single

/-- The prefix of a probe covers its first statement only: the second one is executed. -/
theorem second_statement_probed :
    (run silentDatabase.logged .standard
      "// @-SQLGenAccess @func void f @sql DELETE FROM t; DROP TABLE t" [] ((), [])).2.2 =
        [.read "EXPLAIN DELETE FROM t; DROP TABLE t"] ∧
    ¬SingleStatement "DELETE FROM t; DROP TABLE t" := by
  decide +kernel

end Generation
end QueryWeaver
