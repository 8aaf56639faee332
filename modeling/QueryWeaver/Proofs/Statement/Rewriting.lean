import QueryWeaver.Proofs.Statement.Closed
import QueryWeaver.Statement.Placeholder
/-!
What replacing the placeholders of a statement leaves as it was. Placeholders that stand outside
quotes and comments take no quoted text with them, and each of them leaves one positional marker.
-/

namespace QueryWeaver

namespace WordMode

def run (mode : WordMode) (t : Text) : WordMode := t.foldl step mode

/-- The mark that begins quoted text or a comment and ends in `c`. -/
def opening (mode : WordMode) (c : Char) : Text :=
  if mode = dash ∧ c = '-' then ['-', '-']
  else if mode = slash ∧ c = '*' then ['/', '*']
  else [c]

/-- The string literals, quoted names and comments of a text read on from a mode, each with its
marks. Within one of them the first part is what is left of it. -/
def quotedParts (mode : WordMode) : Text → List Text
  | [] => if mode.isOpen then [] else [[]]
  | c :: r =>
    let next := mode.step c
    let parts := quotedParts next r
    match mode.isOpen, next.isOpen with
    | true, true => parts
    | true, false => parts.modifyHead (mode.opening c ++ ·)
    | false, true => [c] :: parts
    | false, false => parts.modifyHead (c :: ·)

/-- Number of question marks outside quotes and comments. -/
def markers (mode : WordMode) : Text → Nat
  | [] => 0
  | c :: r => (if mode.isOpen ∧ c = '?' then 1 else 0) + markers (mode.step c) r

@[simp] theorem run_nil (mode : WordMode) : mode.run [] = mode := rfl

@[simp] theorem run_cons (mode : WordMode) (c : Char) (t : Text) :
    mode.run (c :: t) = (mode.step c).run t := rfl

theorem run_append (mode : WordMode) (a b : Text) : mode.run (a ++ b) = (mode.run a).run b :=
  List.foldl_append

/-- A text that stands outside quotes and comments and begins none. -/
def Outside (mode : WordMode) (t : Text) : Prop := ∀ p, p <+: t → (mode.run p).isOpen = true

theorem outside_cons {mode : WordMode} {c : Char} {t : Text} :
    Outside mode (c :: t) ↔ mode.isOpen = true ∧ Outside (mode.step c) t := by
  constructor
  · intro outside
    exact ⟨outside [] List.nil_prefix,
      fun p inside => outside (c :: p) (List.cons_prefix_cons.mpr ⟨rfl, inside⟩)⟩
  · rintro ⟨isOpen, outside⟩ p inside
    cases p with
    | nil => exact isOpen
    | cons d p =>
      obtain ⟨rfl, further⟩ := List.cons_prefix_cons.mp inside
      exact outside p further

theorem Outside.isOpen {mode : WordMode} {t : Text} (outside : Outside mode t) :
    (mode.run t).isOpen = true := outside t List.prefix_rfl

instance decidableOutside (mode : WordMode) (t : Text) : Decidable (Outside mode t) :=
  match t with
  | [] => decidable_of_iff (mode.isOpen = true)
      ⟨fun isOpen p inside => by rwa [List.prefix_nil.mp inside], Outside.isOpen⟩
  | c :: r =>
    haveI := decidableOutside (mode.step c) r
    decidable_of_iff (mode.isOpen = true ∧ Outside (mode.step c) r) outside_cons.symm

/-- A character that neither goes on with a word or a comment nor begins anything. -/
theorem step_plain {mode : WordMode} {c : Char} (isOpen : mode.isOpen = true)
    (alone : fresh c = plain ∧ isTail c = false ∧ c ≠ '-' ∧ c ≠ '*') : mode.step c = plain := by
  obtain ⟨fresh, tail, dash, star⟩ := alone
  rw [step_fresh (fits_of_head isOpen dash star []) tail, fresh]

section

variable {mode : WordMode} {t : Text}

/-- Text outside quotes and comments adds no part to them. -/
theorem quotedParts_outside (outside : Outside mode t) (r : Text) :
    quotedParts mode (t ++ r) = quotedParts (mode.run t) r := by
  induction t generalizing mode with
  | nil => rfl
  | cons c t ih =>
    obtain ⟨isOpen, further⟩ := outside_cons.mp outside
    have next : (mode.step c).isOpen = true := further [] List.nil_prefix
    rw [List.cons_append, quotedParts, isOpen, next, run_cons]
    exact ih further

theorem markers_outside (outside : Outside mode t) (r : Text) :
    markers mode (t ++ r) = t.count '?' + markers (mode.run t) r := by
  induction t generalizing mode with
  | nil => simp
  | cons c t ih =>
    obtain ⟨isOpen, further⟩ := outside_cons.mp outside
    rw [List.cons_append, markers, ih further, run_cons, List.count_cons]
    simp only [isOpen, true_and, beq_iff_eq]
    omega

end

end WordMode

namespace Placeholder

/-- A placeholder with its name and its type, or a character that belongs to none. -/
inductive Piece where
  | char (c : Char)
  | param (name type : Text)
  deriving DecidableEq, Repr

namespace Piece

def written : Piece → Text
  | char c => [c]
  | param name type => ':' :: (name ++ '(' :: (type ++ [')']))

/-- The character that stands for a piece in the rewritten statement. -/
def mark : Piece → Char
  | char c => c
  | param _ _ => '?'

def field? : Piece → Option Field
  | char _ => none
  | param name type => some ⟨Text.trim type, name⟩

/-- The text of a placeholder, and nothing of other pieces. -/
def replaced : Piece → Text
  | char _ => []
  | param name type => (param name type).written

end Piece

/-- A text cut into its placeholders, from left to right, and the characters between them. -/
def pieces (t : Text) : List Piece :=
  match t with
  | [] => []
  | c :: r =>
    match _h : first? (c :: r) with
    | some (param, rest) =>
      .param param.name ((r.drop (param.name.length + 1)).takeWhile (· != ')')) :: pieces rest
    | none => .char c :: pieces r
termination_by t.length
decreasing_by
  · exact first?_length _h
  · simp

/-- A placeholder that is read has its parts in the text, and neither of them is empty. -/
theorem after?_written {t rest : Text} {param : Field} (read : after? t = some (param, rest)) :
    ∃ type, t = param.name ++ '(' :: (type ++ ')' :: rest) ∧ (∀ c ∈ type, (c != ')') = true) ∧
      param.type = Text.trim type ∧ param.name ≠ [] ∧ (∀ c ∈ param.name, isNameChar c = true) ∧
      type ≠ [] := by
  simp only [after?] at read
  split at read
  next r opening =>
    split at read
    next rest' closing =>
      split at read
      next => cases read
      next filled =>
        simp only [Bool.or_eq_true, List.isEmpty_iff, not_or] at filled
        cases read
        have whole := List.takeWhile_append_dropWhile (p := isNameChar) (l := t)
        have inner := List.takeWhile_append_dropWhile (p := (· != ')')) (l := r)
        rw [opening] at whole
        rw [closing] at inner
        refine ⟨r.takeWhile (· != ')'), ?_, fun c => List.mem_takeWhile_imp, rfl, filled.1,
          fun c => List.mem_takeWhile_imp, filled.2⟩
        rw [inner, whole]
    next => cases read
  next => cases read

theorem pieces_param {c : Char} {r rest : Text} {param : Field}
    (read : first? (c :: r) = some (param, rest)) : ∃ type,
      c :: r = (Piece.param param.name type).written ++ rest ∧ param.type = Text.trim type ∧
      pieces (c :: r) = .param param.name type :: pieces rest := by
  have cut : pieces (c :: r) =
      .param param.name ((r.drop (param.name.length + 1)).takeWhile (· != ')')) :: pieces rest := by
    rw [pieces]
    split
    next read' =>
      rw [read] at read'
      cases read'
      rfl
    next read' =>
      rw [read] at read'
      cases read'
  unfold first? at read
  split at read
  next r' same =>
    cases same
    obtain ⟨type, rfl, inside, trimmed, -⟩ := after?_written read
    refine ⟨type, by simp [Piece.written], trimmed, ?_⟩
    have behind : (param.name ++ '(' :: (type ++ ')' :: rest)).drop (param.name.length + 1) =
        type ++ ')' :: rest := by
      rw [List.drop_append]
      simp
    rw [cut, behind, List.takeWhile_append_of_pos inside]
    simp
  next => cases read

theorem pieces_char {c : Char} {r : Text} (none : first? (c :: r) = none) :
    pieces (c :: r) = .char c :: pieces r := by
  rw [pieces]
  split
  next read =>
    rw [none] at read
    cases read
  next => rfl

/-- The pieces of a text are all of it, and only placeholders are replaced. -/
theorem replaceAll_pieces (sql : Text) : (pieces sql).flatMap Piece.written = sql ∧
    (replaceAll sql).sql = (pieces sql).map Piece.mark ∧
    (replaceAll sql).params = (pieces sql).filterMap Piece.field? := by
  fun_induction replaceAll sql with
  | case1 => simp [pieces]
  | case2 c r param rest read q ih =>
    obtain ⟨written, marked, fields⟩ := ih
    obtain ⟨type, whole, trimmed, cut⟩ := pieces_param read
    rw [cut, whole]
    refine ⟨by rw [List.flatMap_cons, written], by rw [List.map_cons, ← marked]; rfl, ?_⟩
    rw [List.filterMap_cons_some (b := param) (by rw [Piece.field?, ← trimmed]), ← fields]
  | case3 c r none q ih =>
    obtain ⟨written, marked, fields⟩ := ih
    rw [pieces_char none]
    refine ⟨by rw [List.flatMap_cons, written]; rfl, by rw [List.map_cons, ← marked]; rfl, ?_⟩
    rw [List.filterMap_cons_none rfl, ← fields]

/-- A property of each placeholder and of the mode that it is read in. -/
def Each (P : WordMode → Text → Prop) : WordMode → List Piece → Prop
  | _, [] => True
  | mode, .char c :: r => Each P (mode.step c) r
  | mode, .param name type :: r =>
    P mode (Piece.param name type).written ∧ Each P (mode.run (Piece.param name type).written) r

instance decidableEach (P : WordMode → Text → Prop) [∀ mode t, Decidable (P mode t)]
    (mode : WordMode) (ps : List Piece) : Decidable (Each P mode ps) :=
  match ps with
  | [] => .isTrue trivial
  | .char c :: r => decidableEach P (mode.step c) r
  | .param name type :: r =>
    haveI := decidableEach P (mode.run (Piece.param name type).written) r
    inferInstanceAs (Decidable (P mode (Piece.param name type).written ∧ _))

/-- The placeholders of a statement stand outside quotes and comments and begin none. -/
def AllOutside (sql : Text) : Prop := Each WordMode.Outside .plain (pieces sql)

instance (sql : Text) : Decidable (AllOutside sql) :=
  decidableEach WordMode.Outside .plain (pieces sql)

/-- A placeholder outside quotes and comments is to the scan what its question mark is. -/
theorem run_written {mode : WordMode} {name type : Text}
    (outside : mode.Outside (Piece.param name type).written) :
    mode.run (Piece.param name type).written = mode.step '?' := by
  have mark : mode.step '?' = .plain :=
    WordMode.step_plain (WordMode.outside_cons.mp outside).1 (by decide)
  have ends : (Piece.param name type).written = ':' :: (name ++ '(' :: type) ++ [')'] := by
    simp [Piece.written]
  rw [mark, ends, WordMode.run_append]
  refine WordMode.step_plain (outside _ ?_) (by decide)
  rw [ends]
  exact List.prefix_append _ _

section

variable {mode : WordMode} {ps : List Piece}

theorem quotedParts_mark (outside : Each WordMode.Outside mode ps) :
    mode.quotedParts (ps.map Piece.mark) = mode.quotedParts (ps.flatMap Piece.written) := by
  induction ps generalizing mode with
  | nil => rfl
  | cons p ps ih =>
    cases p with
    | char c =>
      have rest := ih outside
      rw [List.map_cons, List.flatMap_cons, Piece.mark, Piece.written, List.singleton_append,
        WordMode.quotedParts, WordMode.quotedParts, rest]
    | param name type =>
      obtain ⟨here, further⟩ := outside
      have isOpen := (WordMode.outside_cons.mp here).1
      have marker : mode.Outside ['?'] := by
        refine WordMode.outside_cons.mpr ⟨isOpen, ?_⟩
        rw [WordMode.step_plain isOpen (by decide)]
        decide
      rw [List.flatMap_cons, WordMode.quotedParts_outside here, ← ih further, run_written here]
      exact WordMode.quotedParts_outside marker _

theorem markers_mark (outside : Each WordMode.Outside mode ps) :
    mode.markers (ps.map Piece.mark) + (ps.flatMap Piece.replaced).count '?' =
      mode.markers (ps.flatMap Piece.written) + (ps.filterMap Piece.field?).length := by
  induction ps generalizing mode with
  | nil => rfl
  | cons p ps ih =>
    cases p with
    | char c =>
      have rest := ih outside
      rw [List.map_cons, List.flatMap_cons, List.flatMap_cons, Piece.mark, Piece.written,
        Piece.replaced, List.nil_append, List.singleton_append, WordMode.markers,
        WordMode.markers, List.filterMap_cons_none rfl]
      omega
    | param name type =>
      obtain ⟨here, further⟩ := outside
      have rest := ih further
      rw [run_written here] at rest
      rw [List.flatMap_cons, List.flatMap_cons, List.count_append, WordMode.markers_outside here,
        run_written here, List.map_cons, Piece.mark, WordMode.markers, Piece.replaced]
      simp only [(WordMode.outside_cons.mp here).1, and_self, if_true, List.filterMap_cons,
        Piece.field?, List.length_cons]
      omega

end

/-- Only placeholders are replaced. When they all stand outside quotes and comments, the quoted
text of a statement comes out as it was, and each parameter has a marker there. -/
theorem replaceAll_quoted {sql : Text} (outside : AllOutside sql) :
    (pieces sql).flatMap Piece.written = sql ∧
    (replaceAll sql).sql = (pieces sql).map Piece.mark ∧
    WordMode.plain.quotedParts (replaceAll sql).sql = WordMode.plain.quotedParts sql ∧
    WordMode.plain.markers (replaceAll sql).sql + ((pieces sql).flatMap Piece.replaced).count '?' =
      WordMode.plain.markers sql + (replaceAll sql).params.length := by
  obtain ⟨written, marked, fields⟩ := replaceAll_pieces sql
  have parts := quotedParts_mark outside
  have count := markers_mark outside
  rw [written] at parts count
  rw [marked, fields]
  exact ⟨written, rfl, parts, count⟩

/-- Quoted text and a comment with colons, parentheses and question marks of their own. -/
def sampleSql : Text :=
  "SELECT '12:30 (pm)', [?] FROM t -- 9:15, (why?)\nWHERE n=:n(int64) AND m=? AND k=:k(a?)"

theorem sample_quoted : AllOutside sampleSql ∧
    WordMode.plain.quotedParts (replaceAll sampleSql).sql =
      WordMode.plain.quotedParts sampleSql ∧
    WordMode.plain.markers (replaceAll sampleSql).sql + 1 =
      WordMode.plain.markers sampleSql + 2 := by
  have outside : AllOutside sampleSql := by decide +kernel
  obtain ⟨-, -, parts, count⟩ := replaceAll_quoted outside
  have inner : ((pieces sampleSql).flatMap Piece.replaced).count '?' = 1 := by decide +kernel
  have params : (replaceAll sampleSql).params.length = 2 := by decide +kernel
  rw [inner, params] at count
  exact ⟨outside, parts, count⟩

/-- A colon in a string literal is read as a placeholder: the literal is altered, and the parameter
has no marker. -/
theorem literal_rewritten :
    let sql : Text := "SELECT id FROM log WHERE note = 'see:page(3)' AND id = :id(int64)"
    WordMode.plain.quotedParts sql = (["'see:page(3)'"] : List Text) ∧
    WordMode.plain.quotedParts (replaceAll sql).sql = (["'see?'"] : List Text) ∧
    WordMode.plain.markers sql = 0 ∧ WordMode.plain.markers (replaceAll sql).sql = 1 ∧
    (replaceAll sql).params = [⟨"3", "page"⟩, ⟨"int64", "id"⟩] := by
  decide +kernel

end Placeholder
end QueryWeaver
