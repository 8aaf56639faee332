import Mathlib
import QueryWeaver.Proofs.Source.Lexed
import QueryWeaver.Proofs.Text.Ranges
/-!
The tokens of a source found by a machine that reads one character at a time. It collects the text
of the token that is open, and cuts it where a comment opens and where a line comment ends. No cut
of it fails, and its tokens are those of the tokenizer.
-/

namespace QueryWeaver

namespace Token

/-- What the open token is. A slash of code is pending, and so is a star of a block comment. -/
inductive LexMode where
  | code
  | slash
  | block
  | star
  | line
  deriving DecidableEq, Repr

/-- The text of the open token, what it is, and the literals of the code in it. -/
structure LexState where
  current : Text
  mode : LexMode
  literals : LiteralState
  deriving DecidableEq, Repr

namespace LexState

def start : LexState := ⟨[], .code, .between⟩

/-- Cuts before the two characters that open a comment. -/
def cutOpener (current : Text) : Option (List Token × Text) := do
  let opener ← Text.minus? (Text.size current) 2
  let before ← (if 0 < opener then (Text.slice? current 0 opener).map ([code ·]) else some [])
  let rest ← Text.slice? current opener (Text.size current)
  return (before, rest)

/-- Cuts before the line feed, or before the carriage return in front of it. -/
def cutTerminator (current : Text) : Option (List Token × Text) := do
  let split ← Text.minus? (Text.size current) (if ['\r', '\n'].isSuffixOf current then 2 else 1)
  let body ← Text.slice? current 0 split
  let rest ← Text.slice? current split (Text.size current)
  return ([comment body], rest)

/-- The tokens that a character completes, and the state behind it; none where a cut fails. -/
def step (s : LexState) (c : Char) : Option (List Token × LexState) :=
  let current := s.current ++ [c]
  match s.mode with
  | .code =>
    some ([], ⟨current, if !s.literals.covers c && c == '/' then .slash else .code,
      s.literals.step c⟩)
  | .slash =>
    if c = '*' ∨ c = '/' then
      (cutOpener current).map fun (tokens, rest) =>
        (tokens, ⟨rest, if c = '*' then .block else .line, .between⟩)
    else some ([], ⟨current, .code, s.literals.step c⟩)
  | .block => some ([], ⟨current, if c = '*' then .star else .block, s.literals⟩)
  | .star =>
    if c = '/' then some ([comment current], ⟨[], .code, s.literals⟩)
    else some ([], ⟨current, if c = '*' then .star else .block, s.literals⟩)
  | .line =>
    if c = '\n' then
      (cutTerminator current).map fun (tokens, rest) => (tokens, ⟨rest, .code, s.literals⟩)
    else some ([], ⟨current, .line, s.literals⟩)

/-- The token that the end of the text completes. -/
def finish (s : LexState) : List Token :=
  if s.current.isEmpty then []
  else match s.mode with
    | .code => [code s.current]
    | .slash => [code s.current]
    | _ => [comment s.current]

def run (s : LexState) : Text → Option (List Token)
  | [] => some s.finish
  | c :: r => (s.step c).bind fun (tokens, next) => (run next r).map (tokens ++ ·)

end LexState

def sliced (source : Text) : Option (List Token) := LexState.start.run source

namespace LexState

theorem run_cons (next : LexState) {s : LexState} {c : Char} {tokens : List Token}
    (step : s.step c = some (tokens, next)) (r : Text) :
    s.run (c :: r) = (next.run r).map (tokens ++ ·) := by
  rw [run, step]
  rfl

theorem run_silent (next : LexState) {s : LexState} {c : Char}
    (step : s.step c = some ([], next)) (r : Text) : s.run (c :: r) = next.run r := by
  rw [run_cons next step]
  exact congrFun Option.map_id _

/-- The code token of a text, if there is any text. -/
def codeOf (t : Text) : List Token := if t.isEmpty then [] else [code t]

theorem cutOpener_append (t : Text) {c : Char} (mark : c = '*' ∨ c = '/') :
    cutOpener (t ++ ['/', c]) = some (codeOf t, ['/', c]) := by
  have two : Text.size ['/', c] = 2 := by rcases mark with rfl | rfl <;> rfl
  have opener : Text.minus? (Text.size (t ++ ['/', c])) 2 = some (Text.size t) := by
    rw [Text.size_append, two, Text.minus?_add]
  have before : (if 0 < Text.size t then
      (Text.slice? (t ++ ['/', c]) 0 (Text.size t)).map ([code ·]) else some []) =
        some (codeOf t) := by
    cases t with
    | nil => rfl
    | cons d t =>
      have positive : 0 < Text.size (d :: t) := by
        have one := d.utf8Size_pos
        rw [Text.size_cons]
        omega
      rw [if_pos positive, Text.slice?_front]
      rfl
  rw [cutOpener, opener, Option.bind_eq_bind, Option.bind_some, before, Option.bind_eq_bind,
    Option.bind_some, Text.slice?_behind]
  rfl

/-- Where a line comment ends that a line feed follows, or a carriage return and a line feed. -/
theorem cutTerminator_append {t terminator : Text}
    (ends : terminator = ['\r', '\n'] ∨ terminator = ['\n'] ∧ '\r' ∉ t.getLast?) :
    cutTerminator (t ++ terminator) = some ([comment t], terminator) := by
  have length : (if ['\r', '\n'].isSuffixOf (t ++ terminator) then 2 else 1) =
      Text.size terminator := by
    rcases ends with rfl | ⟨rfl, apart⟩
    · rw [if_pos (List.isSuffixOf_iff_suffix.mpr (List.suffix_append t _))]
      rfl
    · have no : ¬['\r', '\n'].isSuffixOf (t ++ ['\n']) = true := by
        intro longer
        obtain ⟨u, whole⟩ := List.isSuffixOf_iff_suffix.mp longer
        have same : u ++ ['\r'] = t := by
          have ends : (u ++ ['\r']) ++ ['\n'] = t ++ ['\n'] := by
            rw [← whole, List.append_assoc]
            rfl
          exact List.append_cancel_right ends
        rw [← same] at apart
        simp at apart
      rw [if_neg no]
      rfl
  rw [cutTerminator, length, Text.size_append, Text.minus?_add, Option.bind_eq_bind,
    Option.bind_some, Text.slice?_front, Option.bind_eq_bind, Option.bind_some, ← Text.size_append,
    Text.slice?_behind]
  rfl

/-- A slash is pending that nothing completes: the code goes on. -/
theorem run_slash {current t : Text} {literals : LiteralState}
    (other : ∀ c ∈ t.head?, c ≠ '*' ∧ c ≠ '/') :
    run ⟨current, .slash, literals⟩ t = run ⟨current, .code, literals⟩ t := by
  cases t with
  | nil => rfl
  | cons c r =>
    obtain ⟨star, slash⟩ := other c rfl
    simp [run, step, star, slash]

/-- A star is pending that no slash completes: the comment goes on. -/
theorem run_star {current t : Text} {literals : LiteralState} (other : '/' ∉ t.head?) :
    run ⟨current, .star, literals⟩ t = run ⟨current, .block, literals⟩ t := by
  cases t with
  | nil => rfl
  | cons c r =>
    have apart : c ≠ '/' := by
      rintro rfl
      exact other rfl
    simp [run, step, apart]

/-- A block comment is read to its end, and the code behind it afresh. -/
theorem run_block {current : Text} (ne : current ≠ []) (t : Text) :
    run ⟨current, .block, .between⟩ t =
      (start.run (spanBlock t).2).map (comment (current ++ (spanBlock t).1) :: ·) := by
  fun_induction spanBlock t generalizing current with
  | case1 => simp [run, finish, ne, start]
  | case2 r =>
    rw [run_silent ⟨current ++ ['*'], .star, .between⟩ rfl,
      run_cons start rfl]
    simp
  | case3 c r apart body rest span ih =>
    have further : run ⟨current ++ [c], .block, .between⟩ r =
        (start.run rest).map (comment (current ++ c :: body) :: ·) := by
      rw [ih (by simp), span, List.append_assoc]
      rfl
    by_cases star : c = '*'
    · have other : '/' ∉ r.head? := by
        intro next
        obtain ⟨r', rfl⟩ := List.head?_eq_some_iff.mp next
        exact apart r' star rfl
      rw [run_silent ⟨current ++ [c], .star, .between⟩ (by simp [step, star]),
        run_star other, further]
    · rw [run_silent ⟨current ++ [c], .block, .between⟩ (by simp [step, star]), further]

/-- A line comment is read to its terminator, and the code that begins there afresh. -/
theorem run_line {current t : Text} (ne : current ≠ [])
    (apart : '\r' ∈ current.getLast? → '\n' ∉ t.head?) :
    run ⟨current, .line, .between⟩ t =
      (start.run (spanLine t).2).map (comment (current ++ (spanLine t).1) :: ·) := by
  fun_induction spanLine t generalizing current with
  | case1 => simp [run, finish, ne, start]
  | case2 r =>
    have step : step ⟨current, .line, .between⟩ '\n' =
        some ([comment current], ⟨['\n'], .code, .between⟩) := by
      have ends : cutTerminator (current ++ ['\n']) = some ([comment current], ['\n']) :=
        cutTerminator_append (.inr ⟨rfl, fun last => apart last rfl⟩)
      simp [LexState.step, ends]
    rw [run_cons _ step, run_silent (s := start) ⟨['\n'], .code, .between⟩ rfl]
    simp
  | case3 r =>
    have step : step ⟨current ++ ['\r'], .line, .between⟩ '\n' =
        some ([comment current], ⟨['\r', '\n'], .code, .between⟩) := by
      have ends := cutTerminator_append (t := current) (.inl rfl)
      simp [LexState.step, ends]
    rw [run_silent ⟨current ++ ['\r'], .line, .between⟩ rfl, run_cons _ step,
      run_silent (s := start) ⟨['\r'], .code, .between⟩ rfl,
      run_silent ⟨['\r', '\n'], .code, .between⟩ rfl]
    simp
  | case4 c r other pair body rest span ih =>
    have feed : c ≠ '\n' := by
      rintro rfl
      exact other rfl
    have next : '\r' ∈ (current ++ [c]).getLast? → '\n' ∉ r.head? := by
      intro last first
      rw [List.getLast?_concat] at last
      obtain rfl := Option.some.inj last
      obtain ⟨r', rfl⟩ := List.head?_eq_some_iff.mp first
      exact pair r' rfl rfl
    rw [run_silent ⟨current ++ [c], .line, .between⟩ (by simp [step, feed]),
      ih (by simp) next, span, List.append_assoc]
    rfl

/-- A comment opener ends the code before it. -/
theorem run_opener {current r : Text} {literals : LiteralState} {c : Char}
    (live : literals.covers '/' = false) (mark : c = '*' ∨ c = '/') :
    run ⟨current, .code, literals⟩ ('/' :: c :: r) =
      (run ⟨['/', c], if c = '*' then .block else .line, .between⟩ r).map (codeOf current ++ ·) := by
  have opened : step ⟨current ++ ['/'], .slash, literals.step '/'⟩ c =
      some (codeOf current, ⟨['/', c], if c = '*' then .block else .line, .between⟩) := by
    have cut := cutOpener_append current mark
    simp [step, mark, cut]
  rw [run_silent ⟨current ++ ['/'], .slash, literals.step '/'⟩ (by simp [step, live]),
    run_cons _ opened]

theorem opensComment_mark (t : Text) :
    opensComment t = true ↔ ∃ c r, t = '/' :: c :: r ∧ (c = '*' ∨ c = '/') := by
  constructor
  · intro opens
    unfold opensComment at opens
    split at opens
    next r => exact ⟨'/', r, rfl, .inr rfl⟩
    next r => exact ⟨'*', r, rfl, .inl rfl⟩
    next => cases opens
  · rintro ⟨c, r, rfl, rfl | rfl⟩ <;> rfl

/-- Code is read to the first comment, and the comment afresh. -/
theorem run_code (current : Text) (literals : LiteralState) (t : Text) :
    run ⟨current, .code, literals⟩ t =
      (start.run (spanCode literals t).2).map
        (codeOf (current ++ (spanCode literals t).1) ++ ·) := by
  induction t generalizing current literals with
  | nil => simp [run, finish, spanCode, codeOf, start]
  | cons c r ih =>
    have further : run ⟨current ++ [c], .code, literals.step c⟩ r =
        (start.run (spanCode (literals.step c) r).2).map
          (codeOf (current ++ c :: (spanCode (literals.step c) r).1) ++ ·) := by
      rw [ih, List.append_assoc]
      rfl
    by_cases opens : (!literals.covers c && opensComment (c :: r)) = true
    · rw [spanCode, if_pos opens]
      obtain ⟨live, opened⟩ := Bool.and_eq_true_iff.mp opens
      obtain ⟨d, r', text, mark⟩ := (opensComment_mark _).mp opened
      obtain ⟨rfl, rfl⟩ := List.cons.inj text
      have fresh : run ⟨[], .code, .between⟩ ('/' :: d :: r') =
          (run ⟨['/', d], if d = '*' then .block else .line, .between⟩ r').map (codeOf [] ++ ·) :=
        run_opener rfl mark
      rw [run_opener (by simpa using live) mark, start, fresh]
      simp [codeOf]
    · rw [spanCode, if_neg opens]
      by_cases slash : (!literals.covers c && c == '/') = true
      · have other : ∀ d ∈ r.head?, d ≠ '*' ∧ d ≠ '/' := by
          intro d next
          obtain ⟨live, same⟩ := Bool.and_eq_true_iff.mp slash
          obtain rfl := beq_iff_eq.mp same
          obtain ⟨r', rfl⟩ := List.head?_eq_some_iff.mp next
          apply not_or.mp
          intro mark
          exact opens (by rw [live, (opensComment_mark _).mpr ⟨d, r', rfl, mark⟩]; rfl)
        rw [run_silent ⟨current ++ [c], .slash, literals.step c⟩ (by simp [step, slash]),
          run_slash other, further]
      · rw [run_silent ⟨current ++ [c], .code, literals.step c⟩ (by simp [step, slash]),
          further]

end LexState

/-- The machine makes the cuts of the tokenizer. -/
theorem sliced_eq (source : Text) : sliced source = some (tokenize source) := by
  rw [sliced]
  fun_induction tokenize source with
  | case1 => rfl
  | case2 c r body rest opened ih =>
    unfold comment? at opened
    split at opened
    next r' text =>
      obtain ⟨rfl, rfl⟩ := opened
      rw [text, LexState.start, LexState.run_opener (by rfl) (.inl rfl), if_pos rfl,
        LexState.run_block (by simp), ih]
      rfl
    next r' text =>
      obtain ⟨rfl, rfl⟩ := opened
      rw [text, LexState.start, LexState.run_opener (by rfl) (.inr rfl), if_neg (by decide),
        LexState.run_line (by simp) (by simp), ih]
      rfl
    next => cases opened
  | case3 c r plain ih =>
    have closed : opensComment (c :: r) = false := by
      rw [opensComment_iff, plain]
      rfl
    have some : LexState.codeOf ([] ++ (spanCode .between (c :: r)).1) =
        [code (spanCode .between (c :: r)).1] := by
      simp [LexState.codeOf, spanCode, closed]
    rw [LexState.start, LexState.run_code, ih, some]
    rfl

end Token
end QueryWeaver
