import Mathlib
import QueryWeaver.Proofs.Source.Balanced
import QueryWeaver.Proofs.Text.Parts
/-!
The grammar of the tokens of a text. A comment says by itself and by the token behind it where it
ends, and code says where no comment begins in it. The scan of a text gives the one list of tokens
that follows the grammar and joins to the text.
-/

namespace QueryWeaver

namespace Token

/-- No comment opener of the text has its slash outside literals. -/
def Unopened (t : Text) : Prop :=
  ∀ a b, t = a ++ b → opensComment b = true → (LiteralState.between.run a).isLive = false

/-- The text ends outside literals, and not in a slash that stands there. -/
def Stops (t : Text) : Prop :=
  (LiteralState.between.run t).isLive = true ∧
    ∀ a, t = a ++ ['/'] → (LiteralState.between.run a).isLive = false

/-- The text begins with the terminator of the line before it, of which nothing is left there. -/
def EndsLine (line t : Text) : Prop :=
  ['\r', '\n'] <+: t ∨ ['\n'] <+: t ∧ line.getLast? ≠ some '\r'

def closing : Text := ['*', '/']

inductive Grammar : List Token → Prop
  | nil : Grammar []
  /-- Code stands before a comment or at the end. -/
  | code {t : Text} {r : List Token} (ne : t ≠ []) (unopened : Unopened t)
      (before : ∀ next ∈ r.head?, ∃ u, next = comment u ∧ Stops t) (rest : Grammar r) :
      Grammar (code t :: r)
  /-- A line comment stands before the code that begins with its terminator, or at the end. -/
  | line {b : Text} {r : List Token} (within : '\n' ∉ b)
      (before : ∀ next ∈ r.head?, ∃ u, next = Token.code u ∧ EndsLine ('/' :: '/' :: b) u)
      (rest : Grammar r) : Grammar (comment ('/' :: '/' :: b) :: r)
  /-- A block comment ends with its first closing mark. -/
  | block {a b : Text} {r : List Token} (closed : Text.cut closing b = some (a, []))
      (rest : Grammar r) : Grammar (comment ('/' :: '*' :: b) :: r)
  | unclosed {b : Text} (none : Text.cut closing b = none) : Grammar [comment ('/' :: '*' :: b)]

theorem covers_slash (s : LiteralState) : s.covers '/' = !s.isLive := by
  cases s <;> rfl

theorem opensComment_head {t : Text} (opens : opensComment t = true) : ∃ r, t = '/' :: r := by
  unfold opensComment at opens
  split at opens
  · exact ⟨_, rfl⟩
  · exact ⟨_, rfl⟩
  · cases opens

theorem spanCode_cons (s : LiteralState) (c : Char) (t x : Text) :
    spanCode s (c :: t ++ x) = (c :: t, x) ↔
      (opensComment (c :: t ++ x) = true → s.isLive = false) ∧
        spanCode (s.step c) (t ++ x) = (t, x) := by
  rw [List.cons_append, spanCode]
  by_cases opens : opensComment (c :: (t ++ x)) = true
  · obtain ⟨r, head⟩ := opensComment_head opens
    have slash : c = '/' := (List.cons.inj head).1
    subst slash
    cases live : s.isLive with
    | true => simp [opens, covers_slash, live]
    | false => simp [opens, covers_slash, live, Prod.ext_iff]
  · simp [opens, Prod.ext_iff]

/-- Code ends where the text does or where a comment opens outside literals, and not before. -/
theorem spanCode_iff (s : LiteralState) (t x : Text) :
    spanCode s (t ++ x) = (t, x) ↔
      (∀ a c b, t = a ++ c :: b → opensComment (c :: b ++ x) = true → (s.run a).isLive = false) ∧
        (x = [] ∨ opensComment x = true ∧ (s.run t).isLive = true) := by
  induction t generalizing s with
  | nil =>
    cases x with
    | nil => simp [spanCode]
    | cons c r =>
      rw [List.nil_append, spanCode]
      by_cases opens : opensComment (c :: r) = true
      · obtain ⟨r', head⟩ := opensComment_head opens
        have slash : c = '/' := (List.cons.inj head).1
        subst slash
        cases live : s.isLive with
        | true => simp [opens, covers_slash, live, LiteralState.run]
        | false => simp [opens, covers_slash, live, LiteralState.run]
      · simp [opens]
  | cons c t ih =>
    rw [spanCode_cons, ih, ← and_assoc]
    apply and_congr
    · constructor
      · intro both a d b whole opens
        obtain ⟨here, later⟩ := both
        cases a with
        | nil =>
          obtain ⟨rfl, rfl⟩ := List.cons.inj whole
          exact here opens
        | cons e a =>
          obtain ⟨rfl, rest⟩ := List.cons.inj whole
          exact later a d b rest opens
      · intro each
        constructor
        · exact each [] c t rfl
        · intro a d b whole
          exact each (c :: a) d b (congrArg (c :: ·) whole)
    · rfl

/-- A line terminator is a line feed, or a carriage return and a line feed. -/
theorem breaksLine_iff (c : Char) (t : Text) :
    breaksLine (c :: t) = true ↔ c = '\n' ∨ c = '\r' ∧ ['\n'] <+: t := by
  unfold breaksLine
  split
  next r same =>
    obtain ⟨rfl, -⟩ := List.cons.inj same
    simp
  next r same =>
    obtain ⟨rfl, rfl⟩ := List.cons.inj same
    simp
  next feed returns =>
    have other : c ≠ '\n' := by
      intro same
      exact feed t (congrArg (· :: t) same)
    have apart : ¬(c = '\r' ∧ ['\n'] <+: t) := by
      intro both
      obtain ⟨same, r, rest⟩ := both
      exact returns r (by rw [same, ← rest]; rfl)
    simp [other, apart]

theorem spanLine_step (c : Char) (b x : Text) :
    spanLine (c :: b ++ x) = (c :: b, x) ↔
      ¬(c = '\n' ∨ c = '\r' ∧ ['\n'] <+: b ++ x) ∧ spanLine (b ++ x) = (b, x) := by
  rw [← breaksLine_iff, List.cons_append]
  by_cases breaks : breaksLine (c :: (b ++ x)) = true
  · simp [breaks, spanLine_breaks breaks]
  · simp [breaks, spanLine_cons (by simpa using breaks), Prod.ext_iff]

theorem endsLine_nil (x : Text) : EndsLine [] x ↔ breaksLine x = true := by
  cases x with
  | nil => simp [EndsLine, breaksLine]
  | cons c r =>
    rw [breaksLine_iff]
    simp only [EndsLine, List.cons_prefix_cons, List.nil_prefix, List.getLast?_nil]
    grind

/-- A line ends where the text does or before its terminator. -/
theorem spanLine_iff (b x : Text) :
    spanLine (b ++ x) = (b, x) ↔ '\n' ∉ b ∧ (x = [] ∨ EndsLine b x) := by
  induction b with
  | nil =>
    rw [List.nil_append, endsLine_nil]
    cases x with
    | nil => simp [spanLine]
    | cons c r =>
      by_cases breaks : breaksLine (c :: r) = true
      · simp [spanLine_breaks breaks, breaks]
      · simp [spanLine_cons (by simpa using breaks), breaks]
  | cons c b ih =>
    rw [spanLine_step c b x, ih]
    cases b with
    | nil =>
      -- the terminator of a line that is one character may begin with this character
      simp only [EndsLine, List.nil_append, List.getLast?_singleton, List.getLast?_nil,
        List.mem_singleton, List.not_mem_nil]
      cases x with
      | nil => grind
      | cons d r =>
        simp only [List.cons_prefix_cons, List.nil_prefix]
        grind
    | cons d b =>
      simp only [EndsLine, List.getLast?_cons_cons, List.mem_cons, List.cons_append,
        List.cons_prefix_cons, List.nil_prefix]
      grind

/-- A block comment is read up to the first closing mark. -/
theorem spanBlock_cut (t : Text) :
    spanBlock t = match Text.cut closing t with
      | some (a, r) => (a ++ closing, r)
      | none => (t, []) := by
  fun_induction spanBlock t with
  | case1 => rfl
  | case2 r => rw [show '*' :: '/' :: r = closing ++ r from rfl, Text.cut_prefix]; rfl
  | case3 c r goes body rest eq ih =>
    have other : ¬closing <+: c :: r := by
      intro first
      obtain ⟨r', whole⟩ := first
      cases whole
      exact goes r' rfl rfl
    rw [Text.cut_cons other]
    cases found : Text.cut closing r with
    | none => simp_all
    | some parts => simp_all

/-- A block comment ends with its first closing mark, or at the end of a text without one. -/
theorem spanBlock_iff (b x : Text) :
    spanBlock (b ++ x) = (b, x) ↔
      (∃ a, Text.cut closing b = some (a, [])) ∨ Text.cut closing b = none ∧ x = [] := by
  rw [spanBlock_cut]
  cases found : Text.cut closing b with
  | none =>
    cases further : Text.cut closing (b ++ x) with
    | none => simp
    | some parts =>
      obtain ⟨a, r⟩ := parts
      have apart : a ++ closing ≠ b := by
        intro same
        rw [← same] at found
        have here := Text.cut_prefix closing []
        rw [List.append_nil, Text.cut_none_right found] at here
        cases here
      have more : x ≠ [] := by
        intro nil
        rw [nil, List.append_nil, found] at further
        cases further
      simp [apart, more]
  | some parts =>
    obtain ⟨a, r⟩ := parts
    have whole : b = a ++ closing ++ r := Text.cut_append found
    rw [Text.cut_append_right found]
    cases r with
    | nil => simp [whole]
    | cons c r => simp [whole]

theorem endsLine_slashes (b t : Text) : EndsLine ('/' :: '/' :: b) t ↔ EndsLine b t := by
  cases b with
  | nil => simp [EndsLine]
  | cons c b => simp [EndsLine, List.getLast?_cons_cons]

theorem EndsLine.append {line t : Text} (ends : EndsLine line t) (x : Text) :
    EndsLine line (t ++ x) := by
  cases ends with
  | inl returns => exact .inl (returns.trans (List.prefix_append t x))
  | inr feeds => exact .inr ⟨feeds.1.trans (List.prefix_append t x), feeds.2⟩

/-- A terminator belongs to the code that it begins. -/
theorem EndsLine.of_append {line t x : Text} (ends : EndsLine line (t ++ x)) (ne : t ≠ [])
    (behind : x = [] ∨ opensComment x = true) : EndsLine line t := by
  cases t with
  | nil => exact absurd rfl ne
  | cons c t =>
    cases t with
    | cons d t =>
      simpa [EndsLine, List.cons_prefix_cons] using ends
    | nil =>
      cases behind with
      | inl nil => simpa [nil] using ends
      | inr opens =>
        obtain ⟨r, same⟩ := opensComment_head opens
        subst same
        simpa [EndsLine, List.cons_prefix_cons] using ends

theorem opensComment_append {t : Text} (opens : opensComment t = true) (x : Text) :
    opensComment (t ++ x) = true := by
  unfold opensComment at opens
  split at opens
  · rfl
  · rfl
  · cases opens

theorem not_endsLine {line t : Text} (opens : opensComment t = true) : ¬EndsLine line t := by
  obtain ⟨r, same⟩ := opensComment_head opens
  subst same
  simp [EndsLine, List.cons_prefix_cons]

theorem Lexed.opensComment {t : Text} {r : List Token} (lexed : Lexed (comment t :: r)) :
    Token.opensComment t = true := by
  obtain ⟨b, same, -⟩ | ⟨b, same, -⟩ := comment?_cases lexed.1
  · rw [same]
    rfl
  · rw [same]
    rfl

theorem Lexed.ne_nil {token : Token} {r : List Token} (lexed : Lexed (token :: r)) :
    token.text ≠ [] := by
  cases token with
  | code t => exact lexed.1
  | comment t =>
    intro empty
    have opens := lexed.opensComment
    rw [show t = [] from empty] at opens
    cases opens

theorem Lexed.join_ne_nil {token : Token} {r : List Token} (lexed : Lexed (token :: r)) :
    join (token :: r) ≠ [] := by
  rw [join_cons]
  intro empty
  exact lexed.ne_nil (List.append_eq_nil_iff.mp empty).1

/-- Behind code that the scan has passed over a comment begins. -/
theorem Lexed.behind_code {t : Text} {next : Token} {r : List Token}
    (lexed : Lexed (code t :: next :: r)) : ∃ u, next = comment u := by
  obtain ⟨-, span, rest⟩ := lexed
  have stop := ((spanCode_iff _ _ _).mp span).2
  cases next with
  | comment u => exact ⟨u, rfl⟩
  | code u =>
    have opens := (stop.resolve_left rest.join_ne_nil).1
    rw [opensComment_iff, join_cons, text, comment?_none rest.1 rest.2.1] at opens
    cases opens

/-- Behind a line comment the code begins that has its terminator. -/
theorem Lexed.behind_line {line : Text} {next : Token} {r : List Token}
    (lexed : Lexed (next :: r)) (ends : EndsLine line (join (next :: r))) :
    ∃ u, next = code u ∧ EndsLine line u := by
  rw [join_cons] at ends
  cases next with
  | comment u => exact absurd ends (not_endsLine (opensComment_append lexed.opensComment _))
  | code u =>
    have stop := ((spanCode_iff _ _ _).mp lexed.2.1).2
    exact ⟨u, rfl, ends.of_append lexed.1 (stop.imp_right And.left)⟩

/-- Where the scan ends each token, the tokens follow the grammar. -/
theorem Lexed.grammar {tokens : List Token} (lexed : Lexed tokens) : Grammar tokens := by
  induction tokens with
  | nil => exact .nil
  | cons token r ih =>
    have rest := ih lexed.tail
    cases token with
    | code t =>
      obtain ⟨inside, stop⟩ := (spanCode_iff _ _ _).mp lexed.2.1
      apply Grammar.code lexed.1 _ _ rest
      · intro a b whole opens
        cases b with
        | nil => cases opens
        | cons c b => exact inside a c b whole (opensComment_append opens (join r))
      · intro next first
        cases r with
        | nil => cases first
        | cons next' r =>
          cases first
          obtain ⟨u, same⟩ := lexed.behind_code
          have later := stop.resolve_left lexed.tail.join_ne_nil
          refine ⟨u, same, later.2, ?_⟩
          intro a whole
          -- a slash at the end would open a comment with the slash behind it
          obtain ⟨q, slash⟩ := opensComment_head later.1
          apply inside a '/' [] whole
          rw [slash]
          rfl
    | comment t =>
      obtain ⟨b, same, span⟩ | ⟨b, same, span⟩ := comment?_cases lexed.1
      · subst same
        cases (spanBlock_iff _ _).mp span with
        | inl closed =>
          obtain ⟨a, closed⟩ := closed
          exact .block closed rest
        | inr unclosed =>
          cases r with
          | nil => exact .unclosed unclosed.1
          | cons next r => exact absurd unclosed.2 lexed.tail.join_ne_nil
      · subst same
        obtain ⟨within, ends⟩ := (spanLine_iff _ _).mp span
        apply Grammar.line within _ rest
        intro next first
        cases r with
        | nil => cases first
        | cons next' r =>
          cases first
          have ends := ends.resolve_left lexed.tail.join_ne_nil
          exact lexed.tail.behind_line ((endsLine_slashes _ _).mpr ends)

theorem Grammar.opensComment {u : Text} {r : List Token} (grammar : Grammar (comment u :: r)) :
    Token.opensComment u = true := by
  cases grammar <;> rfl

/-- Tokens that follow the grammar end where the scan ends them. -/
theorem Grammar.lexed {tokens : List Token} (grammar : Grammar tokens) : Lexed tokens := by
  induction grammar with
  | nil => trivial
  | @code t r ne unopened before rest ih =>
    refine ⟨ne, (spanCode_iff _ _ _).mpr ?_, ih⟩
    cases r with
    | nil =>
      constructor
      · intro a c b whole opens
        exact unopened a (c :: b) whole (by simpa [join] using opens)
      · exact .inl rfl
    | cons next r =>
      obtain ⟨u, same, live, slash⟩ := before next rfl
      subst same
      have opens := opensComment_append rest.opensComment (join r)
      constructor
      · intro a c b whole opens
        cases b with
        | nil =>
          obtain ⟨q, head⟩ := opensComment_head opens
          obtain ⟨rfl, -⟩ := List.cons.inj head
          exact slash a whole
        | cons d b =>
          apply unopened a (c :: d :: b) whole
          rw [opensComment_take] at opens ⊢
          exact opens
      · exact .inr ⟨opens, live⟩
  | @line b r within before rest ih =>
    refine ⟨?_, ih⟩
    have span : spanLine (b ++ join r) = (b, join r) := by
      apply (spanLine_iff _ _).mpr
      refine ⟨within, ?_⟩
      cases r with
      | nil => exact .inl rfl
      | cons next r =>
        obtain ⟨u, same, ends⟩ := before next rfl
        subst same
        exact .inr (((endsLine_slashes _ _).mp ends).append (join r))
    simp [comment?, span]
  | @block a b r closed rest ih =>
    have span := (spanBlock_iff b (join r)).mpr (.inl ⟨a, closed⟩)
    exact ⟨by simp [comment?, span], ih⟩
  | @unclosed b none =>
    have span := (spanBlock_iff b (join [])).mpr (.inr ⟨none, rfl⟩)
    exact ⟨by simp [comment?, span], trivial⟩

/-- The tokens of a text are the one list that joins to it and follows the grammar. -/
theorem tokenize_grammar (t : Text) (tokens : List Token) :
    tokens = tokenize t ↔ join tokens = t ∧ Grammar tokens := by
  constructor
  · intro same
    subst same
    exact ⟨join_tokenize t, (lexed_tokenize t).grammar⟩
  · intro both
    obtain ⟨whole, grammar⟩ := both
    rw [← whole]
    exact (tokenize_join grammar.lexed).symm

example : tokenize "a='\"'//b\r\r\n/*/ c" =
    [.code "a='\"'", .comment "//b\r", .code "\r\n", .comment "/*/ c"] := by
  decide +kernel

end Token
end QueryWeaver
