import Mathlib
import QueryWeaver.Proofs.Source.Braces
import QueryWeaver.Proofs.Source.Grammar
/-!
Tokens alone and in their context. One scan over a source, which carries the state of literals
along, gives its tokens, and it reads the characters of a token as a scan from the token's start
does. A token is therefore a token by itself, and other code may take the place of code.
-/

namespace QueryWeaver

namespace Token

/-- A token as it was read, each character of code with whether it stands outside literals. -/
inductive Reading where
  | code (chars : List (Char × Bool))
  | comment (text : Text)
  deriving DecidableEq, Repr

/-- The token read from its own start. -/
def reading : Token → Reading
  | code t => .code (LiteralState.between.marked t)
  | comment t => .comment t

/-- The function at the head of the code, with the live braces as they were read. -/
def Reading.stub? : Reading → Option (Text × Text)
  | code chars => (Stub.cut 0 chars).map fun q => (q.1.map Prod.fst, q.2.map Prod.fst)
  | comment _ => none

/-- Where a scan over a whole source stands, with what it has read of a token. -/
inductive Place where
  | code (chars : List (Char × Bool)) (s : LiteralState)
  /-- In code and behind a slash, which may open a comment. -/
  | slash (chars : List (Char × Bool))
  | block (t : Text) (star : Bool)
  | line (t : Text)

namespace Place

def start : Place := .code [] .between

def pending (chars : List (Char × Bool)) : List Reading :=
  if chars.isEmpty then [] else [.code chars]

/-- The tokens from a place on. The terminator of a line comment is not read as code but given to
the code behind it. -/
def scan : Place → Text → List Reading
  | code chars _, [] => pending chars
  | slash chars, [] => pending (chars ++ [('/', true)])
  | block t _, [] => [.comment t]
  | line t, [] => [.comment t]
  | code chars s, c :: r =>
    if c = '/' ∧ s.isLive then scan (slash chars) r
    else scan (code (chars ++ [(c, !s.covers c)]) (s.step c)) r
  | slash chars, c :: r =>
    if c = '*' then pending chars ++ scan (block ['/', '*'] false) r
    else if c = '/' then pending chars ++ scan (line ['/', '/']) r
    else
      let s := LiteralState.between
      scan (code (chars ++ [('/', true), (c, !s.covers c)]) (s.step c)) r
  | block t star, c :: r =>
    if star ∧ c = '/' then .comment (t ++ [c]) :: scan start r
    else scan (block (t ++ [c]) (c == '*')) r
  | line t, c :: r =>
    if c ≠ '\n' then scan (line (t ++ [c])) r
    else if t.getLast? = some '\r' then
      .comment t.dropLast :: scan (code [('\r', true), ('\n', true)] .between) r
    else .comment t :: scan (code [('\n', true)] .between) r

/-- A slash that opens no comment is code like another character. -/
theorem scan_slash (chars : List (Char × Bool)) {r : Text}
    (other : opensComment ('/' :: r) = false) :
    scan (slash chars) r = scan (code (chars ++ [('/', true)]) .between) r := by
  cases r with
  | nil => rfl
  | cons c r =>
    have star : c ≠ '*' := by
      intro same
      rw [same] at other
      cases other
    have slash : c ≠ '/' := by
      intro same
      rw [same] at other
      cases other
    simp [scan, star, slash]

theorem scan_plain (chars : List (Char × Bool)) (s : LiteralState) {c : Char} (other : c ≠ '/')
    (r : Text) :
    scan (code chars s) (c :: r) = scan (code (chars ++ [(c, !s.covers c)]) (s.step c)) r := by
  rw [scan, if_neg fun both => other both.1]

/-- A comment opener ends the code before it. -/
theorem scan_opens (chars : List (Char × Bool)) {s : LiteralState} {x : Text}
    (opens : opensComment x = true) (live : s.isLive = true) :
    scan (code chars s) x = pending chars ++ scan start x := by
  have first : LiteralState.between.isLive = true := rfl
  unfold opensComment at opens
  split at opens
  · simp [scan, start, live, first, pending]
  · simp [scan, start, live, first, pending]
  · cases opens

theorem scan_code {chars : List (Char × Bool)} {s : LiteralState} {t x : Text}
    (span : spanCode s (t ++ x) = (t, x)) (present : chars ++ s.marked t ≠ []) :
    scan (code chars s) (t ++ x) = .code (chars ++ s.marked t) :: scan start x := by
  induction t generalizing chars s with
  | nil =>
    have stop := ((spanCode_iff s [] x).mp span).2
    rw [LiteralState.marked, List.append_nil] at present ⊢
    have code : pending chars = [.code chars] := by simp [pending, present]
    cases stop with
    | inl nil =>
      subst nil
      exact code
    | inr opens =>
      have live : s.isLive = true := opens.2
      rw [List.nil_append, scan_opens chars opens.1 live, code]
      rfl
  | cons c t ih =>
    obtain ⟨here, span⟩ := (spanCode_cons s c t x).mp span
    have rest : scan (code (chars ++ [(c, !s.covers c)]) (s.step c)) (t ++ x) =
        .code (chars ++ s.marked (c :: t)) :: scan start x := by
      rw [ih span (by simp), LiteralState.marked, List.append_assoc]
      rfl
    rw [← rest, List.cons_append, scan]
    split
    next slash =>
      obtain ⟨same, live⟩ := slash
      subst same
      have between : s.step '/' = .between := by
        cases s with
        | quoted => cases live
        | _ => rfl
      have other : opensComment ('/' :: (t ++ x)) = false := by
        by_contra opens
        rw [here (by simpa using opens)] at live
        cases live
      rw [scan_slash chars other, between, covers_slash, live]
      rfl
    next => rfl

theorem scan_block {t b : Text} {star : Bool} (inside : ¬(star = true ∧ b.head? = some '/')) :
    scan (block t star) b = .comment (t ++ (spanBlock b).1) :: scan start (spanBlock b).2 := by
  fun_induction spanBlock b generalizing t star with
  | case1 => simp [scan, start, pending]
  | case2 r => simp [scan]
  | case3 c r goes body rest eq ih =>
    have here : ¬(star = true ∧ c = '/') := by simpa using inside
    have further : ¬((c == '*') = true ∧ r.head? = some '/') := by
      intro closes
      obtain ⟨star, slash⟩ := closes
      obtain ⟨r', same⟩ := List.head?_eq_some_iff.mp slash
      exact goes r' (by simpa using star) same
    rw [scan, if_neg here, ih further, eq]
    simp

theorem scan_line {t b : Text} (inside : ¬(t.getLast? = some '\r' ∧ b.head? = some '\n')) :
    scan (line t) b = .comment (t ++ (spanLine b).1) :: scan start (spanLine b).2 := by
  fun_induction spanLine b generalizing t with
  | case1 => simp [scan, start, pending]
  | case2 r =>
    -- read as code, a terminator would leave the scan where it is without reading it
    have last : t.getLast? ≠ some '\r' := by simpa using inside
    rw [scan, if_neg (by simp), if_neg last, List.append_nil, start, scan_plain _ _ (by decide)]
    rfl
  | case3 r =>
    rw [scan, if_pos (by decide), scan, if_neg (by simp), if_pos (by simp), List.dropLast_concat,
      List.append_nil, start, scan_plain _ _ (by decide), scan_plain _ _ (by decide)]
    rfl
  | case4 c r feed returns body rest eq ih =>
    have other : c ≠ '\n' := feed
    have further : ¬((t ++ [c]).getLast? = some '\r' ∧ r.head? = some '\n') := by
      intro ends
      obtain ⟨last, next⟩ := ends
      obtain ⟨r', same⟩ := List.head?_eq_some_iff.mp next
      exact returns r' (by simpa using last) same
    rw [scan, if_pos other, ih further, eq]
    simp

theorem scan_join {tokens : List Token} (lexed : Lexed tokens) :
    scan start (join tokens) = tokens.map reading := by
  induction tokens with
  | nil => rfl
  | cons token r ih =>
    rw [join_cons, List.map_cons, ← ih lexed.tail]
    cases token with
    | code t =>
      obtain ⟨ne, span, -⟩ := lexed
      have present : [] ++ LiteralState.between.marked t ≠ [] := by
        cases t with
        | nil => exact absurd rfl ne
        | cons c t => exact List.cons_ne_nil _ _
      exact scan_code span present
    | comment t =>
      obtain ⟨b, same, span⟩ | ⟨b, same, span⟩ := comment?_cases lexed.1
      · subst same
        have read : scan (block ['/', '*'] false) (b ++ join r) = _ := scan_block (by simp)
        rw [span] at read
        exact read
      · subst same
        have read : scan (line ['/', '/']) (b ++ join r) = _ := scan_line (by simp)
        rw [span] at read
        exact read

end Place

/-- Code that can stand in the place of other code behind some tokens: it is code by itself and
leaves nothing open, and it begins with the terminator of a line comment before it. -/
structure Replaces (before : List Token) (c : Text) : Prop where
  single : ∃ d, tokenize c = [code d]
  closed : (LiteralState.between.run c).isLive = true
  last : c.getLast? ≠ some '/'
  terminator : ∀ b, before.getLast? = some (comment ('/' :: '/' :: b)) →
    EndsLine ('/' :: '/' :: b) c

theorem tokenize_grammatical {tokens : List Token} (grammar : Grammar tokens) :
    tokenize (join tokens) = tokens := tokenize_join grammar.lexed

theorem grammar_tokenize (t : Text) : Grammar (tokenize t) := (lexed_tokenize t).grammar

/-- What the grammar asks of a token without its context. -/
theorem Grammar.alone {tokens : List Token} {token : Token} (grammar : Grammar tokens)
    (member : token ∈ tokens) : Grammar [token] := by
  induction grammar with
  | nil => cases member
  | code ne unopened before rest ih =>
    cases List.mem_cons.mp member with
    | inl here =>
      subst here
      exact .code ne unopened (by simp) .nil
    | inr later => exact ih later
  | line within before rest ih =>
    cases List.mem_cons.mp member with
    | inl here =>
      subst here
      exact .line within (by simp) .nil
    | inr later => exact ih later
  | block closed rest ih =>
    cases List.mem_cons.mp member with
    | inl here =>
      subst here
      exact .block closed .nil
    | inr later => exact ih later
  | unclosed none =>
    rw [List.mem_singleton.mp member]
    exact .unclosed none

theorem Grammar.tail {token : Token} {r : List Token} (grammar : Grammar (token :: r)) :
    Grammar r := by
  cases grammar with
  | code _ _ _ rest => exact rest
  | line _ _ rest => exact rest
  | block _ rest => exact rest
  | unclosed => exact .nil

/-- What a token asks of its context is what stands directly behind it. There other code may stand
for code, when it has the terminator of a line. -/
theorem Grammar.behind {token : Token} {r r' : List Token} (grammar : Grammar (token :: r))
    (rest : Grammar r')
    (next : ∀ n ∈ r'.head?, n ∈ r.head? ∨ ∃ t c, Token.code t ∈ r.head? ∧ n = Token.code c ∧
      ∀ b, token = comment ('/' :: '/' :: b) → EndsLine ('/' :: '/' :: b) c) :
    Grammar (token :: r') := by
  cases grammar with
  | code ne unopened before =>
    refine .code ne unopened ?_ rest
    intro n first
    cases next n first with
    | inl same => exact before n same
    | inr changed =>
      obtain ⟨t, c, old, -⟩ := changed
      obtain ⟨u, same, -⟩ := before _ old
      cases same
  | line within before =>
    refine .line within ?_ rest
    intro n first
    cases next n first with
    | inl same => exact before n same
    | inr changed =>
      obtain ⟨t, c, -, new, ends⟩ := changed
      exact ⟨c, new, ends _ rfl⟩
  | block closed => exact .block closed rest
  | unclosed none =>
    cases r' with
    | nil => exact .unclosed none
    | cons n r' =>
      cases next n rfl with
      | inl same => cases same
      | inr changed =>
        obtain ⟨t, c, old, -⟩ := changed
        cases old

theorem Replaces.tail {token : Token} {before : List Token} {c : Text}
    (replaces : Replaces (token :: before) c) : Replaces before c := by
  refine ⟨replaces.single, replaces.closed, replaces.last, ?_⟩
  intro b line
  apply replaces.terminator b
  rw [List.getLast?_cons, line]
  rfl

theorem Replaces.grammar {before after : List Token} {t c : Text} (replaces : Replaces before c)
    (grammar : Grammar (before ++ code t :: after)) : Grammar (before ++ code c :: after) := by
  induction before with
  | nil =>
    obtain ⟨d, single⟩ := replaces.single
    have same : c = d := by
      have whole := join_tokenize c
      rw [single] at whole
      simpa [join, text] using whole.symm
    subst same
    have alone := grammar_tokenize c
    rw [single] at alone
    cases alone with
    | code ne unopened =>
      cases grammar with
      | code _ _ before rest =>
        refine .code ne unopened ?_ rest
        intro token first
        obtain ⟨u, same, -⟩ := before token first
        refine ⟨u, same, replaces.closed, ?_⟩
        intro a whole
        have last := replaces.last
        rw [whole, List.getLast?_concat] at last
        exact absurd rfl last
  | cons token before ih =>
    apply grammar.behind (ih replaces.tail grammar.tail)
    intro n first
    cases before with
    | nil =>
      right
      refine ⟨t, c, rfl, (Option.some.inj first).symm, ?_⟩
      intro b line
      apply replaces.terminator b
      rw [line]
      rfl
    | cons next before => exact .inl first

/-- A token is the one token of its text, and code may stand in its place that is code by itself.
The scan that carries the state of literals from token to token reads each as from its start. -/
theorem tokenize_local (s : Text) :
    (∀ token ∈ tokenize s, tokenize token.text = [token]) ∧
    (∀ before t after c, tokenize s = before ++ code t :: after → Replaces before c →
      tokenize (join before ++ (c ++ join after)) = before ++ code c :: after) ∧
    Place.start.scan s = (tokenize s).map reading ∧
    ∀ t, (reading (code t)).stub? = Stub.split? t := by
  have grammar := grammar_tokenize s
  refine ⟨?_, ?_, ?_, ?_⟩
  · intro token member
    have alone := tokenize_grammatical (grammar.alone member)
    simpa [join] using alone
  · intro before t after c cut replaces
    rw [cut] at grammar
    have whole := tokenize_grammatical (replaces.grammar grammar)
    simpa [join, text] using whole
  · rw [← Place.scan_join (lexed_tokenize s), join_tokenize]
  · intro t
    exact (Stub.splitFrom_marked .between 0 t).symm

/-- A line comment that ends in a carriage return before its terminator, and a slash before a
literal that holds a comment opener. -/
def sampleContext : Text := "//b\r\r\nint a=1/'\"';// \"\x7b\n/* \x7d */ f()\x7b\x7d"

theorem sample_replaced :
    let before : List Token := [comment "//b\r"]
    let after : List Token :=
      [comment "// \"\x7b", code "\n", comment "/* \x7d */", code " f()\x7b\x7d"]
    let c : Text := "\r\nchar s[]=\"//\";"
    tokenize sampleContext = before ++ code "\r\nint a=1/'\"';" :: after ∧ Replaces before c ∧
      tokenize (join before ++ (c ++ join after)) = before ++ code c :: after := by
  intro before after c
  have cut : tokenize sampleContext = before ++ code "\r\nint a=1/'\"';" :: after := by
    decide +kernel
  have replaces : Replaces before c := by
    refine ⟨⟨c, by decide +kernel⟩, by decide, by decide, ?_⟩
    intro b line
    left
    exact ⟨"char s[]=\"//\";", rfl⟩
  exact ⟨cut, replaces, (tokenize_local sampleContext).2.1 before _ after c cut replaces⟩

end Token
end QueryWeaver
