import QueryWeaver.Proofs.Statement.ColumnList
import QueryWeaver.Proofs.Statement.SelectItem
/-!
A column list read back: the columns of a statement are the names its entries end in, behind table
expressions and in front of the rest of the statement.
-/

namespace QueryWeaver

open WordScan

namespace Text

theorem sameLetters_congr {t keyword : Text} (same : sameLetters t keyword = true) (word : Text) :
    sameLetters t word = sameLetters keyword word := by
  rw [sameLetters, sameLetters, beq_iff_eq.mp same]

theorem isOneOf_congr {t keyword : Text} (same : sameLetters t keyword = true) (words : List Text) :
    t.isOneOf words = isOneOf keyword words := by
  rw [isOneOf, isOneOf, funext (sameLetters_congr same)]

end Text

namespace WordScan

variable {w : Word}

theorem Unreserved.isEnd (unreserved : Unreserved w.text w.depth) : Projection.isEnd w = false := by
  cases ends : Projection.isEnd w with
  | false => rfl
  | true =>
    obtain ⟨top, keyword⟩ : w.depth = 0 ∧ w.text.isOneOf Projection.endKeywords = true := by
      simpa [Projection.isEnd] using ends
    have reserved : w.text.isOneOf Projection.keywords = true := by
      obtain ⟨word, member, same⟩ := List.any_eq_true.mp keyword
      refine List.any_eq_true.mpr ⟨word, ?_, same⟩
      simp only [Projection.keywords, List.mem_cons]
      exact .inr (.inr (.inr (.inr (.inr member))))
    rw [Text.isOneOf_congr (unreserved top reserved)] at keyword
    exact absurd keyword (by decide)

theorem Unreserved.isTop (unreserved : Unreserved w.text w.depth) {keyword : Text}
    (reserved : keyword.isOneOf Projection.keywords = true)
    (other : Text.sameLetters keyword "as" = false) : w.isTop keyword = false := by
  cases top : w.isTop keyword with
  | false => rfl
  | true =>
    obtain ⟨depth, same⟩ : w.depth = 0 ∧ w.text.sameLetters keyword = true := by
      simpa [Word.isTop] using top
    have as := unreserved depth ((Text.isOneOf_congr same _).trans reserved)
    rw [Text.sameLetters_congr same, other] at as
    cases as

theorem Unreserved.isQuantifier (unreserved : Unreserved w.text w.depth) :
    Projection.isQuantifier w = false := by
  rw [Projection.isQuantifier, unreserved.isTop (by decide) (by decide),
    unreserved.isTop (by decide) (by decide)]
  rfl

end WordScan

namespace Projection

theorem isQuantifier_of_end {w : Word} (ends : isEnd w = true) : isQuantifier w = false := by
  obtain ⟨-, keyword⟩ : w.depth = 0 ∧ w.text.isOneOf endKeywords = true := by
    simpa [isEnd] using ends
  have other {word : Text} (no : word.isOneOf endKeywords = false) : w.isTop word = false := by
    cases top : w.isTop word with
    | false => rfl
    | true =>
      have same : w.text.sameLetters word = true := (Bool.and_eq_true_iff.mp top).2
      rw [Text.isOneOf_congr same, no] at keyword
      cases keyword
  rw [isQuantifier, other (by decide), other (by decide)]
  rfl

/-- The entries of a list as a statement writes them. -/
def listText (items : List SelectItem) : Text := Text.joinWith ", " (items.map SelectItem.text)

theorem listText_cons (item next : SelectItem) (items : List SelectItem) :
    listText (item :: next :: items) = item.text ++ ',' :: ' ' :: listText (next :: items) := by
  simp [listText, Text.joinWith]

theorem listText_last {items : List SelectItem} (ne : items ≠ [])
    (valid : ∀ item ∈ items, item.Valid) :
    ∃ u z, listText items = u ++ [z] ∧ WordMode.isTail z = true := by
  induction items with
  | nil => exact absurd rfl ne
  | cons item items ih =>
    cases items with
    | nil => exact SelectItem.text_last (valid item (List.mem_cons_self ..))
    | cons next items =>
      obtain ⟨u, z, last, tail⟩ :=
        ih (by simp) fun x member => valid x (List.mem_cons_of_mem _ member)
      exact ⟨item.text ++ ',' :: ' ' :: u, z, by simp [listText_cons, last], tail⟩

/-- The list is scanned from the top into its last word. -/
theorem scans_listText {items : List SelectItem} (ne : items ≠ [])
    (valid : ∀ item ∈ items, item.Valid) : Scans Unreserved start (listText items) ⟨.word, 0⟩ := by
  induction items with
  | nil => exact absurd rfl ne
  | cons item items ih =>
    have first := Scans.item (valid item (List.mem_cons_self ..))
    cases items with
    | nil => exact first
    | cons next items =>
      have rest := ih (by simp) fun x member => valid x (List.mem_cons_of_mem _ member)
      have behind : Scans Unreserved start (' ' :: listText (next :: items)) ⟨.word, 0⟩ :=
        rest.space rfl rfl
      rw [listText_cons]
      exact first.append (.skip behind (by decide)) (Word.apart_of_head (by decide))

theorem topLevelParts_blank {c : Char} (blank : isBlank c = true) (t : Text) :
    topLevelParts (c :: t) = topLevelParts t := by
  have other (x : Char) (solid : isBlank x = false) : c ≠ x := ne_of_class blank solid
  have still : Nesting.start.step c = Nesting.start := by
    simp [Nesting.step, Nesting.start, closingQuote?, nextDepth, other '(' (by decide),
      other ')' (by decide), other '\'' (by decide), other '"' (by decide),
      other '\x60' (by decide), other '[' (by decide)]
  have kept : (Nesting.start.isTop && c == ',') = false := by simp [other ',' (by decide)]
  rw [topLevelParts, Nesting.splitCommas_cons kept, still, topLevelParts]
  cases Nesting.start.splitCommas t with
  | nil => rfl
  | cons part parts =>
    have same : Text.trim (c :: part) = Text.trim part :=
      congrArg (Text.trimEnd isBlank) (Text.trimStart_append (a := [c]) (by simpa using blank) part)
    rw [List.modifyHead_cons, List.map_cons, same, List.map_cons]

theorem topLevelParts_trimStart (t : Text) :
    topLevelParts (Text.trimStart isBlank t) = topLevelParts t := by
  induction t with
  | nil => rfl
  | cons c t ih =>
    by_cases blank : isBlank c = true
    · rw [topLevelParts_blank blank, ← ih]
      simp [Text.trimStart, blank]
    · simp [Text.trimStart, blank]

theorem topLevelParts_listText {items : List SelectItem} (ne : items ≠ [])
    (valid : ∀ item ∈ items, item.Valid) :
    topLevelParts (listText items) = items.map fun item => Text.trim item.text := by
  induction items with
  | nil => exact absurd rfl ne
  | cons item items ih =>
    have first := SelectItem.splitCommas_text (valid item (List.mem_cons_self ..))
    cases items with
    | nil =>
      have whole := first []
      rw [List.append_nil] at whole
      rw [topLevelParts, listText, List.map_singleton, Text.joinWith, whole]
      simp [Nesting.splitCommas]
    | cons next items =>
      have rest := ih (by simp) fun x member => valid x (List.mem_cons_of_mem _ member)
      rw [← topLevelParts_blank (c := ' ') rfl, topLevelParts] at rest
      have comma : Nesting.start.splitCommas (',' :: ' ' :: listText (next :: items)) =
          [] :: Nesting.start.splitCommas (' ' :: listText (next :: items)) := rfl
      rw [topLevelParts, listText_cons, first, comma, List.modifyHead_cons, List.append_nil,
        List.map_cons, rest]
      rfl

theorem isWildcard_last {z : Char} (other : z ≠ '*') (t : Text) :
    isWildcard (t ++ [z]) = false := by
  have bare : (t ++ [z] == ['*']) = false := by
    refine beq_eq_false_iff_ne.mpr fun same => other ?_
    simpa using congrArg List.getLast? same
  have qualified : List.isSuffixOf ['.', '*'] (t ++ [z]) = false := by
    refine Bool.eq_false_iff.mpr fun suffix => other ?_
    obtain ⟨u, same⟩ := List.isSuffixOf_iff_suffix.mp suffix
    simpa using (congrArg List.getLast? same).symm
  rw [isWildcard, bare, qualified]
  rfl

theorem item_column {item : SelectItem} (valid : item.Valid) :
    isWildcard (Text.trim item.text) = false ∧
      ColumnName.ofExpression (Text.trim item.text) = item.column := by
  obtain ⟨u, z, last, tail⟩ := SelectItem.text_last valid
  have solid := isBlank_of_tail tail
  have trimmed : Text.trim item.text = Text.trimStart isBlank u ++ [z] := by
    rw [last, Text.trim, Text.trimBy_last solid]
  constructor
  · rw [trimmed]
    exact isWildcard_last (ne_of_class tail (by decide)) _
  · rw [ColumnName.ofExpression_trim, SelectItem.ofExpression_text valid]
    rw [trimmed, Text.trim, Text.trimBy_last solid, Text.trimStart_again]

/-- A list with blanks around it gives the names its entries end in. -/
theorem columns?_of_list {sql : Text} {kind : StatementKind} {items : List SelectItem} {b : Text}
    (ne : items ≠ []) (valid : ∀ item ∈ items, item.Valid) (blank : ∀ c ∈ b, isBlank c = true)
    (list : list? sql kind = some (' ' :: (listText items ++ b))) :
    columns? sql kind = some (items.map SelectItem.column) := by
  obtain ⟨u, z, last, tail⟩ := listText_last ne valid
  have solid := isBlank_of_tail tail
  have text : text? sql kind = some (Text.trimStart isBlank (listText items)) := by
    have inner : Text.trim (' ' :: (listText items ++ b)) = Text.trimStart isBlank u ++ [z] := by
      have whole : ' ' :: (listText items ++ b) = [' '] ++ (u ++ z :: b) := by simp [last]
      rw [whole, Text.trim, Text.trimBy_between (by simp [isBlank]) blank solid]
    have other : z ≠ ';' := ne_of_class tail (by decide)
    have kept : Text.trimEnd (· == ';') (Text.trimStart isBlank u ++ [z]) =
        Text.trimStart isBlank u ++ [z] := Text.trimEnd_of_last (by simpa using other)
    rw [text?_eq, list, Option.map_some, inner, kept, Text.trim, Text.trimBy_last solid,
      Text.trimStart_again, last, Text.trimStart_append_of_head u (by simpa using solid)]
  have full : (Text.trimStart isBlank (listText items)).isEmpty = false := by
    rw [last, Text.trimStart_append_of_head u (by simpa using solid)]
    simp
  have parts := (topLevelParts_trimStart (listText items)).trans (topLevelParts_listText ne valid)
  have named : ∀ part ∈ items.map (fun item => Text.trim item.text), ¬isWildcard part = true := by
    simp only [List.mem_map, forall_exists_index, and_imp, forall_apply_eq_imp_iff₂]
    intro item member
    simp [(item_column (valid item member)).1]
  rw [columns?, text]
  simp only [Option.bind_eq_bind, Option.bind_some, full, parts, List.any_eq_false.mpr named]
  simp only [Bool.false_eq_true, if_false, List.map_map, Option.some.injEq]
  refine List.map_congr_left fun item member => ?_
  rw [Function.comp_apply, (item_column (valid item member)).2]

theorem EndsAt.head? {s : WordScan} {v : Text} (ends : EndsAt s v) (pos : Nat) :
    ∀ x ∈ (Word.scan s pos v).head?, isEnd x = true := by
  cases v with
  | nil => simp [Word.scan]
  | cons c r =>
    obtain ⟨begins, depth, keyword⟩ := ends c r rfl
    rw [Word.scan, if_pos begins]
    rintro x ⟨⟩
    simp [isEnd, depth, keyword]

/-- The list behind its opening word, up to a keyword that ends it. -/
theorem list?_of_opening {kind : StatementKind} {u keyword list v : Text} {s : WordScan}
    (top : start.run u = start) (one : isWord keyword = true)
    (begins : ∀ after, (∀ x ∈ after.head?, isQuantifier x = false) →
      Begins kind (Word.ofText u) ⟨keyword, Text.size u, Text.size u + Text.size keyword, 0⟩ after)
    (scans : Scans Unreserved ⟨.word, 0⟩ (' ' :: list) s) (ends : EndsAt s v) :
    list? (u ++ (keyword ++ (' ' :: list ++ v))) kind = some (' ' :: list) := by
  have apart : Word.Apart s v := by
    intro word c first
    obtain ⟨r, whole⟩ := List.head?_eq_some_iff.mp first
    have opens := (ends c r whole).1
    simp [WordScan.begins, word] at opens
  have run := scans.run
  have splits := Word.splits_top (v := ' ' :: list ++ v) top one
    (by simp [isTail_of_blank, isBlank])
  suffices lists : Lists kind u ⟨keyword, Text.size u, Text.size u + Text.size keyword, 0⟩
      (' ' :: list) v from lists.list?
  refine ⟨splits, ?_, ?_, ?_⟩
  · -- The next word is in the list, or it is the keyword that ends an empty one.
    refine begins _ fun x first => ?_
    rw [Word.scan_append _ (by rwa [run]), List.head?_append] at first
    cases words : (Word.scan ⟨.word, 0⟩ (Text.size u + Text.size keyword) (' ' :: list)).head? with
    | none =>
      rw [words, Option.none_or, run] at first
      exact isQuantifier_of_end (ends.head? _ x first)
    | some y =>
      rw [words] at first
      obtain rfl : y = x := Option.some.inj first
      have unreserved := scans.words _ y (List.mem_of_mem_head? words)
      exact unreserved.isQuantifier
  · exact fun x member => (scans.words _ x member : Unreserved x.text x.depth).isEnd
  · rwa [run]

/-- What may follow a column list: nothing, or ` FROM ` and any text. -/
def IsRest (rest : Text) : Prop := rest = [] ∨ ∃ t, rest = (" FROM " : Text) ++ t

theorem endsAt_from (t : Text) : EndsAt start (("FROM " : Text) ++ t) := by
  rintro c r ⟨⟩
  exact ⟨by decide, rfl, by rfl⟩

theorem columns?_of_opening {kind : StatementKind} {u keyword rest : Text} {items : List SelectItem}
    (top : start.run u = start) (one : isWord keyword = true)
    (begins : ∀ after, (∀ x ∈ after.head?, isQuantifier x = false) →
      Begins kind (Word.ofText u) ⟨keyword, Text.size u, Text.size u + Text.size keyword, 0⟩ after)
    (ne : items ≠ []) (valid : ∀ item ∈ items, item.Valid) (ends : IsRest rest) :
    columns? (u ++ (keyword ++ ' ' :: (listText items ++ rest))) kind =
      some (items.map SelectItem.column) := by
  have scans : Scans Unreserved ⟨.word, 0⟩ (' ' :: listText items) ⟨.word, 0⟩ :=
    (scans_listText ne valid).space rfl rfl
  rcases ends with rfl | ⟨t, rfl⟩
  · refine columns?_of_list (b := []) ne valid (by simp) ?_
    have whole := list?_of_opening (v := []) top one begins scans fun c r => by simp
    simpa using whole
  · refine columns?_of_list (b := [' ']) ne valid (by simp [isBlank]) ?_
    have behind : Scans Unreserved ⟨.word, 0⟩ [' '] start := Scans.nil.space rfl rfl
    have whole := list?_of_opening top one begins
      (scans.append behind (Word.apart_of_head (by decide))) (endsAt_from t)
    simpa using whole

/-- A table expression: a name and the body it stands for. -/
def tableText (table : Text × Text) : Text :=
  table.1 ++ ((" AS (" : Text) ++ (table.2 ++ (")" : Text)))

/-- The table expressions in front of a `SELECT`. -/
def withClause : List (Text × Text) → Text
  | [] => []
  | table :: tables =>
    ("WITH " : Text) ++ (Text.joinWith ", " ((table :: tables).map tableText) ++ (" " : Text))

/-- A word at the top is no `SELECT`. -/
def Unselected (text : Text) (depth : Nat) : Prop :=
  depth = 0 → Text.sameLetters text "select" = false

theorem isSelect_of_unselected {w : Word} (unselected : Unselected w.text w.depth) :
    isSelect w = false := by
  cases top : isSelect w with
  | false => rfl
  | true =>
    obtain ⟨depth, same⟩ : w.depth = 0 ∧ w.text.sameLetters "select" = true := by
      simpa only [isSelect, Word.isTop, Bool.and_eq_true, beq_iff_eq] using top
    rw [unselected depth] at same
    cases same

theorem scans_table {table : Text × Text} {r : Text} {s : WordScan} (name : isName table.1 = true)
    (closed : Closed true table.2) (rest : Scans Unselected start r s) :
    Scans Unselected start (tableText table ++ r) s := by
  have group : Scans Unselected start ('(' :: (table.2 ++ ')' :: r)) s :=
    closed.group_scans (WordMode.fits_plain _) (fun _ depth deeper top => by omega) rest
  have as : Scans Unselected start ("AS" : Text) ⟨.word, 0⟩ :=
    .word (by decide) fun _ => by decide
  have named : Scans Unselected start table.1 ⟨.word, 0⟩ :=
    .word (isName_word name) fun _ => by
      have other := List.any_eq_false.mp (isName_other name) ("select" : Text) (by simp [keywords])
      exact Bool.eq_false_iff.mpr other
  have whole : tableText table ++ r =
      table.1 ++ ' ' :: (("AS" : Text) ++ ' ' :: ('(' :: (table.2 ++ ')' :: r))) := by
    simp [tableText]
  rw [whole]
  refine named.append (.space ?_ rfl rfl) (Word.apart_of_head (by decide))
  exact as.append (group.space rfl rfl) (Word.apart_of_head (by decide))

theorem scans_tables {tables : List (Text × Text)} {r : Text} {s : WordScan}
    (closed : ∀ table ∈ tables, isName table.1 = true ∧ Closed true table.2)
    (rest : Scans Unselected start r s) :
    Scans Unselected start (Text.joinWith ", " (tables.map tableText) ++ r) s := by
  induction tables with
  | nil => exact rest
  | cons table tables ih =>
    obtain ⟨name, body⟩ := closed table (List.mem_cons_self ..)
    cases tables with
    | nil => exact scans_table name body rest
    | cons next tables =>
      have others := ih fun x member => closed x (List.mem_cons_of_mem table member)
      have behind : Scans Unselected start
          (' ' :: (Text.joinWith ", " ((next :: tables).map tableText) ++ r)) s :=
        others.space rfl rfl
      have whole := scans_table name body (r := ',' :: _) (.skip behind (by decide))
      simpa [Text.joinWith] using whole

theorem scans_withClause {tables : List (Text × Text)}
    (closed : ∀ table ∈ tables, isName table.1 = true ∧ Closed true table.2) :
    Scans Unselected start (withClause tables) start := by
  cases tables with
  | nil => exact .nil
  | cons table tables =>
    have opening : Scans Unselected start ("WITH" : Text) ⟨.word, 0⟩ :=
      .word (by decide) fun _ => by decide
    have rest := scans_tables closed (r := [' ']) (Scans.nil.space rfl rfl)
    have whole := opening.append (rest.space (s := ⟨.word, 0⟩) rfl rfl)
      (Word.apart_of_head (by decide))
    simpa [withClause] using whole

variable {items : List SelectItem} {rest : Text}

theorem columns?_select {u : Text} (scans : Scans Unselected start u start) (ne : items ≠ [])
    (valid : ∀ item ∈ items, item.Valid) (ends : IsRest rest) :
    columns? (u ++ (("SELECT" : Text) ++ ' ' :: (listText items ++ rest))) .select =
      some (items.map SelectItem.column) := by
  refine columns?_of_opening scans.run (by decide) ?_ ne valid ends
  intro after other
  exact .select (fun x inside => isSelect_of_unselected (scans.words 0 x inside)) rfl other

theorem columns?_quantified {u quantifier : Text} (scans : Scans Unselected start u start)
    (one : isWord quantifier = true) (quantifies : isQuantifier ⟨quantifier, 0, 0, 0⟩ = true)
    (ne : items ≠ []) (valid : ∀ item ∈ items, item.Valid) (ends : IsRest rest) :
    columns? ((u ++ (("SELECT" : Text) ++ [' '])) ++
      (quantifier ++ ' ' :: (listText items ++ rest))) .select =
        some (items.map SelectItem.column) := by
  have top : start.run (u ++ (("SELECT" : Text) ++ [' '])) = start := by
    rw [run_append, scans.run]
    rfl
  have select : isWord ("SELECT" : Text) = true := by decide
  have splits := Word.splits_top (v := [' ']) scans.run select (by simp [isTail_of_blank, isBlank])
  refine columns?_of_opening top one ?_ ne valid ends
  intro after _
  rw [Word.ofText, splits.scan]
  exact .quantified (fun x inside => isSelect_of_unselected (scans.words 0 x inside)) rfl quantifies

theorem columns?_returning {kind : StatementKind} {statement : Text} (dml : kind.isDml = true)
    (closed : Closed true statement)
    (none : ∀ w ∈ Word.ofText statement, w.isTop "returning" = false) (ne : items ≠ [])
    (valid : ∀ item ∈ items, item.Valid) (ends : IsRest rest) :
    columns? ((statement ++ [' ']) ++ (("RETURNING" : Text) ++ ' ' :: (listText items ++ rest)))
      kind = some (items.map SelectItem.column) := by
  obtain ⟨s, isOpen, depth, scans⟩ := closed.scans (s := start) (WordMode.fits_plain statement)
  have blank : Scans (fun _ _ => False) s [' '] start := Scans.nil.space isOpen depth
  have top : start.run (statement ++ [' ']) = start := by rw [run_append, scans.run, blank.run]
  refine columns?_of_opening top (by decide) ?_ ne valid ends
  intro after _
  refine .returning dml (fun x inside => ?_) rfl
  rw [Word.ofText, Word.scan_append 0 (Word.apart_of_head (by decide)), List.mem_append] at inside
  rcases inside with inside | behind
  · exact none x inside
  · rw [scans.run] at behind
    exact (blank.words _ x behind).elim

/-- The columns of a statement are the names that the entries of its list end in, for a `SELECT`
behind any table expressions and for a `RETURNING` behind any closed statement. -/
theorem columns?_listText (ne : items ≠ []) (valid : ∀ item ∈ items, item.Valid)
    (ends : IsRest rest) :
    (∀ tables : List (Text × Text),
      (∀ table ∈ tables, isName table.1 = true ∧ Closed true table.2) →
      ∀ quantifier ∈ (["", " DISTINCT", " ALL"] : List Text),
      columns? (withClause tables ++ ("SELECT" : Text) ++ quantifier ++ (" " : Text) ++
        listText items ++ rest) .select = some (items.map SelectItem.column)) ∧
    (∀ (kind : StatementKind) (statement : Text), kind.isDml = true → Closed true statement →
      (∀ w ∈ Word.ofText statement, w.isTop "returning" = false) →
      columns? (statement ++ (" RETURNING " : Text) ++ listText items ++ rest) kind =
        some (items.map SelectItem.column)) := by
  constructor
  · intro tables closed quantifier member
    have scans := scans_withClause closed
    simp only [List.mem_cons, List.not_mem_nil, or_false] at member
    rcases member with rfl | rfl | rfl
    · simpa using columns?_select scans ne valid ends
    · have distinct : isWord ("DISTINCT" : Text) = true := by decide
      simpa using columns?_quantified scans distinct rfl ne valid ends
    · have all : isWord ("ALL" : Text) = true := by decide
      simpa using columns?_quantified scans all rfl ne valid ends
  · intro kind statement dml closed none
    simpa using columns?_returning dml closed none ne valid ends

/-- Entries of each form, with a comma and a keyword inside parentheses and quotes. -/
def sampleItems : List SelectItem :=
  [.reference ["u"] "id", .reference [] "name", .aliased "COUNT(a, 'from,')" "As" "total"]

theorem sampleItems_valid : ∀ item ∈ sampleItems, item.Valid := by
  have closed : Closed false ("COUNT(a, 'from,')" : Text) := by
    let second : Text := ',' :: ((" " : Text) ++ '\'' :: (("from," : Text) ++ '\'' :: []))
    have text : ("COUNT(a, 'from,')" : Text) =
        ("COUNT" : Text) ++ '(' :: ((("a" : Text) ++ second) ++ ')' :: []) := by decide
    have inner : Closed false second :=
      .char rfl (by decide) (by decide) (by simp [beginsComment])
        (.plain_append (List.all_eq_true.mp (by decide)) (.quoted rfl (by decide) .nil))
    rw [text]
    exact .plain_append (List.all_eq_true.mp (by decide))
      (.group (.plain_append (List.all_eq_true.mp (by decide)) inner) .nil)
  have operand : SelectItem.IsOperand "COUNT(a, 'from,')" :=
    { ne_nil := by decide
      closed := closed
      undivided := Closed.undivided_of_depth (by decide)
      keywords := by decide }
  simp only [sampleItems, List.forall_mem_cons]
  refine ⟨⟨?_, by decide⟩, ⟨by simp, by decide⟩, ⟨operand, by decide, by decide⟩, by simp⟩
  decide

theorem sample_columns :
    columns? (("WITH recent AS (SELECT n -- )\n) " : Text) ++
      ("SELECT DISTINCT u.id, name, COUNT(a, 'from,') As total FROM users" : Text)) .select =
        some (["id", "name", "total"] : List Text) ∧
    columns? (("DELETE FROM t WHERE n IN (m) " : Text) ++
      ("RETURNING u.id, name, COUNT(a, 'from,') As total" : Text)) .delete =
        some (["id", "name", "total"] : List Text) := by
  have body : Closed true ("SELECT n -- )\n" : Text) := by
    have text : ("SELECT n -- )\n" : Text) =
        ("SELECT n " : Text) ++ '-' :: '-' :: ((" )" : Text) ++ '\n' :: []) := by decide
    rw [text]
    exact .plain_append (List.all_eq_true.mp (by decide)) (.line rfl (by decide) .nil)
  have statement : Closed true ("DELETE FROM t WHERE n IN (m)" : Text) := by
    have text : ("DELETE FROM t WHERE n IN (m)" : Text) =
        ("DELETE FROM t WHERE n IN " : Text) ++ '(' :: (("m" : Text) ++ ')' :: []) := by decide
    rw [text]
    have inner : Closed true ("m" : Text) := .char rfl (by decide) (by decide) (by simp) .nil
    exact .plain_append (List.all_eq_true.mp (by decide)) (.group inner .nil)
  have ne : sampleItems ≠ [] := by decide
  have select := (columns?_listText ne sampleItems_valid (.inr ⟨"users", rfl⟩)).1
    [("recent", "SELECT n -- )\n")] (List.forall_mem_singleton.mpr ⟨by decide, body⟩) " DISTINCT"
    (by decide)
  have returning := (columns?_listText ne sampleItems_valid (.inl rfl)).2 .delete
    "DELETE FROM t WHERE n IN (m)" rfl statement (by decide)
  constructor
  · refine Eq.trans (congrArg (columns? · .select) ?_) select
    decide
  · refine Eq.trans (congrArg (columns? · .delete) ?_) returning
    decide

end Projection

end QueryWeaver
