import QueryWeaver.Proofs.Statement.Words
import QueryWeaver.Statement.Projection
/-!
The column list of a statement in the text it stands in: after the word that opens it, up to the
first keyword that ends it.
-/

namespace QueryWeaver

namespace Projection

variable {kind : StatementKind} {u list v : Text} {w : Word}

def isSelect (w : Word) : Bool := w.isTop "select"

def isQuantifier (w : Word) : Bool := w.isTop "distinct" || w.isTop "all"

def isReturning (w : Word) : Bool := w.isTop "returning"

/-- The word that a column list begins after, among the words before and after it. -/
inductive Begins : StatementKind → List Word → Word → List Word → Prop
  | select {before after : List Word} {w : Word} : (∀ x ∈ before, isSelect x = false) →
      isSelect w = true → (∀ x ∈ after.head?, isQuantifier x = false) →
      Begins .select before w after
  | quantified {before after : List Word} {first w : Word} : (∀ x ∈ before, isSelect x = false) →
      isSelect first = true → isQuantifier w = true → Begins .select (before ++ [first]) w after
  | returning {kind : StatementKind} {before after : List Word} {w : Word} : kind.isDml = true →
      (∀ x ∈ before, isReturning x = false) → isReturning w = true → Begins kind before w after

theorem selectStart_eq (words : List Word) :
    selectStart words = match words.dropWhile fun w => !isSelect w with
      | [] => none
      | [first] => some first.stop
      | first :: next :: _ => if isQuantifier next then some next.stop else some first.stop := rfl

theorem returningStart_eq (words : List Word) :
    returningStart words = (words.find? isReturning).map Word.stop := rfl

theorem dropWhile_select {before : List Word} {w : Word} {after : List Word}
    (none : ∀ x ∈ before, isSelect x = false) (here : isSelect w = true) :
    (before ++ w :: after).dropWhile (fun x => !isSelect x) = w :: after := by
  rw [List.dropWhile_append_of_pos fun x member => by simp [none x member]]
  simp [here]

theorem Begins.start? {before after : List Word} (begins : Begins kind before w after) :
    start? kind (before ++ w :: after) = some w.stop := by
  cases begins with
  | select none here other =>
    rw [Projection.start?, if_pos rfl, selectStart_eq, dropWhile_select none here]
    cases after with
    | nil => rfl
    | cons next after => simp [other next rfl]
  | quantified none here quantifier =>
    rw [Projection.start?, if_pos rfl, selectStart_eq, List.append_assoc, List.singleton_append,
      dropWhile_select none here]
    simp [quantifier]
  | returning dml none here =>
    have other : kind ≠ .select := by
      rintro rfl
      cases dml
    have missing : ∀ x ∈ before, ¬isReturning x = true := fun x member => by simp [none x member]
    rw [Projection.start?, if_neg other, if_pos dml, returningStart_eq, List.find?_append,
      List.find?_eq_none.mpr missing]
    simp [here]

theorem exists_begins {words : List Word} {n : Nat} (found : start? kind words = some n) :
    ∃ before w after, words = before ++ w :: after ∧ w.stop = n ∧ Begins kind before w after := by
  rw [start?] at found
  split at found
  next same =>
    subst same
    have none : ∀ x ∈ words.takeWhile (fun x => !isSelect x), isSelect x = false := by
      intro x member
      simpa using List.mem_takeWhile_imp member
    have whole := List.takeWhile_append_dropWhile (p := fun x => !isSelect x) (l := words)
    have stopped := List.head?_dropWhile_not (fun x => !isSelect x) words
    rw [selectStart_eq] at found
    match rest : words.dropWhile (fun x => !isSelect x) with
    | [] => simp [rest] at found
    | [first] =>
      rw [rest] at whole found stopped
      have here : isSelect first = true := by simpa using stopped
      exact ⟨_, first, [], whole.symm, Option.some.inj found, .select none here (by simp)⟩
    | first :: next :: after =>
      rw [rest] at whole found stopped
      have here : isSelect first = true := by simpa using stopped
      dsimp only at found
      split at found
      next quantifier =>
        refine ⟨_, next, after, ?_, Option.some.inj found, .quantified none here quantifier⟩
        rw [List.append_assoc]
        exact whole.symm
      next other =>
        refine ⟨_, first, next :: after, whole.symm, Option.some.inj found, .select none here ?_⟩
        rintro x ⟨⟩
        exact Bool.eq_false_iff.mpr other
  next =>
    split at found
    next dml =>
      rw [returningStart_eq] at found
      obtain ⟨w, here, stop⟩ := Option.map_eq_some_iff.mp found
      obtain ⟨keyword, before, after, rfl, none⟩ := List.find?_eq_some_iff_append.mp here
      exact ⟨before, w, after, rfl, stop, .returning dml (by simpa using none) keyword⟩
    next => cases found

/-- Where a list begins depends on what the words say only. -/
theorem Begins.congr {before before' after after' : List Word} {w w' : Word}
    (begins : Begins kind before w after) (earlier : before.map Word.shape = before'.map Word.shape)
    (here : w.shape = w'.shape) (later : after.map Word.shape = after'.map Word.shape) :
    Begins kind before' w' after' := by
  have unselected {words words' : List Word} (same : words.map Word.shape = words'.map Word.shape)
      (none : ∀ x ∈ words, isSelect x = false) : ∀ x ∈ words', isSelect x = false :=
    Word.forall_of_shapes (P := fun text depth => isSelect ⟨text, 0, 0, depth⟩ = false) same none
  have said {x x' : Word} (same : x.shape = x'.shape) (keyword : Text) :
      x.isTop keyword = x'.isTop keyword := by
    obtain ⟨text, depth⟩ := Prod.mk.inj same
    rw [Word.isTop, Word.isTop, text, depth]
  have quantifies {x x' : Word} (same : x.shape = x'.shape) : isQuantifier x = isQuantifier x' := by
    rw [isQuantifier, isQuantifier, said same, said same]
  cases begins with
  | select none select other =>
    refine .select (unselected earlier none) ((said here _).symm.trans select) ?_
    cases after with
    | nil =>
      obtain rfl := List.map_eq_nil_iff.mp later.symm
      simp
    | cons x after =>
      obtain ⟨x', rest, rfl, same, -⟩ := List.map_eq_cons_iff.mp later.symm
      rintro y ⟨⟩
      exact (quantifies same).trans (other x rfl)
  | quantified none select quantifier =>
    rw [List.map_append] at earlier
    obtain ⟨before, last, rfl, same, alone⟩ := List.map_eq_append_iff.mp earlier.symm
    obtain ⟨first, rest, rfl, opening, nil⟩ := List.map_eq_cons_iff.mp alone
    obtain rfl := List.map_eq_nil_iff.mp nil
    exact .quantified (unselected same.symm none) ((said opening _).trans select)
      ((quantifies here).symm.trans quantifier)
  | returning dml none returning =>
    have unreturned : ∀ x ∈ before', isReturning x = false :=
      Word.forall_of_shapes (P := fun text depth => isReturning ⟨text, 0, 0, depth⟩ = false)
        earlier none
    exact .returning dml unreturned ((said here _).symm.trans returning)

theorem start?_congr {words words' : List Word}
    (same : words.map Word.shape = words'.map Word.shape)
    (missing : start? kind words = none) : start? kind words' = none := by
  cases found : start? kind words' with
  | none => rfl
  | some n =>
    obtain ⟨before', w', after', rfl, -, begins⟩ := exists_begins found
    rw [List.map_append, List.map_cons] at same
    obtain ⟨before, rest, rfl, earlier, others⟩ := List.map_eq_append_iff.mp same
    obtain ⟨w, after, rfl, here, later⟩ := List.map_eq_cons_iff.mp others
    rw [(begins.congr earlier.symm here.symm later.symm).start?] at missing
    cases missing

/-- Where a scan goes on with a keyword that ends the list, or with nothing. -/
def EndsAt (s : WordScan) (v : Text) : Prop :=
  ∀ c r, v = c :: r → s.begins c = true ∧ s.depth = 0 ∧
    Text.isOneOf (c :: r.takeWhile WordMode.isTail) endKeywords = true

/-- The column list of the statement `u ++ w.text ++ list ++ v`, which begins after its word `w`. -/
structure Lists (kind : StatementKind) (u : Text) (w : Word) (list v : Text) : Prop where
  splits : Word.Splits .start 0 (u ++ (w.text ++ (list ++ v))) u (list ++ v) w
  begins : Begins kind (Word.ofText u) w (Word.scan ⟨.word, w.depth⟩ w.stop (list ++ v))
  inside : ∀ x ∈ Word.scan ⟨.word, w.depth⟩ w.stop list, isEnd x = false
  ends : EndsAt ((⟨.word, w.depth⟩ : WordScan).run list) v

/-- The text of the column list with the blanks around it. -/
def list? (sql : Text) (kind : StatementKind) : Option Text :=
  (range? sql kind).map fun (start, stop) => Text.slice sql start stop

theorem text?_eq (sql : Text) (kind : StatementKind) :
    text? sql kind = (list? sql kind).map fun list =>
      Text.trim (Text.trimEnd (· == ';') (Text.trim list)) := by
  rw [text?, list?]
  cases range? sql kind with
  | none => rfl
  | some range => rfl

/-- The list runs from the word it begins after to the first end keyword behind that word. -/
theorem range?_eq {sql : Text} (splits : Word.Splits .start 0 sql u v w)
    (begins : Begins kind (Word.ofText u) w (Word.scan ⟨.word, w.depth⟩ w.stop v)) :
    range? sql kind = some (w.stop,
      (((Word.scan ⟨.word, w.depth⟩ w.stop v).find? isEnd).map Word.start).getD
        (Text.size sql)) := by
  have earlier : ∀ x ∈ Word.ofText u, ¬(decide (w.stop ≤ x.start) && isEnd x) = true := by
    intro x member
    have bounds := Word.scan_bounds member
    have start := splits.start
    have stop := splits.stop
    have late : ¬w.stop ≤ x.start := by omega
    simp [late]
  have here : ¬(decide (w.stop ≤ w.start) && isEnd w) = true := by
    have bounds : w ∈ Word.scan .start 0 sql := by rw [splits.scan]; simp
    have late : ¬w.stop ≤ w.start := Nat.not_le.mpr (Word.scan_bounds bounds).2.1
    simp [late]
  have later : ∀ x ∈ Word.scan ⟨.word, w.depth⟩ w.stop v,
      (decide (w.stop ≤ x.start) && isEnd x) = isEnd x := by
    intro x member
    simp [(Word.scan_bounds member).1]
  have words : Word.ofText sql =
      Word.ofText u ++ w :: Word.scan ⟨.word, w.depth⟩ w.stop v := splits.scan
  have found : (Word.ofText u ++ w :: Word.scan ⟨.word, w.depth⟩ w.stop v).find?
      (fun x => decide (w.stop ≤ x.start) && isEnd x) =
        (Word.scan ⟨.word, w.depth⟩ w.stop v).find? isEnd := by
    rw [List.find?_append, List.find?_eq_none.mpr earlier, Option.none_or,
      List.find?_cons_of_neg (p := fun x => decide (w.stop ≤ x.start) && isEnd x) here,
      List.find?_congr later]
  rw [range?, words, begins.start?]
  exact congrArg (fun found => some (w.stop, (found.map Word.start).getD (Text.size sql))) found

theorem Lists.list? (lists : Lists kind u w list v) :
    list? (u ++ (w.text ++ (list ++ v))) kind = some list := by
  obtain ⟨splits, begins, inside, ends⟩ := lists
  have stop : w.stop = Text.size (u ++ w.text) := by
    rw [splits.stop, splits.start, Text.size_append, Nat.zero_add]
  have found : ((((Word.scan ⟨.word, w.depth⟩ w.stop (list ++ v)).find? isEnd).map
      Word.start).getD (Text.size (u ++ (w.text ++ (list ++ v))))) = w.stop + Text.size list := by
    have missing : (Word.scan ⟨.word, w.depth⟩ w.stop list).find? isEnd = none :=
      List.find?_eq_none.mpr fun x member => by simp [inside x member]
    cases v with
    | nil =>
      rw [List.append_nil, missing, stop]
      simp [Nat.add_assoc]
    | cons c r =>
      obtain ⟨opens, depth, keyword⟩ := ends c r rfl
      have apart : Word.Apart ((⟨.word, w.depth⟩ : WordScan).run list) (c :: r) := by
        intro word
        simp [WordScan.begins, word] at opens
      rw [Word.scan_append w.stop apart, List.find?_append, missing, Word.scan, if_pos opens]
      simp [isEnd, depth, keyword]
  rw [Projection.list?, range?_eq splits begins, found, stop, ← List.append_assoc]
  exact congrArg some (Text.slice_append (u ++ w.text) list v)

theorem exists_lists {sql : Text} (found : list? sql kind = some list) :
    ∃ u w v, sql = u ++ (w.text ++ (list ++ v)) ∧ Lists kind u w list v := by
  obtain ⟨⟨start, stop⟩, range, slice⟩ := Option.map_eq_some_iff.mp found
  obtain ⟨n, begun, -⟩ := Option.bind_eq_some_iff.mp range
  obtain ⟨before, w, after, words, -, begins⟩ := exists_begins begun
  obtain ⟨u, v, splits, rfl, rfl⟩ := Word.scan_split words
  suffices parts : ∃ m v', v = m ++ v' ∧ Lists kind u w m v' by
    obtain ⟨m, v', rfl, lists⟩ := parts
    have whole := splits.whole
    rw [whole, lists.list?] at found
    obtain rfl := Option.some.inj found
    exact ⟨u, w, v', whole, lists⟩
  have whole := splits.whole
  cases ended : (Word.scan ⟨.word, w.depth⟩ w.stop v).find? isEnd with
  | none =>
    refine ⟨v, [], (List.append_nil v).symm, ?_, ?_, ?_, fun c r => by simp⟩
    · rwa [List.append_nil, ← whole]
    · rwa [List.append_nil]
    · simpa using List.find?_eq_none.mp ended
  | some x =>
    obtain ⟨keyword, before, after, words, inside⟩ := List.find?_eq_some_iff_append.mp ended
    obtain ⟨m, v', split, rfl, -⟩ := Word.scan_split words
    have rest := split.whole
    subst rest
    obtain ⟨c, r, text, opens, tail⟩ := split.begins
    refine ⟨m, x.text ++ v', rfl, ⟨by rwa [← whole], begins, by simpa using inside, ?_⟩⟩
    intro c' r' same
    rw [text, List.cons_append] at same
    obtain ⟨rfl, rfl⟩ := List.cons.inj same
    have whole : (r ++ v').takeWhile WordMode.isTail = r := Word.takeWhile_tail tail split.apart
    have top : x.depth = 0 ∧ x.text.isOneOf endKeywords = true := by simpa [isEnd] using keyword
    rw [split.depth, text] at top
    rw [whole]
    exact ⟨opens, top.1, top.2⟩

theorem list?_none {sql : Text} : list? sql kind = none ↔ start? kind (Word.ofText sql) = none := by
  rw [list?, Option.map_eq_none_iff, range?]
  cases start? kind (Word.ofText sql) with
  | none => simp
  | some n => simp

/-- The columns of a statement depend on its list only. -/
theorem columns?_congr {sql sql' : Text} {kind' : StatementKind}
    (same : list? sql kind = list? sql' kind') : columns? sql kind = columns? sql' kind' := by
  rw [columns?, columns?, text?_eq, text?_eq, same]

end Projection
end QueryWeaver
