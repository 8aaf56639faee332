import QueryWeaver.Access.Interface
import QueryWeaver.Proofs.Source.Balanced
import QueryWeaver.Proofs.Text.Parts
/-!
The text of a generated function. Every step of its body is balanced code, so the whole is a
function in the sense of the source scans, for any statement text.
-/

namespace QueryWeaver

theorem escapeLiteral_body (t : Text) : isLiteralBody (escapeLiteral t) = true := by
  induction t with
  | nil => rfl
  | cons c r ih =>
    simp only [escapeLiteral, List.flatMap_cons] at ih ⊢
    split_ifs <;> simp_all [isLiteralBody]

theorem word_body {t : Text} (word : t.all isWordChar = true) : isLiteralBody t = true := by
  induction t with
  | nil => rfl
  | cons c r ih =>
    simp only [List.all_cons, Bool.and_eq_true] at word
    have range := wordChar_range word.1
    have quote : c ≠ '"' := by
      rintro rfl
      exact absurd range.2.1 (by decide)
    have feed : c ≠ '\n' := by
      rintro rfl
      exact absurd range.1 (by decide)
    simp [isLiteralBody, range.2.2, quote, feed, ih word.2]

/-- The texts a layout puts into code. -/
structure Layout.Clean (p : Char → Prop) (layout : Layout) : Prop where
  indent : InertOver p layout.indent
  newline : InertOver p layout.newline
  cursorType : InertOver p layout.cursorType

def ColumnRef.Clean : ColumnRef → Prop
  | .index _ => True
  | .named name => name.all isWordChar = true

def RowStep.Clean (p : Char → Prop) : RowStep → Prop
  | .nameLast type => InertOver p type
  | .markExists object => InertOver p object
  | .read column target => (∀ ref ∈ column, ref.Clean) ∧ InertOver p target
  | _ => True

def BodyStep.Clean (p : Char → Prop) : BodyStep → Prop
  | .prepare sql => ∀ c ∈ escapeLiteral sql, p c
  | .bind param => InertOver p param.name
  | .declareResult type _ => InertOver p type
  | .eachRow steps => ∀ s ∈ steps, s.Clean p
  | .firstRow steps => ∀ s ∈ steps, s.Clean p
  | _ => True

/-- The type or the record that a shape names. -/
def Shape.spelling : Shape → Text
  | recordCollection record => record
  | scalarCollection type => type
  | optional type => type
  | mutation _ => []
  | rawScalar type => type
  | condScalar record => record
  | condRecord record => record

/-- Names of word characters and inert spellings; of the statement only the control characters
that its literal keeps. -/
structure Access.Clean (p : Char → Prop) (a : Access) : Prop where
  method : a.signature.method.all isWordChar = true
  enclosing : ∀ scope ∈ a.signature.enclosing, InertOver p scope
  spelling : InertOver p a.shape.spelling
  fields : ∀ f ∈ a.fields, f.name.all isWordChar = true
  params : ∀ q ∈ a.query.params, InertOver p q.type ∧ InertOver p q.name
  sql : ∀ c ∈ escapeLiteral a.query.sql, p c

structure GeneratedFunction.Clean (p : Char → Prop) (f : GeneratedFunction) : Prop where
  returnType : InertOver p f.returnType
  qualifiedName : InertOver p f.qualifiedName
  params : ∀ q ∈ f.params, InertOver p q.type ∧ InertOver p q.name
  member : InertOver p f.member
  body : ∀ s ∈ f.body, s.Clean p

section

variable {p : Char → Prop} (printable : Printable p)
include printable

theorem Balanced.ofConst {t : Text}
    (h : (t.all fun c => isInert c && decide (32 ≤ c.toNat)) = true) : Balanced p t :=
  .inert (.ofConst printable h)

theorem ColumnRef.render_balanced {ref : ColumnRef} (clean : ref.Clean) :
    Balanced p ref.render := by
  cases ref with
  | index position => exact .inert (.ofNat printable position)
  | named name =>
    have inert := InertOver.ofWord printable clean
    refine .literal (word_body clean) fun c member => ?_
    rcases List.mem_append.mp member with quote | member
    · exact printable c (by rw [List.mem_singleton.mp quote]; decide)
    · exact (inert c member).2

theorem RowStep.render_balanced {step : RowStep} (clean : step.Clean p) :
    Balanced p step.render := by
  cases step with
  | append => exact .ofConst printable (by decide)
  | engage => exact .ofConst printable (by decide)
  | nameLast type => exact .append (.inert clean) (.ofConst printable (by decide))
  | markExists object => exact .append (.inert clean) (.ofConst printable (by decide))
  | read column target =>
    have column : Balanced p ((column.map ColumnRef.render).getD []) := by
      cases column with
      | none => exact .ofConst printable (by decide)
      | some ref => exact ref.render_balanced printable (clean.1 ref rfl)
    have call := Balanced.append (.ofConst printable (t := "cursor.get(".toList) (by decide)) column
    exact ((call.append (.ofConst printable (by decide))).append (.inert clean.2)).append
      (.ofConst printable (by decide))

variable {layout : Layout} (layoutClean : layout.Clean p)
include layoutClean

omit printable in
theorem Layout.indentation_inert (depth : Nat) : InertOver p (layout.indentation depth) := by
  induction depth with
  | zero => simp [indentation, InertOver]
  | succ depth ih => exact layoutClean.indent.append ih

omit printable in
theorem Layout.line_balanced (depth : Nat) {t : Text} (balanced : Balanced p t) :
    Balanced p (layout.line depth t) :=
  ((Balanced.inert (layout.indentation_inert layoutClean depth)).append balanced).append
    (.inert layoutClean.newline)

/-- Braces on lines of their own around balanced lines. -/
theorem Layout.block_balanced {t : Text} (balanced : Balanced p t) :
    Balanced p (layout.line 1 ['{'] ++ t ++ layout.line 1 ['}']) := by
  have indent := Balanced.inert (layout.indentation_inert layoutClean 1)
  have newline := Balanced.inert layoutClean.newline
  have marks : p '{' ∧ p '}' := ⟨printable _ (by decide), printable _ (by decide)⟩
  have inside := Balanced.braces marks ((newline.append balanced).append indent)
  simpa [Layout.line] using (indent.append inside).append newline

theorem BodyStep.renderRows_balanced {head : Text} {steps : List RowStep}
    (inert : InertOver p head) (clean : ∀ s ∈ steps, s.Clean p) :
    Balanced p (renderRows layout head steps) := by
  have rows : Balanced p (steps.flatMap fun s => layout.line 2 s.render) :=
    Balanced.flatMap fun s member =>
      layout.line_balanced layoutClean 2 (s.render_balanced printable (clean s member))
  have first := layout.line_balanced layoutClean 1 (.inert inert)
  simpa [renderRows] using first.append (layout.block_balanced printable layoutClean rows)

theorem BodyStep.render_balanced {member : Text} {step : BodyStep} (inert : InertOver p member)
    (clean : step.Clean p) : Balanced p (step.render layout member) := by
  have const {t : Text} (h : (t.all fun c => isInert c && decide (32 ≤ c.toNat)) = true) :
      InertOver p t := .ofConst printable h
  have line (depth : Nat) {t : Text} (h : Balanced p t) : Balanced p (layout.line depth t) :=
    layout.line_balanced layoutClean depth h
  cases step with
  | prepare sql =>
    have test := line 1 (.inert (((const (t := "if(!".toList) (by decide)).append inert).append
      (const (t := ".prepared())".toList) (by decide))))
    have literal : Balanced p (['"'] ++ escapeLiteral sql ++ ['"']) := by
      refine .literal (escapeLiteral_body sql) fun c member => ?_
      rcases List.mem_append.mp member with quote | member
      · exact printable c (by rw [List.mem_singleton.mp quote]; decide)
      · exact clean c member
    have call := line 2 (((Balanced.inert (inert.append
      (const (t := "=db.prepare(".toList) (by decide)))).append literal).append
      (.inert (const (t := ");".toList) (by decide))))
    have block := test.append (layout.block_balanced printable layoutClean call)
    simpa [render] using block
  | bind param =>
    refine line 1 (.inert ?_)
    unfold renderBind
    split
    · exact ((((inert.append (const (by decide))).append clean).append
        (const (by decide))).append clean).append (const (by decide))
    · exact ((inert.append (const (by decide))).append clean).append (const (by decide))
  | openCursor =>
    exact line 1 (.inert (((layoutClean.cursorType.append (const (by decide))).append
      inert).append (const (by decide))))
  | declareResult type zeroed =>
    have named := Balanced.inert (InertOver.append clean (const (t := " ret".toList) (by decide)))
    refine line 1 (named.append ?_)
    cases zeroed with
    | false => exact .inert (const (by decide))
    | true =>
      have marks : p '{' ∧ p '}' := ⟨printable _ (by decide), printable _ (by decide)⟩
      exact (Balanced.braces marks (.inert (t := []) (by simp [InertOver]))).append
        (.inert (const (t := [';']) (by decide)))
  | eachRow steps => exact renderRows_balanced printable layoutClean (const (by decide)) clean
  | firstRow steps => exact renderRows_balanced printable layoutClean (const (by decide)) clean
  | write => exact line 1 (.inert (inert.append (const (by decide))))
  | writeResult =>
    exact line 1 (.inert (((const (t := "bool ret=".toList) (by decide)).append inert).append
      (const (by decide))))
  | reset => exact line 1 (.inert (inert.append (const (by decide))))
  | returnResult => exact line 1 (.inert (const (by decide)))

omit layoutClean in
theorem renderParams_inert {params : List Field}
    (clean : ∀ q ∈ params, InertOver p q.type ∧ InertOver p q.name) :
    InertOver p (renderParams params) := by
  refine .joinWith (.ofConst printable (by decide)) fun t rendered => ?_
  obtain ⟨q, member, rfl⟩ := List.mem_map.mp rendered
  exact ((clean q member).1.append (.ofConst printable (by decide))).append (clean q member).2

theorem GeneratedFunction.render_isFunction {f : GeneratedFunction} (clean : f.Clean p) :
    IsFunction p (f.render layout) := by
  have const {t : Text} (h : (t.all fun c => isInert c && decide (32 ≤ c.toNat)) = true) :
      InertOver p t := .ofConst printable h
  have marks : p '{' ∧ p '}' := ⟨printable _ (by decide), printable _ (by decide)⟩
  have head : InertOver p (layout.newline ++ f.returnType ++ " ".toList ++ f.qualifiedName ++
      "(".toList ++ renderParams f.params ++ ")".toList ++ layout.newline) :=
    (((((((layoutClean.newline.append clean.returnType).append (const (by decide))).append
      clean.qualifiedName).append (const (by decide))).append
      (renderParams_inert printable clean.params)).append (const (by decide))).append
      layoutClean.newline)
  have steps : Balanced p (f.body.flatMap fun s => s.render layout f.member) :=
    Balanced.flatMap fun s member =>
      s.render_balanced printable layoutClean clean.member (clean.body s member)
  have body := (Balanced.inert layoutClean.newline).append steps
  simpa [render] using IsFunction.mk marks head body

omit layoutClean in
theorem CodeType.stored_inert {type : Text} (inert : InertOver p type) :
    InertOver p (stored type) := by
  simp only [stored]
  split_ifs
  · exact .ofConst printable (by decide)
  · exact .ofConst printable (by decide)
  · exact inert.subset (Text.dropSuffix_subset _ _)

omit layoutClean in
theorem CodeType.parameter_inert {type : Text} (inert : InertOver p type) :
    InertOver p (parameter type) := by
  unfold parameter
  split_ifs
  · exact .ofConst printable (by decide)
  · exact stored_inert printable inert

omit layoutClean in
theorem Shape.returnType_inert {shape : Shape} {scope : Text} (inert : InertOver p shape.spelling)
    (outer : InertOver p scope) : InertOver p (shape.returnType scope) := by
  have vector : InertOver p "std::vector<".toList := .ofConst printable (by decide)
  have optional : InertOver p "std::optional<".toList := .ofConst printable (by decide)
  have close : InertOver p ">".toList := .ofConst printable (by decide)
  cases shape with
  | recordCollection record => exact ((vector.append outer).append inert).append close
  | scalarCollection type => exact (vector.append inert).append close
  | optional type => exact (optional.append inert).append close
  | mutation returnsBool =>
    cases returnsBool with
    | false => exact .ofConst printable (t := "void".toList) (by decide)
    | true => exact .ofConst printable (t := "bool".toList) (by decide)
  | rawScalar type => exact inert
  | condScalar record => exact outer.append inert
  | condRecord record => exact outer.append inert

end

namespace Access

theorem distinctParams_snoc (params : List Field) (p : Field) :
    distinctParams (params ++ [p]) =
      if p.name ∈ (distinctParams params).map Field.name then distinctParams params
      else distinctParams params ++ [p] := by
  have known : (distinctParams params).any (·.name == p.name) = true ↔
      p.name ∈ (distinctParams params).map Field.name := by
    simp
  simp only [← known]
  rw [distinctParams, List.foldl_append]
  rfl

theorem distinctParams_subset (params : List Field) : distinctParams params ⊆ params := by
  induction params using List.reverseRecOn with
  | nil => exact List.Subset.refl []
  | append_singleton params p ih =>
    have earlier : distinctParams params ⊆ params ++ [p] := List.subset_append_of_subset_left [p] ih
    rw [distinctParams_snoc]
    split
    · exact earlier
    · exact List.append_subset.mpr ⟨earlier, List.subset_append_right params [p]⟩

variable {p : Char → Prop} (printable : Printable p) {a : Access} (clean : a.Clean p)
include printable clean

theorem Clean.scopePrefix : InertOver p a.signature.scopePrefix := by
  unfold Signature.scopePrefix
  split
  next scope known => exact (clean.enclosing scope known).append (.ofConst printable (by decide))
  next => simp [InertOver]

theorem Clean.qualifiedName : InertOver p a.signature.qualifiedName := by
  have method := InertOver.ofWord printable clean.method
  unfold Signature.qualifiedName
  split
  next scope known =>
    exact ((clean.enclosing scope known).append (.ofConst printable (by decide))).append method
  next => exact method

theorem Clean.parameters : ∀ q ∈ a.params, InertOver p q.type ∧ InertOver p q.name := by
  intro q member
  obtain ⟨param, distinct, rfl⟩ := List.mem_map.mp member
  have param := clean.params param (distinctParams_subset _ distinct)
  exact ⟨CodeType.parameter_inert printable param.1, param.2⟩

omit printable in
theorem Clean.column {f : Field} (member : f ∈ a.fields) : (a.column f.name).Clean := by
  unfold Access.column
  split
  · trivial
  · exact clean.fields f member

omit printable in
theorem Clean.firstColumn : ∀ ref ∈ a.firstColumn, ref.Clean := by
  intro ref first
  obtain ⟨f, head, rfl⟩ := Option.map_eq_some_iff.mp first
  exact clean.column (List.mem_of_mem_head? head)

theorem Clean.readFields {object : Text} (inert : InertOver p object) :
    ∀ s ∈ a.readFields object, s.Clean p := by
  intro s member
  obtain ⟨f, field, rfl⟩ := List.mem_map.mp member
  have name := InertOver.ofWord printable (clean.fields f field)
  refine ⟨?_, (inert.append (.ofConst printable (by decide))).append name⟩
  rintro ref ⟨rfl⟩
  exact clean.column field

theorem Clean.transfer (flagged : Bool) : ∀ s ∈ a.transfer flagged, s.Clean p := by
  have scope := clean.scopePrefix printable
  have type := a.shape.returnType_inert printable clean.spelling scope
  have const {t : Text} (h : (t.all fun c => isInert c && decide (32 ≤ c.toNat)) = true) :
      InertOver p t := .ofConst printable h
  have pair {f g : RowStep} (first : f.Clean p) (second : g.Clean p) :
      ∀ s ∈ [f, g], s.Clean p :=
    List.forall_mem_cons.mpr ⟨first, List.forall_mem_singleton.mpr second⟩
  have target {t : Text} (h : (t.all fun c => isInert c && decide (32 ≤ c.toNat)) = true) :
      (RowStep.read a.firstColumn t).Clean p := ⟨clean.firstColumn, const h⟩
  have reading {result : Text} {loop : BodyStep} (zeroed : Bool) (inert : InertOver p result)
      (rows : loop.Clean p) : ∀ s ∈ [.openCursor, .declareResult result zeroed, loop],
      BodyStep.Clean p s :=
    List.forall_mem_cons.mpr ⟨trivial, List.forall_mem_cons.mpr ⟨inert,
      List.forall_mem_singleton.mpr rows⟩⟩
  unfold Access.transfer
  cases shape : a.shape with
  | mutation returnsBool => cases returnsBool <;> exact List.forall_mem_singleton.mpr trivial
  | recordCollection record =>
    have spelling : InertOver p record := by simpa [shape, Shape.spelling] using clean.spelling
    refine reading false (shape ▸ type) (List.forall_mem_append.mpr ⟨List.forall_mem_append.mpr
      ⟨pair trivial (scope.append spelling), ?_⟩, clean.readFields printable (const (by decide))⟩)
    split
    · exact List.forall_mem_singleton.mpr (const (by decide))
    · simp
  | scalarCollection _ =>
    exact reading false (shape ▸ type) (pair trivial (target (by decide)))
  | optional _ => exact reading false (shape ▸ type) (pair trivial (target (by decide)))
  | rawScalar _ =>
    exact reading true (shape ▸ type) (List.forall_mem_singleton.mpr (target (by decide)))
  | condScalar _ =>
    exact reading true (shape ▸ type) (pair (const (by decide)) (target (by decide)))
  | condRecord _ =>
    exact reading true (shape ▸ type) (List.forall_mem_cons.mpr
      ⟨const (by decide), clean.readFields printable (const (by decide))⟩)

theorem Clean.function (records : Registry) : (a.function records).Clean p where
  returnType := a.shape.returnType_inert printable clean.spelling (clean.scopePrefix printable)
  qualifiedName := clean.qualifiedName printable
  params := clean.parameters printable
  member :=
    InertOver.append (t := ['_']) (.ofConst printable (by decide))
      (.ofWord printable clean.method)
  body := by
    simp only [Access.function, List.forall_mem_append]
    refine ⟨⟨⟨⟨?_, ?_⟩, clean.transfer printable _⟩, ?_⟩, ?_⟩
    · simpa [BodyStep.Clean] using clean.sql
    · intro s member
      obtain ⟨param, known, rfl⟩ := List.mem_map.mp member
      exact (clean.params param known).2
    · split <;> simp [BodyStep.Clean]
    · split <;> simp [BodyStep.Clean]

end Access
end QueryWeaver
