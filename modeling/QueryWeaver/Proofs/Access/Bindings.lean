import Mathlib
import QueryWeaver.Proofs.Access.Declared
import QueryWeaver.Proofs.Statement.Leftmost
/-!
What a function binds. Each placeholder of the statement has its bind, in the order of the text;
each name among them has one parameter, as the first placeholder of that name types it.
-/

namespace QueryWeaver

namespace BodyStep

/-- The parameter whose value a step binds. -/
def bind? : BodyStep → Option Field
  | bind param => some param
  | _ => none

variable {sql : Text} {params : List Field} {returns : Bool} {transfer body : List BodyStep}

/-- There is one bind for each parameter, in order. -/
theorem Staged.binds (staged : Staged sql params returns transfer body) :
    body.filterMap bind? = params := by
  have silent : transfer.flatMap (fun s => s.bind?.toList) = [] := by
    rw [List.flatMap_eq_nil_iff]
    intro s member
    have transfers := staged.transfers s member
    cases s with
    | bind param => exact transfers.elim
    | _ => rfl
  rw [List.filterMap_eq_flatMap_toList, staged.flatMap, silent]
  simp [bind?]

/-- What was bound is reset once. No step before returns, and each step behind does. -/
theorem Staged.resets (staged : Staged sql params returns transfer body) :
    body.count reset = (if params.isEmpty then 0 else 1) ∧
      ∀ before after, body = before ++ reset :: after →
        returnResult ∉ before ∧ ∀ s ∈ after, s = returnResult := by
  have front (s : BodyStep) (unprepared : ¬s.Prepares) (unbound : s.bind? = none)
      (other : ¬s.Transfers) : s ∉ [prepare sql] ++ params.map bind ++ transfer := by
    intro member
    simp only [List.mem_append, List.mem_singleton, List.mem_map] at member
    rcases member with (rfl | ⟨p, -, rfl⟩) | member
    · exact unprepared trivial
    · cases unbound
    · exact other (staged.transfers s member)
  have unreset := front reset not_false rfl not_false
  have unreturned := front returnResult not_false rfl not_false
  have last : ∀ s ∈ (if returns then [returnResult] else []), s = returnResult := by
    split <;> simp
  have behind : reset ∉ (if returns then [returnResult] else []) := by
    intro member
    cases last _ member
  cases bound : params.isEmpty with
  | true =>
    have whole : body = ([prepare sql] ++ params.map bind ++ transfer) ++
        if returns then [returnResult] else [] := by
      simp [staged.whole, bound]
    have absent : reset ∉ body := by
      rw [whole]
      exact List.not_mem_append unreset behind
    refine ⟨List.count_eq_zero.mpr absent, ?_⟩
    intro before after split
    exact absurd (by simp [split]) absent
  | false =>
    have whole : body = ([prepare sql] ++ params.map bind ++ transfer) ++ reset ::
        if returns then [returnResult] else [] := by
      simp [staged.whole, bound]
    constructor
    · rw [whole, List.count_append, List.count_cons_self, List.count_eq_zero.mpr unreset,
        List.count_eq_zero.mpr behind]
      rfl
    · intro before after split
      -- the reset stands in one place, so the body has no other parts around it
      obtain ⟨rfl, -, rfl⟩ :=
        (List.append_cons_inj_of_notMem unreset behind).mp (whole.symm.trans split)
      exact ⟨unreturned, last⟩

end BodyStep

namespace Access

theorem distinctParams_names_snoc (params : List Field) (p : Field) :
    (distinctParams (params ++ [p])).map Field.name =
      Interface.addMember ((distinctParams params).map Field.name) p.name := by
  rw [distinctParams_snoc, Interface.addMember]
  simp only [List.contains_iff_mem]
  split
  · rfl
  · rw [List.map_append, List.map_singleton]

theorem distinctParams_names (params : List Field) :
    (distinctParams params).map Field.name = (params.map Field.name).eraseDups := by
  induction params using List.reverseRecOn with
  | nil => rfl
  | append_singleton params p ih =>
    rw [distinctParams_names_snoc, ih, addMember_eraseDups, List.map_append, List.map_singleton]

theorem distinctParams_nodup (params : List Field) :
    ((distinctParams params).map Field.name).Nodup := by
  induction params using List.reverseRecOn with
  | nil => exact List.nodup_nil
  | append_singleton params p ih =>
    rw [distinctParams_names_snoc]
    exact addMember_nodup ih p.name

/-- A parameter is the first of its name. -/
theorem distinctParams_first (params : List Field) :
    ∀ q ∈ distinctParams params, ∃ before after, params = before ++ q :: after ∧
      ∀ p ∈ before, p.name ≠ q.name := by
  induction params using List.reverseRecOn with
  | nil => simp [distinctParams]
  | append_singleton params p ih =>
    have earlier : ∀ q ∈ distinctParams params, ∃ before after,
        params ++ [p] = before ++ q :: after ∧ ∀ p ∈ before, p.name ≠ q.name := by
      intro q member
      obtain ⟨before, after, whole, first⟩ := ih q member
      exact ⟨before, after ++ [p], by simp [whole], first⟩
    rw [distinctParams_snoc]
    split
    next => exact earlier
    next fresh =>
      intro q member
      rcases List.mem_append.mp member with member | member
      · exact earlier q member
      · obtain rfl := List.mem_singleton.mp member
        refine ⟨params, [], rfl, ?_⟩
        intro p member same
        apply fresh
        rw [distinctParams_names, List.mem_eraseDups, ← same]
        exact List.mem_map_of_mem member

/-- Parameters for some placeholders: one for each name, in the order of the first placeholders of
the names, which type them. -/
structure Parameters (params occurrences : List Field) : Prop where
  names : params.map Field.name = (occurrences.map Field.name).eraseDups
  nodup : (params.map Field.name).Nodup
  named : ∀ p ∈ occurrences, p.name ∈ params.map Field.name
  types : ∀ q ∈ params, ∃ before p after, occurrences = before ++ p :: after ∧
    (∀ other ∈ before, other.name ≠ p.name) ∧ q = ⟨CodeType.parameter p.type, p.name⟩

theorem params_parameters (a : Access) : Parameters a.params a.query.params := by
  have same : a.params.map Field.name = (distinctParams a.query.params).map Field.name := by
    simp [params]
  have names := same.trans (distinctParams_names a.query.params)
  constructor
  · exact names
  · rw [same]
    exact distinctParams_nodup a.query.params
  · intro p member
    rw [names, List.mem_eraseDups]
    exact List.mem_map_of_mem member
  · intro q member
    obtain ⟨p, distinct, rfl⟩ := List.mem_map.mp member
    obtain ⟨before, after, whole, first⟩ := distinctParams_first a.query.params p distinct
    exact ⟨before, p, after, whole, first, rfl⟩

/-- A function binds the placeholders of its statement, each with a parameter of it, in the order of
the text. Its definition and its declaration have the same parameters. -/
theorem generate_binds {signature : Signature} {fields : List Field} {sql : Text} {shape : Shape}
    {columns : Option ColumnMap} {i next : Interface} {f : GeneratedFunction}
    (generated : Access.generate
      ⟨signature, fields, Placeholder.replaceAll sql, shape, columns⟩ i = .ok (f, next))
    (layout : Layout) :
    ∃ cut : Placeholder.Cut, cut.whole = sql ∧ cut.Leftmost ∧
      let occurrences := cut.params
      let a : Access := ⟨signature, fields, ⟨cut.asked, occurrences⟩, shape, columns⟩
      let member := ("_" : Text) ++ signature.method
      f.body.filterMap BodyStep.bind? = occurrences ∧ Parameters f.params occurrences ∧
      f.body.count .reset = (if occurrences.isEmpty then 0 else 1) ∧
      (∀ before after, f.body = before ++ .reset :: after →
        .returnResult ∉ before ∧ ∀ s ∈ after, s = .returnResult) ∧
      (∃ flagged, f.Written layout
        ([⟨1, "if(!" ++ member ++ ".prepared())"⟩, ⟨1, ['{']⟩,
            ⟨2, member ++ "=db.prepare(\"" ++ escapeLiteral cut.asked ++ "\");"⟩, ⟨1, ['}']⟩] ++
          (occurrences.map fun p => ⟨1, member ++ ".bind(" ++ (if p.type = "blob" then
            p.name ++ ".data(), " ++ p.name ++ ".size()" else p.name) ++ ");"⟩) ++
          a.transferring layout flagged ++
          (if occurrences.isEmpty then [] else [⟨1, member ++ ".reset();"⟩]) ++
          (if shape = .mutation false then [] else [⟨1, "return ret;"⟩]))) ∧
      f.returnType = shape.returnType signature.scopePrefix ∧
      f.qualifiedName = signature.qualifiedName ∧
      next.declarationText layout = i.declarationText layout ++ CodeLine.render layout
        ⟨1, shape.returnType [] ++ " " ++ signature.method ++ "(" ++
          Text.joinWith ", " (f.params.map fun p => p.type ++ " " ++ p.name) ++ ");"⟩ := by
  obtain ⟨cut, whole, leftmost, query⟩ := Placeholder.exists_cut sql
  rw [query] at generated
  have written := generate_written generated layout
  obtain ⟨rfl, -, prototypes, -⟩ := generate_function generated
  have staged := staged_function ⟨signature, fields, ⟨cut.asked, cut.params⟩, shape, columns⟩
    next.records
  obtain ⟨once, last⟩ := staged.resets
  refine ⟨cut, whole, leftmost, staged.binds, params_parameters _, once, last,
    ⟨flagged next.records shape, ?_⟩, rfl, rfl, ?_⟩
  · rw [lines, finishing, ← List.append_assoc] at written
    exact written
  · rw [Interface.declarationText, prototypes, List.flatMap_append, List.flatMap_singleton,
      Interface.renderPrototype_line]
    rfl

/-- One name is bound twice, another as a blob. -/
def touch : Access :=
  ⟨⟨.plain "bool", some "Files", "touch"⟩, [],
    Placeholder.replaceAll "UPDATE files SET a=:v(int64), b=:v(int64), data=:data(blob)",
    .mutation true, none⟩

theorem touch_binds : ∃ f next, touch.generate .empty = .ok (f, next) ∧
    f.params = [⟨"int64_t", "v"⟩, ⟨"const std::string&", "data"⟩] ∧
    f.Written ⟨[' '], ['\n'], "Q", "C"⟩
      [⟨1, "if(!_touch.prepared())"⟩, ⟨1, ['{']⟩,
        ⟨2, "_touch=db.prepare(\"UPDATE files SET a=?, b=?, data=?\");"⟩, ⟨1, ['}']⟩,
        ⟨1, "_touch.bind(v);"⟩, ⟨1, "_touch.bind(v);"⟩,
        ⟨1, "_touch.bind(data.data(), data.size());"⟩, ⟨1, "bool ret=_touch.write();"⟩,
        ⟨1, "_touch.reset();"⟩, ⟨1, "return ret;"⟩] ∧
    ∃ cut : Placeholder.Cut,
      cut.whole = ("UPDATE files SET a=:v(int64), b=:v(int64), data=:data(blob)" : Text) ∧
      f.body.filterMap BodyStep.bind? = cut.params ∧ Parameters f.params cut.params ∧
      cut.params = [⟨"int64", "v"⟩, ⟨"int64", "v"⟩, ⟨"blob", "data"⟩] := by
  obtain ⟨f, next, generated⟩ : ∃ f next, touch.generate .empty = .ok (f, next) := ⟨_, _, rfl⟩
  obtain ⟨cut, whole, -, binds, parameters, -⟩ := generate_binds generated .standard
  obtain ⟨function, -⟩ := generate_function generated
  have occurrences : (touch.function next.records).body.filterMap BodyStep.bind? =
      [⟨"int64", "v"⟩, ⟨"int64", "v"⟩, ⟨"blob", "data"⟩] := by
    rw [(touch.staged_function _).binds]
    decide +kernel
  refine ⟨f, next, generated, ?_, ?_, cut, whole, binds, parameters, ?_⟩
  · rw [function]
    exact (by decide +kernel : touch.params = [⟨"int64_t", "v"⟩, ⟨"const std::string&", "data"⟩])
  · have known : f = touch.function Dictionary.empty := by rw [function]; rfl
    rw [known]
    decide +kernel
  · rw [← binds, function, occurrences]

end Access
end QueryWeaver
