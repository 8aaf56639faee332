import Mathlib
import QueryWeaver.Proofs.Access.Registration
/-!
The registry as its history. After any requests it holds what the accepted ones say of each name:
the fields of the first and the flag if one needs it. So neither the order of accepted requests nor
their repetition matters.
-/

namespace QueryWeaver

/-- What a function asks of the registry. -/
structure Request where
  shape : Shape
  fields : List Field
  deriving DecidableEq, Repr

namespace Request

/-- The request is for the record of that name. -/
def names (q : Request) (name : Text) : Bool := q.shape.record?.any (·.1 == name)

/-- The request is for that record with an existence flag. -/
def flags (q : Request) (name : Text) : Bool := q.shape.record? == some (name, true)

def recordFields (q : Request) : List Field := q.shape.recordFields q.fields

/-- The record that the request leaves where it finds the other. -/
def leave (q : Request) (name : Text) : Option Record → Record
  | none => ⟨name, q.recordFields, q.flags name⟩
  | some known => ⟨known.name, q.recordFields, known.hasExists || q.flags name⟩

variable {q q' : Request} {name other : Text} {needsExists : Bool}

theorem names_iff (needed : q.shape.record? = some (name, needsExists)) :
    q.names other = true ↔ name = other := by
  simp [names, needed]

theorem flags_of_record? (needed : q.shape.record? = some (name, needsExists)) :
    q.flags name = needsExists := by
  cases needsExists <;> simp [flags, needed]

theorem record?_of_names (for_it : q.names name = true) :
    ∃ needsExists, q.shape.record? = some (name, needsExists) := by
  cases needed : q.shape.record? with
  | none => simp [names, needed] at for_it
  | some record =>
    have same : record.1 = name := (names_iff needed).mp for_it
    rw [← same]
    exact ⟨record.2, rfl⟩

theorem flags_of_not_names (other : q.names name = false) : q.flags name = false := by
  cases flagged : q.flags name with
  | false => rfl
  | true =>
    have needed : q.shape.record? = some (name, true) := by simpa [flags] using flagged
    rw [(names_iff needed).mpr rfl] at other
    cases other

theorem leave_fields (q : Request) (name : Text) (found : Option Record) :
    (q.leave name found).fields = q.recordFields := by
  cases found <;> rfl

/-- Two requests with the same fields leave the same record in either order. -/
theorem leave_comm (same : q.recordFields = q'.recordFields) (name : Text)
    (found : Option Record) :
    q.leave name (some (q'.leave name found)) = q'.leave name (some (q.leave name found)) := by
  cases found with
  | none => simp only [leave, same, Bool.or_comm]
  | some known => simp only [leave, same, Bool.or_right_comm]

theorem leave_again (q : Request) (name : Text) (found : Option Record) :
    q.leave name (some (q.leave name found)) = q.leave name found := by
  cases found with
  | none => simp only [leave, Bool.or_self]
  | some known => simp only [leave, Bool.or_assoc, Bool.or_self]

end Request

namespace Registry

variable {registry next last : Registry} {q q' : Request}

/-- The record that the request is for has no other fields, if it is known. -/
def Fits (registry : Registry) (q : Request) : Prop :=
  ∀ name known, q.names name = true → Dictionary.get? registry name = some known →
    known.fields = q.recordFields

/-- What stands under a name when the request has been accepted. -/
def afterwards (registry : Registry) (q : Request) (name : Text) : Option Record :=
  if q.names name then some (q.leave name (Dictionary.get? registry name))
  else Dictionary.get? registry name

theorem get?_leave {name : Text} {needsExists : Bool}
    (needed : q.shape.record? = some (name, needsExists)) (other : Text) :
    Dictionary.get? (Dictionary.insert registry name
      (q.leave name (Dictionary.get? registry name))) other = registry.afterwards q other := by
  rw [Dictionary.get?_insert, afterwards]
  by_cases same : name = other
  · rw [if_pos same, if_pos ((Request.names_iff needed).mpr same), same]
  · rw [if_neg same, if_neg (mt (Request.names_iff needed).mp same)]

/-- A request that fits is accepted. -/
theorem register_fits (fits : registry.Fits q) :
    ∃ next, register registry q.shape q.fields = .ok next ∧
      ∀ name, Dictionary.get? next name = registry.afterwards q name := by
  cases needed : q.shape.record? with
  | none =>
    refine ⟨registry, by simp [register, needed], ?_⟩
    intro name
    simp [afterwards, Request.names, needed]
  | some record =>
    obtain ⟨name, needsExists⟩ := record
    refine ⟨_, ?_, get?_leave needed⟩
    have flag := Request.flags_of_record? needed
    cases known : Dictionary.get? registry name with
    | none =>
      simp only [register, needed, add, known, Request.leave, flag]
      rfl
    | some record =>
      have same := fits name record ((Request.names_iff needed).mpr rfl) known
      simp only [register, needed, add, known, Request.leave, flag]
      exact if_pos same

/-- A request is refused if and only if the record it is for is known with other fields. -/
theorem register_eq_error {e : Error} :
    register registry q.shape q.fields = .error e ↔ ∃ name known,
      q.names name = true ∧ Dictionary.get? registry name = some known ∧
      known.fields ≠ q.recordFields ∧
      e = .recordConflict name (Record.describe known.fields)
        (Record.describe q.recordFields) := by
  constructor
  · intro refused
    cases needed : q.shape.record? with
    | none => simp [register, needed] at refused
    | some record =>
      obtain ⟨name, needsExists⟩ := record
      simp only [register, needed, add] at refused
      split at refused
      next => cases refused
      next known stands =>
        split at refused
        next => cases refused
        next other =>
          cases refused
          exact ⟨name, known, (Request.names_iff needed).mpr rfl, stands, other, rfl⟩
  · intro conflict
    obtain ⟨name, known, names, stands, other, same⟩ := conflict
    obtain ⟨needsExists, needed⟩ := Request.record?_of_names names
    simp only [register, needed, add, stands]
    rw [same]
    exact if_neg other

theorem register_eq_ok :
    register registry q.shape q.fields = .ok next ↔
      registry.Fits q ∧ ∀ name, Dictionary.get? next name = registry.afterwards q name := by
  constructor
  · intro accepted
    have fits : registry.Fits q := by
      intro name known names stands
      by_contra other
      have refused := register_eq_error.mpr ⟨name, known, names, stands, other, rfl⟩
      rw [accepted] at refused
      cases refused
    obtain ⟨next', accepted', lookups⟩ := register_fits fits
    rw [accepted] at accepted'
    cases accepted'
    exact ⟨fits, lookups⟩
  · intro fitting
    obtain ⟨next', accepted, lookups⟩ := register_fits fitting.1
    have same : next' = next :=
      Dictionary.ext_get? fun name => (lookups name).trans (fitting.2 name).symm
    rw [accepted, same]

/-- Requests that are accepted one after the other are accepted in the other order. -/
theorem register_comm (first : register registry q.shape q.fields = .ok next)
    (second : register next q'.shape q'.fields = .ok last) :
    ∃ next', register registry q'.shape q'.fields = .ok next' ∧
      register next' q.shape q.fields = .ok last := by
  obtain ⟨fits, lookups⟩ := register_eq_ok.mp first
  obtain ⟨fits', lookups'⟩ := register_eq_ok.mp second
  have agree : ∀ name, q.names name = true → q'.names name = true →
      q.recordFields = q'.recordFields := by
    intro name names names'
    have stands := lookups name
    rw [afterwards, if_pos names] at stands
    exact (q.leave_fields name _).symm.trans (fits' name _ names' stands)
  have earlier : registry.Fits q' := by
    intro name known names' stands
    by_cases names : q.names name = true
    · exact (fits name known names stands).trans (agree name names names')
    · apply fits' name known names'
      rw [lookups, afterwards, if_neg names, stands]
  obtain ⟨next', accepted, between⟩ := register_fits earlier
  refine ⟨next', accepted, register_eq_ok.mpr ⟨?_, ?_⟩⟩
  · intro name known names stands
    rw [between, afterwards] at stands
    split at stands
    next names' =>
      rw [← Option.some.inj stands, q'.leave_fields]
      exact (agree name names names').symm
    next => exact fits name known names stands
  · intro name
    rw [lookups', afterwards, afterwards, lookups, between, afterwards, afterwards]
    split_ifs with names' names
    · rw [q.leave_comm (agree name names names')]
    · rfl
    · rfl
    · rfl

theorem register_again (first : register registry q.shape q.fields = .ok next) :
    register next q.shape q.fields = .ok next := by
  obtain ⟨-, lookups⟩ := register_eq_ok.mp first
  apply register_eq_ok.mpr
  constructor
  · intro name known names stands
    rw [lookups, afterwards, if_pos names] at stands
    rw [← Option.some.inj stands, q.leave_fields]
  · intro name
    rw [afterwards, lookups, afterwards]
    split_ifs with names
    · rw [q.leave_again]
    · rfl

/-- Registers requests in order. One that is refused leaves the registry to the next. The accepted
requests, and the registry in the end. -/
def registerAll : List Request → Registry → List Request × Registry
  | [], registry => ([], registry)
  | q :: r, registry =>
    match register registry q.shape q.fields with
    | .error _ => registerAll r registry
    | .ok next =>
      let (accepted, last) := registerAll r next
      (q :: accepted, last)

/-- What requests say of a record: the first one for it gives its fields, and its flag is set if
one of them needs it. -/
def history (name : Text) (accepted : List Request) : Option Record :=
  (accepted.find? (·.names name)).map fun first =>
    ⟨name, first.recordFields, accepted.any (·.flags name)⟩

theorem registerAll_refused {r : List Request} {e : Error}
    (refused : register registry q.shape q.fields = .error e) :
    registerAll (q :: r) registry = registerAll r registry := by
  rw [registerAll, refused]

theorem registerAll_accepted {r : List Request}
    (accepted : register registry q.shape q.fields = .ok next) :
    registerAll (q :: r) registry = (q :: (registerAll r next).1, (registerAll r next).2) := by
  rw [registerAll, accepted]

theorem registerAll_append (a b : List Request) (registry : Registry) :
    registerAll (a ++ b) registry =
      ((registerAll a registry).1 ++ (registerAll b (registerAll a registry).2).1,
        (registerAll b (registerAll a registry).2).2) := by
  fun_induction registerAll a registry with
  | case1 => rfl
  | case2 q r registry e refused ih => rw [List.cons_append, registerAll_refused refused, ih]
  | case3 q r registry next registered accepted last rest ih =>
    rw [rest] at ih
    rw [List.cons_append, registerAll_accepted registered, ih]
    rfl

theorem registerAll_sublist (requests : List Request) (registry : Registry) :
    (registerAll requests registry).1.Sublist requests := by
  fun_induction registerAll requests registry with
  | case1 => exact .slnil
  | case2 q r registry e refused ih => exact ih.cons q
  | case3 q r registry next registered accepted last rest ih =>
    rw [rest] at ih
    exact ih.cons_cons q

theorem registerAll_grows (requests : List Request) (named : registry.Named) :
    (registerAll requests registry).2.Named ∧
      registry.Grows (registerAll requests registry).2 := by
  fun_induction registerAll requests registry with
  | case1 => exact ⟨named, .refl _⟩
  | case2 q r registry e refused ih => exact ih named
  | case3 q r registry next registered accepted last rest ih =>
    obtain ⟨named', grows⟩ := register_grows named registered
    obtain ⟨named'', grows'⟩ := ih named'
    rw [rest] at named'' grows'
    exact ⟨named'', grows.trans grows'⟩

/-- One more accepted request in the history of a record. -/
theorem history_snoc {name : Text} {accepted : List Request}
    (fits : ∀ known, q.names name = true → history name accepted = some known →
      known.fields = q.recordFields) :
    history name (accepted ++ [q]) =
      if q.names name then some (q.leave name (history name accepted))
      else history name accepted := by
  cases earlier : accepted.find? (·.names name) with
  | none =>
    have unflagged : accepted.any (·.flags name) = false := by
      rw [List.any_eq_false]
      intro p member
      have other : p.names name = false := by simpa using List.find?_eq_none.mp earlier p member
      simp [Request.flags_of_not_names other]
    cases names : q.names name with
    | false => simp [history, earlier, names]
    | true => simp [history, earlier, names, unflagged, Request.leave]
  | some first =>
    cases names : q.names name with
    | false => simp [history, earlier, Request.flags_of_not_names names]
    | true =>
      have stands : history name accepted =
          some ⟨name, first.recordFields, accepted.any (·.flags name)⟩ := by
        rw [history, earlier]
        rfl
      have same : first.recordFields = q.recordFields := fits _ names stands
      simp [history, earlier, Request.leave, same]

/-- The invariant of a run: the registry is the history of the requests accepted so far. -/
theorem registerAll_history (requests : List Request) {earlier : List Request}
    (start : ∀ name, Dictionary.get? registry name = history name earlier) (name : Text) :
    Dictionary.get? (registerAll requests registry).2 name =
      history name (earlier ++ (registerAll requests registry).1) := by
  fun_induction registerAll requests registry generalizing earlier with
  | case1 => simpa using start name
  | case2 q r registry e refused ih => exact ih start
  | case3 q r registry next registered accepted last rest ih =>
    obtain ⟨fits, lookups⟩ := register_eq_ok.mp registered
    have step : ∀ name, Dictionary.get? next name = history name (earlier ++ [q]) := by
      intro name
      rw [lookups, afterwards, start, history_snoc]
      intro known names stands
      exact fits name known names ((start name).trans stands)
    have later := ih step
    rw [rest] at later
    simpa using later

theorem get?_registerAll (requests : List Request) (name : Text) :
    Dictionary.get? (registerAll requests Dictionary.empty).2 name =
      history name (registerAll requests Dictionary.empty).1 := by
  have start : ∀ name, Dictionary.get? (Dictionary.empty : Registry) name = history name [] :=
    fun _ => rfl
  exact registerAll_history requests start name

theorem registerAll_cons {r : List Request} :
    registerAll (q :: r) registry = (q :: r, last) ↔
      ∃ next, register registry q.shape q.fields = .ok next ∧ registerAll r next = (r, last) := by
  cases registered : register registry q.shape q.fields with
  | error e =>
    rw [registerAll_refused registered]
    constructor
    · intro all
      have shorter := (registerAll_sublist r registry).length_le
      rw [all, List.length_cons] at shorter
      omega
    · intro accepted
      obtain ⟨next, other, -⟩ := accepted
      cases other
  | ok next =>
    rw [registerAll_accepted registered]
    simp [Prod.ext_iff]

theorem registerAll_perm {requests requests' : List Request} (perm : requests.Perm requests')
    (all : registerAll requests registry = (requests, last)) :
    registerAll requests' registry = (requests', last) := by
  induction perm generalizing registry with
  | nil => exact all
  | cons q _ ih =>
    obtain ⟨next, registered, rest⟩ := registerAll_cons.mp all
    exact registerAll_cons.mpr ⟨next, registered, ih rest⟩
  | swap q q' r =>
    obtain ⟨next, first, rest⟩ := registerAll_cons.mp all
    obtain ⟨next', second, rest'⟩ := registerAll_cons.mp rest
    obtain ⟨between, first', second'⟩ := register_comm first second
    exact registerAll_cons.mpr ⟨between, first', registerAll_cons.mpr ⟨next', second', rest'⟩⟩
  | trans _ _ ih ih' => exact ih' (ih all)

theorem registerAll_repeated {before after : List Request}
    (all : registerAll (before ++ after) registry = (before ++ after, last))
    (member : q ∈ before ++ after) :
    registerAll (before ++ q :: after) registry = (before ++ q :: after, last) := by
  have front := List.perm_cons_erase member
  obtain ⟨next, registered, rest⟩ := registerAll_cons.mp (registerAll_perm front all)
  have twice : registerAll (q :: q :: (before ++ after).erase q) registry =
      (q :: q :: (before ++ after).erase q, last) :=
    registerAll_cons.mpr ⟨next, registered,
      registerAll_cons.mpr ⟨next, register_again registered, rest⟩⟩
  exact registerAll_perm ((front.symm.cons q).trans List.perm_middle.symm) twice

/-- The registry is the history of the accepted requests: a record keeps the fields of the first
one, and has its flag from the first one that needs it. A refused request leaves no trace. Where all
requests are accepted their order does not matter, and neither does repeating one of them. -/
theorem registerAll_accumulates (requests : List Request) :
    let accepted := (registerAll requests Dictionary.empty).1
    let last := (registerAll requests Dictionary.empty).2
    (∀ name, Dictionary.get? last name = history name accepted) ∧
    (∀ before after, before ++ after = requests →
      Grows (registerAll before Dictionary.empty).2 last) ∧
    (∀ before q after e,
      register (registerAll before Dictionary.empty).2 q.shape q.fields = .error e →
      registerAll (before ++ q :: after) Dictionary.empty =
        registerAll (before ++ after) Dictionary.empty) ∧
    ∀ start, (registerAll requests start).1 = requests →
      (∀ requests', requests.Perm requests' →
        registerAll requests' start = (requests', (registerAll requests start).2)) ∧
      ∀ before after, before ++ after = requests → ∀ q ∈ requests,
        registerAll (before ++ q :: after) start =
          (before ++ q :: after, (registerAll requests start).2) := by
  intro accepted last
  refine ⟨get?_registerAll requests, ?_, ?_, ?_⟩
  · intro before after whole
    have behind := registerAll_append before after Dictionary.empty
    rw [whole] at behind
    have start := (registerAll_grows before named_empty).1
    have grows := (registerAll_grows after start).2
    rwa [← congrArg Prod.snd behind] at grows
  · intro before q after e refused
    rw [registerAll_append, registerAll_append, registerAll_refused refused]
  · intro start all
    have whole : registerAll requests start = (requests, (registerAll requests start).2) :=
      Prod.ext all rfl
    constructor
    · intro requests' perm
      exact registerAll_perm perm whole
    · intro before after parts q member
      subst parts
      exact registerAll_repeated whole member

/-- A collection, a single record and a wrapper, the first two for one name. -/
def sampleRequests : List Request :=
  [⟨.recordCollection "User", [⟨"int64", "id"⟩, ⟨"string", "name"⟩]⟩,
    ⟨.condScalar "CondString", [⟨"string", "name"⟩]⟩,
    ⟨.condRecord "User", [⟨"int64_t", "id"⟩, ⟨"std::string", "name"⟩]⟩]

theorem sample_accumulates :
    (registerAll sampleRequests Dictionary.empty).1 = sampleRequests ∧
      registerAll sampleRequests.reverse Dictionary.empty =
        (sampleRequests.reverse, (registerAll sampleRequests Dictionary.empty).2) ∧
      Dictionary.get? (registerAll sampleRequests Dictionary.empty).2 "User" =
        some ⟨"User", [⟨"int64_t", "id"⟩, ⟨"std::string", "name"⟩], true⟩ := by
  obtain ⟨histories, -, -, all⟩ := registerAll_accumulates sampleRequests
  have accepted : (registerAll sampleRequests Dictionary.empty).1 = sampleRequests := by
    decide +kernel
  refine ⟨accepted, (all _ accepted).1 _ (List.reverse_perm _).symm, ?_⟩
  rw [histories, accepted]
  decide +kernel

end Registry
end QueryWeaver
