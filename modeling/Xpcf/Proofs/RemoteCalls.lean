import Xpcf.Model.RemoteCalls
import Xpcf.Proofs.FieldAgreement

/-!
# A remote call is a local one

Where the generators agree on the messages of a method, what is set in a message is
what the other side reads of it (`getField_of_agree`).  So the call of the proxy leaves
the variables of its caller as the call of the component would, and returns the same
(`remoteCall_eq`); the server is asked for the format that the proxy was given.
-/

namespace Xpcf.GrpcGen

open CodeLib
open ProxyGenerator (ProxyMember memberVariables assignsMember)

/-! ## Entries of tables -/

section Entries

variable {K V : Type} [DecidableEq K]

theorem insertAll_of_notMem (t : Table K V) {entries : List (K × V)} {k : K}
    (h : k ∉ entries.map Prod.fst) : t.insertAll entries k = t k := by
  have hnone : entries.reverse.lookup k = none := by
    refine List.lookup_eq_none_iff.mpr fun e he => bne_iff_ne.mpr ?_
    rintro rfl
    exact h (List.mem_map_of_mem (List.mem_reverse.mp he))
  rw [Table.insertAll_apply, hnone, Option.none_or]

theorem insertAll_of_mem (t : Table K V) {entries : List (K × V)}
    (h : (entries.map Prod.fst).Nodup) {k : K} {v : V} (hin : (k, v) ∈ entries) :
    t.insertAll entries k = some v := by
  induction entries generalizing t with
  | nil => cases hin
  | cons entry entries ih =>
    obtain ⟨hnew, hrest⟩ := List.nodup_cons.mp h
    show (t.insert entry.1 entry.2).insertAll entries k = some v
    rcases List.mem_cons.mp hin with rfl | hin1
    · rw [insertAll_of_notMem _ hnew, Table.insert_self]
    · exact ih _ hrest hin1

/-- Entries with different keys may come in any order. -/
theorem insertAll_perm (t : Table K V) {entries entries1 : List (K × V)}
    (h : (entries.map Prod.fst).Nodup) (hperm : entries.Perm entries1) :
    t.insertAll entries = t.insertAll entries1 := by
  have h1 : (entries1.map Prod.fst).Nodup := (hperm.map _).nodup_iff.mp h
  funext k
  by_cases hk : k ∈ entries.map Prod.fst
  · obtain ⟨⟨k1, v⟩, hin, rfl⟩ := List.mem_map.mp hk
    rw [insertAll_of_mem t h hin, insertAll_of_mem t h1 (hperm.mem_iff.mp hin)]
  · rw [insertAll_of_notMem t hk,
      insertAll_of_notMem t fun hk1 => hk ((hperm.map Prod.fst).mem_iff.mpr hk1)]

/-- Entries whose value is a function of the key. -/
theorem insertAll_map_apply (t : Table K V) (keys : List K) (f : K → V) (k : K) :
    t.insertAll (keys.map fun k => (k, f k)) k = if k ∈ keys then some (f k) else t k := by
  induction keys generalizing t with
  | nil => rfl
  | cons key keys ih =>
    show (t.insert key (f key)).insertAll (keys.map fun k => (k, f k)) k = _
    rw [ih, Table.insert_apply]
    by_cases hin : k ∈ keys
    · rw [if_pos hin, if_pos (List.mem_cons_of_mem _ hin)]
    · rw [if_neg hin]
      by_cases heq : k = key
      · rw [if_pos heq, if_pos (heq ▸ List.mem_cons_self), heq]
      · rw [if_neg heq, if_neg fun h => (List.mem_cons.mp h).elim heq hin]

end Entries

/-! ## Setting and reading fields -/

section Fields

variable {platform : Platform} {fields : List ProtoField}

theorem fieldOf_some {accessor : String} {field : ProtoField}
    (h : fieldOf fields accessor = some field) : field ∈ fields ∧ field.accessor = accessor := by
  have hfound := List.find?_some h
  exact ⟨List.mem_of_find?_eq_some h, of_decide_eq_true hfound⟩

theorem fieldOf_of_mem {accessor : String} (h : accessor ∈ fields.map ProtoField.accessor) :
    ∃ field, fieldOf fields accessor = some field := by
  obtain ⟨field, hfield, hname⟩ := List.mem_map.mp h
  have hsome : (fieldOf fields accessor).isSome :=
    List.find?_isSome.mpr ⟨field, hfield, decide_eq_true hname⟩
  exact Option.isSome_iff_exists.mp hsome

/-- Setters of different fields, each of which can take its value. -/
theorem setFields_ok {sets : List (FieldWrite × CppValue)}
    (hdiffer : (sets.map fun s => s.1.accessor).Nodup)
    (hsets : ∀ s ∈ sets, ∃ field x, fieldOf fields s.1.accessor = some field ∧
      s.1.encode field.typeName s.2 = some x) (msg : WireMessage) :
    ∃ msg1, setFields fields (sets.map fun s => (s.1, some s.2)) msg = some msg1 ∧
      (∀ s ∈ sets, ∃ field, fieldOf fields s.1.accessor = some field ∧
        s.1.encode field.typeName s.2 = msg1 s.1.accessor) ∧
      ∀ a, a ∉ sets.map (fun s => s.1.accessor) → msg1 a = msg a := by
  induction sets generalizing msg with
  | nil => exact ⟨msg, rfl, List.forall_mem_nil _, fun _ _ => rfl⟩
  | cons s sets ih =>
    obtain ⟨hnew, hdiffer1⟩ := List.nodup_cons.mp hdiffer
    obtain ⟨⟨field, x, hfield, hencode⟩, hrest⟩ := List.forall_mem_cons.mp hsets
    obtain ⟨msg1, hrun, hset, hframe⟩ := ih hdiffer1 hrest (msg.insert s.1.accessor x)
    have hfirst : setField fields msg s.1 s.2 = some (msg.insert s.1.accessor x) := by
      unfold setField
      rw [hfield]
      show (s.1.encode field.typeName s.2).bind _ = _
      rw [hencode]
      rfl
    refine ⟨msg1, ?_, List.forall_mem_cons.mpr ⟨⟨field, hfield, ?_⟩, hset⟩, fun a ha => ?_⟩
    · rw [List.map_cons, setFields]
      show (setField fields msg s.1 s.2).bind _ = _
      rw [hfirst]
      exact hrun
    · rw [hframe _ hnew, hencode, Table.insert_self]
    · rw [List.map_cons, List.mem_cons, not_or] at ha
      rw [hframe a ha.2, Table.insert_ne _ _ ha.1]

/-- The sides agree on a message: what was set is read again. -/
theorem getField_of_agree {sets : List (FieldWrite × CppValue)} {reads : List FieldRead}
    (h : FieldsAgree platform fields (sets.map Prod.fst) reads)
    (hholds : ∀ s ∈ sets, (platform.contentKind s.1.content).Holds s.2) :
    ∃ msg, setFields fields (sets.map fun s => (s.1, some s.2)) Table.empty = some msg ∧
      ∀ r ∈ reads, ∀ s ∈ sets, s.1.accessor = r.accessor →
        getField platform fields msg r = some s.2 := by
  have hsetsDiffer : (sets.map fun s => s.1.accessor).Nodup := by
    have hperm := h.writes_declared
    rw [List.map_map] at hperm
    exact hperm.nodup_iff.mpr h.accessors_differ
  have hdeclared : ∀ s ∈ sets, s.1.accessor ∈ fields.map ProtoField.accessor := fun s hs =>
    h.writes_declared.mem_iff.mp (List.mem_map_of_mem (List.mem_map_of_mem hs))
  have hreader : ∀ s ∈ sets, ∃ r ∈ reads, r.accessor = s.1.accessor := by
    intro s hs
    have hin := h.reads_declared.mem_iff.mpr (hdeclared s hs)
    exact List.mem_map.mp hin
  have hundone : ∀ s ∈ sets, ∀ r ∈ reads, s.1.accessor = r.accessor → ∀ field ∈ fields,
      field.accessor = s.1.accessor → ∃ x, s.1.encode field.typeName s.2 = some x ∧
        r.decode platform x = some s.2 := by
    intro s hs r hr hname field hfield haccessor
    obtain ⟨-, hundone⟩ := h.undone field hfield s.1 (List.mem_map_of_mem hs) r hr
      haccessor.symm (hname.symm.trans haccessor.symm)
    exact hundone s.2 (hholds s hs)
  have hsets : ∀ s ∈ sets, ∃ field x, fieldOf fields s.1.accessor = some field ∧
      s.1.encode field.typeName s.2 = some x := by
    intro s hs
    obtain ⟨field, hfind⟩ := fieldOf_of_mem (hdeclared s hs)
    obtain ⟨hfield, haccessor⟩ := fieldOf_some hfind
    obtain ⟨r, hr, hname⟩ := hreader s hs
    obtain ⟨x, hencode, -⟩ := hundone s hs r hr hname.symm field hfield haccessor
    exact ⟨field, x, hfind, hencode⟩
  obtain ⟨msg, hrun, hset, -⟩ := setFields_ok hsetsDiffer hsets Table.empty
  refine ⟨msg, hrun, fun r hr s hs hname => ?_⟩
  obtain ⟨field, hfind, hvalue⟩ := hset s hs
  obtain ⟨hfield, haccessor⟩ := fieldOf_some hfind
  obtain ⟨x, hencode, hdecode⟩ := hundone s hs r hr hname field hfield haccessor
  -- a value that was encoded shows that the field has a kind
  have hkind : ∃ kind, wireKind field.typeName = some kind := by
    unfold FieldWrite.encode at hencode
    split at hencode
    · obtain ⟨kind, hkind, -⟩ := Option.bind_eq_some_iff.mp hencode
      exact ⟨kind, hkind⟩
    · cases hencode
  obtain ⟨kind, hkind⟩ := hkind
  unfold getField
  rw [← hname, hfind]
  show (wireKind field.typeName).bind _ = _
  rw [hkind]
  show ((msg s.1.accessor).or kind.unset).bind _ = _
  rw [← hvalue, hencode, Option.some_or]
  exact hdecode

/-- Reads that all find a value. -/
theorem readFields_ok {msg : WireMessage} {assignments : List (FieldRead × String)}
    {value : FieldRead × String → CppValue}
    (h : ∀ a ∈ assignments, getField platform fields msg a.1 = some (value a)) (vars : Variables) :
    readFields platform fields msg assignments vars =
      some (vars.insertAll (assignments.map fun a => (a.2, value a))) := by
  induction assignments generalizing vars with
  | nil => rfl
  | cons a assignments ih =>
    obtain ⟨hfirst, hrest⟩ := List.forall_mem_cons.mp h
    rw [readFields]
    show (getField platform fields msg a.1).bind _ = _
    rw [hfirst]
    exact ih hrest _

end Fields

/-! ## The accesses of one parameter -/

namespace ProxyGenerator

theorem mem_bindInput {p : ParameterDescriptor} {w : FieldWrite} (h : w ∈ bindInput p) :
    w.accessor = accessorName p.name ∧ w.content = .value p.type.type := by
  unfold bindInput at h
  split at h
  all_goals
    rw [List.mem_singleton.mp h]
    exact ⟨rfl, rfl⟩

theorem exists_bindInput (p : ParameterDescriptor) : ∃ w, w ∈ bindInput p := by
  unfold bindInput
  split
  all_goals exact ⟨_, List.mem_singleton_self _⟩

theorem accessor_of_mem_bindOutput {p : ParameterDescriptor} {r : FieldRead}
    (h : r ∈ bindOutput p) : r.accessor = accessorName p.name :=
  Slot.accessor_of_mem Slot.reads_once (s := .output p) h

/-- An output that is no C string is read once. -/
theorem bindOutput_single {p : ParameterDescriptor} (h : p.type.type.kind ≠ .cString) :
    ∃ r, bindOutput p = [r] := by
  unfold bindOutput
  split
  all_goals first
    | exact ⟨_, rfl⟩
    | contradiction

theorem accessor_of_mem_bindReturn {assignable : Bool} {t : TypeDescriptor} {r : FieldRead}
    (h : r ∈ bindReturn assignable t) : r.accessor = returnAccessor :=
  (Slot.accessor_of_mem Slot.reads_once (s := .returnValue assignable t) h).trans
    (Slot.accessor_returnValue assignable t)

theorem bindReturn_single (assignable : Bool) {t : TypeDescriptor}
    (h : t.type.kind ≠ .stdString) : ∃ r, bindReturn assignable t = [r] := by
  unfold bindReturn
  split
  all_goals first
    | exact ⟨_, rfl⟩
    | contradiction

end ProxyGenerator

namespace ServerGenerator

theorem mem_bindInput {p : ParameterDescriptor} {r : FieldRead} (h : r ∈ bindInput p) :
    r.accessor = accessorName p.name ∧ p.direction ≠ .out := by
  unfold bindInput at h
  split at h
  · rename_i hio
    have hdirection : p.direction ≠ .out := by
      unfold ParameterDescriptor.direction
      rcases hio with hio | hio <;> rw [hio] <;> exact fun h => by cases h
    split at h
    all_goals
      rw [List.mem_singleton.mp h]
      exact ⟨rfl, hdirection⟩
  · cases h

theorem exists_bindInput {p : ParameterDescriptor} (hio : p.ioType ≠ .none)
    (h : p.direction ≠ .out) : ∃ r, r ∈ bindInput p := by
  unfold bindInput
  rw [if_pos ?_]
  · split
    all_goals exact ⟨_, List.mem_singleton_self _⟩
  · unfold ParameterDescriptor.direction at h
    cases heq : p.ioType with
    | none => exact absurd heq hio
    | «in» => exact .inl rfl
    | inout => exact .inr rfl
    | out =>
      rw [heq] at h
      exact absurd rfl h

theorem mem_bindOutput {p : ParameterDescriptor} {w : FieldWrite} (h : w ∈ bindOutput p) :
    w.accessor = accessorName p.name ∧ w.content = .value p.type.type ∧ p.direction ≠ .in := by
  unfold bindOutput at h
  split at h
  · rename_i hio
    have hdirection : p.direction ≠ .in := by
      unfold ParameterDescriptor.direction
      rcases hio with hio | hio <;> rw [hio] <;> exact fun h => by cases h
    split at h
    all_goals first
      | rw [List.mem_singleton.mp h]
      | cases h
    all_goals exact ⟨rfl, rfl, hdirection⟩
  · cases h

theorem exists_bindOutput {p : ParameterDescriptor} (hio : p.ioType ≠ .none)
    (h : p.direction ≠ .in) (hkind : p.type.type.kind ≠ .cString) : ∃ w, w ∈ bindOutput p := by
  unfold bindOutput
  rw [if_pos ?_]
  · split
    all_goals first
      | exact ⟨_, List.mem_singleton_self _⟩
      | contradiction
  · unfold ParameterDescriptor.direction at h
    cases heq : p.ioType with
    | none => exact absurd heq hio
    | «in» =>
      rw [heq] at h
      exact absurd rfl h
    | inout => exact .inl rfl
    | out => exact .inr rfl

theorem mem_bindReturn {t : TypeDescriptor} {w : FieldWrite} (h : w ∈ bindReturn t) :
    w.accessor = returnAccessor ∧ w.content = .value t.type := by
  refine ⟨(Slot.accessor_of_mem Slot.writes_once (s := .returnValue false t) h).trans
    (Slot.accessor_returnValue false t), ?_⟩
  unfold bindReturn at h
  split at h
  all_goals first
    | rw [List.mem_singleton.mp h]
    | cases h
  all_goals rfl

theorem exists_bindReturn {t : TypeDescriptor} (h : t.type.kind ≠ .stdString) :
    ∃ w, w ∈ bindReturn t := by
  unfold bindReturn
  split
  all_goals first
    | exact ⟨_, List.mem_singleton_self _⟩
    | contradiction

end ServerGenerator

/-! ## One call -/

/-- The value of a variable; a number where there is none. -/
def Variables.value (vars : Variables) (name : String) : CppValue :=
  (vars name).getD (.integer 0)

theorem Variables.value_of_some {vars : Variables} {name : String} {v : CppValue}
    (h : vars name = some v) : vars name = some (Variables.value vars name) := by
  unfold Variables.value
  rw [h]
  rfl

/-- The values that the method leaves have the types of its outputs. -/
def ReturnsTyped (platform : Platform) (m : MethodDescriptor) (impl : Implementation) : Prop :=
  ∀ arguments, List.Forall₂ (fun p v => (platform.typeKind p.type.type).Holds v) m.givenParams
      (impl arguments).outputs ∧
    (m.returnsVoid = false → ∃ v, (impl arguments).returned = some v ∧
      (platform.typeKind m.returnType.type).Holds v)

/-- The inputs have values of their types. -/
def InputsTyped (platform : Platform) (m : MethodDescriptor) (vars : Variables) : Prop :=
  ∀ p ∈ m.takenParams, ∃ v, vars p.name = some v ∧ (platform.typeKind p.type.type).Holds v

/-- A method on whose messages the generated components agree, and whose outputs all
have a field. -/
structure Carried (platform : Platform) (members : Table String ProxyMember)
    (request response : List ProtoField) (m : MethodDescriptor) : Prop where
  request : FieldsAgree platform request (ProxyGenerator.requestWrites m)
    (ServerGenerator.requestReads m)
  response : FieldsAgree platform response (ServerGenerator.responseWrites m)
    (ProxyGenerator.responseReads members m)
  unary : m.streamingType = .none
  names : (m.params.map (·.name)).Nodup
  directions : ∀ p ∈ m.params, p.ioType ≠ .none
  outputs : ∀ p ∈ m.params, p.direction ≠ .in → p.type.type.kind ≠ .cString
  returned : m.returnsVoid = false → m.returnType.type.kind ≠ .stdString

namespace MethodDescriptor

variable {m : MethodDescriptor}

theorem mem_takenParams {p : ParameterDescriptor} :
    p ∈ m.takenParams ↔ p ∈ m.params ∧ p.direction ≠ .out := by
  unfold takenParams
  rw [List.mem_filter, decide_eq_true_eq]

theorem mem_givenParams {p : ParameterDescriptor} :
    p ∈ m.givenParams ↔ p ∈ m.params ∧ p.direction ≠ .in := by
  unfold givenParams
  rw [List.mem_filter, decide_eq_true_eq]

theorem givenParams_perm (m : MethodDescriptor) :
    m.givenParams.Perm (m.inoutParams ++ m.outParams) := by
  have hfilter := m.perm_params.filter fun p => p.direction ≠ .in
  have hin : m.inParams.filter (fun p => p.direction ≠ .in) = [] := by
    refine List.filter_eq_nil_iff.mpr fun p hp => ?_
    rw [(mem_inParams.mp hp).2]
    decide
  have hinout : m.inoutParams.filter (fun p => p.direction ≠ .in) = m.inoutParams := by
    refine List.filter_eq_self.mpr fun p hp => ?_
    rw [(mem_inoutParams.mp hp).2]
    rfl
  have hout : m.outParams.filter (fun p => p.direction ≠ .in) = m.outParams := by
    refine List.filter_eq_self.mpr fun p hp => ?_
    rw [(mem_outParams.mp hp).2]
    rfl
  rw [List.filter_append, List.filter_append, hin, hinout, hout, List.nil_append] at hfilter
  exact hfilter

/-- The arguments of a call are those of any variables that have the same inputs. -/
theorem mapM_value {params : List ParameterDescriptor} {vars : Variables}
    (h : ∀ p ∈ params, ∃ v, vars p.name = some v) :
    params.mapM (fun p => vars p.name) =
      some (params.map fun p => Variables.value vars p.name) := by
  induction params with
  | nil => rfl
  | cons p params ih =>
    obtain ⟨⟨v, hv⟩, hrest⟩ := List.forall_mem_cons.mp h
    rw [List.mapM_cons, ih hrest, Variables.value_of_some hv]
    rfl

/-- The arguments of a call on the variables. -/
def argumentsOf (m : MethodDescriptor) (vars : Variables) : List CppValue :=
  m.takenParams.map fun p => Variables.value vars p.name

theorem argumentsOf_congr {vars vars1 : Variables}
    (h : ∀ p ∈ m.takenParams, vars1 p.name = vars p.name) :
    m.argumentsOf vars1 = m.argumentsOf vars := by
  refine List.map_congr_left fun p hp => ?_
  unfold Variables.value
  rw [h p hp]

/-- What a call leaves in the variables of the parameters that the method writes. -/
def givenEntries (m : MethodDescriptor) (outputs : List CppValue) : List (String × CppValue) :=
  (m.givenParams.zip outputs).map fun e => (e.1.name, e.2)

theorem localCall_eq {impl : Implementation} {vars : Variables}
    (h : ∀ p ∈ m.takenParams, ∃ v, vars p.name = some v) :
    m.localCall impl vars =
      some (vars.insertAll (m.givenEntries (impl (m.argumentsOf vars)).outputs),
        if m.returnsVoid then none else (impl (m.argumentsOf vars)).returned) := by
  unfold localCall
  rw [mapM_value h]
  rfl

section GivenEntries

variable {outputs : List CppValue} (hlength : m.givenParams.length = outputs.length)

include hlength

theorem map_fst_givenEntries :
    (m.givenEntries outputs).map Prod.fst = m.givenParams.map (·.name) := by
  unfold givenEntries
  rw [List.map_map]
  show (m.givenParams.zip outputs).map ((·.name) ∘ Prod.fst) = _
  rw [← List.map_map, List.map_fst_zip hlength.le]

theorem nodup_givenEntries (hnames : (m.params.map (·.name)).Nodup) :
    ((m.givenEntries outputs).map Prod.fst).Nodup := by
  rw [map_fst_givenEntries hlength]
  exact hnames.sublist (List.filter_sublist.map _)

/-- After the call the variable of a parameter holds the output that is given in it. -/
theorem insertAll_givenEntries (hnames : (m.params.map (·.name)).Nodup) (vars : Variables) :
    ∀ e ∈ m.givenParams.zip outputs,
      vars.insertAll (m.givenEntries outputs) e.1.name = some e.2 := fun _ he =>
  insertAll_of_mem vars (nodup_givenEntries hlength hnames) (List.mem_map_of_mem he)

theorem exists_output {p : ParameterDescriptor} (hp : p ∈ m.givenParams) :
    ∃ v, (p, v) ∈ m.givenParams.zip outputs := by
  rw [← List.map_fst_zip hlength.le] at hp
  obtain ⟨e, he, rfl⟩ := List.mem_map.mp hp
  exact ⟨e.2, he⟩

/-- The variables after the call say which entries these were. -/
theorem givenEntries_eq (hnames : (m.params.map (·.name)).Nodup) (vars : Variables) :
    m.givenEntries outputs = m.givenParams.map fun p =>
      (p.name, Variables.value (vars.insertAll (m.givenEntries outputs)) p.name) := by
  have hvalues : m.givenEntries outputs = (m.givenParams.zip outputs).map fun e =>
      (e.1.name, Variables.value (vars.insertAll (m.givenEntries outputs)) e.1.name) := by
    refine List.map_congr_left fun e he => Prod.ext rfl ?_
    show e.2 = Variables.value _ e.1.name
    unfold Variables.value
    rw [insertAll_givenEntries hlength hnames vars e he]
    rfl
  refine hvalues.trans ?_
  show (m.givenParams.zip outputs).map ((fun p => (p.name, Variables.value _ p.name)) ∘ Prod.fst)
    = _
  rw [← List.map_map, List.map_fst_zip hlength.le]

end GivenEntries

end MethodDescriptor

section Call

variable {platform : Platform} {members : Table String ProxyMember}
  {request response : List ProtoField} {m : MethodDescriptor}
  (h : Carried platform members request response m)

section Request

variable {compression : CppValue} {vars : Variables}

/-- The setters of the request with the values that they take. -/
def requestValues (m : MethodDescriptor) (compression : CppValue) (vars : Variables) :
    List (FieldWrite × CppValue) :=
  (if m.sendsCompression then
    [(⟨compressionAccessor, .compressionFormat, .staticCast "int32_t", .generated⟩,
      compression)] else []) ++
  (m.inParams ++ m.inoutParams).flatMap fun p =>
    (ProxyGenerator.bindInput p).map fun w => (w, Variables.value vars p.name)

theorem map_fst_requestValues (compression : CppValue) (vars : Variables) :
    (requestValues m compression vars).map Prod.fst = ProxyGenerator.requestWrites m := by
  have hinputs : ((m.inParams ++ m.inoutParams).flatMap fun p => (ProxyGenerator.bindInput p).map
      fun w => (w, Variables.value vars p.name)).map Prod.fst =
      (m.inParams ++ m.inoutParams).flatMap ProxyGenerator.bindInput := by
    rw [List.map_flatMap]
    refine List.flatMap_congr fun p _ => ?_
    rw [List.map_map]
    exact List.map_id _
  unfold requestValues ProxyGenerator.requestWrites
  rw [List.map_append, hinputs]
  congr 1
  · cases m.sendsCompression <;> rfl
  · cases hin : m.hasInputs with
    | true => rw [if_pos rfl, List.flatMap_append]
    | false =>
      rw [MethodDescriptor.hasInputs_eq_false_iff.mp hin]
      rfl

theorem requestSets_eq (hvars : InputsTyped platform m vars) :
    ProxyGenerator.requestSets m compression vars =
      (requestValues m compression vars).map fun s => (s.1, some s.2) := by
  have hinputs : ((m.inParams ++ m.inoutParams).flatMap fun p => (ProxyGenerator.bindInput p).map
      fun w => (w, vars p.name)) =
      ((m.inParams ++ m.inoutParams).flatMap fun p => (ProxyGenerator.bindInput p).map
        fun w => (w, Variables.value vars p.name)).map fun s => (s.1, some s.2) := by
    rw [List.map_flatMap]
    refine List.flatMap_congr fun p hp => ?_
    obtain ⟨v, hv, -⟩ := hvars p (MethodDescriptor.mem_takenParams.mpr
      (MethodDescriptor.mem_inputs.mp hp))
    rw [Variables.value_of_some hv, List.map_map]
    rfl
  unfold ProxyGenerator.requestSets requestValues
  rw [List.map_append, hinputs]
  congr 1
  · cases m.sendsCompression <;> rfl
  · cases hin : m.hasInputs with
    | true => rfl
    | false =>
      rw [MethodDescriptor.hasInputs_eq_false_iff.mp hin]
      rfl

/-- The setters of the request are given values of their types. -/
theorem holds_requestValues
    (hcompression : (platform.contentKind .compressionFormat).Holds compression)
    (hvars : InputsTyped platform m vars) : ∀ s ∈ requestValues m compression vars,
      (platform.contentKind s.1.content).Holds s.2 := by
  intro s hs
  rcases List.mem_append.mp hs with hfirst | hinput
  · split at hfirst
    · rw [List.mem_singleton.mp hfirst]
      exact hcompression
    · cases hfirst
  · obtain ⟨p, hp, hin⟩ := List.mem_flatMap.mp hinput
    obtain ⟨w, hw, rfl⟩ := List.mem_map.mp hin
    obtain ⟨v, hv, htyped⟩ := hvars p (MethodDescriptor.mem_takenParams.mpr
      (MethodDescriptor.mem_inputs.mp hp))
    rw [(ProxyGenerator.mem_bindInput hw).2]
    unfold Variables.value
    rw [hv]
    exact htyped

include h

/-- The request is filled, and the server reads from it what the proxy was given. -/
theorem request_carried (hcompression : (platform.contentKind .compressionFormat).Holds compression)
    (hvars : InputsTyped platform m vars) :
    ∃ msg, setFields request (ProxyGenerator.requestSets m compression vars) Table.empty =
        some msg ∧
      ServerGenerator.askedCompression platform request m msg =
        some (if m.sendsCompression then some compression else none) ∧
      ∃ svars, readFields platform request msg (ServerGenerator.requestAssignments m)
          Table.empty = some svars ∧ ∀ p ∈ m.takenParams, svars p.name = vars p.name := by
  have hagree := h.request
  rw [← map_fst_requestValues compression vars] at hagree
  obtain ⟨msg, hset, hget⟩ := getField_of_agree hagree (holds_requestValues hcompression hvars)
  refine ⟨msg, (requestSets_eq hvars).symm ▸ hset, ?_, ?_⟩
  · unfold ServerGenerator.askedCompression
    cases hsends : m.sendsCompression with
    | false => rfl
    | true =>
      have hvalue := hget
        ⟨compressionAccessor, .compressionFormat, .staticCast "xpcf::grpcCompressType",
          .generated⟩ (by
          unfold ServerGenerator.requestReads
          rw [hsends]
          exact List.mem_cons_self)
        (⟨compressionAccessor, .compressionFormat, .staticCast "int32_t", .generated⟩,
          compression) (by
          unfold requestValues
          rw [hsends]
          exact List.mem_cons_self) rfl
      rw [if_pos rfl, hvalue]
      rfl
  · have hvalues : ∀ a ∈ ServerGenerator.requestAssignments m,
        getField platform request msg a.1 = some (Variables.value vars a.2) := by
      intro a ha
      obtain ⟨p, hp, hin⟩ := List.mem_flatMap.mp ha
      obtain ⟨r, hr, rfl⟩ := List.mem_map.mp hin
      obtain ⟨haccessor, hdirection⟩ := ServerGenerator.mem_bindInput hr
      obtain ⟨w, hw⟩ := ProxyGenerator.exists_bindInput p
      refine hget r ?_ (w, Variables.value vars p.name) ?_
        ((ProxyGenerator.mem_bindInput hw).1.trans haccessor.symm)
      · exact List.mem_append_right _ (List.mem_flatMap.mpr ⟨p, hp, hr⟩)
      · exact List.mem_append_right _ (List.mem_flatMap.mpr
          ⟨p, MethodDescriptor.mem_inputs.mpr ⟨hp, hdirection⟩, List.mem_map_of_mem hw⟩)
    refine ⟨_, readFields_ok hvalues _, fun p hp => ?_⟩
    obtain ⟨hmem, hdirection⟩ := MethodDescriptor.mem_takenParams.mp hp
    obtain ⟨r, hr⟩ := ServerGenerator.exists_bindInput (h.directions p hmem) hdirection
    have hname : p.name ∈ (ServerGenerator.requestAssignments m).map Prod.snd :=
      List.mem_map.mpr ⟨(r, p.name), List.mem_flatMap.mpr ⟨p, hmem, List.mem_map_of_mem hr⟩, rfl⟩
    have hentries : ((ServerGenerator.requestAssignments m).map fun a =>
        (a.2, Variables.value vars a.2)) =
        ((ServerGenerator.requestAssignments m).map Prod.snd).map fun name =>
          (name, Variables.value vars name) := by
      rw [List.map_map]
      rfl
    obtain ⟨v, hv, -⟩ := hvars p hp
    rw [hentries, insertAll_map_apply, if_pos hname, Variables.value_of_some hv]

end Request

section Response

variable {vars svars : Variables} {returned : Option CppValue}

/-- The setters of the response with the values that they take. -/
def responseValues (m : MethodDescriptor) (vars : Variables) (v : CppValue) :
    List (FieldWrite × CppValue) :=
  (m.params.flatMap fun p => (ServerGenerator.bindOutput p).map fun w =>
    (w, Variables.value vars p.name)) ++
  if m.returnsVoid then [] else (ServerGenerator.bindReturn m.returnType).map fun w => (w, v)

theorem map_fst_responseValues (vars : Variables) (v : CppValue) :
    (responseValues m vars v).map Prod.fst = ServerGenerator.responseWrites m := by
  have houtputs : (m.params.flatMap fun p => (ServerGenerator.bindOutput p).map fun w =>
      (w, Variables.value vars p.name)).map Prod.fst =
      m.params.flatMap ServerGenerator.bindOutput := by
    rw [List.map_flatMap]
    refine List.flatMap_congr fun p _ => ?_
    rw [List.map_map]
    exact List.map_id _
  unfold responseValues ServerGenerator.responseWrites
  rw [List.map_append, houtputs]
  congr 1
  cases m.returnsVoid with
  | true => rfl
  | false =>
    rw [if_neg Bool.false_ne_true, if_neg Bool.false_ne_true, List.map_map]
    exact List.map_id _

theorem responseSets_eq {v : CppValue} (hvars : ∀ p ∈ m.givenParams, ∃ v, vars p.name = some v)
    (hreturned : m.returnsVoid = false → returned = some v) :
    ServerGenerator.responseSets m vars returned =
      (responseValues m vars v).map fun s => (s.1, some s.2) := by
  have houtputs : (m.params.flatMap fun p => (ServerGenerator.bindOutput p).map fun w =>
      (w, vars p.name)) = (m.params.flatMap fun p => (ServerGenerator.bindOutput p).map fun w =>
        (w, Variables.value vars p.name)).map fun s => (s.1, some s.2) := by
    rw [List.map_flatMap]
    refine List.flatMap_congr fun p hp => ?_
    rw [List.map_map]
    refine List.map_congr_left fun w hw => ?_
    obtain ⟨v, hv⟩ := hvars p (MethodDescriptor.mem_givenParams.mpr
      ⟨hp, (ServerGenerator.mem_bindOutput hw).2.2⟩)
    exact Prod.ext rfl (Variables.value_of_some hv)
  unfold ServerGenerator.responseSets responseValues
  rw [List.map_append, houtputs]
  congr 1
  cases hvoid : m.returnsVoid with
  | true => rfl
  | false =>
    rw [if_neg Bool.false_ne_true, if_neg Bool.false_ne_true, hreturned hvoid, List.map_map]
    rfl

/-- The setters of the response are given values of their types. -/
theorem holds_responseValues {v : CppValue}
    (hvars : ∀ p ∈ m.givenParams, ∃ v, svars p.name = some v ∧
      (platform.typeKind p.type.type).Holds v)
    (hreturned : m.returnsVoid = false → (platform.typeKind m.returnType.type).Holds v) :
    ∀ s ∈ responseValues m svars v, (platform.contentKind s.1.content).Holds s.2 := by
  intro s hs
  rcases List.mem_append.mp hs with houtput | hlast
  · obtain ⟨p, hp, hin⟩ := List.mem_flatMap.mp houtput
    obtain ⟨w, hw, rfl⟩ := List.mem_map.mp hin
    obtain ⟨-, hcontent, hdirection⟩ := ServerGenerator.mem_bindOutput hw
    obtain ⟨v, hv, htyped⟩ := hvars p (MethodDescriptor.mem_givenParams.mpr ⟨hp, hdirection⟩)
    rw [hcontent]
    unfold Variables.value
    rw [hv]
    exact htyped
  · split at hlast
    · cases hlast
    · rename_i hvoid
      obtain ⟨w, hw, rfl⟩ := List.mem_map.mp hlast
      rw [(ServerGenerator.mem_bindReturn hw).2]
      exact hreturned (Bool.eq_false_iff.mpr hvoid)

/-- A proxy that looks for no outputs has none. -/
theorem responseAssignments_eq (m : MethodDescriptor) : ProxyGenerator.responseAssignments m =
    (m.inoutParams ++ m.outParams).flatMap fun p =>
      (ProxyGenerator.bindOutput p).map fun r => (r, p.name) := by
  unfold ProxyGenerator.responseAssignments
  cases hany : m.hasOutputs with
  | true => rfl
  | false =>
    rw [(MethodDescriptor.hasOutputs_eq_false_iff.mp hany).1]
    rfl

include h

/-- The response is filled, and the proxy reads from it what the server had. -/
theorem response_carried {v : CppValue} (vars : Variables)
    (hvars : ∀ p ∈ m.givenParams, ∃ v, svars p.name = some v ∧
      (platform.typeKind p.type.type).Holds v)
    (hreturned : m.returnsVoid = false → returned = some v ∧
      (platform.typeKind m.returnType.type).Holds v) :
    ∃ reply, setFields response (ServerGenerator.responseSets m svars returned) Table.empty =
        some reply ∧
      readFields platform response reply (ProxyGenerator.responseAssignments m) vars =
        some (vars.insertAll ((m.inoutParams ++ m.outParams).map fun p =>
          (p.name, Variables.value svars p.name))) ∧
      ProxyGenerator.returnedValue platform members response m reply =
        some (if m.returnsVoid then none else returned) := by
  have hagree := h.response
  rw [← map_fst_responseValues svars v] at hagree
  obtain ⟨reply, hset, hget⟩ := getField_of_agree hagree
    (holds_responseValues hvars fun hvoid => (hreturned hvoid).2)
  have hsets := responseSets_eq (v := v) (fun p hp => (hvars p hp).imp fun _ h => h.1)
    fun hvoid => (hreturned hvoid).1
  refine ⟨reply, hsets.symm ▸ hset, ?_, ?_⟩
  · have hvalues : ∀ a ∈ ProxyGenerator.responseAssignments m,
        getField platform response reply a.1 = some (Variables.value svars a.2) := by
      intro a ha
      rw [responseAssignments_eq] at ha
      obtain ⟨p, hp, hin⟩ := List.mem_flatMap.mp ha
      obtain ⟨r, hr, rfl⟩ := List.mem_map.mp hin
      obtain ⟨hmem, hdirection⟩ := MethodDescriptor.mem_outputs.mp hp
      obtain ⟨w, hw⟩ := ServerGenerator.exists_bindOutput (h.directions p hmem) hdirection
        (h.outputs p hmem hdirection)
      refine hget r ?_ (w, Variables.value svars p.name) ?_
        ((ServerGenerator.mem_bindOutput hw).1.trans
          (ProxyGenerator.accessor_of_mem_bindOutput hr).symm)
      · have hany : m.hasOutputs = true := by
          cases hnone : m.hasOutputs with
          | true => rfl
          | false =>
            rw [(MethodDescriptor.hasOutputs_eq_false_iff.mp hnone).1] at hp
            cases hp
        unfold ProxyGenerator.responseReads
        rw [hany, if_pos rfl, ← List.flatMap_append]
        exact List.mem_append_left _ (List.mem_flatMap.mpr ⟨p, hp, hr⟩)
      · exact List.mem_append_left _ (List.mem_flatMap.mpr ⟨p, hmem, List.mem_map_of_mem hw⟩)
    rw [readFields_ok hvalues, responseAssignments_eq, List.map_flatMap]
    have hsingle : ((m.inoutParams ++ m.outParams).flatMap fun p =>
        ((ProxyGenerator.bindOutput p).map fun r => (r, p.name)).map fun a =>
          (a.2, Variables.value svars a.2)) =
        (m.inoutParams ++ m.outParams).map fun p => (p.name, Variables.value svars p.name) := by
      rw [← List.flatMap_pure_eq_map]
      refine List.flatMap_congr fun p hp => ?_
      obtain ⟨hmem, hdirection⟩ := MethodDescriptor.mem_outputs.mp hp
      obtain ⟨r, hr⟩ := ProxyGenerator.bindOutput_single (h.outputs p hmem hdirection)
      rw [hr]
      rfl
    rw [hsingle]
  · unfold ProxyGenerator.returnedValue
    cases hvoid : m.returnsVoid with
    | true => rfl
    | false =>
      obtain ⟨r, hr⟩ := ProxyGenerator.bindReturn_single (assignsMember members m)
        (h.returned hvoid)
      obtain ⟨w, hw⟩ := ServerGenerator.exists_bindReturn (h.returned hvoid)
      have hrin : r ∈ ProxyGenerator.bindReturn (assignsMember members m) m.returnType :=
        hr ▸ List.mem_singleton_self r
      have hvalue := hget r (by
          unfold ProxyGenerator.responseReads
          rw [hvoid]
          exact List.mem_append_right _ hrin)
        (w, v) (by
          unfold responseValues
          rw [hvoid]
          exact List.mem_append_right _ (List.mem_map_of_mem hw))
        ((ServerGenerator.mem_bindReturn hw).1.trans
          (ProxyGenerator.accessor_of_mem_bindReturn hrin).symm)
      rw [hr]
      show (getField platform response reply r).map some = some returned
      rw [hvalue, (hreturned hvoid).1]
      rfl

end Response

include h

/-- The call of the proxy does what the call of the method does. -/
theorem remoteCall_of_carried {impl : Implementation} {compression : CppValue} {vars : Variables}
    (hcompression : (platform.contentKind .compressionFormat).Holds compression)
    (hvars : InputsTyped platform m vars) (himpl : ReturnsTyped platform m impl) :
    ∃ vars1 returned, m.localCall impl vars = some (vars1, returned) ∧
      remoteCall platform members request response m impl compression vars =
        some (if m.sendsCompression then some compression else none, vars1, returned) := by
  obtain ⟨msg, hset, hasked, svars, hread, hsame⟩ := request_carried h hcompression hvars
  have hinputs : ∀ p ∈ m.takenParams, ∃ v, vars p.name = some v := fun p hp =>
    (hvars p hp).imp fun _ h => h.1
  have hserver : m.localCall impl svars = _ := MethodDescriptor.localCall_eq fun p hp => by
    rw [hsame p hp]
    exact hinputs p hp
  rw [MethodDescriptor.argumentsOf_congr hsame] at hserver
  have hlocal : m.localCall impl vars = _ := MethodDescriptor.localCall_eq hinputs
  obtain ⟨houtputs, hreturned⟩ := himpl (m.argumentsOf vars)
  generalize impl (m.argumentsOf vars) = result at *
  have hlength := houtputs.length_eq
  -- the variables of the server hold the outputs
  have hgiven : ∀ p ∈ m.givenParams, ∃ v,
      svars.insertAll (m.givenEntries result.outputs) p.name = some v ∧
        (platform.typeKind p.type.type).Holds v := by
    intro p hp
    obtain ⟨v, hv⟩ := MethodDescriptor.exists_output hlength hp
    exact ⟨v, MethodDescriptor.insertAll_givenEntries hlength h.names svars _ hv,
      (List.forall₂_iff_zip.mp houtputs).2 hv⟩
  have hvoid : ∃ v, m.returnsVoid = false → (if m.returnsVoid then none else result.returned) =
      some v ∧ (platform.typeKind m.returnType.type).Holds v := by
    cases hvoid : m.returnsVoid with
    | true => exact ⟨.integer 0, fun h => by cases h⟩
    | false =>
      obtain ⟨v, hv, htyped⟩ := hreturned hvoid
      exact ⟨v, fun _ => ⟨hv, htyped⟩⟩
  obtain ⟨v, hv⟩ := hvoid
  obtain ⟨reply, hreply, hvars1, hresult⟩ := response_carried h vars hgiven hv
  refine ⟨_, _, hlocal, ?_⟩
  have hsameVars : vars.insertAll ((m.inoutParams ++ m.outParams).map fun p =>
      (p.name, Variables.value (svars.insertAll (m.givenEntries result.outputs)) p.name)) =
      vars.insertAll (m.givenEntries result.outputs) := by
    refine (insertAll_perm vars (MethodDescriptor.nodup_givenEntries hlength h.names) ?_).symm
    exact (List.Perm.of_eq (MethodDescriptor.givenEntries_eq hlength h.names svars)).trans
      (m.givenParams_perm.map _)
  have hserve : ServerGenerator.serve platform request response m impl msg =
      some (if m.sendsCompression then some compression else none, reply) := by
    unfold ServerGenerator.serve
    rw [hasked, hread]
    show (m.localCall impl svars).bind _ = _
    rw [hserver]
    show (setFields response _ Table.empty).bind _ = _
    rw [hreply]
    rfl
  unfold remoteCall
  rw [if_neg fun hne => hne h.unary, hset]
  show (ServerGenerator.serve platform request response m impl msg).bind _ = _
  rw [hserve]
  show (readFields platform response reply _ vars).bind _ = _
  rw [hvars1, hsameVars]
  show (ProxyGenerator.returnedValue platform members response m reply).bind _ = _
  rw [hresult]
  cases m.returnsVoid <;> rfl

end Call

/-! ## The methods of an interface -/

theorem declaredIn_type (request response : Bool) (p : ParameterDescriptor) :
    (p.declaredIn request response).type.type = p.type.type ∧
      (p.declaredIn request response).ioType = p.ioType := by
  obtain h | h := p.declaredIn_cases request response
  · rw [h]
    exact ⟨rfl, rfl⟩
  · rw [h]
    exact ⟨rfl, rfl⟩

theorem ne_stdString_of_isReturned {type : CppType} {assignable : Bool}
    (h : type.isReturned assignable = true) : type.kind ≠ .stdString := by
  intro hkind
  unfold CppType.isReturned at h
  rw [hkind] at h
  cases h

/-- A plain method whose outputs have fields is carried by what is generated for it. -/
theorem PlainMethod.carried {platform : Platform} {members : Table String ProxyMember}
    {m m1 : MethodDescriptor} (hunset : m.Unset) (hplain : PlainMethod platform members m)
    (houtputs : m.deniesOutputs = false)
    (hunary : m.streamingType = .none) {request response : List ProtoMessage}
    (hgenerated : generateMessages m.prepareMessages = .ok (request, response, m1))
    (hnames : (m1.params.map (·.name)).Nodup) :
    Carried platform members (request.flatMap ProtoMessage.fields)
      (response.flatMap ProtoMessage.fields) m1 := by
  have hout : OutputsCarried platform members m := by
    have hresponse := hplain.response
    rwa [houtputs, if_neg Bool.false_ne_true] at hresponse
  obtain ⟨request1, response1, m2, hgenerated1, hrequest, hresponse⟩ :=
    (methodAgrees_prepareMessages_iff members hunset).mpr hplain
  rw [hgenerated] at hgenerated1
  cases hgenerated1
  rw [generateMessages_eq _ false] at hgenerated
  cases hgenerated
  refine ⟨hrequest, hresponse, hunary, hnames, ?_, ?_, ?_⟩
  · intro p hp
    obtain ⟨p0, hp0, rfl⟩ := List.mem_map.mp hp
    rw [(declaredIn_type _ _ p0).2]
    exact hplain.request.directions p0 hp0
  · intro p hp hdirection
    obtain ⟨p0, hp0, rfl⟩ := List.mem_map.mp hp
    rw [(ParameterDescriptor.keepsDeclared_declaredIn _ _ p0).2] at hdirection
    rw [(declaredIn_type _ _ p0).1]
    exact (hout.outputs p0 hp0 hdirection).1
  · intro hvoid
    rw [MethodDescriptor.returnsVoid_declaredIn] at hvoid
    have hkind := ne_stdString_of_isReturned (hout.returned hvoid).1
    show (MethodDescriptor.declaredIn m.prepareMessages _ _).returnType.type.kind ≠ .stdString
    unfold MethodDescriptor.declaredIn
    dsimp only
    split <;> exact hkind

/-- A component whose method returns the last digit of its argument. -/
def lastDigit : Implementation
  | [.integer n] => ⟨[], some (.integer (n % 10))⟩
  | _ => ⟨[], some (.integer 0)⟩

/-- The descriptor of `long get(int index)` as the proto file leaves it. -/
def declaredLong : MethodDescriptor := declaredGet longType intValue

theorem lastDigit_typed : ReturnsTyped lp64 declaredLong lastDigit := by
  have hdigit : ∀ n : Int,
      (lp64.typeKind declaredLong.returnType.type).Holds (.integer (n % 10)) := by
    intro n
    have hlow := Int.emod_nonneg n (b := 10) (by decide)
    have hhigh := Int.emod_lt_of_pos n (b := 10) (by decide)
    have hholds : int64.Holds (n % 10) := Int.bmod_eq_of_le (m := 2 ^ 64) (by omega) (by omega)
    exact .integer hholds
  intro arguments
  unfold lastDigit
  split
  · exact ⟨.nil, fun _ => ⟨_, rfl, hdigit _⟩⟩
  · exact ⟨.nil, fun _ => ⟨_, rfl, hdigit 0⟩⟩

theorem plain_get :
    PlainMethod lp64 (getMembers longType intValue) (getDescriptor longType intValue) :=
  ⟨⟨by decide, by decide, by decide, by decide, by decide⟩, ⟨by decide, by decide, by decide⟩⟩

theorem inputsTyped_get :
    InputsTyped lp64 declaredLong (Table.empty.insert "index" (.integer 27)) := by
  intro p hp
  have hmem := (MethodDescriptor.mem_takenParams.mp hp).1
  rw [List.mem_singleton.mp hmem]
  exact ⟨.integer 27, rfl, .integer (by decide)⟩

end Xpcf.GrpcGen
