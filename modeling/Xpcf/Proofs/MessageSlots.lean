import Xpcf.Proofs.WireRoundTrips

/-!
# The slots of a message

The proto file declares the fields of a message, one generated component writes
them and the other reads them.  What a message carries is a list of slots; each
slot has its field and, on either side, at most one access.
-/

namespace Xpcf.GrpcGen

open CodeLib

/-! ## Agreement -/

/-- Every declared field is written once and read once, nothing else is, and what
is written comes back. -/
structure FieldsAgree (platform : Platform) (fields : List ProtoField) (writes : List FieldWrite)
    (reads : List FieldRead) : Prop where
  accessors_differ : (fields.map ProtoField.accessor).Nodup
  writes_declared : (writes.map FieldWrite.accessor).Perm (fields.map ProtoField.accessor)
  reads_declared : (reads.map FieldRead.accessor).Perm (fields.map ProtoField.accessor)
  undone : ∀ field ∈ fields, ∀ w ∈ writes, ∀ r ∈ reads, w.accessor = field.accessor →
    r.accessor = field.accessor → w.content = r.content ∧ Undone platform field.typeName w r

theorem FieldsAgree.perm_iff {platform : Platform} {fields : List ProtoField}
    {writes writes1 : List FieldWrite} {reads reads1 : List FieldRead}
    (hwrites : writes.Perm writes1) (hreads : reads.Perm reads1) :
    FieldsAgree platform fields writes reads ↔ FieldsAgree platform fields writes1 reads1 := by
  constructor
  · intro h
    refine ⟨h.accessors_differ, (hwrites.map _).symm.trans h.writes_declared,
      (hreads.map _).symm.trans h.reads_declared, fun field hfield w hw r hr => ?_⟩
    exact h.undone field hfield w (hwrites.mem_iff.mpr hw) r (hreads.mem_iff.mpr hr)
  · intro h
    refine ⟨h.accessors_differ, (hwrites.map _).trans h.writes_declared,
      (hreads.map _).trans h.reads_declared, fun field hfield w hw r hr => ?_⟩
    exact h.undone field hfield w (hwrites.mem_iff.mp hw) r (hreads.mem_iff.mp hr)

/-- A message that is not declared has nothing to access. -/
theorem fieldsAgree_nil_iff {platform : Platform} {writes : List FieldWrite}
    {reads : List FieldRead} : FieldsAgree platform [] writes reads ↔ writes = [] ∧ reads = [] := by
  constructor
  · intro h
    exact ⟨List.map_eq_nil_iff.mp h.writes_declared.eq_nil,
      List.map_eq_nil_iff.mp h.reads_declared.eq_nil⟩
  · rintro ⟨rfl, rfl⟩
    exact ⟨List.nodup_nil, .nil, .nil, fun field hfield => absurd hfield List.not_mem_nil⟩

/-- The generators agree on both messages of a method, in a proxy with these members. -/
def MethodAgrees (platform : Platform) (members : Table String ProxyGenerator.ProxyMember)
    (m : MethodDescriptor) : Prop :=
  ∃ request response m1, generateMessages m = .ok (request, response, m1) ∧
    FieldsAgree platform (request.flatMap ProtoMessage.fields)
      (ProxyGenerator.requestWrites m1) (ServerGenerator.requestReads m1) ∧
    FieldsAgree platform (response.flatMap ProtoMessage.fields)
      (ServerGenerator.responseWrites m1) (ProxyGenerator.responseReads members m1)

/-! ## Slots -/

/-- What one field of a message stands for, with the descriptors that declaring
the field leaves, and for the return value whether the proxy can assign its member. -/
inductive Slot where
  | compression
  | input (p : ParameterDescriptor)
  | output (p : ParameterDescriptor)
  | returnValue (assignable : Bool) (t : TypeDescriptor)

namespace Slot

def field : Slot → ProtoField
  | compression => compressionField
  | input p => ⟨protoTypeName p.type.type, p.name⟩
  | output p => ⟨protoTypeName p.type.type, p.name⟩
  | returnValue _ t => ⟨protoTypeName t.type, "xpcfGrpcReturnValue"⟩

def accessor (s : Slot) : String := s.field.accessor

def writes : Slot → List FieldWrite
  | compression => [⟨compressionAccessor, .compressionFormat, .staticCast "int32_t", .generated⟩]
  | input p => ProxyGenerator.bindInput p
  | output p => ServerGenerator.bindOutput p
  | returnValue _ t => ServerGenerator.bindReturn t

def reads : Slot → List FieldRead
  | compression =>
    [⟨compressionAccessor, .compressionFormat, .staticCast "xpcf::grpcCompressType", .generated⟩]
  | input p => ServerGenerator.bindInput p
  | output p => ProxyGenerator.bindOutput p
  | returnValue assignable t => ProxyGenerator.bindReturn assignable t

/-- One write and one read that undoes it. -/
def Agrees (platform : Platform) (s : Slot) : Prop :=
  ∃ w r, s.writes = [w] ∧ s.reads = [r] ∧ w.content = r.content ∧
    Undone platform s.field.typeName w r

theorem accessor_compression : compression.accessor = compressionAccessor := by decide

theorem accessor_returnValue (assignable : Bool) (t : TypeDescriptor) :
    (returnValue assignable t).accessor = returnAccessor := by
  show accessorName "xpcfGrpcReturnValue" = returnAccessor
  decide

/-- A side of a slot: nothing, or one access with the accessor of the field. -/
def AccessesOnce {α : Type} (accessorOf : α → String) (side : Slot → List α) : Prop :=
  ∀ s : Slot, side s = [] ∨ ∃ a, side s = [a] ∧ accessorOf a = s.accessor

theorem writes_once : AccessesOnce FieldWrite.accessor writes
  | compression => Or.inr ⟨_, rfl, accessor_compression.symm⟩
  | input p => by
    rw [writes]
    unfold ProxyGenerator.bindInput
    split
    all_goals exact Or.inr ⟨_, rfl, rfl⟩
  | output p => by
    rw [writes]
    unfold ServerGenerator.bindOutput
    split
    · split
      all_goals first
        | exact Or.inl rfl
        | exact Or.inr ⟨_, rfl, rfl⟩
    · exact Or.inl rfl
  | returnValue assignable t => by
    rw [writes]
    unfold ServerGenerator.bindReturn
    split
    all_goals first
      | exact Or.inl rfl
      | exact Or.inr ⟨_, rfl, (accessor_returnValue assignable t).symm⟩

theorem reads_once : AccessesOnce FieldRead.accessor reads
  | compression => Or.inr ⟨_, rfl, accessor_compression.symm⟩
  | input p => by
    rw [reads]
    unfold ServerGenerator.bindInput
    split
    · split <;> exact Or.inr ⟨_, rfl, rfl⟩
    · exact Or.inl rfl
  | output p => by
    rw [reads]
    unfold ProxyGenerator.bindOutput
    split
    all_goals first
      | exact Or.inl rfl
      | exact Or.inr ⟨_, rfl, rfl⟩
  | returnValue assignable t => by
    rw [reads]
    unfold ProxyGenerator.bindReturn
    split
    all_goals first
      | exact Or.inl rfl
      | exact Or.inr ⟨_, rfl, (accessor_returnValue assignable t).symm⟩

section Side

variable {α : Type} {accessorOf : α → String} {side : Slot → List α}
  (hside : AccessesOnce accessorOf side) {slots : List Slot}

include hside

theorem accessor_of_mem {s : Slot} {a : α} (h : a ∈ side s) : accessorOf a = s.accessor := by
  obtain hnil | ⟨b, hb, hname⟩ := hside s
  · rw [hnil] at h
    cases h
  · rw [hb, List.mem_singleton] at h
    rw [h, hname]

theorem length_flatMap_le (slots : List Slot) : (slots.flatMap side).length ≤ slots.length := by
  induction slots with
  | nil => exact Nat.le_refl 0
  | cons s rest ih =>
    rw [List.flatMap_cons, List.length_append, List.length_cons]
    obtain hnil | ⟨a, ha, _⟩ := hside s
    · rw [hnil, List.length_nil]
      omega
    · rw [ha, List.length_singleton]
      omega

/-- As many accesses as slots: each slot has one. -/
theorem ne_nil_of_length_flatMap (h : (slots.flatMap side).length = slots.length) :
    ∀ s ∈ slots, side s ≠ [] := by
  induction slots with
  | nil => exact fun s hs => absurd hs List.not_mem_nil
  | cons s rest ih =>
    have hrest := length_flatMap_le hside rest
    rw [List.flatMap_cons, List.length_append, List.length_cons] at h
    obtain hnil | ⟨a, ha, _⟩ := hside s
    · rw [hnil, List.length_nil] at h
      omega
    · rw [ha, List.length_singleton] at h
      intro s1 hs1
      cases List.mem_cons.mp hs1 with
      | inl heq =>
        rw [heq, ha]
        exact List.cons_ne_nil a []
      | inr hmem => exact ih (by omega) s1 hmem

theorem map_accessor_flatMap (h : ∀ s ∈ slots, side s ≠ []) :
    (slots.flatMap side).map accessorOf = slots.map accessor := by
  induction slots with
  | nil => rfl
  | cons s rest ih =>
    obtain ⟨a, ha, hname⟩ := (hside s).resolve_left (h s List.mem_cons_self)
    rw [List.flatMap_cons, List.map_append, List.map_cons, ha, List.map_singleton, hname,
      ih fun s1 hs1 => h s1 (List.mem_cons_of_mem s hs1)]
    rfl

end Side

end Slot

/-- Where both sides access what the slots say, agreement is slot by slot. -/
theorem fieldsAgree_slots_iff {platform : Platform} {slots : List Slot} :
    FieldsAgree platform (slots.map Slot.field) (slots.flatMap Slot.writes)
      (slots.flatMap Slot.reads) ↔
      (slots.map Slot.accessor).Nodup ∧ ∀ s ∈ slots, s.Agrees platform := by
  have haccessors : (slots.map Slot.field).map ProtoField.accessor = slots.map Slot.accessor := by
    rw [List.map_map]
    rfl
  constructor
  · intro h
    refine ⟨haccessors ▸ h.accessors_differ, fun s hs => ?_⟩
    have hwrites : (slots.flatMap Slot.writes).length = slots.length := by
      simpa only [List.length_map] using h.writes_declared.length_eq
    have hreads : (slots.flatMap Slot.reads).length = slots.length := by
      simpa only [List.length_map] using h.reads_declared.length_eq
    obtain ⟨w, hw, hwname⟩ := (Slot.writes_once s).resolve_left
      (Slot.ne_nil_of_length_flatMap Slot.writes_once hwrites s hs)
    obtain ⟨r, hr, hrname⟩ := (Slot.reads_once s).resolve_left
      (Slot.ne_nil_of_length_flatMap Slot.reads_once hreads s hs)
    have hwmem : w ∈ slots.flatMap Slot.writes :=
      List.mem_flatMap.mpr ⟨s, hs, hw ▸ List.mem_singleton_self w⟩
    have hrmem : r ∈ slots.flatMap Slot.reads :=
      List.mem_flatMap.mpr ⟨s, hs, hr ▸ List.mem_singleton_self r⟩
    exact ⟨w, r, hw, hr, h.undone _ (List.mem_map_of_mem hs) w hwmem r hrmem hwname hrname⟩
  · rintro ⟨hnodup, hall⟩
    have hwritten : ∀ s ∈ slots, s.writes ≠ [] := fun s hs => by
      obtain ⟨w, _, hw, _⟩ := hall s hs
      rw [hw]
      exact List.cons_ne_nil w []
    have hread : ∀ s ∈ slots, s.reads ≠ [] := fun s hs => by
      obtain ⟨_, r, _, hr, _⟩ := hall s hs
      rw [hr]
      exact List.cons_ne_nil r []
    refine ⟨haccessors ▸ hnodup, ?_, ?_, fun field hfield w hw r hr hwname hrname => ?_⟩
    · rw [Slot.map_accessor_flatMap Slot.writes_once hwritten, haccessors]
    · rw [Slot.map_accessor_flatMap Slot.reads_once hread, haccessors]
    · obtain ⟨s, hs, rfl⟩ := List.mem_map.mp hfield
      have hsame : ∀ s1 ∈ slots, s1.accessor = s.accessor → s1 = s := fun s1 hs1 hname =>
        List.inj_on_of_nodup_map hnodup hs1 hs hname
      obtain ⟨w1, r1, hw1, hr1, hcontent, hundone⟩ := hall s hs
      obtain ⟨sw, hsw, hwin⟩ := List.mem_flatMap.mp hw
      obtain ⟨sr, hsr, hrin⟩ := List.mem_flatMap.mp hr
      have hswname := Slot.accessor_of_mem Slot.writes_once hwin
      have hsrname := Slot.accessor_of_mem Slot.reads_once hrin
      rw [hsame sw hsw (hswname.symm.trans hwname), hw1, List.mem_singleton] at hwin
      rw [hsame sr hsr (hsrname.symm.trans hrname), hr1, List.mem_singleton] at hrin
      rw [hwin, hrin]
      exact ⟨hcontent, hundone⟩

/-- The slot of the compression format, where it is sent. -/
def compressionSlots (sent : Bool) : List Slot := if sent then [.compression] else []

theorem map_field_compressionSlots (sent : Bool) :
    (compressionSlots sent).map Slot.field = if sent then [compressionField] else [] := by
  cases sent <;> rfl

/-! ## What is declared -/

theorem TypeDescriptor.declared_declared (t : TypeDescriptor) :
    t.declared.declared = t.declared := by
  unfold TypeDescriptor.declared
  cases castType t.type <;> rfl

namespace ParameterDescriptor

/-- The parameter that declaring its field leaves. -/
def declared (p : ParameterDescriptor) : ParameterDescriptor :=
  tryTranscribeName { p with type := p.type.declared }

theorem declared_declared (p : ParameterDescriptor) : p.declared.declared = p.declared := by
  have hname : ∀ name, protoReservedKeywordsTranscription
      ((protoReservedKeywordsTranscription name).getD name) = none := by
    intro name
    cases h : protoReservedKeywordsTranscription name with
    | none => exact h
    | some other =>
      unfold protoReservedKeywordsTranscription at h
      split at h
      · cases h
        decide
      · cases h
        decide
      · cases h
  unfold declared tryTranscribeName
  dsimp only
  rw [hname p.name, TypeDescriptor.declared_declared]
  rfl

theorem direction_declared (p : ParameterDescriptor) : p.declared.direction = p.direction := rfl

theorem direction_ne_none (p : ParameterDescriptor) : p.direction ≠ .none := by
  unfold direction
  split
  · split <;> exact nofun
  all_goals exact nofun

/-- The step of `declareFields` on the parameters. -/
def declaredFor (io : IoType) (p : ParameterDescriptor) : ParameterDescriptor :=
  if p.direction = io then p.declared else p

theorem declaredFor_cases (io : IoType) (p : ParameterDescriptor) :
    p.declaredFor io = p.declared ∨ p.declaredFor io = p := by
  unfold declaredFor
  split
  · exact Or.inl rfl
  · exact Or.inr rfl

/-- Some of the parameter was declared already. -/
def KeepsDeclared (change : ParameterDescriptor → ParameterDescriptor) : Prop :=
  ∀ p, (change p).declared = p.declared ∧ (change p).direction = p.direction

theorem KeepsDeclared.id : KeepsDeclared id := fun _ => ⟨rfl, rfl⟩

theorem KeepsDeclared.comp_declaredFor {change : ParameterDescriptor → ParameterDescriptor}
    (h : KeepsDeclared change) (io : IoType) : KeepsDeclared (declaredFor io ∘ change) := by
  intro p
  obtain hdeclared | hsame := declaredFor_cases io (change p)
  · rw [Function.comp_apply, hdeclared, declared_declared]
    exact h p
  · rw [Function.comp_apply, hsame]
    exact h p

/-- The parameter that declaring the fields of the given messages leaves. -/
def declaredIn (request response : Bool) (p : ParameterDescriptor) : ParameterDescriptor :=
  if request = true ∧ p.direction ≠ .out ∨ response = true ∧ p.direction ≠ .in then p.declared
  else p

theorem declaredIn_cases (request response : Bool) (p : ParameterDescriptor) :
    p.declaredIn request response = p.declared ∨ p.declaredIn request response = p := by
  unfold declaredIn
  split
  · exact Or.inl rfl
  · exact Or.inr rfl

theorem keepsDeclared_declaredIn (request response : Bool) :
    KeepsDeclared (declaredIn request response) := by
  intro p
  obtain hdeclared | hsame := declaredIn_cases request response p
  · rw [hdeclared, declared_declared]
    exact ⟨rfl, direction_declared p⟩
  · rw [hsame]
    exact ⟨rfl, rfl⟩

theorem declaredFor_request (p : ParameterDescriptor) :
    (p.declaredFor .in).declaredFor .inout = p.declaredIn true false := by
  unfold declaredIn
  cases hdirection : p.direction with
  | none => exact absurd hdirection p.direction_ne_none
  | _ => simp [declaredFor, hdirection, direction_declared]

theorem declaredFor_response (request : Bool) (p : ParameterDescriptor) :
    ((p.declaredIn request false).declaredFor .inout).declaredFor .out =
      p.declaredIn request true := by
  unfold declaredIn
  cases hdirection : p.direction with
  | none => exact absurd hdirection p.direction_ne_none
  | _ => cases request <;> simp [declaredFor, hdirection, direction_declared, declared_declared]

theorem KeepsDeclared.filter_map {change : ParameterDescriptor → ParameterDescriptor}
    (h : KeepsDeclared change) (io : IoType) (params : List ParameterDescriptor) :
    (params.map change).filter (fun p => p.direction = io) =
      (params.filter fun p => p.direction = io).map change := by
  rw [List.filter_map]
  congr 1
  refine List.filter_congr fun p _ => ?_
  rw [Function.comp_apply, (h p).2]

end ParameterDescriptor

theorem declareField_eq (p : ParameterDescriptor) :
    declareField p = .ok ((Slot.input p.declared).field, p.declared) := by
  unfold declareField
  rw [getTypeName_eq]
  rfl

theorem declareFields_eq (io : IoType) (params : List ParameterDescriptor) :
    declareFields io params =
      .ok ((params.filter fun p => p.direction = io).map fun p => (Slot.input p.declared).field,
        params.map (ParameterDescriptor.declaredFor io)) := by
  induction params with
  | nil => rfl
  | cons p rest ih =>
    unfold declareFields
    by_cases hio : p.direction = io
    · rw [if_pos hio, declareField_eq, ih, List.filter_cons_of_pos (by simpa using hio),
        List.map_cons, List.map_cons, ParameterDescriptor.declaredFor, if_pos hio]
      rfl
    · rw [if_neg hio, ih, List.filter_cons_of_neg (by simpa using hio), List.map_cons,
        ParameterDescriptor.declaredFor, if_neg hio]
      rfl

namespace MethodDescriptor

def withParams (m : MethodDescriptor) (params : List ParameterDescriptor) : MethodDescriptor :=
  { m with params := params }

@[simp] theorem responseName_withParams (m : MethodDescriptor) (params : List ParameterDescriptor) :
    (m.withParams params).responseName = m.responseName := rfl

/-- The slots of the parameters that go to the server. -/
def inputSlots (m : MethodDescriptor) : List Slot :=
  (m.inParams ++ m.inoutParams).map fun p => .input p.declared

/-- The slots of the parameters that come from the server. -/
def outputSlots (m : MethodDescriptor) : List Slot :=
  (m.inoutParams ++ m.outParams).map fun p => .output p.declared

def returnSlots (assignable : Bool) (m : MethodDescriptor) : List Slot :=
  if m.returnsVoid then [] else [.returnValue assignable m.returnType.declared]

/-- The request has a field for the compression format. -/
def declaresCompression (m : MethodDescriptor) : Bool :=
  m.responseName ≠ protoEmptyMessage ∧ m.compressionDisabled = false

theorem map_field_inputSlots (m : MethodDescriptor) :
    m.inputSlots.map Slot.field = m.inParams.map (fun p => (Slot.input p.declared).field) ++
      m.inoutParams.map fun p => (Slot.input p.declared).field := by
  unfold inputSlots
  rw [List.map_map, List.map_append]
  rfl

theorem map_field_outputSlots (m : MethodDescriptor) :
    m.outputSlots.map Slot.field = m.inoutParams.map (fun p => (Slot.input p.declared).field) ++
      m.outParams.map fun p => (Slot.input p.declared).field := by
  unfold outputSlots
  rw [List.map_map, List.map_append]
  rfl

theorem map_field_returnSlots (assignable : Bool) (m : MethodDescriptor) :
    (m.returnSlots assignable).map Slot.field =
      if m.returnsVoid then []
      else [(Slot.returnValue assignable m.returnType.declared).field] := by
  unfold returnSlots
  split <;> rfl

/-- The method that declaring the fields of the given messages leaves. -/
def declaredIn (m : MethodDescriptor) (request response : Bool) : MethodDescriptor :=
  { m with
    params := m.params.map (ParameterDescriptor.declaredIn request response)
    returnType := if response = true then m.returnType.declared else m.returnType }

/-- The request has a declaration. -/
def hasRequest (m : MethodDescriptor) : Bool := m.requestName ≠ protoEmptyMessage

/-- The response has a declaration. -/
def hasResponse (m : MethodDescriptor) : Bool := m.responseName ≠ protoEmptyMessage

/-- The slots of the fields of the request. -/
def requestSlots (m : MethodDescriptor) : List Slot :=
  compressionSlots m.declaresCompression ++ m.inputSlots

/-- The slots of the fields of the response. -/
def responseSlots (assignable : Bool) (m : MethodDescriptor) : List Slot :=
  m.outputSlots ++ m.returnSlots assignable

end MethodDescriptor

theorem declareParams_eq {change : ParameterDescriptor → ParameterDescriptor}
    (hchange : ParameterDescriptor.KeepsDeclared change) (io : IoType) (m : MethodDescriptor) :
    declareParams io (m.withParams (m.params.map change)) =
      .ok ((m.params.filter fun p => p.direction = io).map fun p => (Slot.input p.declared).field,
        m.withParams (m.params.map (ParameterDescriptor.declaredFor io ∘ change))) := by
  unfold declareParams
  show (declareFields io (m.params.map change) >>= fun declared =>
    pure (declared.1, m.withParams declared.2) : Except Exc _) = _
  rw [declareFields_eq, hchange.filter_map, List.map_map, List.map_map]
  have hfields : (fun p : ParameterDescriptor => (Slot.input p.declared).field) ∘ change =
      fun p => (Slot.input p.declared).field := by
    funext p
    rw [Function.comp_apply, (hchange p).1]
  rw [hfields]
  rfl

theorem generateRequest_eq (m : MethodDescriptor) :
    generateRequest m =
      .ok (if m.hasRequest = true then [⟨m.requestName, m.requestSlots.map Slot.field⟩] else [],
        m.withParams (m.params.map (ParameterDescriptor.declaredIn m.hasRequest false))) := by
  unfold generateRequest
  by_cases hname : m.requestName = protoEmptyMessage
  · have hrequest : m.hasRequest = false := by simp [MethodDescriptor.hasRequest, hname]
    have hsame : ParameterDescriptor.declaredIn false false = id := by
      funext p
      simp [ParameterDescriptor.declaredIn]
    rw [if_pos hname, hrequest, hsame, List.map_id]
    rfl
  · have hrequest : m.hasRequest = true := by simp [MethodDescriptor.hasRequest, hname]
    have hchange : ParameterDescriptor.declaredFor .inout ∘ ParameterDescriptor.declaredFor .in =
        ParameterDescriptor.declaredIn true false := funext ParameterDescriptor.declaredFor_request
    have hin := declareParams_eq ParameterDescriptor.KeepsDeclared.id .in m
    rw [List.map_id, Function.comp_id] at hin
    change declareParams .in m = _ at hin
    have hinout := declareParams_eq
      (ParameterDescriptor.KeepsDeclared.id.comp_declaredFor .in) .inout m
    rw [Function.comp_id, hchange] at hinout
    rw [if_neg hname, if_pos hrequest, hrequest]
    dsimp only
    rw [hin]
    show (declareParams .inout _ >>= _) = _
    rw [hinout]
    rw [MethodDescriptor.requestSlots, List.map_append, map_field_compressionSlots,
      m.map_field_inputSlots, ← List.append_assoc]
    unfold MethodDescriptor.declaresCompression
    simp only [decide_eq_true_eq]
    rfl

theorem TypeDescriptor.declared_of_isVoid {t : TypeDescriptor} (h : t.type.isVoid = true) :
    t.declared = t := by
  obtain ⟨hkind, hbuiltin, _⟩ := t.type.of_isVoid h
  unfold TypeDescriptor.declared castType
  rw [hkind, hbuiltin]
  rfl

theorem declareReturn_eq (m : MethodDescriptor) (assignable : Bool) :
    declareReturn m =
      .ok (if m.returnsVoid then []
          else [(Slot.returnValue assignable m.returnType.declared).field],
        { m with returnType := m.returnType.declared }) := by
  unfold declareReturn
  cases h : m.returnsVoid with
  | true =>
    rw [TypeDescriptor.declared_of_isVoid h]
    rfl
  | false =>
    rw [if_neg Bool.false_ne_true, getTypeName_eq]
    rfl

theorem generateResponse_eq (m : MethodDescriptor) (request assignable : Bool) :
    generateResponse (m.withParams (m.params.map (ParameterDescriptor.declaredIn request false))) =
      .ok (if m.hasResponse = true then
          [⟨m.responseName, (m.responseSlots assignable).map Slot.field⟩] else [],
        m.declaredIn request m.hasResponse) := by
  unfold generateResponse
  by_cases hname : m.responseName = protoEmptyMessage
  · have hresponse : m.hasResponse = false := by simp [MethodDescriptor.hasResponse, hname]
    rw [MethodDescriptor.responseName_withParams, if_pos hname, hresponse]
    rfl
  · have hresponse : m.hasResponse = true := by simp [MethodDescriptor.hasResponse, hname]
    have hkeeps := ParameterDescriptor.keepsDeclared_declaredIn request false
    have hinout := declareParams_eq hkeeps .inout m
    have hout := declareParams_eq (hkeeps.comp_declaredFor .inout) .out m
    have hchange : ParameterDescriptor.declaredFor .out ∘ ParameterDescriptor.declaredFor .inout ∘
        ParameterDescriptor.declaredIn request false =
          ParameterDescriptor.declaredIn request true :=
      funext (ParameterDescriptor.declaredFor_response request)
    rw [hchange] at hout
    rw [MethodDescriptor.responseName_withParams, if_neg hname, hresponse, hinout]
    show (declareParams .out _ >>= _) = _
    rw [hout]
    show (declareReturn _ >>= _) = _
    rw [declareReturn_eq _ assignable, if_pos rfl, MethodDescriptor.responseSlots, List.map_append,
      m.map_field_outputSlots, MethodDescriptor.map_field_returnSlots]
    rfl

/-- Nothing goes wrong in the proto generator. -/
theorem generateMessages_eq (m : MethodDescriptor) (assignable : Bool) :
    generateMessages m =
      .ok (if m.hasRequest = true then [⟨m.requestName, m.requestSlots.map Slot.field⟩] else [],
        if m.hasResponse = true then
          [⟨m.responseName, (m.responseSlots assignable).map Slot.field⟩] else [],
        m.declaredIn m.hasRequest m.hasResponse) := by
  unfold generateMessages
  rw [generateRequest_eq]
  show (generateResponse _ >>= _) = _
  rw [generateResponse_eq _ _ assignable]
  rfl

/-! ## The accesses for each kind of type -/

section Accesses

variable {p : ParameterDescriptor} {t : TypeDescriptor}

namespace ProxyGenerator

theorem bindInput_plain (h : p.type.type.isPlain) :
    bindInput p = [p.type.write (accessorName p.name) p.type.castEncoding .parameter] := by
  unfold bindInput
  obtain h | h | h := h <;> rw [h]

theorem bindInput_object (h : p.type.type.isObject) :
    bindInput p =
      [p.type.write (accessorName p.name) (.serialize p.type.type.fullTypeDescription)
        .parameter] := by
  unfold bindInput
  obtain h | h := h <;> rw [h]

theorem bindOutput_plain (h : p.type.type.isPlain) :
    bindOutput p = [p.type.read (accessorName p.name) p.type.castDecoding .parameter] := by
  unfold bindOutput
  obtain h | h | h := h <;> rw [h]

theorem bindOutput_object (h : p.type.type.isObject) :
    bindOutput p =
      [p.type.read (accessorName p.name) (.deserialize p.type.type.fullTypeDescription)
        .parameter] := by
  unfold bindOutput
  obtain h | h := h <;> rw [h]

theorem bindOutput_cString (h : p.type.type.kind = .cString) : bindOutput p = [] := by
  unfold bindOutput
  rw [h]

theorem bindReturn_plain (assignable : Bool) (h : t.type.isPlain)
    (htext : t.type.kind ≠ .stdString) :
    bindReturn assignable t = [t.read returnAccessor t.castDecoding .result] := by
  unfold bindReturn
  obtain h | h | h := h
  · rw [h]
  · rw [h]
  · exact absurd h htext

theorem bindReturn_object (assignable : Bool) (h : t.type.isObject) :
    bindReturn assignable t = [t.read returnAccessor (.deserialize t.type.fullTypeDescription)
      (if t.type.isConst && t.type.isReference then .member assignable else .result)] := by
  unfold bindReturn
  obtain h | h := h <;> rw [h]

theorem bindReturn_stdString (assignable : Bool) (h : t.type.kind = .stdString) :
    bindReturn assignable t = [] := by
  unfold bindReturn
  rw [h]

end ProxyGenerator

namespace ServerGenerator

theorem bindInput_plain (hio : p.ioType = .in ∨ p.ioType = .inout) (h : p.type.type.isPlain) :
    bindInput p = [p.type.read (accessorName p.name) p.type.castDecoding .argument] := by
  unfold bindInput
  rw [if_pos hio]
  obtain h | h | h := h <;> rw [h]

theorem bindInput_object (hio : p.ioType = .in ∨ p.ioType = .inout) (h : p.type.type.isObject) :
    bindInput p =
      [p.type.read (accessorName p.name) (.deserialize p.type.type.fullTypeDescription)
        .argument] := by
  unfold bindInput
  rw [if_pos hio]
  obtain h | h := h <;> rw [h]

theorem bindOutput_plain (hio : p.ioType = .inout ∨ p.ioType = .out) (h : p.type.type.isPlain) :
    bindOutput p = [p.type.write (accessorName p.name) p.type.castEncoding .argument] := by
  unfold bindOutput
  rw [if_pos hio]
  obtain h | h | h := h <;> rw [h]

theorem bindOutput_object (hio : p.ioType = .inout ∨ p.ioType = .out) (h : p.type.type.isObject) :
    bindOutput p =
      [p.type.write (accessorName p.name) (.serialize p.type.type.fullTypeDescription)
        .argument] := by
  unfold bindOutput
  rw [if_pos hio]
  obtain h | h := h <;> rw [h]

theorem bindReturn_plain (h : t.type.isPlain) (htext : t.type.kind ≠ .stdString) :
    bindReturn t = [t.write returnAccessor t.castEncoding .result] := by
  unfold bindReturn
  obtain h | h | h := h
  · rw [h]
  · rw [h]
  · exact absurd h htext

theorem bindReturn_object (h : t.type.isObject) :
    bindReturn t =
      [t.write returnAccessor (.serialize t.type.fullTypeDescription) .result] := by
  unfold bindReturn
  obtain h | h := h <;> rw [h]

end ServerGenerator

end Accesses

/-! ## The slots on which the components agree -/

/-- The return statement of the proxy has the value: a temporary, or the member, where the
proxy can assign it. -/
def CppType.isReturned (assignable : Bool) (type : CppType) : Bool :=
  match type.kind with
  | .builtin => type.returnsTemporary
  | .enum => type.returnsTemporary
  | .userDefined | .template =>
    if type.isConst && type.isReference then assignable && type.bindsVariable
    else type.returnsTemporary
  | .cString => assignable && type.returnsTemporary
  | .stdString => false

namespace Slot

variable {platform : Platform}

theorem agrees_iff {s : Slot} {w : FieldWrite} {r : FieldRead} (hw : s.writes = [w])
    (hr : s.reads = [r]) (hcontent : w.content = r.content) :
    s.Agrees platform ↔ Undone platform s.field.typeName w r := by
  constructor
  · rintro ⟨w1, r1, hw1, hr1, _, hundone⟩
    rw [hw] at hw1
    rw [hr] at hr1
    cases hw1
    cases hr1
    exact hundone
  · intro hundone
    exact ⟨w, r, hw, hr, hcontent, hundone⟩

theorem not_agrees_of_reads {s : Slot} (h : s.reads = []) : ¬s.Agrees platform := by
  rintro ⟨_, r, _, hr, _⟩
  rw [h] at hr
  cases hr

theorem not_agrees_of_writes {s : Slot} (h : s.writes = []) : ¬s.Agrees platform := by
  rintro ⟨w, _, hw, _⟩
  rw [h] at hw
  cases hw

/-- A compression format fits in the field. -/
theorem agrees_compression : compression.Agrees platform := by
  refine (agrees_iff rfl rfl rfl).mpr (undone_iff.mpr ⟨⟨rfl, rfl⟩, fun v hv => ?_⟩)
  cases hv with
  | integer hn =>
    rename_i n
    refine ⟨.integer (int32.wrap (int32.wrap n)), rfl, ?_⟩
    show some (CppValue.integer (CodeLib.IntegerType.wrap ⟨7, false⟩ _)) = _
    rw [CodeLib.IntegerType.wrap_wrap (by decide), CodeLib.IntegerType.wrap_wrap (by decide), hn]

theorem rpcType_declared {t : TypeDescriptor} (hunset : t.rpcType = none) :
    t.declared.rpcType = castType t.type := by
  unfold TypeDescriptor.declared
  rw [hunset, Option.or_none]

theorem agrees_cast_iff (s : Slot) (t : TypeDescriptor) {accessor : String}
    {source target : Place} (hdeclared : t.rpcType = castType t.type)
    (hplain : t.type.isPlain) (hfield : s.field.typeName = protoTypeName t.type)
    (hw : s.writes = [t.write accessor t.castEncoding source])
    (hr : s.reads = [t.read accessor t.castDecoding target]) :
    s.Agrees platform ↔ ((FieldContent.value t.type).gives source = true ∧
      (FieldContent.value t.type).takes target = true) ∧ platform.carries t.type = true := by
  rw [agrees_iff hw hr rfl, hfield, undone_iff,
    convertsBack_cast_iff hdeclared hplain accessor source target]
  rfl

theorem agrees_serialize_iff (s : Slot) (t : TypeDescriptor) {accessor text : String}
    {source target : Place} (hobject : t.type.isObject)
    (hfield : s.field.typeName = protoTypeName t.type)
    (hw : s.writes = [t.write accessor (.serialize text) source])
    (hr : s.reads = [t.read accessor (.deserialize text) target]) :
    s.Agrees platform ↔ ((FieldContent.value t.type).gives source = true ∧
      (FieldContent.value t.type).takes target = true) ∧ platform.carries t.type = true := by
  obtain ⟨hback, hcarries⟩ := convertsBack_serialize platform hobject accessor text
    source target
  rw [agrees_iff hw hr rfl, hfield, undone_iff, hcarries, and_iff_left hback]
  exact (and_iff_left rfl).symm

theorem holdsValue_of_bindsVariable {type : CppType} (h : type.bindsVariable = true) :
    type.holdsValue = true := (Bool.and_eq_true_iff.mp h).1

/-- An input agrees unless the server does not read it, unpacks what was not packed, gets
only a part of it, or has no variable for it. -/
theorem agrees_input_iff {p : ParameterDescriptor} (hunset : p.type.rpcType = none)
    (hdirection : p.direction ≠ .out) :
    (input p.declared).Agrees platform ↔
      p.ioType ≠ .none ∧ p.type.type.kind ≠ .cString ∧ p.type.type.bindsVariable = true ∧
        platform.carries p.type.type = true := by
  by_cases hio : p.ioType = .none
  · have hreads : (input p.declared).reads = [] :=
      if_neg (show ¬(p.ioType = .in ∨ p.ioType = .inout) by rw [hio]; decide)
    exact ⟨fun h => absurd h (not_agrees_of_reads hreads), fun h => absurd hio h.1⟩
  have hinput : p.declared.ioType = .in ∨ p.declared.ioType = .inout := by
    show p.ioType = .in ∨ p.ioType = .inout
    unfold ParameterDescriptor.direction at hdirection
    cases h : p.ioType <;> simp_all
  have hsides : ((FieldContent.value p.type.type).gives .parameter = true ∧
      (FieldContent.value p.type.type).takes .argument = true) ↔
      p.type.type.bindsVariable = true :=
    ⟨fun h => h.2, fun h => ⟨holdsValue_of_bindsVariable h, h⟩⟩
  rw [and_iff_right hio, ← and_congr_left_iff.mpr fun _ => hsides]
  obtain hplain | hobject | hkind := p.type.type.kind_cases
  · rw [and_iff_right hplain.ne_cString]
    exact agrees_cast_iff (input p.declared) p.type.declared (rpcType_declared hunset) hplain rfl
      (ProxyGenerator.bindInput_plain hplain) (ServerGenerator.bindInput_plain hinput hplain)
  · rw [and_iff_right hobject.ne_text.1]
    exact agrees_serialize_iff (input p.declared) p.type.declared hobject rfl
      (ProxyGenerator.bindInput_object hobject) (ServerGenerator.bindInput_object hinput hobject)
  · have hr : (input p.declared).reads = [p.declared.type.read (accessorName p.declared.name)
        (.deserialize p.declared.type.type.fullTypeDescription) .argument] := by
      show ServerGenerator.bindInput p.declared = _
      unfold ServerGenerator.bindInput
      rw [if_pos hinput, show p.declared.type.type.kind = .cString from hkind]
    have hw : (input p.declared).writes = [p.declared.type.write (accessorName p.declared.name)
        p.declared.type.castEncoding .parameter] := by
      show ProxyGenerator.bindInput p.declared = _
      unfold ProxyGenerator.bindInput
      rw [show p.declared.type.type.kind = .cString from hkind]
    refine ⟨fun h => ?_, fun h => absurd hkind h.1⟩
    rw [agrees_iff hw hr rfl, undone_iff] at h
    exact absurd h.2 (not_convertsBack_deserialize hkind _ _ _ _ _)

/-- An output agrees unless one side leaves it out, only a part of it arrives, or the server
or the proxy has no variable for it. -/
theorem agrees_output_iff {p : ParameterDescriptor} (hunset : p.type.rpcType = none)
    (hdirection : p.direction ≠ .in) :
    (output p.declared).Agrees platform ↔
      p.ioType ≠ .none ∧ p.type.type.kind ≠ .cString ∧ (p.type.type.bindsVariable = true ∧
        p.type.type.isAssignable = true) ∧ platform.carries p.type.type = true := by
  by_cases hio : p.ioType = .none
  · have hwrites : (output p.declared).writes = [] :=
      if_neg (show ¬(p.ioType = .inout ∨ p.ioType = .out) by rw [hio]; decide)
    exact ⟨fun h => absurd h (not_agrees_of_writes hwrites), fun h => absurd hio h.1⟩
  have houtput : p.declared.ioType = .inout ∨ p.declared.ioType = .out := by
    show p.ioType = .inout ∨ p.ioType = .out
    unfold ParameterDescriptor.direction at hdirection
    cases h : p.ioType <;> simp_all
  rw [and_iff_right hio]
  obtain hplain | hobject | hkind := p.type.type.kind_cases
  · rw [and_iff_right hplain.ne_cString]
    exact agrees_cast_iff (output p.declared) p.type.declared (rpcType_declared hunset) hplain rfl
      (ServerGenerator.bindOutput_plain houtput hplain) (ProxyGenerator.bindOutput_plain hplain)
  · rw [and_iff_right hobject.ne_text.1]
    exact agrees_serialize_iff (output p.declared) p.type.declared hobject rfl
      (ServerGenerator.bindOutput_object houtput hobject)
      (ProxyGenerator.bindOutput_object hobject)
  · have hreads : (output p.declared).reads = [] := ProxyGenerator.bindOutput_cString hkind
    exact ⟨fun h => absurd h (not_agrees_of_reads hreads), fun h => absurd hkind h.1⟩

theorem holdsValue_of_returnsTemporary {type : CppType} (h : type.returnsTemporary = true) :
    type.holdsValue = true :=
  (Bool.and_eq_true_iff.mp (Bool.and_eq_true_iff.mp h).1).1

theorem holdsValue_of_isReturned {type : CppType} {assignable : Bool}
    (h : type.isReturned assignable = true) : type.holdsValue = true := by
  unfold CppType.isReturned at h
  split at h
  · exact holdsValue_of_returnsTemporary h
  · exact holdsValue_of_returnsTemporary h
  · split at h
    · exact holdsValue_of_bindsVariable (Bool.and_eq_true_iff.mp h).2
    · exact holdsValue_of_returnsTemporary h
  · split at h
    · exact holdsValue_of_bindsVariable (Bool.and_eq_true_iff.mp h).2
    · exact holdsValue_of_returnsTemporary h
  · exact holdsValue_of_returnsTemporary (Bool.and_eq_true_iff.mp h).2
  · cases h

/-- The server has the value whenever the return statement of the proxy has it. -/
theorem sides_result_iff {type : CppType} {assignable : Bool} {target : Place}
    (htarget : (FieldContent.value type).takes target = type.isReturned assignable) :
    ((FieldContent.value type).gives .result = true ∧
      (FieldContent.value type).takes target = true) ↔ type.isReturned assignable = true := by
  rw [htarget]
  exact ⟨fun h => h.2, fun h => ⟨holdsValue_of_isReturned h, h⟩⟩

/-- A return value agrees unless the return statement of the proxy does not have it (there is
none for a text of the standard library), or only a part of it arrives. -/
theorem agrees_returnValue_iff {t : TypeDescriptor} (assignable : Bool)
    (hunset : t.rpcType = none) :
    (returnValue assignable t.declared).Agrees platform ↔
      t.type.isReturned assignable = true ∧ platform.carries t.type = true := by
  obtain hplain | hobject | hkind := t.type.kind_cases
  · by_cases htext : t.type.kind = .stdString
    · have hreads : (returnValue assignable t.declared).reads = [] :=
        ProxyGenerator.bindReturn_stdString assignable htext
      have hnone : t.type.isReturned assignable = false := by
        unfold CppType.isReturned
        rw [htext]
      rw [hnone]
      exact ⟨fun h => absurd h (not_agrees_of_reads hreads), fun h => absurd h.1 Bool.false_ne_true⟩
    · have htarget : (FieldContent.value t.type).takes .result = t.type.isReturned assignable := by
        unfold CppType.isReturned
        obtain h | h | h := hplain
        · rw [h]
          rfl
        · rw [h]
          rfl
        · exact absurd h htext
      rw [← and_congr_left_iff.mpr fun _ => sides_result_iff htarget]
      exact agrees_cast_iff (returnValue assignable t.declared) t.declared (rpcType_declared hunset)
        hplain rfl (ServerGenerator.bindReturn_plain hplain htext)
        (ProxyGenerator.bindReturn_plain assignable hplain htext)
  · have htarget : (FieldContent.value t.type).takes
        (if t.type.isConst && t.type.isReference then .member assignable else .result) =
          t.type.isReturned assignable := by
      have hreturned : t.type.isReturned assignable =
          if t.type.isConst && t.type.isReference then assignable && t.type.bindsVariable
          else t.type.returnsTemporary := by
        unfold CppType.isReturned
        obtain h | h := hobject <;> rw [h]
      rw [hreturned]
      split
      · show (assignable && if t.type.kind = .cString then _ else _) = _
        rw [if_neg hobject.ne_text.1]
      · rfl
    rw [← and_congr_left_iff.mpr fun _ => sides_result_iff htarget]
    exact agrees_serialize_iff (returnValue assignable t.declared) t.declared hobject rfl
      (ServerGenerator.bindReturn_object hobject)
      (ProxyGenerator.bindReturn_object assignable hobject)
  · have hw : (returnValue assignable t.declared).writes =
        [t.declared.write returnAccessor .plain .result] := by
      show ServerGenerator.bindReturn t.declared = _
      unfold ServerGenerator.bindReturn
      rw [show t.declared.type.kind = .cString from hkind]
    have hr : (returnValue assignable t.declared).reads =
        [t.declared.read returnAccessor .plain (.member assignable)] := by
      show ProxyGenerator.bindReturn assignable t.declared = _
      unfold ProxyGenerator.bindReturn
      rw [show t.declared.type.kind = .cString from hkind]
    have htarget : (FieldContent.value t.type).takes (.member assignable) =
        t.type.isReturned assignable := by
      show (assignable && if t.type.kind = .cString then _ else _) = _
      unfold CppType.isReturned
      rw [if_pos hkind, hkind]
    rw [agrees_iff hw hr rfl, undone_iff,
      ← and_congr_left_iff.mpr fun _ => sides_result_iff htarget]
    exact and_congr_right fun _ => ⟨fun _ => carries_cString hkind,
      fun _ => convertsBack_cString hkind returnAccessor _ _⟩

end Slot

/-! ## The accesses of a method -/

theorem perm_directions (params : List ParameterDescriptor) :
    params.Perm ((params.filter fun p => p.direction = .in) ++
      (params.filter fun p => p.direction = .inout) ++
      params.filter fun p => p.direction = .out) := by
  induction params with
  | nil => exact .nil
  | cons p rest ih =>
    cases hdirection : p.direction with
    | none => exact absurd hdirection p.direction_ne_none
    | «in» =>
      simp only [List.filter_cons, hdirection, decide_true, reduceCtorEq, decide_false, if_true,
        Bool.false_eq_true, if_false, List.cons_append]
      exact ih.cons p
    | inout =>
      simp only [List.filter_cons, hdirection, decide_true, reduceCtorEq, decide_false, if_true,
        Bool.false_eq_true, if_false, List.append_assoc, List.cons_append]
      rw [List.append_assoc] at ih
      exact (ih.cons p).trans List.perm_middle.symm
    | out =>
      simp only [List.filter_cons, hdirection, decide_true, reduceCtorEq, decide_false, if_true,
        Bool.false_eq_true, if_false]
      exact (ih.cons p).trans List.perm_middle.symm

namespace MethodDescriptor

variable {m : MethodDescriptor}

/-- The parameters by direction, in the order of the lists of the descriptor. -/
theorem perm_params (m : MethodDescriptor) :
    m.params.Perm (m.inParams ++ m.inoutParams ++ m.outParams) := perm_directions m.params

theorem mem_inParams {p : ParameterDescriptor} :
    p ∈ m.inParams ↔ p ∈ m.params ∧ p.direction = .in := by
  unfold inParams
  rw [List.mem_filter, decide_eq_true_eq]

theorem mem_inoutParams {p : ParameterDescriptor} :
    p ∈ m.inoutParams ↔ p ∈ m.params ∧ p.direction = .inout := by
  unfold inoutParams
  rw [List.mem_filter, decide_eq_true_eq]

theorem mem_outParams {p : ParameterDescriptor} :
    p ∈ m.outParams ↔ p ∈ m.params ∧ p.direction = .out := by
  unfold outParams
  rw [List.mem_filter, decide_eq_true_eq]

theorem mem_inputs {p : ParameterDescriptor} :
    p ∈ m.inParams ++ m.inoutParams ↔ p ∈ m.params ∧ p.direction ≠ .out := by
  rw [List.mem_append, mem_inParams, mem_inoutParams]
  cases h : p.direction with
  | none => exact absurd h p.direction_ne_none
  | _ => simp

theorem mem_outputs {p : ParameterDescriptor} :
    p ∈ m.inoutParams ++ m.outParams ↔ p ∈ m.params ∧ p.direction ≠ .in := by
  rw [List.mem_append, mem_inoutParams, mem_outParams]
  cases h : p.direction with
  | none => exact absurd h p.direction_ne_none
  | _ => simp

/-- Without inputs there is no slot for one. -/
theorem hasInputs_eq_false_iff : m.hasInputs = false ↔ m.inParams ++ m.inoutParams = [] := by
  unfold hasInputs
  simp [List.isEmpty_iff]

theorem hasOutputs_eq_false_iff : m.hasOutputs = false ↔
    m.inoutParams ++ m.outParams = [] ∧ m.returnsVoid = true := by
  unfold hasOutputs
  simp [List.isEmpty_iff, and_assoc]

theorem direction_of_no_inputs (h : m.hasInputs = false) : ∀ p ∈ m.params, p.direction = .out := by
  intro p hp
  by_contra hdirection
  have hmem := mem_inputs.mpr ⟨hp, hdirection⟩
  rw [hasInputs_eq_false_iff.mp h] at hmem
  cases hmem

theorem direction_of_no_outputs (h : m.hasOutputs = false) :
    ∀ p ∈ m.params, p.direction = .in := by
  intro p hp
  by_contra hdirection
  have hmem := mem_outputs.mpr ⟨hp, hdirection⟩
  rw [(hasOutputs_eq_false_iff.mp h).1] at hmem
  cases hmem

variable (m) (request response : Bool)

theorem inParams_declaredIn : (m.declaredIn request response).inParams =
    m.inParams.map (ParameterDescriptor.declaredIn request response) :=
  (ParameterDescriptor.keepsDeclared_declaredIn request response).filter_map .in m.params

theorem inoutParams_declaredIn : (m.declaredIn request response).inoutParams =
    m.inoutParams.map (ParameterDescriptor.declaredIn request response) :=
  (ParameterDescriptor.keepsDeclared_declaredIn request response).filter_map .inout m.params

theorem outParams_declaredIn : (m.declaredIn request response).outParams =
    m.outParams.map (ParameterDescriptor.declaredIn request response) :=
  (ParameterDescriptor.keepsDeclared_declaredIn request response).filter_map .out m.params

theorem returnsVoid_declaredIn : (m.declaredIn request response).returnsVoid = m.returnsVoid := by
  unfold returnsVoid declaredIn
  cases response <;> rfl

theorem hasOutputs_declaredIn : (m.declaredIn request response).hasOutputs = m.hasOutputs := by
  unfold hasOutputs
  rw [inoutParams_declaredIn, outParams_declaredIn, returnsVoid_declaredIn, List.isEmpty_map,
    List.isEmpty_map]

theorem sendsCompression_declaredIn :
    (m.declaredIn request response).sendsCompression = m.sendsCompression := by
  unfold sendsCompression
  rw [hasOutputs_declaredIn]
  rfl

end MethodDescriptor

theorem declaredIn_of_input {p : ParameterDescriptor} (h : p.direction ≠ .out) (response : Bool) :
    p.declaredIn true response = p.declared := if_pos (Or.inl ⟨rfl, h⟩)

theorem declaredIn_of_output {p : ParameterDescriptor} (h : p.direction ≠ .in) (request : Bool) :
    p.declaredIn request true = p.declared := if_pos (Or.inr ⟨rfl, h⟩)

/-- What is only an output has no read in the server. -/
theorem ServerGenerator.bindInput_of_out {p : ParameterDescriptor} (h : p.direction = .out) :
    ServerGenerator.bindInput p = [] := by
  unfold ServerGenerator.bindInput
  refine if_neg fun hio => ?_
  unfold ParameterDescriptor.direction at h
  obtain hio | hio := hio <;> rw [hio] at h <;> cases h

/-- What is only an input has no write in the server. -/
theorem ServerGenerator.bindOutput_of_in {p : ParameterDescriptor} (h : p.direction = .in) :
    ServerGenerator.bindOutput p = [] := by
  unfold ServerGenerator.bindOutput
  refine if_neg fun hio => ?_
  unfold ParameterDescriptor.direction at h
  obtain hio | hio := hio <;> rw [hio] at h <;> cases h

/-- One side of the slots of the inputs, once they are declared. -/
theorem flatMap_inputSlots {α : Type} (side : Slot → List α) (m : MethodDescriptor)
    (response : Bool) :
    m.inputSlots.flatMap side =
      ((m.declaredIn true response).inParams ++ (m.declaredIn true response).inoutParams).flatMap
        fun p => side (.input p) := by
  rw [m.inParams_declaredIn, m.inoutParams_declaredIn, ← List.map_append,
    MethodDescriptor.inputSlots, List.flatMap_map, List.flatMap_map]
  refine List.flatMap_congr fun p hp => ?_
  rw [declaredIn_of_input (MethodDescriptor.mem_inputs.mp hp).2]

theorem flatMap_outputSlots {α : Type} (side : Slot → List α) (m : MethodDescriptor)
    (request : Bool) :
    m.outputSlots.flatMap side =
      ((m.declaredIn request true).inoutParams ++ (m.declaredIn request true).outParams).flatMap
        fun p => side (.output p) := by
  rw [m.inoutParams_declaredIn, m.outParams_declaredIn, ← List.map_append,
    MethodDescriptor.outputSlots, List.flatMap_map, List.flatMap_map]
  refine List.flatMap_congr fun p hp => ?_
  rw [declaredIn_of_output (MethodDescriptor.mem_outputs.mp hp).2]

section Request

variable (m : MethodDescriptor) (response : Bool)

theorem requestWrites_eq :
    ProxyGenerator.requestWrites (m.declaredIn true response) =
      (compressionSlots m.sendsCompression ++ m.inputSlots).flatMap Slot.writes := by
  unfold ProxyGenerator.requestWrites
  rw [m.sendsCompression_declaredIn, List.flatMap_append,
    flatMap_inputSlots Slot.writes m response, ← List.flatMap_append]
  congr 1
  · cases m.sendsCompression <;> rfl
  · cases hin : (m.declaredIn true response).hasInputs with
    | true => rfl
    | false =>
      have hnone := MethodDescriptor.hasInputs_eq_false_iff.mp hin
      rw [if_neg Bool.false_ne_true, hnone]
      rfl

theorem requestReads_perm :
    (ServerGenerator.requestReads (m.declaredIn true response)).Perm
      ((compressionSlots m.sendsCompression ++ m.inputSlots).flatMap Slot.reads) := by
  have hout : (m.declaredIn true response).outParams.flatMap ServerGenerator.bindInput = [] :=
    List.flatMap_eq_nil_iff.mpr fun p hp =>
      ServerGenerator.bindInput_of_out (MethodDescriptor.mem_outParams.mp hp).2
  have hparams := (m.declaredIn true response).perm_params.flatMap_right ServerGenerator.bindInput
  rw [List.flatMap_append, hout, List.append_nil] at hparams
  unfold ServerGenerator.requestReads
  rw [m.sendsCompression_declaredIn, List.flatMap_append,
    flatMap_inputSlots Slot.reads m response]
  have hcompression : (compressionSlots m.sendsCompression).flatMap Slot.reads =
      if m.sendsCompression = true then
        [⟨compressionAccessor, .compressionFormat, .staticCast "xpcf::grpcCompressType",
          .generated⟩]
      else [] := by
    cases m.sendsCompression <;> rfl
  rw [hcompression]
  exact hparams.append_left _

end Request

section Response

variable (m : MethodDescriptor) (request : Bool)

theorem responseReads_eq (members : Table String ProxyGenerator.ProxyMember) :
    ProxyGenerator.responseReads members (m.declaredIn request true) =
      (m.responseSlots (ProxyGenerator.assignsMember members m)).flatMap Slot.reads := by
  unfold ProxyGenerator.responseReads MethodDescriptor.responseSlots MethodDescriptor.returnSlots
  rw [List.flatMap_append, flatMap_outputSlots Slot.reads m request, m.returnsVoid_declaredIn,
    ← List.flatMap_append]
  congr 1
  · cases hany : (m.declaredIn request true).hasOutputs with
    | true => rfl
    | false =>
      have hnone := (MethodDescriptor.hasOutputs_eq_false_iff.mp hany).1
      rw [if_neg Bool.false_ne_true, hnone]
      rfl
  · cases m.returnsVoid with
    | true => rfl
    | false => exact (List.append_nil _).symm

theorem responseWrites_perm (assignable : Bool) :
    (ServerGenerator.responseWrites (m.declaredIn request true)).Perm
      ((m.responseSlots assignable).flatMap Slot.writes) := by
  have hin : (m.declaredIn request true).inParams.flatMap ServerGenerator.bindOutput = [] :=
    List.flatMap_eq_nil_iff.mpr fun p hp =>
      ServerGenerator.bindOutput_of_in (MethodDescriptor.mem_inParams.mp hp).2
  have hparams := (m.declaredIn request true).perm_params.flatMap_right ServerGenerator.bindOutput
  rw [List.append_assoc, List.flatMap_append, hin, List.nil_append] at hparams
  unfold ServerGenerator.responseWrites MethodDescriptor.responseSlots
    MethodDescriptor.returnSlots
  rw [List.flatMap_append, flatMap_outputSlots Slot.writes m request, m.returnsVoid_declaredIn]
  have hreturn : (if m.returnsVoid = true then []
      else [Slot.returnValue assignable m.returnType.declared]).flatMap Slot.writes =
      if m.returnsVoid = true then [] else ServerGenerator.bindReturn m.returnType.declared := by
    cases m.returnsVoid with
    | true => rfl
    | false => exact List.append_nil _
  rw [hreturn]
  exact hparams.append_right _

end Response

end Xpcf.GrpcGen
