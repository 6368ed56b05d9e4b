import Xpcf.Proofs.MessageSlots
import Xpcf.Proofs.RpcNames

/-!
# The three generators on one method

The proto file, the proxy and the server agree on the messages of a method
unless something of it is left out, packed by one side only, or cut off.
-/

namespace Xpcf.GrpcGen

open CodeLib
open ProxyGenerator (ProxyMember memberVariables assignsMember)

/-! ## Plain methods -/

namespace MethodDescriptor

/-- The names of the fields of the request. -/
def requestFieldNames (m : MethodDescriptor) : List String :=
  (if m.sendsCompression then ["grpcServerCompressionFormat"] else []) ++
    (m.inParams ++ m.inoutParams).map fun p => (tryTranscribeName p).name

/-- The names of the fields of the response. -/
def responseFieldNames (m : MethodDescriptor) : List String :=
  (m.inoutParams ++ m.outParams).map (fun p => (tryTranscribeName p).name) ++
    if m.returnsVoid then [] else ["xpcfGrpcReturnValue"]

/-- The response was given the name of the empty message though there are outputs. -/
def deniesOutputs (m : MethodDescriptor) : Bool :=
  m.hasOutputs && m.responseName = protoEmptyMessage

end MethodDescriptor

/-- A method whose request is declared, written and read alike. -/
structure PlainRequest (platform : Platform) (m : MethodDescriptor) : Prop where
  /-- The server reads only what has a direction of its own. -/
  directions : ∀ p ∈ m.params, p.ioType ≠ .none
  inputs : ∀ p ∈ m.params, p.direction ≠ .out →
    p.type.type.kind ≠ .cString ∧ p.type.type.bindsVariable = true ∧
      platform.carries p.type.type = true
  /-- The name of the empty message is for methods that send nothing. -/
  request_name : m.requestName ∈ [MethodDescriptor.emptyMessage, protoEmptyMessage] →
    m.hasInputs = false ∧ m.sendsCompression = false
  compression : m.deniesOutputs = true → m.compressionDisabled = true
  names_differ : (m.requestFieldNames.map accessorName).Nodup

/-- No output has an access in the generated components. -/
structure OutputsDropped (m : MethodDescriptor) : Prop where
  outputs : ∀ p ∈ m.params, p.direction ≠ .in → p.type.type.kind = .cString
  returned : m.returnsVoid = false → m.returnType.type.kind = .stdString

/-- Every output has a field that carries it. -/
structure OutputsCarried (platform : Platform) (members : Table String ProxyMember)
    (m : MethodDescriptor) : Prop where
  outputs : ∀ p ∈ m.params, p.direction ≠ .in →
    p.type.type.kind ≠ .cString ∧ (p.type.type.bindsVariable = true ∧
      p.type.type.isAssignable = true) ∧ platform.carries p.type.type = true
  returned : m.returnsVoid = false →
    m.returnType.type.isReturned (assignsMember members m) = true ∧
      platform.carries m.returnType.type = true
  names_differ : (m.responseFieldNames.map accessorName).Nodup

/-- A method on whose messages the generators agree. -/
structure PlainMethod (platform : Platform) (members : Table String ProxyMember)
    (m : MethodDescriptor) : Prop where
  request : PlainRequest platform m
  response : if m.deniesOutputs = true then OutputsDropped m else OutputsCarried platform members m

/-! ## The names that `prepareMessages` sets -/

theorem append_ne_protoEmptyMessage {name ending : String} {c : Char}
    (hending : ending.toList.getLast? = some c) (hc : c ≠ 'y') :
    name ++ ending ≠ protoEmptyMessage := by
  intro h
  have hlast := congrArg (fun s => s.toList.getLast?) h
  simp only [String.toList_append, List.getLast?_append, hending, Option.some_or] at hlast
  have hy : protoEmptyMessage.toList.getLast? = some 'y' := by decide
  rw [hy] at hlast
  exact hc (Option.some.inj hlast)

theorem hasRequest_prepareMessages (m : MethodDescriptor) :
    m.prepareMessages.hasRequest = true ↔
      m.requestName ∉ [MethodDescriptor.emptyMessage, protoEmptyMessage] := by
  unfold MethodDescriptor.hasRequest MethodDescriptor.prepareMessages
  simp only [decide_eq_true_eq, List.mem_cons, List.not_mem_nil, or_false, not_or]
  by_cases hempty : m.requestName = MethodDescriptor.emptyMessage
  · simp [hempty]
  · rw [if_neg hempty]
    by_cases hnone : m.requestName.isEmpty = true
    · rw [if_pos hnone]
      have hname : m.requestName = "" := by simpa using hnone
      rw [hname]
      have hne : m.rpcName ++ "Request" ≠ protoEmptyMessage :=
        append_ne_protoEmptyMessage (c := 't') (by decide) (by decide)
      exact ⟨fun _ => by decide, fun _ => hne⟩
    · rw [if_neg hnone]
      exact ⟨fun h => ⟨hempty, h⟩, fun h => h.2⟩

theorem hasResponse_prepareMessages (m : MethodDescriptor) :
    m.prepareMessages.hasResponse = (m.hasOutputs && !m.deniesOutputs) := by
  unfold MethodDescriptor.hasResponse MethodDescriptor.prepareMessages
    MethodDescriptor.deniesOutputs
  cases houtputs : m.hasOutputs with
  | false => rfl
  | true =>
    rw [if_pos rfl]
    by_cases hnone : m.responseName.isEmpty = true
    · rw [if_pos hnone]
      have hname : m.responseName = "" := by simpa using hnone
      have hne : m.rpcName ++ "Response" ≠ protoEmptyMessage :=
        append_ne_protoEmptyMessage (c := 'e') (by decide) (by decide)
      rw [hname, decide_eq_true hne]
      decide
    · rw [if_neg hnone]
      simp

/-! ## The request -/

/-- No cast was chosen yet. -/
structure MethodDescriptor.Unset (m : MethodDescriptor) : Prop where
  returned : m.returnType.rpcType = none
  params : ∀ p ∈ m.params, p.type.rpcType = none

theorem ioType_ne_none_of_out {p : ParameterDescriptor} (h : p.direction = .out) :
    p.ioType ≠ .none := by
  intro hio
  unfold ParameterDescriptor.direction at h
  rw [hio] at h
  dsimp only at h
  split at h <;> cases h

section Request

variable {platform : Platform} {m : MethodDescriptor}

theorem agrees_inputSlots_iff (hunset : m.Unset) :
    (∀ s ∈ m.inputSlots, s.Agrees platform) ↔
      ∀ p ∈ m.params, p.direction ≠ .out →
        p.ioType ≠ .none ∧ p.type.type.kind ≠ .cString ∧ p.type.type.bindsVariable = true ∧
          platform.carries p.type.type = true := by
  unfold MethodDescriptor.inputSlots
  rw [List.forall_mem_map]
  constructor
  · intro h p hp hdirection
    have hagrees := h p (MethodDescriptor.mem_inputs.mpr ⟨hp, hdirection⟩)
    exact (Slot.agrees_input_iff (hunset.params p hp) hdirection).mp hagrees
  · intro h p hp
    obtain ⟨hmem, hdirection⟩ := MethodDescriptor.mem_inputs.mp hp
    exact (Slot.agrees_input_iff (hunset.params p hmem) hdirection).mpr (h p hmem hdirection)

theorem map_accessor_request (m : MethodDescriptor) :
    (compressionSlots m.sendsCompression ++ m.inputSlots).map Slot.accessor =
      m.requestFieldNames.map accessorName := by
  have hinputs : m.inputSlots.map Slot.accessor =
      ((m.inParams ++ m.inoutParams).map fun p => (tryTranscribeName p).name).map accessorName := by
    unfold MethodDescriptor.inputSlots
    rw [List.map_map, List.map_map]
    rfl
  unfold MethodDescriptor.requestFieldNames
  rw [List.map_append, List.map_append, hinputs]
  congr 1
  cases m.sendsCompression <;> rfl

/-- All slots are written in a request, so the compression format is declared exactly where it
is sent. -/
theorem sendsCompression_of_agree {reads : List FieldRead} {declared sent : Bool}
    (hsent : declared = true → sent = true)
    (h : FieldsAgree platform ((compressionSlots declared ++ m.inputSlots).map Slot.field)
      ((compressionSlots sent ++ m.inputSlots).flatMap Slot.writes) reads) : sent = declared := by
  have hall : ∀ s ∈ compressionSlots sent ++ m.inputSlots, s.writes ≠ [] := by
    intro s hs
    cases List.mem_append.mp hs with
    | inl hcompression =>
      cases sent with
      | false => exact absurd hcompression List.not_mem_nil
      | true =>
        rw [List.mem_singleton.mp hcompression]
        exact List.cons_ne_nil _ _
    | inr hinput =>
      obtain ⟨p, _, rfl⟩ := List.mem_map.mp hinput
      show ProxyGenerator.bindInput p.declared ≠ []
      unfold ProxyGenerator.bindInput
      split <;> exact List.cons_ne_nil _ _
  have hlength := h.writes_declared.length_eq
  rw [Slot.map_accessor_flatMap Slot.writes_once hall] at hlength
  simp only [List.length_map, List.length_append] at hlength
  cases sent with
  | true =>
    cases declared with
    | true => rfl
    | false =>
      have hone : (compressionSlots true).length = 1 := rfl
      have hnone : (compressionSlots false).length = 0 := rfl
      omega
  | false =>
    cases declared with
    | true => exact hsent rfl
    | false => rfl

theorem hasInputs_declaredIn (m : MethodDescriptor) (request response : Bool) :
    (m.declaredIn request response).hasInputs = m.hasInputs := by
  unfold MethodDescriptor.hasInputs
  rw [m.inParams_declaredIn, m.inoutParams_declaredIn, List.isEmpty_map, List.isEmpty_map]

/-- A request that is not declared has no access exactly when nothing is sent. -/
theorem requestAccesses_nil_iff (m : MethodDescriptor) (response : Bool) :
    ProxyGenerator.requestWrites (m.declaredIn false response) = [] ∧
        ServerGenerator.requestReads (m.declaredIn false response) = [] ↔
      m.hasInputs = false ∧ m.sendsCompression = false := by
  unfold ProxyGenerator.requestWrites ServerGenerator.requestReads
  rw [m.sendsCompression_declaredIn, hasInputs_declaredIn]
  constructor
  · rintro ⟨hwrites, _⟩
    obtain ⟨hcompression, hinputs⟩ := List.append_eq_nil_iff.mp hwrites
    have hsends : m.sendsCompression = false := by
      cases h : m.sendsCompression with
      | false => rfl
      | true =>
        rw [h] at hcompression
        cases hcompression
    refine ⟨?_, hsends⟩
    cases hin : m.hasInputs with
    | false => rfl
    | true =>
      rw [hin, if_pos rfl, ← List.flatMap_append] at hinputs
      have hnone : (m.declaredIn false response).inParams ++
          (m.declaredIn false response).inoutParams = [] := by
        refine List.eq_nil_iff_forall_not_mem.mpr fun p hp => ?_
        have haccess := List.flatMap_eq_nil_iff.mp hinputs p hp
        unfold ProxyGenerator.bindInput at haccess
        split at haccess <;> cases haccess
      have hempty := MethodDescriptor.hasInputs_eq_false_iff.mpr hnone
      rw [hasInputs_declaredIn, hin] at hempty
      exact hempty
  · rintro ⟨hin, hsends⟩
    rw [hin, hsends]
    refine ⟨rfl, ?_⟩
    show (m.declaredIn false response).params.flatMap ServerGenerator.bindInput = []
    rw [← hasInputs_declaredIn m false response] at hin
    exact List.flatMap_eq_nil_iff.mpr fun p hp =>
      ServerGenerator.bindInput_of_out (MethodDescriptor.direction_of_no_inputs hin p hp)

/-- The fields of the request in the proto file. -/
def MethodDescriptor.requestFields (m : MethodDescriptor) : List ProtoField :=
  if m.hasRequest = true then m.requestSlots.map Slot.field else []

theorem requestAgrees_iff (hunset : m.Unset) :
    FieldsAgree platform m.prepareMessages.requestFields
      (ProxyGenerator.requestWrites
        (m.prepareMessages.declaredIn m.prepareMessages.hasRequest m.prepareMessages.hasResponse))
      (ServerGenerator.requestReads
        (m.prepareMessages.declaredIn m.prepareMessages.hasRequest m.prepareMessages.hasResponse)) ↔
    PlainRequest platform m := by
  have hdeclares : m.prepareMessages.declaresCompression =
      (m.sendsCompression && !m.deniesOutputs) := by
    show decide (m.prepareMessages.responseName ≠ protoEmptyMessage ∧
      m.compressionDisabled = false) = _
    have hresponse := hasResponse_prepareMessages m
    unfold MethodDescriptor.hasResponse at hresponse
    rw [Bool.decide_and, hresponse]
    unfold MethodDescriptor.sendsCompression
    cases m.hasOutputs <;> cases m.deniesOutputs <;> cases m.compressionDisabled <;> rfl
  have hkept : (m.sendsCompression = (m.sendsCompression && !m.deniesOutputs)) ↔
      (m.deniesOutputs = true → m.compressionDisabled = true) := by
    unfold MethodDescriptor.sendsCompression MethodDescriptor.deniesOutputs
    cases m.hasOutputs <;> cases m.compressionDisabled <;> simp
  unfold MethodDescriptor.requestFields
  cases hrequest : m.prepareMessages.hasRequest with
  | false =>
    have hname : m.requestName ∈ [MethodDescriptor.emptyMessage, protoEmptyMessage] := by
      by_contra hnot
      rw [(hasRequest_prepareMessages m).mpr hnot] at hrequest
      cases hrequest
    rw [if_neg Bool.false_ne_true, fieldsAgree_nil_iff, requestAccesses_nil_iff]
    show m.hasInputs = false ∧ m.sendsCompression = false ↔ _
    refine ⟨fun h => ?_, fun h => h.request_name hname⟩
    have hout := MethodDescriptor.direction_of_no_inputs h.1
    refine ⟨fun p hp => ioType_ne_none_of_out (hout p hp),
      fun p hp hdirection => absurd (hout p hp) hdirection, fun _ => h,
      hkept.mp (by rw [h.2, Bool.false_and]), ?_⟩
    unfold MethodDescriptor.requestFieldNames
    rw [h.2, MethodDescriptor.hasInputs_eq_false_iff.mp h.1]
    exact List.nodup_nil
  | true =>
    have hname := (hasRequest_prepareMessages m).mp hrequest
    rw [if_pos rfl, requestWrites_eq, FieldsAgree.perm_iff (.refl _) (requestReads_perm _ _),
      MethodDescriptor.requestSlots, hdeclares]
    change FieldsAgree platform
      ((compressionSlots (m.sendsCompression && !m.deniesOutputs) ++ m.inputSlots).map Slot.field)
      ((compressionSlots m.sendsCompression ++ m.inputSlots).flatMap Slot.writes)
      ((compressionSlots m.sendsCompression ++ m.inputSlots).flatMap Slot.reads) ↔ _
    constructor
    · intro h
      have hsame := sendsCompression_of_agree (fun hboth => (Bool.and_eq_true_iff.mp hboth).1) h
      rw [← hsame, fieldsAgree_slots_iff, map_accessor_request] at h
      have hinputs := (agrees_inputSlots_iff hunset).mp
        fun s hs => h.2 s (List.mem_append_right _ hs)
      refine ⟨fun p hp => ?_, fun p hp hdirection => (hinputs p hp hdirection).2,
        fun hmem => absurd hmem hname, hkept.mp hsame, h.1⟩
      by_cases hdirection : p.direction = .out
      · exact ioType_ne_none_of_out hdirection
      · exact (hinputs p hp hdirection).1
    · intro h
      rw [← hkept.mpr h.compression, fieldsAgree_slots_iff, map_accessor_request]
      refine ⟨h.names_differ, fun s hs => ?_⟩
      cases List.mem_append.mp hs with
      | inl hcompression =>
        unfold compressionSlots at hcompression
        split at hcompression
        · rw [List.mem_singleton.mp hcompression]
          exact Slot.agrees_compression
        · cases hcompression
      | inr hinput =>
        exact (agrees_inputSlots_iff hunset).mpr
          (fun p hp hdirection => ⟨h.directions p hp, h.inputs p hp hdirection⟩) s hinput

end Request

/-! ## The response -/

section Response

variable {platform : Platform} {m : MethodDescriptor}

theorem agrees_responseSlots_iff (assignable : Bool) (hunset : m.Unset)
    (hdirections : ∀ p ∈ m.params, p.ioType ≠ .none) :
    (∀ s ∈ m.responseSlots assignable, s.Agrees platform) ↔
      (∀ p ∈ m.params, p.direction ≠ .in →
        p.type.type.kind ≠ .cString ∧ (p.type.type.bindsVariable = true ∧
          p.type.type.isAssignable = true) ∧ platform.carries p.type.type = true) ∧
      (m.returnsVoid = false →
        m.returnType.type.isReturned assignable = true ∧
          platform.carries m.returnType.type = true) := by
  unfold MethodDescriptor.responseSlots
  rw [List.forall_mem_append]
  refine and_congr ?_ ?_
  · unfold MethodDescriptor.outputSlots
    rw [List.forall_mem_map]
    constructor
    · intro h p hp hdirection
      have hagrees := h p (MethodDescriptor.mem_outputs.mpr ⟨hp, hdirection⟩)
      exact ((Slot.agrees_output_iff (hunset.params p hp) hdirection).mp hagrees).2
    · intro h p hp
      obtain ⟨hmem, hdirection⟩ := MethodDescriptor.mem_outputs.mp hp
      exact (Slot.agrees_output_iff (hunset.params p hmem) hdirection).mpr
        ⟨hdirections p hmem, h p hmem hdirection⟩
  · unfold MethodDescriptor.returnSlots
    cases m.returnsVoid with
    | true =>
      exact ⟨fun _ hvoid => absurd hvoid (by decide), fun _ s hs => absurd hs List.not_mem_nil⟩
    | false =>
      rw [if_neg Bool.false_ne_true, List.forall_mem_singleton]
      rw [Slot.agrees_returnValue_iff assignable hunset.returned]
      exact ⟨fun h _ => h, fun h => h rfl⟩

theorem map_accessor_response (assignable : Bool) (m : MethodDescriptor) :
    (m.responseSlots assignable).map Slot.accessor = m.responseFieldNames.map accessorName := by
  have houtputs : m.outputSlots.map Slot.accessor =
      ((m.inoutParams ++ m.outParams).map fun p =>
        (tryTranscribeName p).name).map accessorName := by
    unfold MethodDescriptor.outputSlots
    rw [List.map_map, List.map_map]
    rfl
  unfold MethodDescriptor.responseSlots MethodDescriptor.responseFieldNames
    MethodDescriptor.returnSlots
  rw [List.map_append, List.map_append, houtputs]
  congr 1
  cases m.returnsVoid <;> rfl

/-- A response that is not declared has no access exactly when every output is dropped. -/
theorem responseAccesses_nil_iff (members : Table String ProxyMember) (m : MethodDescriptor)
    (request : Bool) :
    ServerGenerator.responseWrites (m.declaredIn request false) = [] ∧
        ProxyGenerator.responseReads members (m.declaredIn request false) = [] ↔
      OutputsDropped m := by
  have htype : ∀ p : ParameterDescriptor, (p.declaredIn request false).type.type = p.type.type :=
    fun p => by
      obtain h | h := p.declaredIn_cases request false
      · rw [h]
        rfl
      · rw [h]
  unfold ServerGenerator.responseWrites ProxyGenerator.responseReads
  rw [m.returnsVoid_declaredIn, m.hasOutputs_declaredIn]
  constructor
  · rintro ⟨_, hreads⟩
    obtain ⟨houtputs, hreturn⟩ := List.append_eq_nil_iff.mp hreads
    refine ⟨fun p hp hdirection => ?_, fun hvoid => ?_⟩
    · have hmem := MethodDescriptor.mem_outputs.mpr ⟨hp, hdirection⟩
      have hany : m.hasOutputs = true := by
        by_contra hnot
        rw [Bool.not_eq_true, MethodDescriptor.hasOutputs_eq_false_iff] at hnot
        rw [hnot.1] at hmem
        cases hmem
      rw [hany, if_pos rfl, m.inoutParams_declaredIn, m.outParams_declaredIn,
        ← List.flatMap_append, ← List.map_append] at houtputs
      have haccess := List.flatMap_eq_nil_iff.mp houtputs _ (List.mem_map_of_mem hmem)
      unfold ProxyGenerator.bindOutput at haccess
      rw [htype] at haccess
      dsimp only at haccess
      split at haccess
      all_goals first
        | assumption
        | cases haccess
    · rw [hvoid, if_neg Bool.false_ne_true] at hreturn
      change ProxyGenerator.bindReturn (assignsMember members m) m.returnType = [] at hreturn
      unfold ProxyGenerator.bindReturn at hreturn
      split at hreturn
      all_goals first
        | assumption
        | cases hreturn
  · intro h
    have hkind : ∀ p ∈ (m.declaredIn request false).params, p.direction ≠ .in →
        p.type.type.kind = .cString := by
      intro p hp hdirection
      obtain ⟨p0, hp0, rfl⟩ := List.mem_map.mp hp
      rw [(ParameterDescriptor.keepsDeclared_declaredIn request false p0).2] at hdirection
      rw [htype]
      exact h.outputs p0 hp0 hdirection
    constructor
    · refine List.append_eq_nil_iff.mpr ⟨List.flatMap_eq_nil_iff.mpr fun p hp => ?_, ?_⟩
      · by_cases hdirection : p.direction = .in
        · exact ServerGenerator.bindOutput_of_in hdirection
        · unfold ServerGenerator.bindOutput
          rw [hkind p hp hdirection]
          exact ite_self _
      · cases hvoid : m.returnsVoid with
        | true => rfl
        | false =>
          show ServerGenerator.bindReturn m.returnType = []
          unfold ServerGenerator.bindReturn
          rw [h.returned hvoid]
    · refine List.append_eq_nil_iff.mpr ⟨?_, ?_⟩
      · split
        · rw [← List.flatMap_append]
          refine List.flatMap_eq_nil_iff.mpr fun p hp => ?_
          obtain ⟨hmem, hdirection⟩ := MethodDescriptor.mem_outputs.mp hp
          exact ProxyGenerator.bindOutput_cString (hkind p hmem hdirection)
        · rfl
      · cases hvoid : m.returnsVoid with
        | true => rfl
        | false => exact ProxyGenerator.bindReturn_stdString _ (h.returned hvoid)

/-- The fields of the response in the proto file. -/
def MethodDescriptor.responseFields (m : MethodDescriptor) (assignable : Bool) :
    List ProtoField :=
  if m.hasResponse = true then (m.responseSlots assignable).map Slot.field else []

theorem responseAgrees_iff (members : Table String ProxyMember) (hunset : m.Unset)
    (hdirections : ∀ p ∈ m.params, p.ioType ≠ .none) :
    FieldsAgree platform (m.prepareMessages.responseFields (assignsMember members m))
      (ServerGenerator.responseWrites
        (m.prepareMessages.declaredIn m.prepareMessages.hasRequest m.prepareMessages.hasResponse))
      (ProxyGenerator.responseReads members
        (m.prepareMessages.declaredIn m.prepareMessages.hasRequest m.prepareMessages.hasResponse)) ↔
    if m.deniesOutputs = true then OutputsDropped m else OutputsCarried platform members m := by
  have hcarried : OutputsCarried platform members m ↔
      (m.responseFieldNames.map accessorName).Nodup ∧
        ∀ s ∈ m.responseSlots (assignsMember members m), s.Agrees platform := by
    rw [agrees_responseSlots_iff _ hunset hdirections]
    exact ⟨fun h => ⟨h.names_differ, h.outputs, h.returned⟩, fun h => ⟨h.2.1, h.2.2, h.1⟩⟩
  have hprepared := hasResponse_prepareMessages m
  unfold MethodDescriptor.responseFields
  cases hresponse : m.prepareMessages.hasResponse with
  | true =>
    rw [hresponse] at hprepared
    have hkept : m.deniesOutputs = false := by
      have hboth := Bool.and_eq_true_iff.mp hprepared.symm
      simpa using hboth.2
    rw [if_pos rfl, responseReads_eq, FieldsAgree.perm_iff (responseWrites_perm _ _ _) (.refl _),
      hkept, if_neg Bool.false_ne_true, hcarried, ← map_accessor_response]
    exact fieldsAgree_slots_iff
  | false =>
    rw [hresponse] at hprepared
    rw [if_neg Bool.false_ne_true, fieldsAgree_nil_iff, responseAccesses_nil_iff]
    have hsame : OutputsDropped m.prepareMessages ↔ OutputsDropped m :=
      ⟨fun h => ⟨h.outputs, h.returned⟩, fun h => ⟨h.outputs, h.returned⟩⟩
    rw [hsame]
    cases hdenies : m.deniesOutputs with
    | true => rw [if_pos rfl]
    | false =>
      -- there is no output at all
      have hnone : m.hasOutputs = false := by
        rw [hdenies] at hprepared
        simpa using hprepared.symm
      obtain ⟨hempty, hvoid⟩ := MethodDescriptor.hasOutputs_eq_false_iff.mp hnone
      have hinputs := MethodDescriptor.direction_of_no_outputs hnone
      rw [if_neg Bool.false_ne_true]
      refine ⟨fun _ => ⟨fun p hp h => absurd (hinputs p hp) h, fun h => ?_, ?_⟩,
        fun _ => ⟨fun p hp h => absurd (hinputs p hp) h, fun h => ?_⟩⟩
      · rw [hvoid] at h
        cases h
      · unfold MethodDescriptor.responseFieldNames
        rw [hempty, hvoid]
        exact List.nodup_nil
      · rw [hvoid] at h
        cases h

end Response

/-- The generators agree on plain methods, and on no others. -/
theorem methodAgrees_prepareMessages_iff {platform : Platform}
    (members : Table String ProxyMember) {m : MethodDescriptor} (hunset : m.Unset) :
    MethodAgrees platform members m.prepareMessages ↔ PlainMethod platform members m := by
  have hfields : ∀ {name : String} {fields : List ProtoField} {declared : Bool},
      (if declared = true then [ProtoMessage.mk name fields] else []).flatMap ProtoMessage.fields =
        if declared = true then fields else [] := by
    intro name fields declared
    cases declared with
    | true => exact List.append_nil fields
    | false => rfl
  unfold MethodAgrees
  rw [generateMessages_eq _ (assignsMember members m)]
  constructor
  · rintro ⟨request, response, m1, hgenerated, hrequest, hresponse⟩
    cases hgenerated
    rw [hfields] at hrequest hresponse
    have hplain := (requestAgrees_iff hunset).mp hrequest
    exact ⟨hplain, (responseAgrees_iff members hunset hplain.directions).mp hresponse⟩
  · intro h
    refine ⟨_, _, _, rfl, ?_, ?_⟩
    · rw [hfields]
      exact (requestAgrees_iff hunset).mpr h.request
    · rw [hfields]
      exact (responseAgrees_iff members hunset h.request.directions).mpr h.response

/-! ## The methods of a parsed interface -/

namespace MethodDescriptor

theorem readAttribute_types (m : MethodDescriptor) (attrib : CppAttribute) :
    (m.readAttribute attrib).params = m.params ∧
      (m.readAttribute attrib).returnType = m.returnType := by
  unfold readAttribute
  split
  · split <;> exact ⟨rfl, rfl⟩
  · exact ⟨rfl, rfl⟩

theorem foldl_readAttribute_types (attributes : List CppAttribute) (m : MethodDescriptor) :
    (attributes.foldl readAttribute m).params = m.params ∧
      (attributes.foldl readAttribute m).returnType = m.returnType := by
  induction attributes generalizing m with
  | nil => exact ⟨rfl, rfl⟩
  | cons attrib rest ih =>
    rw [List.foldl_cons, (ih _).1, (ih _).2]
    exact m.readAttribute_types attrib

/-- Parsing chooses no cast. -/
theorem unset_parse (m : CppMemberFunction) (compressionDisabled : Bool) :
    ((new m compressionDisabled).parse).Unset := by
  have hread := foldl_readAttribute_types m.attributes
    { new m compressionDisabled with isConst := m.isConst }
  have hreturn : (m.attributes.foldl readAttribute
      { new m compressionDisabled with isConst := m.isConst }).returnType.rpcType = none := by
    rw [hread.2]
    rfl
  unfold parse
  dsimp only
  split
  · refine ⟨hreturn, fun p hp => ?_⟩
    rw [show (new m compressionDisabled).baseMethod.attributes = m.attributes from rfl,
      show (new m compressionDisabled).baseMethod.isConst = m.isConst from rfl, hread.1] at hp
    cases hp
  · refine ⟨hreturn, fun p hp => ?_⟩
    obtain ⟨parameter, _, rfl⟩ := List.mem_map.mp hp
    rfl

end MethodDescriptor

theorem addMethods_unset (compressionDisabled : Bool) (s : ParsedMethods) (c : ClassEntity)
    (h : ∀ m ∈ s.virtualMethods, m.Unset) :
    ∀ m ∈ (s.addMethods compressionDisabled c).virtualMethods, m.Unset := by
  unfold ParsedMethods.addMethods
  induction c.memberFunctions generalizing s with
  | nil => exact h
  | cons f rest ih =>
    rw [List.foldl_cons]
    apply ih
    unfold ParsedMethods.addMethod
    dsimp only
    split
    · intro m hm
      cases List.mem_append.mp hm with
      | inl hold => exact h m hold
      | inr hnew =>
        rw [List.mem_singleton.mp hnew]
        exact MethodDescriptor.unset_parse f compressionDisabled
    · exact h

mutual

theorem parseMethods_unset (compressionDisabled : Bool) : ∀ (c : CppClass) (s : ParsedMethods),
    (∀ m ∈ s.virtualMethods, m.Unset) →
      ∀ m ∈ (parseMethods compressionDisabled c s).virtualMethods, m.Unset
  | .mk entity bases, s, h => by
    rw [parseMethods]
    exact addMethods_unset compressionDisabled _ entity
      (parseBases_unset compressionDisabled bases s h)

theorem parseBases_unset (compressionDisabled : Bool) : ∀ (bases : BaseClasses)
    (s : ParsedMethods), (∀ m ∈ s.virtualMethods, m.Unset) →
      ∀ m ∈ (parseBases compressionDisabled bases s).virtualMethods, m.Unset
  | .nil, s, h => h
  | .unknown name rest, s, h => by
    rw [parseBases]
    exact parseBases_unset compressionDisabled rest _ h
  | .known name cls rest, s, h => by
    rw [parseBases]
    split
    · exact parseBases_unset compressionDisabled rest _ h
    · exact parseBases_unset compressionDisabled rest _
        (parseMethods_unset compressionDisabled cls _ h)

end

theorem setRpcName_unset {methods : List MethodDescriptor} (h : ∀ m ∈ methods, m.Unset)
    (index : Nat) (rpcName : String) : ∀ m ∈ setRpcName methods index rpcName, m.Unset := by
  intro m hm
  obtain ⟨j, hj⟩ := List.mem_iff_getElem?.mp hm
  rw [getElem?_setRpcName] at hj
  split at hj
  · obtain ⟨m0, hm0, rfl⟩ := Option.map_eq_some_iff.mp hj
    have hunset := h m0 (List.mem_of_getElem? hm0)
    exact ⟨hunset.returned, hunset.params⟩
  · exact h m (List.mem_of_getElem? hj)

theorem nameOverloads_unset (name : String) (indexArray : List Nat) (methodIndex : Nat)
    {methods : List MethodDescriptor} (h : ∀ m ∈ methods, m.Unset) :
    ∀ m ∈ nameOverloads name indexArray methodIndex methods, m.Unset := by
  induction indexArray generalizing methodIndex methods with
  | nil => exact h
  | cons index rest ih => exact ih (methodIndex + 1) (setRpcName_unset h index _)

theorem generateRpcMapping_unset (map : List (String × List Nat)) {methods : List MethodDescriptor}
    (h : ∀ m ∈ methods, m.Unset) : ∀ m ∈ generateRpcMapping map methods, m.Unset := by
  unfold generateRpcMapping
  induction map generalizing methods with
  | nil => exact h
  | cons entry rest ih =>
    rw [List.foldl_cons]
    apply ih
    unfold mapEntry
    split
    · exact nameOverloads_unset _ _ _ h
    · exact setRpcName_unset h _ _

theorem unset_of_isInterface {env : Env} {c : CppClass} {nameSpace : String} {d : ClassDescriptor}
    (hparse : ClassDescriptor.parse env (.new c nameSpace) = .ok d)
    (hinterface : d.isInterface = true) : ∀ m ∈ d.methods, m.Unset := by
  rw [(ClassDescriptor.parse_isInterface hparse hinterface).2]
  exact generateRpcMapping_unset _ (parseMethods_unset _ c _ fun m hm => absurd hm List.not_mem_nil)

/-- `long` has the width of a pointer, and an enumeration that of `int`. -/
def lp64 : Platform where
  integerType
    | .uchar | .uint8_t | .uint_least8_t | .uint_fast8_t => ⟨8, false⟩
    | .char | .schar | .int8_t | .int_least8_t | .int_fast8_t => ⟨8, true⟩
    | .ushort | .char16 | .uint16_t | .uint_least16_t => ⟨16, false⟩
    | .short | .int16_t | .int_least16_t => ⟨16, true⟩
    | .uint | .char32 | .uint32_t | .uint_least32_t => uint32
    | .int | .wchar | .int32_t | .int_least32_t => int32
    | .uint128 => ⟨128, false⟩
    | .int128 => ⟨128, true⟩
    | .ulong | .ulonglong | .uint64_t | .uint_least64_t | .uint_fast16_t | .uint_fast32_t
    | .uint_fast64_t | .uintptr_t | .uintmax_t => uint64
    | _ => int64
  enumType _ := int32

/-- A type with these levels, described as const. -/
def constType (kind : TypeKind) (builtinType : CppBuiltinType) (text : String)
    (levels : List TypeLevel) : CppType where
  kind := kind
  builtinType := builtinType
  isConst := true
  isReference := levels.contains .pointer || levels.contains .lvalueReference
  isVoid := false
  fullTypeDescription := text
  levels := levels
  of_isVoid := fun h => absurd h Bool.false_ne_true

/-- A type that is a value. -/
def valueType (kind : TypeKind) (builtinType : CppBuiltinType) (text : String) : CppType :=
  constType kind builtinType text []

/-- `virtual returnType get(type index) = 0;`. -/
def getMethod (returnType type : CppType) : CppMemberFunction :=
  { voidMethod "get" [] with
    returnType := returnType
    parameters := [⟨"index", [], type⟩]
    not_isVirtual := fun h => absurd h Bool.false_ne_true }

/-- An interface with that method. -/
def getInterface (returnType type : CppType) : CppClass :=
  smallInterface [] [getMethod returnType type]

def getDescriptor (returnType type : CppType) : MethodDescriptor :=
  ((MethodDescriptor.new (getMethod returnType type) false).parse).withRpcName "get"

/-- The members of its proxy. -/
def getMembers (returnType type : CppType) : Table String ProxyMember :=
  memberVariables [(getDescriptor returnType type).prepareMessages]

def longType : CppType := valueType .builtin .long "long"

def intValue : CppType := valueType .builtin .int "int"

/-- `const T & get(int index)` for a type `T` of the user is kept in a member. -/
def pointReference : CppType :=
  constType .userDefined .void "Point" [.lvalueReference, .const]

def textType : CppType := valueType .stdString .void "std::string"

/-- What the proto file leaves of the method. -/
def declaredGet (returnType type : CppType) : MethodDescriptor :=
  (getDescriptor returnType type).prepareMessages.declaredIn true true

theorem not_agrees_of_writes_nil {platform : Platform} {members : Table String ProxyMember}
    {m m1 : MethodDescriptor} {request response : List ProtoMessage}
    (hgenerated : generateMessages m = .ok (request, response, m1))
    (hfields : response.flatMap ProtoMessage.fields ≠ [])
    (hwrites : ServerGenerator.responseWrites m1 = []) : ¬ MethodAgrees platform members m := by
  rintro ⟨request2, response2, m2, hgenerated2, _, hresponse⟩
  rw [hgenerated] at hgenerated2
  cases hgenerated2
  have hperm := hresponse.writes_declared
  rw [hwrites] at hperm
  exact hfields (List.map_eq_nil_iff.mp hperm.nil_eq.symm)

end Xpcf.GrpcGen
