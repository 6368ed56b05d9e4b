import Xpcf.Proofs.FieldAgreement

/-!
# The names and the numbers of the fields

The parameters of a method have different names, but a field has an accessor in
lower case, and a reserved name is replaced by another one that the method may
use as well.  Two fields of a message then share their accessor, or their name.
-/

namespace Xpcf.GrpcGen

/-! ## Names that do not clash -/

/-- The fields of a declaration can be told apart, by name, number and accessor, and
the numbers are those from one on. -/
structure FieldsDiffer (msg : ProtoMessage) : Prop where
  names_differ : (msg.fields.map ProtoField.name).Nodup
  numbers : msg.numberedFields.map Prod.fst = List.range' 1 msg.fields.length
  accessors_differ : (msg.fields.map ProtoField.accessor).Nodup

/-- The fields of each message of a method differ. -/
def MessagesDiffer (m : MethodDescriptor) : Prop :=
  ∃ request response m1, generateMessages m = .ok (request, response, m1) ∧
    ∀ msg ∈ request ++ response, FieldsDiffer msg

/-- Parameters in one message with the fields that no parameter stands for: apart from
case, an ordinary name is none of the other ordinary names, none of the names that
replace a reserved one that is there, and none of the other fields. -/
structure NoClash (names fields : List String) : Prop where
  ordinary : ∀ a ∈ names, ∀ b ∈ names, protoReservedKeywordsTranscription a = none →
    protoReservedKeywordsTranscription b = none → accessorName a = accessorName b → a = b
  replaced : ∀ a ∈ names, ∀ b ∈ names, ∀ replacement,
    protoReservedKeywordsTranscription a = some replacement →
    protoReservedKeywordsTranscription b = none → accessorName b ≠ accessorName replacement
  other_fields : ∀ a ∈ names, ∀ field ∈ fields, protoReservedKeywordsTranscription a = none →
    accessorName a ≠ accessorName field

/-- The fields that no parameter stands for. -/
def implicitFields : List String := ["grpcServerCompressionFormat", "xpcfGrpcReturnValue"]

/-- The name of the field of a parameter. -/
def fieldName (name : String) : String :=
  (protoReservedKeywordsTranscription name).getD name

theorem fieldName_of_none {name : String} (h : protoReservedKeywordsTranscription name = none) :
    fieldName name = name := by
  rw [fieldName, h]
  rfl

theorem fieldName_of_some {name replacement : String}
    (h : protoReservedKeywordsTranscription name = some replacement) :
    fieldName name = replacement := by
  rw [fieldName, h]
  rfl

/-- The reserved names and what replaces them. -/
theorem reserved_cases {name replacement : String}
    (h : protoReservedKeywordsTranscription name = some replacement) :
    name = "descriptor" ∧ replacement = "descriptorParam" ∨
      name = "grpcServerCompressionFormat" ∧
        replacement = "grpcServerCompressionFormatParam" := by
  unfold protoReservedKeywordsTranscription at h
  split at h
  · exact Or.inl ⟨rfl, (Option.some.inj h).symm⟩
  · exact Or.inr ⟨rfl, (Option.some.inj h).symm⟩
  · cases h

/-- The two replacements differ, apart from case as well. -/
theorem replacements_differ {a b replacementA replacementB : String}
    (ha : protoReservedKeywordsTranscription a = some replacementA)
    (hb : protoReservedKeywordsTranscription b = some replacementB)
    (h : accessorName replacementA = accessorName replacementB) : a = b := by
  obtain ⟨rfl, rfl⟩ | ⟨rfl, rfl⟩ := reserved_cases ha
  · obtain ⟨rfl, rfl⟩ | ⟨rfl, rfl⟩ := reserved_cases hb
    · rfl
    · exact absurd h (by decide)
  · obtain ⟨rfl, rfl⟩ | ⟨rfl, rfl⟩ := reserved_cases hb
    · exact absurd h (by decide)
    · rfl

theorem replacement_ne_implicit {name replacement field : String}
    (h : protoReservedKeywordsTranscription name = some replacement)
    (hfield : field ∈ implicitFields) : accessorName replacement ≠ accessorName field := by
  have hall : ∀ f ∈ implicitFields, accessorName "descriptorParam" ≠ accessorName f ∧
      accessorName "grpcServerCompressionFormatParam" ≠ accessorName f := by decide
  obtain ⟨_, rfl⟩ | ⟨_, rfl⟩ := reserved_cases h
  · exact (hall field hfield).1
  · exact (hall field hfield).2

/-- The accessors of the parameters differ. -/
theorem accessors_inj_iff {names : List String} (hnames : names.Nodup) :
    (names.map fun name => accessorName (fieldName name)).Nodup ↔
      (∀ a ∈ names, ∀ b ∈ names, protoReservedKeywordsTranscription a = none →
        protoReservedKeywordsTranscription b = none → accessorName a = accessorName b → a = b) ∧
      ∀ a ∈ names, ∀ b ∈ names, ∀ replacement,
        protoReservedKeywordsTranscription a = some replacement →
        protoReservedKeywordsTranscription b = none →
        accessorName b ≠ accessorName replacement := by
  rw [List.nodup_map_iff_inj_on hnames]
  constructor
  · intro h
    refine ⟨fun a ha b hb hna hnb heq => h a ha b hb ?_,
      fun a ha b hb replacement hra hnb heq => ?_⟩
    · rw [fieldName_of_none hna, fieldName_of_none hnb]
      exact heq
    · have hab : a = b := h a ha b hb (by
        rw [fieldName_of_some hra, fieldName_of_none hnb]
        exact heq.symm)
      rw [hab, hnb] at hra
      cases hra
  · rintro ⟨hordinary, hreplaced⟩ a ha b hb heq
    cases hra : protoReservedKeywordsTranscription a with
    | none =>
      rw [fieldName_of_none hra] at heq
      cases hrb : protoReservedKeywordsTranscription b with
      | none =>
        rw [fieldName_of_none hrb] at heq
        exact hordinary a ha b hb hra hrb heq
      | some replacement =>
        rw [fieldName_of_some hrb] at heq
        exact absurd heq (hreplaced b hb a ha replacement hrb hra)
    | some replacement =>
      rw [fieldName_of_some hra] at heq
      cases hrb : protoReservedKeywordsTranscription b with
      | none =>
        rw [fieldName_of_none hrb] at heq
        exact absurd heq.symm (hreplaced a ha b hb replacement hra hrb)
      | some other =>
        rw [fieldName_of_some hrb] at heq
        exact replacements_differ hra hrb heq

/-- The accessors of a message differ exactly when no name clashes. -/
theorem nodup_accessors_iff {names fields : List String} (hnames : names.Nodup)
    (hfields : fields.Nodup) (himplicit : ∀ field ∈ fields, field ∈ implicitFields) :
    ((names.map fun name => accessorName (fieldName name)) ++
      fields.map accessorName).Nodup ↔ NoClash names fields := by
  have hinj : ∀ f ∈ implicitFields, ∀ g ∈ implicitFields, accessorName f = accessorName g →
      f = g := by decide
  have hnodup : (fields.map accessorName).Nodup :=
    hfields.map_on fun f hf g hg => hinj f (himplicit f hf) g (himplicit g hg)
  rw [List.nodup_append, accessors_inj_iff hnames]
  constructor
  · rintro ⟨⟨hordinary, hreplaced⟩, _, hapart⟩
    refine ⟨hordinary, hreplaced, fun a ha field hfield hna => ?_⟩
    have hne := hapart _ (List.mem_map_of_mem ha) _ (List.mem_map_of_mem hfield)
    rw [fieldName_of_none hna] at hne
    exact hne
  · intro h
    refine ⟨⟨h.ordinary, h.replaced⟩, hnodup, fun x hx y hy => ?_⟩
    obtain ⟨a, ha, rfl⟩ := List.mem_map.mp hx
    obtain ⟨field, hfield, rfl⟩ := List.mem_map.mp hy
    cases hra : protoReservedKeywordsTranscription a with
    | none =>
      rw [fieldName_of_none hra]
      exact h.other_fields a ha field hfield hra
    | some replacement =>
      rw [fieldName_of_some hra]
      exact replacement_ne_implicit hra (himplicit field hfield)

/-! ## The messages of a method -/

theorem map_fst_numberFields (fieldIndex : Nat) (fields : List ProtoField) :
    (numberFields fieldIndex fields).map Prod.fst = List.range' fieldIndex fields.length := by
  induction fields generalizing fieldIndex with
  | nil => rfl
  | cons field rest ih =>
    rw [numberFields, List.map_cons, ih, List.length_cons, List.range'_succ]

/-- Fields with different accessors have different names, and the numbers are always
different. -/
theorem fieldsDiffer_iff (msg : ProtoMessage) :
    FieldsDiffer msg ↔ (msg.fields.map ProtoField.accessor).Nodup := by
  constructor
  · intro h
    exact h.accessors_differ
  · intro h
    refine ⟨?_, map_fst_numberFields 1 msg.fields, h⟩
    refine List.Nodup.of_map accessorName ?_
    rw [List.map_map]
    exact h

namespace MethodDescriptor

variable (m : MethodDescriptor)

/-- The names of the parameters that go to the server. -/
def inputNames : List String := (m.inParams ++ m.inoutParams).map ParameterDescriptor.name

/-- The names of the parameters that come from the server. -/
def outputNames : List String := (m.inoutParams ++ m.outParams).map ParameterDescriptor.name

/-- The other fields of the request. -/
def requestExtras : List String :=
  if m.declaresCompression then ["grpcServerCompressionFormat"] else []

/-- The other fields of the response. -/
def responseExtras : List String := if m.returnsVoid then [] else ["xpcfGrpcReturnValue"]

variable {m}

theorem nodup_inputNames (hnames : (m.params.map ParameterDescriptor.name).Nodup) :
    m.inputNames.Nodup := by
  have hperm := m.perm_params.map ParameterDescriptor.name
  rw [List.map_append] at hperm
  exact (List.nodup_append.mp (hperm.nodup_iff.mp hnames)).1

theorem nodup_outputNames (hnames : (m.params.map ParameterDescriptor.name).Nodup) :
    m.outputNames.Nodup := by
  have hperm := m.perm_params.map ParameterDescriptor.name
  rw [List.append_assoc, List.map_append] at hperm
  exact (List.nodup_append.mp (hperm.nodup_iff.mp hnames)).2.1

theorem requestAccessors_iff (hnames : (m.params.map ParameterDescriptor.name).Nodup) :
    ((m.requestSlots.map Slot.field).map ProtoField.accessor).Nodup ↔
      NoClash m.inputNames m.requestExtras := by
  have hextras : m.requestExtras.Nodup ∧ ∀ field ∈ m.requestExtras, field ∈ implicitFields := by
    unfold requestExtras
    cases m.declaresCompression <;> decide
  have haccessors : (m.requestSlots.map Slot.field).map ProtoField.accessor =
      m.requestExtras.map accessorName ++
        m.inputNames.map fun name => accessorName (fieldName name) := by
    unfold requestSlots requestExtras inputSlots inputNames
    rw [List.map_append, List.map_append, List.map_map, List.map_map, List.map_map, List.map_map]
    congr 1
    cases m.declaresCompression <;> rfl
  rw [haccessors, List.perm_append_comm.nodup_iff]
  exact nodup_accessors_iff (nodup_inputNames hnames) hextras.1 hextras.2

theorem responseAccessors_iff (hnames : (m.params.map ParameterDescriptor.name).Nodup) :
    (((m.responseSlots false).map Slot.field).map ProtoField.accessor).Nodup ↔
      NoClash m.outputNames m.responseExtras := by
  have hextras : m.responseExtras.Nodup ∧ ∀ field ∈ m.responseExtras, field ∈ implicitFields := by
    unfold responseExtras
    cases m.returnsVoid <;> decide
  have haccessors : ((m.responseSlots false).map Slot.field).map ProtoField.accessor =
      (m.outputNames.map fun name => accessorName (fieldName name)) ++
        m.responseExtras.map accessorName := by
    unfold responseSlots responseExtras outputSlots outputNames returnSlots
    rw [List.map_append, List.map_append, List.map_map, List.map_map, List.map_map, List.map_map]
    congr 1
    cases m.returnsVoid <;> rfl
  rw [haccessors]
  exact nodup_accessors_iff (nodup_outputNames hnames) hextras.1 hextras.2

end MethodDescriptor

/-- The fields of both messages differ exactly when, in each message that is declared, no
parameter clashes with another field. -/
theorem messagesDiffer_iff (m : MethodDescriptor)
    (hnames : (m.params.map ParameterDescriptor.name).Nodup) :
    MessagesDiffer m ↔
      (m.hasRequest = true → NoClash m.inputNames m.requestExtras) ∧
        (m.hasResponse = true → NoClash m.outputNames m.responseExtras) := by
  rw [← MethodDescriptor.requestAccessors_iff hnames,
    ← MethodDescriptor.responseAccessors_iff hnames]
  unfold MessagesDiffer
  rw [generateMessages_eq _ false]
  constructor
  · rintro ⟨request, response, m1, hgenerated, hdiffer⟩
    cases hgenerated
    constructor
    · intro hrequest
      have hmem := hdiffer ⟨m.requestName, m.requestSlots.map Slot.field⟩
      rw [if_pos hrequest] at hmem
      exact (hmem (List.mem_append_left _ (List.mem_singleton.mpr rfl))).accessors_differ
    · intro hresponse
      have hmem := hdiffer ⟨m.responseName, (m.responseSlots false).map Slot.field⟩
      rw [if_pos hresponse] at hmem
      exact (hmem (List.mem_append_right _ (List.mem_singleton.mpr rfl))).accessors_differ
  · rintro ⟨hrequest, hresponse⟩
    refine ⟨_, _, _, rfl, fun msg hmsg => (fieldsDiffer_iff msg).mpr ?_⟩
    rw [List.mem_append] at hmsg
    obtain hmsg | hmsg := hmsg
    · rw [List.mem_ite_nil_right, List.mem_singleton] at hmsg
      rw [hmsg.2]
      exact hrequest hmsg.1
    · rw [List.mem_ite_nil_right, List.mem_singleton] at hmsg
      rw [hmsg.2]
      exact hresponse hmsg.1

/-! ## Two parameters that differ in case -/

/-- `virtual void set(int first, int second) = 0;`. -/
def setMethod (first second : String) : CppMemberFunction :=
  { voidMethod "set" [] with
    parameters := [⟨first, [], valueType .builtin .int "int"⟩,
      ⟨second, [], valueType .builtin .int "int"⟩]
    not_isVirtual := fun h => absurd h Bool.false_ne_true }

def setDescriptor (first second : String) : MethodDescriptor :=
  (((MethodDescriptor.new (setMethod first second) false).parse).withRpcName "set").prepareMessages

theorem messagesDiffer_iff_reserved :
    MessagesDiffer (setDescriptor "descriptor" "Descriptor") := by
  refine (messagesDiffer_iff (setDescriptor "descriptor" "Descriptor") (by decide)).mpr
    ⟨fun _ => ⟨by decide, fun a ha b hb replacement hra hrb => ?_, by decide⟩,
      fun hresponse => absurd hresponse (by decide)⟩
  have hall : ∀ b ∈ (setDescriptor "descriptor" "Descriptor").inputNames,
      protoReservedKeywordsTranscription b = none → b = "Descriptor" := by decide
  rw [hall b hb hrb]
  obtain ⟨_, rfl⟩ | ⟨_, rfl⟩ := reserved_cases hra
  · decide
  · decide

/-- Both fields are accessed as `a`. -/
theorem field_names_clash :
    ((setDescriptor "a" "A").params.map ParameterDescriptor.name).Nodup ∧
      ¬ MessagesDiffer (setDescriptor "a" "A") := by
  refine ⟨by decide, ?_⟩
  rintro ⟨request, response, m1, hgenerated, hdiffer⟩
  rw [generateMessages_eq _ false] at hgenerated
  cases hgenerated
  have hfirst := hdiffer _ List.mem_cons_self
  exact absurd hfirst.accessors_differ (by decide)

end Xpcf.GrpcGen
