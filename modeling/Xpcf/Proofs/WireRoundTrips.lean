import Xpcf.Model.WireValues

/-!
# Round trips over the wire

A value that a setter was given comes back from the getter when the field has
room for the values of its type and both sides pack it alike.
-/

namespace Xpcf.GrpcGen

open CodeLib

/-! ## Room for the values of a kind -/

namespace ValueKind

/-- A field of the kind keeps the values of the other kind apart. -/
def hasRoomFor : ValueKind → ValueKind → Bool
  | integer field, integer type => type.width ≤ field.width
  | boolean, boolean => true
  | float, float => true
  | double, double => true
  | text, text => true
  | archive, object => true
  | archive, archive => true
  | _, _ => false

theorem exists_holds (kind : ValueKind) : ∃ v, kind.Holds v := by
  cases kind with
  | integer type => exact ⟨.integer 0, .integer type.wrap_zero⟩
  | boolean => exact ⟨.boolean true, .boolean true⟩
  | float => exact ⟨.float 0, .float 0⟩
  | double => exact ⟨.double 0, .double 0⟩
  | text => exact ⟨.text "", .text ""⟩
  | object => exact ⟨.object 0, .object 0⟩
  | archive => exact ⟨.archive 0, .archive 0⟩
  | other => exact ⟨.other 0, .other 0⟩

theorem convert_idem {kind : ValueKind} {v x : CppValue} (h : kind.convert v = some x) :
    kind.convert x = some x := by
  cases kind <;> cases v <;> cases h <;> try rfl
  rename_i type n
  show some (CppValue.integer (type.wrap (type.wrap n))) = some (.integer (type.wrap n))
  rw [show type.wrap (type.wrap n) = type.wrap n from type.holds_wrap n]

/-- A cast to the kind of the field changes nothing that the field would not change. -/
theorem convert_bind_convert (kind : ValueKind) (v : CppValue) :
    (kind.convert v).bind kind.convert = kind.convert v := by
  cases h : kind.convert v with
  | none => rfl
  | some x => exact convert_idem h

/-- Every value of the kind comes back from a field of the kind `field`. -/
def ComesBack (field kind : ValueKind) : Prop :=
  ∀ v, kind.Holds v → ∃ x, field.convert v = some x ∧ kind.convert x = some v

theorem comesBack_integer_iff {field type : IntegerType} :
    ComesBack (.integer field) (.integer type) ↔ type.width ≤ field.width := by
  rw [← IntegerType.wrap_wrap_iff]
  constructor
  · intro h n hn
    obtain ⟨x, hx, hback⟩ := h (.integer n) (.integer hn)
    cases hx
    exact CppValue.integer.inj (Option.some.inj hback)
  · intro h v hv
    cases hv with
    | integer hn =>
      refine ⟨_, rfl, ?_⟩
      show some (CppValue.integer (type.wrap (field.wrap _))) = _
      rw [h _ hn]

/-- Objects take the way through an archive, not this one. -/
theorem comesBack_iff {field kind : ValueKind} (hkind : kind ≠ .object) (hfield : field ≠ .object) :
    field.ComesBack kind ↔ field.hasRoomFor kind = true := by
  by_cases hsame : field = kind ∨ ∃ a b, field = .integer a ∧ kind = .integer b
  · cases field with
    | integer a =>
      obtain ⟨b, rfl⟩ : ∃ b, kind = .integer b := by
        obtain rfl | ⟨_, b, _, rfl⟩ := hsame
        · exact ⟨a, rfl⟩
        · exact ⟨b, rfl⟩
      rw [comesBack_integer_iff]
      exact decide_eq_true_iff.symm
    | object => exact absurd rfl hfield
    | other =>
      obtain rfl | ⟨a, _, ha, _⟩ := hsame
      · refine ⟨fun h => ?_, fun h => absurd h Bool.false_ne_true⟩
        obtain ⟨x, hx, _⟩ := h (.other 0) (.other 0)
        cases hx
      · cases ha
    | _ =>
      obtain rfl | ⟨a, _, ha, _⟩ := hsame
      · refine ⟨fun _ => rfl, fun _ v hv => ?_⟩
        cases hv
        exact ⟨_, rfl, rfl⟩
      · cases ha
  · have hroom : field.hasRoomFor kind = false := by
      cases field <;> cases kind <;> simp_all [hasRoomFor]
    rw [hroom]
    refine ⟨fun h => ?_, fun h => absurd h Bool.false_ne_true⟩
    obtain ⟨v, hv⟩ := kind.exists_holds
    obtain ⟨x, hx, _⟩ := h v hv
    exfalso
    cases hv <;> cases field <;> simp_all [convert]

end ValueKind

/-! ## The types of the fields -/

/-- The protobuf type that `getTypeName` chooses. -/
def protoTypeName (type : CppType) : String :=
  match type.kind with
  | .stdString => "string"
  | .cString => "string"
  | .enum => "sint32"
  | .builtin => (tryConvertType type.builtinType).1
  | _ => "bytes"

/-- The cast that `getTypeName` asks for. -/
def castType (type : CppType) : Option String :=
  match type.kind with
  | .enum => proto2cppTypeMap "sint32"
  | .builtin =>
    if (tryConvertType type.builtinType).2 then
      proto2cppTypeMap (tryConvertType type.builtinType).1
    else none
  | _ => none

/-- The descriptor that `getTypeName` leaves. -/
def TypeDescriptor.declared (t : TypeDescriptor) : TypeDescriptor :=
  { t with rpcType := (castType t.type).or t.rpcType }

/-- A cast is to the type of the field. -/
theorem rpcKind_of_cast {type : CppBuiltinType} (h : (tryConvertType type).2 = true) :
    ∃ rpcType, proto2cppTypeMap (tryConvertType type).1 = some rpcType ∧
      rpcKind rpcType = wireKind (tryConvertType type).1 := by
  have hcases : (tryConvertType type).1 = "uint32" ∨ (tryConvertType type).1 = "sint32" := by
    cases type <;> revert h <;> decide
  obtain hname | hname := hcases
  · rw [hname]
    exact ⟨"uint32_t", by decide⟩
  · rw [hname]
    exact ⟨"int32_t", by decide⟩

theorem getTypeName_eq (t : TypeDescriptor) :
    getTypeName t = .ok (protoTypeName t.type, t.declared) := by
  have hvoid : (t.type.isVoid && t.type.isReference) = false := by
    cases h : t.type.isVoid with
    | false => rfl
    | true => exact (t.type.of_isVoid h).2.2
  unfold getTypeName protoTypeName TypeDescriptor.declared castType
  rw [hvoid]
  cases hkind : t.type.kind with
  | builtin =>
    dsimp only
    by_cases hcast : (tryConvertType t.type.builtinType).2 = true
    · obtain ⟨rpcType, hrpc, _⟩ := rpcKind_of_cast hcast
      rw [if_pos hcast, if_pos hcast, TypeDescriptor.enableStaticCast, hrpc]
      rfl
    · rw [if_neg hcast, if_neg hcast]
      rfl
  | _ => rfl

/-- The type of the field that stands for the C++ type has room for its values. -/
def Platform.carries (platform : Platform) (type : CppType) : Bool :=
  match wireKind (protoTypeName type) with
  | some field => field.hasRoomFor (platform.typeKind type)
  | none => false

/-! ## Pairs of a write and a read -/

/-- What the write sends, the read gets back. -/
def Undone (platform : Platform) (typeName : String) (w : FieldWrite) (r : FieldRead) : Prop :=
  ∀ v, (platform.contentKind w.content).Holds v →
    ∃ x, w.encode typeName v = some x ∧ r.decode platform x = some v

/-- The conversions of the two sides are inverse. -/
def ConvertsBack (platform : Platform) (typeName : String) (w : FieldWrite) (r : FieldRead) :
    Prop :=
  ∀ v, (platform.contentKind w.content).Holds v →
    ∃ x, w.convert typeName v = some x ∧ r.convert platform x = some v

/-- Besides, the statements of both sides have the value. -/
theorem undone_iff {platform : Platform} {typeName : String} {w : FieldWrite} {r : FieldRead} :
    Undone platform typeName w r ↔
      (w.content.gives w.source = true ∧ r.content.takes r.target = true) ∧
        ConvertsBack platform typeName w r := by
  unfold Undone ConvertsBack FieldWrite.encode FieldRead.decode
  constructor
  · intro h
    have hsides : w.content.gives w.source = true ∧ r.content.takes r.target = true := by
      obtain ⟨v, hv⟩ := (platform.contentKind w.content).exists_holds
      obtain ⟨x, hx, hback⟩ := h v hv
      constructor
      · by_contra hnot
        rw [if_neg hnot] at hx
        cases hx
      · by_contra hnot
        rw [if_neg hnot] at hback
        cases hback
    refine ⟨hsides, fun v hv => ?_⟩
    obtain ⟨x, hx, hback⟩ := h v hv
    rw [if_pos hsides.1] at hx
    rw [if_pos hsides.2] at hback
    exact ⟨x, hx, hback⟩
  · rintro ⟨⟨hgives, htakes⟩, h⟩ v hv
    rw [if_pos hgives]
    obtain ⟨x, hx, hback⟩ := h v hv
    exact ⟨x, hx, by rw [if_pos htakes, hback]⟩

/-- The types that take the way through a cast. -/
def CppType.isPlain (type : CppType) : Prop :=
  type.kind = .builtin ∨ type.kind = .enum ∨ type.kind = .stdString

/-- The types that take the way through an archive. -/
def CppType.isObject (type : CppType) : Prop :=
  type.kind = .userDefined ∨ type.kind = .template

theorem CppType.kind_cases (type : CppType) :
    type.isPlain ∨ type.isObject ∨ type.kind = .cString := by
  unfold isPlain isObject
  cases type.kind <;> decide

theorem CppType.isPlain.ne_cString {type : CppType} (h : type.isPlain) : type.kind ≠ .cString := by
  obtain h | h | h := h <;> rw [h] <;> decide

theorem CppType.isObject.ne_text {type : CppType} (h : type.isObject) :
    type.kind ≠ .cString ∧ type.kind ≠ .stdString := by
  obtain h | h := h <;> rw [h] <;> decide

theorem typeKind_ne_object {platform : Platform} {type : CppType} (h : type.isPlain) :
    platform.typeKind type ≠ .object := by
  unfold Platform.typeKind
  obtain hkind | hkind | hkind := h
  · rw [hkind]
    show platform.builtinKind type.builtinType ≠ .object
    cases type.builtinType <;> exact nofun
  · rw [hkind]
    exact nofun
  · rw [hkind]
    exact nofun

theorem wireKind_ne_object (typeName : String) : wireKind typeName ≠ some .object := by
  unfold wireKind
  split <;> exact nofun

/-- Casting changes nothing in what is sent. -/
theorem convert_castEncoding {t : TypeDescriptor} (hdeclared : t.rpcType = castType t.type)
    (accessor : String) (source : Place) (v : CppValue) :
    (t.write accessor t.castEncoding source).convert (protoTypeName t.type) v =
      (wireKind (protoTypeName t.type)).bind fun field => field.convert v := by
  unfold FieldWrite.convert TypeDescriptor.write TypeDescriptor.castEncoding
  rw [hdeclared]
  cases hcast : castType t.type with
  | none => rfl
  | some rpcType =>
    have hrpc : rpcKind rpcType = wireKind (protoTypeName t.type) := by
      unfold castType at hcast
      unfold protoTypeName
      split at hcast
      · rename_i hkind
        rw [hkind]
        cases hcast
        show rpcKind "int32_t" = wireKind "sint32"
        decide
      · rename_i hkind
        rw [hkind]
        split at hcast
        · rename_i hflag
          obtain ⟨rpcType1, hrpc1, hwire⟩ := rpcKind_of_cast hflag
          rw [hcast] at hrpc1
          cases hrpc1
          exact hwire
        · cases hcast
      · cases hcast
    dsimp only
    rw [hrpc]
    cases wireKind (protoTypeName t.type) with
    | none => rfl
    | some field => exact field.convert_bind_convert v

/-- The cast back is to the type of the variable, as an assignment is. -/
theorem convert_castDecoding (platform : Platform) (t : TypeDescriptor) (accessor : String)
    (target : Place) (x : CppValue) :
    (t.read accessor t.castDecoding target).convert platform x =
      (platform.typeKind t.type).convert x := by
  unfold FieldRead.convert TypeDescriptor.read TypeDescriptor.castDecoding
  cases t.rpcType with
  | none => rfl
  | some rpcType => rfl

theorem convertsBack_cast_iff {platform : Platform} {t : TypeDescriptor}
    (hdeclared : t.rpcType = castType t.type) (hplain : t.type.isPlain) (accessor : String)
    (source target : Place) :
    ConvertsBack platform (protoTypeName t.type) (t.write accessor t.castEncoding source)
      (t.read accessor t.castDecoding target) ↔ platform.carries t.type = true := by
  have hback : ConvertsBack platform (protoTypeName t.type) (t.write accessor t.castEncoding source)
      (t.read accessor t.castDecoding target) ↔
      ∀ v, (platform.typeKind t.type).Holds v →
        ∃ x, (wireKind (protoTypeName t.type)).bind (fun field => field.convert v) = some x ∧
          (platform.typeKind t.type).convert x = some v := by
    unfold ConvertsBack
    simp only [convert_castEncoding hdeclared, convert_castDecoding]
    rfl
  rw [hback]
  unfold Platform.carries
  cases hfield : wireKind (protoTypeName t.type) with
  | none =>
    refine ⟨fun h => ?_, fun h => absurd h Bool.false_ne_true⟩
    obtain ⟨v, hv⟩ := (platform.typeKind t.type).exists_holds
    obtain ⟨x, hx, _⟩ := h v hv
    cases hx
  | some field =>
    have hne : field ≠ .object := fun h => wireKind_ne_object _ (h ▸ hfield)
    exact ValueKind.comesBack_iff (typeKind_ne_object hplain) hne

/-- The objects of a type of the user or of a template. -/
theorem convertsBack_serialize (platform : Platform) {t : TypeDescriptor}
    (hkind : t.type.isObject) (accessor text : String) (source target : Place) :
    ConvertsBack platform (protoTypeName t.type) (t.write accessor (.serialize text) source)
      (t.read accessor (.deserialize text) target) ∧ platform.carries t.type = true := by
  have hname : protoTypeName t.type = "bytes" := by
    unfold protoTypeName
    obtain h | h := hkind <;> rw [h]
  have hobject : platform.typeKind t.type = .object := by
    unfold Platform.typeKind
    obtain h | h := hkind <;> rw [h]
  constructor
  · intro v hv
    change (platform.typeKind t.type).Holds v at hv
    rw [hobject] at hv
    cases hv with
    | object id =>
      refine ⟨.archive id, ?_, ?_⟩
      · rw [hname]
        rfl
      · show (some (CppValue.object id)).bind (platform.typeKind t.type).convert = _
        rw [hobject]
        rfl
  · unfold Platform.carries
    rw [hname, hobject]
    rfl

theorem carries_cString {platform : Platform} {type : CppType} (hkind : type.kind = .cString) :
    platform.carries type = true := by
  unfold Platform.carries protoTypeName Platform.typeKind
  rw [hkind]
  rfl

theorem convertsBack_cString {platform : Platform} {t : TypeDescriptor}
    (hkind : t.type.kind = .cString) (accessor : String) (source target : Place) :
    ConvertsBack platform (protoTypeName t.type) (t.write accessor .plain source)
      (t.read accessor .plain target) := by
  have hname : protoTypeName t.type = "string" := by
    unfold protoTypeName
    rw [hkind]
  have htext : platform.typeKind t.type = .text := by
    unfold Platform.typeKind
    rw [hkind]
  intro v hv
  change (platform.typeKind t.type).Holds v at hv
  rw [htext] at hv
  cases hv with
  | text s =>
    refine ⟨.text s, ?_, ?_⟩
    · rw [hname]
      rfl
    · show (platform.typeKind t.type).convert (.text s) = _
      rw [htext]
      rfl

/-- A text that was sent as it is is no archive. -/
theorem not_convertsBack_deserialize {platform : Platform} {t : TypeDescriptor}
    (hkind : t.type.kind = .cString) (accessor text : String) (encoding : Encoding)
    (source target : Place) :
    ¬ConvertsBack platform (protoTypeName t.type) (t.write accessor encoding source)
      (t.read accessor (.deserialize text) target) := by
  have hname : protoTypeName t.type = "string" := by
    unfold protoTypeName
    rw [hkind]
  have htext : platform.typeKind t.type = .text := by
    unfold Platform.typeKind
    rw [hkind]
  intro h
  have hv : (platform.contentKind (t.write accessor encoding source).content).Holds (.text "") := by
    show (platform.typeKind t.type).Holds (.text "")
    rw [htext]
    exact .text ""
  obtain ⟨x, hx, hback⟩ := h (.text "") hv
  have htextual : ∃ s, x = .text s := by
    rw [hname] at hx
    obtain ⟨v, _, hv⟩ := Option.bind_eq_some_iff.mp hx
    cases v <;> cases hv
    exact ⟨_, rfl⟩
  obtain ⟨s, rfl⟩ := htextual
  cases hback

end Xpcf.GrpcGen
