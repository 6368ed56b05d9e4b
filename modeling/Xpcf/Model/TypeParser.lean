import Mathlib.Data.List.Infix
import Xpcf.Core.Exceptions
import Xpcf.Model.CppAst

/-!
# Describing a type

`TypeDescriptor::parseType` goes through a type from the outside to its leaf and
collects what the generators need.  The consts and the references it met stand
in two queues of the descriptor, which the arguments of a template share with
the type around them; only their sizes are read.

The members that no initializer sets are set at a leaf, before they are read;
`m_isBuiltin` is taken as false where nothing sets it.
-/

namespace Xpcf.GrpcGen

/-! ## The types of cppast -/

mutual

/-- `cppast::cpp_type`, less the function types, the pointers to members and what
is not parsed. -/
inductive CppAstType where
  | builtin (kind : CppBuiltinType) (text : String)
  /-- With the name of the entity, and whether the index has an enumeration for it. -/
  | userDefined (name : String) (isEnum : Bool)
  | pointer (pointee : CppAstType)
  | array (valueType : CppAstType)
  | lvalueReference (referee : CppAstType)
  | rvalueReference (referee : CppAstType)
  | cvQualified (isConst : Bool) (type : CppAstType)
  /-- With the name of the primary template and the arguments that are exposed. -/
  | templateInstantiation (name : String) (arguments : CppAstTypes)

inductive CppAstTypes where
  | nil
  | cons (type : CppAstType) (rest : CppAstTypes)

end

deriving instance DecidableEq for CppAstType, CppAstTypes

mutual

/-- `cppast::to_string`, with the sizes of arrays left out. -/
def CppAstType.spelling : CppAstType → String
  | .builtin _ text => text
  | .userDefined name _ => name
  | .pointer pointee => pointee.spelling ++ "*"
  | .array valueType => valueType.spelling ++ "[]"
  | .lvalueReference referee => referee.spelling ++ "&"
  | .rvalueReference referee => referee.spelling ++ "&&"
  | .cvQualified isConst (.pointer pointee) =>
    pointee.spelling ++ "* " ++ if isConst then "const" else "volatile"
  | .cvQualified isConst type => (if isConst then "const " else "volatile ") ++ type.spelling
  | .templateInstantiation name arguments =>
    name ++ "<" ++ ",".intercalate arguments.spellings ++ ">"

def CppAstTypes.spellings : CppAstTypes → List String
  | .nil => []
  | .cons type rest => type.spelling :: rest.spellings

end

/-- What stands around the leaf. -/
def CppAstType.levels : CppAstType → List TypeLevel
  | .builtin _ _ => []
  | .userDefined _ _ => []
  | .pointer pointee => .pointer :: pointee.levels
  | .array valueType => .array :: valueType.levels
  | .lvalueReference referee => .lvalueReference :: referee.levels
  | .rvalueReference referee => .rvalueReference :: referee.levels
  | .cvQualified isConst type => (if isConst then .const else .volatile) :: type.levels
  | .templateInstantiation _ _ => []

/-! ## Names -/

/-- The names of `builtinStrToEnumMap`, in the order of the list in `isCppFixedWidthType`. -/
def builtinStrToEnum : List (String × CppBuiltinType) :=
  [("int8_t", .int8_t), ("int16_t", .int16_t), ("int32_t", .int32_t), ("int64_t", .int64_t),
    ("uint8_t", .uint8_t), ("uint16_t", .uint16_t), ("uint32_t", .uint32_t),
    ("uint64_t", .uint64_t),
    ("int_least8_t", .int_least8_t), ("int_least16_t", .int_least16_t),
    ("int_least32_t", .int_least32_t), ("int_least64_t", .int_least64_t),
    ("uint_least8_t", .uint_least8_t), ("uint_least16_t", .uint_least16_t),
    ("uint_least32_t", .uint_least32_t), ("uint_least64_t", .uint_least64_t),
    ("int_fast8_t", .int_fast8_t), ("int_fast16_t", .int_fast16_t),
    ("int_fast32_t", .int_fast32_t), ("int_fast64_t", .int_fast64_t),
    ("uint_fast8_t", .uint_fast8_t), ("uint_fast16_t", .uint_fast16_t),
    ("uint_fast32_t", .uint_fast32_t), ("uint_fast64_t", .uint_fast64_t),
    ("intptr_t", .intptr_t), ("uintptr_t", .uintptr_t), ("intmax_t", .intmax_t),
    ("uintmax_t", .uintmax_t)]

/-- `text.find(part) != npos`. -/
def finds (text part : List Char) : Bool := part <:+: text

/-- `isCppFixedWidthType`: the name, with a bar after it, is a part of the list of names with
bars between them. -/
def isCppFixedWidthType (name : String) : Bool :=
  finds (builtinStrToEnum.flatMap fun entry => entry.1.toList ++ ['|']) (name.toList ++ ['|'])

def isStdString (name : String) : Bool :=
  finds "std::string|std::basic_string<char>|".toList (name.toList ++ ['|'])

/-- `template_type`. -/
inductive TemplateType where
  | none
  | vector
  | map
  | tuple
  | sharedptr
  deriving DecidableEq

/-- `templateToContainerMap`. -/
def templateToContainer : List (String × TemplateType) :=
  [("std::vector", .vector), ("std::map", .map), ("std::unordered_map", .map),
    ("std::tuple", .tuple), ("std::shared_ptr", .sharedptr), ("SRef", .sharedptr)]

def isContainer (name : String) : Bool :=
  finds "std::vector|std::map|std::unordered_map".toList name.toList

/-- `at` on one of the two maps. -/
def lookupAt {V : Type} (entries : List (String × V)) (name : String) : Except Exc V :=
  match entries.lookup name with
  | some v => .ok v
  | none => .error Exc.outOfRange

/-! ## The description -/

/-- `TypeDescriptorInfo`, less the members that nothing writes. -/
structure TypeDescriptorInfo where
  typename : String
  isConst : Bool
  isBuiltin : Bool
  isReference : Bool
  isPointer : Bool
  isVoid : Bool
  kind : TypeKind
  templateType : TemplateType
  builtinType : CppBuiltinType
  /-- `getFullTypeDescription()` of each of `m_tmplArgsVector`. -/
  tmplArgs : List String
  deriving DecidableEq

/-- The initializers, and for the kind and the builtin type a value that a leaf replaces. -/
def TypeDescriptorInfo.new : TypeDescriptorInfo where
  typename := ""
  isConst := true
  isBuiltin := false
  isReference := false
  isPointer := false
  isVoid := true
  kind := .userDefined
  templateType := .none
  builtinType := .void
  tmplArgs := []

/-- `getFullTypeDescription()`, without a namespace. -/
def TypeDescriptorInfo.fullTypeDescription (info : TypeDescriptorInfo) : String :=
  if info.kind = .template then info.typename ++ "<" ++ ",".intercalate info.tmplArgs ++ ">"
  else info.typename

/-- `m_foundConst` and `m_foundRef`, by their sizes. -/
structure FoundQueues where
  foundConst : Nat
  foundRef : Nat
  deriving DecidableEq

/-- What follows the loop of `parseType`. -/
def TypeDescriptorInfo.finish (info : TypeDescriptorInfo) (q : FoundQueues) : TypeDescriptorInfo :=
  let info1 := { info with isConst := !decide (q.foundConst < q.foundRef) }
  if info1.isBuiltin && info1.isConst && info1.isPointer && info1.builtinType = .char then
    { info1 with isBuiltin := false, kind := .cString }
  else info1

/-- The first test on a name. -/
def TypeDescriptorInfo.readFixedWidth (info : TypeDescriptorInfo) (name : String) :
    Except Exc TypeDescriptorInfo :=
  if isCppFixedWidthType name then
    (lookupAt builtinStrToEnum name).map fun builtinType =>
      { info with
        typename := name, builtinType := builtinType, kind := .builtin, isBuiltin := true }
  else .ok info

/-- The second test on a name. -/
def TypeDescriptorInfo.readStdString (info : TypeDescriptorInfo) (name : String) :
    TypeDescriptorInfo :=
  if isStdString name then { info with typename := "std::string", kind := .stdString } else info

/-- The two tests that begin each turn of the loop. -/
def TypeDescriptorInfo.readSpelling (info : TypeDescriptorInfo) (spelling : String) :
    Except Exc TypeDescriptorInfo := do
  let info1 ← info.readFixedWidth spelling
  pure (info1.readStdString spelling)

/-- A level with a user-defined type. -/
def TypeDescriptorInfo.readName (info : TypeDescriptorInfo) (name : String) (isEnum : Bool) :
    Except Exc TypeDescriptorInfo := do
  let info1 ← info.readSpelling name
  let info2 := { info1 with isVoid := false }
  pure (if isCppFixedWidthType name || isStdString name then info2
    else { info2 with typename := name, kind := if isEnum then .enum else .userDefined })

/-- `parseTemplateInstanciation`, before the arguments. -/
def TypeDescriptorInfo.readTemplate (info : TypeDescriptorInfo) (name : String) :
    Except Exc TypeDescriptorInfo :=
  let info1 := { info with kind := .template, typename := name, isVoid := false }
  if isContainer name then
    (lookupAt templateToContainer name).map fun templateType =>
      { info1 with templateType := templateType }
  else .ok info1

mutual

/-- The loop of `parseType`, from a level on. -/
def parseLevels : CppAstType → TypeDescriptorInfo → FoundQueues →
    Except Exc (TypeDescriptorInfo × FoundQueues)
  | .pointer pointee, info, q => do
    let info1 ← info.readSpelling (CppAstType.pointer pointee).spelling
    -- the consts found so far are forgotten, and no reference is recorded
    parseLevels pointee
      { info1 with
        isConst := if q.foundConst = 0 then false else info1.isConst
        isReference := true
        isPointer := true
        isVoid := false }
      { q with foundConst := 0 }
  | .array valueType, info, q => do
    let info1 ← info.readSpelling (CppAstType.array valueType).spelling
    parseLevels valueType { info1 with isVoid := false } q
  | .lvalueReference referee, info, q => do
    let info1 ← info.readSpelling (CppAstType.lvalueReference referee).spelling
    parseLevels referee { info1 with isReference := true, isVoid := false }
      { q with foundRef := q.foundRef + 1 }
  | .rvalueReference referee, info, q => do
    let info1 ← info.readSpelling (CppAstType.rvalueReference referee).spelling
    parseLevels referee { info1 with isVoid := false } q
  | .cvQualified isConst type, info, q => do
    let info1 ← info.readSpelling (CppAstType.cvQualified isConst type).spelling
    parseLevels type { info1 with isVoid := false }
      (if isConst then { q with foundConst := q.foundConst + 1 } else q)
  | .builtin kind text, info, q => do
    let info1 ← info.readSpelling text
    pure ({ info1 with
      isVoid := if kind = .void then info1.isVoid else false
      typename := text
      builtinType := kind
      kind := .builtin
      isBuiltin := true }, q)
  | .userDefined name isEnum, info, q => do
    let info1 ← info.readName name isEnum
    pure (info1, q)
  | .templateInstantiation name arguments, info, q => do
    let info1 ← info.readSpelling (CppAstType.templateInstantiation name arguments).spelling
    let info2 ← info1.readTemplate name
    let (tmplArgs, q1) ← parseArguments arguments q
    pure ({ info2 with tmplArgs := tmplArgs }, q1)

/-- The loop over the arguments: `parseType` of each, on the same queues. -/
def parseArguments : CppAstTypes → FoundQueues → Except Exc (List String × FoundQueues)
  | .nil, q => .ok ([], q)
  | .cons type rest, q => do
    let (info, q1) ← parseLevels type .new q
    let (tmplArgs, q2) ← parseArguments rest q1
    pure ((info.finish q1).fullTypeDescription :: tmplArgs, q2)

end

/-- `TypeDescriptor::parse`: `parseType` on empty queues. -/
def CppAstType.parse (type : CppAstType) : Except Exc TypeDescriptorInfo := do
  let (info, q) ← parseLevels type .new ⟨0, 0⟩
  pure (info.finish q)

/-! ## The tests above a leaf -/

/-- What a search finds is made of the characters of the text. -/
theorem finds_eq_false {text part : List Char} {c : Char} (hpart : c ∈ part) (htext : c ∉ text) :
    finds text part = false :=
  decide_eq_false fun h => htext (List.IsInfix.subset h hpart)

theorem readSpelling_of_false {spelling : String} (hfixed : isCppFixedWidthType spelling = false)
    (hstring : isStdString spelling = false) (info : TypeDescriptorInfo) :
    info.readSpelling spelling = .ok info := by
  unfold TypeDescriptorInfo.readSpelling TypeDescriptorInfo.readFixedWidth
    TypeDescriptorInfo.readStdString
  rw [hfixed, hstring]
  rfl

/-- A spelling with such a character is no listed name, and no tail of one. -/
theorem readSpelling_of_mem {c : Char} (hc : c ∈ ['*', ']', '&', ' ']) {spelling : String}
    (h : c ∈ spelling.toList) (info : TypeDescriptorInfo) :
    info.readSpelling spelling = .ok info := by
  have hnames : ['*', ']', '&', ' '].all (fun c =>
      !(builtinStrToEnum.flatMap fun entry => entry.1.toList ++ ['|']).contains c &&
        !"std::string|std::basic_string<char>|".toList.contains c) = true := by
    decide +kernel
  obtain ⟨hfixed, hstring⟩ := Bool.and_eq_true_iff.mp (List.all_eq_true.mp hnames c hc)
  refine readSpelling_of_false (finds_eq_false (List.mem_append_left _ h) fun hin => ?_)
    (finds_eq_false (List.mem_append_left _ h) fun hin => ?_) info
  · rw [List.contains_iff_mem.mpr hin] at hfixed
    cases hfixed
  · rw [List.contains_iff_mem.mpr hin] at hstring
    cases hstring

theorem readSpelling_cvQualified (isConst : Bool) (type : CppAstType) (info : TypeDescriptorInfo) :
    info.readSpelling (CppAstType.cvQualified isConst type).spelling = .ok info := by
  refine readSpelling_of_mem (c := ' ') (by decide) ?_ info
  cases isConst <;> cases type <;> simp [CppAstType.spelling]

theorem parseLevels_pointer (pointee : CppAstType) (info : TypeDescriptorInfo) (q : FoundQueues) :
    parseLevels (.pointer pointee) info q =
      parseLevels pointee
        { info with
          isConst := if q.foundConst = 0 then false else info.isConst
          isReference := true
          isPointer := true
          isVoid := false }
        { q with foundConst := 0 } := by
  rw [parseLevels, readSpelling_of_mem (c := '*') (by decide) (by simp [CppAstType.spelling])]
  rfl

theorem parseLevels_array (valueType : CppAstType) (info : TypeDescriptorInfo) (q : FoundQueues) :
    parseLevels (.array valueType) info q =
      parseLevels valueType { info with isVoid := false } q := by
  rw [parseLevels, readSpelling_of_mem (c := ']') (by decide) (by simp [CppAstType.spelling])]
  rfl

theorem parseLevels_lvalueReference (referee : CppAstType) (info : TypeDescriptorInfo)
    (q : FoundQueues) :
    parseLevels (.lvalueReference referee) info q =
      parseLevels referee { info with isReference := true, isVoid := false }
        { q with foundRef := q.foundRef + 1 } := by
  rw [parseLevels, readSpelling_of_mem (c := '&') (by decide) (by simp [CppAstType.spelling])]
  rfl

theorem parseLevels_rvalueReference (referee : CppAstType) (info : TypeDescriptorInfo)
    (q : FoundQueues) :
    parseLevels (.rvalueReference referee) info q =
      parseLevels referee { info with isVoid := false } q := by
  rw [parseLevels, readSpelling_of_mem (c := '&') (by decide) (by simp [CppAstType.spelling])]
  rfl

theorem parseLevels_cvQualified (isConst : Bool) (type : CppAstType) (info : TypeDescriptorInfo)
    (q : FoundQueues) :
    parseLevels (.cvQualified isConst type) info q =
      parseLevels type { info with isVoid := false }
        (if isConst then { q with foundConst := q.foundConst + 1 } else q) := by
  rw [parseLevels, readSpelling_cvQualified]
  rfl

/-! ## What the descriptor keeps -/

theorem readSpelling_keeps {info info1 : TypeDescriptorInfo} {spelling : String}
    (h : info.readSpelling spelling = .ok info1) :
    info1.isVoid = info.isVoid ∧ info1.isReference = info.isReference := by
  unfold TypeDescriptorInfo.readSpelling TypeDescriptorInfo.readFixedWidth at h
  obtain ⟨info2, hfixed, h⟩ := bind_eq_ok.mp h
  have hkept : info2.isVoid = info.isVoid ∧ info2.isReference = info.isReference := by
    split at hfixed
    · obtain ⟨builtinType, -, rfl⟩ := map_eq_ok.mp hfixed
      exact ⟨rfl, rfl⟩
    · cases hfixed
      exact ⟨rfl, rfl⟩
  rw [← pure_eq_ok.mp h, ← hkept.1, ← hkept.2]
  unfold TypeDescriptorInfo.readStdString
  split <;> exact ⟨rfl, rfl⟩

theorem isVoid_readName {info info1 : TypeDescriptorInfo} {name : String} {isEnum : Bool}
    (h : info.readName name isEnum = .ok info1) : info1.isVoid = false := by
  unfold TypeDescriptorInfo.readName at h
  obtain ⟨info2, -, h⟩ := bind_eq_ok.mp h
  rw [← pure_eq_ok.mp h]
  split
  · rfl
  · rfl

theorem isVoid_readTemplate {info info1 : TypeDescriptorInfo} {name : String}
    (h : info.readTemplate name = .ok info1) : info1.isVoid = false := by
  unfold TypeDescriptorInfo.readTemplate at h
  dsimp only at h
  split at h
  · obtain ⟨templateType, -, rfl⟩ := map_eq_ok.mp h
    rfl
  · cases h
    rfl

/-- Below a level nothing is void. -/
theorem isVoid_parseLevels : ∀ (type : CppAstType) {info info1 : TypeDescriptorInfo}
    {q q1 : FoundQueues}, info.isVoid = false → parseLevels type info q = .ok (info1, q1) →
      info1.isVoid = false
  | .pointer pointee, _, _, _, _, _, h => by
    rw [parseLevels_pointer] at h
    exact isVoid_parseLevels pointee rfl h
  | .array valueType, _, _, _, _, _, h => by
    rw [parseLevels_array] at h
    exact isVoid_parseLevels valueType rfl h
  | .lvalueReference referee, _, _, _, _, _, h => by
    rw [parseLevels_lvalueReference] at h
    exact isVoid_parseLevels referee rfl h
  | .rvalueReference referee, _, _, _, _, _, h => by
    rw [parseLevels_rvalueReference] at h
    exact isVoid_parseLevels referee rfl h
  | .cvQualified isConst type, _, _, _, _, _, h => by
    rw [parseLevels_cvQualified] at h
    exact isVoid_parseLevels type rfl h
  | .builtin kind text, info, _, _, _, hinfo, h => by
    unfold parseLevels at h
    obtain ⟨info1, hread, h⟩ := bind_eq_ok.mp h
    cases h
    show (if kind = .void then info1.isVoid else false) = false
    rw [(readSpelling_keeps hread).1, hinfo, ite_self]
  | .userDefined name isEnum, _, _, _, _, _, h => by
    unfold parseLevels at h
    obtain ⟨info1, hread, h⟩ := bind_eq_ok.mp h
    cases h
    exact isVoid_readName hread
  | .templateInstantiation name arguments, _, _, _, _, _, h => by
    unfold parseLevels at h
    obtain ⟨info1, -, h⟩ := bind_eq_ok.mp h
    obtain ⟨info2, hread, h⟩ := bind_eq_ok.mp h
    obtain ⟨⟨tmplArgs, q1⟩, -, h⟩ := bind_eq_ok.mp h
    cases h
    show info2.isVoid = false
    exact isVoid_readTemplate hread

theorem finish_isVoid (info : TypeDescriptorInfo) (q : FoundQueues) :
    (info.finish q).isVoid = info.isVoid := by
  unfold TypeDescriptorInfo.finish
  dsimp only
  split
  · rfl
  · rfl

/-- Only `void` itself is described as void. -/
theorem eq_void_of_parse {type : CppAstType} {info : TypeDescriptorInfo}
    (h : type.parse = .ok info) (hvoid : info.isVoid = true) :
    ∃ text, type = .builtin .void text := by
  obtain ⟨⟨info1, q⟩, hlevels, hfinish⟩ := bind_eq_ok.mp h
  rw [← pure_eq_ok.mp hfinish, finish_isVoid] at hvoid
  have hbelow : ∀ {inner info2 q2}, info2.isVoid = false →
      parseLevels inner info2 q2 = .ok (info1, q) → False := by
    intro inner info2 q2 hinfo2 hinner
    rw [isVoid_parseLevels inner hinfo2 hinner] at hvoid
    cases hvoid
  cases type with
  | pointer pointee =>
    rw [parseLevels_pointer] at hlevels
    exact (hbelow rfl hlevels).elim
  | array valueType =>
    rw [parseLevels_array] at hlevels
    exact (hbelow rfl hlevels).elim
  | lvalueReference referee =>
    rw [parseLevels_lvalueReference] at hlevels
    exact (hbelow rfl hlevels).elim
  | rvalueReference referee =>
    rw [parseLevels_rvalueReference] at hlevels
    exact (hbelow rfl hlevels).elim
  | cvQualified isConst type =>
    rw [parseLevels_cvQualified] at hlevels
    exact (hbelow rfl hlevels).elim
  | builtin kind text =>
    by_cases hkind : kind = .void
    · exact ⟨text, by rw [hkind]⟩
    · unfold parseLevels at hlevels
      obtain ⟨info2, -, hpure⟩ := bind_eq_ok.mp hlevels
      cases hpure
      simp [hkind] at hvoid
  | userDefined name isEnum =>
    unfold parseLevels at hlevels
    obtain ⟨info2, hread, hpure⟩ := bind_eq_ok.mp hlevels
    cases hpure
    rw [isVoid_readName hread] at hvoid
    cases hvoid
  | templateInstantiation name arguments =>
    unfold parseLevels at hlevels
    obtain ⟨info2, -, hlevels⟩ := bind_eq_ok.mp hlevels
    obtain ⟨info3, hread, hlevels⟩ := bind_eq_ok.mp hlevels
    obtain ⟨⟨tmplArgs, q1⟩, -, hpure⟩ := bind_eq_ok.mp hlevels
    cases hpure
    have hinfo3 : info3.isVoid = true := hvoid
    rw [isVoid_readTemplate hread] at hinfo3
    cases hinfo3

theorem parse_void {text : String} {info : TypeDescriptorInfo}
    (h : (CppAstType.builtin .void text).parse = .ok info) :
    info.kind = .builtin ∧ info.builtinType = .void ∧ info.isReference = false := by
  obtain ⟨⟨info1, q⟩, hlevels, hfinish⟩ := bind_eq_ok.mp h
  unfold parseLevels at hlevels
  obtain ⟨info2, hread, hpure⟩ := bind_eq_ok.mp hlevels
  cases hpure
  rw [← pure_eq_ok.mp hfinish]
  simp [TypeDescriptorInfo.finish, (readSpelling_keeps hread).2, TypeDescriptorInfo.new]

/-- What the generators read of the description. -/
def CppAstType.described (type : CppAstType) (info : TypeDescriptorInfo)
    (h : type.parse = .ok info) : CppType where
  kind := info.kind
  builtinType := info.builtinType
  isConst := info.isConst
  isReference := info.isReference
  isVoid := info.isVoid
  fullTypeDescription := info.fullTypeDescription
  levels := type.levels
  of_isVoid := fun hvoid => by
    obtain ⟨text, rfl⟩ := eq_void_of_parse h hvoid
    exact parse_void h

def CppAstType.describe (type : CppAstType) : Except Exc CppType :=
  match h : type.parse with
  | .error e => .error e
  | .ok info => .ok (type.described info h)

theorem describe_of_parse {type : CppAstType} {info : TypeDescriptorInfo}
    (h : type.parse = .ok info) : type.describe = .ok (type.described info h) := by
  unfold CppAstType.describe
  split
  · rename_i e herror
    rw [h] at herror
    cases herror
  · rename_i info1 hinfo1
    cases h.symm.trans hinfo1
    rfl

/-- The constness that is described is the one that `parseType` ends with. -/
theorem isConst_of_describe {type : CppAstType} {described : CppType}
    (h : type.describe = .ok described) :
    ∃ info, type.parse = .ok info ∧ described.isConst = info.isConst := by
  unfold CppAstType.describe at h
  split at h
  · cases h
  · rename_i info hparse
    cases h
    exact ⟨info, hparse, rfl⟩

end Xpcf.GrpcGen
