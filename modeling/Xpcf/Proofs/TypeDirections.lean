import Xpcf.Model.Descriptors
import Xpcf.Model.TypeParser

/-!
# Directions deduced from types

A parameter without a direction of its own is an input when `parseType` ends
with as many consts as references.  It forgets the consts found before a pointer
and counts those of template arguments, so an input need not be const at each
level that the callee reaches.

* `CppAstType.marks`: what the two queues are told on the way through a type;
* `CppAstType.levelsConst`: each level that is reached is const;
* `deduced_input_iff`: the types for which an input cannot be changed.
-/

namespace Xpcf.GrpcGen

/-! ## The queues -/

/-- What changes the queues. -/
inductive Mark where
  | const
  | pointer
  | reference
  deriving DecidableEq

mutual

/-- The marks of a type, in the order in which they are met: from the outside to the leaf,
and on through the arguments of a template. -/
def CppAstType.marks : CppAstType → List Mark
  | .pointer pointee => .pointer :: pointee.marks
  | .array valueType => valueType.marks
  | .lvalueReference referee => .reference :: referee.marks
  | .rvalueReference referee => referee.marks
  | .cvQualified isConst type => if isConst then .const :: type.marks else type.marks
  | .builtin _ _ => []
  | .userDefined _ _ => []
  | .templateInstantiation _ arguments => arguments.marks

def CppAstTypes.marks : CppAstTypes → List Mark
  | .nil => []
  | .cons type rest => type.marks ++ rest.marks

end

def FoundQueues.read (q : FoundQueues) : Mark → FoundQueues
  | .const => { q with foundConst := q.foundConst + 1 }
  | .pointer => { q with foundConst := 0 }
  | .reference => { q with foundRef := q.foundRef + 1 }

mutual

/-- The queues after a type have read its marks. -/
theorem queues_of_parseLevels : ∀ (type : CppAstType) {info info1 : TypeDescriptorInfo}
    {q q1 : FoundQueues}, parseLevels type info q = .ok (info1, q1) →
      q1 = type.marks.foldl FoundQueues.read q
  | .pointer pointee, _, _, _, _, h => by
    rw [parseLevels_pointer] at h
    exact queues_of_parseLevels pointee h
  | .array valueType, _, _, _, _, h => by
    rw [parseLevels_array] at h
    exact queues_of_parseLevels valueType h
  | .lvalueReference referee, _, _, _, _, h => by
    rw [parseLevels_lvalueReference] at h
    exact queues_of_parseLevels referee h
  | .rvalueReference referee, _, _, _, _, h => by
    rw [parseLevels_rvalueReference] at h
    exact queues_of_parseLevels referee h
  | .cvQualified isConst type, _, _, _, _, h => by
    rw [parseLevels_cvQualified] at h
    have htype := queues_of_parseLevels type h
    cases isConst with
    | true => exact htype
    | false => exact htype
  | .builtin kind text, _, _, _, _, h => by
    unfold parseLevels at h
    obtain ⟨info1, -, hpure⟩ := bind_eq_ok.mp h
    cases hpure
    rfl
  | .userDefined name isEnum, _, _, _, _, h => by
    unfold parseLevels at h
    obtain ⟨info1, -, hpure⟩ := bind_eq_ok.mp h
    cases hpure
    rfl
  | .templateInstantiation name arguments, _, _, _, _, h => by
    unfold parseLevels at h
    obtain ⟨info1, -, h⟩ := bind_eq_ok.mp h
    obtain ⟨info2, -, h⟩ := bind_eq_ok.mp h
    obtain ⟨⟨tmplArgs, q1⟩, harguments, hpure⟩ := bind_eq_ok.mp h
    cases hpure
    exact queues_of_parseArguments arguments harguments

theorem queues_of_parseArguments : ∀ (types : CppAstTypes) {tmplArgs : List String}
    {q q1 : FoundQueues}, parseArguments types q = .ok (tmplArgs, q1) →
      q1 = types.marks.foldl FoundQueues.read q
  | .nil, _, _, _, h => by
    cases h
    rfl
  | .cons type rest, _, _, _, h => by
    unfold parseArguments at h
    obtain ⟨⟨info, q1⟩, htype, h⟩ := bind_eq_ok.mp h
    obtain ⟨⟨tmplArgs1, q2⟩, hrest, hpure⟩ := bind_eq_ok.mp h
    cases hpure
    unfold CppAstTypes.marks
    rw [List.foldl_append, ← queues_of_parseLevels type htype]
    exact queues_of_parseArguments rest hrest

end

/-! ## Their sizes -/

/-- The consts after the last pointer. -/
def constsAfterPointer (marks : List Mark) : Nat :=
  (marks.reverse.takeWhile (· ≠ .pointer)).count .const

/-- A pointer empties the queue of the consts, and nothing else is taken from a queue. -/
theorem queues_eq (marks : List Mark) :
    marks.foldl FoundQueues.read ⟨0, 0⟩ =
      ⟨constsAfterPointer marks, marks.count .reference⟩ := by
  induction marks using List.reverseRecOn with
  | nil => rfl
  | append_singleton marks mark ih =>
    rw [List.foldl_append, ih]
    unfold constsAfterPointer
    rw [List.reverse_append, List.count_append]
    cases mark with
    | const => simp [FoundQueues.read]
    | pointer => simp [FoundQueues.read]
    | reference => simp [FoundQueues.read]

theorem finish_isConst (info : TypeDescriptorInfo) (q : FoundQueues) :
    (info.finish q).isConst = !decide (q.foundConst < q.foundRef) := by
  unfold TypeDescriptorInfo.finish
  dsimp only
  split
  · rfl
  · rfl

/-- A type is described as const unless it has more references than consts after its last
pointer. -/
theorem described_isConst {type : CppAstType} {described : CppType}
    (h : type.describe = .ok described) :
    described.isConst = true ↔
      ¬ constsAfterPointer type.marks < type.marks.count .reference := by
  obtain ⟨info, hparse, hconst⟩ := isConst_of_describe h
  obtain ⟨⟨info1, q⟩, hlevels, hfinish⟩ := bind_eq_ok.mp hparse
  have hqueues := (queues_of_parseLevels type hlevels).trans (queues_eq type.marks)
  rw [hconst, ← pure_eq_ok.mp hfinish, finish_isConst, hqueues]
  simp

/-! ## What the callee reaches -/

/-- The type is const itself. -/
def CppAstType.isConstQualified : CppAstType → Bool
  | .cvQualified isConst type => isConst || type.isConstQualified
  | _ => false

/-- Each level that is reached through a reference, a pointer or an array is const.  The
arguments of a template are not levels of the type. -/
def CppAstType.levelsConst : CppAstType → Bool
  | .pointer pointee => pointee.isConstQualified && pointee.levelsConst
  | .array valueType => valueType.isConstQualified && valueType.levelsConst
  | .lvalueReference referee => referee.isConstQualified && referee.levelsConst
  | .rvalueReference referee => referee.isConstQualified && referee.levelsConst
  | .cvQualified _ type => type.levelsConst
  | .builtin _ _ => true
  | .userDefined _ _ => true
  | .templateInstantiation _ _ => true

/-! ## Deduced inputs -/

/-- No attribute gives the parameter a direction. -/
def CppFunctionParameter.NoDirection (p : CppFunctionParameter) : Prop :=
  ∀ attrib ∈ p.attributes, attrib.scope = some "xpcf" → str2typeIoMap attrib.name = none

theorem foldl_readParameterAttribute {attributes : List CppAttribute}
    (h : ∀ attrib ∈ attributes, attrib.scope = some "xpcf" → str2typeIoMap attrib.name = none)
    (ioType : IoType) : attributes.foldl readParameterAttribute ioType = ioType := by
  induction attributes with
  | nil => rfl
  | cons attrib attributes ih =>
    have hattrib : readParameterAttribute ioType attrib = ioType := by
      unfold readParameterAttribute setIOType
      split
      · rename_i hscope
        rw [h attrib List.mem_cons_self hscope]
      · rfl
    rw [List.foldl_cons, hattrib]
    exact ih fun a ha => h a (List.mem_cons_of_mem _ ha)

theorem ioType_of_noDirection {p : CppFunctionParameter} (h : p.NoDirection) :
    (ParameterDescriptor.parse p).ioType = p.type.ioType :=
  foldl_readParameterAttribute h _

theorem ioType_in_iff (type : CppType) : type.ioType = .in ↔ type.isConst = true := by
  unfold CppType.ioType
  split
  · rename_i hconst
    exact iff_of_true rfl hconst
  · rename_i hconst
    refine iff_of_false ?_ hconst
    split
    · exact nofun
    · exact nofun

/-- A parameter that is deduced to be an input is const at each level that is reached, if
its type is so, or has more references than consts after its last pointer (it is not an
input then). -/
theorem deduced_input_iff (p : CppFunctionParameter) (type : CppAstType)
    (htype : type.describe = .ok p.type) (hnone : p.NoDirection) :
    ((ParameterDescriptor.parse p).ioType = .in → type.levelsConst = true) ↔
      type.levelsConst = true ∨
        constsAfterPointer type.marks < type.marks.count .reference := by
  rw [ioType_of_noDirection hnone, ioType_in_iff, described_isConst htype]
  constructor
  · intro h
    by_cases hmore : constsAfterPointer type.marks < type.marks.count .reference
    · exact .inr hmore
    · exact .inl (h hmore)
  · rintro (hlevels | hmore) hconst
    · exact hlevels
    · exact absurd hmore hconst

/-! ## Four types -/

def intType : CppAstType := .builtin .int "int"

theorem parseLevels_intType (info : TypeDescriptorInfo) (q : FoundQueues) :
    parseLevels intType info q =
      .ok ({ info with
        isVoid := false
        typename := "int"
        builtinType := .int
        kind := .builtin
        isBuiltin := true }, q) := by
  rw [intType, parseLevels, readSpelling_of_false (by decide +kernel) (by decide)]
  rfl

/-- A parameter `p` of a type that is described like this. -/
def intParameter (isReference : Bool) (levels : List TypeLevel) : CppFunctionParameter where
  name := "p"
  attributes := []
  type :=
    { kind := .builtin
      builtinType := .int
      isConst := true
      isReference := isReference
      isVoid := false
      fullTypeDescription := "int"
      levels := levels
      of_isVoid := fun h => absurd h Bool.false_ne_true }

theorem describe_constReference :
    (CppAstType.lvalueReference (.cvQualified true intType)).describe =
      .ok (intParameter true [.lvalueReference, .const]).type := by
  have hparse : (CppAstType.lvalueReference (.cvQualified true intType)).parse =
      .ok ⟨"int", true, true, true, false, false, .builtin, .none, .int, []⟩ := by
    unfold CppAstType.parse
    rw [parseLevels_lvalueReference, parseLevels_cvQualified, parseLevels_intType]
    rfl
  exact describe_of_parse hparse

theorem parse_pointer :
    (CppAstType.pointer intType).parse =
      .ok ⟨"int", true, true, true, true, false, .builtin, .none, .int, []⟩ := by
  unfold CppAstType.parse
  rw [parseLevels_pointer, parseLevels_intType]
  rfl

theorem describe_pointer :
    (CppAstType.pointer intType).describe = .ok (intParameter true [.pointer]).type :=
  describe_of_parse parse_pointer

/-- It holds for `const int &`, and not for `int *`. -/
theorem deduced_input_iff_constReference :
    ((ParameterDescriptor.parse (intParameter true [.lvalueReference, .const])).ioType = .in →
      (CppAstType.lvalueReference (.cvQualified true intType)).levelsConst = true) ∧
    ¬ ((ParameterDescriptor.parse (intParameter true [.pointer])).ioType = .in →
      (CppAstType.pointer intType).levelsConst = true) :=
  have hnone : ∀ levels, (intParameter true levels).NoDirection :=
    fun _ _ h => absurd h List.not_mem_nil
  ⟨(deduced_input_iff (intParameter true [.lvalueReference, .const])
      (.lvalueReference (.cvQualified true intType)) describe_constReference (hnone _)).mpr
      (.inl rfl),
    fun h => absurd ((deduced_input_iff (intParameter true [.pointer]) (.pointer intType)
      describe_pointer (hnone _)).mp h) (by decide)⟩

/-- A parameter `p` of the type is deduced to be an input, and a level is not const. -/
def MisdeducedInput (type : CppAstType) : Prop :=
  ∃ described, type.describe = .ok described ∧
    (ParameterDescriptor.parse ⟨"p", [], described⟩).ioType = .in ∧ type.levelsConst = false

theorem misdeducedInput_of_parse {type : CppAstType} {info : TypeDescriptorInfo}
    (h : type.parse = .ok info) (hconst : info.isConst = true)
    (hlevels : type.levelsConst = false) :
    MisdeducedInput type :=
  ⟨type.described info h, describe_of_parse h, (ioType_in_iff _).mpr hconst, hlevels⟩

/-- `int *`, `const int * &` and `std::vector<const int> &`. -/
theorem pointer_deduced_input :
    MisdeducedInput (.pointer intType) ∧
      MisdeducedInput (.lvalueReference (.pointer (.cvQualified true intType))) ∧
      MisdeducedInput (.lvalueReference (.templateInstantiation "std::vector"
        (.cons (.cvQualified true intType) .nil))) := by
  refine ⟨misdeducedInput_of_parse parse_pointer rfl rfl, ?_, ?_⟩
  · have hparse : (CppAstType.lvalueReference (.pointer (.cvQualified true intType))).parse =
        .ok ⟨"int", true, true, true, true, false, .builtin, .none, .int, []⟩ := by
      unfold CppAstType.parse
      rw [parseLevels_lvalueReference, parseLevels_pointer, parseLevels_cvQualified,
        parseLevels_intType]
      rfl
    exact misdeducedInput_of_parse hparse rfl rfl
  · have hspelling : ∀ info : TypeDescriptorInfo, info.readSpelling
        (CppAstType.templateInstantiation "std::vector"
          (.cons (.cvQualified true intType) .nil)).spelling = .ok info :=
      fun info => readSpelling_of_mem (c := ' ') (by decide)
        (by simp [CppAstType.spelling, CppAstTypes.spellings, intType]) info
    have htemplate : ∀ info : TypeDescriptorInfo, info.readTemplate "std::vector" =
        .ok { info with
          kind := .template
          typename := "std::vector"
          isVoid := false
          templateType := .vector } := by
      intro info
      unfold TypeDescriptorInfo.readTemplate
      rw [show isContainer "std::vector" = true by decide +kernel]
      rfl
    have harguments : parseArguments (.cons (.cvQualified true intType) .nil) ⟨0, 1⟩ =
        .ok (["int"], ⟨1, 1⟩) := by
      rw [parseArguments, parseLevels_cvQualified, parseLevels_intType]
      rfl
    have hparse : (CppAstType.lvalueReference (.templateInstantiation "std::vector"
        (.cons (.cvQualified true intType) .nil))).parse =
        .ok ⟨"std::vector", true, false, true, false, false, .template, .vector, .void,
          ["int"]⟩ := by
      refine bind_eq_ok.mpr ⟨(⟨"std::vector", true, false, true, false, false, .template, .vector,
        .void, ["int"]⟩, ⟨1, 1⟩), ?_, rfl⟩
      rw [parseLevels_lvalueReference, parseLevels]
      exact bind_eq_ok.mpr ⟨_, hspelling _, bind_eq_ok.mpr ⟨_, htemplate _,
        bind_eq_ok.mpr ⟨_, harguments, rfl⟩⟩⟩
    exact misdeducedInput_of_parse hparse rfl rfl

end Xpcf.GrpcGen
