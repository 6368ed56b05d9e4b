import Xpcf.CodeLib.SeparatedLists
import Xpcf.Model.TypeParser

/-!
# The names of types that are recognised

The tests on a name search for it in a text of names, so they accept tails of
the names that are meant, and of several of them in a row; the container test
accepts every part of its text.  The lookups that follow find the names only.
-/

namespace Xpcf.GrpcGen

open CodeLib

/-! ## Names in a type -/

mutual

/-- The user-defined types, each with whether it is an enumeration. -/
def CppAstType.userTypes : CppAstType → List (String × Bool)
  | .builtin _ _ => []
  | .userDefined name isEnum => [(name, isEnum)]
  | .pointer pointee => pointee.userTypes
  | .array valueType => valueType.userTypes
  | .lvalueReference referee => referee.userTypes
  | .rvalueReference referee => referee.userTypes
  | .cvQualified _ type => type.userTypes
  | .templateInstantiation _ arguments => arguments.userTypes

def CppAstTypes.userTypes : CppAstTypes → List (String × Bool)
  | .nil => []
  | .cons type rest => type.userTypes ++ rest.userTypes

end

mutual

/-- The spellings of the levels, and those of the arguments of templates. -/
def CppAstType.levelSpellings : CppAstType → List String
  | .builtin kind text => [(CppAstType.builtin kind text).spelling]
  | .userDefined name isEnum => [(CppAstType.userDefined name isEnum).spelling]
  | .pointer pointee => (CppAstType.pointer pointee).spelling :: pointee.levelSpellings
  | .array valueType => (CppAstType.array valueType).spelling :: valueType.levelSpellings
  | .lvalueReference referee =>
    (CppAstType.lvalueReference referee).spelling :: referee.levelSpellings
  | .rvalueReference referee =>
    (CppAstType.rvalueReference referee).spelling :: referee.levelSpellings
  | .cvQualified isConst type =>
    (CppAstType.cvQualified isConst type).spelling :: type.levelSpellings
  | .templateInstantiation name arguments =>
    (CppAstType.templateInstantiation name arguments).spelling :: arguments.levelSpellings

def CppAstTypes.levelSpellings : CppAstTypes → List String
  | .nil => []
  | .cons type rest => type.levelSpellings ++ rest.levelSpellings

end

mutual

/-- The names of the templates. -/
def CppAstType.templates : CppAstType → List String
  | .builtin _ _ => []
  | .userDefined _ _ => []
  | .pointer pointee => pointee.templates
  | .array valueType => valueType.templates
  | .lvalueReference referee => referee.templates
  | .rvalueReference referee => referee.templates
  | .cvQualified _ type => type.templates
  | .templateInstantiation name arguments => name :: arguments.templates

def CppAstTypes.templates : CppAstTypes → List String
  | .nil => []
  | .cons type rest => type.templates ++ rest.templates

end

/-- The keys of `builtinStrToEnumMap`. -/
def fixedWidthNames : List String := builtinStrToEnum.map Prod.fst

def stdStringNames : List String := ["std::string", "std::basic_string<char>"]

/-- The keys of `templateToContainerMap`. -/
def containerKeys : List String := templateToContainer.map Prod.fst

/-- The names in the text of `isContainer`. -/
def containerNames : List String := ["std::vector", "std::map", "std::unordered_map"]

/-- A level with a type that is neither of fixed width nor a string is described by its name. -/
def DescribedAsUserType (name : String) (isEnum : Bool) : Prop :=
  name ∉ fixedWidthNames → name ∉ stdStringNames → ∀ info : TypeDescriptorInfo,
    info.readName name isEnum = .ok { info with
      isVoid := false
      typename := name
      kind := if isEnum then .enum else .userDefined }

/-- The names in a type are recognised for what they are, and no lookup throws. -/
structure NamesRecognised (type : CppAstType) : Prop where
  fixed_width : ∀ spelling ∈ type.levelSpellings,
    isCppFixedWidthType spelling = true ↔ spelling ∈ fixedWidthNames
  std_string : ∀ spelling ∈ type.levelSpellings,
    isStdString spelling = true ↔ spelling ∈ stdStringNames
  container : ∀ name ∈ type.templates, isContainer name = true → name ∈ containerKeys
  returns : ∃ info, type.parse = .ok info
  user_types : ∀ entry ∈ type.userTypes, DescribedAsUserType entry.1 entry.2

/-- The name is a tail of one of the names, or of several in a row with bars between them. -/
def EndsListed (names : List String) (name : String) : Prop :=
  ∃ before listed after, names = before ++ listed :: after ∧
    name.toList <:+ separated '|' (before.map String.toList) ++ listed.toList

/-- No name in the type is mistaken for a listed one because of how the lists are searched. -/
structure PlainNames (type : CppAstType) : Prop where
  fixed_width : ∀ spelling ∈ type.levelSpellings, EndsListed fixedWidthNames spelling →
    spelling ∈ fixedWidthNames
  std_string : ∀ spelling ∈ type.levelSpellings, EndsListed stdStringNames spelling →
    spelling ∈ stdStringNames
  container : ∀ name ∈ type.templates,
    name.toList <:+: "std::vector|std::map|std::unordered_map".toList → name ∈ containerNames

mutual

theorem CppAstType.mem_levelSpellings : ∀ (type : CppAstType), ∀ entry ∈ type.userTypes,
    entry.1 ∈ type.levelSpellings
  | .builtin _ _, _, h => absurd h List.not_mem_nil
  | .userDefined _ _, _, h => List.mem_singleton.mpr (congrArg Prod.fst (List.mem_singleton.mp h))
  | .pointer pointee, entry, h =>
    List.mem_cons_of_mem _ (CppAstType.mem_levelSpellings pointee entry h)
  | .array valueType, entry, h =>
    List.mem_cons_of_mem _ (CppAstType.mem_levelSpellings valueType entry h)
  | .lvalueReference referee, entry, h =>
    List.mem_cons_of_mem _ (CppAstType.mem_levelSpellings referee entry h)
  | .rvalueReference referee, entry, h =>
    List.mem_cons_of_mem _ (CppAstType.mem_levelSpellings referee entry h)
  | .cvQualified _ type, entry, h =>
    List.mem_cons_of_mem _ (CppAstType.mem_levelSpellings type entry h)
  | .templateInstantiation _ arguments, entry, h =>
    List.mem_cons_of_mem _ (CppAstTypes.mem_levelSpellings arguments entry h)

theorem CppAstTypes.mem_levelSpellings : ∀ (types : CppAstTypes), ∀ entry ∈ types.userTypes,
    entry.1 ∈ types.levelSpellings
  | .nil, _, h => absurd h List.not_mem_nil
  | .cons type rest, entry, h => by
    rcases List.mem_append.mp h with h | h
    · exact List.mem_append_left _ (CppAstType.mem_levelSpellings type entry h)
    · exact List.mem_append_right _ (CppAstTypes.mem_levelSpellings rest entry h)

end

/-! ## The tests -/

/-- A search for a name, with a bar after it, in names with a bar after each. -/
theorem finds_separated_iff {names : List String} (hnames : ∀ name ∈ names, '|' ∉ name.toList)
    (name : String) :
    finds (separated '|' (names.map String.toList)) (name.toList ++ ['|']) = true ↔
      EndsListed names name := by
  have hentries : ∀ entry ∈ names.map String.toList, '|' ∉ entry := by
    intro entry hentry
    obtain ⟨listed, hlisted, rfl⟩ := List.mem_map.mp hentry
    exact hnames listed hlisted
  unfold finds EndsListed
  rw [decide_eq_true_eq, infix_separated_iff hentries]
  constructor
  · rintro ⟨before, entry, after, hsplit, htail⟩
    obtain ⟨before1, rest, rfl, rfl, hrest⟩ := List.map_eq_append_iff.mp hsplit
    obtain ⟨listed, after1, rfl, rfl, rfl⟩ := List.map_eq_cons_iff.mp hrest
    exact ⟨before1, listed, after1, rfl, htail⟩
  · rintro ⟨before, listed, after, rfl, htail⟩
    exact ⟨before.map String.toList, listed.toList, after.map String.toList, by simp, htail⟩

theorem endsListed_of_mem {names : List String} {name : String} (h : name ∈ names) :
    EndsListed names name := by
  obtain ⟨before, after, hsplit⟩ := List.append_of_mem h
  exact ⟨before, name, after, hsplit, List.suffix_append _ _⟩

theorem isCppFixedWidthType_iff (name : String) :
    isCppFixedWidthType name = true ↔ EndsListed fixedWidthNames name := by
  rw [← finds_separated_iff (by decide) name]
  rfl

theorem isStdString_iff (name : String) :
    isStdString name = true ↔ EndsListed stdStringNames name := by
  rw [← finds_separated_iff (by decide) name]
  rfl

/-- A test on a name is exact for a name that ends no listed name but itself. -/
theorem exact_iff {names : List String} {name : String} :
    (EndsListed names name ↔ name ∈ names) ↔ (EndsListed names name → name ∈ names) :=
  ⟨Iff.mp, fun h => ⟨h, endsListed_of_mem⟩⟩

theorem isContainer_iff (name : String) :
    (isContainer name = true → name ∈ containerKeys) ↔
      (name.toList <:+: "std::vector|std::map|std::unordered_map".toList →
        name ∈ containerNames) := by
  have hkeys : ∀ key ∈ containerKeys,
      key.toList <:+: "std::vector|std::map|std::unordered_map".toList → key ∈ containerNames := by
    decide
  have hnames : ∀ key ∈ containerNames, key ∈ containerKeys := by decide
  unfold isContainer finds
  rw [decide_eq_true_eq]
  exact ⟨fun h hpart => hkeys name (h hpart) hpart, fun h hpart => hnames name (h hpart)⟩

/-! ## The lookups -/

theorem lookupAt_of_mem {V : Type} {entries : List (String × V)} {name : String}
    (h : name ∈ entries.map Prod.fst) : ∃ v, lookupAt entries name = .ok v := by
  induction entries with
  | nil => cases h
  | cons entry rest ih =>
    obtain ⟨key, v⟩ := entry
    unfold lookupAt
    rw [List.lookup_cons]
    by_cases hkey : name = key
    · rw [hkey, beq_self_eq_true]
      exact ⟨v, rfl⟩
    · rw [beq_false_of_ne hkey]
      rw [List.map_cons, List.mem_cons] at h
      exact ih (h.resolve_left hkey)

theorem readSpelling_returns {spelling : String}
    (h : isCppFixedWidthType spelling = true → spelling ∈ fixedWidthNames)
    (info : TypeDescriptorInfo) : ∃ info1, info.readSpelling spelling = .ok info1 := by
  have hfixed : ∃ info1, info.readFixedWidth spelling = .ok info1 := by
    unfold TypeDescriptorInfo.readFixedWidth
    split
    · rename_i hname
      obtain ⟨builtinType, hlookup⟩ := lookupAt_of_mem (h hname)
      rw [hlookup]
      exact ⟨_, rfl⟩
    · exact ⟨info, rfl⟩
  obtain ⟨info1, hread⟩ := hfixed
  unfold TypeDescriptorInfo.readSpelling
  rw [hread]
  exact ⟨_, rfl⟩

theorem readTemplate_returns {name : String}
    (h : isContainer name = true → name ∈ containerKeys) (info : TypeDescriptorInfo) :
    ∃ info1, info.readTemplate name = .ok info1 := by
  unfold TypeDescriptorInfo.readTemplate
  dsimp only
  split
  · rename_i hname
    obtain ⟨templateType, hlookup⟩ := lookupAt_of_mem (h hname)
    rw [hlookup]
    exact ⟨_, rfl⟩
  · exact ⟨_, rfl⟩

/-- What the lookups need of the names in a type or in a list of types. -/
def LookupsFind (spellings templates : List String) : Prop :=
  (∀ spelling ∈ spellings, isCppFixedWidthType spelling = true → spelling ∈ fixedWidthNames) ∧
    ∀ name ∈ templates, isContainer name = true → name ∈ containerKeys

theorem LookupsFind.below {spelling : String} {spellings templates : List String}
    (h : LookupsFind (spelling :: spellings) templates) : LookupsFind spellings templates :=
  ⟨fun other hother => h.1 other (List.mem_cons_of_mem _ hother), h.2⟩

mutual

theorem parseLevels_returns : ∀ (type : CppAstType) (info : TypeDescriptorInfo) (q : FoundQueues),
    LookupsFind type.levelSpellings type.templates → ∃ result, parseLevels type info q = .ok result
  | .builtin _ text, info, _, h => by
    obtain ⟨info1, hread⟩ := readSpelling_returns (h.1 text List.mem_cons_self) info
    unfold parseLevels
    rw [hread]
    exact ⟨_, rfl⟩
  | .pointer pointee, _, _, h => by
    rw [parseLevels_pointer]
    exact parseLevels_returns pointee _ _ h.below
  | .array valueType, _, _, h => by
    rw [parseLevels_array]
    exact parseLevels_returns valueType _ _ h.below
  | .lvalueReference referee, _, _, h => by
    rw [parseLevels_lvalueReference]
    exact parseLevels_returns referee _ _ h.below
  | .rvalueReference referee, _, _, h => by
    rw [parseLevels_rvalueReference]
    exact parseLevels_returns referee _ _ h.below
  | .cvQualified _ type, _, _, h => by
    rw [parseLevels_cvQualified]
    exact parseLevels_returns type _ _ h.below
  | .userDefined name isEnum, info, _, h => by
    obtain ⟨info1, hread⟩ := readSpelling_returns (h.1 name List.mem_cons_self) info
    unfold parseLevels TypeDescriptorInfo.readName
    rw [hread]
    exact ⟨_, rfl⟩
  | .templateInstantiation name arguments, info, q, h => by
    obtain ⟨info1, hspelling⟩ := readSpelling_returns (h.1 _ List.mem_cons_self) info
    obtain ⟨info2, hread⟩ := readTemplate_returns (h.2 name List.mem_cons_self) info1
    obtain ⟨⟨tmplArgs, q1⟩, harguments⟩ := parseArguments_returns arguments q
      ⟨h.below.1, fun other hother => h.2 other (List.mem_cons_of_mem _ hother)⟩
    refine ⟨({ info2 with tmplArgs := tmplArgs }, q1), ?_⟩
    unfold parseLevels
    exact bind_eq_ok.mpr ⟨info1, hspelling, bind_eq_ok.mpr ⟨info2, hread,
      bind_eq_ok.mpr ⟨_, harguments, rfl⟩⟩⟩

theorem parseArguments_returns : ∀ (types : CppAstTypes) (q : FoundQueues),
    LookupsFind types.levelSpellings types.templates →
      ∃ result, parseArguments types q = .ok result
  | .nil, _, _ => ⟨_, rfl⟩
  | .cons type rest, q, h => by
    obtain ⟨⟨info, q1⟩, htype⟩ := parseLevels_returns type .new q
      ⟨fun spelling hspelling => h.1 spelling (List.mem_append_left _ hspelling),
        fun name hname => h.2 name (List.mem_append_left _ hname)⟩
    obtain ⟨⟨tmplArgs, q2⟩, hrest⟩ := parseArguments_returns rest q1
      ⟨fun spelling hspelling => h.1 spelling (List.mem_append_right _ hspelling),
        fun name hname => h.2 name (List.mem_append_right _ hname)⟩
    unfold parseArguments
    rw [htype]
    show ∃ result, (parseArguments rest q1 >>= fun _ => _) = _
    rw [hrest]
    exact ⟨_, rfl⟩

end

theorem describedAsUserType_of_exact {name : String} {isEnum : Bool}
    (hfixed : isCppFixedWidthType name = true → name ∈ fixedWidthNames)
    (hstring : isStdString name = true → name ∈ stdStringNames) :
    DescribedAsUserType name isEnum := by
  intro hnofixed hnostring info
  have hfixed1 : ¬ isCppFixedWidthType name = true := fun h => hnofixed (hfixed h)
  have hstring1 : ¬ isStdString name = true := fun h => hnostring (hstring h)
  have hneither : ¬ (isCppFixedWidthType name || isStdString name) = true := by
    simp [hfixed1, hstring1]
  unfold TypeDescriptorInfo.readName
  rw [readSpelling_of_false (Bool.eq_false_iff.mpr hfixed1) (Bool.eq_false_iff.mpr hstring1)]
  show Except.ok (if _ then _ else _) = _
  rw [if_neg hneither]

/-! ## All names of a type -/

/-- The names in a type are recognised for what they are exactly when no name is a tail
or a part of a listed one without being listed itself. -/
theorem namesRecognised_iff (type : CppAstType) : NamesRecognised type ↔ PlainNames type := by
  constructor
  · intro h
    refine ⟨fun spelling hspelling => ?_, fun spelling hspelling => ?_, fun name hname => ?_⟩
    · have hexact := h.fixed_width spelling hspelling
      rw [isCppFixedWidthType_iff] at hexact
      exact exact_iff.mp hexact
    · have hexact := h.std_string spelling hspelling
      rw [isStdString_iff] at hexact
      exact exact_iff.mp hexact
    · exact (isContainer_iff name).mp (h.container name hname)
  · intro h
    have hfixed : ∀ spelling ∈ type.levelSpellings,
        (isCppFixedWidthType spelling = true ↔ spelling ∈ fixedWidthNames) := by
      intro spelling hspelling
      rw [isCppFixedWidthType_iff]
      exact exact_iff.mpr (h.fixed_width spelling hspelling)
    have hstring : ∀ spelling ∈ type.levelSpellings,
        (isStdString spelling = true ↔ spelling ∈ stdStringNames) := by
      intro spelling hspelling
      rw [isStdString_iff]
      exact exact_iff.mpr (h.std_string spelling hspelling)
    have hcontainer : ∀ name ∈ type.templates, isContainer name = true → name ∈ containerKeys :=
      fun name hname => (isContainer_iff name).mpr (h.container name hname)
    refine ⟨hfixed, hstring, hcontainer, ?_, fun entry hentry => ?_⟩
    · obtain ⟨⟨info, q⟩, hlevels⟩ := parseLevels_returns type .new ⟨0, 0⟩
        ⟨fun spelling hspelling => (hfixed spelling hspelling).mp, hcontainer⟩
      unfold CppAstType.parse
      rw [hlevels]
      exact ⟨_, rfl⟩
    · have hspelling := type.mem_levelSpellings entry hentry
      exact describedAsUserType_of_exact (hfixed _ hspelling).mp (hstring _ hspelling).mp

/-- A type `t` and a template `map` of the user end the generator, a type `string` of the
user is taken for `std::string`, and the test for strings accepts a template `basic_string`
of the user. -/
theorem tails_are_recognised :
    (CppAstType.userDefined "t" false).parse = .error Exc.outOfRange ∧
      (CppAstType.templateInstantiation "map" .nil).parse = .error Exc.outOfRange ∧
      (TypeDescriptorInfo.new.readStdString "string").kind = .stdString ∧
      ¬ NamesRecognised (.userDefined "t" false) ∧
      ¬ NamesRecognised (.templateInstantiation "map" .nil) ∧
      ¬ NamesRecognised (.userDefined "string" false) ∧
      ¬ NamesRecognised (.templateInstantiation "basic_string"
        (.cons (.builtin .char "char") .nil)) := by
  refine ⟨by decide +kernel, by decide +kernel, by decide, fun h => ?_, fun h => ?_, fun h => ?_,
    fun h => ?_⟩
  · exact absurd ((h.fixed_width "t" List.mem_cons_self).mp (by decide +kernel)) (by decide)
  · exact absurd (h.container "map" List.mem_cons_self (by decide)) (by decide)
  · exact absurd ((h.std_string "string" List.mem_cons_self).mp (by decide)) (by decide)
  · exact absurd ((h.std_string _ List.mem_cons_self).mp (by decide +kernel)) (by decide +kernel)

end Xpcf.GrpcGen
