import Xpcf.CodeLib.Numerals
import Xpcf.Model.ProtoGenerator
import Xpcf.Proofs.ClassHierarchies
import Xpcf.Proofs.Construction

/-!
# The rpcs of an interface

`generateRpcMapping` names every method after its position among the methods
called alike, whatever the attribute `rpcName` had set before.
-/

namespace Xpcf.GrpcGen

open CodeLib

/-! ## The names of the rpcs -/

def MethodDescriptor.withRpcName (m : MethodDescriptor) (rpcName : String) : MethodDescriptor :=
  { m with rpcName := rpcName }

/-- The name of the method at a position, numbered when it is overloaded. -/
def numberedName (names : List String) (i : Nat) : String :=
  let name := names.getD i ""
  if 1 < names.count name then overloadName name ((names.take i).count name) else name

theorem getElem?_setRpcName (methods : List MethodDescriptor) (i j : Nat) (rpcName : String) :
    (setRpcName methods i rpcName)[j]? =
      if i = j then methods[j]?.map fun m => m.withRpcName rpcName else methods[j]? := by
  unfold setRpcName
  rw [List.getElem?_modify]
  cases methods[j]? with
  | none => simp
  | some m =>
    by_cases h : i = j
    · simp [h, MethodDescriptor.withRpcName]
    · simp [h]

theorem getElem?_nameOverloads (name : String) (indexArray : List Nat) (hnodup : indexArray.Nodup)
    (k : Nat) (methods : List MethodDescriptor) (j : Nat) :
    (nameOverloads name indexArray k methods)[j]? =
      if j ∈ indexArray then
        methods[j]?.map fun m => m.withRpcName (overloadName name (k + indexArray.idxOf j))
      else methods[j]? := by
  induction indexArray generalizing k methods with
  | nil => rfl
  | cons i rest ih =>
    rw [List.nodup_cons] at hnodup
    rw [nameOverloads, ih hnodup.2, getElem?_setRpcName]
    by_cases hij : i = j
    · subst hij
      rw [if_neg hnodup.1, if_pos rfl, if_pos List.mem_cons_self, List.idxOf_cons_self]
      rfl
    · rw [if_neg hij]
      by_cases hj : j ∈ rest
      · rw [if_pos hj, if_pos (List.mem_cons_of_mem i hj), List.idxOf_cons_ne rest hij]
        rw [show k + 1 + rest.idxOf j = k + (rest.idxOf j + 1) by omega]
      · rw [if_neg hj, if_neg fun h => (List.mem_cons.mp h).elim (fun h1 => hij h1.symm) hj]

/-- An entry of the table names the methods of its key. -/
theorem getElem?_mapEntry {names : List String} {entry : String × List Nat}
    (hentry : entry.2 = positions names entry.1) (hmem : entry.1 ∈ names)
    (methods : List MethodDescriptor) (j : Nat) :
    (mapEntry methods entry)[j]? =
      if names[j]? = some entry.1 then
        methods[j]?.map fun m => m.withRpcName (numberedName names j)
      else methods[j]? := by
  have hlength : entry.2.length = names.count entry.1 := by
    rw [hentry, length_positions]
  have hname : names[j]? = some entry.1 → names.getD j "" = entry.1 := fun h => by
    rw [List.getD_eq_getElem?_getD, h]
    rfl
  unfold mapEntry
  by_cases hmany : 1 < entry.2.length
  · rw [if_pos hmany, getElem?_nameOverloads _ _ (hentry ▸ nodup_positions _ _), hentry]
    by_cases hj : names[j]? = some entry.1
    · rw [if_pos (mem_positions.mpr hj), if_pos hj, idxOf_positions hj, Nat.zero_add]
      unfold numberedName
      rw [hname hj, if_pos (hlength ▸ hmany)]
    · rw [if_neg fun h => hj (mem_positions.mp h), if_neg hj]
  · have hpos : 0 < names.count entry.1 := List.count_pos_iff.mpr hmem
    obtain ⟨i, hi⟩ : ∃ i, entry.2 = [i] := List.length_eq_one_iff.mp (by omega)
    have hat : ∀ k, names[k]? = some entry.1 ↔ i = k := fun k => by
      rw [← mem_positions, ← hentry, hi, List.mem_singleton]
      exact eq_comm
    rw [if_neg hmany, hi, List.headD_cons, getElem?_setRpcName]
    by_cases hij : i = j
    · rw [if_pos hij, if_pos ((hat j).mpr hij)]
      unfold numberedName
      rw [hname ((hat j).mpr hij), if_neg (hlength ▸ hmany)]
    · rw [if_neg hij, if_neg fun h => hij ((hat j).mp h)]

/-- After some entries, the methods of their keys have their names. -/
theorem getElem?_foldl_mapEntry {names : List String} (groups : List (String × List Nat))
    (hnodup : (groups.map Prod.fst).Nodup)
    (hgroups : ∀ group ∈ groups, group.2 = positions names group.1 ∧ group.1 ∈ names)
    (methods : List MethodDescriptor) (j : Nat) :
    (groups.foldl mapEntry methods)[j]? =
      if ∃ name ∈ groups.map Prod.fst, names[j]? = some name then
        methods[j]?.map fun m => m.withRpcName (numberedName names j)
      else methods[j]? := by
  induction groups generalizing methods with
  | nil => simp
  | cons entry rest ih =>
    rw [List.map_cons, List.nodup_cons] at hnodup
    have hentry := hgroups entry List.mem_cons_self
    rw [List.foldl_cons, ih hnodup.2 fun group h => hgroups group (List.mem_cons_of_mem _ h),
      getElem?_mapEntry hentry.1 hentry.2, List.map_cons]
    by_cases hj : names[j]? = some entry.1
    · have hrest : ¬∃ name ∈ rest.map Prod.fst, names[j]? = some name := by
        rintro ⟨name, hmem, hname⟩
        rw [hj] at hname
        exact hnodup.1 (Option.some.inj hname ▸ hmem)
      rw [if_neg hrest, if_pos hj, if_pos ⟨entry.1, List.mem_cons_self, hj⟩]
    · rw [if_neg hj]
      by_cases hrest : ∃ name ∈ rest.map Prod.fst, names[j]? = some name
      · obtain ⟨name, hmem, hname⟩ := hrest
        rw [if_pos ⟨name, hmem, hname⟩, if_pos ⟨name, List.mem_cons_of_mem _ hmem, hname⟩]
      · rw [if_neg hrest, if_neg]
        rintro ⟨name, hmem, hname⟩
        cases List.mem_cons.mp hmem with
        | inl heq => exact hj (heq ▸ hname)
        | inr hin => exact hrest ⟨name, hin, hname⟩

/-- `generateRpcMapping` gives every method its numbered name. -/
theorem getElem?_generateRpcMapping {map : List (String × List Nat)}
    {methods : List MethodDescriptor} {names : List String}
    (hnames : methods.map MethodDescriptor.name = names) (h : Indexes map names) (j : Nat) :
    (generateRpcMapping map methods)[j]? =
      methods[j]?.map fun m => m.withRpcName (numberedName names j) := by
  have hgroups : ∀ group ∈ map, group.2 = positions names group.1 ∧ group.1 ∈ names :=
    fun group hmem => ⟨h.positions_of_mem group hmem,
      (h.exists_of_mem group.1).mp (List.mem_map_of_mem hmem)⟩
  unfold generateRpcMapping
  rw [getElem?_foldl_mapEntry map h.nodup_keys hgroups]
  split
  · rfl
  · rename_i hnone
    have hmethod : methods[j]? = none := by
      cases hm : methods[j]? with
      | none => rfl
      | some m =>
        have hname : names[j]? = some m.name := by
          rw [← hnames, List.getElem?_map, hm]
          rfl
        exact absurd ⟨m.name, (h.exists_of_mem _).mpr (List.mem_of_getElem? hname), hname⟩ hnone
    rw [hmethod]
    rfl

/-! ## Names that differ -/

theorem overloadName_inj {f g : String} {j k : Nat} (h : overloadName f j = overloadName g k) :
    f = g ∧ j = k := by
  have hlist : f.toList ++ "_grp".toList ++ 'c' :: Nat.toDigits 10 j =
      g.toList ++ "_grp".toList ++ 'c' :: Nat.toDigits 10 k := by
    have htext := congrArg String.toList h
    unfold overloadName at htext
    simpa [String.toList_append] using htext
  obtain ⟨hname, _, hdigits⟩ := append_cons_inj (p := isDigitOf 10)
    (fun x hx => isDigitOf_toDigits hx) (fun x hx => isDigitOf_toDigits hx)
    (by decide) (by decide) hlist
  constructor
  · exact String.toList_inj.mp (List.append_cancel_right hname)
  · rw [← ofDigits_toDigits j, hdigits, ofDigits_toDigits]

theorem overloadName_ne (f : String) (k : Nat) : overloadName f k ≠ f := by
  intro h
  have hlength := congrArg String.length h
  unfold overloadName at hlength
  rw [String.length_append, String.length_append] at hlength
  have hfive : "_grpc".length = 5 := rfl
  omega

theorem numberedName_of_some {names : List String} {i : Nat} {name : String}
    (h : names[i]? = some name) :
    numberedName names i =
      if 1 < names.count name then overloadName name ((positions names name).idxOf i)
      else name := by
  unfold numberedName
  rw [List.getD_eq_getElem?_getD, h, idxOf_positions h]
  rfl

/-- The names of all methods. -/
def numberedNames (names : List String) : List String :=
  (List.range names.length).map (numberedName names)

/-- No method that stands alone has the name of a numbered overload. -/
def NoNumberTaken (names : List String) : Prop :=
  ∀ f k, 1 < names.count f → k < names.count f → names.count (overloadName f k) ≠ 1

theorem exists_position {names : List String} {f : String} {k : Nat} (h : k < names.count f) :
    ∃ i, names[i]? = some f ∧ (positions names f).idxOf i = k := by
  rw [← length_positions] at h
  refine ⟨(positions names f)[k], mem_positions.mp (List.getElem_mem h), ?_⟩
  exact (nodup_positions names f).idxOf_getElem k h

/-- Two positions of a name are told apart by their numbers. -/
theorem eq_of_idxOf_positions {names : List String} {f : String} {i j : Nat}
    (hi : names[i]? = some f)
    (h : (positions names f).idxOf i = (positions names f).idxOf j) : i = j :=
  (List.idxOf_inj (mem_positions.mpr hi)).mp h

theorem nodup_numberedNames_iff (names : List String) :
    (numberedNames names).Nodup ↔ NoNumberTaken names := by
  unfold numberedNames
  rw [List.nodup_map_iff_inj_on List.nodup_range]
  constructor
  · intro hinj f k hmany hk hone
    obtain ⟨i, hi, hidx⟩ := exists_position hk
    have htaken : 0 < names.count (overloadName f k) := by omega
    obtain ⟨j, hj, _⟩ := exists_position htaken
    have hij : i = j := by
      refine hinj i (List.mem_range.mpr (List.getElem?_eq_some_iff.mp hi).1) j
        (List.mem_range.mpr (List.getElem?_eq_some_iff.mp hj).1) ?_
      rw [numberedName_of_some hi, numberedName_of_some hj, if_pos hmany, if_neg (by omega), hidx]
    rw [hij, hj] at hi
    exact overloadName_ne f k (Option.some.inj hi)
  · intro hfree i hi j hj heq
    rw [List.mem_range] at hi hj
    have hi1 : names[i]? = some names[i] := List.getElem?_eq_getElem hi
    have hj1 : names[j]? = some names[j] := List.getElem?_eq_getElem hj
    have hlt : ∀ {n : Nat} {f : String}, names[n]? = some f →
        (positions names f).idxOf n < names.count f := fun hn => by
      rw [← length_positions]
      exact List.idxOf_lt_length_iff.mpr (mem_positions.mpr hn)
    have hpos : ∀ {n : Nat} {f : String}, names[n]? = some f → 0 < names.count f := fun hn =>
      List.count_pos_iff.mpr (List.mem_of_getElem? hn)
    rw [numberedName_of_some hi1, numberedName_of_some hj1] at heq
    by_cases hci : 1 < names.count names[i]
    · rw [if_pos hci] at heq
      by_cases hcj : 1 < names.count names[j]
      · rw [if_pos hcj] at heq
        obtain ⟨hname, hnumber⟩ := overloadName_inj heq
        rw [hname] at hi1 hnumber
        exact eq_of_idxOf_positions hi1 hnumber
      · rw [if_neg hcj] at heq
        have hone := hfree _ _ hci (hlt hi1)
        have hsome := hpos hj1
        rw [heq] at hone
        omega
    · rw [if_neg hci] at heq
      by_cases hcj : 1 < names.count names[j]
      · rw [if_pos hcj] at heq
        have hone := hfree _ _ hcj (hlt hj1)
        have hsome := hpos hi1
        rw [← heq] at hone
        omega
      · rw [if_neg hcj] at heq
        rw [heq] at hi1 hci
        have hi2 := hlt hi1
        have hj2 := hlt hj1
        exact eq_of_idxOf_positions hi1 (by omega)

/-! ## The service of an interface -/

/-- `[[xpcf::ignore]]`. -/
def CppMemberFunction.isIgnored (m : CppMemberFunction) : Bool :=
  m.attributes.any ClassDescriptor.isIgnore

/-- The argument of `[[grpc::rpcName(n)]]`. -/
def givenRpcName (attrib : CppAttribute) : Option String :=
  if attrib.scope = some "grpc" ∧ attrib.name = "rpcName" then attrib.arguments.map eraseQuotes
  else none

def CppMemberFunction.givenRpcNames (m : CppMemberFunction) : List String :=
  m.attributes.filterMap givenRpcName

/-- The methods that the service is for. -/
def CppClass.remoteMethods (c : CppClass) : List CppMemberFunction :=
  c.allPureMethods.filter fun m => !m.isIgnored

/-- The given names differ from one another and from the names of the methods. -/
def GivenNamesApart (methods : List CppMemberFunction) : Prop :=
  (methods.flatMap CppMemberFunction.givenRpcNames).Nodup ∧
    ∀ name ∈ methods.flatMap CppMemberFunction.givenRpcNames,
      name ∉ methods.map CppMemberFunction.name

/-- The rpcs of the service, each with the method it is for. -/
def rpcTable (d : ClassDescriptor) : List (CppMemberFunction × ProtoRpc) :=
  (prepareMessages d).methods.map fun m => (m.baseMethod, m.rpc)

theorem generateService_eq (d : ClassDescriptor) :
    generateService (prepareMessages d) = (rpcTable d).map Prod.snd := by
  rw [rpcTable, List.map_map]
  rfl

/-- What the service of an interface promises: each distinct base is counted
once, each method has one rpc, a given name is used, and the names differ. -/
structure ServiceAsDeclared (c : CppClass) (d : ClassDescriptor) : Prop where
  bases_once : d.classParsed.Perm (c.distinctBases.map CppClass.name)
  one_rpc_each : ((rpcTable d).map Prod.fst).Perm c.remoteMethods
  given_names : ∀ entry ∈ rpcTable d, ∀ name ∈ entry.1.givenRpcNames, entry.2.name = name
  names_differ : GivenNamesApart c.remoteMethods →
    ((generateService (prepareMessages d)).map ProtoRpc.name).Nodup

/-- An interface for which the generator keeps the promise. -/
structure PlainInterface (c : CppClass) : Prop where
  names_apart : NamesApart c.distinctBases
  not_ignored : ∀ m ∈ c.allPureMethods, m.isIgnored = false
  /-- A name is only given where it changes nothing. -/
  given_names : ∀ i m, c.remoteMethods[i]? = some m → ∀ name ∈ m.givenRpcNames,
    name = numberedName (c.remoteMethods.map CppMemberFunction.name) i
  no_number_taken : GivenNamesApart c.remoteMethods →
    NoNumberTaken (c.remoteMethods.map CppMemberFunction.name)

section Service

variable {env : Env} {c : CppClass} {nameSpace : String} {d : ClassDescriptor}

/-- With bases that are told apart: one rpc for each method, numbered. -/
theorem rpcTable_eq (hparse : ClassDescriptor.parse env (.new c nameSpace) = .ok d)
    (hinterface : d.isInterface = true) (hapart : NamesApart c.distinctBases) (i : Nat) :
    (rpcTable d)[i]?.map (fun entry => (entry.1, entry.2.name)) =
      c.allPureMethods[i]?.map fun m =>
        (m, numberedName (c.allPureMethods.map CppMemberFunction.name) i) := by
  obtain ⟨_, hmethods⟩ := ClassDescriptor.parse_isInterface hparse hinterface
  obtain ⟨hvirtual, hindexes, _⟩ := parseMethods_eq hapart d.compressionDisabled
  have hbase : ∀ m, ((MethodDescriptor.new m d.compressionDisabled).parse).baseMethod = m :=
    fun m => (MethodDescriptor.parse_new m d.compressionDisabled).1
  have hnames : (parseMethods d.compressionDisabled c ParsedMethods.empty).virtualMethods.map
      MethodDescriptor.name = c.allPureMethods.map CppMemberFunction.name := by
    rw [hvirtual, List.map_map]
    exact List.map_congr_left fun m _ => congrArg CppMemberFunction.name (hbase m)
  have hat := getElem?_generateRpcMapping hnames (hnames ▸ hindexes) i
  rw [rpcTable, prepareMessages, List.map_map, List.getElem?_map, hmethods, hat, hvirtual,
    List.getElem?_map]
  cases c.allPureMethods[i]? with
  | none => rfl
  | some m =>
    simp [MethodDescriptor.withRpcName, MethodDescriptor.prepareMessages, MethodDescriptor.rpc,
      hbase]

theorem rpcTable_methods (hparse : ClassDescriptor.parse env (.new c nameSpace) = .ok d)
    (hinterface : d.isInterface = true) (hapart : NamesApart c.distinctBases) :
    (rpcTable d).map Prod.fst = c.allPureMethods := by
  refine List.ext_getElem? fun i => ?_
  have hat := congrArg (Option.map Prod.fst) (rpcTable_eq hparse hinterface hapart i)
  simpa [List.getElem?_map, Option.map_map, Function.comp_def] using hat

theorem rpcTable_names (hparse : ClassDescriptor.parse env (.new c nameSpace) = .ok d)
    (hinterface : d.isInterface = true) (hapart : NamesApart c.distinctBases) :
    (generateService (prepareMessages d)).map ProtoRpc.name =
      numberedNames (c.allPureMethods.map CppMemberFunction.name) := by
  refine List.ext_getElem? fun i => ?_
  have hat := congrArg (Option.map Prod.snd) (rpcTable_eq hparse hinterface hapart i)
  rw [generateService_eq, List.map_map, numberedNames, List.getElem?_map, List.getElem?_map]
  rw [Option.map_map, Option.map_map] at hat
  by_cases hi : i < c.allPureMethods.length
  · rw [List.getElem?_range (by rw [List.length_map]; exact hi)]
    rw [List.getElem?_eq_getElem hi] at hat
    exact hat
  · rw [List.getElem?_eq_none (l := c.allPureMethods) (by omega)] at hat
    rw [List.getElem?_eq_none (l := List.range _)
      (by rw [List.length_range, List.length_map]; omega)]
    exact hat

/-- A plain interface has its service as declared, and no other has. -/
theorem service_as_declared_iff
    (hparse : ClassDescriptor.parse env (.new c nameSpace) = .ok d)
    (hinterface : d.isInterface = true) : ServiceAsDeclared c d ↔ PlainInterface c := by
  have hall : (∀ m ∈ c.allPureMethods, m.isIgnored = false) →
      c.remoteMethods = c.allPureMethods := fun h =>
    List.filter_eq_self.mpr fun m hm => by rw [h m hm]; rfl
  constructor
  · intro h
    have hnodup := nodup_parseMethods d.compressionDisabled c ParsedMethods.empty List.nodup_nil
    rw [← (ClassDescriptor.parse_isInterface hparse hinterface).1] at hnodup
    have hapart : NamesApart c.distinctBases := fun b hb b1 hb1 hname =>
      List.inj_on_of_nodup_map (h.bases_once.nodup_iff.mp hnodup) hb hb1 hname
    have hmethods := rpcTable_methods hparse hinterface hapart
    have hplain : ∀ m ∈ c.allPureMethods, m.isIgnored = false := by
      have hperm := h.one_rpc_each
      rw [hmethods] at hperm
      intro m hm
      have hkept := List.length_filter_eq_length_iff.mp hperm.length_eq.symm m hm
      simpa using hkept
    have hremote := hall hplain
    refine ⟨hapart, hplain, fun i m hi name hname => ?_, fun hgiven => ?_⟩
    · rw [hremote] at hi ⊢
      have hat := rpcTable_eq hparse hinterface hapart i
      rw [hi] at hat
      cases hentry : (rpcTable d)[i]? with
      | none =>
        rw [hentry] at hat
        cases hat
      | some entry =>
        rw [hentry] at hat
        obtain ⟨hm, hrpc⟩ := Prod.mk.inj (Option.some.inj hat)
        rw [← hrpc]
        exact (h.given_names entry (List.mem_of_getElem? hentry) name (hm ▸ hname)).symm
    · have hnames := h.names_differ hgiven
      rw [rpcTable_names hparse hinterface hapart] at hnames
      rw [hremote]
      exact (nodup_numberedNames_iff _).mp hnames
  · intro h
    have hremote := hall h.not_ignored
    have hmethods := rpcTable_methods hparse hinterface h.names_apart
    refine ⟨?_, ?_, fun entry hentry name hname => ?_, fun hgiven => ?_⟩
    · rw [(ClassDescriptor.parse_isInterface hparse hinterface).1]
      exact (parseMethods_eq h.names_apart d.compressionDisabled).2.2
    · rw [hmethods, hremote]
    · obtain ⟨i, hi⟩ := List.mem_iff_getElem?.mp hentry
      have hat := rpcTable_eq hparse hinterface h.names_apart i
      rw [hi] at hat
      cases hm : c.allPureMethods[i]? with
      | none =>
        rw [hm] at hat
        cases hat
      | some m =>
        rw [hm] at hat
        obtain ⟨hfst, hsnd⟩ := Prod.mk.inj (Option.some.inj hat)
        rw [hsnd, h.given_names i m (hremote ▸ hm) name (hfst ▸ hname), hremote]
    · rw [rpcTable_names hparse hinterface h.names_apart, nodup_numberedNames_iff, ← hremote]
      exact h.no_number_taken hgiven

end Service

/-- `void`. -/
def voidType : CppType where
  kind := .builtin
  builtinType := .void
  isConst := true
  isReference := false
  isVoid := true
  fullTypeDescription := "void"
  levels := []
  of_isVoid := fun _ => ⟨rfl, rfl, rfl⟩

/-- `virtual void name() = 0;`. -/
def voidMethod (name : String) (attributes : List CppAttribute) : CppMemberFunction where
  name := name
  attributes := attributes
  isTemplated := false
  isVirtual := true
  isPure := true
  isConst := false
  returnType := voidType
  parameters := []
  not_isVirtual := fun h => absurd h Bool.false_ne_true

/-- An interface over the introspection interface and one known base. -/
def smallInterface (baseMethods methods : List CppMemberFunction) : CppClass :=
  .mk ⟨"ns", "IPing", [], false, methods⟩
    (.unknown "org::bcom::xpcf::IComponentIntrospect"
      (.known "IBase" (.mk ⟨"ns", "IBase", [], false, baseMethods⟩ .nil) .nil))

/-- The descriptor of such an interface. -/
def smallDescriptor (baseMethods methods : List CppMemberFunction) : ClassDescriptor :=
  (ClassDescriptor.new (smallInterface baseMethods methods) "ns").parseInterface

/-- A method of the base is overloaded. -/
theorem service_as_declared_overload :
    ServiceAsDeclared (smallInterface [voidMethod "f" []] [voidMethod "f" []])
      (smallDescriptor [voidMethod "f" []] [voidMethod "f" []]) := by
  have hparse : ClassDescriptor.parse (Env.simple [])
      (.new (smallInterface [voidMethod "f" []] [voidMethod "f" []]) "ns") =
        .ok (smallDescriptor [voidMethod "f" []] [voidMethod "f" []]) := rfl
  refine (service_as_declared_iff hparse rfl).mpr
    ⟨by decide, by decide, fun i m hm name hname => ?_, fun _ f k hmany hk => ?_⟩
  · have hmem := List.mem_of_getElem? hm
    have hm1 : m = voidMethod "f" [] := by
      have hlist : (smallInterface [voidMethod "f" []] [voidMethod "f" []]).remoteMethods =
          [voidMethod "f" [], voidMethod "f" []] := by decide
      rw [hlist] at hmem
      simpa using hmem
    subst hm1
    exact absurd hname List.not_mem_nil
  · have hlist : (smallInterface [voidMethod "f" []] [voidMethod "f" []]).remoteMethods.map
        CppMemberFunction.name = ["f", "f"] := by decide
    rw [hlist] at hmany hk ⊢
    have hf : f = "f" := by
      have hmem := List.count_pos_iff.mp (Nat.lt_of_succ_lt hmany)
      simpa using hmem
    subst hf
    have hk2 : k < 2 := hk
    match k, hk2 with
    | 0, _ => decide
    | 1, _ => decide

/-- `[[grpc::rpcName("pong")]] virtual void ping() = 0;`. -/
def pongMethod : CppMemberFunction :=
  voidMethod "ping" [⟨some "grpc", "rpcName", some "\"pong\""⟩]

/-- The name given to a method is overwritten. -/
theorem given_name_lost :
    ClassDescriptor.parse (Env.simple []) (.new (smallInterface [] [pongMethod]) "ns") =
        .ok (smallDescriptor [] [pongMethod]) ∧
      (smallDescriptor [] [pongMethod]).isInterface = true ∧
      pongMethod.givenRpcNames = ["pong"] ∧
      (generateService (prepareMessages (smallDescriptor [] [pongMethod]))).map ProtoRpc.name =
        ["ping"] ∧
      ¬ ServiceAsDeclared (smallInterface [] [pongMethod]) (smallDescriptor [] [pongMethod]) :=
  ⟨rfl, rfl, by decide, by decide,
    fun h => absurd (h.given_names _ List.mem_cons_self "pong" (by decide)) (by decide)⟩

end Xpcf.GrpcGen
