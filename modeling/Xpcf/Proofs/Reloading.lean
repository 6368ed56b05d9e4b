import Xpcf.Proofs.RegistryCoherence

/-!
# Loading module metadata twice

The module manager keeps the metadata object of a module it introspected, and
the registry walks that object at every load.  `addInterface` appends to it, so
a second load lists every interface again.  Nothing else is written twice.

* `ListsObjects`: the components of a module object exist, in every process;
* `relisted`: what the objects created by a second load list;
* `reload_same_iff`: the second load changes nothing exactly when that is nothing.
-/

namespace Xpcf

open CodeLib CodeLib.Exec

/-! ## Listed components exist -/

/-- A pointer in the component list of a module leads to an object. -/
def Process.ListsObjects (p : Process) : Prop :=
  ∀ r, ∀ c ∈ (p.module r).components, c < p.components.length

/-- The listed components of one process are those of another, or exist in it. -/
def Process.Lists (p p1 : Process) : Prop :=
  p.components.length ≤ p1.components.length ∧
    ∀ r, ∀ c ∈ (p1.module r).components, c ∈ (p.module r).components ∨ c < p1.components.length

theorem Process.Lists.refl (p : Process) : p.Lists p := ⟨Nat.le_refl _, fun _ _ hc => .inl hc⟩

theorem Process.Lists.trans {p p1 p2 : Process} (h : p.Lists p1) (h1 : p1.Lists p2) :
    p.Lists p2 := by
  refine ⟨Nat.le_trans h.1 h1.1, fun r c hc => ?_⟩
  rcases h1.2 r c hc with hmid | hlt
  · rcases h.2 r c hmid with hold | hlt
    · exact .inl hold
    · exact .inr (Nat.lt_of_lt_of_le hlt h1.1)
  · exact .inr hlt

theorem Process.Lists.listsObjects {p p1 : Process} (h : p.Lists p1) (hp : p.ListsObjects) :
    p1.ListsObjects := by
  intro r c hc
  rcases h.2 r c hc with hold | hlt
  · exact Nat.lt_of_lt_of_le (hp r c hold) h.1
  · exact hlt

/-- The component lists and the number of component objects do not change. -/
theorem Process.Lists.of_same {p p1 : Process} (hmodules : p1.modules = p.modules)
    (hlength : p1.components.length = p.components.length) : p.Lists p1 := by
  refine ⟨Nat.le_of_eq hlength.symm, fun r c hc => .inl ?_⟩
  unfold module at hc ⊢
  rw [← hmodules]
  exact hc

theorem Process.Lists.addComponent {p : Process} (r : ModuleRef) {c : ComponentRef}
    (hc : c < p.components.length) : p.Lists (p.addComponent r c) := by
  obtain ⟨hcomponents, -, -⟩ := Process.addComponent_components p r c
  refine ⟨by rw [hcomponents], fun r1 c1 h1 => ?_⟩
  rw [hcomponents]
  by_cases heq : r1 = r
  · subst heq
    by_cases hr : r1 < p.modules.length
    · rw [Process.module_addComponent_self hr] at h1
      split at h1
      · exact .inl h1
      · rcases List.mem_append.mp h1 with hold | hnew
        · exact .inl hold
        · exact .inr (List.mem_singleton.mp hnew ▸ hc)
    · have hlen := (Process.addComponent_components p r1 c).2.2
      have hnil : ((p.addComponent r1 c).module r1).components = [] :=
        (Process.module_of_ge (hlen ▸ Nat.le_of_not_lt hr)).2
      rw [hnil] at h1
      cases h1
  · rw [Process.module_addComponent_ne heq] at h1
    exact .inl h1

def objectsFrame : Frame World where
  pre _ := True
  rel w w1 := w.process.Lists w1.process
  refl _ := .refl _
  trans h h1 := h.trans h1
  stable h _ := h

theorem objectsFrame_admits : AdmitsDeclarations objectsFrame where
  factory _ := Keeps.modify fun _ _ => .refl _
  process hm := hm.weaken fun _ _ _ =>
    ⟨trivial, fun h => .of_same h.2.modules (congrArg List.length h.2.components)⟩
  newModule env name uuid description path := by
    intro w _
    refine ⟨Nat.le_refl _, fun r c hc => .inl ?_⟩
    have hsame := Process.module_addModule (p := w.process)
      (m := makeModuleMetadata env name uuid description path) ⟨rfl, rfl⟩ r
    exact hsame.2 ▸ hc
  newComponent m r before after hbefore hprocess hafter := by
    intro w _
    have hnew : w.process.Lists (w.process.newComponentObject m) := by
      refine ⟨?_, fun _ _ hc => .inl hc⟩
      simp [Process.newComponentObject]
    let c := w.process.components.length
    have hlt : c < (w.process.newComponentObject m).components.length := by
      simp [Process.newComponentObject, c]
    show w.process.Lists ((do
      before
      modifyProcess fun p => p.addComponent r c
      after c : XpcfM Unit) ⟨w.factory, w.process.newComponentObject m⟩).2.process
    have hbefore1 := hbefore ⟨w.factory, w.process.newComponentObject m⟩ trivial
    have hsame := hprocess ⟨w.factory, w.process.newComponentObject m⟩ trivial
    rw [bind_run]
    rcases hr : before ⟨w.factory, w.process.newComponentObject m⟩ with
      ⟨_ | e | _ | _, w2⟩
    · -- the work in between keeps the process, so the new component exists when it is added
      rw [hr] at hsame
      have hprocess2 : w2.process = w.process.newComponentObject m := hsame
      have hadd : w2.process.Lists (w2.process.addComponent r c) :=
        Process.Lists.addComponent r (hprocess2 ▸ hlt)
      rw [hprocess2] at hadd
      refine hnew.trans (hadd.trans ?_)
      rw [← hprocess2]
      exact hafter c ⟨w2.factory, w2.process.addComponent r c⟩ trivial
    · rw [hr] at hbefore1
      exact hnew.trans hbefore1
    · rw [hr] at hbefore1
      exact hnew.trans hbefore1
    · rw [hr] at hbefore1
      exact hnew.trans hbefore1
  addInterface c uuid := Keeps.modify fun w _ => .of_same rfl (List.length_modify ..)
  moduleMap _ _ := Keeps.modify fun _ _ => .of_same rfl rfl

/-- Every operation of a factory keeps the listed components in place. -/
theorem perform_lists (env : Env) (fuel : Nat) (op : Operation) (w : World) :
    w.process.Lists (perform env fuel op w).2.process := by
  rcases op.cases with hd | hr | rfl
  · exact objectsFrame_admits.perform env fuel hd w trivial
  · have hkept := ((governs_cacheFrame env w.factory).keeps_perform fuel hr w rfl).1
    exact .of_same hkept.2.modules (congrArg List.length hkept.2.components)
  · exact .refl _

theorem performAll_lists (env : Env) (fuel : Nat) (ops : List Operation) (w : World) :
    w.process.Lists (performAll env fuel ops w).2.process :=
  performAll_rel (R := fun w w1 => w.process.Lists w1.process) (fun _ => .refl _)
    (fun h h1 => h.trans h1) (fun op _ w => perform_lists env fuel op w) w

/-! ## The second load -/

/-- The interfaces of the object that the entry point `file` makes, if it makes
one. -/
def interfacesOfCreated (env : Env) (m : ModuleMetadata) (file : String) (componentUUID : Uuid)
    (tick : Nat) : Option (List InterfaceMetadata) :=
  match env.validateModule m.uuid m.moduleFullPath tick with
  | .error _ => none
  | .ok () =>
    match callEntryPoint env file componentUUID tick with
    | .error _ => none
    | .ok ref => some (getInterfaces env ref)

/-- What the objects created for the components list, in their order and up to
the first component that cannot be created. -/
def relisted (env : Env) (p : Process) (m : ModuleMetadata) (file : String) :
    Nat → List ComponentRef → List (ComponentRef × List InterfaceMetadata)
  | _, [] => []
  | tick, c :: rest =>
    match interfacesOfCreated env m file (p.component c).uuid tick with
    | none => []
    | some interfaces => (c, interfaces) :: relisted env p m file (tick + 1) rest

/-- The UUIDs listed for one component. -/
def relistedFor (c : ComponentRef) (entries : List (ComponentRef × List InterfaceMetadata)) :
    List Uuid :=
  (entries.filter fun entry => entry.1 = c).flatMap fun entry => entry.2.map (·.uuid)

/-- The metadata object of the module manager for a library. -/
def managedModule (env : Env) (p : Process) (library : Except Exc ModuleLibrary) :
    Option ModuleRef :=
  match library with
  | .error _ => none
  | .ok lib => (env.toUUID lib.moduleUUID).bind p.moduleMap

/-- What a load lists for the components of a module that is loaded already. -/
def reintrospected (env : Env) (p : Process) (r : ModuleRef) :
    List (ComponentRef × List InterfaceMetadata) :=
  relisted env p (p.module r) ((p.funcMap (p.module r).uuid).getD "") p.tick (p.module r).components

/-- The metadata, the registry and the bindings are the same. -/
structure World.SameDeclarations (w w1 : World) : Prop where
  modules : w1.process.modules = w.process.modules
  components : w1.process.components = w.process.components
  registry : w1.factory.registry = w.factory.registry
  context : w1.factory.context = w.factory.context

/-! ### Loaded modules -/

/-- The module is registered, its components have a module UUID, and its entry
point was imported if it has components. -/
structure World.Introspected (w : World) (r : ModuleRef) : Prop where
  registered : w.factory.registry.modulesMap.contains (w.process.module r).uuid = true
  components : ∀ c ∈ (w.process.module r).components,
    w.factory.registry.componentModuleUUIDMap.contains (w.process.component c).uuid = true ∧
      w.process.funcMap.contains (w.process.module r).uuid = true

/-- The metadata objects stay, up to the interfaces listed, and what is registered
or imported stays so. -/
structure World.Grows (w w1 : World) : Prop where
  modules : w1.process.modules = w.process.modules
  moduleMap : w1.process.moduleMap = w.process.moduleMap
  uuids : ∀ c, (w1.process.component c).uuid = (w.process.component c).uuid
  registered : ∀ u, w.factory.registry.modulesMap.contains u = true →
    w1.factory.registry.modulesMap.contains u = true
  moduleUUIDs : ∀ C, w.factory.registry.componentModuleUUIDMap.contains C = true →
    w1.factory.registry.componentModuleUUIDMap.contains C = true
  entryPoints : ∀ u, w.process.funcMap.contains u = true → w1.process.funcMap.contains u = true

def growsFrame : Frame World where
  pre _ := True
  rel := World.Grows
  refl _ := ⟨rfl, rfl, fun _ => rfl, fun _ h => h, fun _ h => h, fun _ h => h⟩
  trans h h1 := ⟨h1.modules.trans h.modules, h1.moduleMap.trans h.moduleMap,
    fun c => (h1.uuids c).trans (h.uuids c), fun u hu => h1.registered u (h.registered u hu),
    fun C hC => h1.moduleUUIDs C (h.moduleUUIDs C hC),
    fun u hu => h1.entryPoints u (h.entryPoints u hu)⟩
  stable h _ := h

theorem grows_of_metadata {α : Type} {m : XpcfM α} (hm : Keeps metadataFrame m)
    (hfunc : Keeps (Frame.ofView fun w : World => w.process.funcMap) m) : Keeps growsFrame m := by
  intro w _
  have hsame := hm w trivial
  have hmap : (m w).2.process.funcMap = w.process.funcMap := hfunc w trivial
  refine ⟨hsame.modules, hsame.moduleMap, hsame.uuids, fun u hu => ?_, fun C hC => ?_,
    fun u hu => ?_⟩
  · rw [hsame.modulesMap]
    exact hu
  · rw [hsame.moduleUUIDs]
    exact hC
  · rw [hmap]
    exact hu

theorem grows_declareAutoAlias (type : AliasType) (name : String) (uuid : Uuid) :
    Keeps growsFrame (declareAutoAlias type name uuid) :=
  grows_of_metadata (metadata_declareAutoAlias type name uuid)
    (keeps_declareAutoAlias (fun _ => Keeps.modify fun _ _ => rfl) type name uuid)

theorem grows_declareComponentInterface (c : ComponentRef) (componentUUID : Uuid)
    (info : InterfaceMetadata) :
    Keeps growsFrame (declareComponentInterface c componentUUID info) := by
  refine grows_of_metadata (metadata_declareComponentInterface c componentUUID info) ?_
  refine Keeps.bind (Keeps.modify fun _ _ => rfl) fun _ => ?_
  have halias := keeps_declareAutoAlias (F := Frame.ofView fun w : World => w.process.funcMap)
    (fun _ => Keeps.modify fun _ _ => rfl) .interface info.name info.uuid
  refine Keeps.bind halias fun _ => ?_
  exact Keeps.bind (Keeps.modify fun _ _ => rfl) fun _ => Keeps.modify fun _ _ => rfl

theorem grows_createModuleComponent (env : Env) (r : ModuleRef) (componentUUID : Uuid) :
    Keeps growsFrame (createModuleComponent env r componentUUID) := by
  have hrecord : ∀ result, Keeps growsFrame (recordCreated componentUUID result) := by
    intro result
    refine Keeps.bind (Keeps.modify fun w _ => ?_) fun _ => Keeps.ofExcept _
    exact ⟨rfl, rfl, fun _ => rfl, fun _ h => h, fun _ h => h, fun _ h => h⟩
  refine Keeps.bind (Keeps.gets _) fun p => ?_
  split
  · exact hrecord _
  · refine Keeps.bind (Keeps.modify fun w _ => ?_) fun _ => hrecord _
    refine ⟨rfl, rfl, fun _ => rfl, fun _ h => h, fun _ h => h, fun u hu => ?_⟩
    exact Table.contains_insert_of_contains _ hu

theorem createModuleComponent_imports {env : Env} {r : ModuleRef} {componentUUID : Uuid}
    {w w1 : World} {ref : Instance}
    (h : createModuleComponent env r componentUUID w = (.ok ref, w1)) :
    w1.process.funcMap.contains (w.process.module r).uuid = true := by
  unfold createModuleComponent at h
  rw [gets_bind_run] at h
  cases hentry : entryPoint env w.process (w.process.module r) with
  | error e =>
    rw [hentry] at h
    obtain ⟨hcontra, _⟩ := recordCreated_ok h
    cases hcontra
  | ok file =>
    rw [hentry] at h
    obtain ⟨_, w2, himport, hrecord⟩ := bind_ok_iff.mp h
    cases himport
    obtain ⟨_, w3, hlog, hresult⟩ := bind_ok_iff.mp hrecord
    cases hlog
    obtain ⟨_, rfl⟩ := ofExcept_ok_iff.mp hresult
    exact Table.contains_of_some (Table.insert_self _ _ _)

theorem grows_modifyRegistry {g : RegistryContext → RegistryContext}
    (hmodules : ∀ ctx u, ctx.modulesMap.contains u = true → (g ctx).modulesMap.contains u = true)
    (hcomponents : ∀ ctx C, ctx.componentModuleUUIDMap.contains C = true →
      (g ctx).componentModuleUUIDMap.contains C = true) : Keeps growsFrame (modifyRegistry g) :=
  Keeps.modify fun _ _ => ⟨rfl, rfl, fun _ => rfl, fun u hu => hmodules _ u hu,
    fun C hC => hcomponents _ C hC, fun _ h => h⟩

/-- The write of `declareComponentMetadata` for a component without a module. -/
theorem grows_setModuleUUID (componentUUID moduleUUID : Uuid) :
    Keeps growsFrame (modifyRegistry fun ctx =>
      if ctx.componentModuleUUIDMap.contains componentUUID then ctx
      else ctx.setModuleUUID componentUUID moduleUUID) := by
  refine grows_modifyRegistry (fun ctx u hu => ?_) fun ctx C hC => ?_
  · split
    · exact hu
    · exact hu
  · split
    · exact hC
    · exact Table.contains_insert_of_contains _ hC

theorem grows_declareComponentMetadata (env : Env) (r : ModuleRef) (c : ComponentRef) :
    Keeps growsFrame (declareComponentMetadata env r c) := by
  refine Keeps.bind (Keeps.gets _) fun p => Keeps.bind (grows_setModuleUUID _ _) fun _ => ?_
  refine Keeps.bind (grows_declareAutoAlias _ _ _) fun _ => ?_
  refine Keeps.bind (grows_createModuleComponent env r _) fun ref => ?_
  exact Keeps.forEach fun info _ => grows_declareComponentInterface c _ info

/-- A component that was declared has a module UUID, and the entry point of its
module was imported. -/
theorem declareComponentMetadata_known {env : Env} {r : ModuleRef} {c : ComponentRef} {w w1 : World}
    (h : declareComponentMetadata env r c w = (.ok (), w1)) :
    w1.factory.registry.componentModuleUUIDMap.contains (w.process.component c).uuid = true ∧
      w1.process.funcMap.contains (w.process.module r).uuid = true := by
  unfold declareComponentMetadata at h
  rw [gets_bind_run] at h
  obtain ⟨_, w2, hregister, hrest⟩ := bind_ok_iff.mp h
  obtain ⟨_, w3, halias, hrest⟩ := bind_ok_iff.mp hrest
  obtain ⟨ref, w4, hcreate, hloop⟩ := bind_ok_iff.mp hrest
  have hgrows2 := (grows_setModuleUUID _ _).of_run trivial hregister
  have hgrows3 := (grows_declareAutoAlias _ _ _).of_run trivial halias
  have hgrows4 := (grows_createModuleComponent env r _).of_run trivial hcreate
  have hgrows : growsFrame.rel w4 w1 :=
    (Keeps.forEach fun info _ => grows_declareComponentInterface c _ info).of_run trivial hloop
  have hmodule : w3.process.module r = w.process.module r := by
    unfold Process.module
    rw [hgrows3.modules, hgrows2.modules]
  refine ⟨?_, hgrows.entryPoints _ (hmodule ▸ createModuleComponent_imports hcreate)⟩
  refine hgrows.moduleUUIDs _ (hgrows4.moduleUUIDs _ (hgrows3.moduleUUIDs _ ?_))
  cases hregister
  show (RegistryContext.componentModuleUUIDMap (if _ then _ else _)).contains _ = true
  split
  · assumption
  · exact Table.contains_of_some (Table.insert_self _ _ _)

/-- The module manager keeps the object it answers. -/
theorem introspectModule_managed {env : Env} {library : Except Exc ModuleLibrary} {w w1 : World}
    {r : ModuleRef} (h : introspectModule env library w = (.ok r, w1)) :
    managedModule env w1.process library = some r := by
  obtain ⟨lib, w2, hread, hrest⟩ := bind_ok_iff.mp h
  obtain ⟨rfl, rfl⟩ := ofExcept_ok_iff.mp hread
  obtain ⟨moduleUUID, w3, hparse, hrest3⟩ := bind_ok_iff.mp hrest
  obtain ⟨huuid, rfl⟩ := ofExcept_ok_iff.mp hparse
  rw [gets_bind_run] at hrest3
  show (env.toUUID lib.moduleUUID).bind w1.process.moduleMap = some r
  rw [toUUID_ok huuid]
  cases hknown : w3.process.moduleMap moduleUUID with
  | some r0 =>
    rw [hknown] at hrest3
    cases hrest3
    exact hknown
  | none =>
    simp only [hknown] at hrest3
    obtain ⟨r1, w4, hnew, hrest4⟩ := bind_ok_iff.mp hrest3
    obtain ⟨_, w5, hindex, hrest5⟩ := bind_ok_iff.mp hrest4
    obtain ⟨_, w6, hmap, hpure⟩ := bind_ok_iff.mp hrest5
    cases hmap
    cases hpure
    exact Table.insert_self _ _ _

/-- A load that returned leaves the module introspected. -/
theorem loadModuleMetadata_introspected {env : Env} {library : Except Exc ModuleLibrary}
    {w w1 : World} {errCode : XPCFErrorCode}
    (h : loadModuleMetadata env library w = (.ok errCode, w1)) :
    ∃ r, managedModule env w1.process library = some r ∧ w1.Introspected r := by
  obtain ⟨r, w2, hintro, hrest⟩ := bind_ok_iff.mp h
  obtain ⟨_, w3, hdeclare, hpure⟩ := bind_ok_iff.mp hrest
  cases hpure
  unfold declareModuleMetadata at hdeclare
  rw [gets_bind_run] at hdeclare
  obtain ⟨_, w4, hregister, hloop⟩ := bind_ok_iff.mp hdeclare
  have hregistered : w4.factory.registry.modulesMap.contains (w2.process.module r).uuid = true := by
    cases hregister
    show (RegistryContext.addModuleMetadata _ _ _).modulesMap.contains _ = true
    unfold RegistryContext.addModuleMetadata
    split
    · assumption
    · exact Table.contains_of_some (Table.insert_self _ _ _)
  have hprocess : w4.process = w2.process := by
    cases hregister
    rfl
  have hkeeps : ∀ c ∈ (w2.process.module r).components,
      Keeps growsFrame (declareComponentMetadata env r c) :=
    fun c _ => grows_declareComponentMetadata env r c
  have hgrows : growsFrame.rel w4 w1 := (Keeps.forEach hkeeps).of_run trivial hloop
  have hmodule : w1.process.module r = w2.process.module r := by
    unfold Process.module
    rw [hgrows.modules, hprocess]
  refine ⟨r, ?_, ⟨hmodule ▸ hgrows.registered _ hregistered, fun c hc => ?_⟩⟩
  · have hmanaged := introspectModule_managed hintro
    rw [← hprocess] at hmanaged
    unfold managedModule at hmanaged ⊢
    rw [hgrows.moduleMap]
    exact hmanaged
  · rw [hmodule] at hc ⊢
    obtain ⟨wa, wb, hbefore, hdeclared, hafter⟩ := Keeps.forEach_ok hkeeps trivial hloop hc
    obtain ⟨hcomponent, hfile⟩ := declareComponentMetadata_known hdeclared
    have hmodulea : wa.process.module r = w2.process.module r := by
      unfold Process.module
      rw [hbefore.modules, hprocess]
    rw [hgrows.uuids, ← hbefore.uuids c]
    exact ⟨hafter.moduleUUIDs _ hcomponent, hafter.entryPoints _ (hmodulea ▸ hfile)⟩

/-! ### Walking the components again -/

/-- The component objects with more interfaces listed. -/
def Process.withListed (p : Process) (listed : ComponentRef → List Uuid) : Process :=
  { p with components := p.components.mapIdx fun c m =>
      { m with interfaceUUIDs := m.interfaceUUIDs ++ listed c } }

theorem Process.withListed_nil (p : Process) : p.withListed (fun _ => []) = p := by
  have hsame : (p.components.mapIdx fun _ m => ({ m with
      interfaceUUIDs := m.interfaceUUIDs ++ [] } : ComponentMetadata)) = p.components := by
    refine List.ext_getElem? fun i => ?_
    rw [List.getElem?_mapIdx]
    cases p.components[i]? <;> simp
  show { p with components := _ } = p
  rw [hsame]

theorem Process.withListed_withListed (p : Process) (listed listed1 : ComponentRef → List Uuid) :
    (p.withListed listed).withListed listed1 = p.withListed fun c => listed c ++ listed1 c := by
  unfold withListed
  simp [List.mapIdx_mapIdx, Function.comp_def]

theorem Process.addInterface_eq (p : Process) (c : ComponentRef) (uuid : Uuid) :
    p.addInterface c uuid = p.withListed fun c1 => if c1 = c then [uuid] else [] := by
  unfold addInterface withListed
  congr 1
  refine List.ext_getElem? fun i => ?_
  rw [List.getElem?_modify, List.getElem?_mapIdx]
  cases p.components[i]? with
  | none => rfl
  | some m =>
    by_cases h : c = i
    · simp [h]
    · simp [h, Ne.symm h]

/-- The interfaces of one component, listed one after the other. -/
theorem Process.foldl_addInterface (p : Process) (c : ComponentRef)
    (infos : List InterfaceMetadata) :
    infos.foldl (fun p info => p.addInterface c info.uuid) p =
      p.withListed (relistedFor · [(c, infos)]) := by
  induction infos generalizing p with
  | nil =>
    have hnil : (relistedFor · [(c, [])]) = fun _ => [] := by
      funext c1
      by_cases h : c = c1 <;> simp [relistedFor, h]
    rw [hnil, Process.withListed_nil]
    rfl
  | cons info infos ih =>
    rw [List.foldl_cons, ih, Process.addInterface_eq, Process.withListed_withListed]
    congr 1
    funext c1
    by_cases h : c = c1
    · simp [relistedFor, h]
    · simp [relistedFor, h, Ne.symm h]

/-- An automatic alias never fails. -/
theorem declareAutoAlias_run (type : AliasType) (name : String) (uuid : Uuid) (w : World) :
    ∃ aliases, declareAutoAlias type name uuid w =
      (.ok (), { w with factory := { w.factory with aliases := aliases } }) := by
  unfold declareAutoAlias
  rw [gets_bind_run]
  split
  · rename_i hfree
    exact ⟨_, addAliasFunction_ok_iff.mpr ⟨.inr hfree.2, rfl⟩⟩
  · exact ⟨w.factory.aliases, rfl⟩

/-- Declaring an interface of a created object never fails. -/
theorem declareComponentInterface_run (c : ComponentRef) (componentUUID : Uuid)
    (info : InterfaceMetadata) (w : World) :
    ∃ f, declareComponentInterface c componentUUID info w =
        (.ok (), ⟨f, w.process.addInterface c info.uuid⟩) ∧
      f.registry.componentModuleUUIDMap = w.factory.registry.componentModuleUUIDMap := by
  let w1 : World := { w with factory := { w.factory with
    context := w.factory.context.autobind info.uuid componentUUID } }
  have hbind : autobind info.uuid componentUUID w = (.ok (), w1) := rfl
  obtain ⟨aliases, halias⟩ := declareAutoAlias_run .interface info.name info.uuid w1
  unfold declareComponentInterface
  rw [bind_run_of_ok hbind, bind_run_of_ok halias]
  refine ⟨_, rfl, ?_⟩
  show (RegistryContext.addInterfaceMetadata _ _).componentModuleUUIDMap = _
  unfold RegistryContext.addInterfaceMetadata
  split
  · rfl
  · rfl

/-- The loop over the interfaces of a created object. -/
theorem forEach_declareComponentInterface (c : ComponentRef) (componentUUID : Uuid)
    (infos : List InterfaceMetadata) (w : World) :
    ∃ f, forEach (declareComponentInterface c componentUUID) infos w =
        (.ok (), ⟨f, w.process.withListed (relistedFor · [(c, infos)])⟩) ∧
      f.registry.componentModuleUUIDMap = w.factory.registry.componentModuleUUIDMap ∧
      (infos = [] → f = w.factory) := by
  rw [← Process.foldl_addInterface]
  induction infos generalizing w with
  | nil => exact ⟨w.factory, rfl, rfl, fun _ => rfl⟩
  | cons info infos ih =>
    obtain ⟨f, hrun, hmap⟩ := declareComponentInterface_run c componentUUID info w
    obtain ⟨f1, hrest, hmap1, -⟩ := ih ⟨f, w.process.addInterface c info.uuid⟩
    refine ⟨f1, ?_, hmap1.trans hmap, fun h => nomatch h⟩
    show (declareComponentInterface c componentUUID info >>= fun _ => _) w = _
    rw [bind_run_of_ok hrun]
    exact hrest

/-- What walking the components again has done: they list more interfaces, and
if nothing was listed the registry and the bindings are the same. -/
structure World.Relists (w w1 : World) (entries : List (ComponentRef × List InterfaceMetadata)) :
    Prop where
  modules : w1.process.modules = w.process.modules
  components : w1.process.components = (w.process.withListed (relistedFor · entries)).components
  moduleUUIDs : w1.factory.registry.componentModuleUUIDMap =
    w.factory.registry.componentModuleUUIDMap
  quiet : (∀ entry ∈ entries, entry.2 = []) →
    w1.factory.registry = w.factory.registry ∧ w1.factory.context = w.factory.context

/-- The entry point is called for the component, and a new tick begins. -/
theorem createModuleComponent_again {env : Env} {r : ModuleRef} {componentUUID : Uuid} {w : World}
    {file : String} (hfile : w.process.funcMap (w.process.module r).uuid = some file) :
    match interfacesOfCreated env (w.process.module r) file componentUUID w.process.tick with
    | none => ∃ e w1, createModuleComponent env r componentUUID w = (.throws e, w1)
    | some interfaces => ∃ ref w1, createModuleComponent env r componentUUID w = (.ok ref, w1) ∧
        getInterfaces env ref = interfaces ∧ w1.process.tick = w.process.tick + 1 ∧
        w1.process.funcMap (w.process.module r).uuid = some file := by
  unfold createModuleComponent interfacesOfCreated
  rw [gets_bind_run]
  unfold entryPoint
  cases hvalid : env.validateModule (w.process.module r).uuid (w.process.module r).moduleFullPath
      w.process.tick with
  | error e => exact ⟨e, (recordCreated componentUUID (.error e) w).2, rfl⟩
  | ok =>
    simp only [hfile]
    cases hcall : callEntryPoint env file componentUUID w.process.tick with
    | error e =>
      let w1 : World := { w with process := { w.process with
        funcMap := w.process.funcMap.insert (w.process.module r).uuid file } }
      exact ⟨e, (recordCreated componentUUID (.error e) w1).2, rfl⟩
    | ok ref =>
      let w1 : World := { w with process := { w.process with
        funcMap := w.process.funcMap.insert (w.process.module r).uuid file } }
      refine ⟨ref, (recordCreated componentUUID (.ok ref) w1).2, rfl, rfl, ?_, ?_⟩
      · show (w.process.log ++ [Event.created componentUUID (.ok ref)]).length = _
        rw [List.length_append]
        rfl
      · exact Table.insert_self _ _ _

theorem declareComponentMetadata_again {env : Env} {r : ModuleRef} {c : ComponentRef} {w : World}
    {file : String} (hfile : w.process.funcMap (w.process.module r).uuid = some file)
    (hknown : w.factory.registry.componentModuleUUIDMap.contains (w.process.component c).uuid
      = true) :
    match interfacesOfCreated env (w.process.module r) file (w.process.component c).uuid
        w.process.tick with
    | none => ∃ e w1, declareComponentMetadata env r c w = (.throws e, w1) ∧ w.Relists w1 []
    | some interfaces => ∃ w1, declareComponentMetadata env r c w = (.ok (), w1) ∧
        w.Relists w1 [(c, interfaces)] ∧ w1.process.tick = w.process.tick + 1 ∧
        w1.process.funcMap (w.process.module r).uuid = some file := by
  have hregister : modifyRegistry (fun ctx =>
      if ctx.componentModuleUUIDMap.contains (w.process.component c).uuid then ctx
      else ctx.setModuleUUID (w.process.component c).uuid (w.process.module r).uuid) w =
        (.ok (), w) := by
    rw [modifyRegistry_run, if_pos hknown]
    rfl
  obtain ⟨aliases, halias⟩ :=
    declareAutoAlias_run .component (w.process.component c).name (w.process.component c).uuid w
  let w1 : World := { w with factory := { w.factory with aliases := aliases } }
  have hrun : declareComponentMetadata env r c w =
      (createModuleComponent env r (w.process.component c).uuid >>= fun ref =>
        forEach (declareComponentInterface c (w.process.component c).uuid)
          (getInterfaces env ref)) w1 := by
    unfold declareComponentMetadata
    rw [gets_bind_run, bind_run_of_ok hregister, bind_run_of_ok halias]
  have hkeeps := keeps_createModuleComponent env r (w.process.component c).uuid
  have hagain : match interfacesOfCreated env (w1.process.module r) file
      (w.process.component c).uuid w1.process.tick with
    | none => ∃ e w2, createModuleComponent env r (w.process.component c).uuid w1 = (.throws e, w2)
    | some interfaces => ∃ ref w2,
        createModuleComponent env r (w.process.component c).uuid w1 = (.ok ref, w2) ∧
          getInterfaces env ref = interfaces ∧ w2.process.tick = w1.process.tick + 1 ∧
          w2.process.funcMap (w1.process.module r).uuid = some file :=
    createModuleComponent_again hfile
  rw [hrun]
  change match interfacesOfCreated env (w.process.module r) file _ w.process.tick with
    | none => _
    | some interfaces => _ at hagain
  cases hcreated : interfacesOfCreated env (w.process.module r) file (w.process.component c).uuid
      w.process.tick with
  | none =>
    rw [hcreated] at hagain
    obtain ⟨e, w2, hthrows⟩ := hagain
    obtain ⟨hfactory, hprocess⟩ := hkeeps.of_run trivial hthrows
    refine ⟨e, w2, ?_, hprocess.modules, ?_, ?_, fun _ => ?_⟩
    · rw [bind_run, hthrows]
    · rw [hprocess.components]
      exact (congrArg Process.components w.process.withListed_nil).symm
    · rw [hfactory]
    · rw [hfactory]
      exact ⟨rfl, rfl⟩
  | some interfaces =>
    rw [hcreated] at hagain
    obtain ⟨ref, w2, hcreate, hlists, htick, hentry⟩ := hagain
    obtain ⟨hfactory, hprocess⟩ := hkeeps.of_run trivial hcreate
    obtain ⟨f, hloop, hmap, hquiet⟩ := forEach_declareComponentInterface c
      (w.process.component c).uuid interfaces w2
    refine ⟨⟨f, w2.process.withListed (relistedFor · [(c, interfaces)])⟩, ?_,
      ⟨hprocess.modules, ?_, ?_, fun hnone => ?_⟩, htick, hentry⟩
    · rw [bind_run_of_ok hcreate, hlists]
      exact hloop
    · show (w2.process.withListed _).components = _
      unfold Process.withListed
      rw [hprocess.components]
    · rw [hmap, hfactory]
    · rw [hquiet (hnone _ List.mem_cons_self), hfactory]
      exact ⟨rfl, rfl⟩

theorem relistedFor_append (c : ComponentRef)
    (entries entries1 : List (ComponentRef × List InterfaceMetadata)) :
    relistedFor c (entries ++ entries1) = relistedFor c entries ++ relistedFor c entries1 := by
  simp [relistedFor]

/-- Listing more interfaces leaves the UUIDs of the components. -/
theorem Process.component_withListed_uuid {p p1 : Process} {listed : ComponentRef → List Uuid}
    (h : p1.components = (p.withListed listed).components) (c : ComponentRef) :
    (p1.component c).uuid = (p.component c).uuid := by
  unfold component
  rw [h, List.getD_eq_getElem?_getD, List.getD_eq_getElem?_getD]
  show (((p.components.mapIdx _)[c]?).getD _ : ComponentMetadata).uuid = _
  rw [List.getElem?_mapIdx]
  cases p.components[c]? with
  | none => rfl
  | some m => rfl

theorem World.Relists.nil {w w1 : World} (hprocess : w1.process = w.process)
    (hfactory : w1.factory = w.factory) : w.Relists w1 [] where
  modules := by rw [hprocess]
  components := by
    rw [hprocess]
    exact (congrArg Process.components w.process.withListed_nil).symm
  moduleUUIDs := by rw [hfactory]
  quiet _ := by
    rw [hfactory]
    exact ⟨rfl, rfl⟩

theorem World.Relists.append {w w1 w2 : World}
    {entries entries1 : List (ComponentRef × List InterfaceMetadata)}
    (h : w.Relists w1 entries) (h1 : w1.Relists w2 entries1) :
    w.Relists w2 (entries ++ entries1) where
  modules := h1.modules.trans h.modules
  components := by
    have hsplit : (relistedFor · (entries ++ entries1)) =
        fun c => relistedFor c entries ++ relistedFor c entries1 := by
      funext c
      exact relistedFor_append c entries entries1
    rw [h1.components, hsplit, ← Process.withListed_withListed]
    show List.mapIdx _ _ = List.mapIdx _ _
    rw [h.components]
  moduleUUIDs := h1.moduleUUIDs.trans h.moduleUUIDs
  quiet hnone := by
    have hfirst := h.quiet fun entry hentry => hnone entry (List.mem_append_left _ hentry)
    have hsecond := h1.quiet fun entry hentry => hnone entry (List.mem_append_right _ hentry)
    exact ⟨hsecond.1.trans hfirst.1, hsecond.2.trans hfirst.2⟩

/-- The loop of a second load, however it ends. -/
theorem forEach_declareComponentMetadata_again {env : Env} {r : ModuleRef} {file : String}
    {p : Process} {m : ModuleMetadata} (cs : List ComponentRef) {w : World} {tick : Nat}
    (hmodule : w.process.module r = m) (htick : w.process.tick = tick)
    (hfile : w.process.funcMap m.uuid = some file)
    (huuids : ∀ c, (w.process.component c).uuid = (p.component c).uuid)
    (hknown : ∀ c ∈ cs,
      w.factory.registry.componentModuleUUIDMap.contains (p.component c).uuid = true) :
    w.Relists (forEach (declareComponentMetadata env r) cs w).2
      (relisted env p m file tick cs) := by
  induction cs generalizing w tick with
  | nil => exact .nil rfl rfl
  | cons c rest ih =>
    subst hmodule htick
    have hcomponent : w.factory.registry.componentModuleUUIDMap.contains
        (w.process.component c).uuid = true := huuids c ▸ hknown c List.mem_cons_self
    have hagain : match interfacesOfCreated env (w.process.module r) file
        (w.process.component c).uuid w.process.tick with
      | none => _
      | some _ => _ := declareComponentMetadata_again hfile hcomponent
    rw [huuids] at hagain
    show w.Relists ((declareComponentMetadata env r c >>= fun _ => _) w).2 _
    unfold relisted
    cases hcreated : interfacesOfCreated env (w.process.module r) file (p.component c).uuid
        w.process.tick with
    | none =>
      rw [hcreated] at hagain
      obtain ⟨e, w1, hthrows, hrelists⟩ := hagain
      rw [bind_run, hthrows]
      exact hrelists
    | some interfaces =>
      rw [hcreated] at hagain
      obtain ⟨w1, hdeclared, hrelists, htick, hfile1⟩ := hagain
      rw [bind_run_of_ok hdeclared]
      refine hrelists.append (ih ?_ htick hfile1 (fun c1 => ?_) fun c1 hc1 => ?_)
      · unfold Process.module
        rw [hrelists.modules]
      · rw [Process.component_withListed_uuid hrelists.components, huuids]
      · rw [hrelists.moduleUUIDs]
        exact hknown c1 (List.mem_cons_of_mem _ hc1)

/-! ## When a second load changes nothing -/

/-- The module manager answers the object it keeps. -/
theorem introspectModule_again {env : Env} {library : Except Exc ModuleLibrary} {w : World}
    {r : ModuleRef} (h : managedModule env w.process library = some r) :
    introspectModule env library w = (.ok r, w) := by
  cases library with
  | error e => cases h
  | ok lib =>
    obtain ⟨uuid, hparse, hmap⟩ := Option.bind_eq_some_iff.mp h
    unfold introspectModule toUUID
    rw [ofExcept_ok_bind_run, hparse, ofExcept_ok_bind_run, gets_bind_run, hmap]
    rfl

theorem relisted_fst_mem {env : Env} {p : Process} {m : ModuleMetadata} {file : String} {tick : Nat}
    {cs : List ComponentRef} {entry : ComponentRef × List InterfaceMetadata}
    (h : entry ∈ relisted env p m file tick cs) : entry.1 ∈ cs := by
  induction cs generalizing tick with
  | nil => cases h
  | cons c rest ih =>
    unfold relisted at h
    split at h
    · cases h
    · rcases List.mem_cons.mp h with rfl | hrest
      · exact List.mem_cons_self
      · exact List.mem_cons_of_mem _ (ih hrest)

/-- The objects are the same exactly when nothing more is listed for any. -/
theorem Process.withListed_same_iff (p : Process) (listed : ComponentRef → List Uuid) :
    (p.withListed listed).components = p.components ↔
      ∀ c < p.components.length, listed c = [] := by
  constructor
  · intro h c hc
    have hat : (p.withListed listed).components[c]? = p.components[c]? := by rw [h]
    have hlisted : (p.components.mapIdx fun c m =>
        { m with interfaceUUIDs := m.interfaceUUIDs ++ listed c })[c]? = p.components[c]? := hat
    rw [List.getElem?_mapIdx, List.getElem?_eq_getElem hc] at hlisted
    have huuids := congrArg ComponentMetadata.interfaceUUIDs (Option.some.inj hlisted)
    exact List.append_right_eq_self.mp huuids
  · intro h
    refine List.ext_getElem? fun c => ?_
    show (p.components.mapIdx _)[c]? = _
    rw [List.getElem?_mapIdx]
    by_cases hc : c < p.components.length
    · rw [List.getElem?_eq_getElem hc, h c hc]
      simp
    · rw [List.getElem?_eq_none (Nat.le_of_not_lt hc)]
      rfl

/-- Nothing is listed exactly when each object created lists nothing. -/
theorem relistedFor_nil_iff {p : Process} {entries : List (ComponentRef × List InterfaceMetadata)}
    (hobjects : ∀ entry ∈ entries, entry.1 < p.components.length) :
    (∀ c < p.components.length, relistedFor c entries = []) ↔ ∀ entry ∈ entries, entry.2 = [] := by
  constructor
  · intro h entry hentry
    have hnil := h entry.1 (hobjects entry hentry)
    have hinfos := List.flatMap_eq_nil_iff.mp hnil entry
      (List.mem_filter.mpr ⟨hentry, decide_eq_true rfl⟩)
    exact List.map_eq_nil_iff.mp hinfos
  · intro h c _
    refine List.flatMap_eq_nil_iff.mpr fun entry hentry => ?_
    rw [h entry (List.mem_filter.mp hentry).1]
    rfl

/-- What a second load of a loaded module has done. -/
theorem loadModuleMetadata_again {env : Env} {library : Except Exc ModuleLibrary} {w : World}
    {r : ModuleRef} (hmanaged : managedModule env w.process library = some r)
    (h : w.Introspected r) :
    w.Relists (loadModuleMetadata env library w).2 (reintrospected env w.process r) := by
  have hregister : modifyRegistry (fun ctx =>
      ctx.addModuleMetadata (w.process.module r).uuid r) w = (.ok (), w) := by
    rw [modifyRegistry_run]
    unfold RegistryContext.addModuleMetadata
    rw [if_pos h.registered]
    rfl
  have hload : (loadModuleMetadata env library w).2 =
      (forEach (declareComponentMetadata env r) (w.process.module r).components w).2 := by
    have hdeclare : declareModuleMetadata env r w =
        forEach (declareComponentMetadata env r) (w.process.module r).components w := by
      unfold declareModuleMetadata
      rw [gets_bind_run, bind_run_of_ok hregister]
    unfold loadModuleMetadata
    rw [bind_run_of_ok (introspectModule_again hmanaged), bind_run, hdeclare]
    rcases forEach (declareComponentMetadata env r) (w.process.module r).components w with
      ⟨_ | _ | _ | _, w1⟩ <;> rfl
  rw [hload]
  unfold reintrospected
  cases hcomponents : (w.process.module r).components with
  | nil => exact .nil rfl rfl
  | cons c rest =>
    rw [← hcomponents]
    have hfirst := h.components c (hcomponents ▸ List.mem_cons_self)
    obtain ⟨file, hfile⟩ := Table.contains_iff.mp hfirst.2
    rw [hfile]
    exact forEach_declareComponentMetadata_again _ rfl rfl hfile (fun _ => rfl)
      fun c1 hc1 => (h.components c1 hc1).1

/-- Loading the metadata of a module again changes nothing exactly when none of
the objects it creates for that lists an interface. -/
theorem reload_same_iff {env : Env} {fuel : Nat} {p : Process} (hp : p.ListsObjects)
    (ops : List Operation) {library : Except Exc ModuleLibrary} {errCode : XPCFErrorCode}
    {w1 : World} (h : loadModuleMetadata env library
      (performAll env fuel ops (World.constructed p)).2 = (.ok errCode, w1)) :
    w1.SameDeclarations (loadModuleMetadata env library w1).2 ↔
      ∀ r, managedModule env w1.process library = some r →
        ∀ entry ∈ reintrospected env w1.process r, entry.2 = [] := by
  obtain ⟨r, hmanaged, hintrospected⟩ := loadModuleMetadata_introspected h
  have hrelists := loadModuleMetadata_again hmanaged hintrospected
  have hlists : w1.process.ListsObjects := by
    have hrun := performAll_lists env fuel ops (World.constructed p)
    have hload : Process.Lists _ w1.process :=
      (objectsFrame_admits.loadModuleMetadata env library).of_run trivial h
    exact hload.listsObjects (hrun.listsObjects hp)
  have hobjects : ∀ entry ∈ reintrospected env w1.process r,
      entry.1 < w1.process.components.length :=
    fun entry hentry => hlists r entry.1 (relisted_fst_mem hentry)
  have hquiet : w1.SameDeclarations (loadModuleMetadata env library w1).2 ↔
      ∀ entry ∈ reintrospected env w1.process r, entry.2 = [] := by
    rw [← relistedFor_nil_iff hobjects, ← Process.withListed_same_iff, ← hrelists.components]
    constructor
    · exact World.SameDeclarations.components
    · intro hsame
      have hnil := hrelists.components ▸ hsame
      rw [Process.withListed_same_iff, relistedFor_nil_iff hobjects] at hnil
      exact ⟨hrelists.modules, hsame, (hrelists.quiet hnil).1, (hrelists.quiet hnil).2⟩
  rw [hquiet]
  constructor
  · intro hall r1 hr1
    cases hmanaged.symm.trans hr1
    exact hall
  · exact fun hall => hall r hmanaged

/-! ## A module with one component -/

/-- Module 1 with component 2. -/
def oneComponentLibrary : ModuleLibrary where
  moduleUUID := uuidText1
  name := "module"
  description := ""
  folder := "lib"
  index := [(uuidText2, "component", "")]

/-- A component that lists no interface can be loaded again. -/
theorem reload_of_silent :
    let env := { Env.simple [] with interfaces := fun _ => [] }
    let w1 := (loadModuleMetadata env (.ok oneComponentLibrary) World.initial).2
    w1.SameDeclarations (loadModuleMetadata env (.ok oneComponentLibrary) w1).2 := by
  intro env w1
  have hload : loadModuleMetadata env (.ok oneComponentLibrary)
      (performAll env 0 [] World.initial).2 = (.ok .success, w1) := rfl
  have hlists : Process.initial.ListsObjects := fun _ _ hc => absurd hc List.not_mem_nil
  refine (reload_same_iff hlists [] hload).mpr fun r hr entry hentry => ?_
  cases hr
  cases List.mem_singleton.mp hentry
  rfl

/-- A component that lists IComponentIntrospect and IInjectable lists each twice
after the second load. -/
theorem reload_lists_twice :
    let env := Env.simple []
    let w1 := (loadModuleMetadata env (.ok oneComponentLibrary) World.initial).2
    let w2 := (loadModuleMetadata env (.ok oneComponentLibrary) w1).2
    (w1.process.component 0).interfaceUUIDs = [uuidIComponentIntrospect, uuidIInjectable] ∧
      (w2.process.component 0).interfaceUUIDs =
        [uuidIComponentIntrospect, uuidIInjectable, uuidIComponentIntrospect, uuidIInjectable] ∧
      ¬ w1.SameDeclarations w2 := by
  refine ⟨rfl, rfl, fun h => ?_⟩
  have huuids := congrArg (List.map ComponentMetadata.interfaceUUIDs) h.components
  exact absurd huuids (by decide)

end Xpcf
