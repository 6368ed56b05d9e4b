import Xpcf.CodeLib.Steps
import Xpcf.Proofs.BindingOrder
import Xpcf.Proofs.Reading
import Xpcf.Proofs.Reloading

/-!
# Autobinding the framework interfaces

Both declaration paths hand every interface of a component to `autobind`,
`IComponentIntrospect`, `IConfigurable` and `IInjectable` included.
`autobinds_ignore_framework_iff` says for which declarations the autobinding
table stays free of these three.
-/

namespace Xpcf

open CodeLib CodeLib.Exec

/-- `isXpcfFrameworkInterface`, which no code calls. -/
def isXpcfFrameworkInterface (interfaceUUID : Uuid) : Bool :=
  interfaceUUID = uuidIComponentIntrospect ∨ interfaceUUID = uuidIConfigurable ∨
    interfaceUUID = uuidIInjectable

/-! ## What a declaration autobinds -/

/-- The interface has no explicit binding and no core binding. -/
def World.NotBound (interfaceUUID : Uuid) (w : World) : Prop :=
  w.factory.context.defaultBindings interfaceUUID = none ∧
    w.factory.coreBindings interfaceUUID = none

def World.Autobound (interfaceUUID : Uuid) (w : World) : Prop :=
  w.factory.context.autoBindings.contains interfaceUUID = true

/-- The computation autobinds the interface exactly in the worlds in `A`. -/
def Autobinds {α : Type} (I : Uuid) (m : XpcfM α) (A : World → Prop) : Prop :=
  Adds (World.NotBound I) (World.Autobound I) m A

/-- What bindings are looked up in. -/
def World.bindings (w : World) : FactoryContext × Table Uuid FactoryBindInfos :=
  (w.factory.context, w.factory.coreBindings)

variable {I : Uuid}

theorem autobinds_nothing {α : Type} {m : XpcfM α} (hm : Keeps (Frame.ofView World.bindings) m) :
    Autobinds I m fun _ => False :=
  let P := fun b : FactoryContext × Table Uuid FactoryBindInfos =>
    b.1.defaultBindings I = none ∧ b.2 I = none
  let Q := fun b : FactoryContext × Table Uuid FactoryBindInfos =>
    b.1.autoBindings.contains I = true
  Adds.of_keeps (P := P) (Q := Q) hm

theorem bindings_declareAutoAlias (type : AliasType) (name : String) (uuid : Uuid) :
    Keeps (Frame.ofView World.bindings) (declareAutoAlias type name uuid) := by
  intro w _
  obtain ⟨aliases, halias⟩ := declareAutoAlias_run type name uuid w
  rw [halias]
  rfl

theorem autobinds_autobind (interfaceUUID componentUUID : Uuid) :
    Autobinds I (autobind interfaceUUID componentUUID) fun _ => interfaceUUID = I := by
  intro w hw
  have hrun : (autobind interfaceUUID componentUUID w).2.factory.context =
      w.factory.context.autobind interfaceUUID componentUUID := rfl
  unfold World.NotBound World.Autobound
  rw [hrun]
  unfold FactoryContext.autobind
  split
  · rename_i hbound
    refine ⟨hw, ⟨.inl, ?_⟩⟩
    rintro (h | rfl)
    · exact h
    · rw [Table.contains, hw.1] at hbound
      cases hbound
  · refine ⟨hw, ?_⟩
    dsimp only
    rw [Table.contains_insert, see, Bool.or_eq_true, decide_eq_true_iff, eq_comm, or_comm]

/-! ### XML modules -/

/-- The node names the interface. -/
def NamesInterface (env : Env) (I : Uuid) (interfaceElt : XMLElement) : Prop :=
  env.toUUID (interfaceElt.attributeOrEmpty "uuid") = some I

theorem autobinds_rethrowXpcf {α : Type} {msg : String → XmlErrorMessage} {m : XpcfM α}
    {A : World → Prop} (hm : Autobinds I m A) : Autobinds I (rethrowXpcf msg m) A := by
  refine Adds.tryCatch hm fun e => ?_
  split
  · exact autobinds_nothing (Keeps.throw _)
  · exact autobinds_nothing (Keeps.throw _)

theorem autobinds_declareInterfaceNode (env : Env) (c : ComponentRef) (elt : XMLElement) :
    Autobinds I (declareInterfaceNode env c elt) fun _ => NamesInterface env I elt := by
  have hrest : ∀ uuid (w0 : World), Keeps (Frame.ofView World.bindings)
      (if w0.factory.registry.interfacesMap.contains uuid then pure ()
        else declareNewInterface elt uuid) := by
    intro uuid w0
    split
    · exact Keeps.pure ()
    · refine Keeps.bind (Keeps.ofExcept _) fun description => ?_
      exact Keeps.bind (bindings_declareAutoAlias _ _ _) fun _ => Keeps.modify fun _ _ => rfl
  have hbody : ∀ uuid, Autobinds I (do
      modifyProcess fun p => p.addInterface c uuid
      let w ← gets id
      autobind uuid (w.process.component c).uuid
      if w.factory.registry.interfacesMap.contains uuid then pure ()
      else declareNewInterface elt uuid) fun _ => uuid = I := by
    intro uuid w hw
    let w1 : World := { w with process := w.process.addInterface c uuid }
    have hauto := autobinds_autobind uuid (w1.process.component c).uuid w1 hw
    have hsame := autobinds_nothing (hrest uuid w1) _ hauto.1
    rw [or_false] at hsame
    exact ⟨hsame.1, hsame.2.trans hauto.2⟩
  have hread : Autobinds I (uuidOfAttribute env elt "uuid"
      "UUID format invalid in \"uuid\" attribute: ") fun _ => False :=
    autobinds_nothing (keeps_uuidOfAttribute env _ _ _)
  refine autobinds_rethrowXpcf ((Adds.quiet_bind hread hbody).congr fun w _ => ?_)
  simp only [uuidOfAttribute_ok_iff]
  exact ⟨fun ⟨_, _, ⟨hparse, _⟩, h⟩ => h ▸ hparse, fun h => ⟨I, w, ⟨h, rfl⟩, rfl⟩⟩

/-- A declaration that begins with the UUID of its node. -/
theorem autobinds_afterUuid {env : Env} {elt : XMLElement} {what : String}
    {msg : String → XmlErrorMessage} {k : Uuid → XpcfM Unit} {A : Uuid → World → Prop}
    (hk : ∀ uuid, Autobinds I (k uuid) (A uuid)) :
    Autobinds I (rethrowXpcf msg (uuidOfAttribute env elt "uuid" what) >>= k) fun w =>
      ∃ uuid, env.toUUID (elt.attributeOrEmpty "uuid") = some uuid ∧ A uuid w := by
  have hread : Autobinds I
      (rethrowXpcf msg (uuidOfAttribute env elt "uuid" what)) fun _ => False :=
    autobinds_rethrowXpcf (autobinds_nothing (keeps_uuidOfAttribute env _ _ _))
  refine (Adds.quiet_bind hread hk).congr fun w _ => exists_congr fun uuid => ?_
  simp only [rethrowXpcf_ok_iff, uuidOfAttribute_ok_iff]
  exact ⟨fun ⟨_, ⟨hparse, hw⟩, h⟩ => ⟨hparse, hw ▸ h⟩, fun ⟨hparse, h⟩ => ⟨w, ⟨hparse, rfl⟩, h⟩⟩

theorem bindings_openComponent (moduleInfo : ModuleRef) (elt : XMLElement) (componentUuid : Uuid) :
    Keeps (Frame.ofView World.bindings) (openComponent moduleInfo elt componentUuid) := by
  refine Keeps.bind (Keeps.gets _) fun p => Keeps.bind (Keeps.modify fun _ _ => rfl) fun _ => ?_
  refine Keeps.bind (Keeps.ofExcept _) fun description => ?_
  refine Keeps.bind (fun _ _ => rfl) fun c => ?_
  refine Keeps.bind (bindings_declareAutoAlias _ _ _) fun _ => ?_
  exact Keeps.bind (Keeps.modify fun _ _ => rfl) fun _ => Keeps.pure c

/-- The component node reads an interface node that names the interface. -/
def ComponentNames (env : Env) (I : Uuid) (moduleInfo : ModuleRef) (componentElt : XMLElement)
    (w : World) : Prop :=
  ∃ interfaceElt w1, ReachesInterface env moduleInfo componentElt w interfaceElt w1 ∧
    NamesInterface env I interfaceElt

theorem autobinds_declareComponent (env : Env) (moduleInfo : ModuleRef) (elt : XMLElement) :
    Autobinds I (declareComponent env moduleInfo elt) (ComponentNames env I moduleInfo elt) := by
  have hopened : ∀ c, Autobinds I (processXmlNode elt "interface" (declareInterfaceNode env c))
      fun w => ∃ interfaceElt w1,
        Pass (declareInterfaceNode env c) (elt.childElements "interface") w interfaceElt w1 ∧
          NamesInterface env I interfaceElt :=
    fun c => Adds.forEach (fun child => autobinds_declareInterfaceNode env c child) _
  have hnew : ∀ C, Autobinds I (declareNewComponent env moduleInfo elt C) fun w =>
      ∃ c w0, openComponent moduleInfo elt C w = (.ok c, w0) ∧ ∃ interfaceElt w1,
        Pass (declareInterfaceNode env c) (elt.childElements "interface") w0 interfaceElt w1 ∧
          NamesInterface env I interfaceElt := by
    intro C
    rw [declareNewComponent_eq]
    exact Adds.quiet_bind (autobinds_nothing (bindings_openComponent moduleInfo elt C)) hopened
  have hbody : ∀ C, Autobinds I (do
      let known ← gets fun w : World => w.factory.registry.componentModuleUUIDMap.contains C
      if known then pure () else declareNewComponent env moduleInfo elt C) fun w =>
        ¬ w.KnowsComponent C ∧ ∃ c w0, openComponent moduleInfo elt C w = (.ok c, w0) ∧
          ∃ interfaceElt w1, Pass (declareInterfaceNode env c) (elt.childElements "interface") w0
            interfaceElt w1 ∧ NamesInterface env I interfaceElt := by
    intro C w hw
    rw [gets_bind_run]
    by_cases hknown : w.factory.registry.componentModuleUUIDMap.contains C = true
    · rw [if_pos hknown]
      exact ⟨hw, (or_iff_left fun h => h.1 hknown).symm⟩
    · have h := hnew C w hw
      rw [if_neg hknown]
      exact ⟨h.1, h.2.trans (or_congr_right (and_iff_right hknown).symm)⟩
  refine (autobinds_afterUuid fun C => autobinds_rethrowXpcf (hbody C)).congr fun w _ => ?_
  constructor
  · rintro ⟨C, hC, hknown, c, w0, hopen, interfaceElt, w1, hpass, hnames⟩
    exact ⟨interfaceElt, w1, ⟨C, c, w0, hC, hknown, hopen, hpass⟩, hnames⟩
  · rintro ⟨interfaceElt, w1, ⟨C, c, w0, hC, hknown, hopen, hpass⟩, hnames⟩
    exact ⟨C, hC, hknown, c, w0, hopen, interfaceElt, w1, hpass, hnames⟩

/-- The module node reads a component node that names the interface. -/
def ModuleNames (env : Env) (I : Uuid) (moduleElt : XMLElement) (w : World) : Prop :=
  ∃ r componentElt w1, ReachesComponent env moduleElt w r componentElt w1 ∧
    ComponentNames env I r componentElt w1

theorem autobinds_declareModule (env : Env) (elt : XMLElement) :
    Autobinds I (declareModule env elt) (ModuleNames env I elt) := by
  have hopen : ∀ moduleUuid, Autobinds I (openModule env elt moduleUuid) fun _ => False :=
    fun moduleUuid => autobinds_nothing fun _ _ => rfl
  have hbody : ∀ moduleUuid, Autobinds I (do
      let r ← openModule env elt moduleUuid
      processXmlNode elt "component" (declareComponent env r)) fun w =>
        ∃ r w0, openModule env elt moduleUuid w = (.ok r, w0) ∧ ∃ componentElt w1,
          Pass (declareComponent env r) (elt.childElements "component") w0 componentElt w1 ∧
            ComponentNames env I r componentElt w1 :=
    fun moduleUuid => Adds.quiet_bind (hopen moduleUuid) fun r =>
      Adds.forEach (fun child => autobinds_declareComponent env r child) _
  rw [declareModule_eq]
  refine (autobinds_afterUuid fun u => autobinds_rethrowXpcf (hbody u)).congr fun w _ => ?_
  constructor
  · rintro ⟨moduleUuid, huuid, r, w0, hopen, componentElt, w1, hpass, hnames⟩
    exact ⟨r, componentElt, w1, ⟨moduleUuid, w0, huuid, hopen, hpass⟩, hnames⟩
  · rintro ⟨r, componentElt, w1, ⟨moduleUuid, w0, huuid, hopen, hpass⟩, hnames⟩
    exact ⟨moduleUuid, huuid, r, w0, hopen, componentElt, w1, hpass, hnames⟩

/-! ### Introspected modules -/

/-- What the entry point of the module answers for a component. -/
theorem createModuleComponent_ok_iff {env : Env} {r : ModuleRef} {componentUUID : Uuid} {w : World}
    {ref : Instance} :
    (∃ w1, createModuleComponent env r componentUUID w = (.ok ref, w1)) ↔
      ∃ file, entryPoint env w.process (w.process.module r) = .ok file ∧
        callEntryPoint env file componentUUID w.process.tick = .ok ref := by
  unfold createModuleComponent
  rw [gets_bind_run]
  cases hentry : entryPoint env w.process (w.process.module r) with
  | error e =>
    constructor
    · rintro ⟨w1, h⟩
      cases (recordCreated_ok h).1
    · rintro ⟨file, h, -⟩
      cases h
  | ok file =>
    constructor
    · rintro ⟨w1, h⟩
      exact ⟨file, rfl, (recordCreated_ok h).1⟩
    · rintro ⟨file1, h, hcall⟩
      cases h
      let w1 : World := { w with process := { w.process with
        funcMap := w.process.funcMap.insert (w.process.module r).uuid file } }
      show ∃ w2, recordCreated componentUUID
        (callEntryPoint env file componentUUID w.process.tick) w1 = (.ok ref, w2)
      rw [hcall]
      exact ⟨_, rfl⟩

/-- The object that the module creates for the component lists the interface. -/
def CreatedLists (env : Env) (I : Uuid) (r : ModuleRef) (c : ComponentRef) (w : World) : Prop :=
  ∃ file ref, entryPoint env w.process (w.process.module r) = .ok file ∧
    callEntryPoint env file (w.process.component c).uuid w.process.tick = .ok ref ∧
      ∃ info ∈ getInterfaces env ref, info.uuid = I

theorem autobinds_declareComponentInterface (c : ComponentRef) (componentUUID : Uuid)
    (infos : List InterfaceMetadata) :
    Autobinds I (forEach (declareComponentInterface c componentUUID) infos) fun _ =>
      ∃ info ∈ infos, info.uuid = I := by
  have hone : ∀ info, Autobinds I (declareComponentInterface c componentUUID info) fun _ =>
      info.uuid = I := by
    intro info w hw
    have hauto := autobinds_autobind info.uuid componentUUID w hw
    have hrest : Keeps (Frame.ofView World.bindings) (do
        declareAutoAlias .interface info.name info.uuid
        modifyProcess fun p => p.addInterface c info.uuid
        modifyRegistry fun ctx => ctx.addInterfaceMetadata info) :=
      Keeps.bind (bindings_declareAutoAlias _ _ _) fun _ =>
        Keeps.bind (Keeps.modify fun _ _ => rfl) fun _ => Keeps.modify fun _ _ => rfl
    have hsame := autobinds_nothing hrest _ hauto.1
    rw [or_false] at hsame
    exact ⟨hsame.1, hsame.2.trans hauto.2⟩
  refine (Adds.forEach hone infos).congr fun w _ => ⟨?_, ?_⟩
  · rintro ⟨info, w1, hpass, hI⟩
    exact ⟨info, hpass.mem, hI⟩
  · rintro ⟨info, hinfo, hI⟩
    have hreturns : ∀ info w, ∃ w1, declareComponentInterface c componentUUID info w =
        (.ok (), w1) := by
      intro info w
      obtain ⟨f, hrun, -⟩ := declareComponentInterface_run c componentUUID info w
      exact ⟨_, hrun⟩
    obtain ⟨w1, hpass⟩ := Pass.of_mem hreturns hinfo w
    exact ⟨info, w1, hpass, hI⟩

theorem autobinds_declareComponentMetadata (env : Env) (r : ModuleRef) (c : ComponentRef) :
    Autobinds I (declareComponentMetadata env r c) (CreatedLists env I r c) := by
  intro w hw
  let componentUUID := (w.process.component c).uuid
  have hcreate : Autobinds I (do
      let ref ← createModuleComponent env r componentUUID
      forEach (declareComponentInterface c componentUUID) (getInterfaces env ref)) fun w =>
        ∃ file ref, entryPoint env w.process (w.process.module r) = .ok file ∧
          callEntryPoint env file componentUUID w.process.tick = .ok ref ∧
            ∃ info ∈ getInterfaces env ref, info.uuid = I := by
    have hquiet : Keeps (Frame.ofView World.bindings) (createModuleComponent env r componentUUID) :=
      (keeps_createModuleComponent env r componentUUID).weaken fun w w1 _ =>
        ⟨trivial, fun h => congrArg (fun f : Factory => (f.context, f.coreBindings)) h.1⟩
    refine (Adds.quiet_bind (autobinds_nothing hquiet) fun ref =>
      autobinds_declareComponentInterface c componentUUID (getInterfaces env ref)).congr ?_
    intro w _
    constructor
    · rintro ⟨ref, w1, hrun, hlists⟩
      obtain ⟨file, hentry, hcall⟩ := createModuleComponent_ok_iff.mp ⟨w1, hrun⟩
      exact ⟨file, ref, hentry, hcall, hlists⟩
    · rintro ⟨file, ref, hentry, hcall, hlists⟩
      obtain ⟨w1, hrun⟩ := createModuleComponent_ok_iff.mpr ⟨file, hentry, hcall⟩
      exact ⟨ref, w1, hrun, hlists⟩
  -- the registry and the aliases are written first; the process is the same
  let w1 := w.withRegistry
    (if w.factory.registry.componentModuleUUIDMap.contains componentUUID then w.factory.registry
      else w.factory.registry.setModuleUUID componentUUID (w.process.module r).uuid)
  obtain ⟨aliases, halias⟩ := declareAutoAlias_run .component (w.process.component c).name
    componentUUID w1
  have hrun : declareComponentMetadata env r c w = (do
      let ref ← createModuleComponent env r componentUUID
      forEach (declareComponentInterface c componentUUID) (getInterfaces env ref))
        { w1 with factory := { w1.factory with aliases := aliases } } := by
    unfold declareComponentMetadata
    rw [gets_bind_run]
    show (declareAutoAlias _ _ _ >>= _) w1 = _
    rw [bind_run_of_ok halias]
  rw [hrun]
  exact hcreate { w1 with factory := { w1.factory with aliases := aliases } } hw

/-- The load of a library creates an object that lists the interface. -/
def LibraryLists (env : Env) (I : Uuid) (library : Except Exc ModuleLibrary) (w : World) : Prop :=
  ∃ r w0, introspectModule env library w = (.ok r, w0) ∧
    ∃ c w1, Pass (declareComponentMetadata env r) (w0.process.module r).components
      (w0.withRegistry (w0.factory.registry.addModuleMetadata (w0.process.module r).uuid r)) c w1 ∧
        CreatedLists env I r c w1

theorem bindings_introspectModule (env : Env) (library : Except Exc ModuleLibrary) :
    Keeps (Frame.ofView World.bindings) (introspectModule env library) := by
  refine Keeps.bind (Keeps.ofExcept _) fun lib => Keeps.bind (Keeps.ofExcept _) fun uuid => ?_
  refine Keeps.bind (Keeps.gets _) fun known => ?_
  split
  · exact Keeps.pure _
  · refine Keeps.bind (fun _ _ => rfl) fun r => Keeps.bind (Keeps.forEach fun entry _ => ?_) ?_
    · refine Keeps.bind (Keeps.ofExcept _) fun u => Keeps.bind (fun _ _ => rfl) fun c => ?_
      exact Keeps.modify fun _ _ => rfl
    · exact fun _ => Keeps.bind (Keeps.modify fun _ _ => rfl) fun _ => Keeps.pure r

theorem autobinds_library (env : Env) (library : Except Exc ModuleLibrary) :
    Autobinds I (RegistryCall.run env (.declareModuleMetadata library))
      (LibraryLists env I library) := by
  have hdeclare : ∀ r, Autobinds I (declareModuleMetadata env r) fun w =>
      ∃ c w1, Pass (declareComponentMetadata env r) (w.process.module r).components
        (w.withRegistry (w.factory.registry.addModuleMetadata (w.process.module r).uuid r)) c w1 ∧
          CreatedLists env I r c w1 :=
    fun r w hw => Adds.forEach (fun c => autobinds_declareComponentMetadata env r c)
      (w.process.module r).components
      (w.withRegistry (w.factory.registry.addModuleMetadata (w.process.module r).uuid r)) hw
  exact Adds.quiet_bind (autobinds_nothing (bindings_introspectModule env library)) hdeclare

/-! ## Runs -/

/-- The declaration reads the interface for a component. -/
def RegistryCall.Lists (env : Env) (I : Uuid) : RegistryCall → World → Prop
  | .declareModule elt => ModuleNames env I elt
  | .declareModuleMetadata library => LibraryLists env I library

theorem autobinds_call (env : Env) (call : RegistryCall) :
    Autobinds I (call.run env) (call.Lists env I) := by
  cases call with
  | declareModule elt => exact autobinds_declareModule env elt
  | declareModuleMetadata library => exact autobinds_library env library

/-- The declarations one after the other, each of them whatever became of the
one before. -/
def declareAll (env : Env) (calls : List RegistryCall) (w : World) : World :=
  calls.foldl (fun w call => (call.run env w).2) w

/-- An interface is autobound after a run when it was before or some declaration
of the run lists it. -/
theorem autobound_declareAll_iff {env : Env} (calls : List RegistryCall) {w : World}
    (hw : w.NotBound I) :
    (declareAll env calls w).NotBound I ∧
      ((declareAll env calls w).Autobound I ↔ w.Autobound I ∨
        ∃ before call after, calls = before ++ call :: after ∧
          call.Lists env I (declareAll env before w)) := by
  induction calls generalizing w with
  | nil =>
    exact ⟨hw, (or_iff_left not_exists_split_nil).symm⟩
  | cons first rest ih =>
    have hfirst := autobinds_call (I := I) env first w hw
    obtain ⟨hbound, hrest⟩ := ih hfirst.1
    refine ⟨hbound, hrest.trans ?_⟩
    rw [hfirst.2, or_assoc, exists_split_cons]
    rfl

/-- No framework interface is in the autobinding table, and none resolves. -/
structure World.IgnoresFramework (env : Env) (w : World) : Prop where
  table : ∀ I, isXpcfFrameworkInterface I = true → ¬ w.Autobound I
  unresolved : ∀ I, isXpcfFrameworkInterface I = true → ∀ fuel, ∃ text,
    resolve env fuel I [] w = (.throws (.injectableNotFound text), w)

/-- An interface without any binding does not resolve. -/
theorem resolve_unbound {env : Env} {fuel : Nat} {w : World} (hbound : w.NotBound I)
    (hauto : ¬ w.Autobound I) :
    ∃ text, resolve env fuel I [] w = (.throws (.injectableNotFound text), w) := by
  have hnone : w.factory.context.autoBindings I = none :=
    Table.not_contains_iff.mp (Bool.eq_false_iff.mpr hauto)
  have hbind : ∃ text, resolveBind w.factory.context w.factory.coreBindings I [] =
      .error (.injectableNotFound text) := by
    rw [resolveBind_nil, hbound.1, hnone, hbound.2]
    exact ⟨_, rfl⟩
  obtain ⟨text, hbind⟩ := hbind
  refine ⟨text, ?_⟩
  show resolveWith _ I [] w = _
  unfold resolveWith
  rw [gets_bind_run, hbind]
  rfl

/-- From a factory in which the framework interfaces are unbound, a run of
declarations leaves them unbound exactly when no declaration of the run reads
one of them for a component. -/
theorem autobinds_ignore_framework_iff {env : Env} {w : World}
    (hw : ∀ I, isXpcfFrameworkInterface I = true → w.NotBound I ∧ ¬ w.Autobound I)
    (calls : List RegistryCall) :
    (declareAll env calls w).IgnoresFramework env ↔
      ∀ before call after, calls = before ++ call :: after → ∀ I,
        isXpcfFrameworkInterface I = true → ¬ call.Lists env I (declareAll env before w) := by
  constructor
  · intro h before call after hcalls I hI hlists
    refine h.table I hI ((autobound_declareAll_iff calls (hw I hI).1).2.mpr ?_)
    exact .inr ⟨before, call, after, hcalls, hlists⟩
  · intro h
    have hauto : ∀ I, isXpcfFrameworkInterface I = true →
        ¬ (declareAll env calls w).Autobound I := by
      intro I hI hbound
      rcases (autobound_declareAll_iff calls (hw I hI).1).2.mp hbound with hbefore | hlisted
      · exact (hw I hI).2 hbefore
      · obtain ⟨before, call, after, hcalls, hlists⟩ := hlisted
        exact h before call after hcalls I hI hlists
    refine ⟨hauto, fun I hI fuel => ?_⟩
    exact resolve_unbound (autobound_declareAll_iff calls (hw I hI).1).1 (hauto I hI)

/-! ## A module with one interface -/

/-- Module 1 with component 2, which implements one interface. -/
def moduleWithInterface (interfaceUuid : String) : XMLElement :=
  .mk "module" [("uuid", uuidText1), ("name", "module"), ("path", "lib")] none
    [.mk "component" [("uuid", uuidText2), ("name", "component"), ("description", "")] none
      [.mk "interface" [("uuid", interfaceUuid), ("name", "interface"), ("description", "")] none
        []]]

theorem initial_unbound (I : Uuid) (hI : isXpcfFrameworkInterface I = true) :
    World.initial.NotBound I ∧ ¬ World.initial.Autobound I := by
  have hcases : I = uuidIComponentIntrospect ∨ I = uuidIConfigurable ∨ I = uuidIInjectable :=
    of_decide_eq_true hI
  rcases hcases with rfl | rfl | rfl <;> exact ⟨⟨rfl, rfl⟩, nofun⟩

/-- A component with an interface of its own. -/
theorem framework_ignored_ownInterface :
    (declareAll (Env.simple []) [.declareModule (moduleWithInterface uuidText3)]
      World.initial).IgnoresFramework (Env.simple []) := by
  refine (autobinds_ignore_framework_iff initial_unbound _).mpr ?_
  refine forall_splits_cons.mpr ⟨fun I hI hlists => ?_, forall_splits_nil⟩
  obtain ⟨r, componentElt, w1, ⟨_, _, _, _, hcomponent⟩, interfaceElt, w2,
    ⟨_, c, w3, _, _, _, hinterface⟩, hnames⟩ := hlists
  cases List.mem_singleton.mp hcomponent.mem
  cases List.mem_singleton.mp hinterface.mem
  cases hnames
  revert hI
  decide

/-- Both paths autobind IComponentIntrospect, and it resolves. -/
theorem framework_autobound :
    let env := { Env.simple [] with toUUID := fun text =>
      if text = "introspect" then some uuidIComponentIntrospect else smallUuid text }
    let w1 := declareAll env [.declareModule (moduleWithInterface "introspect")] World.initial
    let w2 := declareAll env [.declareModuleMetadata (.ok oneComponentLibrary)] World.initial
    w1.Autobound uuidIComponentIntrospect ∧ w2.Autobound uuidIComponentIntrospect ∧
      (∃ ref, (resolve env 1 uuidIComponentIntrospect [] w1).1 = .ok ref) ∧
      (∃ ref, (resolve env 1 uuidIComponentIntrospect [] w2).1 = .ok ref) ∧
      ¬ w1.IgnoresFramework env ∧ ¬ w2.IgnoresFramework env := by
  intro env w1 w2
  have h1 : w1.Autobound uuidIComponentIntrospect := rfl
  have h2 : w2.Autobound uuidIComponentIntrospect := rfl
  refine ⟨h1, h2, ⟨_, rfl⟩, ⟨_, rfl⟩, fun h => ?_, fun h => ?_⟩
  · exact h.table uuidIComponentIntrospect (by decide) h1
  · exact h.table uuidIComponentIntrospect (by decide) h2

end Xpcf
