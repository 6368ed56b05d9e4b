import Xpcf.Proofs.Contexts

/-!
# The registry finds the metadata of its components

Two paths declare components, and both write three places: the map from
components to module UUIDs, the map from module UUIDs to metadata objects, and
the component map inside a metadata object.  A component can be found when the
three agree.

* `Process.Coherent`: the metadata objects are consistent;
* `Registered`: every known component is in the object its module UUID leads to,
  but for those that are being declared;
* `traceable_of_declared`: what holds after every sequence of declarations whose
  steps attach components to the object that is registered.
-/

namespace Xpcf

open CodeLib CodeLib.Exec

/-! ## Metadata objects -/

namespace Process

/-- A component map leads to components with the right UUID, listed components
are in the map, and the module manager knows modules by their UUID. -/
structure Coherent (p : Process) : Prop where
  carried : ∀ r uuid c, (p.module r).moduleComponentMap uuid = some c →
    c < p.components.length ∧ (p.component c).uuid = uuid
  listed : ∀ r, ∀ c ∈ (p.module r).components, c < p.components.length ∧
    ((p.module r).moduleComponentMap (p.component c).uuid).isSome
  known : ∀ moduleUUID r, p.moduleMap moduleUUID = some r →
    r < p.modules.length ∧ (p.module r).uuid = moduleUUID

theorem coherent_initial : Process.initial.Coherent := by
  refine ⟨fun r uuid c h => ?_, fun r c h => ?_, fun m r h => ?_⟩
  · cases h
  · cases h
  · cases h

/-! ### A new module -/

def addModule (p : Process) (m : ModuleMetadata) : Process := { p with modules := p.modules ++ [m] }

theorem module_addModule_old {p : Process} {m : ModuleMetadata} {r : ModuleRef}
    (h : r < p.modules.length) : (p.addModule m).module r = p.module r := by
  unfold module addModule
  simp [List.getD_eq_getElem?_getD, List.getElem?_append_left h]

theorem module_addModule_new (p : Process) (m : ModuleMetadata) :
    (p.addModule m).module p.modules.length = m := by
  unfold module addModule
  simp [List.getD_eq_getElem?_getD]

/-- A position that holds no object looks like an empty module. -/
theorem module_of_ge {p : Process} {r : ModuleRef} (h : p.modules.length ≤ r) :
    (p.module r).moduleComponentMap = Table.empty ∧ (p.module r).components = [] := by
  unfold module
  rw [List.getD_eq_getElem?_getD, List.getElem?_eq_none h]
  exact ⟨rfl, rfl⟩

/-- A new module without components changes no component map. -/
theorem module_addModule {p : Process} {m : ModuleMetadata}
    (hm : m.moduleComponentMap = Table.empty ∧ m.components = []) (r : ModuleRef) :
    ((p.addModule m).module r).moduleComponentMap = (p.module r).moduleComponentMap ∧
      ((p.addModule m).module r).components = (p.module r).components := by
  by_cases hr : r < p.modules.length
  · rw [module_addModule_old hr]
    exact ⟨rfl, rfl⟩
  · have hge : p.modules.length ≤ r := Nat.le_of_not_lt hr
    obtain ⟨hmap, hcomponents⟩ := module_of_ge hge
    rw [hmap, hcomponents]
    by_cases heq : r = p.modules.length
    · subst heq
      rw [module_addModule_new]
      exact hm
    · have hlen : (p.addModule m).modules.length = p.modules.length + 1 := by
        simp [addModule]
      refine module_of_ge ?_
      rw [hlen]
      exact Nat.succ_le_of_lt (Nat.lt_of_le_of_ne hge (Ne.symm heq))

theorem Coherent.addModule {p : Process} (h : p.Coherent) {m : ModuleMetadata}
    (hm : m.moduleComponentMap = Table.empty ∧ m.components = []) : (p.addModule m).Coherent := by
  refine ⟨fun r uuid c hc => ?_, fun r c hc => ?_, fun u r hr => ?_⟩
  · rw [(module_addModule hm r).1] at hc
    exact h.carried r uuid c hc
  · rw [(module_addModule hm r).2] at hc
    rw [(module_addModule hm r).1]
    exact h.listed r c hc
  · obtain ⟨hlt, huuid⟩ := h.known u r hr
    rw [module_addModule_old hlt]
    have hlen : (p.addModule m).modules.length = p.modules.length + 1 := by
      simp [Process.addModule]
    rw [hlen]
    exact ⟨Nat.lt_succ_of_lt hlt, huuid⟩

/-! ### A new component -/

def newComponentObject (p : Process) (m : ComponentMetadata) : Process :=
  { p with components := p.components ++ [m] }

theorem component_new_old {p : Process} {m : ComponentMetadata} {c : ComponentRef}
    (h : c < p.components.length) : (p.newComponentObject m).component c = p.component c := by
  unfold component newComponentObject
  simp [List.getD_eq_getElem?_getD, List.getElem?_append_left h]

theorem component_new (p : Process) (m : ComponentMetadata) :
    (p.newComponentObject m).component p.components.length = m := by
  unfold component newComponentObject
  simp [List.getD_eq_getElem?_getD]

theorem Coherent.newComponentObject {p : Process} (h : p.Coherent) (m : ComponentMetadata) :
    (p.newComponentObject m).Coherent := by
  have hlen : (p.newComponentObject m).components.length = p.components.length + 1 := by
    simp [Process.newComponentObject]
  refine ⟨fun r uuid c hc => ?_, fun r c hc => ?_, fun u r hr => h.known u r hr⟩
  · obtain ⟨hlt, huuid⟩ := h.carried r uuid c hc
    rw [component_new_old hlt, hlen]
    exact ⟨Nat.lt_succ_of_lt hlt, huuid⟩
  · obtain ⟨hlt, hmap⟩ := h.listed r c hc
    rw [component_new_old hlt, hlen]
    exact ⟨Nat.lt_succ_of_lt hlt, hmap⟩

/-! ### A component that is added to a module -/

theorem addComponent_components (p : Process) (r : ModuleRef) (c : ComponentRef) :
    (p.addComponent r c).components = p.components ∧
      (p.addComponent r c).moduleMap = p.moduleMap ∧
      (p.addComponent r c).modules.length = p.modules.length := by
  unfold addComponent modifyModule
  dsimp only
  split
  · exact ⟨rfl, rfl, rfl⟩
  · exact ⟨rfl, rfl, List.length_modify ..⟩

theorem component_addComponent (p : Process) (r : ModuleRef) (c c1 : ComponentRef) :
    (p.addComponent r c).component c1 = p.component c1 := by
  unfold component
  rw [(addComponent_components p r c).1]

/-- What the module a component is added to becomes. -/
theorem module_addComponent_self {p : Process} {r : ModuleRef} {c : ComponentRef}
    (hr : r < p.modules.length) :
    (p.addComponent r c).module r =
      if (p.module r).moduleComponentMap.contains (p.component c).uuid then p.module r
      else { p.module r with
        componentUUIDs := (p.module r).componentUUIDs ++ [(p.component c).uuid]
        moduleComponentMap := (p.module r).moduleComponentMap.insert (p.component c).uuid c
        components := (p.module r).components ++ [c] } := by
  unfold addComponent
  dsimp only
  split
  · rfl
  · rw [module_modifyModule_self hr]

theorem module_addComponent_ne {p : Process} {r r1 : ModuleRef} {c : ComponentRef} (h : r1 ≠ r) :
    (p.addComponent r c).module r1 = p.module r1 := by
  unfold addComponent
  dsimp only
  split
  · rfl
  · exact module_modifyModule_ne h

theorem uuid_addComponent {p : Process} {r r1 : ModuleRef} {c : ComponentRef}
    (hr : r < p.modules.length) :
    ((p.addComponent r c).module r1).uuid = (p.module r1).uuid := by
  by_cases heq : r1 = r
  · subst heq
    rw [module_addComponent_self hr]
    split
    · rfl
    · rfl
  · rw [module_addComponent_ne heq]

/-- No entry of a component map is lost. -/
theorem isSome_addComponent {p : Process} {r r1 : ModuleRef} {c : ComponentRef} {uuid : Uuid}
    (hr : r < p.modules.length) (h : ((p.module r1).moduleComponentMap uuid).isSome) :
    (((p.addComponent r c).module r1).moduleComponentMap uuid).isSome := by
  by_cases heq : r1 = r
  · subst heq
    rw [module_addComponent_self hr]
    split
    · exact h
    · dsimp only
      rw [Table.insert_apply]
      split
      · rfl
      · exact h
  · rw [module_addComponent_ne heq]
    exact h

/-- Afterwards the module has the component UUID. -/
theorem isSome_addComponent_self {p : Process} {r : ModuleRef} {c : ComponentRef}
    (hr : r < p.modules.length) :
    (((p.addComponent r c).module r).moduleComponentMap (p.component c).uuid).isSome := by
  rw [module_addComponent_self hr]
  split
  · assumption
  · dsimp only
    rw [Table.insert_self]
    rfl

theorem Coherent.addComponent {p : Process} (h : p.Coherent) {r : ModuleRef} {c : ComponentRef}
    (hr : r < p.modules.length) (hc : c < p.components.length) : (p.addComponent r c).Coherent := by
  obtain ⟨hcomponents, hmap, hlen⟩ := addComponent_components p r c
  refine ⟨fun r1 uuid c1 h1 => ?_, fun r1 c1 h1 => ?_, fun u r1 h1 => ?_⟩
  · rw [hcomponents, component_addComponent]
    by_cases heq : r1 = r
    · subst heq
      rw [module_addComponent_self hr] at h1
      split at h1
      · exact h.carried r1 uuid c1 h1
      · rcases Table.insert_eq_some h1 with ⟨rfl, rfl⟩ | hold
        · exact ⟨hc, rfl⟩
        · exact h.carried r1 uuid c1 hold
    · rw [module_addComponent_ne heq] at h1
      exact h.carried r1 uuid c1 h1
  · rw [hcomponents, component_addComponent]
    by_cases heq : r1 = r
    · subst heq
      have hmember : c1 ∈ (p.module r1).components ∨ c1 = c := by
        rw [module_addComponent_self hr] at h1
        split at h1
        · exact .inl h1
        · rcases List.mem_append.mp h1 with hold | hnew
          · exact .inl hold
          · exact .inr (List.mem_singleton.mp hnew)
      rcases hmember with hold | rfl
      · obtain ⟨hlt, hsome⟩ := h.listed r1 c1 hold
        exact ⟨hlt, isSome_addComponent hr hsome⟩
      · exact ⟨hc, isSome_addComponent_self hr⟩
    · rw [module_addComponent_ne heq] at h1 ⊢
      exact h.listed r1 c1 h1
  · rw [hmap] at h1
    obtain ⟨hlt, huuid⟩ := h.known u r1 h1
    rw [hlen, uuid_addComponent hr]
    exact ⟨hlt, huuid⟩

end Process

/-! ## What most declarations leave alone -/

/-- The registry maps and the metadata objects are the same, up to the
interfaces that components list. -/
structure World.SameMetadata (w w1 : World) : Prop where
  modulesMap : w1.factory.registry.modulesMap = w.factory.registry.modulesMap
  moduleUUIDs : w1.factory.registry.componentModuleUUIDMap =
    w.factory.registry.componentModuleUUIDMap
  modules : w1.process.modules = w.process.modules
  moduleMap : w1.process.moduleMap = w.process.moduleMap
  length : w1.process.components.length = w.process.components.length
  uuids : ∀ c, (w1.process.component c).uuid = (w.process.component c).uuid

namespace World.SameMetadata

theorem refl (w : World) : w.SameMetadata w := ⟨rfl, rfl, rfl, rfl, rfl, fun _ => rfl⟩

theorem trans {w w1 w2 : World} (h : w.SameMetadata w1) (h1 : w1.SameMetadata w2) :
    w.SameMetadata w2 :=
  ⟨h1.modulesMap.trans h.modulesMap, h1.moduleUUIDs.trans h.moduleUUIDs,
    h1.modules.trans h.modules, h1.moduleMap.trans h.moduleMap, h1.length.trans h.length,
    fun c => (h1.uuids c).trans (h.uuids c)⟩

theorem module {w w1 : World} (h : w.SameMetadata w1) (r : ModuleRef) :
    w1.process.module r = w.process.module r := by
  unfold Process.module
  rw [h.modules]

theorem coherent {w w1 : World} (h : w.SameMetadata w1) (hp : w.process.Coherent) :
    w1.process.Coherent := by
  refine ⟨fun r uuid c hc => ?_, fun r c hc => ?_, fun u r hr => ?_⟩
  · rw [h.module] at hc
    rw [h.length, h.uuids]
    exact hp.carried r uuid c hc
  · rw [h.module] at hc ⊢
    rw [h.length, h.uuids]
    exact hp.listed r c hc
  · rw [h.moduleMap] at hr
    rw [h.modules, h.module]
    exact hp.known u r hr

end World.SameMetadata

def metadataFrame : Frame World where
  pre _ := True
  rel := World.SameMetadata
  refl := World.SameMetadata.refl
  trans h h1 := h.trans h1
  stable h _ := h

theorem metadata_of_processFrame {α : Type} {m : XpcfM α} (hm : Keeps processFrame m) :
    Keeps metadataFrame m := by
  refine hm.weaken fun w w1 _ => ⟨trivial, fun h => ?_⟩
  refine ⟨by rw [h.1], by rw [h.1], h.2.modules, h.2.moduleMap, by rw [h.2.components], ?_⟩
  intro c
  unfold Process.component
  rw [h.2.components]

theorem metadata_modifyContext (g : FactoryContext → FactoryContext) :
    Keeps metadataFrame (modifyContext g) :=
  Keeps.modify fun _ _ => ⟨rfl, rfl, rfl, rfl, rfl, fun _ => rfl⟩

theorem metadata_declareAutoAlias (type : AliasType) (name : String) (uuid : Uuid) :
    Keeps metadataFrame (declareAutoAlias type name uuid) := by
  refine Keeps.bind (Keeps.gets _) fun f => ?_
  split
  · refine Keeps.bind (Keeps.gets _) fun ctx => Keeps.bind (Keeps.ofExcept _) fun map => ?_
    exact Keeps.modify fun _ _ => ⟨rfl, rfl, rfl, rfl, rfl, fun _ => rfl⟩
  · exact Keeps.pure ()

theorem metadata_addInterface (c : ComponentRef) (uuid : Uuid) :
    Keeps metadataFrame (modifyProcess fun p => p.addInterface c uuid) := by
  refine Keeps.modify fun w _ => ⟨rfl, rfl, rfl, rfl, List.length_modify .., fun c1 => ?_⟩
  show ((w.process.addInterface c uuid).component c1).uuid = (w.process.component c1).uuid
  unfold Process.addInterface Process.component
  simp only [List.getD_eq_getElem?_getD, List.getElem?_modify]
  cases w.process.components[c1]? with
  | none => simp
  | some m =>
    by_cases heq : c = c1
    · simp [heq]
    · simp [heq]

theorem metadata_addInterfaceMetadata (metadata : InterfaceMetadata) :
    Keeps metadataFrame (modifyRegistry fun ctx => ctx.addInterfaceMetadata metadata) := by
  refine Keeps.modify fun w _ => ?_
  have hmaps : (w.factory.registry.addInterfaceMetadata metadata).modulesMap =
        w.factory.registry.modulesMap ∧
      (w.factory.registry.addInterfaceMetadata metadata).componentModuleUUIDMap =
        w.factory.registry.componentModuleUUIDMap := by
    unfold RegistryContext.addInterfaceMetadata
    split
    · exact ⟨rfl, rfl⟩
    · exact ⟨rfl, rfl⟩
  exact ⟨hmaps.1, hmaps.2, rfl, rfl, rfl, fun _ => rfl⟩

theorem metadata_declareComponentInterface (c : ComponentRef) (componentUUID : Uuid)
    (info : InterfaceMetadata) :
    Keeps metadataFrame (declareComponentInterface c componentUUID info) := by
  refine Keeps.bind (metadata_modifyContext _) fun _ => ?_
  refine Keeps.bind (metadata_declareAutoAlias _ _ _) fun _ => ?_
  exact Keeps.bind (metadata_addInterface c _) fun _ => metadata_addInterfaceMetadata info

theorem metadata_declareInterfaceNode (env : Env) (c : ComponentRef) (elt : XMLElement) :
    Keeps metadataFrame (declareInterfaceNode env c elt) := by
  refine keeps_rethrowXpcf (Keeps.bind (keeps_uuidOfAttribute env _ _ _) fun uuid => ?_)
  refine Keeps.bind (metadata_addInterface c _) fun _ => Keeps.bind (Keeps.gets _) fun w => ?_
  refine Keeps.bind (metadata_modifyContext _) fun _ => ?_
  split
  · exact Keeps.pure ()
  · refine Keeps.bind (Keeps.ofExcept _) fun description => ?_
    exact Keeps.bind (metadata_declareAutoAlias _ _ _) fun _ => metadata_addInterfaceMetadata _

/-! ## The invariant -/

/-- Registered modules exist, and every component with a module UUID is pending
or in the component map of the module object that is registered. -/
structure Registered (pending : Uuid → Prop) (w : World) : Prop where
  process : w.process.Coherent
  modules : ∀ moduleUUID r, w.factory.registry.modulesMap moduleUUID = some r →
    r < w.process.modules.length
  attached : ∀ C moduleUUID, w.factory.registry.componentModuleUUIDMap C = some moduleUUID →
    pending C ∨ ∃ r, w.factory.registry.modulesMap moduleUUID = some r ∧
      ((w.process.module r).moduleComponentMap C).isSome

/-- No component is pending. -/
abbrev RegistryCoherent (w : World) : Prop := Registered (fun _ => False) w

theorem Registered.same {pending : Uuid → Prop} {w w1 : World} (h : Registered pending w)
    (hs : w.SameMetadata w1) : Registered pending w1 := by
  refine ⟨hs.coherent h.process, fun u r hr => ?_, fun C u hC => ?_⟩
  · rw [hs.modulesMap] at hr
    rw [hs.modules]
    exact h.modules u r hr
  · rw [hs.moduleUUIDs] at hC
    rcases h.attached C u hC with hp | ⟨r, hr, hsome⟩
    · exact .inl hp
    · refine .inr ⟨r, ?_, ?_⟩
      · rw [hs.modulesMap]
        exact hr
      · rw [hs.module]
        exact hsome

/-- The object is the one registered for its UUID. -/
structure World.Owns (w : World) (r : ModuleRef) : Prop where
  exists_module : r < w.process.modules.length
  registered : w.factory.registry.modulesMap (w.process.module r).uuid = some r

theorem World.Owns.same {w w1 : World} {r : ModuleRef} (h : w.Owns r) (hs : w.SameMetadata w1) :
    w1.Owns r := by
  refine ⟨?_, ?_⟩
  · rw [hs.modules]
    exact h.exists_module
  · rw [hs.modulesMap, hs.module]
    exact h.registered

/-! ## New objects and the worlds around them -/

theorem Registered.newModule {pending : Uuid → Prop} {w : World} (h : Registered pending w)
    {m : ModuleMetadata} (hm : m.moduleComponentMap = Table.empty ∧ m.components = []) :
    Registered pending ⟨w.factory, w.process.addModule m⟩ := by
  have hlen : (w.process.addModule m).modules.length = w.process.modules.length + 1 := by
    simp [Process.addModule]
  refine ⟨h.process.addModule hm, fun u r hr => ?_, fun C u hC => ?_⟩
  · show r < (w.process.addModule m).modules.length
    rw [hlen]
    exact Nat.lt_succ_of_lt (h.modules u r hr)
  · rcases h.attached C u hC with hp | ⟨r, hr, hsome⟩
    · exact .inl hp
    · refine .inr ⟨r, hr, ?_⟩
      show (((w.process.addModule m).module r).moduleComponentMap C).isSome
      rw [(Process.module_addModule hm r).1]
      exact hsome

theorem Registered.newComponent {pending : Uuid → Prop} {w : World} (h : Registered pending w)
    (m : ComponentMetadata) : Registered pending ⟨w.factory, w.process.newComponentObject m⟩ :=
  ⟨h.process.newComponentObject m, h.modules, h.attached⟩

theorem Registered.addComponent {pending : Uuid → Prop} {w : World} (h : Registered pending w)
    {r : ModuleRef} {c : ComponentRef} (hr : r < w.process.modules.length)
    (hc : c < w.process.components.length) :
    Registered pending ⟨w.factory, w.process.addComponent r c⟩ := by
  obtain ⟨_, _, hlen⟩ := Process.addComponent_components w.process r c
  refine ⟨h.process.addComponent hr hc, fun u r1 h1 => ?_, fun C u hC => ?_⟩
  · show r1 < (w.process.addComponent r c).modules.length
    rw [hlen]
    exact h.modules u r1 h1
  · rcases h.attached C u hC with hp | ⟨r1, h1, hsome⟩
    · exact .inl hp
    · exact .inr ⟨r1, h1, Process.isSome_addComponent hr hsome⟩

theorem World.Owns.addComponent {w : World} {r : ModuleRef} (h : w.Owns r) (c : ComponentRef) :
    World.Owns ⟨w.factory, w.process.addComponent r c⟩ r := by
  obtain ⟨_, _, hlen⟩ := Process.addComponent_components w.process r c
  refine ⟨?_, ?_⟩
  · show r < (w.process.addComponent r c).modules.length
    rw [hlen]
    exact h.exists_module
  · show w.factory.registry.modulesMap ((w.process.addComponent r c).module r).uuid = some r
    rw [Process.uuid_addComponent h.exists_module]
    exact h.registered

/-! ## XML modules -/

/-- The world with another registry context. -/
def World.withRegistry (w : World) (ctx : RegistryContext) : World :=
  { w with factory := { w.factory with registry := ctx } }

theorem modifyRegistry_run (g : RegistryContext → RegistryContext) (w : World) :
    modifyRegistry g w = (.ok (), w.withRegistry (g w.factory.registry)) := rfl

/-- The object is the registered one and the invariant holds. -/
def Ready (r : ModuleRef) (w : World) : Prop := RegistryCoherent w ∧ w.Owns r

/-- In the middle of a declaration: the component has the module UUID of the
object, and is not in the object yet. -/
structure Pending (r : ModuleRef) (C : Uuid) (w : World) : Prop where
  coherent : Registered (fun C1 => C1 = C) w
  owns : w.Owns r
  known : w.factory.registry.componentModuleUUIDMap C = some (w.process.module r).uuid

theorem Ready.same {r : ModuleRef} {w w1 : World} (h : Ready r w) (hs : w.SameMetadata w1) :
    Ready r w1 := ⟨h.1.same hs, h.2.same hs⟩

theorem Pending.same {r : ModuleRef} {C : Uuid} {w w1 : World} (h : Pending r C w)
    (hs : w.SameMetadata w1) : Pending r C w1 := by
  refine ⟨h.coherent.same hs, h.owns.same hs, ?_⟩
  rw [hs.moduleUUIDs, hs.module]
  exact h.known

/-- Giving a component the module UUID of the object. -/
theorem Ready.pending {r : ModuleRef} {w : World} (h : Ready r w) (C : Uuid) :
    Pending r C (w.withRegistry
      (w.factory.registry.setModuleUUID C (w.process.module r).uuid)) := by
  refine ⟨⟨h.1.process, h.1.modules, fun C1 u hC1 => ?_⟩, ⟨h.2.exists_module, h.2.registered⟩, ?_⟩
  · by_cases heq : C1 = C
    · exact .inl heq
    · have hold : w.factory.registry.componentModuleUUIDMap C1 = some u := by
        rw [← hC1]
        exact (Table.insert_ne _ _ heq).symm
      exact .inr ((h.1.attached C1 u hold).resolve_left id)
  · exact Table.insert_self _ _ _

/-- Adding the component to the object ends the declaration. -/
theorem Pending.ready {r : ModuleRef} {C : Uuid} {c : ComponentRef} {w : World} (h : Pending r C w)
    (hc : c < w.process.components.length) (huuid : (w.process.component c).uuid = C) :
    Ready r ⟨w.factory, w.process.addComponent r c⟩ := by
  have hadd := h.coherent.addComponent h.owns.exists_module hc
  refine ⟨⟨hadd.process, hadd.modules, fun C1 u hC1 => .inr ?_⟩, h.owns.addComponent c⟩
  rcases hadd.attached C1 u hC1 with rfl | hfound
  · obtain rfl : (w.process.module r).uuid = u := Option.some.inj (h.known.symm.trans hC1)
    refine ⟨r, h.owns.registered, ?_⟩
    rw [← huuid]
    exact Process.isSome_addComponent_self h.owns.exists_module
  · exact hfound

/-- A computation in the frame keeps an assertion about metadata. -/
theorem returns_metadata {α : Type} {P : World → Prop} {m : XpcfM α} (hm : Keeps metadataFrame m)
    (hP : ∀ w w1, P w → w.SameMetadata w1 → P w1) : Returns P m (fun _ => P) :=
  Returns.of_keeps hm fun w w1 hw => ⟨trivial, fun hs => hP w w1 hw hs⟩

theorem returns_declareNewComponent (env : Env) (r : ModuleRef) (elt : XMLElement) (C : Uuid) :
    Returns (Ready r) (declareNewComponent env r elt C) (fun _ => Ready r) := by
  have hsame : ∀ w w1, Ready r w → w.SameMetadata w1 → Ready r w1 := fun _ _ h hs => h.same hs
  refine Returns.gets_bind fun p => ?_
  have hset : Returns (fun w => Ready r w ∧ w.process = p)
      (modifyRegistry fun ctx => ctx.setModuleUUID C (p.module r).uuid)
      (fun _ => Pending r C) := by
    refine Returns.modify ?_
    rintro w ⟨hw, rfl⟩
    exact hw.pending C
  refine Returns.bind hset fun _ => Returns.ofExcept_bind fun description _ => ?_
  -- the new object carries the component UUID
  let Made : ComponentRef → World → Prop := fun c w =>
    Pending r C w ∧ c < w.process.components.length ∧ (w.process.component c).uuid = C
  have hnew : Returns (Pending r C)
      (newComponent ⟨elt.attributeOrEmpty "name", C, description, []⟩) Made := by
    intro w hw c w1 hr
    cases hr
    refine ⟨⟨hw.coherent.newComponent _, ⟨hw.owns.exists_module, hw.owns.registered⟩, hw.known⟩,
      ?_, ?_⟩
    · show w.process.components.length < (w.process.components ++ [_]).length
      rw [List.length_append, List.length_singleton]
      exact Nat.lt_succ_self _
    · show ((w.process.newComponentObject _).component w.process.components.length).uuid = C
      rw [Process.component_new]
  refine Returns.bind hnew fun c => ?_
  have hmade : ∀ w w1, Made c w → w.SameMetadata w1 → Made c w1 := by
    rintro w w1 ⟨hp, hlt, huuid⟩ hs
    refine ⟨hp.same hs, ?_, ?_⟩
    · rw [hs.length]
      exact hlt
    · rw [hs.uuids]
      exact huuid
  refine Returns.bind (returns_metadata (metadata_declareAutoAlias _ _ _) hmade) fun _ => ?_
  have hadd : Returns (Made c) (modifyProcess fun p => p.addComponent r c) (fun _ => Ready r) := by
    refine Returns.modify ?_
    rintro w ⟨hp, hlt, huuid⟩
    exact hp.ready hlt huuid
  refine Returns.bind hadd fun _ => returns_metadata ?_ hsame
  exact keeps_processXmlNode fun child => metadata_declareInterfaceNode env c child

/-- Reading a UUID attribute changes nothing. -/
theorem returns_uuidOfAttribute {P : World → Prop} (env : Env) (elt : XMLElement)
    (name what : String) (msg : String → XmlErrorMessage) :
    Returns P (rethrowXpcf msg (uuidOfAttribute env elt name what))
      (fun uuid w => P w ∧ env.toUUID (elt.attributeOrEmpty name) = some uuid) := by
  refine returns_rethrowXpcf fun w hw uuid w1 h => ?_
  obtain ⟨huuid, rfl⟩ := uuidOfAttribute_ok_iff.mp h
  exact ⟨hw, huuid⟩

/-- A component element of a module whose object is registered. -/
theorem returns_declareComponent (env : Env) (r : ModuleRef) (elt : XMLElement) :
    Returns (Ready r) (declareComponent env r elt) (fun _ => Ready r) := by
  refine Returns.bind (returns_uuidOfAttribute env elt _ _ _) fun C => returns_rethrowXpcf ?_
  refine Returns.gets_bind fun known => ?_
  split
  · exact Returns.pure fun w hw => hw.1.1
  · exact (returns_declareNewComponent env r elt C).conseq (fun w hw => hw.1.1) fun _ _ h => h

/-- A component element whose component is known already. -/
theorem returns_declareComponent_known {P : World → Prop} (env : Env) (r : ModuleRef)
    (elt : XMLElement)
    (hknown : ∀ w C, P w → env.toUUID (elt.attributeOrEmpty "uuid") = some C →
      w.factory.registry.componentModuleUUIDMap.contains C = true) :
    Returns P (declareComponent env r elt) (fun _ => P) := by
  refine Returns.bind (returns_uuidOfAttribute env elt _ _ _) fun C => returns_rethrowXpcf ?_
  refine Returns.gets_bind fun known => ?_
  split
  · exact Returns.pure fun w hw => hw.1.1
  · rename_i hfalse
    rintro w ⟨⟨hw, hC⟩, rfl⟩
    exact absurd (hknown w C hw hC) hfalse

/-- Registering an object under a module UUID that is free. -/
theorem Registered.register {w : World} (h : RegistryCoherent w) {r : ModuleRef}
    (hr : r < w.process.modules.length)
    (hfree : w.factory.registry.modulesMap (w.process.module r).uuid = none) :
    Ready r (w.withRegistry
      (w.factory.registry.addModuleMetadata (w.process.module r).uuid r)) := by
  have hnew : w.factory.registry.addModuleMetadata (w.process.module r).uuid r =
      { w.factory.registry with
        modulesVector := w.factory.registry.modulesVector ++ [r]
        modulesMap := w.factory.registry.modulesMap.insert (w.process.module r).uuid r } := by
    unfold RegistryContext.addModuleMetadata
    rw [if_neg]
    rw [Table.not_contains_iff.mpr hfree]
    exact Bool.false_ne_true
  rw [hnew]
  refine ⟨⟨h.process, fun u r1 h1 => ?_, fun C u hC => .inr ?_⟩, hr, Table.insert_self _ _ _⟩
  · rcases Table.insert_eq_some h1 with ⟨_, rfl⟩ | hold
    · exact hr
    · exact h.modules u r1 hold
  · obtain ⟨r1, h1, hsome⟩ := (h.attached C u hC).resolve_left id
    exact ⟨r1, Table.insert_of_none hfree h1, hsome⟩

/-- A component element whose component is new belongs to a module that is not
registered yet. -/
def AttachesElement (env : Env) (w : World) (elt : XMLElement) : Prop :=
  ∀ moduleUUID, env.toUUID (elt.attributeOrEmpty "uuid") = some moduleUUID →
    w.factory.registry.modulesMap.contains moduleUUID = true →
    ∀ child ∈ elt.childElements "component", ∀ C,
      env.toUUID (child.attributeOrEmpty "uuid") = some C →
      w.factory.registry.componentModuleUUIDMap.contains C = true

theorem declareModule_coherent {env : Env} {elt : XMLElement} {w w1 : World}
    (hw : RegistryCoherent w) (hcond : AttachesElement env w elt)
    (h : declareModule env elt w = (.ok (), w1)) : RegistryCoherent w1 := by
  obtain ⟨moduleUUID, w2, huuid, hrest⟩ := bind_ok_iff.mp h
  obtain ⟨hm, rfl⟩ := uuidOfAttribute_ok_iff.mp (rethrowXpcf_ok_iff.mp huuid)
  obtain ⟨r, w3, hnew, hrest3⟩ := bind_ok_iff.mp (rethrowXpcf_ok_iff.mp hrest)
  cases hnew
  obtain ⟨_, w4, hadd, hloop⟩ := bind_ok_iff.mp hrest3
  let m := makeModuleMetadata env (elt.attributeOrEmpty "name") moduleUUID
    (elt.attributeOrEmpty "description") (elt.attr "path")
  let r := w2.process.modules.length
  have hmade : RegistryCoherent ⟨w2.factory, w2.process.addModule m⟩ := hw.newModule ⟨rfl, rfl⟩
  cases hadd
  by_cases hknown : w2.factory.registry.modulesMap.contains moduleUUID = true
  · -- all components are known: nothing is declared
    let Same : World → Prop := fun w3 => RegistryCoherent w3 ∧
      w3.factory.registry.componentModuleUUIDMap = w2.factory.registry.componentModuleUUIDMap
    have hpass : ∀ child ∈ elt.childElements "component",
        Returns Same (declareComponent env r child) (fun _ => Same) := by
      intro child hchild
      refine returns_declareComponent_known env r child fun w3 C h3 hC => ?_
      rw [h3.2]
      exact hcond moduleUUID hm hknown child hchild C hC
    simp only [hknown, if_true] at hloop
    exact (Returns.forEach_const hpass _ ⟨hmade, rfl⟩ () w1 hloop).1
  · have hpass : ∀ child ∈ elt.childElements "component",
        Returns (Ready r) (declareComponent env r child) (fun _ => Ready r) :=
      fun child _ => returns_declareComponent env r child
    have huuid : ((w2.process.addModule m).module r).uuid = moduleUUID := by
      rw [Process.module_addModule_new]
      rfl
    have hfree :
        w2.factory.registry.modulesMap ((w2.process.addModule m).module r).uuid = none := by
      rw [huuid]
      exact Table.not_contains_iff.mp (Bool.eq_false_iff.mpr hknown)
    have hlt : r < (w2.process.addModule m).modules.length := by
      show r < (w2.process.modules ++ [m]).length
      rw [List.length_append, List.length_singleton]
      exact Nat.lt_succ_self _
    have hready := hmade.register hlt hfree
    rw [huuid] at hready
    simp only [hknown] at hloop
    exact (Returns.forEach_const hpass _ hready () w1 hloop).1

/-! ## Introspected modules -/

/-- The object that was introspected for a library: its UUID is that of the
library, and its components come from the object the module manager had, or from
the index. -/
def introspectedUUIDs (env : Env) (p : Process) (lib : ModuleLibrary) (moduleUUID : Uuid) :
    List Uuid :=
  match p.moduleMap moduleUUID with
  | some r => (p.module r).components.map fun c => (p.component c).uuid
  | none => lib.index.filterMap fun entry => env.toUUID entry.1

/-- The new object while its index is read. -/
structure Indexed (r : ModuleRef) (f : Factory) (moduleUUID : Uuid) (uuids : List Uuid)
    (w : World) : Prop where
  coherent : RegistryCoherent w
  factory : w.factory = f
  exists_module : r < w.process.modules.length
  uuid : (w.process.module r).uuid = moduleUUID
  components : ∀ c ∈ (w.process.module r).components, (w.process.component c).uuid ∈ uuids

theorem toUUID_ok {env : Env} {text : String} {uuid : Uuid} (h : toUUID env text = .ok uuid) :
    env.toUUID text = some uuid := by
  unfold toUUID at h
  cases hparse : env.toUUID text with
  | some u =>
    rw [hparse] at h
    cases h
    rfl
  | none =>
    rw [hparse] at h
    cases h

theorem returns_declareIndexComponent {env : Env} {r : ModuleRef} {f : Factory} {moduleUUID : Uuid}
    {uuids : List Uuid} {entry : String × String × String}
    (hentry : ∀ uuid, env.toUUID entry.1 = some uuid → uuid ∈ uuids) :
    Returns (Indexed r f moduleUUID uuids) (declareIndexComponent env r entry)
      (fun _ => Indexed r f moduleUUID uuids) := by
  refine Returns.ofExcept_bind fun uuid huuid => ?_
  have hmem := hentry uuid (toUUID_ok huuid)
  let Made : ComponentRef → World → Prop := fun c w => Indexed r f moduleUUID uuids w ∧
    c < w.process.components.length ∧ (w.process.component c).uuid = uuid
  have hnew : Returns (Indexed r f moduleUUID uuids)
      (newComponent ⟨entry.2.1, uuid, entry.2.2, []⟩) Made := by
    intro w hw c w1 hr
    cases hr
    refine ⟨⟨hw.coherent.newComponent _, hw.factory, hw.exists_module, hw.uuid, ?_⟩, ?_, ?_⟩
    · intro c hc
      obtain ⟨hlt, _⟩ := hw.coherent.process.listed r c hc
      show ((w.process.newComponentObject _).component c).uuid ∈ uuids
      rw [Process.component_new_old hlt]
      exact hw.components c hc
    · show w.process.components.length < (w.process.components ++ [_]).length
      rw [List.length_append, List.length_singleton]
      exact Nat.lt_succ_self _
    · show ((w.process.newComponentObject _).component w.process.components.length).uuid = uuid
      rw [Process.component_new]
  refine Returns.bind hnew fun c => Returns.modify ?_
  rintro w ⟨hw, hlt, hc⟩
  obtain ⟨_, _, hlen⟩ := Process.addComponent_components w.process r c
  refine ⟨hw.coherent.addComponent hw.exists_module hlt, hw.factory, ?_, ?_, fun c1 h1 => ?_⟩
  · show r < (w.process.addComponent r c).modules.length
    rw [hlen]
    exact hw.exists_module
  · show ((w.process.addComponent r c).module r).uuid = moduleUUID
    rw [Process.uuid_addComponent hw.exists_module]
    exact hw.uuid
  · show ((w.process.addComponent r c).component c1).uuid ∈ uuids
    rw [Process.component_addComponent]
    have hlist : c1 ∈ ((w.process.addComponent r c).module r).components := h1
    rw [Process.module_addComponent_self hw.exists_module] at hlist
    split at hlist
    · exact hw.components c1 hlist
    · rcases List.mem_append.mp hlist with hold | hlast
      · exact hw.components c1 hold
      · rw [List.mem_singleton.mp hlast, hc]
        exact hmem

/-- What introspecting a library gives. -/
theorem introspectModule_ok {env : Env} {library : Except Exc ModuleLibrary} {w w1 : World}
    {r : ModuleRef} (hw : RegistryCoherent w) (h : introspectModule env library w = (.ok r, w1)) :
    ∃ lib moduleUUID, library = .ok lib ∧ env.toUUID lib.moduleUUID = some moduleUUID ∧
      Indexed r w.factory moduleUUID (introspectedUUIDs env w.process lib moduleUUID) w1 ∧
      (∀ r1, w.process.moduleMap moduleUUID = some r1 → r = r1) := by
  obtain ⟨lib, w2, hread, hrest⟩ := bind_ok_iff.mp h
  obtain ⟨hlib, rfl⟩ := ofExcept_ok_iff.mp hread
  obtain ⟨moduleUUID, w3, hparse, hrest3⟩ := bind_ok_iff.mp hrest
  obtain ⟨huuid, rfl⟩ := ofExcept_ok_iff.mp hparse
  refine ⟨lib, moduleUUID, hlib, toUUID_ok huuid, ?_⟩
  rw [gets_bind_run] at hrest3
  unfold introspectedUUIDs
  cases hknown : w3.process.moduleMap moduleUUID with
  | some r0 =>
    rw [hknown] at hrest3
    cases hrest3
    obtain ⟨hlt, hu⟩ := hw.process.known moduleUUID r hknown
    refine ⟨⟨hw, rfl, hlt, hu, fun c hc => ?_⟩, fun r1 h1 => Option.some.inj h1⟩
    exact List.mem_map.mpr ⟨c, hc, rfl⟩
  | none =>
    simp only [hknown] at hrest3
    refine ⟨?_, fun r1 h1 => by cases h1⟩
    obtain ⟨r2, w4, hnew, hrest4⟩ := bind_ok_iff.mp hrest3
    cases hnew
    obtain ⟨_, w5, hloop, hrest5⟩ := bind_ok_iff.mp hrest4
    obtain ⟨_, w6, hset, hret⟩ := bind_ok_iff.mp hrest5
    cases hset
    cases hret
    let m := makeModuleMetadata env lib.name moduleUUID lib.description lib.folder
    let r := w3.process.modules.length
    have hstart : Indexed r w3.factory moduleUUID
        (lib.index.filterMap fun entry => env.toUUID entry.1)
        ⟨w3.factory, w3.process.addModule m⟩ := by
      refine ⟨hw.newModule ⟨rfl, rfl⟩, rfl, ?_, ?_, fun c hc => ?_⟩
      · show r < (w3.process.modules ++ [m]).length
        rw [List.length_append, List.length_singleton]
        exact Nat.lt_succ_self _
      · show ((w3.process.addModule m).module r).uuid = moduleUUID
        rw [Process.module_addModule_new]
        rfl
      · have hnil : c ∈ ((w3.process.addModule m).module r).components := hc
        rw [Process.module_addModule_new] at hnil
        cases hnil
    have hpass : ∀ entry ∈ lib.index, ∀ uuid, env.toUUID entry.1 = some uuid →
        uuid ∈ lib.index.filterMap fun entry => env.toUUID entry.1 :=
      fun entry hentry uuid hu => List.mem_filterMap.mpr ⟨entry, hentry, hu⟩
    have hend := Returns.forEach_const
      (fun entry hentry => returns_declareIndexComponent (hpass entry hentry)) _ hstart () w5 hloop
    refine ⟨⟨⟨hend.coherent.process.carried, hend.coherent.process.listed, fun u r1 h1 => ?_⟩,
      hend.coherent.modules, hend.coherent.attached⟩, hend.factory, hend.exists_module, hend.uuid,
      hend.components⟩
    rcases Table.insert_eq_some h1 with ⟨rfl, rfl⟩ | hold
    · exact ⟨hend.exists_module, hend.uuid⟩
    · exact hend.coherent.process.known u r1 hold

/-- A component of an object that is in the object, and whose module UUID leads to
the object or is known already. -/
theorem returns_declareComponentMetadata {P : World → Prop} (env : Env) (r : ModuleRef)
    (c : ComponentRef) (hsame : ∀ w w1, P w → w.SameMetadata w1 → P w1)
    (hset : ∀ w, P w →
      w.factory.registry.componentModuleUUIDMap.contains (w.process.component c).uuid = false →
      P (w.withRegistry (w.factory.registry.setModuleUUID (w.process.component c).uuid
        (w.process.module r).uuid))) :
    Returns P (declareComponentMetadata env r c) (fun _ => P) := by
  refine Returns.gets_bind fun p => ?_
  have hmap : Returns (fun w => P w ∧ w.process = p)
      (modifyRegistry fun ctx =>
        if ctx.componentModuleUUIDMap.contains (p.component c).uuid then ctx
        else ctx.setModuleUUID (p.component c).uuid (p.module r).uuid) (fun _ => P) := by
    refine Returns.modify ?_
    rintro w ⟨hw, rfl⟩
    by_cases hknown : w.factory.registry.componentModuleUUIDMap.contains
        (w.process.component c).uuid = true
    · simp only [hknown, if_true]
      exact hw
    · have hfree := Bool.eq_false_iff.mpr hknown
      simp only [hfree]
      exact hset w hw hfree
  refine Returns.bind hmap fun _ => ?_
  refine Returns.bind (returns_metadata (metadata_declareAutoAlias _ _ _) hsame) fun _ => ?_
  have hcreate := metadata_of_processFrame (keeps_createModuleComponent env r (p.component c).uuid)
  refine Returns.bind (returns_metadata hcreate hsame) fun ref => returns_metadata ?_ hsame
  exact Keeps.forEach fun info _ => metadata_declareComponentInterface c _ info

/-- The object of a module that is not registered, or the registered object
itself, or an object without new components. -/
def AttachesObject (w : World) (r : ModuleRef) : Prop :=
  ∀ r0, w.factory.registry.modulesMap (w.process.module r).uuid = some r0 → r0 = r ∨
    ∀ c ∈ (w.process.module r).components,
      w.factory.registry.componentModuleUUIDMap.contains (w.process.component c).uuid = true

theorem declareModuleMetadata_coherent {env : Env} {r : ModuleRef} {w w1 : World}
    (hw : RegistryCoherent w) (hr : r < w.process.modules.length) (hcond : AttachesObject w r)
    (h : declareModuleMetadata env r w = (.ok (), w1)) : RegistryCoherent w1 := by
  unfold declareModuleMetadata at h
  rw [gets_bind_run] at h
  obtain ⟨_, w2, hadd, hloop⟩ := bind_ok_iff.mp h
  rw [modifyRegistry_run] at hadd
  cases hadd
  by_cases hready : w.factory.registry.modulesMap (w.process.module r).uuid = none ∨
      w.factory.registry.modulesMap (w.process.module r).uuid = some r
  · -- the object is the registered one from here on
    let Member : World → Prop := fun w3 => Ready r w3 ∧
      ∀ c ∈ (w.process.module r).components, c ∈ (w3.process.module r).components
    have hpass : ∀ c ∈ (w.process.module r).components,
        Returns Member (declareComponentMetadata env r c) (fun _ => Member) := by
      intro c hc
      refine returns_declareComponentMetadata env r c (fun w3 w4 h3 hs => ?_) fun w3 h3 hfree => ?_
      · refine ⟨h3.1.same hs, fun c1 h1 => ?_⟩
        rw [hs.module]
        exact h3.2 c1 h1
      · have hpending := h3.1.pending (w3.process.component c).uuid
        refine ⟨⟨⟨hpending.coherent.process, hpending.coherent.modules, fun C u hC => .inr ?_⟩,
          hpending.owns⟩, h3.2⟩
        rcases hpending.coherent.attached C u hC with rfl | hfound
        · obtain rfl : (w3.process.module r).uuid = u :=
            Option.some.inj (hpending.known.symm.trans hC)
          exact ⟨r, h3.1.2.registered, (h3.1.1.process.listed r c (h3.2 c hc)).2⟩
        · exact hfound
    have hstart : Ready r (w.withRegistry
        (w.factory.registry.addModuleMetadata (w.process.module r).uuid r)) := by
      rcases hready with hnone | hsome
      · exact hw.register hr hnone
      · have hsame : w.factory.registry.addModuleMetadata (w.process.module r).uuid r =
            w.factory.registry := if_pos (Table.contains_of_some hsome)
        rw [hsame]
        exact ⟨hw, hr, hsome⟩
    exact (Returns.forEach_const hpass _ ⟨hstart, fun c hc => hc⟩ () w1 hloop).1.1
  · -- another object is registered: nothing new is declared
    obtain ⟨r0, hr0⟩ : ∃ r0, w.factory.registry.modulesMap (w.process.module r).uuid = some r0 := by
      cases h0 : w.factory.registry.modulesMap (w.process.module r).uuid with
      | none => exact absurd (.inl h0) hready
      | some r0 => exact ⟨r0, rfl⟩
    have hknown := (hcond r0 hr0).resolve_left fun heq => hready (.inr (heq ▸ hr0))
    have hsame : w.factory.registry.addModuleMetadata (w.process.module r).uuid r =
        w.factory.registry := if_pos (Table.contains_of_some hr0)
    rw [hsame] at hloop
    let Known : World → Prop := fun w3 => RegistryCoherent w3 ∧
      ∀ c ∈ (w.process.module r).components,
        w3.factory.registry.componentModuleUUIDMap.contains (w3.process.component c).uuid = true
    have hpass : ∀ c ∈ (w.process.module r).components,
        Returns Known (declareComponentMetadata env r c) (fun _ => Known) := by
      intro c hc
      refine returns_declareComponentMetadata env r c (fun w3 w4 h3 hs => ?_) fun w3 h3 hfree => ?_
      · refine ⟨h3.1.same hs, fun c1 h1 => ?_⟩
        rw [hs.moduleUUIDs, hs.uuids]
        exact h3.2 c1 h1
      · rw [h3.2 c hc] at hfree
        cases hfree
    exact (Returns.forEach_const hpass _ ⟨hw, hknown⟩ () w1 hloop).1

/-! ## Sequences of declarations -/

/-- The two kinds of declaration. -/
inductive RegistryCall where
  | declareModule (xmlModuleElt : XMLElement)
  | declareModuleMetadata (library : Except Exc ModuleLibrary)

def RegistryCall.run (env : Env) : RegistryCall → XpcfM Unit
  | .declareModule xmlModuleElt => Xpcf.declareModule env xmlModuleElt
  | .declareModuleMetadata library => do
    let r ← introspectModule env library
    Xpcf.declareModuleMetadata env r

/-- A library with a new component belongs to a module that is not registered
yet, or that is registered with the object of the module manager. -/
def AttachesLibrary (env : Env) (w : World) (library : Except Exc ModuleLibrary) : Prop :=
  ∀ lib moduleUUID, library = .ok lib → env.toUUID lib.moduleUUID = some moduleUUID →
    ∀ r0, w.factory.registry.modulesMap moduleUUID = some r0 →
      w.process.moduleMap moduleUUID = some r0 ∨
        ∀ C ∈ introspectedUUIDs env w.process lib moduleUUID,
          w.factory.registry.componentModuleUUIDMap.contains C = true

/-- The call gives no new component to a module UUID that another metadata object
is registered for. -/
def RegistryCall.Attaches (env : Env) (w : World) : RegistryCall → Prop
  | .declareModule xmlModuleElt => AttachesElement env w xmlModuleElt
  | .declareModuleMetadata library => AttachesLibrary env w library

/-- One declaration. -/
theorem RegistryCall.run_coherent {env : Env} {call : RegistryCall} {w w1 : World}
    (hw : RegistryCoherent w) (hcond : call.Attaches env w) (h : call.run env w = (.ok (), w1)) :
    RegistryCoherent w1 := by
  cases call with
  | declareModule elt => exact declareModule_coherent hw hcond h
  | declareModuleMetadata library =>
    obtain ⟨r, w2, hintro, hdeclare⟩ := bind_ok_iff.mp h
    obtain ⟨lib, moduleUUID, hlib, hm, hindexed, hmanager⟩ := introspectModule_ok hw hintro
    refine declareModuleMetadata_coherent hindexed.coherent hindexed.exists_module ?_ hdeclare
    intro r0 hr0
    rw [hindexed.uuid, hindexed.factory] at hr0
    rcases hcond lib moduleUUID hlib hm r0 hr0 with hsame | hknown
    · exact .inl (hmanager r0 hsame).symm
    · refine .inr fun c hc => ?_
      rw [hindexed.factory]
      exact hknown _ (hindexed.components c hc)

/-- The worlds that successful declarations lead to, each of which attaches its
new components to a registered object. -/
inductive Declared (env : Env) (w0 : World) : World → Prop where
  | start : Declared env w0 w0
  | call {w w1 : World} (h : Declared env w0 w) (call : RegistryCall)
      (hcond : call.Attaches env w) (hok : call.run env w = (.ok (), w1)) : Declared env w0 w1

/-- Every component the registry knows leads to a registered module and to
metadata that carries its UUID. -/
def World.Traceable (w : World) : Prop :=
  ∀ C moduleUUID, w.factory.registry.componentModuleUUIDMap C = some moduleUUID →
    getModuleUUID w.factory.registry C = .ok moduleUUID ∧
      (∃ r, findModuleMetadata w.factory.registry moduleUUID = .ok r) ∧
      ∃ c, findComponentMetadata w.factory.registry w.process C = .ok (some c) ∧
        (w.process.component c).uuid = C

theorem Registered.traceable {w : World} (h : RegistryCoherent w) : w.Traceable := by
  intro C moduleUUID hC
  obtain ⟨r, hr, hsome⟩ := (h.attached C moduleUUID hC).resolve_left id
  obtain ⟨c, hc⟩ := Option.isSome_iff_exists.mp hsome
  have hmodule : getModuleUUID w.factory.registry C = .ok moduleUUID := by
    unfold getModuleUUID
    rw [hC]
  have hfind : findModuleMetadata w.factory.registry moduleUUID = .ok r := by
    unfold findModuleMetadata
    rw [hr]
  refine ⟨hmodule, ⟨r, hfind⟩, c, ?_, (h.process.carried r C c hc).2⟩
  show (do
    let moduleUUID ← getModuleUUID w.factory.registry C
    let r ← findModuleMetadata w.factory.registry moduleUUID
    pure (w.process.getComponentMetadata r C) : Except Exc (Option ComponentRef)) = _
  rw [hmodule]
  show (do
    let r ← findModuleMetadata w.factory.registry moduleUUID
    pure (w.process.getComponentMetadata r C) : Except Exc (Option ComponentRef)) = _
  rw [hfind]
  exact congrArg Except.ok hc

/-- The constructor of the factory declares nothing. -/
theorem sameMetadata_constructed (p : Process) :
    World.SameMetadata ⟨Factory.fresh, p⟩ (World.constructed p) := by
  unfold World.constructed Process.afterConstruction
  dsimp only
  exact ⟨rfl, rfl, rfl, rfl, rfl, fun _ => rfl⟩

/-- From a new factory, every sequence of successful declarations whose steps
attach their components leaves each known component traceable. -/
theorem traceable_of_declared {env : Env} {p : Process} {w : World} (hp : p.Coherent)
    (h : Declared env (World.constructed p) w) : w.Traceable := by
  have hcoherent : RegistryCoherent w := by
    induction h with
    | start =>
      refine Registered.same (w := ⟨Factory.fresh, p⟩) ⟨hp, fun u r hr => ?_, fun C u hC => ?_⟩
        (sameMetadata_constructed p)
      · cases hr
      · cases hC
    | call _ call hcond hok ih => exact call.run_coherent ih hcond hok
  exact hcoherent.traceable

/-- Module 1 with one component. -/
def moduleElement (componentText : String) : XMLElement :=
  .mk "module" [("uuid", uuidText1), ("name", "m"), ("path", "p"), ("description", "")] none
    [.mk "component" [("uuid", componentText), ("name", "c"), ("description", "")] none []]

/-- The world after a file declared module 1 with component 2. -/
def oneModuleWorld : World :=
  (declareModule (Env.simple []) (moduleElement uuidText2) World.initial).2

/-- Declaring the same module with the same component again changes nothing. -/
theorem traceable_same_module :
    (declareModule (Env.simple []) (moduleElement uuidText2) oneModuleWorld).2.Traceable := by
  have hfirst : (RegistryCall.declareModule (moduleElement uuidText2)).Attaches (Env.simple [])
      World.initial := by
    intro moduleUUID _ hknown
    cases hknown
  have hsecond : (RegistryCall.declareModule (moduleElement uuidText2)).Attaches (Env.simple [])
      oneModuleWorld := by
    intro moduleUUID _ _ child hchild C hC
    obtain rfl := List.mem_singleton.mp hchild
    cases hC
    rfl
  exact traceable_of_declared Process.coherent_initial
    (.call (.call .start (.declareModule (moduleElement uuidText2)) hfirst rfl)
      (.declareModule (moduleElement uuidText2)) hsecond rfl)

/-- A second file that adds component 3 to module 1: both declarations succeed,
the component has a module UUID, and no metadata is found for it. -/
theorem added_component_not_found :
    let w := (declareModule (Env.simple []) (moduleElement uuidText3) oneModuleWorld).2
    declareModule (Env.simple []) (moduleElement uuidText2) World.initial =
        (.ok (), oneModuleWorld) ∧
      declareModule (Env.simple []) (moduleElement uuidText3) oneModuleWorld = (.ok (), w) ∧
      getModuleUUID w.factory.registry 3 = .ok 1 ∧
      findComponentMetadata w.factory.registry w.process 3 = .ok none ∧ ¬ w.Traceable := by
  refine ⟨rfl, rfl, rfl, rfl, fun htraceable => ?_⟩
  obtain ⟨_, _, c, hc, _⟩ := htraceable 3 1 rfl
  cases hc

end Xpcf
