import Xpcf.Proofs.Retries
import Xpcf.Proofs.XmlViews

/-!
# Saved modules are found again

`saveModuleInformations` writes what is known of a module: its metadata, and for each
component the interfaces that an instance tells (`Saves`).  Calls for several modules
and one file leave a file that `loadLibrary` declares: each module whose call answered
`_SUCCESS` is registered, and each of its components is found in it, with the
interfaces that its instance told.

* `saveModules_run`: the file holds the modules that were saved, whatever else failed;
* `savedModules_found`: what the factory declares for such a file.
-/

namespace Xpcf

open CodeLib CodeLib.Exec TinyXml

/-! ## What is saved of a module -/

/-- The metadata of a module and of its components, each with the interfaces that an
instance told. -/
structure SavedModule where
  metadata : ModuleMetadata
  components : List (ComponentMetadata × List InterfaceMetadata)

namespace SavedModule

def element (m : SavedModule) : XMLElement :=
  xmlModuleElt m.metadata (m.components.map fun c => xmlComponentElt c.1 c.2)

end SavedModule

/-- The interface list is that of an instance created between the two worlds. -/
def Told (env : Env) (w w1 : World) (c : ComponentMetadata × List InterfaceMetadata) : Prop :=
  ∃ inst, Event.created c.1.uuid (.ok inst) ∈ w.newEvents w1 ∧ c.2 = getInterfaces env inst

/-- The module object is saved with its components in their order. -/
structure Saves (env : Env) (r : ModuleRef) (w w1 : World) (m : SavedModule) : Prop where
  metadata : m.metadata = w.process.module r
  components : m.components.map (·.1) =
    (w.process.module r).components.map w.process.component
  told : ∀ c ∈ m.components, Told env w w1 c

theorem Told.mono {env : Env} {w w1 w2 w3 : World}
    {c : ComponentMetadata × List InterfaceMetadata} (h : w.process.log <+: w1.process.log)
    (h1 : w2.process.log <+: w3.process.log) (htold : Told env w1 w2 c) : Told env w w3 c := by
  obtain ⟨inst, hevent, hlist⟩ := htold
  exact ⟨inst, World.newEvents_mono h h1 hevent, hlist⟩

/-! ## Creating the components -/

section Saving

variable {env : Env} {r : ModuleRef} {w w1 w2 w3 : World}

theorem keeps_getComponentInterfaceList (env : Env) (r : ModuleRef) (componentUUID : Uuid) :
    Keeps processFrame (getComponentInterfaceList env r componentUUID) :=
  Keeps.bind (keeps_createModuleComponent env r componentUUID) fun _ => Keeps.pure _

theorem keeps_componentElements (env : Env) (r : ModuleRef) (cs : List ComponentRef) :
    Keeps processFrame (componentElements env r cs) := by
  induction cs with
  | nil => exact Keeps.pure _
  | cons c cs ih =>
    refine Keeps.bind (Keeps.gets _) fun p => ?_
    refine Keeps.bind (keeps_getComponentInterfaceList env r _) fun l => ?_
    exact Keeps.bind ih fun _ => Keeps.pure _

theorem keeps_moduleNode (env : Env) (r : ModuleRef) : Keeps processFrame (moduleNode env r) := by
  refine Keeps.bind (Keeps.gets _) fun p => ?_
  exact Keeps.bind (keeps_componentElements env r _) fun _ => Keeps.pure _

/-- Whatever comes of it, the factory and the metadata stay. -/
theorem keeps_saveModuleInformations (env : Env) (r : ModuleRef) (file : Option Bytes) :
    Keeps processFrame (saveModuleInformations env r file) := by
  refine Keeps.tryCatch (Keeps.bind (keeps_moduleNode env r) fun _ => Keeps.pure _) fun e => ?_
  split
  · exact Keeps.pure _
  · exact Keeps.throw _

theorem getComponentInterfaceList_ok {componentUUID : Uuid} {l : List InterfaceMetadata}
    (h : getComponentInterfaceList env r componentUUID w = (.ok l, w1)) :
    ∃ inst, Event.created componentUUID (.ok inst) ∈ w.newEvents w1 ∧
      l = getInterfaces env inst := by
  obtain ⟨inst, w2, hcreate, hlist⟩ := bind_ok_iff.mp h
  cases hlist
  refine ⟨inst, World.mem_newEvents_append [] ?_, rfl⟩
  rw [(createModuleComponent_ok hcreate).2, List.append_nil]

theorem componentElements_ok {cs : List ComponentRef} {elements : List XMLElement}
    (h : componentElements env r cs w = (.ok elements, w1)) :
    ∃ components : List (ComponentMetadata × List InterfaceMetadata),
      components.map (·.1) = cs.map w.process.component ∧
      elements = components.map (fun c => xmlComponentElt c.1 c.2) ∧
      ∀ c ∈ components, Told env w w1 c := by
  induction cs generalizing w elements with
  | nil =>
    cases h
    exact ⟨[], rfl, rfl, List.forall_mem_nil _⟩
  | cons c cs ih =>
    have hstep : (do
        let interfaceList ← getComponentInterfaceList env r (w.process.component c).uuid
        let elements ← componentElements env r cs
        pure (xmlComponentElt (w.process.component c) interfaceList :: elements))
          w = (.ok elements, w1) := h
    obtain ⟨l, w2, hlist, hafter⟩ := bind_ok_iff.mp hstep
    obtain ⟨rest, w3, hrest, hpure⟩ := bind_ok_iff.mp hafter
    cases hpure
    have hfirst := (keeps_getComponentInterfaceList env r _).of_run trivial hlist
    have hlater := (keeps_componentElements env r cs).of_run trivial hrest
    obtain ⟨components, hmap, rfl, htold⟩ := ih hrest
    have hsame : w2.process.component = w.process.component := by
      funext c1
      unfold Process.component
      rw [hfirst.2.components]
    rw [hsame] at hmap
    refine ⟨(w.process.component c, l) :: components, by simp [hmap], rfl, ?_⟩
    refine List.forall_mem_cons.mpr ⟨?_, fun c1 hc1 => ?_⟩
    · obtain ⟨inst, hevent, hinst⟩ := getComponentInterfaceList_ok hlist
      exact ⟨inst, World.newEvents_mono (List.prefix_refl _) hlater.2.log hevent, hinst⟩
    · exact (htold c1 hc1).mono hfirst.2.log (List.prefix_refl _)

theorem moduleNode_ok {elt : XMLElement} (h : moduleNode env r w = (.ok elt, w1)) :
    ∃ m, elt = SavedModule.element m ∧ Saves env r w w1 m := by
  have hstep : (do
      let components ← componentElements env r (w.process.module r).components
      pure (xmlModuleElt (w.process.module r) components)) w = (.ok elt, w1) := h
  obtain ⟨elements, w2, helements, hpure⟩ := bind_ok_iff.mp hstep
  cases hpure
  obtain ⟨components, hmap, rfl, htold⟩ := componentElements_ok helements
  exact ⟨⟨w.process.module r, components⟩, rfl, rfl, hmap, htold⟩

/-- The two ways in which a call returns. -/
theorem saveModuleInformations_ok {file file1 : Option Bytes} {code : XPCFErrorCode}
    (h : saveModuleInformations env r file w = (.ok (some (code, file1)), w1)) :
    (code = .success ∧ ∃ m, Saves env r w w1 m ∧ ∃ bytes, file1 = some bytes ∧
      updateFile (.ofString "xpcf-registry") (SavedModule.element m).toNode file = some bytes) ∨
    (code = .fail ∧ file1 = file) := by
  unfold saveModuleInformations at h
  rw [tryCatch_run] at h
  cases hnode : moduleNode env r w with
  | mk out w2 =>
    cases out with
    | ok elt =>
      rw [bind_run_of_ok hnode] at h
      obtain ⟨m, rfl, hm⟩ := moduleNode_ok hnode
      cases hupdate :
          updateFile (.ofString "xpcf-registry") (SavedModule.element m).toNode file with
      | none =>
        rw [hupdate] at h
        cases h
      | some bytes =>
        rw [hupdate] at h
        cases h
        exact .inl ⟨rfl, m, hm, bytes, rfl, hupdate⟩
    | throws e =>
      rw [bind_run, hnode] at h
      dsimp only at h
      split at h
      · cases h
        exact .inr ⟨rfl, rfl⟩
      · cases h
    | diverges =>
      rw [bind_run, hnode] at h
      cases h
    | undefined =>
      rw [bind_run, hnode] at h
      cases h

end Saving

/-! ## Several modules in one file -/

/-- A call for one module after the other; the codes and the file afterwards. -/
def saveModules (env : Env) : List ModuleRef → Option Bytes →
    XpcfM (Option (List XPCFErrorCode × Option Bytes))
  | [], file => pure (some ([], file))
  | r :: rs, file => do
    let saved ← saveModuleInformations env r file
    match saved with
    | none => pure none
    | some (code, file1) => do
      let rest ← saveModules env rs file1
      pure (rest.map fun s => (code :: s.1, s.2))

/-- The modules whose calls answered `_SUCCESS`. -/
def succeeded (rs : List ModuleRef) (codes : List XPCFErrorCode) : List ModuleRef :=
  ((rs.zip codes).filter fun s => s.2 = .success).map (·.1)

theorem Saves.mono {env : Env} {r : ModuleRef} {w w1 w2 w3 : World} {m : SavedModule}
    (h : processFrame.rel w w1) (h1 : processFrame.rel w2 w3) (hm : Saves env r w1 w2 m) :
    Saves env r w w3 m := by
  have hmodule : w1.process.module r = w.process.module r := by
    unfold Process.module
    rw [h.2.modules]
  have hcomponent : w1.process.component = w.process.component := by
    funext c
    unfold Process.component
    rw [h.2.components]
  refine ⟨hm.metadata.trans hmodule, ?_, fun c hc => (hm.told c hc).mono h.2.log h1.2.log⟩
  rw [hm.components, hmodule, hcomponent]

theorem keeps_saveModules (env : Env) (rs : List ModuleRef) (file : Option Bytes) :
    Keeps processFrame (saveModules env rs file) := by
  induction rs generalizing file with
  | nil => exact Keeps.pure _
  | cons r rs ih =>
    refine Keeps.bind (keeps_saveModuleInformations env r file) fun saved => ?_
    split
    · exact Keeps.pure _
    · exact Keeps.bind (ih _) fun _ => Keeps.pure _

/-- The file is that of the updates for the modules that were saved. -/
theorem saveModules_run {env : Env} {rs : List ModuleRef} {file file1 : Option Bytes}
    {codes : List XPCFErrorCode} {w w1 : World}
    (h : saveModules env rs file w = (.ok (some (codes, file1)), w1)) :
    ∃ ms, List.Forall₂ (fun r m => Saves env r w w1 m) (succeeded rs codes) ms ∧
      updateFiles (.ofString "xpcf-registry") (toNodes (ms.map SavedModule.element)) file =
        some file1 := by
  induction rs generalizing file codes w with
  | nil =>
    cases h
    exact ⟨[], .nil, rfl⟩
  | cons r rs ih =>
    obtain ⟨saved, w2, hsave, hafter⟩ := bind_ok_iff.mp h
    have hfirst := (keeps_saveModuleInformations env r file).of_run trivial hsave
    cases saved with
    | none => cases hafter
    | some saved =>
      obtain ⟨code, file2⟩ := saved
      obtain ⟨rest, w3, hrest, hpure⟩ := bind_ok_iff.mp hafter
      cases rest with
      | none => cases hpure
      | some rest =>
        obtain ⟨codes2, file3⟩ := rest
        cases hpure
        have hlater := (keeps_saveModules env rs file2).of_run trivial hrest
        obtain ⟨ms, hms, hupdates⟩ := ih hrest
        have hms1 : List.Forall₂ (fun r m => Saves env r w w1 m) (succeeded rs codes2) ms :=
          hms.imp fun r m hm => hm.mono hfirst (processFrame.refl _)
        rcases saveModuleInformations_ok hsave with
          ⟨rfl, m, hm, bytes, rfl, hupdate⟩ | ⟨rfl, rfl⟩
        · refine ⟨m :: ms, .cons (hm.mono (processFrame.refl _) hlater) hms1, ?_⟩
          rw [List.map_cons, toNodes, updateFiles, hupdate]
          exact hupdates
        · exact ⟨ms, hms1, hupdates⟩

/-! ## Reading the nodes back -/

namespace SavedModule

def interfaceNode (i : InterfaceMetadata) : InterfaceNode := ⟨i.uuid, i.name, some i.description⟩

def componentNode (c : ComponentMetadata × List InterfaceMetadata) : ComponentNode :=
  ⟨c.1.uuid, c.1.name, some c.1.description, c.2.map interfaceNode⟩

def nodes (m : SavedModule) : List ComponentNode := m.components.map componentNode

def componentUUIDs (m : SavedModule) : List Uuid := m.components.map (·.1.uuid)

/-- The metadata that is read of a component: the UUIDs of its interfaces are those
that were told. -/
def found (c : ComponentMetadata × List InterfaceMetadata) : ComponentMetadata :=
  ⟨c.1.name, c.1.uuid, c.1.description, c.2.map (·.uuid)⟩

theorem metadata_componentNode (c : ComponentMetadata × List InterfaceMetadata) :
    (componentNode c).metadata = found c := by
  unfold componentNode found ComponentNode.metadata
  rw [List.map_map]
  rfl

theorem firstComponent_nodes {m : SavedModule} (h : m.componentUUIDs.Nodup)
    {c : ComponentMetadata × List InterfaceMetadata} (hc : c ∈ m.components) :
    firstComponent m.nodes c.1.uuid = some (componentNode c) := by
  obtain ⟨metadata, cs⟩ := m
  induction cs with
  | nil => cases hc
  | cons c1 cs ih =>
    obtain ⟨hnew, hrest⟩ : c1.1.uuid ∉ cs.map (·.1.uuid) ∧ (cs.map (·.1.uuid)).Nodup :=
      List.nodup_cons.mp h
    rcases List.mem_cons.mp hc with rfl | hc1
    · exact List.find?_cons_of_pos (decide_eq_true rfl)
    · have hne : ¬ c1.1.uuid = c.1.uuid := fun heq =>
        hnew (List.mem_map.mpr ⟨c, hc1, heq.symm⟩)
      have hskip : firstComponent (nodes ⟨metadata, c1 :: cs⟩) c.1.uuid =
          firstComponent (nodes ⟨metadata, cs⟩) c.1.uuid :=
        List.find?_cons_of_neg fun heq => hne (of_decide_eq_true heq)
      rw [hskip]
      exact ih hrest hc1

theorem firstComponent_nodes_of_notMem {m : SavedModule} {C : Uuid} (h : C ∉ m.componentUUIDs) :
    firstComponent m.nodes C = none := by
  refine List.find?_eq_none.mpr fun n hn => ?_
  obtain ⟨c, hc, rfl⟩ := List.mem_map.mp hn
  exact fun heq => h (List.mem_map.mpr ⟨c, hc, of_decide_eq_true heq⟩)

end SavedModule

section Reading

variable {env : Env} (hprint : ∀ u : Uuid, env.toUUID u.toString = some u)

theorem childElements_of_value {value name : String} {attributes : List (String × String)}
    {children : List XMLElement} (h : ∀ child ∈ children, child.value = name) :
    (XMLElement.mk value attributes none children).childElements name = children :=
  List.filter_eq_self.mpr fun child hchild => decide_eq_true (h child hchild)

include hprint

theorem readInterfaces_saved (l : List InterfaceMetadata) :
    readInterfaces env (l.map xmlInterfaceElt) = (l.map SavedModule.interfaceNode, true) := by
  induction l with
  | nil => rfl
  | cons i l ih =>
    have huuid : env.toUUID ((xmlInterfaceElt i).attributeOrEmpty "uuid") = some i.uuid :=
      hprint i.uuid
    rw [List.map_cons, readInterfaces, huuid, ih]
    rfl

/-- New components with different UUIDs are all read. -/
theorem readComponents_saved {known : Uuid → Bool}
    {cs : List (ComponentMetadata × List InterfaceMetadata)}
    (hnew : ∀ c ∈ cs, known c.1.uuid = false) (hdistinct : (cs.map (·.1.uuid)).Nodup) :
    readComponents env known (cs.map fun c => xmlComponentElt c.1 c.2) =
      (cs.map SavedModule.componentNode, true) := by
  induction cs generalizing known with
  | nil => rfl
  | cons c cs ih =>
    obtain ⟨hfirst, hrest⟩ := List.forall_mem_cons.mp hnew
    obtain ⟨hnotin, hdistinct1⟩ := List.nodup_cons.mp hdistinct
    have huuid : env.toUUID ((xmlComponentElt c.1 c.2).attributeOrEmpty "uuid") = some c.1.uuid :=
      hprint c.1.uuid
    have hinterfaces : readInterfaces env
        ((xmlComponentElt c.1 c.2).childElements "interface") =
        (c.2.map SavedModule.interfaceNode, true) := by
      rw [← readInterfaces_saved hprint c.2]
      refine congrArg _ (childElements_of_value fun child hchild => ?_)
      obtain ⟨i, -, rfl⟩ := List.mem_map.mp hchild
      rfl
    have hlater : ∀ c1 ∈ cs, see known c.1.uuid c1.1.uuid = false := by
      intro c1 hc1
      have hne : ¬ c1.1.uuid = c.1.uuid := fun heq => hnotin (List.mem_map.mpr ⟨c1, hc1, heq⟩)
      simp [see, hne, hrest c1 hc1]
    have hnode : readNewComponent env (xmlComponentElt c.1 c.2) c.1.uuid =
        SavedModule.componentNode c := by
      unfold readNewComponent
      rw [hinterfaces]
      rfl
    rw [List.map_cons, readComponents, huuid]
    simp only [hfirst, Bool.false_eq_true, if_false, hinterfaces, if_true, ih hlater hdistinct1,
      hnode]
    rfl

theorem readModule_saved {m : SavedModule} {w : World} (hdistinct : m.componentUUIDs.Nodup)
    (hnew : ∀ C ∈ m.componentUUIDs, w.factory.registry.componentModuleUUIDMap C = none) :
    w.readModule env m.element = (m.nodes, true) := by
  have hunknown : ∀ c ∈ m.components,
      w.factory.registry.componentModuleUUIDMap.contains c.1.uuid = false :=
    fun c hc => Table.not_contains_iff.mpr (hnew _ (List.mem_map.mpr ⟨c, hc, rfl⟩))
  unfold World.readModule SavedModule.nodes
  rw [← readComponents_saved hprint hunknown hdistinct]
  refine congrArg _ (childElements_of_value fun child hchild => ?_)
  obtain ⟨c, -, rfl⟩ := List.mem_map.mp hchild
  rfl

/-- The declaration of a saved module whose UUIDs are new. -/
theorem declareModule_saved {m : SavedModule} {w : World} (hw : w.Allocated)
    (hdistinct : m.componentUUIDs.Nodup)
    (hnew : ∀ C ∈ m.componentUUIDs, w.factory.registry.componentModuleUUIDMap C = none) :
    ∃ w1, declareModule env m.element w = (.ok (), w1) ∧
      ModuleDeclared m.metadata.uuid m.nodes w w1 := by
  have huuid : env.toUUID (m.element.attributeOrEmpty "uuid") = some m.metadata.uuid :=
    hprint m.metadata.uuid
  have hreads := readsNodes_declareModule hw huuid
  rw [readModule_saved hprint hdistinct hnew] at hreads
  have hdescribed : ModuleDescribed w.factory.registry.interfacesMap m.nodes := by
    refine ⟨fun n hn => ?_, fun I n _ hn => ?_⟩
    · obtain ⟨c, -, rfl⟩ := List.mem_map.mp hn
      rfl
    · obtain ⟨hlisted, -⟩ := firstInterface_some hn
      obtain ⟨n1, hn1, hin⟩ := List.mem_flatMap.mp hlisted
      obtain ⟨c, -, rfl⟩ := List.mem_map.mp hn1
      obtain ⟨i, -, rfl⟩ := List.mem_map.mp hin
      rfl
  obtain ⟨w1, hrun⟩ := hreads.returns_iff.mpr ⟨rfl, hdescribed⟩
  exact ⟨w1, hrun, (hreads.of_ok hrun).2.2⟩

end Reading

/-! ## Declaring the modules of a file -/

/-- The UUIDs of all the components. -/
def savedUUIDs (ms : List SavedModule) : List Uuid := ms.flatMap SavedModule.componentUUIDs

/-- The modules have been declared: each is registered with an object that has its
components, and nothing else has changed. -/
structure SavedDeclared (ms : List SavedModule) (w w1 : World) : Prop where
  allocated : w1.Allocated
  length : w.process.modules.length ≤ w1.process.modules.length
  found : ∀ m ∈ ms, ∃ r, w1.factory.registry.modulesMap m.metadata.uuid = some r ∧
    ∀ c ∈ m.components, w1.metadataIn r c.1.uuid = some (SavedModule.found c)
  moduleUUIDs : ∀ m ∈ ms, ∀ C ∈ m.componentUUIDs,
    w1.factory.registry.componentModuleUUIDMap C = some m.metadata.uuid
  otherModules : ∀ M, M ∉ ms.map (·.metadata.uuid) →
    w1.factory.registry.modulesMap M = w.factory.registry.modulesMap M
  otherComponents : ∀ C, C ∉ savedUUIDs ms →
    w1.factory.registry.componentModuleUUIDMap C = w.factory.registry.componentModuleUUIDMap C
  otherObjects : ∀ r, r < w.process.modules.length → ∀ C, w1.metadataIn r C = w.metadataIn r C
  interfaces : ∀ I, findInterfaceMetadata w1.factory.registry I =
    (findInterfaceMetadata w.factory.registry I).or
      ((firstInterface (ms.flatMap fun m => listedInterfaces m.nodes) I).map (·.metadata))

namespace SavedDeclared

variable {w w1 w2 : World} {ms : List SavedModule} {m : SavedModule}

theorem nil (hw : w.Allocated) : SavedDeclared [] w w := by
  refine ⟨hw, Nat.le_refl _, List.forall_mem_nil _, List.forall_mem_nil _, fun _ _ => rfl,
    fun _ _ => rfl, fun _ _ _ => rfl, fun I => ?_⟩
  exact (Option.or_none).symm

theorem single (h : ModuleDeclared m.metadata.uuid m.nodes w w1)
    (hdistinct : m.componentUUIDs.Nodup)
    (hmodule : w.factory.registry.modulesMap m.metadata.uuid = none)
    (hnew : ∀ C ∈ m.componentUUIDs, w.factory.registry.componentModuleUUIDMap C = none) :
    SavedDeclared [m] w w1 := by
  refine ⟨h.allocated, by rw [h.length]; exact Nat.le_succ _, ?_, ?_, fun M hM => ?_,
    fun C hC => ?_, fun r hr C => h.metadataIn_old hr C, fun I => ?_⟩
  · refine List.forall_mem_singleton.mpr ⟨w.process.modules.length, ?_, fun c hc => ?_⟩
    · rw [h.modulesMap_apply, hmodule, Option.none_or, if_pos rfl]
    · rw [h.metadataIn_new, SavedModule.firstComponent_nodes hdistinct hc, Option.map_some,
        SavedModule.metadata_componentNode]
  · refine List.forall_mem_singleton.mpr fun C hC => ?_
    obtain ⟨c, hc, rfl⟩ := List.mem_map.mp hC
    rw [h.moduleUUIDs_apply, hnew _ hC, Option.none_or,
      SavedModule.firstComponent_nodes hdistinct hc, Option.map_some]
  · have hne : M ≠ m.metadata.uuid := fun heq => hM (List.mem_singleton.mpr heq)
    rw [h.modulesMap_apply, if_neg hne, Option.or_none]
  · have hnotin : C ∉ m.componentUUIDs := by
      rwa [savedUUIDs, List.flatMap_singleton] at hC
    rw [h.moduleUUIDs_apply, SavedModule.firstComponent_nodes_of_notMem hnotin, Option.map_none,
      Option.or_none]
  · rw [h.interface_apply, List.flatMap_singleton]
    rfl

/-- Declaring other modules afterwards changes nothing for the first one. -/
theorem cons (h : SavedDeclared [m] w w1) (h1 : SavedDeclared ms w1 w2)
    (hmodule : m.metadata.uuid ∉ ms.map (·.metadata.uuid))
    (hcomponents : ∀ C ∈ m.componentUUIDs, C ∉ savedUUIDs ms) : SavedDeclared (m :: ms) w w2 := by
  refine ⟨h1.allocated, Nat.le_trans h.length h1.length, ?_, ?_, fun M hM => ?_, fun C hC => ?_,
    fun r hr C => ?_, fun I => ?_⟩
  · refine List.forall_mem_cons.mpr ⟨?_, h1.found⟩
    obtain ⟨r, hr, hfound⟩ := h.found m List.mem_cons_self
    refine ⟨r, (h1.otherModules _ hmodule).trans hr, fun c hc => ?_⟩
    rw [h1.otherObjects r (h.allocated.modules _ r hr)]
    exact hfound c hc
  · refine List.forall_mem_cons.mpr ⟨fun C hC => ?_, h1.moduleUUIDs⟩
    rw [h1.otherComponents C (hcomponents C hC)]
    exact h.moduleUUIDs m List.mem_cons_self C hC
  · rw [List.map_cons, List.mem_cons, not_or] at hM
    rw [h1.otherModules M hM.2]
    exact h.otherModules M fun hin => hM.1 (List.mem_singleton.mp hin)
  · rw [savedUUIDs, List.flatMap_cons, List.mem_append, not_or] at hC
    rw [h1.otherComponents C hC.2]
    refine h.otherComponents C ?_
    rw [savedUUIDs, List.flatMap_singleton]
    exact hC.1
  · rw [h1.otherObjects r (Nat.lt_of_lt_of_le hr h.length)]
    exact h.otherObjects r hr C
  · rw [h1.interfaces, h.interfaces, List.flatMap_singleton, List.flatMap_cons,
      firstInterface_append, Option.map_or, Option.or_assoc]

end SavedDeclared

theorem declareModules_saved {env : Env} (hprint : ∀ u : Uuid, env.toUUID u.toString = some u)
    {ms : List SavedModule} {w : World} (hw : w.Allocated)
    (hmodules : (ms.map (·.metadata.uuid)).Nodup) (hcomponents : (savedUUIDs ms).Nodup)
    (hnewModules : ∀ m ∈ ms, w.factory.registry.modulesMap m.metadata.uuid = none)
    (hnew : ∀ C ∈ savedUUIDs ms, w.factory.registry.componentModuleUUIDMap C = none) :
    ∃ w1, forEach (declareModule env) (ms.map SavedModule.element) w = (.ok (), w1) ∧
      SavedDeclared ms w w1 := by
  induction ms generalizing w with
  | nil => exact ⟨w, rfl, .nil hw⟩
  | cons m ms ih =>
    obtain ⟨hmodule, hmodules1⟩ := List.nodup_cons.mp hmodules
    obtain ⟨hfirstModule, hrestModules⟩ := List.forall_mem_cons.mp hnewModules
    rw [savedUUIDs, List.flatMap_cons] at hcomponents hnew
    obtain ⟨hdistinct, hcomponents1, hdisjoint⟩ := List.nodup_append'.mp hcomponents
    obtain ⟨hfirst, hrest⟩ := List.forall_mem_append.mp hnew
    obtain ⟨w1, hrun, hdeclared⟩ := declareModule_saved hprint hw hdistinct hfirst
    have hsingle := SavedDeclared.single hdeclared hdistinct hfirstModule hfirst
    have hapart : ∀ C ∈ m.componentUUIDs, C ∉ savedUUIDs ms := fun C hC hin => hdisjoint hC hin
    obtain ⟨w2, hrun1, hdeclared1⟩ := ih hsingle.allocated hmodules1 hcomponents1
      (fun m1 hm1 => by
        rw [hsingle.otherModules _ fun hin => ?_]
        · exact hrestModules m1 hm1
        · exact hmodule (List.mem_singleton.mp hin ▸ List.mem_map_of_mem hm1))
      (fun C hC => by
        rw [hsingle.otherComponents C fun hin => ?_]
        · exact hrest C hC
        · rw [savedUUIDs, List.flatMap_singleton] at hin
          exact hapart C hin hC)
    refine ⟨w2, ?_, hsingle.cons hdeclared1 hmodule hapart⟩
    rw [List.map_cons]
    exact (bind_run_of_ok hrun).trans hrun1

/-- A file with saved modules only is loaded by declaring them. -/
theorem loadLibrary_modules {env : Env} (path : String) {ms : List SavedModule} {w w1 : World}
    (hrun : forEach (declareModule env) (ms.map SavedModule.element)
      { w with factory := { w.factory with autoAlias := false } } = (.ok (), w1)) :
    loadLibrary env path (.document (.mk "xpcf-registry" [] none (ms.map SavedModule.element))) w =
      (.ok .success, w1) := by
  rw [loadLibrary_success_iff]
  let root : XMLElement := .mk "xpcf-registry" [] none (ms.map SavedModule.element)
  have hvalue : ∀ child ∈ ms.map SavedModule.element, child.value = "module" := by
    intro child hchild
    obtain ⟨m, -, rfl⟩ := List.mem_map.mp hchild
    rfl
  have hmodules : root.childElements "module" = ms.map SavedModule.element :=
    childElements_of_value hvalue
  have hothers : ∀ name, name ≠ "module" → root.childElements name = [] := by
    intro name hname
    refine List.filter_eq_nil_iff.mpr fun child hchild => ?_
    rw [hvalue child hchild]
    exact fun h => hname (of_decide_eq_true h).symm
  have hdeclare : processXmlNode root "module" (declareModule env)
      { w with factory := { w.factory with autoAlias := false } } = (.ok (), w1) := by
    unfold processXmlNode
    rw [hmodules]
    exact hrun
  have hskip : ∀ name, name ≠ "module" → ∀ func : XMLElement → XpcfM Unit,
      processXmlNode root name func w1 = (.ok (), w1) := by
    intro name hname func
    unfold processXmlNode
    rw [hothers name hname]
    rfl
  show (processXmlNode root "module" (declareModule env) >>= _)
    { w with factory := { w.factory with autoAlias := false } } = _
  rw [bind_run_of_ok hdeclare, bind_run_of_ok (hskip _ (by decide) _),
    bind_run_of_ok (hskip _ (by decide) _), bind_run_of_ok (hskip _ (by decide) _),
    bind_run_of_ok (hskip _ (by decide) _)]
  rfl

/-! ## The file -/

theorem isName_saved : ∀ name ∈ ["xpcf-registry", "module", "component", "interface", "uuid",
    "name", "path", "description"], IsName (.ofString name) := by decide +kernel

namespace SavedModule

/-- All the texts of the module are kept by the file. -/
structure Kept (m : SavedModule) : Prop where
  name : KeptText m.metadata.name
  path : KeptText m.metadata.modulePath
  description : KeptText m.metadata.description
  components : ∀ c ∈ m.components, KeptText c.1.name ∧ KeptText c.1.description ∧
    ∀ i ∈ c.2, KeptText i.name ∧ KeptText i.description

theorem storable_interface {i : InterfaceMetadata} (hname : KeptText i.name)
    (hdescription : KeptText i.description) : (xmlInterfaceElt i).Storable := by
  refine ⟨by decide, ?_, (fun s hs => by cases hs), trivial⟩
  simp only [List.forall_mem_cons]
  exact ⟨⟨by decide, keptText_toString _⟩, ⟨by decide, hname⟩, ⟨by decide, hdescription⟩,
    List.forall_mem_nil _⟩

theorem storable_element {m : SavedModule} (h : m.Kept) : m.element.Storable := by
  refine ⟨by decide, ?_, (fun s hs => by cases hs), allStorable_iff.mpr fun elt helt => ?_⟩
  · simp only [List.forall_mem_cons]
    exact ⟨⟨by decide, keptText_toString _⟩, ⟨by decide, h.name⟩, ⟨by decide, h.path⟩,
      ⟨by decide, h.description⟩, List.forall_mem_nil _⟩
  · obtain ⟨c, hc, rfl⟩ := List.mem_map.mp helt
    obtain ⟨hname, hdescription, hinterfaces⟩ := h.components c hc
    refine ⟨by decide, ?_, (fun s hs => by cases hs), allStorable_iff.mpr fun elt helt => ?_⟩
    · simp only [List.forall_mem_cons]
      exact ⟨⟨by decide, keptText_toString _⟩, ⟨by decide, hname⟩, ⟨by decide, hdescription⟩,
        List.forall_mem_nil _⟩
    · obtain ⟨i, hi, rfl⟩ := List.mem_map.mp helt
      exact storable_interface (hinterfaces i hi).1 (hinterfaces i hi).2

theorem named_element (m : SavedModule) : m.element.Named := by
  refine ⟨isName_saved _ (by simp), printableAttributes_of_names
    ["uuid", "name", "path", "description"] rfl (by decide +kernel),
    allNamed_of_forall fun elt helt => ?_⟩
  obtain ⟨c, -, rfl⟩ := List.mem_map.mp helt
  refine ⟨isName_saved _ (by simp), printableAttributes_of_names
    ["uuid", "name", "description"] rfl (by decide +kernel),
    allNamed_of_forall fun elt helt => ?_⟩
  obtain ⟨i, -, rfl⟩ := List.mem_map.mp helt
  exact ⟨isName_saved _ (by simp), printableAttributes_of_names
    ["uuid", "name", "description"] rfl (by decide +kernel), trivial⟩

theorem heights_le {elts : List XMLElement} {n : Nat} (h : ∀ elt ∈ elts, elt.height ≤ n) :
    heights elts ≤ n := by
  induction elts with
  | nil => exact Nat.zero_le _
  | cons elt elts ih =>
    obtain ⟨helt, helts⟩ := List.forall_mem_cons.mp h
    exact Nat.max_le.mpr ⟨helt, ih helts⟩

/-- A module node has three levels. -/
theorem height_element (m : SavedModule) : m.element.height ≤ 3 := by
  have hcomponents : heights (m.components.map fun c => xmlComponentElt c.1 c.2) ≤ 2 := by
    refine heights_le fun elt helt => ?_
    obtain ⟨c, -, rfl⟩ := List.mem_map.mp helt
    have hinterfaces : heights (c.2.map xmlInterfaceElt) ≤ 1 := by
      refine heights_le fun elt helt => ?_
      obtain ⟨i, -, rfl⟩ := List.mem_map.mp helt
      exact Nat.le_refl 1
    show 1 + max 0 _ ≤ 2
    omega
  show 1 + max 0 _ ≤ 3
  omega

end SavedModule

/-- The file of saved modules, as the factory sees it. -/
theorem libraryFile_saved {ms : List SavedModule} {file : Option Bytes} (hne : ms ≠ [])
    (hkept : ∀ m ∈ ms, m.Kept)
    (hfile : updateFiles (.ofString "xpcf-registry") (toNodes (ms.map SavedModule.element)) none =
      some file) :
    libraryFile file =
      some (.document (.mk "xpcf-registry" [] none (ms.map SavedModule.element))) := by
  have hne1 : ms.map SavedModule.element ≠ [] := fun h => hne (List.map_eq_nil_iff.mp h)
  obtain ⟨bytes, hrun, hlibrary⟩ := updateFiles_library (isName_saved "xpcf-registry" (by simp))
    (by decide) hne1 (List.forall_mem_map.mpr fun m _ => m.named_element)
    (List.forall_mem_map.mpr fun m _ => Nat.le_trans (Nat.add_le_add_right m.height_element 2)
      (by decide))
    (allStorable_iff.mpr (List.forall_mem_map.mpr fun m hm =>
      SavedModule.storable_element (hkept m hm)))
  rw [hfile] at hrun
  cases hrun
  exact hlibrary

/-! ## From the save to the load -/

/-- The texts of a module object and of its components are kept by a file. -/
structure KeptTexts (p : Process) (r : ModuleRef) : Prop where
  name : KeptText (p.module r).name
  path : KeptText (p.module r).modulePath
  description : KeptText (p.module r).description
  components : ∀ c ∈ (p.module r).components,
    KeptText (p.component c).name ∧ KeptText (p.component c).description

namespace Saves

variable {env : Env} {r : ModuleRef} {w w1 : World} {m : SavedModule}

theorem componentUUIDs (h : Saves env r w w1 m) : m.componentUUIDs =
    (w.process.module r).components.map fun c => (w.process.component c).uuid := by
  have hmap := congrArg (List.map ComponentMetadata.uuid) h.components
  rw [List.map_map, List.map_map] at hmap
  exact hmap

theorem exists_component (h : Saves env r w w1 m) {c : ComponentRef}
    (hc : c ∈ (w.process.module r).components) :
    ∃ s ∈ m.components, s.1 = w.process.component c := by
  have hin : w.process.component c ∈ m.components.map (·.1) := by
    rw [h.components]
    exact List.mem_map_of_mem hc
  exact List.mem_map.mp hin

theorem kept (h : Saves env r w w1 m) (htexts : KeptTexts w.process r)
    (htold : ∀ inst, ∀ i ∈ getInterfaces env inst, KeptText i.name ∧ KeptText i.description) :
    m.Kept := by
  refine ⟨by rw [h.metadata]; exact htexts.name, by rw [h.metadata]; exact htexts.path,
    by rw [h.metadata]; exact htexts.description, fun s hs => ?_⟩
  have hin : s.1 ∈ (w.process.module r).components.map w.process.component := by
    rw [← h.components]
    exact List.mem_map_of_mem hs
  obtain ⟨c, hc, hsame⟩ := List.mem_map.mp hin
  obtain ⟨inst, -, hlist⟩ := h.told s hs
  rw [← hsame, hlist]
  exact ⟨(htexts.components c hc).1, (htexts.components c hc).2, htold inst⟩

end Saves

/-- Each of the modules is saved. -/
abbrev AllSaved (env : Env) (w w1 : World) : List ModuleRef → List SavedModule → Prop :=
  List.Forall₂ fun r m => Saves env r w w1 m

theorem map_metadata_of_allSaved {env : Env} {w w1 : World} {rs : List ModuleRef}
    {ms : List SavedModule} (h : AllSaved env w w1 rs ms) :
    ms.map (·.metadata.uuid) = rs.map fun r => (w.process.module r).uuid := by
  induction h with
  | nil => rfl
  | cons hm _ ih => rw [List.map_cons, List.map_cons, ih, hm.metadata]

theorem savedUUIDs_of_allSaved {env : Env} {w w1 : World} {rs : List ModuleRef}
    {ms : List SavedModule} (h : AllSaved env w w1 rs ms) :
    savedUUIDs ms = rs.flatMap fun r =>
      (w.process.module r).components.map fun c => (w.process.component c).uuid := by
  induction h with
  | nil => rfl
  | cons hm _ ih =>
    rw [savedUUIDs, List.flatMap_cons, List.flatMap_cons, hm.componentUUIDs]
    exact congrArg _ ih

theorem exists_saved {env : Env} {w w1 : World} {rs : List ModuleRef} {ms : List SavedModule}
    (h : AllSaved env w w1 rs ms) :
    (∀ r ∈ rs, ∃ m ∈ ms, Saves env r w w1 m) ∧ ∀ m ∈ ms, ∃ r ∈ rs, Saves env r w w1 m := by
  induction h with
  | nil => exact ⟨List.forall_mem_nil _, List.forall_mem_nil _⟩
  | @cons r m rs ms hm _ ih =>
    refine ⟨List.forall_mem_cons.mpr ⟨⟨m, List.mem_cons_self, hm⟩, fun r1 hr1 => ?_⟩,
      List.forall_mem_cons.mpr ⟨⟨r, List.mem_cons_self, hm⟩, fun m1 hm1 => ?_⟩⟩
    · obtain ⟨m1, hm1, hsaves⟩ := ih.1 r1 hr1
      exact ⟨m1, List.mem_cons_of_mem _ hm1, hsaves⟩
    · obtain ⟨r1, hr1, hsaves⟩ := ih.2 m1 hm1
      exact ⟨r1, List.mem_cons_of_mem _ hr1, hsaves⟩

/-- Saved modules are found again by a factory that does not know their UUIDs: each
component in the module it was saved with, with the name, the description and the
interfaces that it had and that an instance told. -/
theorem savedModules_found {env env1 : Env} (path : String) {rs : List ModuleRef}
    {codes : List XPCFErrorCode} {file : Option Bytes} {w w1 w2 : World}
    (hprint : ∀ u : Uuid, env1.toUUID u.toString = some u)
    (hsave : saveModules env rs none w = (.ok (some (codes, file)), w1))
    (hsome : succeeded rs codes ≠ []) (htexts : ∀ r ∈ succeeded rs codes, KeptTexts w.process r)
    (htold : ∀ inst, ∀ i ∈ getInterfaces env inst, KeptText i.name ∧ KeptText i.description)
    (hmodules : ((succeeded rs codes).map fun r => (w.process.module r).uuid).Nodup)
    (hcomponents : ((succeeded rs codes).flatMap fun r => (w.process.module r).components.map
      fun c => (w.process.component c).uuid).Nodup)
    (hw2 : w2.Allocated)
    (hnew : ∀ r ∈ succeeded rs codes,
      w2.factory.registry.modulesMap (w.process.module r).uuid = none ∧
      ∀ c ∈ (w.process.module r).components,
        w2.factory.registry.componentModuleUUIDMap (w.process.component c).uuid = none) :
    ∃ root w3, libraryFile file = some (.document root) ∧
      loadLibrary env1 path (.document root) w2 = (.ok .success, w3) ∧
      ∀ r ∈ succeeded rs codes, ∀ c ∈ (w.process.module r).components,
        getModuleUUID w3.factory.registry (w.process.component c).uuid =
          .ok (w.process.module r).uuid ∧
        ∃ inst, .created (w.process.component c).uuid (.ok inst) ∈ w.newEvents w1 ∧
          w3.componentMetadata (w.process.component c).uuid = .ok (some
            ⟨(w.process.component c).name, (w.process.component c).uuid,
              (w.process.component c).description, (getInterfaces env inst).map (·.uuid)⟩) ∧
          ∀ i ∈ getInterfaces env inst,
            (findInterfaceMetadata w3.factory.registry i.uuid).isSome = true := by
  obtain ⟨ms, hms, hfile⟩ := saveModules_run hsave
  obtain ⟨hrefs, hsaved⟩ := exists_saved hms
  have hne : ms ≠ [] := by
    obtain ⟨r, hr⟩ := List.exists_mem_of_ne_nil _ hsome
    obtain ⟨m, hm, -⟩ := hrefs r hr
    exact List.ne_nil_of_mem hm
  have hkept : ∀ m ∈ ms, m.Kept := by
    intro m hm
    obtain ⟨r, hr, hsaves⟩ := hsaved m hm
    exact hsaves.kept (htexts r hr) htold
  have hlibrary := libraryFile_saved hne hkept hfile
  rw [← map_metadata_of_allSaved hms] at hmodules
  rw [← savedUUIDs_of_allSaved hms] at hcomponents
  have hnewModules : ∀ m ∈ ms, w2.factory.registry.modulesMap m.metadata.uuid = none := by
    intro m hm
    obtain ⟨r, hr, hsaves⟩ := hsaved m hm
    rw [hsaves.metadata]
    exact (hnew r hr).1
  have hnewComponents : ∀ C ∈ savedUUIDs ms,
      w2.factory.registry.componentModuleUUIDMap C = none := by
    intro C hC
    rw [savedUUIDs_of_allSaved hms] at hC
    obtain ⟨r, hr, hin⟩ := List.mem_flatMap.mp hC
    obtain ⟨c, hc, rfl⟩ := List.mem_map.mp hin
    exact (hnew r hr).2 c hc
  have hw3 : World.Allocated { w2 with factory := { w2.factory with autoAlias := false } } :=
    ⟨hw2.components, hw2.modules⟩
  obtain ⟨w3, hrun, hdeclared⟩ := declareModules_saved hprint hw3 hmodules hcomponents hnewModules
    hnewComponents
  refine ⟨_, w3, hlibrary, loadLibrary_modules path hrun, fun r hr c hc => ?_⟩
  obtain ⟨m, hm, hsaves⟩ := hrefs r hr
  obtain ⟨s, hs, hsame⟩ := hsaves.exists_component hc
  obtain ⟨inst, hevent, hlist⟩ := hsaves.told s hs
  obtain ⟨r1, hr1, hfound⟩ := hdeclared.found m hm
  have hmodule := hdeclared.moduleUUIDs m hm s.1.uuid (List.mem_map.mpr ⟨s, hs, rfl⟩)
  have hmetadata : w3.componentMetadata s.1.uuid = .ok (some (SavedModule.found s)) := by
    rw [componentMetadata_of_known hmodule, findModuleMetadata_of_some hr1, ← hfound s hs]
    rfl
  rw [← hsame]
  refine ⟨?_, inst, hevent, ?_, fun i hi => ?_⟩
  · unfold getModuleUUID
    rw [hmodule, hsaves.metadata]
  · rw [hmetadata, SavedModule.found, hlist]
  · -- the interface is listed by the component, so some node of it was read
    have hlisted : SavedModule.interfaceNode i ∈ ms.flatMap fun m => listedInterfaces m.nodes := by
      refine List.mem_flatMap.mpr ⟨m, hm, List.mem_flatMap.mpr
        ⟨SavedModule.componentNode s, List.mem_map_of_mem hs, ?_⟩⟩
      exact List.mem_map_of_mem (hlist ▸ hi)
    have hsome1 : (firstInterface (ms.flatMap fun m => listedInterfaces m.nodes) i.uuid).isSome :=
      List.find?_isSome.mpr ⟨_, hlisted, decide_eq_true rfl⟩
    rw [hdeclared.interfaces, Option.isSome_or, Option.isSome_map, hsome1, Bool.or_true]

/-! ## An environment that reads what it prints -/

theorem ofDigits_append (digits digits1 : List Char) :
    ofDigits 16 (digits ++ digits1) =
      digits1.foldl (fun n c => 16 * n + digitValue c) (ofDigits 16 digits) := List.foldl_append

theorem ofDigits_zeros (n : Nat) : ofDigits 16 (List.replicate n '0') = 0 := by
  induction n with
  | zero => rfl
  | succ n ih =>
    rw [List.replicate_succ', ofDigits_append_digit, ih]
    rfl

theorem digitValue_hex : ∀ d < 16, digitValue (Nat.digitChar d) = d ∧ Nat.digitChar d ≠ '-' := by
  decide

theorem ofDigits_hex (n : Nat) : ofDigits 16 (Nat.toDigits 16 n) = n := by
  induction n using Nat.strongRecOn with
  | ind n ih =>
    rw [Nat.toDigits_eq_if (by decide)]
    split
    · rename_i hlt
      show 16 * 0 + digitValue _ = n
      rw [(digitValue_hex n hlt).1]
      omega
    · rename_i hge
      rw [ofDigits_append_digit, ih (n / 16) (Nat.div_lt_self (by omega) (by decide)),
        (digitValue_hex _ (Nat.mod_lt _ (by decide))).1]
      omega

theorem readUuid_toString (u : Uuid) : readUuid u.toString = some u := by
  let digits := Nat.toDigits 16 u.toNat
  let hex := List.replicate (32 - digits.length) '0' ++ digits
  have hlength : hex.length = 32 := by
    have hfits : digits.length ≤ 32 :=
      (Nat.length_toDigits_le_iff (by decide) (by decide)).mpr u.isLt
    simp only [hex, List.length_append, List.length_replicate]
    omega
  have hdigit : ∀ c ∈ hex, c ≠ '-' ∧ isDigitOf 16 c = true := by
    intro c hc
    rcases List.mem_append.mp hc with hzero | hin
    · rw [List.eq_of_mem_replicate hzero]
      decide
    · obtain ⟨d, hd, rfl⟩ := mem_toDigits_sixteen hin
      obtain ⟨hvalue, hne⟩ := digitValue_hex d hd
      exact ⟨hne, decide_eq_true (hvalue.symm ▸ hd)⟩
  have hgroup : ∀ start count, ((hex.drop start).take count).filter (· ≠ '-') =
      (hex.drop start).take count := by
    intro start count
    refine List.filter_eq_self.mpr fun c hc => decide_eq_true (hdigit c ?_).1
    exact List.drop_subset _ _ (List.take_subset _ _ hc)
  have hjoin : ∀ start count, (hex.drop start).take count ++ hex.drop (start + count) =
      hex.drop start := by
    intro start count
    rw [← List.drop_drop, List.take_append_drop]
  have hdash : "-".toList.filter (· ≠ '-') = [] := by decide
  have hfilter : u.toString.toList.filter (· ≠ '-') = hex := by
    have hlast : (hex.drop 20).take 12 = hex.drop 20 :=
      List.take_of_length_le (by rw [List.length_drop, hlength])
    unfold Uuid.toString
    simp only [String.toList_append, String.toList_ofList, List.filter_append]
    show (((hex.drop 0).take 8).filter (· ≠ '-') ++ "-".toList.filter (· ≠ '-') ++
      ((hex.drop 8).take 4).filter (· ≠ '-') ++ "-".toList.filter (· ≠ '-') ++
      ((hex.drop 12).take 4).filter (· ≠ '-') ++ "-".toList.filter (· ≠ '-') ++
      ((hex.drop 16).take 4).filter (· ≠ '-') ++ "-".toList.filter (· ≠ '-') ++
      ((hex.drop 20).take 12).filter (· ≠ '-')) = hex
    simp only [hgroup, hdash, List.append_nil]
    rw [hlast]
    simp only [List.append_assoc]
    rw [hjoin 16 4, hjoin 12 4, hjoin 8 4, hjoin 0 8, List.drop_zero]
  have hvalue : ofDigits 16 hex = u.toNat := by
    rw [ofDigits_append, ofDigits_zeros]
    exact ofDigits_hex u.toNat
  unfold readUuid
  simp only [hfilter, hlength, List.all_eq_true.mpr fun c hc => (hdigit c hc).2, hvalue]
  exact congrArg some (BitVec.ofNat_toNat 128 u)

/-- The process of a tool that introspected module 1, which has component 2. -/
def introspected : World :=
  ⟨Factory.fresh, ⟨[⟨"m", 1, "a module", "p", "p/m", [2], [0], Table.empty.insert 2 0⟩],
    [⟨"c", 2, "a component", []⟩], Table.empty.insert 1 0, Table.empty, Table.empty, []⟩⟩

theorem keptTexts_introspected : KeptTexts introspected.process 0 := by
  refine ⟨by decide, by decide, by decide, fun c hc => ?_⟩
  cases List.mem_singleton.mp hc
  exact ⟨by decide, by decide⟩

/-- A module without a file is always saved. -/
theorem saveModules_single {env : Env} {r : ModuleRef} {w w1 : World} {elt : XMLElement}
    (h : moduleNode env r w = (.ok elt, w1)) :
    ∃ file, saveModules env [r] none w = (.ok (some ([.success], file)), w1) := by
  have hsave : ∃ bytes, saveModuleInformations env r none w =
      (.ok (some (.success, some bytes)), w1) := by
    unfold saveModuleInformations
    rw [tryCatch_run, bind_run_of_ok h]
    exact ⟨_, rfl⟩
  obtain ⟨bytes, hsave⟩ := hsave
  refine ⟨some bytes, ?_⟩
  rw [saveModules, bind_run_of_ok hsave]
  rfl

/-- Module 1 is saved, and found by a factory that was just made. -/
theorem savedModules_found_new :
    ∃ file root w3, libraryFile file = some (.document root) ∧
      loadLibrary (Env.printing [3]) "p" (.document root) World.initial = (.ok .success, w3) ∧
      getModuleUUID w3.factory.registry 2 = .ok 1 := by
  obtain ⟨elt, w1, hnode⟩ : ∃ elt w1, moduleNode (Env.printing [3]) 0 introspected =
      (.ok elt, w1) := ⟨_, _, rfl⟩
  obtain ⟨file, hrun⟩ := saveModules_single hnode
  have hread : (Env.printing [3]).toUUID = readUuid := rfl
  have hprint : ∀ u : Uuid, (Env.printing [3]).toUUID u.toString = some u := by
    rw [hread]
    exact readUuid_toString
  have hempty : KeptText "" := by decide
  have htold : ∀ inst, ∀ i ∈ getInterfaces (Env.printing [3]) inst,
      KeptText i.name ∧ KeptText i.description := by
    intro inst i hi
    cases inst with
    | user id =>
      obtain ⟨I, -, rfl⟩ := List.mem_map.mp hi
      exact ⟨hempty, hempty⟩
    | core c => cases hi
    | framework c tick => cases hi
  have htexts : ∀ r ∈ succeeded [0] [.success], KeptTexts introspected.process r := by
    intro r hr
    cases List.mem_singleton.mp hr
    exact keptTexts_introspected
  have hnew : ∀ r ∈ succeeded [0] [.success],
      World.initial.factory.registry.modulesMap (introspected.process.module r).uuid = none ∧
      ∀ c ∈ (introspected.process.module r).components,
        World.initial.factory.registry.componentModuleUUIDMap
          (introspected.process.component c).uuid = none := by
    intro r hr
    cases List.mem_singleton.mp hr
    refine ⟨rfl, fun c hc => ?_⟩
    cases List.mem_singleton.mp hc
    rfl
  have hmodules : ((succeeded [0] [.success]).map fun r =>
      (introspected.process.module r).uuid).Nodup := List.nodup_singleton _
  have hcomponents : ((succeeded [0] [.success]).flatMap fun r =>
      (introspected.process.module r).components.map fun c =>
        (introspected.process.component c).uuid).Nodup := List.nodup_singleton _
  obtain ⟨root, w3, hfile, hload, hfound⟩ := savedModules_found "p" hprint hrun
    (List.cons_ne_nil _ _) htexts htold hmodules hcomponents allocated_initial hnew
  have hcomponent : (0 : ComponentRef) ∈ (introspected.process.module 0).components :=
    List.mem_cons_self
  have hin : (0 : ModuleRef) ∈ succeeded [0] [.success] := List.mem_cons_self
  have huuid : getModuleUUID w3.factory.registry (introspected.process.component 0).uuid =
      .ok (introspected.process.module 0).uuid := (hfound 0 hin 0 hcomponent).1
  exact ⟨file, root, w3, hfile, hload, huuid⟩

end Xpcf
