import Xpcf.CodeLib.Steps
import Xpcf.Proofs.ModuleNodes

/-!
# The components of a module

`ModuleMetadata` keeps its components in two vectors and a map.
`removeComponent` leaves the entry of the map, so the three hold the same
components as long as nothing that was added is removed, and not any longer.

* `InStep`: the three containers hold the same components;
* `ComponentsLaw`: they are in step after every call, and what is added after
  a removal is there.
-/

namespace Xpcf

open CodeLib CodeLib.Exec

/-! ## What a call does to the process -/

namespace ModuleCall

variable (env : Env) (r : ModuleRef)

/-- The UUID of the component that a call adds. -/
def adds (p : Process) : ModuleCall → Option Uuid
  | .addComponent c => some (p.component c).uuid
  | .declareComponent uuid _ _ => env.toUUID uuid
  | .removeComponent _ => none

/-- The objects that the call is given exist. -/
def Given (p : Process) : ModuleCall → Prop
  | .addComponent c => c < p.components.length
  | .declareComponent _ _ _ => True
  | .removeComponent _ => True

theorem run_declareComponent {uuid name description : String} {u : Uuid}
    (h : env.toUUID uuid = some u) (w : World) :
    ((ModuleCall.declareComponent uuid name description).run env r w).2.process =
      (w.process.newComponentObject ⟨name, u, description, []⟩).addComponent r
        w.process.components.length := by
  show (declareIndexComponent env r (uuid, name, description) w).2.process = _
  unfold declareIndexComponent toUUID
  rw [h]
  rfl

/-- A malformed text is refused before anything is declared. -/
theorem run_malformed {uuid name description : String} (h : env.toUUID uuid = none) (w : World) :
    ((ModuleCall.declareComponent uuid name description).run env r w).2 = w := by
  show (declareIndexComponent env r (uuid, name, description) w).2 = _
  unfold declareIndexComponent toUUID
  rw [h]
  rfl

end ModuleCall

theorem callModule_append (env : Env) (r : ModuleRef) (w : World) (calls : List ModuleCall)
    (call : ModuleCall) :
    callModule env r w (calls ++ [call]) = (call.run env r (callModule env r w calls)).2 := by
  unfold callModule
  rw [List.foldl_append]
  rfl

namespace Process

variable {p : Process} {r : ModuleRef}

/-- Removing a component leaves the map as it is. -/
theorem getComponentMetadata_removeComponent (hr : r < p.modules.length) (uuid u : Uuid) :
    (p.removeComponent r uuid).getComponentMetadata r u = p.getComponentMetadata r u := by
  unfold removeComponent getComponentMetadata
  split
  · rfl
  · rw [module_modifyModule_self hr]

theorem removeComponent_of_absent {uuid : Uuid} (h : p.getComponentMetadata r uuid = none) :
    p.removeComponent r uuid = p := by
  unfold removeComponent
  unfold getComponentMetadata at h
  rw [h]

/-- What is left in the vector of UUIDs. -/
theorem componentUUIDs_removeComponent (hr : r < p.modules.length) {uuid : Uuid}
    (h : (p.getComponentMetadata r uuid).isSome) :
    ((p.removeComponent r uuid).module r).componentUUIDs =
      (p.module r).componentUUIDs.filter (· ≠ uuid) := by
  obtain ⟨c, hc⟩ := Option.isSome_iff_exists.mp h
  unfold removeComponent
  unfold getComponentMetadata at hc
  rw [hc]
  dsimp only
  rw [module_modifyModule_self hr]

theorem modules_removeComponent (p : Process) (r : ModuleRef) (uuid : Uuid) :
    (p.removeComponent r uuid).modules.length = p.modules.length := by
  unfold removeComponent modifyModule
  split
  · rfl
  · exact List.length_modify ..

end Process

/-! ## The containers -/

/-- The two vectors enumerate the same UUIDs in one order, each once, and the map has their
entries. -/
structure InStep (p : Process) (r : ModuleRef) : Prop where
  sameOrder : (p.module r).components.map (fun c => (p.component c).uuid) =
    (p.module r).componentUUIDs
  nodup : (p.module r).componentUUIDs.Nodup
  lookup : ∀ u, p.getComponentMetadata r u ≠ none ↔ u ∈ (p.module r).componentUUIDs

/-- The module and the components in its containers are objects of the process. -/
structure HoldsObjects (p : Process) (r : ModuleRef) : Prop where
  module : r < p.modules.length
  components : ∀ c ∈ (p.module r).components, c < p.components.length

/-- The containers are in step, over objects that exist. -/
structure Kept (p : Process) (r : ModuleRef) : Prop extends InStep p r, HoldsObjects p r

namespace Kept

variable {p : Process} {r : ModuleRef}

theorem newComponentObject (h : Kept p r) (m : ComponentMetadata) :
    Kept (p.newComponentObject m) r := by
  have hlength : (p.newComponentObject m).components.length = p.components.length + 1 := by
    simp [Process.newComponentObject]
  refine ⟨⟨?_, h.nodup, h.lookup⟩, ⟨h.module, ?_⟩⟩
  · rw [← show (p.module r).componentUUIDs =
      ((p.newComponentObject m).module r).componentUUIDs from rfl, ← h.sameOrder]
    apply List.map_congr_left
    intro c hc
    rw [Process.component_new_old (h.components c hc)]
  · intro c hc
    rw [hlength]
    exact Nat.lt_succ_of_lt (h.components c hc)

theorem addComponent (h : Kept p r) {c : ComponentRef} (hc : c < p.components.length) :
    Kept (p.addComponent r c) r := by
  obtain ⟨hcomponents, -, hlength⟩ := Process.addComponent_components p r c
  have hmodule := Process.module_addComponent_self (c := c) h.module
  have hlookup := Process.getComponentMetadata_addComponent (c := c) h.module r
  by_cases hknown : (p.module r).moduleComponentMap.contains (p.component c).uuid = true
  · have hsame : p.addComponent r c = p := by
      unfold Process.addComponent
      exact if_pos hknown
    rw [hsame]
    exact h
  · rw [if_neg hknown] at hmodule
    have hnew : p.getComponentMetadata r (p.component c).uuid = none :=
      Table.not_contains_iff.mp (Bool.eq_false_iff.mpr hknown)
    have habsent : (p.component c).uuid ∉ (p.module r).componentUUIDs :=
      fun hmem => (h.lookup _).mpr hmem hnew
    refine ⟨⟨?_, ?_, ?_⟩, ⟨?_, ?_⟩⟩
    · rw [hmodule]
      dsimp only
      rw [List.map_append, ← h.sameOrder]
      simp only [Process.component_addComponent, List.map_cons, List.map_nil]
    · rw [hmodule]
      exact List.nodup_append.mpr ⟨h.nodup, List.nodup_singleton _, by
        intro u hu u1 hu1 heq
        rw [List.mem_singleton.mp hu1] at heq
        exact habsent (heq ▸ hu)⟩
    · intro u
      rw [hlookup, hmodule]
      dsimp only
      rw [List.mem_append, List.mem_singleton, ← h.lookup u]
      by_cases hu : u = (p.component c).uuid
      · simp [hu]
      · simp [hu]
    · rw [hlength]
      exact h.module
    · intro c1 hc1
      rw [hmodule] at hc1
      rw [hcomponents]
      rcases List.mem_append.mp hc1 with hold | hlast
      · exact h.components c1 hold
      · rw [List.mem_singleton.mp hlast]
        exact hc

/-- A call that does not remove an entry keeps the containers in step. -/
theorem run {w : World} (env : Env) {call : ModuleCall} (h : Kept w.process r)
    (hgiven : call.Given w.process)
    (hremoves : ∀ u, call = .removeComponent u → w.process.getComponentMetadata r u = none) :
    Kept (call.run env r w).2.process r := by
  cases call with
  | addComponent c => exact h.addComponent hgiven
  | declareComponent uuid name description =>
    cases huuid : env.toUUID uuid with
    | none =>
      rw [ModuleCall.run_malformed env r huuid]
      exact h
    | some u =>
      rw [ModuleCall.run_declareComponent env r huuid]
      apply (h.newComponentObject _).addComponent
      simp [Process.newComponentObject]
  | removeComponent uuid =>
    show Kept (w.process.removeComponent r uuid) r
    rw [Process.removeComponent_of_absent (hremoves uuid rfl)]
    exact h

end Kept

/-! ## The entries of the map -/

/-- The UUIDs that calls add. -/
def addedUuids (env : Env) (r : ModuleRef) (w : World) : List ModuleCall → List Uuid
  | [] => []
  | call :: calls =>
    (call.adds env w.process).toList ++ addedUuids env r (call.run env r w).2 calls

theorem addedUuids_append (env : Env) (r : ModuleRef) (w : World) (calls : List ModuleCall)
    (call : ModuleCall) :
    addedUuids env r w (calls ++ [call]) =
      addedUuids env r w calls ++ (call.adds env (callModule env r w calls).process).toList := by
  induction calls generalizing w with
  | nil =>
    show (call.adds env w.process).toList ++ [] = [] ++ _
    rw [List.append_nil]
    rfl
  | cons first calls ih =>
    show (first.adds env w.process).toList ++ addedUuids env r _ (calls ++ [call]) = _
    rw [ih, ← List.append_assoc]
    rfl

/-- An added component has an entry, and no other entry is new. -/
theorem lookup_addComponent {p : Process} {r : ModuleRef} (hr : r < p.modules.length)
    (c : ComponentRef) (u : Uuid) :
    (p.addComponent r c).getComponentMetadata r u ≠ none ↔
      p.getComponentMetadata r u ≠ none ∨ some (p.component c).uuid = some u := by
  rw [Process.getComponentMetadata_addComponent hr]
  by_cases hu : u = (p.component c).uuid
  · simp [hu]
  · simp [hu, Ne.symm hu]

/-- The entries of the map after a call: those before and that of what it adds. -/
theorem lookup_run (env : Env) {r : ModuleRef} {w : World} (hr : r < w.process.modules.length)
    (call : ModuleCall) (u : Uuid) :
    (call.run env r w).2.process.getComponentMetadata r u ≠ none ↔
      w.process.getComponentMetadata r u ≠ none ∨ call.adds env w.process = some u := by
  cases call with
  | addComponent c => exact lookup_addComponent hr c u
  | declareComponent uuid name description =>
    cases huuid : env.toUUID uuid with
    | none =>
      rw [ModuleCall.run_malformed env r huuid]
      simp [ModuleCall.adds, huuid]
    | some u1 =>
      rw [ModuleCall.run_declareComponent env r huuid]
      have hadd := lookup_addComponent
        (p := w.process.newComponentObject ⟨name, u1, description, []⟩) hr
        w.process.components.length u
      rw [Process.component_new] at hadd
      rw [hadd, ModuleCall.adds, huuid]
      rfl
  | removeComponent uuid =>
    show (w.process.removeComponent r uuid).getComponentMetadata r u ≠ none ↔ _
    rw [Process.getComponentMetadata_removeComponent hr]
    simp [ModuleCall.adds]

theorem modules_run (env : Env) {r : ModuleRef} {w : World} (hr : r < w.process.modules.length)
    (call : ModuleCall) : r < (call.run env r w).2.process.modules.length := by
  cases call with
  | addComponent c =>
    show r < (w.process.addComponent r c).modules.length
    rw [(Process.addComponent_components w.process r c).2.2]
    exact hr
  | declareComponent uuid name description =>
    cases huuid : env.toUUID uuid with
    | none =>
      rw [ModuleCall.run_malformed env r huuid]
      exact hr
    | some u =>
      rw [ModuleCall.run_declareComponent env r huuid, (Process.addComponent_components ..).2.2]
      exact hr
  | removeComponent uuid =>
    show r < (w.process.removeComponent r uuid).modules.length
    rw [Process.modules_removeComponent]
    exact hr

theorem modules_callModule (env : Env) {r : ModuleRef} {w : World}
    (hr : r < w.process.modules.length) (calls : List ModuleCall) :
    r < (callModule env r w calls).process.modules.length := by
  induction calls using List.reverseRecOn with
  | nil => exact hr
  | append_singleton calls call ih =>
    rw [callModule_append]
    exact modules_run env ih call

/-- After calls on a new module the map has the entries of what was added, removed or not. -/
theorem lookup_callModule (env : Env) {r : ModuleRef} {w : World}
    (hr : r < w.process.modules.length)
    (hnew : ∀ u, w.process.getComponentMetadata r u = none) (calls : List ModuleCall) (u : Uuid) :
    (callModule env r w calls).process.getComponentMetadata r u ≠ none ↔
      u ∈ addedUuids env r w calls := by
  induction calls using List.reverseRecOn with
  | nil =>
    show w.process.getComponentMetadata r u ≠ none ↔ u ∈ []
    simp [hnew u]
  | append_singleton calls call ih =>
    rw [callModule_append, lookup_run env (modules_callModule env hr calls), ih,
      addedUuids_append, List.mem_append, Option.mem_toList]

/-! ## Sequences of calls -/

section Calls

variable (env : Env) (r : ModuleRef) (w : World)

/-- After every call the containers are in step, and what is added after it was removed is
there. -/
structure ComponentsLaw (calls : List ModuleCall) : Prop where
  inStep : ∀ before after, calls = before ++ after →
    InStep (callModule env r w before).process r
  readds : ∀ before u between call after,
    calls = before ++ .removeComponent u :: (between ++ call :: after) →
    call.adds env (callModule env r w (before ++ .removeComponent u :: between)).process = some u →
    u ∈ ((callModule env r w (before ++ .removeComponent u :: (between ++ [call]))).process.module
      r).componentUUIDs

/-- A call removes a component that one before it added. -/
def RemovesAdded (calls : List ModuleCall) : Prop :=
  ∃ before u after, calls = before ++ .removeComponent u :: after ∧
    u ∈ addedUuids env r w before

/-- A module object that was just made. -/
structure NewModule (p : Process) (r : ModuleRef) : Prop where
  module : r < p.modules.length
  componentUUIDs : (p.module r).componentUUIDs = []
  components : (p.module r).components = []
  moduleComponentMap : ∀ u, p.getComponentMetadata r u = none

/-- The calls are given components that exist. -/
def AllGiven (calls : List ModuleCall) : Prop :=
  ∀ before call after, calls = before ++ call :: after →
    call.Given (callModule env r w before).process

end Calls

variable {env : Env} {r : ModuleRef} {w : World} {calls : List ModuleCall}

theorem kept_of_new {p : Process} (h : NewModule p r) : Kept p r := by
  refine ⟨⟨?_, ?_, ?_⟩, ⟨h.module, ?_⟩⟩
  · rw [h.components, h.componentUUIDs]
    rfl
  · rw [h.componentUUIDs]
    exact List.nodup_nil
  · intro u
    simp [h.moduleComponentMap, h.componentUUIDs]
  · rw [h.components]
    exact nofun

/-- The containers stay in step while nothing that was added is removed. -/
theorem kept_callModule (hnew : NewModule w.process r) (hgiven : AllGiven env r w calls)
    (hremoves : ¬ RemovesAdded env r w calls) {before after : List ModuleCall}
    (hcalls : calls = before ++ after) : Kept (callModule env r w before).process r := by
  induction before using List.reverseRecOn generalizing after with
  | nil => exact kept_of_new hnew
  | append_singleton before call ih =>
    rw [List.append_assoc, List.singleton_append] at hcalls
    rw [callModule_append]
    refine (ih hcalls).run env (hgiven before call after hcalls) ?_
    rintro u rfl
    by_contra hentry
    have hadded := (lookup_callModule env hnew.module hnew.moduleComponentMap before u).mp hentry
    exact hremoves ⟨before, u, after, hcalls, hadded⟩

/-- A removal of what was added leaves the entry of the map alone. -/
theorem not_inStep_of_removed (hnew : NewModule w.process r) {before : List ModuleCall} {u : Uuid}
    (hadded : u ∈ addedUuids env r w before) :
    ¬ InStep (callModule env r w (before ++ [.removeComponent u])).process r := by
  intro hstep
  have hr := modules_callModule env hnew.module before
  have hentry := (lookup_callModule env hnew.module hnew.moduleComponentMap before u).mpr hadded
  have hremoved : callModule env r w (before ++ [.removeComponent u]) =
      { callModule env r w before with
        process := (callModule env r w before).process.removeComponent r u } :=
    callModule_append env r w before _
  have hlookup := (hstep.lookup u).mp (by
    rw [hremoved, Process.getComponentMetadata_removeComponent hr]
    exact hentry)
  rw [hremoved, Process.componentUUIDs_removeComponent hr (Option.isSome_iff_ne_none.mpr hentry)]
    at hlookup
  simp at hlookup

/-- The law holds for the calls on a new module that remove nothing that was added. -/
theorem componentsLaw_iff (env : Env) (r : ModuleRef) (w : World) (calls : List ModuleCall)
    (hnew : NewModule w.process r) (hgiven : AllGiven env r w calls) :
    ComponentsLaw env r w calls ↔ ¬ RemovesAdded env r w calls := by
  constructor
  · rintro h ⟨before, u, after, hcalls, hadded⟩
    apply not_inStep_of_removed hnew hadded
    exact h.inStep (before ++ [.removeComponent u]) after (by simp [hcalls])
  · intro hremoves
    refine ⟨fun before after hcalls => (kept_callModule hnew hgiven hremoves hcalls).toInStep, ?_⟩
    intro before u between call after hcalls hadds
    have hsplit : before ++ .removeComponent u :: (between ++ [call]) =
        (before ++ .removeComponent u :: between) ++ [call] := by simp
    have hfront : calls = ((before ++ .removeComponent u :: between) ++ [call]) ++ after := by
      simp [hcalls]
    have hkept := kept_callModule hnew hgiven hremoves hfront
    rw [hsplit]
    apply (hkept.lookup u).mp
    rw [lookup_callModule env hnew.module hnew.moduleComponentMap, addedUuids_append, hadds]
    simp

/-! ## A module that was just made -/

def newModuleWorld : World :=
  { World.initial with
    process := { Process.initial with
      modules := [makeModuleMetadata (Env.simple []) "m" 1 "" none] } }

theorem newModule_newModuleWorld : NewModule newModuleWorld.process 0 :=
  ⟨by decide, rfl, rfl, fun _ => rfl⟩

/-- Removing a component that the module does not have. -/
theorem componentsLaw_iff_unknown :
    ComponentsLaw (Env.simple []) 0 newModuleWorld
      [.declareComponent uuidText2 "c" "", .removeComponent 3] := by
  refine (componentsLaw_iff (Env.simple []) 0 newModuleWorld _ newModule_newModuleWorld ?_).mpr ?_
  · exact forall_splits_cons.mpr ⟨trivial, forall_splits_cons.mpr ⟨trivial, forall_splits_nil⟩⟩
  · rintro ⟨before, u, after, hcalls, hadded⟩
    rcases before with _ | ⟨first, _ | ⟨second, before⟩⟩
    · cases hcalls
    · cases hcalls
      revert hadded
      decide
    · simp at hcalls

/-- A component is declared, removed and declared again: the vectors are empty, and the map
has the entry. -/
theorem removed_component_stays_in_map :
    let calls : List ModuleCall := [.declareComponent uuidText2 "c" "", .removeComponent 2,
      .declareComponent uuidText2 "c" ""]
    let p := (callModule (Env.simple []) 0 newModuleWorld calls).process
    (p.module 0).componentUUIDs = [] ∧ (p.module 0).components = [] ∧
      p.getComponentMetadata 0 2 = some 0 ∧
      ¬ ComponentsLaw (Env.simple []) 0 newModuleWorld calls := by
  refine ⟨by decide, by decide, by decide, fun h => ?_⟩
  have hpresent := h.readds [.declareComponent uuidText2 "c" ""] 2 []
    (.declareComponent uuidText2 "c" "") [] rfl (by decide)
  revert hpresent
  decide

end Xpcf
