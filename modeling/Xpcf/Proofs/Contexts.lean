import Xpcf.Proofs.CachedComponents

/-!
# New factories, cloned factories and cleared factories

The constructor fills three tables of core components and no later operation
writes them (`Reachable.hasCore`).  What else distinguishes two factories is in
their contexts, so a cloned factory and a cleared factory are compared with
their original and with a new factory member by member.

* `clone_answers_iff`: what a clone answers;
* `cleared_like_new`: what a cleared factory does.
-/

namespace Xpcf

open CodeLib CodeLib.Exec

/-! ## Reachable factories -/

/-- The states of a factory and its process: after the constructor, after an
operation, as a new context of another factory, and while other factories of the
process work. -/
inductive Reachable (env : Env) : World → Prop where
  | constructed (p : Process) : Reachable env (World.constructed p)
  | operation {w : World} (h : Reachable env w) (fuel : Nat) (op : Operation) :
      Reachable env (perform env fuel op w).2
  | context {w w1 : World} (h : Reachable env w) (fuel : Nat) (ctxMode : ContextMode) {f : Factory}
      (hnew : createNewFactoryContext env (fuel + 3) ctxMode w = (.ok f, w1)) :
      Reachable env ⟨f, w1.process⟩
  | elsewhere {w : World} (h : Reachable env w) (p : Process) : Reachable env ⟨w.factory, p⟩

/-- The three core tables are those of the constructor. -/
structure Factory.HasCore (f : Factory) : Prop where
  bindings : f.coreBindings = Factory.freshCoreBindings
  factoryMethods : f.coreFactoryMethods = Factory.freshCoreFactoryMethods
  instances : f.coreInstances = Factory.freshCoreInstances

/-- Resolutions on the tables of `f0` that leave the core instances alone. -/
def coreFrame (f0 : Factory) : Frame World where
  pre w := w.factory.withoutCaches = f0.withoutCaches ∧ w.factory.HasCore
  rel w w1 := resolutionFrame.rel w w1 ∧ w1.factory.coreInstances = w.factory.coreInstances
  refl w := ⟨resolutionFrame.refl w, rfl⟩
  trans h h1 := ⟨resolutionFrame.trans h.1 h1.1, h1.2.trans h.2⟩
  stable h h1 := by
    refine ⟨h1.1.1.trans h.1, ?_, ?_, h1.2.trans h.2.instances⟩
    · exact (Factory.coreBindings_eq_of_withoutCaches h1.1.1).trans h.2.bindings
    · exact (Factory.coreFactoryMethods_eq_of_withoutCaches h1.1.1).trans h.2.factoryMethods

/-- A core component that could be created is in the cache already. -/
theorem governs_coreFrame (env : Env) (f0 : Factory) :
    Governs env f0 (coreFrame f0) fun _ => True where
  tables _ h := h.1
  weaker _ _ h := h.1
  process w w1 _ h := by
    refine ⟨resolutionFrame_of_processFrame h, ?_⟩
    rw [h.1]
  store w w1 b key ref hw h _ hkey hfree hbuilt := by
    refine ⟨⟨(Factory.withoutCaches_store _ _ _).trans h.1.1, h.1.2⟩, ?_⟩
    cases hkey with
    | component => exact h.2
    | named name => exact h.2
    | core hmask =>
      obtain ⟨c, hc⟩ := hbuilt.core hmask
      rw [hw.2.factoryMethods] at hc
      have hcached : w.factory.coreInstances b.componentUUID = some (.core c) := by
        rw [hw.2.instances, freshCoreFactoryMethods_some hc]
        exact freshCoreInstances_uuid c
      have hnone : w.factory.coreInstances b.componentUUID = none := hfree
      rw [hcached] at hnone
      cases hnone
  closed _ _ _ _ _ _ _ _ _ := trivial

theorem Factory.HasCore.of_runtime {f f1 : Factory} (h : f.HasCore) (hr : f1.runtime = f.runtime) :
    f1.HasCore := by
  have hbindings := congrArg Factory.coreBindings hr
  have hmethods := congrArg Factory.coreFactoryMethods hr
  have hinstances := congrArg Factory.coreInstances hr
  exact ⟨hbindings.trans h.bindings, hmethods.trans h.factoryMethods, hinstances.trans h.instances⟩

theorem perform_hasCore (env : Env) (fuel : Nat) (op : Operation) {w : World}
    (h : w.factory.HasCore) : (perform env fuel op w).2.factory.HasCore := by
  rcases op.cases with hd | hr | rfl
  · exact h.of_runtime (declares_perform env fuel hd w trivial).1
  · have hpre : (coreFrame w.factory).pre w := ⟨rfl, h⟩
    have hkeep := (governs_coreFrame env w.factory).keeps_perform fuel hr w hpre
    exact ((coreFrame w.factory).stable hpre hkeep).2
  · exact ⟨h.bindings, h.factoryMethods, h.instances⟩

/-- A new context is made of the new factory and, when it is cloned, of copies
of the contexts. -/
theorem createNewFactoryContext_run (env : Env) (fuel : Nat) (ctxMode : ContextMode) (w : World) :
    createNewFactoryContext env (fuel + 3) ctxMode w =
      (.ok (match ctxMode with
        | .empty => Factory.fresh
        | .cloned => Factory.fresh.assignContexts w.factory),
      ⟨w.factory, w.process.afterConstruction⟩) := by
  unfold createNewFactoryContext
  rw [gets_bind_run, bind_run_of_ok (constructFactory_run env fuel w)]
  cases ctxMode <;> rfl

/-- Every factory keeps its core tables. -/
theorem Reachable.hasCore {env : Env} {w : World} (h : Reachable env w) : w.factory.HasCore := by
  induction h with
  | constructed p => exact ⟨rfl, rfl, rfl⟩
  | operation _ fuel op ih => exact perform_hasCore env fuel op ih
  | context _ fuel ctxMode hnew _ =>
    rw [createNewFactoryContext_run] at hnew
    cases hnew
    cases ctxMode
    · exact ⟨rfl, rfl, rfl⟩
    · exact ⟨rfl, rfl, rfl⟩
  | elsewhere _ p ih => exact ih

/-! ## Cloned contexts -/

/-- The clone answers every query like its original, for any metadata. -/
def AnswersAlike (f f1 : Factory) (p : Process) : Prop := ∀ q, f1.answer p q = f.answer p q

/-- A cloned context answers like its original if and only if the original has no
module and no interface to enumerate. -/
theorem clone_answers_iff {env : Env} {fuel : Nat} {w w1 : World} {f : Factory}
    (hreach : Reachable env w)
    (hclone : createNewFactoryContext env (fuel + 3) .cloned w = (.ok f, w1)) :
    w1.factory = w.factory ∧ (AnswersAlike w.factory f w1.process ↔
      w.factory.registry.modulesVector = [] ∧ w.factory.registry.interfacesVector = []) := by
  rw [createNewFactoryContext_run] at hclone
  cases hclone
  refine ⟨rfl, ?_⟩
  have hcore : w.factory.coreBindings = Factory.fresh.coreBindings := hreach.hasCore.bindings
  constructor
  · intro halike
    have hmodules := halike .getModulesMetadata
    have hinterfaces := halike .getInterfacesMetadata
    simp only [Factory.answer, Except.ok.injEq, Observation.modules.injEq,
      Observation.interfacesMetadata.injEq] at hmodules hinterfaces
    exact ⟨List.map_eq_nil_iff.mp hmodules.symm, hinterfaces.symm⟩
  · rintro ⟨hmodules, hinterfaces⟩ q
    cases q with
    | getComponentUUID I =>
      simp only [Factory.answer, Factory.getComponentUUID, hcore]
      rfl
    | getNamedComponentUUID I name =>
      simp only [Factory.answer, Factory.getNamedComponentUUID, hcore]
      rfl
    | getModulesMetadata =>
      simp only [Factory.answer, hmodules]
      rfl
    | getInterfacesMetadata =>
      simp only [Factory.answer, hinterfaces]
      rfl
    | multiBindings _ | aliasExists _ _ | resolveAlias _ _ | getModuleUUID _
    | findModuleMetadata _ | findComponentMetadata _ | findInterfaceMetadata _
    | getConfigPath _ => rfl

/-- A factory with an alias and a binding. -/
def aliasWorld : World :=
  (performAll (Env.simple []) 0
    [.declareAlias .component "c" 2, .bind (.default 1) ⟨2, .transient, defaultOrAll, ""⟩]
    World.initial).2

/-- Its clone gives the same answers. -/
theorem clone_answers_alias :
    AnswersAlike aliasWorld.factory (Factory.fresh.assignContexts aliasWorld.factory)
      aliasWorld.process.afterConstruction := by
  have hreach : Reachable (Env.simple []) aliasWorld :=
    .operation (.operation (.constructed Process.initial) 0 (.declareAlias .component "c" 2)) 0
      (.bind (.default 1) ⟨2, .transient, defaultOrAll, ""⟩)
  have hclone : createNewFactoryContext (Env.simple []) (0 + 3) .cloned aliasWorld =
      (.ok (Factory.fresh.assignContexts aliasWorld.factory),
        ⟨aliasWorld.factory, aliasWorld.process.afterConstruction⟩) := rfl
  exact (clone_answers_iff hreach hclone).2.mpr ⟨rfl, rfl⟩

/-- A factory that loaded a file with one module. -/
def moduleWorld : World :=
  (perform (Env.simple []) 0 (.load "registry.xml" (registryFile []
    [.mk "module" [("uuid", uuidText1), ("name", "m"), ("path", "p"), ("description", "")] none
      []])) World.initial).2

/-- The clone finds the module and does not enumerate it. -/
theorem clone_enumerates_nothing :
    let clone := Factory.fresh.assignContexts moduleWorld.factory
    let p := moduleWorld.process.afterConstruction
    createNewFactoryContext (Env.simple []) 3 .cloned moduleWorld =
        (.ok clone, ⟨moduleWorld.factory, p⟩) ∧
      moduleWorld.factory.answer p .getModulesMetadata = .ok (.modules [p.module 0]) ∧
      clone.answer p .getModulesMetadata = .ok (.modules []) ∧
      clone.answer p (.findModuleMetadata 1) = .ok (.module (p.module 0)) ∧
      ¬ AnswersAlike moduleWorld.factory clone p := by
  refine ⟨rfl, rfl, rfl, rfl, fun halike => ?_⟩
  have h := halike .getModulesMetadata
  cases h

/-! ## Cleared factories -/

/-- `clear` leaves a new factory, but for the flag of the registry. -/
theorem Factory.HasCore.clear_eq {f : Factory} (h : f.HasCore) :
    f.clear = { Factory.fresh with autoAlias := f.autoAlias } := by
  unfold Factory.clear
  rw [h.bindings, h.factoryMethods, h.instances]
  rfl

/-- When the flag is off, a factory that was cleared and a factory that is
constructed now do the same from here on: the same results and the same worlds,
for every further history. -/
theorem cleared_like_new {env : Env} {fuel : Nat} {w : World} (hreach : Reachable env w)
    (hflag : w.factory.autoAlias = false) :
    ∃ w1, constructFactory env (fuel + 3) w = (.ok (), w1) ∧
      ∀ fuel1 ops, performAll env fuel1 ops
          (perform env fuel1 .clear ⟨w.factory, w1.process⟩).2 = performAll env fuel1 ops w1 := by
  refine ⟨_, constructFactory_run env fuel w, fun fuel1 ops => ?_⟩
  have hclear : w.factory.clear = Factory.fresh := by
    rw [hreach.hasCore.clear_eq, hflag]
    rfl
  have hworld : (perform env fuel1 .clear ⟨w.factory, w.process.afterConstruction⟩).2 =
      ⟨Factory.fresh, w.process.afterConstruction⟩ := by
    show (⟨w.factory.clear, w.process.afterConstruction⟩ : World) = _
    rw [hclear]
  rw [hworld]

/-- After a file without `autoAlias` the flag is off. -/
theorem cleared_like_new_module :
    ∃ w1, constructFactory (Env.simple []) 3 moduleWorld = (.ok (), w1) ∧
      ∀ fuel1 ops, performAll (Env.simple []) fuel1 ops
          (perform (Env.simple []) fuel1 .clear ⟨moduleWorld.factory, w1.process⟩).2 =
        performAll (Env.simple []) fuel1 ops w1 :=
  cleared_like_new (.operation (.constructed Process.initial) 0
    (.load "registry.xml" (registryFile []
      [.mk "module" [("uuid", uuidText1), ("name", "m"), ("path", "p"), ("description", "")] none
        []]))) rfl

/-- The flag of a file that was loaded before `clear` decides whether a module
introspected after it names its components. -/
theorem clear_keeps_autoAlias :
    let history : List Operation :=
      [.load "registry.xml" (registryFile [("autoAlias", "true")] []), .clear]
    let further : List Operation :=
      [.loadModuleMetadata (.ok ⟨uuidText1, "m", "", "p", [(uuidText2, "c", "")]⟩),
        .query (.aliasExists .component "c")]
    let w := (performAll (Env.simple []) 0 history World.initial).2
    (performAll (Env.simple []) 0 further w).1 = [.ok (.code .success), .ok (.flag true)] ∧
      (performAll (Env.simple []) 0 further (World.constructed w.process)).1 =
        [.ok (.code .success), .ok (.flag false)] := by
  refine ⟨rfl, rfl⟩

end Xpcf
