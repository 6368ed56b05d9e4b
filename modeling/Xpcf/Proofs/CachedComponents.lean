import Xpcf.Proofs.Needs

/-!
# What the caches hold

A component reaches a cache after `resolveComponent` returned it, at whatever
depth and whatever exceptions were swallowed on the way.  So every entry of the
three caches is a completely built component, and a component that could not be
built leaves no entry.

* `Completed`: what the record of calls shows about a component;
* `completeFrame`: every new cache entry is `Completed`;
* `keysFrame`: the cache entries of one component UUID stay as they are.
-/

namespace Xpcf

open CodeLib CodeLib.Exec

/-! ## Completed components -/

/-- All mandatory injectables of the component were injected, `onInjected`
returned and, when the component is configurable and has a configuration file,
`configure` succeeded. -/
structure Completed (env : Env) (f : Factory) (componentUUID : Uuid) (ref : Instance)
    (log : List Event) : Prop where
  created : Event.created componentUUID (.ok ref) ∈ log
  injected : ∃ tick, ∀ injectable ∈ env.injectablesOf ref tick, injectable.optional = false →
    ∃ refs, Event.injected ref injectable refs ∈ log
  onInjected : Event.onInjected ref (.ok ()) ∈ log
  configured : env.implements ref uuidIConfigurable = true → f.configPath componentUUID ≠ "" →
    ∃ properties, Event.configured ref (f.configPath componentUUID) properties (.ok .success) ∈ log

theorem Completed.mono {env : Env} {f : Factory} {componentUUID : Uuid} {ref : Instance}
    {log log1 : List Event} (h : Completed env f componentUUID ref log) (hlog : log <+: log1) :
    Completed env f componentUUID ref log1 := by
  refine ⟨hlog.subset h.created, ?_, hlog.subset h.onInjected, fun himpl hpath => ?_⟩
  · obtain ⟨tick, hinjected⟩ := h.injected
    refine ⟨tick, fun i hi hm => ?_⟩
    obtain ⟨refs, hrefs⟩ := hinjected i hi hm
    exact ⟨refs, hlog.subset hrefs⟩
  · obtain ⟨properties, hconf⟩ := h.configured himpl hpath
    exact ⟨properties, hlog.subset hconf⟩

theorem World.mem_of_newEvents {w w1 : World} {e : Event} (h : e ∈ w.newEvents w1) :
    e ∈ w1.process.log :=
  List.mem_of_mem_drop h

/-- What `resolveComponent` returned is completed. -/
theorem Built.completed {env : Env} {f0 : Factory} {w w1 : World} {b : FactoryBindInfos}
    {ref : Instance} (h : Built env w b ref w1)
    (htables : w.factory.withoutCaches = f0.withoutCaches) :
    Completed env f0 b.componentUUID ref w1.process.log := by
  have hpath := Factory.configPath_eq_of_withoutCaches htables b.componentUUID
  refine ⟨World.mem_of_newEvents h.created, ?_, World.mem_of_newEvents h.onInjected, ?_⟩
  · obtain ⟨tick, hinjected⟩ := h.injected
    refine ⟨tick, fun i hi hm => ?_⟩
    obtain ⟨refs, hrefs⟩ := hinjected i hi hm
    exact ⟨refs, World.mem_of_newEvents hrefs⟩
  · rw [← hpath]
    intro himpl hne
    exact ⟨_, World.mem_of_newEvents (h.configured himpl hne)⟩

/-! ## One resolution -/

/-- On the tables of `f0`, every cache entry that is new is completed. -/
def completeFrame (env : Env) (f0 : Factory) : Frame World where
  pre w := w.factory.withoutCaches = f0.withoutCaches
  rel w w1 := resolutionFrame.rel w w1 ∧ ∀ key ref, w1.factory.cached key = some ref →
    w.factory.cached key = some ref ∨ Completed env f0 key.componentUUID ref w1.process.log
  refl w := ⟨resolutionFrame.refl w, fun _ _ h => .inl h⟩
  trans h h1 := by
    refine ⟨resolutionFrame.trans h.1 h1.1, fun key ref hcached => ?_⟩
    rcases h1.2 key ref hcached with hold | hnew
    · rcases h.2 key ref hold with holder | hmid
      · exact .inl holder
      · exact .inr (hmid.mono h1.1.2.log)
    · exact .inr hnew
  stable h h1 := h1.1.1.trans h

theorem governs_completeFrame (env : Env) (f0 : Factory) :
    Governs env f0 (completeFrame env f0) fun _ => True where
  tables _ h := h
  weaker _ _ h := h.1
  process w w1 _ h := by
    refine ⟨resolutionFrame_of_processFrame h, fun key ref hcached => ?_⟩
    rw [h.1] at hcached
    exact .inl hcached
  store w w1 b key ref hw h _ hkey _ hbuilt := by
    refine ⟨⟨(Factory.withoutCaches_store _ _ _).trans h.1.1, h.1.2⟩, fun key1 ref1 hcached => ?_⟩
    by_cases heq : key1 = key
    · subst heq
      rw [World.store, Factory.cached_store_self, Option.some.injEq] at hcached
      subst hcached
      rw [hkey.componentUUID_eq]
      exact .inr (hbuilt.completed hw)
    · rw [World.store, Factory.cached_store_ne _ _ heq] at hcached
      exact h.2 key1 ref1 hcached
  closed _ _ _ _ _ _ _ _ _ := trivial

/-! ## Histories -/

/-- The operation found no entry under the key, left this one, and completed it
on the tables it worked with. -/
structure StoresCompleted (env : Env) (fuel : Nat) (op : Operation) (w : World)
    (key : SingletonKey) (ref : Instance) : Prop where
  free : w.factory.cached key = none
  stored : (perform env fuel op w).2.factory.cached key = some ref
  completed : Completed env w.factory key.componentUUID ref (perform env fuel op w).2.process.log

theorem Factory.cached_of_clear {f : Factory} {key : SingletonKey} {ref : Instance}
    (h : f.clear.cached key = some ref) : f.cached key = some ref := by
  cases key with
  | component C => cases h
  | named C name => cases h
  | core C => exact h

/-- One operation, whichever way it ends: an entry was there before, or the
operation completed it. -/
theorem perform_stores {env : Env} {fuel : Nat} {op : Operation} {w : World} {key : SingletonKey}
    {ref : Instance} (h : (perform env fuel op w).2.factory.cached key = some ref) :
    w.factory.cached key = some ref ∨ StoresCompleted env fuel op w key ref := by
  rcases op.cases with hd | hr | rfl
  · have hruntime := (declares_perform env fuel hd w trivial).1
    rw [Factory.cached_eq_of_runtime hruntime key] at h
    exact .inl h
  · have hnew := ((governs_completeFrame env w.factory).keeps_perform fuel hr w rfl).2
    rcases hnew key ref h with hold | hcompleted
    · exact .inl hold
    · cases hfree : w.factory.cached key with
      | none => exact .inr ⟨hfree, h, hcompleted⟩
      | some old =>
        -- an entry that was there is kept, so it is this one
        have hkept := ((governs_cacheFrame env w.factory).keeps_perform fuel hr w rfl).2
        have heq := (hkept key old hfree).symm.trans h
        exact .inl heq
  · exact .inl (Factory.cached_of_clear h)

/-- Every history: an entry was there at its start, or one of its operations
completed it. -/
theorem performAll_stores {env : Env} {fuel : Nat} {ops : List Operation} {w : World}
    {key : SingletonKey} {ref : Instance}
    (h : (performAll env fuel ops w).2.factory.cached key = some ref) :
    w.factory.cached key = some ref ∨
      ∃ op w1, Performs env fuel op w1 ops w ∧ StoresCompleted env fuel op w1 key ref := by
  induction ops generalizing w with
  | nil => exact .inl h
  | cons op rest ih =>
    have hfirst : (perform env fuel op w).2.factory.cached key = some ref →
        w.factory.cached key = some ref ∨ ∃ op1 w1, Performs env fuel op1 w1 (op :: rest) w ∧
          StoresCompleted env fuel op1 w1 key ref := fun h1 =>
      (perform_stores h1).imp_right fun hs => ⟨op, w, .here rest, hs⟩
    rcases performAll_cons env fuel op rest w with hend | ⟨hgoes, hrest⟩
    · rw [hend] at h
      exact hfirst h
    · rw [hrest] at h
      rcases ih h with hold | ⟨op1, w1, hperforms, hstores⟩
      · exact hfirst hold
      · exact .inr ⟨op1, w1, .later hgoes hperforms, hstores⟩

/-! ## The constructor -/

/-- The managers of a new factory are completed. -/
theorem constructed_completed (env : Env) (p : Process) {key : SingletonKey} {ref : Instance}
    (hcached : (World.constructed p).factory.cached key = some ref) :
    Completed env (World.constructed p).factory key.componentUUID ref
      (World.constructed p).process.log := by
  cases key with
  | component C => cases hcached
  | named C name => cases hcached
  | core C =>
    obtain ⟨c, rfl, rfl⟩ := freshCoreInstances_some hcached
    have hinterfaces : c.interfaces.contains uuidIConfigurable = false := by
      cases c <;> decide
    refine ⟨?_, ⟨0, fun i hi _ => ?_⟩, ?_, fun himpl => ?_⟩
    · cases c <;> simp [World.constructed, Process.afterConstruction, Process.setSlot,
        SingletonKey.componentUUID]
    · cases c with
      | aliasManager => cases hi
      | registry =>
        obtain rfl := List.mem_singleton.mp hi
        exact ⟨[.core .aliasManager],
          by simp [World.constructed, Process.afterConstruction, Process.setSlot]⟩
      | propertyManager =>
        rcases List.mem_cons.mp hi with rfl | hi
        · exact ⟨[.core .aliasManager],
            by simp [World.constructed, Process.afterConstruction, Process.setSlot]⟩
        · obtain rfl := List.mem_singleton.mp hi
          exact ⟨[.core .registry],
            by simp [World.constructed, Process.afterConstruction, Process.setSlot]⟩
    · cases c <;> simp [World.constructed, Process.afterConstruction, Process.setSlot]
    · have hcontra : c.interfaces.contains uuidIConfigurable = true := himpl
      rw [hinterfaces] at hcontra
      cases hcontra

/-! ## A resolution that throws -/

/-- The cache entries of a component UUID are the same in both worlds. -/
def World.KeysKept (w : World) (componentUUID : Uuid) (w1 : World) : Prop :=
  ∀ key, key.componentUUID = componentUUID → w1.factory.cached key = w.factory.cached key

/-- Resolutions on the tables of `f0` that write no cache entry of the
component. -/
def keysFrame (f0 : Factory) (componentUUID : Uuid) : Frame World where
  pre w := w.factory.withoutCaches = f0.withoutCaches
  rel w w1 := resolutionFrame.rel w w1 ∧ w.KeysKept componentUUID w1
  refl w := ⟨resolutionFrame.refl w, fun _ _ => rfl⟩
  trans h h1 :=
    ⟨resolutionFrame.trans h.1 h1.1, fun key hkey => (h1.2 key hkey).trans (h.2 key hkey)⟩
  stable h h1 := h1.1.1.trans h

/-- The bindings whose component does not need the component, through however
many others. -/
def WithoutNeed (env : Env) (f0 : Factory) (componentUUID : Uuid) (b : FactoryBindInfos) : Prop :=
  ¬ Relation.ReflTransGen (Needs env f0) b.componentUUID componentUUID

theorem governs_keysFrame (env : Env) (f0 : Factory) (componentUUID : Uuid) :
    Governs env f0 (keysFrame f0 componentUUID) (WithoutNeed env f0 componentUUID) where
  tables _ h := h
  weaker _ _ h := h.1
  process w w1 _ h := by
    refine ⟨resolutionFrame_of_processFrame h, fun key _ => ?_⟩
    rw [h.1]
  store w w1 b key ref _ h hb hkey _ _ := by
    refine ⟨⟨(Factory.withoutCaches_store _ _ _).trans h.1.1, h.1.2⟩, fun key1 hkey1 => ?_⟩
    have hne : key1 ≠ key := by
      rintro rfl
      rw [hkey.componentUUID_eq] at hkey1
      exact hb (hkey1 ▸ Relation.ReflTransGen.refl)
    rw [World.store, Factory.cached_store_ne _ _ hne]
    exact h.2 key1 hkey1
  closed b ref hb hcreates tick i hi b1 hcand hreach := by
    have hneed := (hcreates.declares hi).needs hcand
    exact hb (Relation.ReflTransGen.head hneed hreach)

/-- Building a component that does not need itself writes none of its cache
entries, however it ends. -/
theorem resolveComponent_keysKept {env : Env} {w : World} {b : FactoryBindInfos}
    (hself : ¬ Relation.TransGen (Needs env w.factory) b.componentUUID b.componentUUID)
    (fuel : Nat) (contextLevels : ContextLevels) :
    w.KeysKept b.componentUUID (resolveComponent env fuel b contextLevels w).2 := by
  cases fuel with
  | zero => exact fun key _ => rfl
  | succ n =>
    have hF := governs_keysFrame env w.factory b.componentUUID
    have hsound := resolveComponent_sound hF n
    have hI : ∀ ref, Creates env w.factory b.componentUUID ref →
        ∀ tick, ∀ i ∈ env.injectablesOf ref tick, ∀ b1, Candidate w.factory i.uuid b1 →
          WithoutNeed env w.factory b.componentUUID b1 := by
      intro ref hcreates tick i hi b1 hcand hreach
      have hneed := (hcreates.declares hi).needs hcand
      exact hself (Relation.TransGen.head' hneed hreach)
    exact (keeps_resolveComponentWith hF hsound hI contextLevels w rfl).2

/-- A cached instance that could not be had could not be created. -/
theorem cachedInstance_throws {key : SingletonKey} {create : XpcfM Instance} {w w1 : World}
    {e : Exc} (h : cachedInstance key create w = (.throws e, w1)) : create w = (.throws e, w1) := by
  unfold cachedInstance at h
  rw [gets_bind_run] at h
  cases hfound : w.factory.cached key with
  | some ref =>
    rw [hfound] at h
    cases h
  | none =>
    simp only [hfound] at h
    rw [bind_run] at h
    rcases hcreate : create w with ⟨ref | e1 | _ | _, w2⟩
    · rw [hcreate] at h
      unfold modifyFactory at h
      simp only [modify_bind_run, gets_bind_run, Factory.cached_store_self] at h
      cases h
    · rw [hcreate] at h
      exact h
    · rw [hcreate] at h
      cases h
    · rw [hcreate] at h
      cases h

/-- The creation that throws, in a pass of the loop of `resolveAll` that starts in
`w`: that of the shared instance, or the one every binding gets.  The last
argument is the world it starts in. -/
inductive PassFails (rc : FactoryBindInfos → ContextLevels → XpcfM Instance) (b : FactoryBindInfos)
    (contextLevels : ContextLevels) (w : World) (e : Exc) (w1 : World) : World → Prop where
  | shared (h : resolveShared rc b contextLevels w = (.throws e, w1)) :
      PassFails rc b contextLevels w e w1 w
  | each {shared : List Instance} {w2 : World}
      (hshared : resolveShared rc b contextLevels w = (.ok shared, w2))
      (h : rc b contextLevels w2 = (.throws e, w1)) : PassFails rc b contextLevels w e w1 w2

/-- A loop that throws does so in one of its passes. -/
theorem resolveBinds_throws {rc : FactoryBindInfos → ContextLevels → XpcfM Instance}
    {binds : List FactoryBindInfos} {contextLevels : ContextLevels} {w w1 : World} {e : Exc}
    (h : resolveBinds rc binds contextLevels w = (.throws e, w1)) :
    ∃ before b after refs w2 w3, binds = before ++ b :: after ∧
      resolveBinds rc before contextLevels w = (.ok refs, w2) ∧
      PassFails rc b (levelsOf (b :: before.reverse) ++ contextLevels) w2 e w1 w3 := by
  induction binds generalizing contextLevels w with
  | nil => cases h
  | cons b rest ih =>
    rcases bind_throws_iff.mp h with hshared | ⟨shared, wa, hshared, h2⟩
    · exact ⟨[], b, rest, [], w, w, rfl, rfl, .shared hshared⟩
    rcases bind_throws_iff.mp h2 with heach | ⟨ref, wb, heach, h3⟩
    · exact ⟨[], b, rest, [], w, wa, rfl, rfl, .each hshared heach⟩
    rcases bind_throws_iff.mp h3 with hrest | ⟨others, wc, _, hret⟩
    · obtain ⟨before, b1, after, refs, w2, w3, rfl, hbefore, hfails⟩ := ih hrest
      refine ⟨b :: before, b1, after, shared ++ ref :: refs, w2, w3, rfl, ?_, ?_⟩
      · unfold resolveBinds
        rw [bind_run_of_ok hshared, bind_run_of_ok heach, bind_run_of_ok hbefore]
        rfl
      · have hlevels : levelsOf (b1 :: (b :: before).reverse) ++ contextLevels =
            levelsOf (b1 :: before.reverse) ++ pushContext b contextLevels := by
          rw [List.reverse_cons, ← List.cons_append, levelsOf_append, List.append_assoc]
          rfl
        rw [hlevels]
        exact hfails
    · cases hret

/-- A resolution that throws after it selected a binding leaves no entry for the
component of that binding, when this component does not need itself.  In
`resolveAll` it is the creation that throws that leaves none. -/
structure FailureKeepsKeys (env : Env) (w : World) : Prop where
  component : ∀ fuel b contextLevels e w1,
    ¬ Relation.TransGen (Needs env w.factory) b.componentUUID b.componentUUID →
    resolveComponent env fuel b contextLevels w = (.throws e, w1) → w.KeysKept b.componentUUID w1
  unnamed : ∀ fuel interfaceUUID contextLevels b e w1,
    resolveBind w.factory.context w.factory.coreBindings interfaceUUID contextLevels = .ok b →
    ¬ Relation.TransGen (Needs env w.factory) b.componentUUID b.componentUUID →
    resolve env fuel interfaceUUID contextLevels w = (.throws e, w1) → w.KeysKept b.componentUUID w1
  named : ∀ fuel interfaceUUID name contextLevels b e w1,
    resolveNamedBind w.factory.context w.factory.coreBindings interfaceUUID name contextLevels =
      .ok b →
    ¬ Relation.TransGen (Needs env w.factory) b.componentUUID b.componentUUID →
    resolveNamed env fuel interfaceUUID name contextLevels w = (.throws e, w1) →
    w.KeysKept b.componentUUID w1
  /-- `resolveAll` of an interface without a multi-binding. -/
  single : ∀ fuel interfaceUUID contextLevels b e w1,
    w.factory.context.multiBindings interfaceUUID = none →
    resolveBind w.factory.context w.factory.coreBindings interfaceUUID contextLevels = .ok b →
    ¬ Relation.TransGen (Needs env w.factory) b.componentUUID b.componentUUID →
    resolveAll env fuel interfaceUUID contextLevels w = (.throws e, w1) →
    w.KeysKept b.componentUUID w1
  all : ∀ fuel interfaceUUID contextLevels binds e w1,
    w.factory.context.multiBindings interfaceUUID = some binds →
    resolveAll env fuel interfaceUUID contextLevels w = (.throws e, w1) →
    ∃ before b after refs w2 w3, binds = before ++ b :: after ∧
      resolveBinds (resolveComponent env fuel) before contextLevels w = (.ok refs, w2) ∧
      PassFails (resolveComponent env fuel) b (levelsOf (b :: before.reverse) ++ contextLevels) w2 e
        w1 w3 ∧
      (b.scope = .transient → w3 = w2) ∧
      (¬ Relation.TransGen (Needs env w.factory) b.componentUUID b.componentUUID →
        w3.KeysKept b.componentUUID w1)
  created : ∀ fuel name C e w1, ¬ Relation.TransGen (Needs env w.factory) C C →
    createComponent env fuel name C w = (.throws e, w1) → w.KeysKept C w1

section Failures

variable {env : Env} {w w1 : World} {fuel : Nat} {b : FactoryBindInfos}
  {contextLevels : ContextLevels} {e : Exc}

theorem failed_component
    (hself : ¬ Relation.TransGen (Needs env w.factory) b.componentUUID b.componentUUID)
    (h : resolveComponent env fuel b contextLevels w = (.throws e, w1)) :
    w.KeysKept b.componentUUID w1 := by
  have hkept := resolveComponent_keysKept hself fuel contextLevels
  rw [h] at hkept
  exact hkept

theorem failed_unnamed {interfaceUUID : Uuid}
    (hsel : resolveBind w.factory.context w.factory.coreBindings interfaceUUID contextLevels =
      .ok b)
    (hself : ¬ Relation.TransGen (Needs env w.factory) b.componentUUID b.componentUUID)
    (h : resolve env fuel interfaceUUID contextLevels w = (.throws e, w1)) :
    w.KeysKept b.componentUUID w1 := by
  unfold resolve resolveWith at h
  rw [gets_bind_run, hsel, ofExcept_ok_bind_run] at h
  split at h
  · exact failed_component hself (cachedInstance_throws h)
  · exact failed_component hself h

theorem failed_named {interfaceUUID : Uuid} {name : String}
    (hsel : resolveNamedBind w.factory.context w.factory.coreBindings interfaceUUID name
      contextLevels = .ok b)
    (hself : ¬ Relation.TransGen (Needs env w.factory) b.componentUUID b.componentUUID)
    (h : resolveNamed env fuel interfaceUUID name contextLevels w = (.throws e, w1)) :
    w.KeysKept b.componentUUID w1 := by
  unfold resolveNamed resolveNamedWith at h
  rw [gets_bind_run, hsel, ofExcept_ok_bind_run] at h
  split at h
  · exact failed_component hself (cachedInstance_throws h)
  · exact failed_component hself h

/-- The creation that fails in a pass, whichever of the two it is. -/
theorem PassFails.keysKept {w2 : World}
    (h : PassFails (resolveComponent env fuel) b contextLevels w e w1 w2)
    (hself : ¬ Relation.TransGen (Needs env w2.factory) b.componentUUID b.componentUUID) :
    w2.KeysKept b.componentUUID w1 := by
  cases h with
  | shared h =>
    unfold resolveShared at h
    split at h
    · rcases bind_throws_iff.mp h with hcached | ⟨ref, w3, _, hret⟩
      · exact failed_component hself (cachedInstance_throws hcached)
      · cases hret
    · cases h
  | each _ h => exact failed_component hself h

/-- A transient binding has one creation only. -/
theorem PassFails.start_eq {rc : FactoryBindInfos → ContextLevels → XpcfM Instance} {w2 : World}
    (h : PassFails rc b contextLevels w e w1 w2) (hscope : b.scope = .transient) : w2 = w := by
  cases h with
  | shared h => rfl
  | each hshared h =>
    have hne : b.scope ≠ .singleton := by
      rw [hscope]
      decide
    unfold resolveShared at hshared
    rw [if_neg hne] at hshared
    cases hshared
    rfl

/-- The worlds of a loop have the same tables. -/
theorem resolveBinds_withoutCaches {binds : List FactoryBindInfos} {refs : List Instance}
    (h : resolveBinds (resolveComponent env fuel) binds contextLevels w = (.ok refs, w1)) :
    w1.factory.withoutCaches = w.factory.withoutCaches := by
  have hF := governs_cacheFrame env w.factory
  have hsound := resolveComponent_sound hF fuel
  exact ((keeps_resolveBinds hF hsound (fun _ _ => trivial) _).of_run rfl h).1.1

theorem PassFails.withoutCaches {w2 : World}
    (h : PassFails (resolveComponent env fuel) b contextLevels w e w1 w2) :
    w2.factory.withoutCaches = w.factory.withoutCaches := by
  cases h with
  | shared h => rfl
  | each hshared h =>
    have hF := governs_cacheFrame env w.factory
    have hsound := resolveComponent_sound hF fuel
    exact ((keeps_resolveShared hF hsound trivial _).of_run rfl hshared).1.1

theorem failed_all {interfaceUUID : Uuid} {binds : List FactoryBindInfos}
    (hbinds : w.factory.context.multiBindings interfaceUUID = some binds)
    (h : resolveAll env fuel interfaceUUID contextLevels w = (.throws e, w1)) :
    ∃ before b after refs w2 w3, binds = before ++ b :: after ∧
      resolveBinds (resolveComponent env fuel) before contextLevels w = (.ok refs, w2) ∧
      PassFails (resolveComponent env fuel) b (levelsOf (b :: before.reverse) ++ contextLevels) w2 e
        w1 w3 ∧
      (b.scope = .transient → w3 = w2) ∧
      (¬ Relation.TransGen (Needs env w.factory) b.componentUUID b.componentUUID →
        w3.KeysKept b.componentUUID w1) := by
  unfold resolveAll resolveAllWith at h
  rw [gets_bind_run] at h
  simp only [hbinds] at h
  obtain ⟨before, b, after, refs, w2, w3, hsplit, hbefore, hfails⟩ := resolveBinds_throws h
  refine ⟨before, b, after, refs, w2, w3, hsplit, hbefore, hfails, hfails.start_eq, fun hself => ?_⟩
  have htables := hfails.withoutCaches.trans (resolveBinds_withoutCaches hbefore)
  refine hfails.keysKept ?_
  rw [needs_congr env htables]
  exact hself

theorem failed_single {interfaceUUID : Uuid}
    (hmulti : w.factory.context.multiBindings interfaceUUID = none)
    (hsel : resolveBind w.factory.context w.factory.coreBindings interfaceUUID contextLevels =
      .ok b)
    (hself : ¬ Relation.TransGen (Needs env w.factory) b.componentUUID b.componentUUID)
    (h : resolveAll env fuel interfaceUUID contextLevels w = (.throws e, w1)) :
    w.KeysKept b.componentUUID w1 := by
  unfold resolveAll resolveAllWith at h
  rw [gets_bind_run] at h
  simp only [hmulti] at h
  rcases bind_throws_iff.mp h with hone | ⟨ref, w2, _, hret⟩
  · exact failed_unnamed hsel hself hone
  · cases hret

/-- `createComponent` stores nothing itself. -/
theorem failed_created {name : Option String} {C : Uuid}
    (hself : ¬ Relation.TransGen (Needs env w.factory) C C)
    (h : createComponent env fuel name C w = (.throws e, w1)) : w.KeysKept C w1 := by
  have hF := governs_keysFrame env w.factory C
  have hsound := resolveComponent_sound hF fuel
  refine ((keeps_createComponentWith hF hsound ?_ name).of_run rfl h).2
  intro ref file tick0 hcall tick i hi b hcand hreach
  have hcreates : Creates env w.factory C ref := .module file tick0 ref hcall
  exact hself (Relation.TransGen.head' ((hcreates.declares hi).needs hcand) hreach)

end Failures

theorem failureKeepsKeys (env : Env) (w : World) : FailureKeepsKeys env w where
  component _ _ _ _ _ hself h := failed_component hself h
  unnamed _ _ _ _ _ _ hsel hself h := failed_unnamed hsel hself h
  named _ _ _ _ _ _ _ hsel hself h := failed_named hsel hself h
  single _ _ _ _ _ _ hmulti hsel hself h := failed_single hmulti hsel hself h
  all _ _ _ _ _ _ hbinds h := failed_all hbinds h
  created _ _ _ _ _ hself h := failed_created hself h

/-! ## The result -/

/-- Component 2 (factory function 0) may use interface 3, and component 4
(factory function 1) needs interface 1.  Objects are named by the moment they
are created; the first one of component 2 throws in `onInjected`. -/
def reentrantEnv : Env :=
  { Env.simple [1, 3] with
    injectables := fun id _ =>
      if id = 10 then [⟨1, none, false, false⟩] else [⟨3, none, false, true⟩]
    onInjected := fun id _ => if id = 9 then .error (.exception "not ready") else .ok () }

/-- Both interfaces are bound by default; for component 4, interface 1 is bound
to component 2 in an `Explicit` range. -/
def reentrantWorld : World :=
  (performAll reentrantEnv 0
    [.bindMethod (.default 1) 0 ⟨2, .singleton, defaultOrAll, ""⟩,
      .bindMethod (.default 3) 1 ⟨4, .transient, defaultOrAll, ""⟩,
      .bind (.specific 4 1) ⟨2, .singleton, BindingRange.explicit.bits, ""⟩] World.initial).2

end Xpcf
