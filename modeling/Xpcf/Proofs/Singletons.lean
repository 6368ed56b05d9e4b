import Xpcf.Proofs.Construction

/-!
# Singletons are shared

A singleton binding is served from a cache.  Which cache, and under which key,
depends on the path that selected the binding: the component UUID for an unnamed
or a multi-binding, the component UUID and the requested name for a named
request, and the core instances for a core binding.  Two requests with the same
key get the same instance, whatever was bound, loaded or resolved in between:
no operation but `clear` replaces a cache entry (`perform_cacheKept`).
-/

namespace Xpcf

open CodeLib CodeLib.Exec

/-! ## Cache entries stay -/

/-- Every cache entry of the first world is an entry of the second. -/
def World.CacheKept (w w1 : World) : Prop :=
  ∀ key ref, w.factory.cached key = some ref → w1.factory.cached key = some ref

theorem World.CacheKept.refl (w : World) : w.CacheKept w := fun _ _ h => h

theorem World.CacheKept.trans {w w1 w2 : World} (h : w.CacheKept w1) (h1 : w1.CacheKept w2) :
    w.CacheKept w2 :=
  fun key ref hc => h1 key ref (h key ref hc)

/-- Storing under a key that had no entry overwrites nothing. -/
theorem World.CacheKept.store {w w1 : World} (h : w.CacheKept w1) {key : SingletonKey}
    (hfree : w.factory.cached key = none) (ref : Instance) : w.CacheKept (w1.store key ref) := by
  intro key1 ref1 hc
  have hne : key1 ≠ key := by
    rintro rfl
    rw [hfree] at hc
    cases hc
  rw [World.store, Factory.cached_store_ne _ _ hne]
  exact h key1 ref1 hc

/-- A world that resolutions which began on `f0` may be in: the tables of `f0`,
and its cache entries among others. -/
structure Later (f0 : Factory) (w : World) : Prop where
  tables : w.factory.withoutCaches = f0.withoutCaches
  entries : ∀ key ref, f0.cached key = some ref → w.factory.cached key = some ref

theorem Later.refl (w : World) : Later w.factory w := ⟨rfl, fun _ _ h => h⟩

theorem Later.none_of_none {f0 : Factory} {w : World} (h : Later f0 w) {key : SingletonKey}
    (hfree : w.factory.cached key = none) : f0.cached key = none := by
  cases hc : f0.cached key with
  | none => rfl
  | some ref =>
    rw [h.entries key ref hc] at hfree
    cases hfree

/-- Resolutions on the tables of `f0`, which keep every cache entry. -/
def cacheFrame (f0 : Factory) : Frame World where
  pre w := w.factory.withoutCaches = f0.withoutCaches
  rel w w1 := resolutionFrame.rel w w1 ∧ w.CacheKept w1
  refl w := ⟨resolutionFrame.refl w, .refl w⟩
  trans h h1 := ⟨resolutionFrame.trans h.1 h1.1, h.2.trans h1.2⟩
  stable h h1 := h1.1.1.trans h

theorem governs_cacheFrame (env : Env) (f0 : Factory) :
    Governs env f0 (cacheFrame f0) fun _ => True where
  tables _ h := h
  weaker _ _ h := h.1
  process w w1 _ h := by
    refine ⟨resolutionFrame_of_processFrame h, fun key ref hc => ?_⟩
    rw [h.1]
    exact hc
  store w w1 _ key ref _ h _ _ hfree _ := by
    refine ⟨⟨?_, h.1.2⟩, h.2.store hfree ref⟩
    exact (Factory.withoutCaches_store _ _ _).trans h.1.1
  closed _ _ _ _ _ _ _ _ _ := trivial

/-- The states a resolution on the tables of `f0` goes through. -/
abbrev SameTables (f0 : Factory) (w : World) : Prop := (cacheFrame f0).pre w

/-- The same, for resolutions that begin with at least the entries of `f0`. -/
def laterFrame (f0 : Factory) : Frame World where
  pre := Later f0
  rel := (cacheFrame f0).rel
  refl := (cacheFrame f0).refl
  trans := (cacheFrame f0).trans
  stable h h1 := ⟨h1.1.1.trans h.tables, fun key ref hc => h1.2 key ref (h.entries key ref hc)⟩

theorem governs_laterFrame (env : Env) (f0 : Factory) :
    Governs env f0 (laterFrame f0) fun _ => True where
  tables _ h := h.tables
  weaker _ _ h := h.1
  process w w1 h := (governs_cacheFrame env f0).process w w1 h.tables
  store w w1 b key ref h := (governs_cacheFrame env f0).store w w1 b key ref h.tables
  closed _ _ _ _ _ _ _ _ _ := trivial

/-- No operation but `clear` removes or replaces a cache entry. -/
theorem perform_cacheKept (env : Env) (fuel : Nat) {op : Operation} (hop : op ≠ .clear)
    (w : World) : w.CacheKept (perform env fuel op w).2 := by
  rcases op.cases with hd | hr | hc
  · intro key ref hcached
    have hruntime := (declares_perform env fuel hd w trivial).1
    rw [Factory.cached_eq_of_runtime hruntime key]
    exact hcached
  · exact ((governs_cacheFrame env w.factory).keeps_perform fuel hr w rfl).2
  · exact absurd hc hop

theorem performAll_cacheKept (env : Env) (fuel : Nat) {ops : List Operation}
    (hops : ∀ op ∈ ops, op ≠ .clear) (w : World) : w.CacheKept (performAll env fuel ops w).2 :=
  performAll_rel (R := World.CacheKept) World.CacheKept.refl World.CacheKept.trans
    (fun op hm w => perform_cacheKept env fuel (hops op hm) w) w

/-! ## The keys an operation selects -/

/-- The key of the selected binding, if it is a singleton. -/
def keyOfSelected (key : FactoryBindInfos → SingletonKey) :
    Except Exc FactoryBindInfos → List SingletonKey
  | .ok bindInfos => if bindInfos.scope = .singleton then [key bindInfos] else []
  | .error _ => []

/-- The cache keys of the singleton bindings a call selects. -/
def World.singletonKeys (w : World) : Operation → List SingletonKey
  | .resolve interfaceUUID contextLevels =>
    keyOfSelected unnamedKey
      (resolveBind w.factory.context w.factory.coreBindings interfaceUUID contextLevels)
  | .resolveNamed interfaceUUID name contextLevels =>
    keyOfSelected (fun b => .named b.componentUUID name)
      (resolveNamedBind w.factory.context w.factory.coreBindings interfaceUUID name contextLevels)
  | .resolveAll interfaceUUID contextLevels =>
    match w.factory.context.multiBindings interfaceUUID with
    | none =>
      keyOfSelected unnamedKey
        (resolveBind w.factory.context w.factory.coreBindings interfaceUUID contextLevels)
    | some binds =>
      (binds.filter fun b => b.scope = .singleton).map fun b => .component b.componentUUID
  | _ => []

/-- The call returned this instance, alone or in its list. -/
def Observation.Delivers : Observation → Instance → Prop
  | .component ref1, ref => ref1 = ref
  | .components refs, ref => ref ∈ refs
  | _, _ => False

theorem mem_keyOfSelected {key : FactoryBindInfos → SingletonKey}
    {selected : Except Exc FactoryBindInfos} {k : SingletonKey}
    (h : k ∈ keyOfSelected key selected) :
    ∃ b, selected = .ok b ∧ b.scope = .singleton ∧ k = key b := by
  cases selected with
  | error e => cases h
  | ok b =>
    change k ∈ (if b.scope = .singleton then [key b] else []) at h
    by_cases hs : b.scope = .singleton
    · rw [if_pos hs] at h
      exact ⟨b, rfl, hs, List.mem_singleton.mp h⟩
    · rw [if_neg hs] at h
      cases h

/-- One pass of the loop of `resolveAll`, taken apart. -/
theorem resolveBinds_cons_ok {rc : FactoryBindInfos → ContextLevels → XpcfM Instance}
    {b : FactoryBindInfos} {rest : List FactoryBindInfos} {contextLevels : ContextLevels}
    {w w1 : World} {refs : List Instance}
    (h : resolveBinds rc (b :: rest) contextLevels w = (.ok refs, w1)) :
    ∃ shared ref others wa wb,
      resolveShared rc b (pushContext b contextLevels) w = (.ok shared, wa) ∧
      rc b (pushContext b contextLevels) wa = (.ok ref, wb) ∧
      resolveBinds rc rest (pushContext b contextLevels) wb = (.ok others, w1) ∧
      refs = shared ++ ref :: others := by
  obtain ⟨shared, wa, hshared, h2⟩ := bind_ok_iff.mp h
  obtain ⟨ref, wb, hcomponent, h3⟩ := bind_ok_iff.mp h2
  obtain ⟨others, wc, hothers, hret⟩ := bind_ok_iff.mp h3
  cases hret
  exact ⟨shared, ref, others, wa, wb, hshared, hcomponent, hothers, rfl⟩

theorem resolveShared_ok {rc : FactoryBindInfos → ContextLevels → XpcfM Instance}
    {b : FactoryBindInfos} {contextLevels : ContextLevels} {w w1 : World} {shared : List Instance}
    (hs : b.scope = .singleton) (h : resolveShared rc b contextLevels w = (.ok shared, w1)) :
    ∃ ref, shared = [ref] ∧
      cachedInstance (.component b.componentUUID) (rc b contextLevels) w = (.ok ref, w1) := by
  unfold resolveShared at h
  rw [if_pos hs] at h
  obtain ⟨ref, wa, hcached, hret⟩ := bind_ok_iff.mp h
  cases hret
  exact ⟨ref, rfl, hcached⟩

end Xpcf
