import Xpcf.Proofs.CachedComponents
import Xpcf.Proofs.ServedRequests

/-!
# Singletons are shared at every depth

Among the singleton requests of a history without `clear`, whether they are calls
or injections inside them, one that returned an instance leaves it in the cache.
Every later request under the same key returns this instance and creates
nothing.  A component that needs itself is the exception: a request for it that
is made inside its own creation comes to a cache that is still empty.

* `SharedServed`: the relation between the worlds before and after and the
  requests in between;
* `sharedFrame`: it is one that resolutions stay in;
* `singletons_shared`: the result, for histories.
-/

namespace Xpcf

open CodeLib CodeLib.Exec

/-! ## The relation -/

/-- The component of the request needs itself, on the tables it is resolved
with. -/
def Served.SelfNeeding (env : Env) (s : Served) : Prop :=
  Relation.TransGen (Needs env s.start.factory) s.bindInfos.componentUUID s.bindInfos.componentUUID

/-- No cache entry is lost, what a request returned is an entry at the end, and
it is one already where a later request under the same key starts. -/
structure SharedServed (env : Env) (w : World) (l : List Served) (w1 : World) : Prop where
  kept : w.CacheKept w1
  starts : ∀ s ∈ l, w.CacheKept s.start
  entries : ∀ s ∈ l, ¬ s.SelfNeeding env → ∀ ref, (s.run env).1 = .ok ref →
    w1.factory.cached s.key = some ref
  shared : l.Pairwise fun s s1 => s1.key = s.key → ¬ s.SelfNeeding env →
    ∀ ref, (s.run env).1 = .ok ref → s1.start.factory.cached s.key = some ref

namespace SharedServed

variable {env : Env} {w w1 w2 : World} {l l1 : List Served}

theorem nil (h : w.CacheKept w1) : SharedServed env w [] w1 :=
  ⟨h, fun _ hs => absurd hs List.not_mem_nil, fun _ hs => absurd hs List.not_mem_nil, .nil⟩

theorem trans (h : SharedServed env w l w1) (h1 : SharedServed env w1 l1 w2) :
    SharedServed env w (l ++ l1) w2 where
  kept := h.kept.trans h1.kept
  starts s hs := by
    rcases List.mem_append.mp hs with hs | hs
    · exact h.starts s hs
    · exact h.kept.trans (h1.starts s hs)
  entries s hs hself ref hrun := by
    rcases List.mem_append.mp hs with hs | hs
    · exact h1.kept _ _ (h.entries s hs hself ref hrun)
    · exact h1.entries s hs hself ref hrun
  shared := by
    refine List.pairwise_append.mpr ⟨h.shared, h1.shared, fun s hs s1 hs1 _ hself ref hrun => ?_⟩
    exact h1.starts s1 hs1 _ _ (h.entries s hs hself ref hrun)

end SharedServed

/-- Resolutions on the tables of `f0`, with requests for components in `P`. -/
def sharedFrame (env : Env) (f0 : Factory) (P : Uuid → Prop) : ListFrame World Served where
  pre := Later f0
  rel w l w1 := resolutionFrame.rel w w1 ∧ SharedServed env w l w1 ∧
    ∀ s ∈ l, Later f0 s.start ∧ KeyOf s.bindInfos s.key ∧ P s.bindInfos.componentUUID
  refl w := ⟨resolutionFrame.refl w, .nil (.refl w), fun _ hs => absurd hs List.not_mem_nil⟩
  trans h h1 := by
    refine ⟨resolutionFrame.trans h.1 h1.1, h.2.1.trans h1.2.1, fun s hs => ?_⟩
    exact (List.mem_append.mp hs).elim (h.2.2 s) (h1.2.2 s)
  stable h h1 :=
    ⟨h1.1.1.trans h.tables, fun key ref hc => h1.2.1.kept key ref (h.entries key ref hc)⟩

theorem Later.selfNeeding_iff {env : Env} {f0 : Factory} {s : Served} (h : Later f0 s.start) :
    s.SelfNeeding env ↔
      NeededBy env f0 s.bindInfos.componentUUID s.bindInfos.componentUUID := by
  unfold Served.SelfNeeding NeededBy
  rw [needs_congr env h.tables]

/-- Two requests under one key are for one component. -/
theorem componentUUID_of_key {s s1 : Served} (hkey : KeyOf s.bindInfos s.key)
    (hkey1 : KeyOf s1.bindInfos s1.key) (heq : s1.key = s.key) :
    s1.bindInfos.componentUUID = s.bindInfos.componentUUID := by
  rw [← hkey1.componentUUID_eq, heq, hkey.componentUUID_eq]

theorem governs_sharedFrame (env : Env) (f0 : Factory) :
    GovernsList env f0 (sharedFrame env f0) .all where
  later _ _ := Iff.rfl
  process P w w1 _ h := by
    refine ⟨resolutionFrame_of_processFrame h, .nil fun key ref hc => ?_, fun _ hs =>
      absurd hs List.not_mem_nil⟩
    rw [h.1]
    exact hc
  mono P P1 w l w1 hP h :=
    ⟨h.1, h.2.1, fun s hs => ⟨(h.2.2 s hs).1, (h.2.2 s hs).2.1, hP _ (h.2.2 s hs).2.2⟩⟩
  hit P s hlater hkey hP _ hsome := by
    refine ⟨resolutionFrame.refl _, ⟨.refl _, fun s1 hs1 => ?_, fun s1 hs1 _ ref hrun => ?_,
      List.pairwise_singleton _ _⟩, fun s1 hs1 => ?_⟩
    · obtain rfl := List.mem_singleton.mp hs1
      exact .refl _
    · obtain rfl := List.mem_singleton.mp hs1
      obtain ⟨found, hfound⟩ := Option.isSome_iff_exists.mp hsome
      rw [Served.run_of_cached hfound] at hrun
      cases hrun
      exact hfound
    · obtain rfl := List.mem_singleton.mp hs1
      exact ⟨hlater, hkey, hP⟩
  miss P s l out w1 hlater hkey hcovers _ hfree h hrun := by
    obtain ⟨hframe, hshared, hinside⟩ := h
    -- inside the creation, a request under the same key means a need for itself
    have hself : ∀ s1 ∈ l, s1.key = s.key → s.SelfNeeding env ∧ s1.SelfNeeding env := by
      intro s1 hs1 heq
      obtain ⟨hlater1, hkey1, hneeded⟩ := hinside s1 hs1
      have hcomponent := componentUUID_of_key hkey hkey1 heq
      rw [hlater.selfNeeding_iff, hlater1.selfNeeding_iff, hcomponent]
      rw [hcomponent] at hneeded
      exact ⟨hneeded, hneeded⟩
    have hmem : ∀ s1 ∈ s :: l,
        Later f0 s1.start ∧ KeyOf s1.bindInfos s1.key ∧ P s1.bindInfos.componentUUID := by
      intro s1 hs1
      rcases List.mem_cons.mp hs1 with rfl | hs1
      · exact ⟨hlater, hkey, hcovers _ Relation.ReflTransGen.refl⟩
      · obtain ⟨hlater1, hkey1, hneeded⟩ := hinside s1 hs1
        exact ⟨hlater1, hkey1, hcovers _ hneeded.to_reflTransGen⟩
    have hstarts : ∀ s1 ∈ s :: l, s.start.CacheKept s1.start := by
      intro s1 hs1
      rcases List.mem_cons.mp hs1 with rfl | hs1
      · exact .refl _
      · exact hshared.starts s1 hs1
    have hpairs : (s :: l).Pairwise fun s s1 => s1.key = s.key → ¬ s.SelfNeeding env →
        ∀ ref, (s.run env).1 = .ok ref → s1.start.factory.cached s.key = some ref :=
      .cons (fun s1 hs1 heq hns => absurd (hself s1 hs1 heq).1 hns) hshared.shared
    have hown : ∀ ref, (s.run env).1 = .ok ref → (s.run env).2.factory.cached s.key = some ref :=
      fun ref => Served.cached_of_run
    rcases Served.run_of_free hfree hrun with ⟨ref, _, hend⟩ | ⟨_, hend⟩
    · have htables : resolutionFrame.rel s.start (w1.store s.key ref) :=
        ⟨(Factory.withoutCaches_store _ _ _).trans hframe.1, hframe.2⟩
      rw [hend] at hown ⊢
      refine ⟨htables, ⟨hshared.kept.store hfree ref, hstarts, fun s1 hs1 hns ref1 hrun1 => ?_,
        hpairs⟩, hmem⟩
      rcases List.mem_cons.mp hs1 with rfl | hs1
      · rw [hend] at hrun1
        exact hown ref1 hrun1
      · have hne : s1.key ≠ s.key := fun heq => hns (hself s1 hs1 heq).2
        rw [World.store, Factory.cached_store_ne _ _ hne]
        exact hshared.entries s1 hs1 hns ref1 hrun1
    · rw [hend] at hown ⊢
      refine ⟨hframe, ⟨hshared.kept, hstarts, fun s1 hs1 hns ref1 hrun1 => ?_, hpairs⟩, hmem⟩
      rcases List.mem_cons.mp hs1 with rfl | hs1
      · rw [hend] at hrun1
        exact hown ref1 hrun1
      · exact hshared.entries s1 hs1 hns ref1 hrun1

/-! ## Calls and histories -/

/-- A resolution of the factory, with all the requests it makes. -/
theorem lists_perform {env : Env} {f0 : Factory} {F : (Uuid → Prop) → ListFrame World Served}
    (hF : GovernsList env f0 F .all) (fuel : Nat) {op : Operation}
    (hop : op.isResolution = true) :
    Lists (F fun _ => True) (perform env fuel op) (op.served env fuel) := by
  have hrc := lists_resolveComponent hF (Stacks.all_closed env f0) fuel
  have hrequests : ∀ levels i, Requests env f0 .all (fun _ => True) levels i := fun levels i =>
    ⟨fun _ _ _ _ => trivial, fun _ _ _ _ => ⟨trivial, fun _ => trivial⟩,
      fun _ _ _ _ => ⟨trivial, fun _ _ => trivial⟩⟩
  cases op with
  | resolve I ctx =>
    exact Lists.nil_bind (lists_resolve hF hrc (fun _ _ _ _ => trivial) fun _ _ _ =>
      ⟨trivial, fun _ => trivial⟩)
      fun _ => Lists.pure _
  | resolveNamed I name ctx =>
    exact Lists.nil_bind (lists_resolveNamed hF hrc (fun _ _ _ _ => trivial) fun _ _ _ =>
      ⟨trivial, fun _ => trivial⟩)
      fun _ => Lists.pure _
  | resolveAll I ctx =>
    exact Lists.nil_bind (lists_resolveAll hF hrc (fun _ _ _ _ => trivial)
      (fun _ _ _ _ => ⟨trivial, fun _ => trivial⟩)
      fun _ _ _ _ => ⟨trivial, fun _ _ => trivial⟩) fun _ => Lists.pure _
  | inject component ctx =>
    exact Lists.nil_bind (lists_inject hF hrc fun _ i _ => hrequests ctx i) fun _ => Lists.pure _
  | createComponent name C =>
    exact Lists.nil_bind (lists_creation hF hrc (keeps_resolveFromModule env C)
      (fun ref => keeps_configureCreated env name C ref) fun _ _ _ _ _ _ i _ => hrequests [] i)
      fun _ => Lists.pure _
  | query q => exact hF.keeps (Keeps.bind (Keeps.gets _) fun w => Keeps.ofExcept _)
  | autobind _ _ | bind _ _ | bindMethod _ _ _ | declareAlias _ _ _ | load _ _ | loadFolder _
  | loadModuleMetadata _ | loadModules _ | clear => cases hop

theorem Operation.served_of_declaration (env : Env) (fuel : Nat) {op : Operation}
    (hop : op.isDeclaration = true) (w : World) : op.served env fuel w = [] := by
  cases op with
  | autobind _ _ | bind _ _ | bindMethod _ _ _ | declareAlias _ _ _ | load _ _ | loadFolder _
  | loadModuleMetadata _ | loadModules _ => rfl
  | resolve _ _ | resolveNamed _ _ _ | resolveAll _ _ | inject _ _ | createComponent _ _ | query _
  | clear => cases hop

/-- Every operation but `clear`. -/
theorem perform_sharedServed (env : Env) (fuel : Nat) {op : Operation} (hop : op ≠ .clear)
    (w : World) : SharedServed env w (op.served env fuel w) (perform env fuel op w).2 := by
  rcases op.cases with hd | hr | hc
  · rw [op.served_of_declaration env fuel hd]
    exact .nil (perform_cacheKept env fuel hop w)
  · exact (lists_perform (governs_sharedFrame env w.factory) fuel hr w (Later.refl w)).2.1
  · exact absurd hc hop

theorem performAll_sharedServed (env : Env) (fuel : Nat) {ops : List Operation}
    (hops : ∀ op ∈ ops, op ≠ .clear) (w : World) :
    SharedServed env w (servedAll env fuel ops w) (performAll env fuel ops w).2 := by
  induction ops generalizing w with
  | nil => exact .nil (.refl w)
  | cons op rest ih =>
    have hfirst := perform_sharedServed env fuel (hops op List.mem_cons_self) w
    have hrest := ih fun op1 hm => hops op1 (List.mem_cons_of_mem op hm)
    rw [performAll, servedAll]
    rcases hr : perform env fuel op w with ⟨result | e | _ | _, w1⟩
    · rw [hr] at hfirst
      exact hfirst.trans (hrest w1)
    · rw [hr] at hfirst
      exact hfirst.trans (hrest w1)
    · rw [hr] at hfirst
      exact hfirst.trans (.nil (.refl w1))
    · rw [hr] at hfirst
      exact hfirst.trans (.nil (.refl w1))

/-! ## What the calls deliver -/

theorem mem_servedSelected {fuel : Nat}
    {inside : FactoryBindInfos → ContextLevels → World → List Served}
    {key : FactoryBindInfos → SingletonKey} {levels : ContextLevels} {b : FactoryBindInfos}
    (hs : b.scope = .singleton) (w : World) :
    ⟨fuel, key b, b, pushContext b levels, w⟩ ∈
      servedSelected fuel inside key levels (.ok b) w := by
  simp only [servedSelected, servedCached, hs, if_true]
  exact List.mem_cons_self

/-- A single component that a call delivers is what its request returned. -/
theorem served_of_selected {env : Env} {fuel : Nat} {levels : ContextLevels}
    (key : FactoryBindInfos → SingletonKey) {selected : Except Exc FactoryBindInfos}
    {k : SingletonKey} {w w1 : World} {ref : Instance} (hk : k ∈ keyOfSelected key selected)
    (h : (do
      let b ← ofExcept selected
      if b.scope = BindingScope.singleton then
        cachedInstance (key b) (resolveComponent env fuel b (pushContext b levels))
      else resolveComponent env fuel b (pushContext b levels)) w = (.ok ref, w1)) :
    ∃ s ∈ servedSelected fuel (served env fuel) key levels selected w, s.key = k ∧
      (s.run env).1 = .ok ref ∧ w1.factory.cached k = some ref := by
  obtain ⟨b, rfl, hs, rfl⟩ := mem_keyOfSelected hk
  rw [ofExcept_ok_bind_run, if_pos hs] at h
  exact ⟨_, mem_servedSelected hs w, rfl, congrArg Prod.fst h, (cachedInstance_ok h).1⟩

/-- Every singleton of a multi-binding is delivered from its cache entry. -/
theorem served_of_binds {env : Env} {fuel : Nat} {binds : List FactoryBindInfos}
    {levels : ContextLevels} {w w1 : World} {refs : List Instance}
    (h : resolveBinds (resolveComponent env fuel) binds levels w = (.ok refs, w1))
    {b : FactoryBindInfos} (hb : b ∈ binds) (hs : b.scope = .singleton) :
    ∃ s ∈ servedBinds env fuel (served env fuel) binds levels w,
      s.key = .component b.componentUUID ∧ ∃ ref, (s.run env).1 = .ok ref ∧
        w1.factory.cached (.component b.componentUUID) = some ref ∧ ref ∈ refs := by
  induction binds generalizing levels w refs with
  | nil => cases hb
  | cons b1 rest ih =>
    obtain ⟨shared, ref, others, wa, wb, hshared, hcomponent, hothers, rfl⟩ :=
      resolveBinds_cons_ok h
    unfold servedBinds
    dsimp only
    rcases List.mem_cons.mp hb with rfl | hmem
    · obtain ⟨ref1, rfl, hcached⟩ := resolveShared_ok hs hshared
      have hF := governs_cacheFrame env wa.factory
      have hrc := resolveComponent_sound hF fuel
      -- the entry survives the extra component and the rest of the loop
      have hab := (hrc.keeps trivial _).of_run (F := cacheFrame wa.factory) rfl hcomponent
      have hb1 := (keeps_resolveBinds hF hrc (fun _ _ => trivial) _).of_run
        ((cacheFrame wa.factory).stable rfl hab) hothers
      refine ⟨⟨fuel, _, b, pushContext b levels, w⟩, List.mem_append_left _ ?_, rfl, ref1,
        congrArg Prod.fst hcached, (hab.2.trans hb1.2) _ _ (cachedInstance_ok hcached).1,
        List.mem_append_left _ List.mem_cons_self⟩
      unfold servedShared servedCached
      rw [if_pos hs]
      exact List.mem_cons_self
    · obtain ⟨s, hmem1, hkey, ref1, hrun, hcached, hin⟩ := ih hothers hmem
      refine ⟨s, List.mem_append_right _ ?_, hkey, ref1, hrun, hcached,
        List.mem_append_right _ (List.mem_cons_of_mem _ hin)⟩
      rw [listThen_of_ok hshared]
      refine List.mem_append_right _ ?_
      rw [listThen_of_ok hcomponent]
      exact hmem1

/-- What a call delivers for a singleton it selects is what one of its requests
returned, and the entry of its key. -/
theorem perform_delivers {env : Env} {fuel : Nat} {op : Operation} {w w1 : World}
    {o : Observation} {key : SingletonKey} (h : perform env fuel op w = (.ok o, w1))
    (hkey : key ∈ w.singletonKeys op) :
    ∃ s ∈ op.served env fuel w, s.key = key ∧ ∃ ref, (s.run env).1 = .ok ref ∧
      w1.factory.cached key = some ref ∧ o.Delivers ref := by
  cases op with
  | resolve I ctx =>
    obtain ⟨ref, w2, hres, hret⟩ := bind_ok_iff.mp h
    cases hret
    obtain ⟨s, hs, hk, hrun, hcached⟩ := served_of_selected unnamedKey hkey hres
    exact ⟨s, hs, hk, ref, hrun, hcached, rfl⟩
  | resolveNamed I name ctx =>
    obtain ⟨ref, w2, hres, hret⟩ := bind_ok_iff.mp h
    cases hret
    obtain ⟨s, hs, hk, hrun, hcached⟩ :=
      served_of_selected (fun b => .named b.componentUUID name) hkey hres
    exact ⟨s, hs, hk, ref, hrun, hcached, rfl⟩
  | resolveAll I ctx =>
    obtain ⟨refs, w2, hres, hret⟩ := bind_ok_iff.mp h
    cases hret
    unfold resolveAll resolveAllWith at hres
    rw [gets_bind_run] at hres
    unfold World.singletonKeys at hkey
    unfold Operation.served servedResolveAll
    cases hmulti : w.factory.context.multiBindings I with
    | none =>
      simp only [hmulti] at hres hkey ⊢
      obtain ⟨ref, w3, hone, hret⟩ := bind_ok_iff.mp hres
      cases hret
      obtain ⟨s, hs, hk, hrun, hcached⟩ := served_of_selected unnamedKey hkey hone
      exact ⟨s, hs, hk, ref, hrun, hcached, List.mem_cons_self⟩
    | some binds =>
      simp only [hmulti] at hres hkey ⊢
      obtain ⟨b, hb, rfl⟩ := List.mem_map.mp hkey
      obtain ⟨hmem, hs⟩ := List.mem_filter.mp hb
      exact served_of_binds hres hmem (of_decide_eq_true hs)
  | autobind _ _ | bind _ _ | bindMethod _ _ _ | declareAlias _ _ _ | load _ _ | loadFolder _
  | loadModuleMetadata _ | loadModules _ | inject _ _ | createComponent _ _ | query _
  | clear => cases hkey

/-- The requests of a call are requests of the history. -/
theorem Performs.served_subset {env : Env} {fuel : Nat} {op : Operation} {ops : List Operation}
    {w w1 : World} (h : Performs env fuel op w1 ops w) :
    op.served env fuel w1 ⊆ servedAll env fuel ops w := by
  induction h with
  | here rest =>
    intro s hs
    rw [servedAll]
    exact List.mem_append_left _ hs
  | @later first rest w0 hgoes h ih =>
    intro s hs
    have hmem := ih hs
    rw [servedAll]
    refine List.mem_append_right _ ?_
    rcases hr : perform env fuel first w0 with ⟨result | e | _ | _, w2⟩
    · rw [hr] at hmem
      exact hmem
    · rw [hr] at hmem
      exact hmem
    · rw [hr] at hgoes
      cases hgoes
    · rw [hr] at hgoes
      cases hgoes

/-- What is cached after a call is cached at the end of the history. -/
theorem Performs.cacheKept {env : Env} {fuel : Nat} {op : Operation} {ops : List Operation}
    {w w1 : World} (h : Performs env fuel op w1 ops w) (hops : ∀ op ∈ ops, op ≠ .clear) :
    (perform env fuel op w1).2.CacheKept (performAll env fuel ops w).2 := by
  induction h with
  | here rest =>
    rcases performAll_cons env fuel op rest w1 with hend | ⟨_, hrest⟩
    · rw [hend]
      exact .refl _
    · rw [hrest]
      exact performAll_cacheKept env fuel (fun op1 h1 => hops op1 (List.mem_cons_of_mem op h1)) _
  | later hgoes h ih =>
    rw [performAll_of_goesOn hgoes]
    exact ih fun op1 h1 => hops op1 (List.mem_cons_of_mem _ h1)

/-! ## The result -/

/-- How the singletons of a history are shared. -/
structure HistoryShares (env : Env) (fuel : Nat) (ops : List Operation) (w : World) : Prop where
  /-- After a request that returned, every request under its key returns the same
  instance and changes nothing, whatever the depth of the two. -/
  requests : (servedAll env fuel ops w).Pairwise fun s s1 => s1.key = s.key →
    ¬ s.SelfNeeding env → ∀ ref, (s.run env).1 = .ok ref → s1.run env = (.ok ref, s1.start)
  /-- What a request returned is the entry of its key at the end. -/
  entries : ∀ s ∈ servedAll env fuel ops w, ¬ s.SelfNeeding env →
    ∀ ref, (s.run env).1 = .ok ref → (performAll env fuel ops w).2.factory.cached s.key = some ref
  /-- What a call delivers for a singleton it selected is what one of these
  requests returned, and the entry of its key at the end. -/
  calls : ∀ op w1, Performs env fuel op w1 ops w → ∀ key ∈ w1.singletonKeys op, ∀ o w2,
    perform env fuel op w1 = (.ok o, w2) → ∃ ref, o.Delivers ref ∧
      (∃ s ∈ servedAll env fuel ops w, s.key = key ∧ (s.run env).1 = .ok ref) ∧
      (performAll env fuel ops w).2.factory.cached key = some ref
  /-- With an entry at the start, no request under its key creates anything. -/
  cached : ∀ key ref, w.factory.cached key = some ref → ∀ s ∈ servedAll env fuel ops w,
    s.key = key → s.run env = (.ok ref, s.start)

/-- Components 3 and 5 need interface 1.  Factory function 2 makes a new object at
each call, the others make the object with their own number. -/
def sharedEnv : Env :=
  { Env.simple [1, 3, 5] with
    getComponent := fun _ _ _ => .ok none
    factoryFunc := fun factoryFunc tick => .ok (if factoryFunc = 2 then 10 + tick else factoryFunc)
    injectables := fun id _ => if id = 3 ∨ id = 5 then [⟨1, none, false, false⟩] else [] }

/-- Interface 1 is bound to component 2, a singleton.  It is injected in
component 3, in an object of the caller, and resolved by a call. -/
def sharedOps : List Operation :=
  [.bindMethod (.default 1) 2 ⟨2, .singleton, defaultOrAll, ""⟩,
    .bindMethod (.default 3) 3 ⟨3, .transient, defaultOrAll, ""⟩,
    .resolve 3 [], .inject (.user 5) [], .resolve 1 []]

/-- The requests of that history; the first one is made inside the creation of
component 3. -/
def sharedRequests : List Served := servedAll sharedEnv 3 sharedOps World.initial

theorem needs_sharedEnv {f : Factory}
    (hcore : f.coreFactoryMethods = Factory.freshCoreFactoryMethods)
    (hmethod : f.context.factoryMethods 2 = some 2) {C : Uuid} : ¬ Needs sharedEnv f 2 C := by
  rintro ⟨injectable, ⟨ref, hcreates, tick, hi⟩, _⟩
  cases hcreates with
  | module file tick0 _ hcall => cases hcall
  | method factoryFunc tick0 id hfunc hcall =>
    rw [hmethod] at hfunc
    cases hfunc
    cases hcall
    have hmem : injectable ∈ sharedEnv.injectables (10 + tick0) tick := hi
    have hnone : sharedEnv.injectables (10 + tick0) tick = [] := by
      have hne : ¬ (10 + tick0 = 3 ∨ 10 + tick0 = 5) := by omega
      exact if_neg hne
    rw [hnone] at hmem
    cases hmem
  | core c _ hc _ =>
    rw [hcore] at hc
    cases hc

/-- `reentrantEnv`, where every `onInjected` returns. -/
def nestedEnv : Env := { reentrantEnv with onInjected := fun _ _ => .ok () }

end Xpcf
