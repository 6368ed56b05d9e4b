import Xpcf.Proofs.InjectionTrees
import Xpcf.Proofs.ServedRequests

/-!
# The components of a multi-binding

`resolveAll` pushes a level for each binding of a multi-binding and takes none
away, so the k-th component is injected below the levels of the k-1 components
before it.  The stacks of its injection tree differ from those it has alone by
these levels, which lie between its own level and the incoming context.  And it
may find singletons in the caches that were created for one of the components
before it.

* `SameAsAlone`: the injection tree of the component is the one it has alone;
* `Independent`: what that means for the levels and the ranges;
* `RunsAlone`: what it means for the run of `resolveAll`;
* `siblings_iff`: the three of them.
-/

namespace Xpcf

open CodeLib CodeLib.Exec

/-! ## The singletons of an injection -/

/-- The requests for a singleton without a cache entry, in the injection of `root`
below `base`: the key, the component and its levels. -/
inductive Wants (env : Env) (f : Factory) (root : Uuid) (base : ContextLevels) :
    SingletonKey → Uuid → List FactoryBindInfos → Prop where
  | single {C : Uuid} {own : List FactoryBindInfos} {injectable : Injector} {b : FactoryBindInfos}
      (h : InTree env f root base C own) (hdecl : Declares env f C injectable)
      (hmulti : f.multiBind injectable = none)
      (hselect : f.selectBind injectable (levelsOf own ++ base) = .ok b)
      (hscope : b.scope = .singleton) (hfree : f.cached (injectable.key b) = none) :
      Wants env f root base (injectable.key b) b.componentUUID (b :: own)
  | multi {C : Uuid} {own : List FactoryBindInfos} {injectable : Injector}
      {before after : List FactoryBindInfos} {b : FactoryBindInfos}
      (h : InTree env f root base C own) (hdecl : Declares env f C injectable)
      (hmulti : f.multiBind injectable = some (before ++ b :: after))
      (hscope : b.scope = .singleton) (hfree : f.cached (.component b.componentUUID) = none) :
      Wants env f root base (.component b.componentUUID) b.componentUUID
        (b :: (before.reverse ++ own))

/-- The stack of the pass that resolves `b` after the bindings in `before`. -/
def passLevels (before : List FactoryBindInfos) (b : FactoryBindInfos)
    (contextLevels : ContextLevels) : ContextLevels :=
  levelsOf (b :: before.reverse) ++ contextLevels

/-- The requests for a singleton without a cache entry in that pass, with all the
levels above the incoming context. -/
inductive PassWants (env : Env) (f : Factory) (before : List FactoryBindInfos)
    (b : FactoryBindInfos) (contextLevels : ContextLevels) :
    SingletonKey → Uuid → List FactoryBindInfos → Prop where
  | top (hscope : b.scope = .singleton) (hfree : f.cached (.component b.componentUUID) = none) :
      PassWants env f before b contextLevels (.component b.componentUUID) b.componentUUID
        (b :: before.reverse)
  | inside {key : SingletonKey} {C : Uuid} {own : List FactoryBindInfos}
      (h : Wants env f b.componentUUID (passLevels before b contextLevels) key C own) :
      PassWants env f before b contextLevels key C (own ++ b :: before.reverse)

/-! ## The tree a component has alone -/

/-- After the bindings in `before`, the injection of `top` creates the components
it creates as the only binding, and selects the same bindings for each of their
injectables.  Where it finds a singleton that one of the bindings before it
created, that one was injected with the same bindings. -/
structure SameAsAlone (env : Env) (f : Factory) (before : List FactoryBindInfos)
    (top : FactoryBindInfos) (contextLevels : ContextLevels) : Prop where
  components : ∀ C own,
    InTree env f top.componentUUID (passLevels before top contextLevels) C own ↔
      InTree env f top.componentUUID (passLevels [] top contextLevels) C own
  selections : SameInjections env f top.componentUUID (passLevels [] top contextLevels)
    (passLevels before top contextLevels)
  shared : ∀ key C levels, PassWants env f [] top contextLevels key C levels →
    ∀ before1 b after levels1, before = before1 ++ b :: after →
      PassWants env f before1 b contextLevels key C levels1 →
      SameInjections env f C (levelsOf levels ++ contextLevels)
        (levelsOf levels1 ++ contextLevels)

/-- No request of the tree that `top` has alone is disturbed by the levels of the
earlier bindings, and those inside a singleton that an earlier binding wants as
well get there what they get here. -/
structure Independent (env : Env) (f : Factory) (before : List FactoryBindInfos)
    (top : FactoryBindInfos) (contextLevels : ContextLevels) : Prop where
  undisturbed : ∀ C own, InTree env f top.componentUUID (passLevels [] top contextLevels) C own →
    ∀ injectable, Declares env f C injectable → f.multiBind injectable = none →
      Undisturbed f injectable (own ++ [top]) before.reverse contextLevels
  shared : ∀ key C levels, PassWants env f [] top contextLevels key C levels →
    ∀ before1 b after levels1, before = before1 ++ b :: after →
      PassWants env f before1 b contextLevels key C levels1 →
      ∀ C1 own, InTree env f C (levelsOf levels ++ contextLevels) C1 own →
        ∀ injectable, Declares env f C1 injectable → f.multiBind injectable = none →
          requestChoice f injectable (own ++ levels1) contextLevels =
            requestChoice f injectable (own ++ levels) contextLevels

section Trees

variable {env : Env} {f : Factory} {top : FactoryBindInfos} {before : List FactoryBindInfos}
  {contextLevels : ContextLevels}

theorem selectBind_passLevels_iff {injectable : Injector} {own : List FactoryBindInfos} :
    (f.selectBind injectable (levelsOf own ++ passLevels before top contextLevels)).toOption =
        (f.selectBind injectable (levelsOf own ++ passLevels [] top contextLevels)).toOption ↔
      Undisturbed f injectable (own ++ [top]) before.reverse contextLevels := by
  have hwith : levelsOf own ++ passLevels before top contextLevels =
      levelsOf (own ++ [top]) ++ (levelsOf before.reverse ++ contextLevels) := by
    rw [levelsOf_append, List.append_assoc]
    rfl
  have halone : levelsOf own ++ passLevels [] top contextLevels =
      levelsOf (own ++ [top]) ++ contextLevels := by
    rw [levelsOf_append, List.append_assoc]
    rfl
  rw [hwith, halone]
  exact selectBind_eq_iff

theorem selectBind_levels (injectable : Injector) (own levels : List FactoryBindInfos) :
    (f.selectBind injectable (levelsOf own ++ (levelsOf levels ++ contextLevels))).toOption =
      requestChoice f injectable (own ++ levels) contextLevels := by
  rw [← List.append_assoc, ← levelsOf_append]
  exact selectBind_toOption f injectable (own ++ levels) contextLevels

/-- The tree is the one the component has alone exactly when nothing disturbs it. -/
theorem sameAsAlone_iff :
    SameAsAlone env f before top contextLevels ↔ Independent env f before top contextLevels := by
  constructor
  · intro h
    refine ⟨fun C own htree i hdecl hmulti => ?_, ?_⟩
    · exact selectBind_passLevels_iff.mp (h.selections C own htree i hdecl hmulti)
    · intro key C levels hwants before1 b after levels1 hsplit hwants1 C1 own htree i hdecl hmulti
      have hsame := h.shared key C levels hwants before1 b after levels1 hsplit hwants1
      rw [← selectBind_levels, ← selectBind_levels]
      exact hsame C1 own htree i hdecl hmulti
  · intro h
    have hselections : SameInjections env f top.componentUUID (passLevels [] top contextLevels)
        (passLevels before top contextLevels) := fun C own htree i hdecl hmulti =>
      selectBind_passLevels_iff.mpr (h.undisturbed C own htree i hdecl hmulti)
    refine ⟨fun C own => hselections.inTree_iff, hselections, ?_⟩
    intro key C levels hwants before1 b after levels1 hsplit hwants1 C1 own htree i hdecl hmulti
    rw [selectBind_levels, selectBind_levels]
    exact h.shared key C levels hwants before1 b after levels1 hsplit hwants1 C1 own htree i hdecl
      hmulti

end Trees

/-! ## Where a cache entry comes from -/

/-- Every new cache entry was created by one of the requests, and they were made in
these stacks. -/
structure Placed (env : Env) (f0 : Factory) (T : Stacks) (w : World) (l : List Served)
    (w1 : World) : Prop where
  frame : (cacheFrame f0).rel w w1
  entries : ∀ key ref, w1.factory.cached key = some ref → w.factory.cached key = some ref ∨
    ∃ s ∈ l, s.key = key ∧ s.start.factory.cached key = none ∧ (s.run env).1 = .ok ref
  places : ∀ s ∈ l, Later f0 s.start ∧
    (f0.cached s.key = none → T.requested s.key s.bindInfos.componentUUID s.contextLevels)

def placedFrame (env : Env) (f0 : Factory) (T : Stacks) : ListFrame World Served where
  pre := Later f0
  rel := Placed env f0 T
  refl w := ⟨(cacheFrame f0).refl w, fun _ _ h => .inl h, fun _ hs => absurd hs List.not_mem_nil⟩
  trans {w w1 w2 l l1} h h1 := by
    refine ⟨(cacheFrame f0).trans h.frame h1.frame, fun key ref hcached => ?_, fun s hs => ?_⟩
    · rcases h1.entries key ref hcached with hold | ⟨s, hs, hnew⟩
      · rcases h.entries key ref hold with holder | ⟨s, hs, hnew⟩
        · exact .inl holder
        · exact .inr ⟨s, List.mem_append_left _ hs, hnew⟩
      · exact .inr ⟨s, List.mem_append_right _ hs, hnew⟩
    · exact (List.mem_append.mp hs).elim (h.places s) (h1.places s)
  stable h h1 := (laterFrame f0).stable h h1.frame

theorem governs_placedFrame (env : Env) (f0 : Factory) (T : Stacks) :
    GovernsList env f0 (fun _ => placedFrame env f0 T) T where
  later _ _ := Iff.rfl
  process P w w1 hw h := by
    refine ⟨(governs_laterFrame env f0).process w w1 hw h, fun key ref hcached => ?_, fun _ hs =>
      absurd hs List.not_mem_nil⟩
    rw [h.1] at hcached
    exact .inl hcached
  mono _ _ _ _ _ _ h := h
  hit P s hlater _ _ hrequested _ := by
    refine ⟨(cacheFrame f0).refl _, fun _ _ h => .inl h, fun s1 hs1 => ?_⟩
    obtain rfl := List.mem_singleton.mp hs1
    exact ⟨hlater, hrequested⟩
  miss P s l out w1 hlater _ _ hrequested hfree h hrun := by
    have hplaces : ∀ s1 ∈ s :: l, Later f0 s1.start ∧ (f0.cached s1.key = none →
        T.requested s1.key s1.bindInfos.componentUUID s1.contextLevels) := by
      intro s1 hs1
      rcases List.mem_cons.mp hs1 with rfl | hs1
      · exact ⟨hlater, fun _ => hrequested⟩
      · exact h.places s1 hs1
    have hinside : ∀ key ref, w1.factory.cached key = some ref →
        s.start.factory.cached key = some ref ∨ ∃ s1 ∈ s :: l, s1.key = key ∧
          s1.start.factory.cached key = none ∧ (s1.run env).1 = .ok ref := by
      intro key ref hcached
      rcases h.entries key ref hcached with hold | ⟨s1, hs1, hnew⟩
      · exact .inl hold
      · exact .inr ⟨s1, List.mem_cons_of_mem s hs1, hnew⟩
    rcases Served.run_of_free hfree hrun with ⟨ref, _, hend⟩ | ⟨_, hend⟩
    · have hframe : (cacheFrame f0).rel s.start (w1.store s.key ref) :=
        ⟨⟨(Factory.withoutCaches_store _ _ _).trans h.frame.1.1, h.frame.1.2⟩,
          h.frame.2.store hfree ref⟩
      rw [hend]
      refine ⟨hframe, fun key ref1 hcached => ?_, hplaces⟩
      by_cases heq : key = s.key
      · subst heq
        rw [World.store, Factory.cached_store_self, Option.some.injEq] at hcached
        subst hcached
        exact .inr ⟨s, List.mem_cons_self, rfl, hfree, by rw [hend]⟩
      · rw [World.store, Factory.cached_store_ne _ _ heq] at hcached
        exact hinside key ref1 hcached
    · rw [hend]
      exact ⟨h.frame, hinside, hplaces⟩

/-- The stacks of the passes of a loop. -/
def passStacks (env : Env) (f0 : Factory) (binds : List FactoryBindInfos)
    (contextLevels : ContextLevels) : Stacks where
  allowed C levels := ∃ before b after own, binds = before ++ b :: after ∧
    InTree env f0 b.componentUUID (passLevels before b contextLevels) C own ∧
    levels = levelsOf own ++ passLevels before b contextLevels
  requested key C levels := ∃ before b after own, binds = before ++ b :: after ∧
    PassWants env f0 before b contextLevels key C own ∧ levels = levelsOf own ++ contextLevels

theorem passStacks_closed (env : Env) (f0 : Factory) (binds : List FactoryBindInfos)
    (contextLevels : ContextLevels) : (passStacks env f0 binds contextLevels).Closed env f0 where
  single := by
    rintro C levels i b ⟨before, b0, after, own, hsplit, htree, rfl⟩ hdecl hmulti hselect hfree
    refine ⟨⟨before, b0, after, b :: own, hsplit, .single htree hdecl hmulti hselect hfree, rfl⟩,
      fun hscope => ?_⟩
    refine ⟨before, b0, after, _, hsplit,
      .inside (.single htree hdecl hmulti hselect hscope (hfree hscope)), ?_⟩
    rw [levelsOf_append, List.append_assoc]
    rfl
  multi := by
    rintro C levels i before1 b after1 ⟨before, b0, after, own, hsplit, htree, rfl⟩ hdecl hmulti
    have hlevels : levelsOf (b :: before1.reverse) ++
        (levelsOf own ++ passLevels before b0 contextLevels) =
        levelsOf (b :: (before1.reverse ++ own)) ++ passLevels before b0 contextLevels := by
      rw [← List.append_assoc, ← levelsOf_append, List.cons_append]
    refine ⟨⟨before, b0, after, _, hsplit, .multi htree hdecl hmulti, hlevels⟩,
      fun hscope hfree => ?_⟩
    refine ⟨before, b0, after, _, hsplit, .inside (.multi htree hdecl hmulti hscope hfree), ?_⟩
    rw [hlevels, levelsOf_append, List.append_assoc]
    rfl

/-- The loop over a list of bindings, on the tables and the entries it starts
with. -/
theorem placed_resolveBinds (env : Env) (fuel : Nat) (binds : List FactoryBindInfos)
    (contextLevels : ContextLevels) (w : World) :
    Placed env w.factory (passStacks env w.factory binds contextLevels) w
      (servedBinds env fuel (served env fuel) binds contextLevels w)
      (resolveBinds (resolveComponent env fuel) binds contextLevels w).2 := by
  have hF := governs_placedFrame env w.factory (passStacks env w.factory binds contextLevels)
  have hrc := lists_resolveComponent hF (passStacks_closed env w.factory binds contextLevels) fuel
  refine lists_resolveBinds hF hrc (P := fun _ => True) (fun _ _ _ _ => trivial) ?_ w (Later.refl w)
  intro before b after hsplit
  exact ⟨⟨before, b, after, [], hsplit, .root, rfl⟩, fun hscope hfree =>
    ⟨before, b, after, _, hsplit, .top hscope hfree, rfl⟩⟩

/-! ## The run of `resolveAll` -/

/-- The pass of `top` after the bindings in `before`, in the run of `resolveAll`
that starts in `w`. -/
structure RunsAlone (env : Env) (fuel : Nat) (w : World) (before : List FactoryBindInfos)
    (top : FactoryBindInfos) (contextLevels : ContextLevels) : Prop where
  /-- From every world on the tables of `w` the pass ends as it does in the
  incoming context, and in the same world. -/
  pass : Agree w.factory (resolveBinds (resolveComponent env fuel) [top] contextLevels)
    (resolveBinds (resolveComponent env fuel) [top] (levelsOf before.reverse ++ contextLevels))
  /-- So the loop over a list with `top` behind `before` ends as if this pass were made
  in the incoming context, and those before and behind it where they are. -/
  loop : ∀ after, Agree w.factory
    (do
      let refs ← resolveBinds (resolveComponent env fuel) before contextLevels
      let own ← resolveBinds (resolveComponent env fuel) [top] contextLevels
      let others ← resolveBinds (resolveComponent env fuel) after
        (levelsOf (top :: before.reverse) ++ contextLevels)
      pure (refs ++ (own ++ others)))
    (resolveBinds (resolveComponent env fuel) (before ++ top :: after) contextLevels)
  /-- The pass starts in such a world. -/
  reached : ∀ refs w1,
    resolveBinds (resolveComponent env fuel) before contextLevels w = (.ok refs, w1) →
    Later w.factory w1
  /-- A singleton that it wants and that is cached by then was created by a request
  of an earlier pass, whose run in the stack `top` has alone is the same. -/
  shared : ∀ refs w1,
    resolveBinds (resolveComponent env fuel) before contextLevels w = (.ok refs, w1) →
    ∀ key C levels, PassWants env w.factory [] top contextLevels key C levels →
    ∀ ref, w1.factory.cached key = some ref →
      ∃ s ∈ servedBinds env fuel (served env fuel) before contextLevels w,
        s.key = key ∧ (s.run env).1 = .ok ref ∧ s.start.factory.cached key = none ∧
        SameEnd Exc.SameKind
          (resolveComponent env s.fuel s.bindInfos (levelsOf levels ++ contextLevels) s.start).1
          (resolveComponent env s.fuel s.bindInfos s.contextLevels s.start).1 ∧
        (resolveComponent env s.fuel s.bindInfos s.contextLevels s.start).2 =
          (resolveComponent env s.fuel s.bindInfos (levelsOf levels ++ contextLevels) s.start).2

theorem Wants.free {env : Env} {f : Factory} {root C : Uuid} {base : ContextLevels}
    {key : SingletonKey} {own : List FactoryBindInfos} (h : Wants env f root base key C own) :
    f.cached key = none ∧ key.componentUUID = C := by
  cases h with
  | single _ _ _ _ _ hfree => exact ⟨hfree, (keyOf_key _ _).componentUUID_eq⟩
  | multi _ _ _ _ hfree => exact ⟨hfree, rfl⟩

theorem PassWants.free {env : Env} {f : Factory} {before : List FactoryBindInfos}
    {b : FactoryBindInfos} {contextLevels : ContextLevels} {key : SingletonKey} {C : Uuid}
    {levels : List FactoryBindInfos} (h : PassWants env f before b contextLevels key C levels) :
    f.cached key = none ∧ key.componentUUID = C := by
  cases h with
  | top _ hfree => exact ⟨hfree, rfl⟩
  | inside h => exact h.free

section Runs

variable {env : Env} {fuel : Nat} {w : World} {before : List FactoryBindInfos}
  {top : FactoryBindInfos} {contextLevels : ContextLevels}

theorem SameAsAlone.agree_pass (h : SameAsAlone env w.factory before top contextLevels) :
    Agree w.factory (resolveBinds (resolveComponent env fuel) [top] contextLevels)
      (resolveBinds (resolveComponent env fuel) [top]
        (levelsOf before.reverse ++ contextLevels)) := by
  have hsound := resolveComponent_sound (governs_laterFrame env w.factory) fuel
  refine agree_resolveBinds hsound fun before1 b after hsplit => ?_
  have hnil : before1 = [] ∧ b = top := by
    cases before1 with
    | nil =>
      cases hsplit
      exact ⟨rfl, rfl⟩
    | cons b1 rest =>
      have hlength := congrArg List.length hsplit
      simp at hlength
  obtain ⟨rfl, rfl⟩ := hnil
  exact h.selections.agree_resolveComponent fuel b [] .root

theorem SameAsAlone.agree_loop (h : SameAsAlone env w.factory before top contextLevels)
    (after : List FactoryBindInfos) : Agree w.factory
      (do
        let refs ← resolveBinds (resolveComponent env fuel) before contextLevels
        let own ← resolveBinds (resolveComponent env fuel) [top] contextLevels
        let others ← resolveBinds (resolveComponent env fuel) after
          (levelsOf (top :: before.reverse) ++ contextLevels)
        pure (refs ++ (own ++ others)))
      (resolveBinds (resolveComponent env fuel) (before ++ top :: after) contextLevels) := by
  have hF := governs_laterFrame env w.factory
  have hsound := resolveComponent_sound hF fuel
  rw [resolveBinds_split]
  refine AgreeOn.bind (AgreeOn.refl Exc.SameKind.refl _) ?_ fun refs => ?_
  · exact (keeps_resolveBinds hF hsound (fun _ _ => trivial) _).pre
  refine AgreeOn.bind h.agree_pass ?_ fun own => AgreeOn.refl Exc.SameKind.refl _
  exact (keeps_resolveBinds hF hsound (fun _ _ => trivial) _).pre

theorem SameAsAlone.runsAlone (h : SameAsAlone env w.factory before top contextLevels)
    (fuel : Nat) : RunsAlone env fuel w before top contextLevels := by
  refine ⟨h.agree_pass, h.agree_loop, fun refs w1 hbefore => ?_, ?_⟩
  · have hplaced := placed_resolveBinds env fuel before contextLevels w
    rw [hbefore] at hplaced
    exact (laterFrame w.factory).stable (Later.refl w) hplaced.frame
  · intro refs w1 hbefore key C levels hwants ref hcached
    have hplaced := placed_resolveBinds env fuel before contextLevels w
    rw [hbefore] at hplaced
    obtain ⟨hfree, hcomponent⟩ := hwants.free
    rcases hplaced.entries key ref hcached with hold | ⟨s, hs, rfl, hstart, hrun⟩
    · rw [hfree] at hold
      cases hold
    · obtain ⟨hlater, hrequested⟩ := hplaced.places s hs
      obtain ⟨before1, b, after, levels1, hsplit, hwants1, hlevels⟩ := hrequested hfree
      have heq : s.bindInfos.componentUUID = C := hwants1.free.2.symm.trans hcomponent
      rw [heq] at hwants1
      have hsame := h.shared s.key C levels hwants before1 b after levels1 hsplit hwants1
      have hroot : InTree env w.factory C (levelsOf levels ++ contextLevels)
          s.bindInfos.componentUUID [] := heq ▸ .root
      have hagree := hsame.agree_resolveComponent s.fuel s.bindInfos [] hroot s.start hlater
      refine ⟨s, hs, rfl, hrun, hstart, ?_⟩
      rw [hlevels]
      exact hagree

end Runs

/-- The guards look at the incoming context. -/
theorem rangeAllows_context (levels : ContextLevels) {contextLevels : ContextLevels}
    (hcontext : contextLevels ≠ []) (bits : BitVec 8) :
    rangeAllows (levels ++ contextLevels) bits = rangeAllows contextLevels bits := by
  unfold rangeAllows
  rw [List.getLast?_append_of_ne_nil levels hcontext]

theorem defaultBind_context (f : Factory) (I : Uuid) (levels : ContextLevels)
    {contextLevels : ContextLevels} (hcontext : contextLevels ≠ []) :
    defaultBind f.context f.coreBindings I (levels ++ contextLevels) =
      defaultBind f.context f.coreBindings I contextLevels := by
  unfold defaultBind whenAllowed
  simp only [rangeAllows_context levels hcontext]

/-- A level among the own ones stops the search, and the tables have the same. -/
theorem Search.agrees_of_stops {s : Search} {tables tables1 : Option FactoryBindInfos}
    {own earlier : List FactoryBindInfos} {contextLevels : ContextLevels} {top : FactoryBindInfos}
    (htop : top ∈ own)
    (hrange : hasBits top.bindingRangeMask BindingRange.withParents.bits = false)
    (htables : tables1 = tables) : s.Agrees tables tables1 own earlier contextLevels := by
  unfold Agrees
  cases hfind : own.find? s.stops with
  | some b => exact fun _ => htables
  | none =>
    have hpass := List.find?_eq_none.mp hfind top htop
    simp [stops, hrange] at hpass

/-- The usual case: the range of a component of the multi-binding is its own
bindings, and something else is being injected already. -/
theorem undisturbed_of_range {f : Factory} {injectable : Injector}
    {own earlier : List FactoryBindInfos} {contextLevels : ContextLevels} {top : FactoryBindInfos}
    (htop : top ∈ own)
    (hrange : hasBits top.bindingRangeMask BindingRange.withParents.bits = false)
    (hcontext : contextLevels ≠ []) : Undisturbed f injectable own earlier contextLevels := by
  have hdefault : ∀ I, defaultBind f.context f.coreBindings I
        (levelsOf (own ++ earlier) ++ contextLevels) =
      defaultBind f.context f.coreBindings I (levelsOf own ++ contextLevels) := by
    intro I
    rw [defaultBind_context f I _ hcontext, defaultBind_context f I _ hcontext]
  unfold Undisturbed
  cases injectable.request with
  | none => exact Search.agrees_of_stops htop hrange (hdefault _)
  | some name =>
    refine Search.agrees_of_stops htop hrange ?_
    have hunnamed : unnamedChoice f injectable.uuid (own ++ earlier) contextLevels =
        unnamedChoice f injectable.uuid own contextLevels :=
      Search.choice_eq_iff.mpr (Search.agrees_of_stops htop hrange (hdefault _))
    unfold namedTables whenAllowed
    simp only [rangeAllows_context _ hcontext, hunnamed]

theorem sameInjections_of_range {env : Env} {f : Factory} {before : List FactoryBindInfos}
    {top : FactoryBindInfos} {contextLevels : ContextLevels}
    (hrange : hasBits top.bindingRangeMask BindingRange.withParents.bits = false)
    (hcontext : contextLevels ≠ []) :
    SameInjections env f top.componentUUID (passLevels [] top contextLevels)
      (passLevels before top contextLevels) := fun _ _ _ _ _ _ =>
  selectBind_passLevels_iff.mpr
    (undisturbed_of_range (List.mem_append_right _ List.mem_cons_self) hrange hcontext)

/-! ## Two components, one with a binding of its own -/

/-- Factory functions make the object with their own number; object 3 needs
interface 4. -/
def siblingEnv : Env :=
  { Env.simple [1, 4] with
    factoryFunc := fun factoryFunc _ => .ok factoryFunc
    injectables := fun id _ => if id = 3 then [⟨4, none, false, false⟩] else [] }

/-- Interface 4 is bound to component 1 by default and to component 4 for
component 2, and interface 1 has a multi-binding to the components of the file. -/
def siblingWorld (components : List String) : World :=
  (performAll siblingEnv 1
    [.bindMethod (.default 4) 1 ⟨1, .transient, defaultOrAll, ""⟩,
      .bindMethod (.specific 2 4) 4 ⟨4, .transient, defaultOrAll, ""⟩,
      .bindMethod (.named "b" 1) 2 ⟨2, .transient, defaultOrAll, ""⟩,
      .bindMethod (.named "c" 1) 3 ⟨3, .transient, defaultOrAll, ""⟩,
      .load "multi.xml" (registryFile []
        [.mk "factory" [] none
          [.mk "bindings" [] none
            [.mk "bind" [("interface", uuidText1)] none
              (components.map fun text =>
                .mk "component" [("to", text), ("range", "withparents")] none [])]]])]
    World.initial).2

/-- The binding of a component in that file. -/
def siblingBind (C : Uuid) : FactoryBindInfos :=
  ⟨C, .transient, BindingRange.withParents.bits ||| BindingRange.default.bits, ""⟩

end Xpcf
