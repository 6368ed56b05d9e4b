import Xpcf.CodeLib.Traces
import Xpcf.Proofs.Needs

/-!
# The singleton requests of a run

A call of the factory resolves bindings for its caller and, at any depth, for the
injectables of the components it creates.  Those whose scope is `Singleton` go
through one of the three caches.  `Operation.served` lists them, in the order in
which they start.

* `Served`: one such request; `Served.run` is how it ends;
* `served`, `Operation.served`, `servedAll`: the requests of a component's
  creation, of a call and of a history;
* `GovernsList`, `lists_resolveComponent`: the induction on the mutual recursion,
  with the stack of every component, for a relation that reads this list.
-/

namespace Xpcf

open CodeLib CodeLib.Exec

/-! ## One request -/

/-- A resolution whose selected binding is a singleton: its cache key, the stack
its component would be created in, and the world it starts in. -/
structure Served where
  fuel : Nat
  key : SingletonKey
  bindInfos : FactoryBindInfos
  contextLevels : ContextLevels
  start : World

/-- How the request ends. -/
def Served.run (env : Env) (s : Served) : Outcome Exc Instance × World :=
  cachedInstance s.key (resolveComponent env s.fuel s.bindInfos s.contextLevels) s.start

/-! ## The requests of a resolution -/

section Open

variable (env : Env) (fuel : Nat)
  (inside : FactoryBindInfos → ContextLevels → World → List Served)

/-- A request for a cached instance, and those made inside it when the component
has to be created. -/
def servedCached (key : SingletonKey) (bindInfos : FactoryBindInfos)
    (contextLevels : ContextLevels) (w : World) : List Served :=
  ⟨fuel, key, bindInfos, contextLevels, w⟩ ::
    if (w.factory.cached key).isSome then [] else inside bindInfos contextLevels w

def servedSelected (key : FactoryBindInfos → SingletonKey) (contextLevels : ContextLevels) :
    Except Exc FactoryBindInfos → World → List Served
  | .error _, _ => []
  | .ok bindInfos, w =>
    if bindInfos.scope = .singleton then
      servedCached fuel inside (key bindInfos) bindInfos (pushContext bindInfos contextLevels) w
    else inside bindInfos (pushContext bindInfos contextLevels) w

/-- Those of `resolveWith`. -/
def servedResolve (interfaceUUID : Uuid) (contextLevels : ContextLevels) (w : World) :
    List Served :=
  servedSelected fuel inside unnamedKey contextLevels
    (resolveBind w.factory.context w.factory.coreBindings interfaceUUID contextLevels) w

/-- Those of `resolveNamedWith`. -/
def servedResolveNamed (interfaceUUID : Uuid) (name : String) (contextLevels : ContextLevels)
    (w : World) : List Served :=
  servedSelected fuel inside (fun b => .named b.componentUUID name) contextLevels
    (resolveNamedBind w.factory.context w.factory.coreBindings interfaceUUID name contextLevels) w

/-- Those of `resolveShared`. -/
def servedShared (bindInfos : FactoryBindInfos) (contextLevels : ContextLevels) (w : World) :
    List Served :=
  if bindInfos.scope = .singleton then
    servedCached fuel inside (.component bindInfos.componentUUID) bindInfos contextLevels w
  else []

/-- Those of `resolveBinds`, pass by pass. -/
def servedBinds : List FactoryBindInfos → ContextLevels → World → List Served
  | [], _, _ => []
  | bindInfos :: rest, contextLevels, w =>
    let levels := pushContext bindInfos contextLevels
    servedShared fuel inside bindInfos levels w ++
      listThen (resolveShared (resolveComponent env fuel) bindInfos levels) (fun _ w1 =>
        inside bindInfos levels w1 ++
          listThen (resolveComponent env fuel bindInfos levels)
            (fun _ => servedBinds rest levels) w1) w

/-- Those of `resolveAllWith`. -/
def servedResolveAll (interfaceUUID : Uuid) (contextLevels : ContextLevels) (w : World) :
    List Served :=
  match w.factory.context.multiBindings interfaceUUID with
  | none => servedResolve fuel inside interfaceUUID contextLevels w
  | some binds => servedBinds env fuel inside binds contextLevels w

/-- Those of one pass of `inject`. -/
def servedInjectable (contextLevels : ContextLevels) (injectable : Injector) (w : World) :
    List Served :=
  if injectable.multi then servedResolveAll env fuel inside injectable.uuid contextLevels w
  else
    match injectable.name with
    | some name => servedResolveNamed fuel inside injectable.uuid name contextLevels w
    | none => servedResolve fuel inside injectable.uuid contextLevels w

/-- Those of `injectWith`. -/
def servedInject (component : Instance) (contextLevels : ContextLevels) (w : World) :
    List Served :=
  forEachList (injectOneWith env (resolveComponent env fuel) component contextLevels)
    (servedInjectable env fuel inside contextLevels)
    (env.injectablesOf component w.process.tick) w

/-- Those of a component that is created and then injected. -/
def servedCreation (create : XpcfM Instance) (contextLevels : ContextLevels) (w : World) :
    List Served :=
  listThen create (fun ref => listThen (ofExcept (env.bindTo ref uuidIInjectable) : XpcfM Unit)
    fun _ => servedInject env fuel inside ref contextLevels) w

end Open

/-- The requests of `resolveComponent`. -/
def served (env : Env) : Nat → FactoryBindInfos → ContextLevels → World → List Served
  | 0 => fun _ _ _ => []
  | fuel + 1 => fun bindInfos =>
    servedCreation env fuel (served env fuel) (createInstance env bindInfos)

/-- The requests of a call. -/
def Operation.served (env : Env) (fuel : Nat) : Operation → World → List Served
  | .resolve interfaceUUID contextLevels =>
    servedResolve fuel (Xpcf.served env fuel) interfaceUUID contextLevels
  | .resolveNamed interfaceUUID name contextLevels =>
    servedResolveNamed fuel (Xpcf.served env fuel) interfaceUUID name contextLevels
  | .resolveAll interfaceUUID contextLevels =>
    servedResolveAll env fuel (Xpcf.served env fuel) interfaceUUID contextLevels
  | .inject component contextLevels =>
    servedInject env fuel (Xpcf.served env fuel) component contextLevels
  | .createComponent _ componentUUID =>
    servedCreation env fuel (Xpcf.served env fuel) (resolveFromModule env componentUUID) []
  | _ => fun _ => []

/-- The requests of a history. -/
def servedAll (env : Env) (fuel : Nat) : List Operation → World → List Served
  | [], _ => []
  | op :: rest, w =>
    op.served env fuel w ++
      match perform env fuel op w with
      | (.ok _, w1) => servedAll env fuel rest w1
      | (.throws _, w1) => servedAll env fuel rest w1
      | (.diverges, _) => []
      | (.undefined, _) => []

/-! ## A request that ended -/

/-- A request that finds an entry returns it and does nothing else. -/
theorem Served.run_of_cached {env : Env} {s : Served} {ref : Instance}
    (h : s.start.factory.cached s.key = some ref) : s.run env = (.ok ref, s.start) := by
  unfold Served.run cachedInstance
  rw [gets_bind_run, h]
  rfl

/-- What a request returned is the entry afterwards. -/
theorem Served.cached_of_run {env : Env} {s : Served} {ref : Instance}
    (h : (s.run env).1 = .ok ref) : (s.run env).2.factory.cached s.key = some ref :=
  (cachedInstance_ok (Prod.ext h rfl : s.run env = (.ok ref, (s.run env).2))).1

/-- A request without an entry: its creation returned and is stored, or did not
return. -/
theorem Served.run_of_free {env : Env} {s : Served} (h : s.start.factory.cached s.key = none)
    {out : Outcome Exc Instance} {w1 : World}
    (hrun : resolveComponent env s.fuel s.bindInfos s.contextLevels s.start = (out, w1)) :
    (∃ ref, out = .ok ref ∧ s.run env = (.ok ref, w1.store s.key ref)) ∨
      (∀ ref, out ≠ .ok ref) ∧ s.run env = (out, w1) := by
  unfold Served.run cachedInstance
  rw [gets_bind_run, h]
  dsimp only
  rw [bind_run, hrun]
  rcases out with ref | e | _ | _
  · refine .inl ⟨ref, rfl, ?_⟩
    unfold modifyFactory
    simp only [modify_bind_run, gets_bind_run, Factory.cached_store_self]
    rfl
  · exact .inr ⟨fun _ h => (by cases h), rfl⟩
  · exact .inr ⟨fun _ h => (by cases h), rfl⟩
  · exact .inr ⟨fun _ h => (by cases h), rfl⟩

/-! ## The relations that resolutions stay in -/

/-- The component of the binding, and every component needed for it, is in `P`. -/
def Covers (env : Env) (f0 : Factory) (P : Uuid → Prop) (b : FactoryBindInfos) : Prop :=
  ∀ C, Relation.ReflTransGen (Needs env f0) b.componentUUID C → P C

/-- The components a component needs. -/
def NeededBy (env : Env) (f0 : Factory) (C : Uuid) : Uuid → Prop :=
  Relation.TransGen (Needs env f0) C

/-- The stacks of a set of components: those a component is created in, and those
in which it is requested under a cache key that is free. -/
structure Stacks where
  allowed : Uuid → ContextLevels → Prop
  requested : SingletonKey → Uuid → ContextLevels → Prop

/-- `F P` is a relation for the resolutions on the tables of `f0` whose requests
are for components in `P`, and whose components are created in these stacks. -/
structure GovernsList (env : Env) (f0 : Factory) (F : (Uuid → Prop) → ListFrame World Served)
    (T : Stacks) : Prop where
  later : ∀ P w, (F P).pre w ↔ Later f0 w
  process : ∀ P w w1, Later f0 w → processFrame.rel w w1 → (F P).rel w [] w1
  mono : ∀ P P1 w l w1, (∀ C, P C → P1 C) → (F P).rel w l w1 → (F P1).rel w l w1
  /-- A request that finds an entry. -/
  hit : ∀ P (s : Served), Later f0 s.start → KeyOf s.bindInfos s.key →
    P s.bindInfos.componentUUID →
    (f0.cached s.key = none → T.requested s.key s.bindInfos.componentUUID s.contextLevels) →
    (s.start.factory.cached s.key).isSome → (F P).rel s.start [s] s.start
  /-- A request that creates its component, with the requests made inside it. -/
  miss : ∀ P (s : Served) l out w1, Later f0 s.start → KeyOf s.bindInfos s.key →
    Covers env f0 P s.bindInfos → T.requested s.key s.bindInfos.componentUUID s.contextLevels →
    s.start.factory.cached s.key = none →
    (F (NeededBy env f0 s.bindInfos.componentUUID)).rel s.start l w1 →
    resolveComponent env s.fuel s.bindInfos s.contextLevels s.start = (out, w1) →
    (F P).rel s.start (s :: l) (s.run env).2

/-- The stacks are closed under what the injection of their components resolves
and creates. -/
structure Stacks.Closed (T : Stacks) (env : Env) (f0 : Factory) : Prop where
  single : ∀ C levels i b, T.allowed C levels → Declares env f0 C i → f0.multiBind i = none →
    f0.selectBind i levels = .ok b → (b.scope = .singleton → f0.cached (i.key b) = none) →
    T.allowed b.componentUUID (pushContext b levels) ∧
      (b.scope = .singleton → T.requested (i.key b) b.componentUUID (pushContext b levels))
  multi : ∀ C levels i before b after, T.allowed C levels → Declares env f0 C i →
    f0.multiBind i = some (before ++ b :: after) →
    T.allowed b.componentUUID (levelsOf (b :: before.reverse) ++ levels) ∧
      (b.scope = .singleton → f0.cached (.component b.componentUUID) = none →
        T.requested (.component b.componentUUID) b.componentUUID
          (levelsOf (b :: before.reverse) ++ levels))

/-- All stacks. -/
def Stacks.all : Stacks := ⟨fun _ _ => True, fun _ _ _ => True⟩

theorem Stacks.all_closed (env : Env) (f0 : Factory) : Stacks.all.Closed env f0 :=
  ⟨fun _ _ _ _ _ _ _ _ _ => ⟨trivial, fun _ => trivial⟩,
    fun _ _ _ _ _ _ _ _ _ => ⟨trivial, fun _ _ => trivial⟩⟩

section Recursion

variable {env : Env} {f0 : Factory} {F : (Uuid → Prop) → ListFrame World Served}
  {T : Stacks} {fuel : Nat} {P : Uuid → Prop}

/-- What the recursion assumes of `resolveComponent`, and proves of it. -/
def ListsComponents (env : Env) (f0 : Factory) (F : (Uuid → Prop) → ListFrame World Served)
    (T : Stacks) (fuel : Nat) : Prop :=
  ∀ b levels, T.allowed b.componentUUID levels →
    Lists (F (NeededBy env f0 b.componentUUID)) (resolveComponent env fuel b levels)
      (served env fuel b levels)

theorem GovernsList.keeps {α : Type} {m : XpcfM α} (hF : GovernsList env f0 F T)
    (hm : Keeps processFrame m) : Lists (F P) m fun _ => [] :=
  fun w hw => hF.process P w _ ((hF.later P w).mp hw) (hm w trivial)

theorem lists_component (hF : GovernsList env f0 F T)
    (hrc : ListsComponents env f0 F T fuel) {b : FactoryBindInfos} {levels : ContextLevels}
    (hb : Covers env f0 P b) (hlevels : T.allowed b.componentUUID levels) :
    Lists (F P) (resolveComponent env fuel b levels) (served env fuel b levels) := by
  intro w hw
  have hpre := (hF.later (NeededBy env f0 b.componentUUID) w).mpr ((hF.later P w).mp hw)
  exact hF.mono _ _ _ _ _ (fun C hC => hb C hC.to_reflTransGen) (hrc b levels hlevels w hpre)

theorem lists_cachedInstance (hF : GovernsList env f0 F T)
    (hrc : ListsComponents env f0 F T fuel) {b : FactoryBindInfos} {levels : ContextLevels}
    {key : SingletonKey} (hkey : KeyOf b key) (hb : Covers env f0 P b)
    (hlevels : f0.cached key = none →
      T.allowed b.componentUUID levels ∧ T.requested key b.componentUUID levels) :
    Lists (F P) (cachedInstance key (resolveComponent env fuel b levels))
      (servedCached fuel (served env fuel) key b levels) := by
  intro w hw
  have hlater := (hF.later P w).mp hw
  unfold servedCached
  cases hfound : w.factory.cached key with
  | some ref =>
    have hrun : (⟨fuel, key, b, levels, w⟩ : Served).run env = (.ok ref, w) :=
      Served.run_of_cached hfound
    have hsome : (w.factory.cached key).isSome := by
      rw [hfound]
      rfl
    have hrel := hF.hit P ⟨fuel, key, b, levels, w⟩ hlater hkey
      (hb _ Relation.ReflTransGen.refl) (fun hfree => (hlevels hfree).2) hsome
    have hend : (cachedInstance key (resolveComponent env fuel b levels) w).2 = w :=
      congrArg Prod.snd hrun
    rw [hend]
    exact hrel
  | none =>
    obtain ⟨hallowed, hrequested⟩ := hlevels (hlater.none_of_none hfound)
    have hpre := (hF.later (NeededBy env f0 b.componentUUID) w).mpr hlater
    exact hF.miss P ⟨fuel, key, b, levels, w⟩ _ _ _ hlater hkey hb hrequested hfound
      (hrc b levels hallowed w hpre) rfl

/-- The block on the scope that the two `resolve` share. -/
theorem lists_selected (hF : GovernsList env f0 F T)
    (hrc : ListsComponents env f0 F T fuel) {b : FactoryBindInfos} {levels : ContextLevels}
    (key : FactoryBindInfos → SingletonKey) (hkey : KeyOf b (key b)) (hb : Covers env f0 P b)
    (hlevels : (b.scope = .singleton → f0.cached (key b) = none) →
      T.allowed b.componentUUID (pushContext b levels) ∧
        (b.scope = .singleton → T.requested (key b) b.componentUUID (pushContext b levels))) :
    Lists (F P)
      (if b.scope = .singleton then
        cachedInstance (key b) (resolveComponent env fuel b (pushContext b levels))
      else resolveComponent env fuel b (pushContext b levels))
      (servedSelected fuel (served env fuel) key levels (.ok b)) := by
  intro w hw
  unfold servedSelected
  by_cases hs : b.scope = .singleton
  · simp only [hs, if_true]
    refine lists_cachedInstance hF hrc hkey hb (fun hfree => ?_) w hw
    obtain ⟨hallowed, hrequested⟩ := hlevels fun _ => hfree
    exact ⟨hallowed, hrequested hs⟩
  · simp only [hs, if_false]
    exact lists_component hF hrc hb (hlevels fun h => absurd h hs).1 w hw

theorem lists_resolve (hF : GovernsList env f0 F T)
    (hrc : ListsComponents env f0 F T fuel) {I : Uuid} {levels : ContextLevels}
    (hI : ∀ b, Candidate f0 I b → Covers env f0 P b)
    (hlevels : ∀ b, resolveBind f0.context f0.coreBindings I levels = .ok b →
      (b.scope = .singleton → f0.cached (unnamedKey b) = none) →
      T.allowed b.componentUUID (pushContext b levels) ∧
        (b.scope = .singleton →
          T.requested (unnamedKey b) b.componentUUID (pushContext b levels))) :
    Lists (F P) (resolveWith (resolveComponent env fuel) I levels)
      (servedResolve fuel (served env fuel) I levels) := by
  intro w hw
  have htables := ((hF.later P w).mp hw).tables
  unfold resolveWith servedResolve
  rw [gets_bind_run, Factory.context_eq_of_withoutCaches htables,
    Factory.coreBindings_eq_of_withoutCaches htables]
  cases hsel : resolveBind f0.context f0.coreBindings I levels with
  | error e => exact (F P).refl w
  | ok b =>
    rw [ofExcept_ok_bind_run]
    exact lists_selected hF hrc unnamedKey (keyOf_unnamedKey b) (hI b (resolveBind_candidate hsel))
      (hlevels b hsel) w hw

theorem lists_resolveNamed (hF : GovernsList env f0 F T)
    (hrc : ListsComponents env f0 F T fuel) {I : Uuid} {name : String}
    {levels : ContextLevels} (hI : ∀ b, Candidate f0 I b → Covers env f0 P b)
    (hlevels : ∀ b, resolveNamedBind f0.context f0.coreBindings I name levels = .ok b →
      (b.scope = .singleton → f0.cached (.named b.componentUUID name) = none) →
      T.allowed b.componentUUID (pushContext b levels) ∧
        (b.scope = .singleton →
          T.requested (.named b.componentUUID name) b.componentUUID (pushContext b levels))) :
    Lists (F P) (resolveNamedWith (resolveComponent env fuel) I name levels)
      (servedResolveNamed fuel (served env fuel) I name levels) := by
  intro w hw
  have htables := ((hF.later P w).mp hw).tables
  unfold resolveNamedWith servedResolveNamed
  rw [gets_bind_run, Factory.context_eq_of_withoutCaches htables,
    Factory.coreBindings_eq_of_withoutCaches htables]
  cases hsel : resolveNamedBind f0.context f0.coreBindings I name levels with
  | error e => exact (F P).refl w
  | ok b =>
    rw [ofExcept_ok_bind_run]
    exact lists_selected hF hrc (fun b => .named b.componentUUID name) (.named name)
      (hI b (resolveNamedBind_candidate hsel)) (hlevels b hsel) w hw

theorem lists_resolveShared (hF : GovernsList env f0 F T)
    (hrc : ListsComponents env f0 F T fuel) {b : FactoryBindInfos} {levels : ContextLevels}
    (hb : Covers env f0 P b) (hlevels : T.allowed b.componentUUID levels)
    (hrequested : b.scope = .singleton → f0.cached (.component b.componentUUID) = none →
      T.requested (.component b.componentUUID) b.componentUUID levels) :
    Lists (F P) (resolveShared (resolveComponent env fuel) b levels)
      (servedShared fuel (served env fuel) b levels) := by
  intro w hw
  unfold resolveShared servedShared
  by_cases hs : b.scope = .singleton
  · rw [if_pos hs, if_pos hs]
    exact Lists.nil_bind
      (lists_cachedInstance hF hrc .component hb fun hfree => ⟨hlevels, hrequested hs hfree⟩)
      (fun ref => Lists.pure [ref]) w hw
  · rw [if_neg hs, if_neg hs]
    exact (F P).refl w

/-- The loop of `resolveAll`, whose stack grows from pass to pass. -/
theorem lists_resolveBinds (hF : GovernsList env f0 F T)
    (hrc : ListsComponents env f0 F T fuel) {binds : List FactoryBindInfos}
    {levels : ContextLevels} (hbinds : ∀ b ∈ binds, Covers env f0 P b)
    (hlevels : ∀ before b after, binds = before ++ b :: after →
      T.allowed b.componentUUID (levelsOf (b :: before.reverse) ++ levels) ∧
        (b.scope = .singleton → f0.cached (.component b.componentUUID) = none →
          T.requested (.component b.componentUUID) b.componentUUID
            (levelsOf (b :: before.reverse) ++ levels))) :
    Lists (F P) (resolveBinds (resolveComponent env fuel) binds levels)
      (servedBinds env fuel (served env fuel) binds levels) := by
  induction binds generalizing levels with
  | nil => exact Lists.pure []
  | cons b rest ih =>
    have hb := hbinds b List.mem_cons_self
    have hfirst := hlevels [] b rest rfl
    have hallowed : T.allowed b.componentUUID (pushContext b levels) := hfirst.1
    have hrest : ∀ before b1 after, rest = before ++ b1 :: after →
        T.allowed b1.componentUUID (levelsOf (b1 :: before.reverse) ++ pushContext b levels) ∧
          (b1.scope = .singleton → f0.cached (.component b1.componentUUID) = none →
            T.requested (.component b1.componentUUID) b1.componentUUID
              (levelsOf (b1 :: before.reverse) ++ pushContext b levels)) := by
      intro before b1 after hsplit
      have hlevel := hlevels (b :: before) b1 after (by rw [hsplit]; rfl)
      rw [List.reverse_cons, ← List.cons_append, levelsOf_append, List.append_assoc] at hlevel
      exact hlevel
    refine Lists.bind (lists_resolveShared hF hrc hb hallowed hfirst.2) fun shared => ?_
    refine Lists.bind (lists_component hF hrc hb hallowed) fun component => ?_
    exact Lists.nil_bind (ih (fun b1 h1 => hbinds b1 (List.mem_cons_of_mem b h1)) hrest)
      fun others => Lists.pure _

theorem lists_resolveAll (hF : GovernsList env f0 F T)
    (hrc : ListsComponents env f0 F T fuel) {I : Uuid} {levels : ContextLevels}
    (hI : ∀ b, Candidate f0 I b → Covers env f0 P b)
    (hlevels : ∀ b, f0.context.multiBindings I = none →
      resolveBind f0.context f0.coreBindings I levels = .ok b →
      (b.scope = .singleton → f0.cached (unnamedKey b) = none) →
      T.allowed b.componentUUID (pushContext b levels) ∧
        (b.scope = .singleton →
          T.requested (unnamedKey b) b.componentUUID (pushContext b levels)))
    (hmulti : ∀ before b after, f0.context.multiBindings I = some (before ++ b :: after) →
      T.allowed b.componentUUID (levelsOf (b :: before.reverse) ++ levels) ∧
        (b.scope = .singleton → f0.cached (.component b.componentUUID) = none →
          T.requested (.component b.componentUUID) b.componentUUID
            (levelsOf (b :: before.reverse) ++ levels))) :
    Lists (F P) (resolveAllWith (resolveComponent env fuel) I levels)
      (servedResolveAll env fuel (served env fuel) I levels) := by
  intro w hw
  have hctx := Factory.context_eq_of_withoutCaches ((hF.later P w).mp hw).tables
  unfold resolveAllWith servedResolveAll
  rw [gets_bind_run, hctx]
  cases hbinds : f0.context.multiBindings I with
  | none =>
    exact Lists.nil_bind (lists_resolve hF hrc hI fun b => hlevels b hbinds)
      (fun ref => Lists.pure [ref]) w hw
  | some binds =>
    refine lists_resolveBinds hF hrc (fun b hb => hI b (.multi binds hbinds hb)) ?_ w hw
    rintro before b after rfl
    exact hmulti before b after hbinds

/-- The request for an injectable stays in the relation. -/
structure Requests (env : Env) (f0 : Factory) (T : Stacks) (P : Uuid → Prop)
    (levels : ContextLevels) (i : Injector) : Prop where
  covers : ∀ b, Candidate f0 i.uuid b → Covers env f0 P b
  single : ∀ b, f0.multiBind i = none → f0.selectBind i levels = .ok b →
    (b.scope = .singleton → f0.cached (i.key b) = none) →
    T.allowed b.componentUUID (pushContext b levels) ∧
      (b.scope = .singleton → T.requested (i.key b) b.componentUUID (pushContext b levels))
  multi : ∀ before b after, f0.multiBind i = some (before ++ b :: after) →
    T.allowed b.componentUUID (levelsOf (b :: before.reverse) ++ levels) ∧
      (b.scope = .singleton → f0.cached (.component b.componentUUID) = none →
        T.requested (.component b.componentUUID) b.componentUUID
          (levelsOf (b :: before.reverse) ++ levels))

theorem lists_injectOne (hF : GovernsList env f0 F T)
    (hrc : ListsComponents env f0 F T fuel) {levels : ContextLevels} {i : Injector}
    (hi : Requests env f0 T P levels i) (component : Instance) :
    Lists (F P) (injectOneWith env (resolveComponent env fuel) component levels i)
      (servedInjectable env fuel (served env fuel) levels i) := by
  have hhandler : ∀ e, Lists (F P) (handleInjectionError i.optional e) fun _ => [] := by
    intro e
    refine hF.keeps ?_
    unfold handleInjectionError
    split_ifs
    · exact Keeps.pure ()
    · exact Keeps.throw _
    · exact Keeps.throw _
    · exact Keeps.throw _
  have hsingle := hi.single
  unfold Factory.multiBind Factory.selectBind Injector.key Injector.request at hsingle
  refine Lists.tryCatch ?_ hhandler
  unfold servedInjectable
  by_cases hm : i.multi = true
  · simp only [hm, if_true] at hsingle ⊢
    refine Lists.nil_bind (lists_resolveAll hF hrc hi.covers hsingle ?_) fun refs =>
      hF.keeps (keeps_injectMulti env component i refs)
    intro before b after hbinds
    exact hi.multi before b after (by unfold Factory.multiBind; rw [if_pos hm, hbinds])
  · simp only [hm, if_false, Bool.false_eq_true] at hsingle ⊢
    unfold resolveInjectableWith
    cases hname : i.name with
    | some name =>
      simp only [hname] at hsingle
      exact Lists.nil_bind (lists_resolveNamed hF hrc hi.covers fun b => hsingle b trivial)
        fun ref => hF.keeps (keeps_injectSingle env component i ref)
    | none =>
      simp only [hname] at hsingle
      exact Lists.nil_bind (lists_resolve hF hrc hi.covers fun b => hsingle b trivial) fun ref =>
        hF.keeps (keeps_injectSingle env component i ref)

theorem lists_inject (hF : GovernsList env f0 F T)
    (hrc : ListsComponents env f0 F T fuel) {levels : ContextLevels} {component : Instance}
    (hi : ∀ tick, ∀ i ∈ env.injectablesOf component tick, Requests env f0 T P levels i) :
    Lists (F P) (injectWith env (resolveComponent env fuel) component levels)
      (servedInject env fuel (served env fuel) component levels) := by
  intro w hw
  unfold injectWith
  rw [gets_bind_run]
  refine Lists.nil_bind (Lists.forEach fun i hm => ?_)
    (fun _ => hF.keeps (keeps_callOnInjected env component)) w hw
  exact lists_injectOne hF hrc (hi _ i hm) component

/-- A component that is created, injected and configured, by either function. -/
theorem lists_creation (hF : GovernsList env f0 F T)
    (hrc : ListsComponents env f0 F T fuel) {levels : ContextLevels}
    {create : XpcfM Instance} {configure : Instance → XpcfM Unit}
    (hcreate : Keeps processFrame create) (hconfigure : ∀ ref, Keeps processFrame (configure ref))
    (hi : ∀ w ref w1, Later f0 w → create w = (.ok ref, w1) → ∀ tick,
      ∀ i ∈ env.injectablesOf ref tick, Requests env f0 T P levels i) :
    Lists (F P)
      (do
        let ref ← create
        ofExcept (env.bindTo ref uuidIInjectable)
        injectWith env (resolveComponent env fuel) ref levels
        configure ref
        pure ref)
      (servedCreation env fuel (served env fuel) create levels) := by
  refine Lists.bind_nil (hF.keeps hcreate) fun w ref w1 hw hrun => ?_
  refine Lists.bind_nil (Lists.ofExcept _) fun _ _ _ _ _ => ?_
  refine Lists.nil_bind (lists_inject hF hrc (hi w ref w1 ((hF.later P w).mp hw) hrun)) fun _ => ?_
  exact Lists.nil_bind (hF.keeps (hconfigure ref)) fun _ => Lists.pure ref

/-- An injectable of a component requests what the component needs. -/
theorem Stacks.Closed.requests (hclosed : T.Closed env f0) {C : Uuid}
    {levels : ContextLevels} (hlevels : T.allowed C levels) {i : Injector}
    (hi : Declares env f0 C i) : Requests env f0 T (NeededBy env f0 C) levels i where
  covers _ hcand _ hreach := Relation.TransGen.head' (hi.needs hcand) hreach
  single b hmulti hsel hfree := hclosed.single C levels i b hlevels hi hmulti hsel hfree
  multi before b after hmulti := hclosed.multi C levels i before b after hlevels hi hmulti

/-- Every component that is created in one of the stacks, whatever the fuel. -/
theorem lists_resolveComponent (hF : GovernsList env f0 F T)
    (hclosed : T.Closed env f0) (fuel : Nat) :
    ListsComponents env f0 F T fuel := by
  induction fuel with
  | zero => exact fun b levels _ w _ => (F _).refl w
  | succ n ih =>
    intro b levels hlevels
    refine lists_creation hF ih (keeps_createInstance env b)
      (fun ref => keeps_configureResolved env ref b) fun w ref w1 hw hrun tick i hi => ?_
    have hcreates := (createInstance_ok hrun).1.congr hw.tables
    exact hclosed.requests hlevels (hcreates.declares hi)

end Recursion

end Xpcf
