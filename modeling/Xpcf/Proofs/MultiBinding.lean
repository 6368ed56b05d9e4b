import Xpcf.Proofs.Singletons

/-!
# The elements of a multi-binding

`resolveAll` visits the declared binds in order.  For a singleton bind it adds
the shared instance and then, as for every bind, an instance of its own, so the
list has one element for each bind exactly when no bind is a singleton.
-/

namespace Xpcf

open CodeLib CodeLib.Exec

/-! ## One element for each bind -/

/-- The pairs of a transient bind and its element. -/
def transientPairs (binds : List FactoryBindInfos) (refs : List Instance) :
    List (FactoryBindInfos × Instance) :=
  (binds.zip refs).filter fun pair => pair.1.scope = .transient

/-- One element for each bind, in order: for a singleton bind the shared
instance, for a transient bind the instance of a creation of its own. -/
structure OnePerBind (w w1 : World) (binds : List FactoryBindInfos) (refs : List Instance) :
    Prop where
  length : refs.length = binds.length
  shared : ∀ pair ∈ binds.zip refs, pair.1.scope = .singleton →
    w1.factory.cached (.component pair.1.componentUUID) = some pair.2
  fresh : List.Sublist ((transientPairs binds refs).map fun pair =>
    Event.created pair.1.componentUUID (.ok pair.2)) (w.newEvents w1)

/-! ## The loop -/

/-- A singleton bind contributes two elements and a transient bind one. -/
theorem resolveBinds_length {rc : FactoryBindInfos → ContextLevels → XpcfM Instance}
    {binds : List FactoryBindInfos} {contextLevels : ContextLevels} {w w1 : World}
    {refs : List Instance} (h : resolveBinds rc binds contextLevels w = (.ok refs, w1)) :
    refs.length = binds.length + (binds.filter fun b => b.scope = .singleton).length := by
  induction binds generalizing contextLevels w refs with
  | nil =>
    cases h
    rfl
  | cons b rest ih =>
    obtain ⟨shared, ref, others, wa, wb, hshared, _, hothers, rfl⟩ := resolveBinds_cons_ok h
    have hrest := ih hothers
    by_cases hs : b.scope = .singleton
    · obtain ⟨ref1, rfl, _⟩ := resolveShared_ok hs hshared
      simp only [List.length_append, List.length_cons, List.length_nil, List.filter_cons, hs,
        decide_true, if_true]
      omega
    · unfold resolveShared at hshared
      rw [if_neg hs] at hshared
      cases hshared
      simp only [List.nil_append, List.length_cons, List.filter_cons, hs, decide_false,
        Bool.false_eq_true, if_false]
      omega

/-- The new events of two steps. -/
theorem World.newEvents_append {w w1 w2 : World} (h : w.process.log <+: w1.process.log)
    (h1 : w1.process.log <+: w2.process.log) :
    w.newEvents w2 = w.newEvents w1 ++ w1.newEvents w2 := by
  obtain ⟨a, ha⟩ := h
  obtain ⟨b, hb⟩ := h1
  unfold World.newEvents
  rw [← hb, ← ha]
  simp [List.drop_append]

/-- Without singleton binds every element comes from a creation of its own, in
the order of the binds. -/
theorem resolveBinds_fresh {env : Env} {fuel : Nat} {binds : List FactoryBindInfos}
    {contextLevels : ContextLevels} {w w1 : World} {refs : List Instance}
    (h : resolveBinds (resolveComponent env fuel) binds contextLevels w = (.ok refs, w1))
    (hbinds : ∀ b ∈ binds, b.scope ≠ .singleton) :
    List.Sublist ((binds.zip refs).map fun pair =>
      Event.created pair.1.componentUUID (.ok pair.2)) (w.newEvents w1) := by
  induction binds generalizing contextLevels w refs with
  | nil => exact List.nil_sublist _
  | cons b rest ih =>
    obtain ⟨shared, ref, others, wa, wb, hshared, hcomponent, hothers, rfl⟩ :=
      resolveBinds_cons_ok h
    unfold resolveShared at hshared
    rw [if_neg (hbinds b List.mem_cons_self)] at hshared
    cases hshared
    have hF := governs_cacheFrame env w.factory
    have hrc := resolveComponent_sound hF fuel
    obtain ⟨hrel, hbuilt⟩ := hrc b (pushContext b contextLevels) trivial w rfl
    rw [hcomponent] at hrel
    have hlate := (keeps_resolveBinds hF hrc (fun _ _ => trivial) _).of_run
      ((cacheFrame w.factory).stable rfl hrel) hothers
    rw [World.newEvents_append hrel.1.2.log hlate.1.2.log]
    have hfirst : List.Sublist [Event.created b.componentUUID (.ok ref)] (w.newEvents wb) :=
      List.singleton_sublist.mpr (hbuilt ref wb hcomponent).created
    exact hfirst.append (ih hothers fun b1 hb1 => hbinds b1 (List.mem_cons_of_mem b hb1))

/-! ## The result -/

theorem resolveAll_multi {env : Env} {fuel : Nat} {interfaceUUID : Uuid}
    {contextLevels : ContextLevels} {w w1 : World} {refs : List Instance}
    {binds : List FactoryBindInfos}
    (hbinds : w.factory.context.multiBindings interfaceUUID = some binds)
    (h : resolveAll env fuel interfaceUUID contextLevels w = (.ok refs, w1)) :
    resolveBinds (resolveComponent env fuel) binds contextLevels w = (.ok refs, w1) := by
  unfold resolveAll resolveAllWith at h
  rw [gets_bind_run] at h
  simp only [hbinds] at h
  exact h

/-- A successful `resolveAll` of a multi-binding gives one element for each bind
if and only if none of the binds is a singleton. -/
theorem resolveAll_onePerBind_iff {env : Env} {fuel : Nat} {interfaceUUID : Uuid}
    {contextLevels : ContextLevels} {w w1 : World} {refs : List Instance}
    {binds : List FactoryBindInfos}
    (hbinds : w.factory.context.multiBindings interfaceUUID = some binds)
    (h : resolveAll env fuel interfaceUUID contextLevels w = (.ok refs, w1)) :
    OnePerBind w w1 binds refs ↔ ∀ b ∈ binds, b.scope ≠ .singleton := by
  have hloop := resolveAll_multi hbinds h
  have hlen := resolveBinds_length hloop
  constructor
  · intro hone b hb hs
    have hmem : b ∈ binds.filter fun b => b.scope = .singleton :=
      List.mem_filter.mpr ⟨hb, decide_eq_true hs⟩
    have hpos := List.length_pos_of_mem hmem
    have hsame := hone.length
    omega
  · intro hnone
    have hfilter : (binds.filter fun b => b.scope = .singleton) = [] := by
      rw [List.filter_eq_nil_iff]
      intro b hb
      rw [decide_eq_true_eq]
      exact hnone b hb
    refine ⟨by rw [hlen, hfilter, List.length_nil, Nat.add_zero], fun pair hpair hs => ?_, ?_⟩
    · exact absurd hs (hnone pair.1 (List.of_mem_zip hpair).1)
    · exact (List.filter_sublist.map _).trans (resolveBinds_fresh hloop hnone)

/-! ## A file with one multi-binding -/

/-- A file that declares these components for the interface, with their scopes. -/
def multiBindFile (components : List (String × String)) : LibraryFile :=
  registryFile []
    [.mk "factory" [] none
      [.mk "bindings" [] none
        [.mk "bind" [("interface", uuidText1)] none
          (components.map fun component =>
            .mk "component" [("to", component.1), ("scope", component.2)] none [])]]]

/-- The factory after factory functions for the components 2 and 3, and the file. -/
def multiBindWorld (components : List (String × String)) : World :=
  (performAll (Env.simple [1]) 1
    [.bindMethod (.default 3) 0 ⟨2, .transient, defaultOrAll, ""⟩,
      .bindMethod (.default 4) 1 ⟨3, .transient, defaultOrAll, ""⟩,
      .load "multi.xml" (multiBindFile components)] World.initial).2

/-- Three transient binds of two components, in the order of the file. -/
theorem resolveAll_onePerBind_transient :
    let w := multiBindWorld
      [(uuidText3, "Transient"), (uuidText2, "Transient"), (uuidText3, "Transient")]
    let w1 := (resolveAll (Env.simple [1]) 1 1 [] w).2
    OnePerBind w w1
      [⟨3, .transient, BindingRange.default.bits, ""⟩,
        ⟨2, .transient, BindingRange.default.bits, ""⟩,
        ⟨3, .transient, BindingRange.default.bits, ""⟩] [.user 9, .user 11, .user 13] := by
  intro w w1
  have hbinds : w.factory.context.multiBindings 1 =
      some [⟨3, .transient, BindingRange.default.bits, ""⟩,
        ⟨2, .transient, BindingRange.default.bits, ""⟩,
        ⟨3, .transient, BindingRange.default.bits, ""⟩] := rfl
  have hresolve : resolveAll (Env.simple [1]) 1 1 [] w = (.ok [.user 9, .user 11, .user 13], w1) :=
    rfl
  refine (resolveAll_onePerBind_iff hbinds hresolve).mpr ?_
  decide

/-- A single singleton bind contributes two elements. -/
theorem resolveAll_singleton_twice :
    let w := multiBindWorld [(uuidText2, "Singleton")]
    let w1 := (resolveAll (Env.simple [1]) 1 1 [] w).2
    w.factory.context.multiBindings 1 = some [⟨2, .singleton, BindingRange.default.bits, ""⟩] ∧
      (resolveAll (Env.simple [1]) 1 1 [] w).1 = .ok [.user 9, .user 11] ∧
      ¬ OnePerBind w w1 [⟨2, .singleton, BindingRange.default.bits, ""⟩] [.user 9, .user 11] := by
  refine ⟨rfl, rfl, fun hone => ?_⟩
  cases hone.length

end Xpcf
