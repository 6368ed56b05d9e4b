import Xpcf.Proofs.Searches

/-!
# Injections in two stacks

One component may be injected in two stacks: by `resolve` and by
`createComponent`, or with and without the bindings before it in a multi-binding.
The stacks of everything its injection creates in turn differ in the same way.

* `InTree`: the components that an injection creates, with their levels;
* `SameInjections`: two stacks select the same bindings in the whole tree;
* `agree_resolveComponent`: then the runs in the two stacks end alike, in the same
  world.
-/

namespace Xpcf

open CodeLib CodeLib.Exec

/-! ## The tree of an injection -/

/-- The components that the injection of `root` below `base` creates, with the
levels of the bindings above `base`, the last one in front.  A singleton that is
cached already is not created. -/
inductive InTree (env : Env) (f : Factory) (root : Uuid) (base : ContextLevels) :
    Uuid → List FactoryBindInfos → Prop where
  | root : InTree env f root base root []
  | single {C : Uuid} {own : List FactoryBindInfos} {injectable : Injector} {b : FactoryBindInfos}
      (h : InTree env f root base C own) (hdecl : Declares env f C injectable)
      (hmulti : f.multiBind injectable = none)
      (hselect : f.selectBind injectable (levelsOf own ++ base) = .ok b)
      (hfree : b.scope = .singleton → f.cached (injectable.key b) = none) :
      InTree env f root base b.componentUUID (b :: own)
  | multi {C : Uuid} {own : List FactoryBindInfos} {injectable : Injector}
      {before after : List FactoryBindInfos} {b : FactoryBindInfos}
      (h : InTree env f root base C own) (hdecl : Declares env f C injectable)
      (hmulti : f.multiBind injectable = some (before ++ b :: after)) :
      InTree env f root base b.componentUUID (b :: (before.reverse ++ own))

/-- The injection of the component selects the same bindings in both stacks, at
every depth. -/
def SameInjections (env : Env) (f : Factory) (root : Uuid) (base base1 : ContextLevels) : Prop :=
  ∀ C own, InTree env f root base C own → ∀ injectable, Declares env f C injectable →
    f.multiBind injectable = none →
      (f.selectBind injectable (levelsOf own ++ base1)).toOption =
        (f.selectBind injectable (levelsOf own ++ base)).toOption

theorem toOption_eq_some_iff {x : Except Exc FactoryBindInfos} {b : FactoryBindInfos} :
    x.toOption = some b ↔ x = .ok b := by
  cases x with
  | ok b1 => simp [Except.toOption]
  | error e => simp [Except.toOption]

section Trees

variable {env : Env} {f : Factory} {root : Uuid} {base base1 : ContextLevels}

theorem SameInjections.selectBind_ok (h : SameInjections env f root base base1) {C : Uuid}
    {own : List FactoryBindInfos} (htree : InTree env f root base C own) {injectable : Injector}
    (hdecl : Declares env f C injectable) (hmulti : f.multiBind injectable = none)
    {b : FactoryBindInfos} :
    f.selectBind injectable (levelsOf own ++ base1) = .ok b ↔
      f.selectBind injectable (levelsOf own ++ base) = .ok b := by
  rw [← toOption_eq_some_iff, ← toOption_eq_some_iff, h C own htree injectable hdecl hmulti]

/-- Then the two injections create the same components. -/
theorem SameInjections.inTree_iff (h : SameInjections env f root base base1) {C : Uuid}
    {own : List FactoryBindInfos} :
    InTree env f root base1 C own ↔ InTree env f root base C own := by
  constructor
  · intro htree
    induction htree with
    | root => exact .root
    | single _ hdecl hmulti hselect hfree ih =>
      exact .single ih hdecl hmulti ((h.selectBind_ok ih hdecl hmulti).mp hselect) hfree
    | multi _ hdecl hmulti ih => exact .multi ih hdecl hmulti
  · intro htree
    induction htree with
    | root => exact .root
    | single htree hdecl hmulti hselect hfree ih =>
      exact .single ih hdecl hmulti ((h.selectBind_ok htree hdecl hmulti).mpr hselect) hfree
    | multi _ hdecl hmulti ih => exact .multi ih hdecl hmulti

end Trees

/-! ## Runs that end alike -/

/-- The same exception, or two for a binding that was not found; their texts name
the level at which the search ended. -/
def Exc.SameKind (e e1 : Exc) : Prop :=
  e = e1 ∨ e.isInjectableNotFound = true ∧ e1.isInjectableNotFound = true

theorem Exc.SameKind.refl (e : Exc) : Exc.SameKind e e := .inl rfl

/-- On the tables of `f0`, and with its cache entries, the two computations end
alike and in the same world. -/
abbrev Agree (f0 : Factory) {α : Type} (m m1 : XpcfM α) : Prop :=
  AgreeOn Exc.SameKind (Later f0) m m1

theorem searchContexts_error {specific : Uuid → Option FactoryBindInfos}
    {onExplicit : Uuid → Except Exc FactoryBindInfos} {levels : ContextLevels} {e : Exc}
    (honExplicit : ∀ target e, onExplicit target = .error e → e.isInjectableNotFound = true)
    (h : searchContexts specific onExplicit levels = some (.error e)) :
    e.isInjectableNotFound = true := by
  induction levels with
  | nil => cases h
  | cons level rest ih =>
    obtain ⟨contextType, contextValue⟩ := level
    unfold searchContexts at h
    split at h
    · split at h
      · cases h
      · split at h
        · exact honExplicit _ e (Option.some.inj h)
        · split at h
          · exact ih h
          · cases h
    · exact ih h

/-- The only exception of a selection. -/
theorem resolveBind_error {f : Factory} {I : Uuid} {levels : ContextLevels} {e : Exc}
    (h : resolveBind f.context f.coreBindings I levels = .error e) :
    e.isInjectableNotFound = true := by
  unfold resolveBind at h
  split at h
  · rename_i hsearch
    subst h
    refine searchContexts_error (fun target e he => ?_) hsearch
    unfold onlyExplicit at he
    split at he
    · cases he
    · cases he
      rfl
  · split at h
    · cases h
    · cases h
      rfl

theorem resolveNamedBind_error {f : Factory} {I : Uuid} {name : String} {levels : ContextLevels}
    {e : Exc} (h : resolveNamedBind f.context f.coreBindings I name levels = .error e) :
    e.isInjectableNotFound = true := by
  unfold resolveNamedBind at h
  split at h
  · rename_i hsearch
    subst h
    refine searchContexts_error (fun target e he => ?_) hsearch
    cases he
    rfl
  · split at h
    · cases h
    · split at h
      · exact resolveBind_error h
      · cases h
        rfl

section Agreement

variable {env : Env} {f0 : Factory} {rc : FactoryBindInfos → ContextLevels → XpcfM Instance}

theorem agree_cachedInstance {key : SingletonKey} {create create1 : XpcfM Instance}
    (h : f0.cached key = none → Agree f0 create create1)
    (hkeep : ∀ w, Later f0 w → Later f0 (create w).2) :
    Agree f0 (cachedInstance key create) (cachedInstance key create1) := by
  intro w hw
  unfold cachedInstance
  rw [gets_bind_run, gets_bind_run]
  cases hfound : w.factory.cached key with
  | some ref => exact AgreeOn.refl Exc.SameKind.refl (pure ref) w hw
  | none =>
    exact AgreeOn.bind (h (hw.none_of_none hfound)) hkeep
      (fun ref => AgreeOn.refl Exc.SameKind.refl _) w hw

/-- The block on the scope that the two `resolve` share, after selections with the
same result. -/
theorem agree_selected (hsound : Sound env (laterFrame f0) (fun _ => True) rc)
    (key : FactoryBindInfos → SingletonKey) {selected selected1 : Except Exc FactoryBindInfos}
    {levels levels1 : ContextLevels} (hsel : selected1.toOption = selected.toOption)
    (he : ∀ e, selected = .error e → e.isInjectableNotFound = true)
    (he1 : ∀ e, selected1 = .error e → e.isInjectableNotFound = true)
    (hrc : ∀ b, selected = .ok b → (b.scope = .singleton → f0.cached (key b) = none) →
      Agree f0 (rc b (pushContext b levels)) (rc b (pushContext b levels1))) :
    Agree f0
      (do
        let b ← ofExcept selected
        if b.scope = .singleton then cachedInstance (key b) (rc b (pushContext b levels))
        else rc b (pushContext b levels))
      (do
        let b ← ofExcept selected1
        if b.scope = .singleton then cachedInstance (key b) (rc b (pushContext b levels1))
        else rc b (pushContext b levels1)) := by
  intro w hw
  cases hb : selected with
  | error e =>
    cases hb1 : selected1 with
    | error e1 => exact ⟨.throws (.inr ⟨he e hb, he1 e1 hb1⟩), rfl⟩
    | ok b1 =>
      rw [hb, hb1] at hsel
      cases hsel
  | ok b =>
    obtain rfl : selected1 = .ok b := by
      rw [hb] at hsel
      exact toOption_eq_some_iff.mp hsel
    rw [ofExcept_ok_bind_run, ofExcept_ok_bind_run]
    by_cases hs : b.scope = .singleton
    · rw [if_pos hs, if_pos hs]
      exact agree_cachedInstance (fun hfree => hrc b hb fun _ => hfree)
        (hsound.keeps trivial _).pre w hw
    · rw [if_neg hs, if_neg hs]
      exact hrc b hb (fun h => absurd h hs) w hw

theorem agree_resolveWith (hsound : Sound env (laterFrame f0) (fun _ => True) rc) {I : Uuid}
    {levels levels1 : ContextLevels}
    (hsel : (resolveBind f0.context f0.coreBindings I levels1).toOption =
      (resolveBind f0.context f0.coreBindings I levels).toOption)
    (hrc : ∀ b, resolveBind f0.context f0.coreBindings I levels = .ok b →
      (b.scope = .singleton → f0.cached (unnamedKey b) = none) →
      Agree f0 (rc b (pushContext b levels)) (rc b (pushContext b levels1))) :
    Agree f0 (resolveWith rc I levels) (resolveWith rc I levels1) := by
  intro w hw
  unfold resolveWith
  rw [gets_bind_run, gets_bind_run, Factory.context_eq_of_withoutCaches hw.tables,
    Factory.coreBindings_eq_of_withoutCaches hw.tables]
  exact agree_selected hsound unnamedKey hsel (fun _ => resolveBind_error)
    (fun _ => resolveBind_error) hrc w hw

theorem agree_resolveNamedWith (hsound : Sound env (laterFrame f0) (fun _ => True) rc) {I : Uuid}
    {name : String} {levels levels1 : ContextLevels}
    (hsel : (resolveNamedBind f0.context f0.coreBindings I name levels1).toOption =
      (resolveNamedBind f0.context f0.coreBindings I name levels).toOption)
    (hrc : ∀ b, resolveNamedBind f0.context f0.coreBindings I name levels = .ok b →
      (b.scope = .singleton → f0.cached (.named b.componentUUID name) = none) →
      Agree f0 (rc b (pushContext b levels)) (rc b (pushContext b levels1))) :
    Agree f0 (resolveNamedWith rc I name levels) (resolveNamedWith rc I name levels1) := by
  intro w hw
  unfold resolveNamedWith
  rw [gets_bind_run, gets_bind_run, Factory.context_eq_of_withoutCaches hw.tables,
    Factory.coreBindings_eq_of_withoutCaches hw.tables]
  exact agree_selected hsound (fun b => .named b.componentUUID name) hsel
    (fun _ => resolveNamedBind_error) (fun _ => resolveNamedBind_error) hrc w hw

theorem agree_resolveBinds (hsound : Sound env (laterFrame f0) (fun _ => True) rc)
    {binds : List FactoryBindInfos} {levels levels1 : ContextLevels}
    (hrc : ∀ before b after, binds = before ++ b :: after →
      Agree f0 (rc b (levelsOf (b :: before.reverse) ++ levels))
        (rc b (levelsOf (b :: before.reverse) ++ levels1))) :
    Agree f0 (resolveBinds rc binds levels) (resolveBinds rc binds levels1) := by
  induction binds generalizing levels levels1 with
  | nil => exact AgreeOn.refl Exc.SameKind.refl _
  | cons b rest ih =>
    have hF := governs_laterFrame env f0
    have hcreate : Agree f0 (rc b (pushContext b levels)) (rc b (pushContext b levels1)) :=
      hrc [] b rest rfl
    have hshared : Agree f0 (resolveShared rc b (pushContext b levels))
        (resolveShared rc b (pushContext b levels1)) := by
      unfold resolveShared
      split
      · refine AgreeOn.bind (agree_cachedInstance (fun _ => hcreate) ?_) ?_ fun ref =>
          AgreeOn.refl Exc.SameKind.refl _
        · exact (hsound.keeps trivial _).pre
        · exact (keeps_cachedInstance hF hsound trivial .component _).pre
      · exact AgreeOn.refl Exc.SameKind.refl _
    have hrest : ∀ before b1 after, rest = before ++ b1 :: after →
        Agree f0 (rc b1 (levelsOf (b1 :: before.reverse) ++ pushContext b levels))
          (rc b1 (levelsOf (b1 :: before.reverse) ++ pushContext b levels1)) := by
      intro before b1 after hsplit
      have hpass := hrc (b :: before) b1 after (by rw [hsplit]; rfl)
      rw [List.reverse_cons, ← List.cons_append, levelsOf_append, List.append_assoc,
        List.append_assoc] at hpass
      exact hpass
    unfold resolveBinds
    refine AgreeOn.bind hshared (keeps_resolveShared hF hsound trivial _).pre fun shared => ?_
    refine AgreeOn.bind hcreate (hsound.keeps trivial _).pre fun component => ?_
    refine AgreeOn.bind (ih hrest) ?_ fun others => AgreeOn.refl Exc.SameKind.refl _
    exact (keeps_resolveBinds hF hsound (fun _ _ => trivial) _).pre

/-- What two stacks have to have in common for one injectable: the selection, and
the runs of what may be created for it. -/
structure AgreesFor (f0 : Factory) (rc : FactoryBindInfos → ContextLevels → XpcfM Instance)
    (levels levels1 : ContextLevels) (i : Injector) : Prop where
  selected : f0.multiBind i = none →
    (f0.selectBind i levels1).toOption = (f0.selectBind i levels).toOption
  single : ∀ b, f0.multiBind i = none → f0.selectBind i levels = .ok b →
    (b.scope = .singleton → f0.cached (i.key b) = none) →
    Agree f0 (rc b (pushContext b levels)) (rc b (pushContext b levels1))
  multi : ∀ before b after, f0.multiBind i = some (before ++ b :: after) →
    Agree f0 (rc b (levelsOf (b :: before.reverse) ++ levels))
      (rc b (levelsOf (b :: before.reverse) ++ levels1))

theorem agree_handleInjectionError (optional : Bool) {e e1 : Exc} (h : Exc.SameKind e e1) :
    Agree f0 (handleInjectionError optional e) (handleInjectionError optional e1) := by
  rcases h with rfl | ⟨he, he1⟩
  · exact AgreeOn.refl Exc.SameKind.refl _
  · cases e with
    | std _ _ => cases he
    | xpcf cls what code =>
      cases e1 with
      | std _ _ => cases he1
      | xpcf cls1 what1 code1 =>
        intro w hw
        unfold handleInjectionError
        cases optional with
        | true => exact ⟨.ok (), rfl⟩
        | false =>
          simp only [Exc.isXpcf, if_true, Bool.false_eq_true, if_false, he, he1]
          exact ⟨.throws (.inr ⟨he, he1⟩), rfl⟩

theorem agree_injectOne (hsound : Sound env (laterFrame f0) (fun _ => True) rc)
    {levels levels1 : ContextLevels} {i : Injector} (hi : AgreesFor f0 rc levels levels1 i)
    (component : Instance) :
    Agree f0 (injectOneWith env rc component levels i)
      (injectOneWith env rc component levels1 i) := by
  have hF := governs_laterFrame env f0
  have hselected := hi.selected
  have hsingle := hi.single
  unfold Factory.multiBind Factory.selectBind Injector.request at hselected
  unfold Factory.multiBind Factory.selectBind Injector.key Injector.request at hsingle
  by_cases hm : i.multi = true
  · simp only [hm, if_true] at hselected hsingle
    have hall : Agree f0 (resolveAllWith rc i.uuid levels) (resolveAllWith rc i.uuid levels1) := by
      intro w hw
      unfold resolveAllWith
      rw [gets_bind_run, gets_bind_run, Factory.context_eq_of_withoutCaches hw.tables]
      cases hbinds : f0.context.multiBindings i.uuid with
      | none =>
        exact AgreeOn.bind
          (agree_resolveWith hsound (hselected hbinds) fun b => hsingle b hbinds)
          (keeps_resolveWith hF hsound (fun _ _ => trivial) _).pre
          (fun ref => AgreeOn.refl Exc.SameKind.refl _) w hw
      | some binds =>
        refine agree_resolveBinds hsound (fun before b after hsplit => ?_) w hw
        refine hi.multi before b after ?_
        unfold Factory.multiBind
        rw [if_pos hm, hbinds, hsplit]
    have hkeepAll : Keeps (laterFrame f0) (resolveAllWith rc i.uuid levels) :=
      keeps_resolveAllWith hF hsound (fun _ _ => trivial) levels
    have hbody := AgreeOn.bind hall hkeepAll.pre
      fun refs => AgreeOn.refl Exc.SameKind.refl (injectMulti env component i refs)
    have hkeep := Keeps.bind hkeepAll
      fun refs => hF.keeps (keeps_injectMulti env component i refs)
    unfold injectOneWith
    simp only [hm, if_true]
    exact AgreeOn.tryCatch hbody hkeep.pre fun e e1 => agree_handleInjectionError i.optional
  · simp only [hm, if_false, Bool.false_eq_true, forall_const] at hselected hsingle
    have hone : Agree f0 (resolveInjectableWith rc i levels)
        (resolveInjectableWith rc i levels1) := by
      unfold resolveInjectableWith
      cases hname : i.name with
      | some name =>
        simp only [hname] at hselected hsingle
        exact agree_resolveNamedWith hsound hselected hsingle
      | none =>
        simp only [hname] at hselected hsingle
        exact agree_resolveWith hsound hselected hsingle
    have hkeepOne : Keeps (laterFrame f0) (resolveInjectableWith rc i levels) :=
      keeps_resolveInjectableWith hF hsound (fun _ _ => trivial) levels
    have hbody := AgreeOn.bind hone hkeepOne.pre
      fun ref => AgreeOn.refl Exc.SameKind.refl (injectSingle env component i ref)
    have hkeep := Keeps.bind hkeepOne
      fun ref => hF.keeps (keeps_injectSingle env component i ref)
    unfold injectOneWith
    simp only [hm, if_false, Bool.false_eq_true]
    exact AgreeOn.tryCatch hbody hkeep.pre fun e e1 => agree_handleInjectionError i.optional

theorem agree_inject (hsound : Sound env (laterFrame f0) (fun _ => True) rc)
    {levels levels1 : ContextLevels} {component : Instance}
    (hi : ∀ tick, ∀ i ∈ env.injectablesOf component tick, AgreesFor f0 rc levels levels1 i) :
    Agree f0 (injectWith env rc component levels) (injectWith env rc component levels1) := by
  have hF := governs_laterFrame env f0
  have hkeep : ∀ i, Keeps (laterFrame f0) (injectOneWith env rc component levels i) :=
    fun i => keeps_injectOneWith hF hsound (fun _ _ => trivial) component levels
  intro w hw
  unfold injectWith
  rw [gets_bind_run, gets_bind_run]
  refine AgreeOn.bind (AgreeOn.forEach Exc.SameKind.refl (fun i hm => ?_) fun i _ => (hkeep i).pre)
    (Keeps.forEach fun i _ => hkeep i).pre (fun _ => AgreeOn.refl Exc.SameKind.refl _) w hw
  exact agree_injectOne hsound (hi _ i hm) component

end Agreement

/-! ## Two stacks with the same selections -/

section Stacks

variable {env : Env} {f0 : Factory} {root : Uuid} {base base1 : ContextLevels}

/-- What the recursion assumes and proves: components of the tree are created
alike. -/
def TreeAgrees (env : Env) (f0 : Factory) (root : Uuid) (base base1 : ContextLevels) (fuel : Nat) :
    Prop :=
  ∀ b own, InTree env f0 root base b.componentUUID own →
    Agree f0 (resolveComponent env fuel b (levelsOf own ++ base))
      (resolveComponent env fuel b (levelsOf own ++ base1))

/-- An injectable of a component of the tree. -/
theorem SameInjections.agreesFor (h : SameInjections env f0 root base base1) {fuel : Nat}
    (hrc : TreeAgrees env f0 root base base1 fuel) {C : Uuid} {own : List FactoryBindInfos}
    (htree : InTree env f0 root base C own) {i : Injector} (hi : Declares env f0 C i) :
    AgreesFor f0 (resolveComponent env fuel) (levelsOf own ++ base) (levelsOf own ++ base1) i where
  selected hmulti := h C own htree i hi hmulti
  single b hmulti hsel hfree := hrc b (b :: own) (.single htree hi hmulti hsel hfree)
  multi before b after hmulti := by
    have hpass := hrc b (b :: (before.reverse ++ own)) (.multi htree hi hmulti)
    rw [← List.cons_append, levelsOf_append, List.append_assoc, List.append_assoc] at hpass
    exact hpass

/-- A component of the tree that was created is injected alike. -/
theorem SameInjections.agree_inject (h : SameInjections env f0 root base base1) {fuel : Nat}
    (hrc : TreeAgrees env f0 root base base1 fuel) {C : Uuid} {own : List FactoryBindInfos}
    (htree : InTree env f0 root base C own) {ref : Instance} (hcreates : Creates env f0 C ref) :
    Agree f0 (inject env fuel ref (levelsOf own ++ base))
      (inject env fuel ref (levelsOf own ++ base1)) := by
  have hsound := resolveComponent_sound (governs_laterFrame env f0) fuel
  exact Xpcf.agree_inject hsound fun tick i hi => h.agreesFor hrc htree (hcreates.declares hi)

/-- Every component of the tree, whatever the fuel. -/
theorem SameInjections.agree_resolveComponent (h : SameInjections env f0 root base base1)
    (fuel : Nat) : TreeAgrees env f0 root base base1 fuel := by
  induction fuel with
  | zero => exact fun b own htree => AgreeOn.refl Exc.SameKind.refl _
  | succ n ih =>
    intro b own htree
    have hF := governs_laterFrame env f0
    have hsound := resolveComponent_sound hF n
    refine AgreeOn.bind_of (AgreeOn.refl Exc.SameKind.refl _)
      (hF.keeps (keeps_createInstance env b)).pre ?_
    intro w ref w1 hw hcreate
    have hcreates : Creates env f0 b.componentUUID ref :=
      (createInstance_ok hcreate).1.congr hw.tables
    refine AgreeOn.bind (AgreeOn.refl Exc.SameKind.refl _)
      (Keeps.ofExcept (F := laterFrame f0) _).pre fun _ => ?_
    refine AgreeOn.bind (h.agree_inject ih htree hcreates) ?_ fun _ =>
      AgreeOn.refl Exc.SameKind.refl _
    exact (keeps_injectWith hF hsound (fun _ _ _ _ _ => trivial) _).pre

end Stacks

end Xpcf
