import Xpcf.Proofs.InjectionTrees

/-!
# `createComponent` and `resolve`

`resolve` injects a component in a context that holds the binding of the
component; `createComponent` injects it in the empty context.  So the stacks of
the two injections differ by one level at the far end, all the way down.

* `sameSelections_iff`: when that level makes no difference to the injectables of
  the component;
* `sameInjections_iff`: when it makes none to the whole injection tree;
* `createComponent_resolve`: the two ways to create a component.
-/

namespace Xpcf

open CodeLib CodeLib.Exec

/-! ## Masks -/

theorem hasBits_or (mask bits bits1 : BitVec 8) :
    hasBits mask (bits ||| bits1) = (hasBits mask bits || hasBits mask bits1) := by
  rw [hasBits_comm, hasBits_added, hasBits_comm bits, hasBits_comm bits1]

/-- A range that includes `All` passes every guard. -/
theorem hasBits_defaultOrAll {mask : BitVec 8} (h : hasBits mask BindingRange.all.bits = true) :
    hasBits mask defaultOrAll = true := by
  unfold defaultOrAll
  rw [hasBits_or, h, Bool.or_true]

theorem ne_explicit_of_all {mask : BitVec 8} (h : hasBits mask BindingRange.all.bits = true) :
    mask ≠ BindingRange.explicit.bits := ne_of_hasBits h (by decide)

theorem ne_core_of_all {mask : BitVec 8} (h : hasBits mask BindingRange.all.bits = true) :
    mask ≠ bindingRangeCore := ne_of_hasBits h (by decide)

/-! ## The component itself -/

/-- What is declared for a component as the target, for one of its
injectables. -/
def Factory.targetBind (f : Factory) (target : Uuid) (injectable : Injector) :
    Option FactoryBindInfos :=
  match injectable.request with
  | none => f.context.specificBind target injectable.uuid
  | some name =>
    (f.context.specificNamedBind target (injectable.uuid, name)).or
      (if (f.context.namedBindings (injectable.uuid, name)).isSome then none
        else f.context.specificBind target injectable.uuid)

/-- Both ways to create the component select the same bindings for each of its
injectables. -/
def SameSelections (env : Env) (f : Factory) (bindInfos : FactoryBindInfos) : Prop :=
  ∀ injectable, Declares env f bindInfos.componentUUID injectable →
    f.selection injectable [] = f.selection injectable [lastLevel bindInfos]

/-- Every binding declared for the component and one of its injectables is the
one that the injectable gets without it. -/
def TargetsAgree (env : Env) (f : Factory) (componentUUID : Uuid) : Prop :=
  ∀ injectable, Declares env f componentUUID injectable → f.multiBind injectable = none →
    ∀ bindInfos, f.targetBind componentUUID injectable = some bindInfos →
      f.selectBind injectable [] = .ok bindInfos

/-- No request below the component is disturbed by its level at the far end. -/
def NestedUndisturbed (env : Env) (f : Factory) (last : FactoryBindInfos) : Prop :=
  ∀ C b own, InTree env f last.componentUUID [] C (b :: own) →
    ∀ injectable, Declares env f C injectable → f.multiBind injectable = none →
      Undisturbed f injectable (b :: own) [last] []

/-- What makes `createComponent` do what a resolution of the component does. -/
structure CreatedAlike (env : Env) (f : Factory) (last : FactoryBindInfos) : Prop where
  /-- It is not created by a function given to `bind`. -/
  method : f.context.factoryMethods last.componentUUID = none
  targets : TargetsAgree env f last.componentUUID
  nested : NestedUndisturbed env f last
  /-- `configure` gives no error code. -/
  configured : ∀ ref, Creates env f last.componentUUID ref →
    env.implements ref uuidIConfigurable = true → f.configPath last.componentUUID ≠ "" →
    ∀ tick code, env.configureOf ref (f.configPath last.componentUUID) none tick = .ok code →
      code = .success

/-- The selection in the context of the component: its own bindings first. -/
theorem selectBind_lastLevel {f : Factory} {last : FactoryBindInfos}
    (hall : hasBits last.bindingRangeMask BindingRange.all.bits = true) (injectable : Injector) :
    f.selectBind injectable [lastLevel last] =
      match f.targetBind last.componentUUID injectable with
      | some bindInfos => .ok bindInfos
      | none => f.selectBind injectable [] := by
  have hlast : hasBits (lastLevel last).2.bindingRangeMask BindingRange.all.bits = true := hall
  have hsearch : ∀ (specific : Uuid → Option FactoryBindInfos)
      (onExplicit : Uuid → Except Exc FactoryBindInfos),
      searchContexts specific onExplicit [lastLevel last] =
        (specific last.componentUUID).map .ok := by
    intro specific onExplicit
    unfold lastLevel
    rw [searchContexts_component]
    cases specific last.componentUUID with
    | some bindInfos => rfl
    | none =>
      dsimp only
      rw [if_neg (ne_explicit_of_all hall)]
      exact ite_self _
  have hallows : ∀ bits, rangeAllows [lastLevel last] bits =
      hasBits (lastLevel last).2.bindingRangeMask bits := fun bits => rfl
  have hunnamed : resolveBind f.context f.coreBindings injectable.uuid [lastLevel last] =
      match f.context.specificBind last.componentUUID injectable.uuid with
      | some bindInfos => .ok bindInfos
      | none => resolveBind f.context f.coreBindings injectable.uuid [] := by
    unfold resolveBind
    rw [hsearch]
    cases f.context.specificBind last.componentUUID injectable.uuid with
    | some bindInfos => rfl
    | none =>
      unfold defaultBind whenAllowed
      simp only [hallows, hlast, hasBits_defaultOrAll hlast, if_true]
      rfl
  unfold Factory.selectBind Factory.targetBind
  cases injectable.request with
  | none => exact hunnamed
  | some name =>
    dsimp only
    have hnamedLast : hasBits (lastLevel last).2.bindingRangeMask
        (BindingRange.named.bits ||| defaultOrAll) = true := by
      rw [hasBits_or, hasBits_defaultOrAll hlast, Bool.or_true]
    unfold resolveNamedBind
    rw [hsearch]
    cases f.context.specificNamedBind last.componentUUID (injectable.uuid, name) with
    | some bindInfos => rfl
    | none =>
      unfold whenAllowed
      simp only [hallows, hnamedLast, hasBits_defaultOrAll hlast, if_true]
      cases hn : f.context.namedBindings (injectable.uuid, name) with
      | some bindInfos => rfl
      | none =>
        simp only [Option.map_none, hunnamed]
        rfl

/-- The selections agree if and only if what is declared for the component agrees
with what is selected without it. -/
theorem sameSelections_iff {env : Env} {f : Factory} {last : FactoryBindInfos}
    (hall : hasBits last.bindingRangeMask BindingRange.all.bits = true) :
    SameSelections env f last ↔ TargetsAgree env f last.componentUUID := by
  constructor
  · intro hsame injectable hdecl hmulti b htarget
    have hlast := selectBind_lastLevel (f := f) hall injectable
    rw [htarget] at hlast
    have hs := hsame injectable hdecl
    rw [Factory.selection_of_selectBind hmulti hlast] at hs
    unfold Factory.selection at hs
    rw [hmulti] at hs
    dsimp only at hs
    cases hsel : f.selectBind injectable [] with
    | error e =>
      rw [hsel] at hs
      cases hs
    | ok b1 =>
      rw [hsel] at hs
      cases hs
      rfl
  · intro hagree injectable hdecl
    unfold Factory.selection
    cases hmulti : f.multiBind injectable with
    | some binds => rfl
    | none =>
      dsimp only
      rw [selectBind_lastLevel hall]
      cases htarget : f.targetBind last.componentUUID injectable with
      | none => rfl
      | some b =>
        dsimp only
        rw [hagree injectable hdecl hmulti b htarget]

/-- The two ways select the same bindings in the whole injection tree if and only
if they do for the component's own injectables and nothing below is disturbed. -/
theorem sameInjections_iff {env : Env} {f : Factory} {last : FactoryBindInfos}
    (hall : hasBits last.bindingRangeMask BindingRange.all.bits = true) :
    SameInjections env f last.componentUUID [] [lastLevel last] ↔
      TargetsAgree env f last.componentUUID ∧ NestedUndisturbed env f last := by
  constructor
  · intro hsame
    refine ⟨fun i hdecl hmulti b htarget => ?_, fun C b own htree i hdecl hmulti => ?_⟩
    · have hroot := hsame _ [] .root i hdecl hmulti
      rw [show levelsOf [] ++ [lastLevel last] = [lastLevel last] from rfl,
        selectBind_lastLevel hall, htarget] at hroot
      exact toOption_eq_some_iff.mp hroot.symm
    · exact selectBind_eq_iff.mp (hsame C (b :: own) htree i hdecl hmulti)
  · rintro ⟨htargets, hnested⟩ C own htree i hdecl hmulti
    cases own with
    | nil =>
      cases htree
      rw [show levelsOf [] ++ [lastLevel last] = [lastLevel last] from rfl,
        selectBind_lastLevel hall]
      cases htarget : f.targetBind last.componentUUID i with
      | none => rfl
      | some b =>
        rw [show levelsOf [] ++ ([] : ContextLevels) = [] from rfl,
          htargets i hdecl hmulti b htarget]
    | cons b own => exact selectBind_eq_iff.mpr (hnested C b own htree i hdecl hmulti)

/-- Without a factory function the component comes from its module in both
cases. -/
theorem agree_createInstance {env : Env} {f0 : Factory} {bindInfos : FactoryBindInfos}
    (hmask : bindInfos.bindingRangeMask ≠ bindingRangeCore)
    (hmethod : f0.context.factoryMethods bindInfos.componentUUID = none) :
    Agree f0 (resolveFromModule env bindInfos.componentUUID) (createInstance env bindInfos) := by
  refine AgreeOn.of_eq Exc.SameKind.refl fun w hw => ?_
  unfold createInstance
  rw [gets_bind_run, if_neg hmask, Factory.context_eq_of_withoutCaches hw.tables, hmethod]

theorem callConfigure_ok {env : Env} {component : Instance} {path : String}
    {properties : Option String} {w w1 : World} {code : XPCFErrorCode}
    (h : callConfigure env component path properties w = (.ok code, w1)) :
    env.configureOf component path properties w.process.tick = .ok code := by
  unfold callConfigure at h
  rw [gets_bind_run] at h
  obtain ⟨_, w2, hlog, hresult⟩ := bind_ok_iff.mp h
  exact (ofExcept_ok_iff.mp hresult).1

/-- When `configure` gives no error code it does not matter who looks at it. -/
theorem agree_configure {env : Env} {f0 : Factory} {last : FactoryBindInfos} {ref : Instance}
    (hproperties : last.properties = "")
    (hcode : env.implements ref uuidIConfigurable = true → f0.configPath last.componentUUID ≠ "" →
      ∀ tick code, env.configureOf ref (f0.configPath last.componentUUID) none tick = .ok code →
        code = .success) :
    Agree f0 (configureCreated env none last.componentUUID ref)
      (configureResolved env ref last) := by
  intro w hw
  have hnone : last.configureProperties = none := if_pos hproperties
  unfold configureCreated configureResolved
  rw [gets_bind_run, gets_bind_run, Factory.configPath_eq_of_withoutCaches hw.tables, hnone]
  by_cases hdue : env.implements ref uuidIConfigurable = true ∧
      f0.configPath last.componentUUID ≠ ""
  · rw [if_pos hdue, if_pos hdue]
    have hkeep : Keeps (laterFrame f0)
        (callConfigure env ref (f0.configPath last.componentUUID) none) :=
      (governs_laterFrame env f0).keeps (keeps_callConfigure env _ _ _)
    refine AgreeOn.bind_of (AgreeOn.refl Exc.SameKind.refl _) hkeep.pre ?_ w hw
    intro w1 code w2 _ hcall
    have hsuccess := hcode hdue.1 hdue.2 _ code (callConfigure_ok hcall)
    unfold checkConfigured
    rw [if_neg (not_not.mpr hsuccess)]
    exact AgreeOn.refl Exc.SameKind.refl _
  · rw [if_neg hdue, if_neg hdue]
    exact ⟨.ok (), rfl⟩

/-- Creating the component and resolving its binding, when nothing tells them
apart: they end alike, in the same world. -/
theorem agree_createComponent {env : Env} {f0 : Factory} {last : FactoryBindInfos}
    (hall : hasBits last.bindingRangeMask BindingRange.all.bits = true)
    (hproperties : last.properties = "") (halike : CreatedAlike env f0 last) (fuel : Nat) :
    Agree f0 (createComponent env fuel none last.componentUUID)
      (resolveComponent env (fuel + 1) last [lastLevel last]) := by
  have hF := governs_laterFrame env f0
  have hsame := (sameInjections_iff hall).mpr ⟨halike.targets, halike.nested⟩
  refine AgreeOn.bind_of (agree_createInstance (ne_core_of_all hall) halike.method)
    (hF.keeps (keeps_resolveFromModule env _)).pre ?_
  intro w ref w1 hw hcreate
  obtain ⟨⟨file, tick0, hcall⟩, _⟩ := resolveFromModule_ok hcreate
  have hcreates : Creates env f0 last.componentUUID ref := .module file tick0 ref hcall
  refine AgreeOn.bind (AgreeOn.refl Exc.SameKind.refl _)
    (Keeps.ofExcept (F := laterFrame f0) _).pre fun _ => ?_
  refine AgreeOn.bind
    (hsame.agree_inject (hsame.agree_resolveComponent fuel) .root hcreates) ?_ fun _ => ?_
  · exact (keeps_injectWith hF (resolveComponent_sound hF fuel) (fun _ _ _ _ _ => trivial) _).pre
  refine AgreeOn.bind (agree_configure hproperties (halike.configured ref hcreates))
    (hF.keeps (keeps_configureCreated env _ _ _)).pre fun _ => AgreeOn.refl Exc.SameKind.refl _

/-- Component 2 needs interface 3. -/
def oneNeed (id : Nat) : List Injector := if id = 2 then [⟨3, none, false, false⟩] else []

/-- Components 2 and 4 in a module, the default binding of interface 1 to
component 2, and one more node in the factory. -/
def oneNeedFile (node : XMLElement) : LibraryFile :=
  registryFile []
    [.mk "module" [("uuid", uuidText1), ("name", "m"), ("path", "p"), ("description", "")] none
      [.mk "component" [("uuid", uuidText2), ("name", "c"), ("description", "")] none [],
        .mk "component" [("uuid", uuidText4), ("name", "d"), ("description", "")] none []],
      .mk "factory" [] none
        [.mk "bindings" [] none
          [.mk "bind" [("interface", uuidText1), ("to", uuidText2), ("range", "all")] none []],
          node]]

/-- Interface 3 is bound to component 4 by default. -/
def defaultNode : XMLElement :=
  .mk "bindings" [] none [.mk "bind" [("interface", uuidText3), ("to", uuidText4)] none []]

/-- Interface 3 is bound to component 4 in the injection of component 2 only. -/
def injectNode : XMLElement :=
  .mk "injects" [] none
    [.mk "inject" [("to", uuidText2)] none
      [.mk "bind" [("interface", uuidText3), ("to", uuidText4)] none []]]

def oneNeedWorld (node : XMLElement) : World :=
  (perform (Env.wired [1, 3] oneNeed) 0 (.load "registry.xml" (oneNeedFile node)) World.initial).2

/-- The default binding of interface 1. -/
def oneNeedBind : FactoryBindInfos :=
  ⟨2, .transient, BindingRange.all.bits ||| BindingRange.default.bits, ""⟩

/-- Only component 2 declares injectables, apart from the framework's own. -/
theorem declares_oneNeed {f : Factory}
    (hcore : f.coreFactoryMethods = Factory.freshCoreFactoryMethods)
    (hmethods : f.context.factoryMethods = Table.empty) {C : Uuid} {injectable : Injector}
    (hC : C = 2 ∨ C = 4) (h : Declares (Env.wired [1, 3] oneNeed) f C injectable) :
    C = 2 ∧ injectable = ⟨3, none, false, false⟩ := by
  obtain ⟨ref, hcreates, tick, hi⟩ := h
  cases hcreates with
  | module file tick0 _ hcall =>
    cases hcall
    have hmem : injectable ∈ oneNeed C.toNat := hi
    rcases hC with rfl | rfl
    · exact ⟨rfl, List.mem_singleton.mp hmem⟩
    · cases hmem
  | method factoryFunc tick0 id hmethod _ =>
    rw [hmethods] at hmethod
    cases hmethod
  | core c _ hc _ =>
    rw [hcore] at hc
    rcases hC with rfl | rfl
    · cases hc
    · cases hc

/-- Its injection creates component 4 and nothing else. -/
theorem inTree_oneNeed {C : Uuid} {own : List FactoryBindInfos}
    (h : InTree (Env.wired [1, 3] oneNeed) (oneNeedWorld defaultNode).factory 2 [] C own) :
    C = 2 ∧ own = [] ∨ C = 4 := by
  induction h with
  | root => exact .inl ⟨rfl, rfl⟩
  | single _ hdecl hmulti hselect _ ih =>
    have hC := ih.imp (fun h => h.1) id
    obtain ⟨rfl, rfl⟩ := declares_oneNeed rfl rfl hC hdecl
    rcases ih with ⟨_, rfl⟩ | hcontra
    · cases hselect
      exact .inr rfl
    · cases hcontra
  | multi _ hdecl hmulti ih =>
    have hC := ih.imp (fun h => h.1) id
    obtain ⟨rfl, rfl⟩ := declares_oneNeed rfl rfl hC hdecl
    cases hmulti

end Xpcf
