import Mathlib.Logic.Relation
import Xpcf.Proofs.Singletons

/-!
# What a component needs

* `Declares`: the injectables of the objects that may be created for a
  component UUID;
* `Needs`: one component may be created for the injection of another;
* `Factory.selection`: the bindings that an injectable is resolved with, in
  a given context;
* `resolveBinds_split`: the stack of each pass of the loop of `resolveAll`.
-/

namespace Xpcf

open CodeLib CodeLib.Exec

/-! ## The relation between components -/

/-- An object created for the component UUID declares the injectable, at some
moment. -/
def Declares (env : Env) (f : Factory) (componentUUID : Uuid) (injectable : Injector) : Prop :=
  ∃ ref, Creates env f componentUUID ref ∧ ∃ tick, injectable ∈ env.injectablesOf ref tick

/-- The first component declares an injectable for an interface that some table
binds to the second. -/
def Needs (env : Env) (f : Factory) (componentUUID componentUUID1 : Uuid) : Prop :=
  ∃ injectable, Declares env f componentUUID injectable ∧
    ∃ bindInfos, Candidate f injectable.uuid bindInfos ∧
      bindInfos.componentUUID = componentUUID1

theorem Creates.declares {env : Env} {f : Factory} {componentUUID : Uuid} {ref : Instance}
    (h : Creates env f componentUUID ref) {tick : Nat} {injectable : Injector}
    (hi : injectable ∈ env.injectablesOf ref tick) : Declares env f componentUUID injectable :=
  ⟨ref, h, tick, hi⟩

theorem Declares.needs {env : Env} {f : Factory} {componentUUID : Uuid} {injectable : Injector}
    (h : Declares env f componentUUID injectable) {bindInfos : FactoryBindInfos}
    (hb : Candidate f injectable.uuid bindInfos) :
    Needs env f componentUUID bindInfos.componentUUID :=
  ⟨injectable, h, bindInfos, hb, rfl⟩

theorem Declares.congr {env : Env} {f f1 : Factory} (h : f.withoutCaches = f1.withoutCaches)
    {componentUUID : Uuid} {injectable : Injector} (hd : Declares env f componentUUID injectable) :
    Declares env f1 componentUUID injectable := by
  obtain ⟨ref, hcreates, hi⟩ := hd
  exact ⟨ref, hcreates.congr h, hi⟩

/-- Resolutions do not change what components need. -/
theorem needs_congr (env : Env) {f f1 : Factory} (h : f.withoutCaches = f1.withoutCaches) :
    Needs env f = Needs env f1 := by
  have hto : ∀ {f f1 : Factory}, f.withoutCaches = f1.withoutCaches →
      ∀ C C1, Needs env f C C1 → Needs env f1 C C1 := by
    rintro f f1 h C C1 ⟨i, hdecl, b, hcand, rfl⟩
    exact ⟨i, hdecl.congr h, b, hcand.congr h, rfl⟩
  funext C C1
  exact propext ⟨hto h C C1, hto h.symm C C1⟩

/-! ## The bindings of an injectable -/

/-- The name an injectable is requested with; a multi-injectable is requested
without its name. -/
def Injector.request (injectable : Injector) : Option String :=
  if injectable.multi then none else injectable.name

/-- The cache key of an injectable whose selected binding is a singleton. -/
def Injector.key (injectable : Injector) (bindInfos : FactoryBindInfos) : SingletonKey :=
  match injectable.request with
  | none => unnamedKey bindInfos
  | some name => .named bindInfos.componentUUID name

theorem keyOf_key (injectable : Injector) (bindInfos : FactoryBindInfos) :
    KeyOf bindInfos (injectable.key bindInfos) := by
  unfold Injector.key
  cases injectable.request with
  | none => exact keyOf_unnamedKey bindInfos
  | some name => exact .named name

namespace Factory

/-- The multi-binding an injectable is resolved with, if there is one. -/
def multiBind (f : Factory) (injectable : Injector) : Option (List FactoryBindInfos) :=
  if injectable.multi then f.context.multiBindings injectable.uuid else none

/-- The single binding of an injectable. -/
def selectBind (f : Factory) (injectable : Injector) (contextLevels : ContextLevels) :
    Except Exc FactoryBindInfos :=
  match injectable.request with
  | some name => resolveNamedBind f.context f.coreBindings injectable.uuid name contextLevels
  | none => resolveBind f.context f.coreBindings injectable.uuid contextLevels

/-- All the bindings an injectable is resolved with. -/
def selection (f : Factory) (injectable : Injector) (contextLevels : ContextLevels) :
    Except Exc (List FactoryBindInfos) :=
  match f.multiBind injectable with
  | some binds => .ok binds
  | none => (f.selectBind injectable contextLevels).map fun bindInfos => [bindInfos]

theorem selection_of_selectBind {f : Factory} {injectable : Injector}
    {contextLevels : ContextLevels} {bindInfos : FactoryBindInfos}
    (hmulti : f.multiBind injectable = none)
    (h : f.selectBind injectable contextLevels = .ok bindInfos) :
    f.selection injectable contextLevels = .ok [bindInfos] := by
  unfold selection
  rw [hmulti]
  dsimp only
  rw [h]
  rfl

end Factory

/-! ## The passes of `resolveAll` -/

/-- The level a resolution of the binding pushes. -/
def lastLevel (bindInfos : FactoryBindInfos) : BindContext := (.component, bindInfos)

/-- The levels of bindings, the one that was pushed last in front. -/
def levelsOf (binds : List FactoryBindInfos) : ContextLevels := binds.map lastLevel

theorem levelsOf_append (l l1 : List FactoryBindInfos) :
    levelsOf (l ++ l1) = levelsOf l ++ levelsOf l1 := List.map_append

/-- One pass. -/
theorem resolveBinds_cons (rc : FactoryBindInfos → ContextLevels → XpcfM Instance)
    (bindInfos : FactoryBindInfos) (rest : List FactoryBindInfos) (contextLevels : ContextLevels) :
    resolveBinds rc (bindInfos :: rest) contextLevels = (do
      let own ← resolveBinds rc [bindInfos] contextLevels
      let others ← resolveBinds rc rest (pushContext bindInfos contextLevels)
      pure (own ++ others)) := by
  simp only [resolveBinds, Exec.bind_assoc, pure_bind_eq, List.append_assoc, List.singleton_append]

/-- The passes before one leave their levels on the stack. -/
theorem resolveBinds_split (rc : FactoryBindInfos → ContextLevels → XpcfM Instance)
    (before rest : List FactoryBindInfos) (bindInfos : FactoryBindInfos)
    (contextLevels : ContextLevels) :
    resolveBinds rc (before ++ bindInfos :: rest) contextLevels = (do
      let refs ← resolveBinds rc before contextLevels
      let own ← resolveBinds rc [bindInfos] (levelsOf before.reverse ++ contextLevels)
      let others ← resolveBinds rc rest (levelsOf (bindInfos :: before.reverse) ++ contextLevels)
      pure (refs ++ (own ++ others))) := by
  induction before generalizing contextLevels with
  | nil => exact resolveBinds_cons rc bindInfos rest contextLevels
  | cons b before ih =>
    have hlevels : levelsOf (b :: before).reverse ++ contextLevels =
        levelsOf before.reverse ++ pushContext b contextLevels := by
      rw [List.reverse_cons, levelsOf_append, List.append_assoc]
      rfl
    have hlevels1 : levelsOf (bindInfos :: (b :: before).reverse) ++ contextLevels =
        levelsOf (bindInfos :: before.reverse) ++ pushContext b contextLevels :=
      congrArg (List.cons (lastLevel bindInfos)) hlevels
    rw [List.cons_append, resolveBinds_cons, ih, hlevels, hlevels1, resolveBinds_cons rc b before]
    simp only [Exec.bind_assoc, pure_bind_eq, List.append_assoc]

end Xpcf
