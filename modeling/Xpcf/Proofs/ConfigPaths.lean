import Xpcf.Proofs.RegistryCoherence

/-!
# Configuration paths

A `<configure>` or `<component>` node gives a component the path of its file.
The path goes to the module of the component, or to the component itself when
the module has another path.  An entry of the component is never removed, so it
hides the module's path when a later declaration goes back to that path.
-/

namespace Xpcf

open CodeLib CodeLib.Exec

/-- The two nodes that declare the configuration file of a component. -/
inductive PathDeclaration where
  | configure (elt : XMLElement)
  | component (elt : XMLElement)

namespace PathDeclaration

def run (env : Env) (configFilePath : String) : PathDeclaration → XpcfM Unit
  | .configure elt => declareConfigure env configFilePath elt
  | .component elt => declareConfigComponent env configFilePath elt

/-- The component the node names. -/
def target (env : Env) (aliases : AliasContext) : PathDeclaration → Option Uuid
  | .configure elt => (uuidOrAlias env aliases .component (elt.attributeOrEmpty "component")
      (.configuration ("UUID format invalid in \"component\": " ++
        elt.attributeOrEmpty "component"))).toOption
  | .component elt => env.toUUID (elt.attributeOrEmpty "uuid")

/-- A declaration that returns has added its path for the component it names. -/
theorem run_ok {env : Env} {configFilePath : String} {d : PathDeclaration} {w w1 : World}
    (h : d.run env configFilePath w = (.ok (), w1)) :
    ∃ componentUuid, d.target env w.factory.aliases = some componentUuid ∧
      w1.factory.registry = w.factory.registry ∧
      w1.factory.properties = declareConfigPath env w.factory.registry w.factory.properties
        componentUuid configFilePath := by
  unfold run at h
  cases d with
  | configure elt =>
    simp only [declareConfigure, rethrowXpcf_ok_iff, gets_bind_run] at h
    obtain ⟨componentUuid, w2, hread, hadd⟩ := bind_ok_iff.mp h
    obtain ⟨htarget, rfl⟩ := ofExcept_ok_iff.mp hread
    cases hadd
    exact ⟨componentUuid, congrArg Except.toOption htarget, rfl, rfl⟩
  | component elt =>
    simp only [declareConfigComponent, rethrowXpcf_ok_iff] at h
    obtain ⟨componentUuid, w2, hread, hadd⟩ := bind_ok_iff.mp h
    obtain ⟨htarget, rfl⟩ := uuidOfAttribute_ok_iff.mp hread
    cases hadd
    exact ⟨componentUuid, htarget, rfl, rfl⟩

end PathDeclaration

/-! ## The same path -/

section SamePath

variable {env : Env} {path path1 : String}

theorem samePath_iff : env.samePath path path1 ↔ env.pathElements path = env.pathElements path1 :=
  decide_eq_true_iff

theorem samePath_refl (env : Env) (path : String) : env.samePath path path :=
  samePath_iff.mpr rfl

end SamePath

/-- The component has no module, or its module has another path, or no other
path is kept for the component itself. -/
def PathVisible (env : Env) (registry : RegistryContext) (ctx : PropertyContext)
    (componentUuid : Uuid) (configFilePath : String) : Prop :=
  ∀ moduleUuid, registry.componentModuleUUIDMap componentUuid = some moduleUuid →
    (∃ path, ctx.moduleConfigMap moduleUuid = some path ∧ ¬ env.samePath path configFilePath) ∨
    ∀ path, ctx.componentConfigMap componentUuid = some path → env.samePath path configFilePath

/-- Where no entry of the component hides it, the module's path is the answer. -/
theorem getConfigPath_of_module {env : Env} {registry : RegistryContext} {ctx : PropertyContext}
    {componentUuid moduleUuid : Uuid} {path configFilePath : String}
    (hmodule : registry.componentModuleUUIDMap componentUuid = some moduleUuid)
    (hpath : ctx.moduleConfigMap moduleUuid = some path)
    (hsame : env.samePath path configFilePath) :
    env.samePath (getConfigPath registry ctx componentUuid) configFilePath ↔
      ∀ path, ctx.componentConfigMap componentUuid = some path →
        env.samePath path configFilePath := by
  unfold getConfigPath getModuleUUID
  cases hown : ctx.componentConfigMap componentUuid with
  | none => simp [hmodule, hpath, hsame]
  | some path => simp

theorem getConfigPath_of_component {registry : RegistryContext} {ctx : PropertyContext}
    {componentUuid : Uuid} {configFilePath : String}
    (h : ctx.componentConfigMap componentUuid = some configFilePath) :
    getConfigPath registry ctx componentUuid = configFilePath := by
  simp [getConfigPath, h]

theorem declareConfigPath_visible_iff (env : Env) (registry : RegistryContext)
    (ctx : PropertyContext) (componentUuid : Uuid) (configFilePath : String) :
    env.samePath
        (getConfigPath registry (declareConfigPath env registry ctx componentUuid configFilePath)
          componentUuid) configFilePath ↔
      PathVisible env registry ctx componentUuid configFilePath := by
  have hrefl := samePath_refl env configFilePath
  unfold declareConfigPath getModuleUUID PathVisible
  cases hmodule : registry.componentModuleUUIDMap componentUuid with
  | none => simp [getConfigPath_of_component, hrefl]
  | some moduleUuid =>
    cases hpath : ctx.moduleConfigMap moduleUuid with
    | none =>
      simp only [Option.some.injEq, forall_eq', hpath, reduceCtorEq, false_and, exists_false,
        false_or]
      exact getConfigPath_of_module hmodule (Table.insert_self _ _ _) hrefl
    | some path =>
      by_cases hsame : env.samePath path configFilePath
      · simp [hpath, hsame, getConfigPath_of_module hmodule hpath hsame]
      · simp [hpath, hsame, getConfigPath_of_component, hrefl]

/-- After a declaration that returned, the path of the component is that of the
file exactly when no older entry of the component hides it. -/
theorem configPath_declared_iff {env : Env} {configFilePath : String} {d : PathDeclaration}
    {w w1 : World} (h : d.run env configFilePath w = (.ok (), w1)) :
    ∃ componentUuid, d.target env w.factory.aliases = some componentUuid ∧
      (env.samePath (getConfigPath w1.factory.registry w1.factory.properties componentUuid)
          configFilePath ↔
        PathVisible env w.factory.registry w.factory.properties componentUuid
          configFilePath) := by
  obtain ⟨componentUuid, htarget, hregistry, hproperties⟩ := PathDeclaration.run_ok h
  refine ⟨componentUuid, htarget, ?_⟩
  rw [hregistry, hproperties]
  exact declareConfigPath_visible_iff _ _ _ _ _

/-! ## A path that comes back -/

def configureNode : XMLElement := .mk "configure" [("component", uuidText2)] none []

/-- A file that configures the component of module 1. -/
def configuredFile : LibraryFile :=
  .document (.mk "xpcf-registry" [] none [moduleElement uuidText2,
    .mk "properties" [] none [configureNode]])

/-- The files "d/f" and "g" both configure the component. -/
def twoPathsWorld : World :=
  (loadLibrary (Env.simple []) "g" configuredFile
    (loadLibrary (Env.simple []) "d/f" configuredFile World.initial).2).2

/-- The first path goes to the module and is visible, also when it is declared
once more in another spelling. -/
theorem configPath_of_first_file :
    let w := (declareConfigure (Env.simple []) "d/f" configureNode oneModuleWorld).2
    let w1 := (declareConfigure (Env.simple []) "d//f" configureNode w).2
    (Env.simple []).samePath
      (getConfigPath w1.factory.registry w1.factory.properties 2) "d//f" := by
  intro w w1
  have hrun : (PathDeclaration.configure configureNode).run (Env.simple []) "d//f" w =
      (.ok (), w1) := rfl
  obtain ⟨componentUuid, htarget, hvisible⟩ := configPath_declared_iff hrun
  cases htarget
  refine hvisible.mpr fun moduleUuid _ => .inr fun path hpath => ?_
  cases hpath

/-- The declaration of "d/f" after "g" returns, and the component keeps "g". -/
theorem older_path_hides :
    let w1 := (declareConfigure (Env.simple []) "d/f" configureNode twoPathsWorld).2
    declareConfigure (Env.simple []) "d/f" configureNode twoPathsWorld = (.ok (), w1) ∧
      getConfigPath w1.factory.registry w1.factory.properties 2 = "g" ∧
      ¬ (Env.simple []).samePath "g" "d/f" :=
  ⟨rfl, rfl, by decide⟩

end Xpcf
