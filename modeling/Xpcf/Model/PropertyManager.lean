import Xpcf.Model.Registry

/-!
# The property manager

Which XML file configures a component: the first file named for one of the
components of a module serves the whole module, and a further file serves only
the component it names.
-/

namespace Xpcf

open CodeLib CodeLib.Exec

/-- `operator==` of `fs::path`. -/
def Env.samePath (env : Env) (path path1 : String) : Bool :=
  env.pathElements path = env.pathElements path1

/-- The common part of `declareComponent` and `declareConfigure`. -/
def declareConfigPath (env : Env) (registry : RegistryContext) (ctx : PropertyContext)
    (componentUuid : Uuid) (configFilePath : String) : PropertyContext :=
  match getModuleUUID registry componentUuid with
  | .ok moduleUuid =>
    match ctx.moduleConfigMap moduleUuid with
    | none =>
      { ctx with moduleConfigMap := ctx.moduleConfigMap.insert moduleUuid configFilePath }
    | some moduleConfigurationPath =>
      if env.samePath moduleConfigurationPath configFilePath then ctx
      else
        { ctx with
          componentConfigMap := ctx.componentConfigMap.insert componentUuid configFilePath }
  | .error _ =>
    -- no module is known for the component: it can be declared from bindLocal
    { ctx with componentConfigMap := ctx.componentConfigMap.insert componentUuid configFilePath }

def addConfigPath (env : Env) (componentUuid : Uuid) (configFilePath : String) : XpcfM Unit :=
  modifyFactory fun f =>
    { f with
      properties := declareConfigPath env f.registry f.properties componentUuid configFilePath }

/-- `PropertyManager::declareComponent`. -/
def declareConfigComponent (env : Env) (configFilePath : String) (elt : XMLElement) :
    XpcfM Unit :=
  let msg := fun what =>
    XmlErrorMessage.addAttribute ⟨"component", what, false, []⟩ "uuid" (elt.attributeOrEmpty "uuid")
  rethrowXpcf msg do
    let componentUuid ← uuidOfAttribute env elt "uuid" "UUID format invalid in \"uuid\": "
    addConfigPath env componentUuid configFilePath

/-- `PropertyManager::declareConfigure`. -/
def declareConfigure (env : Env) (configFilePath : String) (elt : XMLElement) : XpcfM Unit :=
  let componentAttrValue := elt.attributeOrEmpty "component"
  let msg := fun what =>
    XmlErrorMessage.addAttribute ⟨"configure", what, false, []⟩ "component" componentAttrValue
  rethrowXpcf msg do
    let aliases ← gets fun w => w.factory.aliases
    let componentUuid ← ofExcept (uuidOrAlias env aliases .component componentAttrValue
      (.configuration ("UUID format invalid in \"component\": " ++ componentAttrValue)))
    addConfigPath env componentUuid configFilePath

/-- `PropertyManager::declareConfiguration`. -/
def declareConfiguration (env : Env) (configFilePath : String) (elt : XMLElement) : XpcfM Unit :=
  rethrowXpcf (fun what => ⟨"configuration", what, true, []⟩)
    (processXmlNode elt "component" (declareConfigComponent env configFilePath))

/-- `PropertyManager::declareProperties`. -/
def declareProperties (env : Env) (configFilePath : String) (elt : XMLElement) : XpcfM Unit :=
  rethrowXpcf (fun what => ⟨"properties", what, true, []⟩)
    (processXmlNode elt "configure" (declareConfigure env configFilePath))

/-- `PropertyManager::getConfigPath`: the empty path when there is none. -/
def getConfigPath (registry : RegistryContext) (ctx : PropertyContext) (componentUUID : Uuid) :
    String :=
  match ctx.componentConfigMap componentUUID with
  | some path => path
  | none =>
    match getModuleUUID registry componentUUID with
    | .error _ => ""
    | .ok moduleUUID => (ctx.moduleConfigMap moduleUUID).getD ""

end Xpcf
