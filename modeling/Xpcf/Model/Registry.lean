import Xpcf.Model.AliasManager
import Xpcf.Model.Bindings

/-!
# The registry

Modules, components and interfaces reach the registry on two paths: the
`<module>` nodes of an XML file (`declareModule`) and the introspection of a
module library (`declareModuleMetadata`).  Both autobind the interfaces of the
components and, when `autoAlias` is on, name the components and interfaces.
-/

namespace Xpcf

open CodeLib CodeLib.Exec

/-! ## Queries -/

/-- `Registry::getModuleUUID`. -/
def getModuleUUID (ctx : RegistryContext) (componentUUID : Uuid) : Except Exc Uuid :=
  match ctx.componentModuleUUIDMap componentUUID with
  | some moduleUUID => .ok moduleUUID
  | none => .error (.moduleNotFound
      ("No module UUID found for component " ++ componentUUID.toString))

/-- `Registry::findModuleMetadata`. -/
def findModuleMetadata (ctx : RegistryContext) (moduleUUID : Uuid) : Except Exc ModuleRef :=
  match ctx.modulesMap moduleUUID with
  | some r => .ok r
  | none => .error (.moduleNotFound ("xpcf::ModuleNotFoundException: " ++ moduleUUID.toString))

/-- `Registry::findComponentMetadata`: `none` is the null pointer. -/
def findComponentMetadata (ctx : RegistryContext) (p : Process) (componentUUID : Uuid) :
    Except Exc (Option ComponentRef) := do
  let moduleUUID ← getModuleUUID ctx componentUUID
  let r ← findModuleMetadata ctx moduleUUID
  pure (p.getComponentMetadata r componentUUID)

/-- `Registry::findInterfaceMetadata`: `none` is the null pointer. -/
def findInterfaceMetadata (ctx : RegistryContext) (interfaceUUID : Uuid) :
    Option InterfaceMetadata :=
  ctx.interfacesMap interfaceUUID

/-! ## Adding metadata -/

namespace RegistryContext

/-- `addModuleMetadata`: does nothing when the UUID is known. -/
def addModuleMetadata (ctx : RegistryContext) (uuid : Uuid) (r : ModuleRef) : RegistryContext :=
  if ctx.modulesMap.contains uuid then ctx
  else { ctx with
    modulesVector := ctx.modulesVector ++ [r]
    modulesMap := ctx.modulesMap.insert uuid r }

/-- `addInterfaceMetadata`: does nothing when the UUID is known. -/
def addInterfaceMetadata (ctx : RegistryContext) (metadata : InterfaceMetadata) :
    RegistryContext :=
  if ctx.interfacesMap.contains metadata.uuid then ctx
  else { ctx with
    interfacesVector := ctx.interfacesVector ++ [metadata]
    interfacesMap := ctx.interfacesMap.insert metadata.uuid metadata }

/-- `componentModuleUUIDMap[componentUUID] = moduleUUID`. -/
def setModuleUUID (ctx : RegistryContext) (componentUUID moduleUUID : Uuid) : RegistryContext :=
  { ctx with
    componentModuleUUIDMap := ctx.componentModuleUUIDMap.insert componentUUID moduleUUID }

end RegistryContext

def modifyRegistry (g : RegistryContext → RegistryContext) : XpcfM Unit :=
  modifyFactory fun f => { f with registry := g f.registry }

def modifyContext (g : FactoryContext → FactoryContext) : XpcfM Unit :=
  modifyFactory fun f => { f with context := g f.context }

/-- `Registry::autobind`, bound to the factory's own `autobind`. -/
def autobind (interfaceUUID componentUUID : Uuid) : XpcfM Unit :=
  modifyContext fun ctx => ctx.autobind interfaceUUID componentUUID

/-- The block `if (m_autoAlias)`: a name that is free becomes an alias. -/
def declareAutoAlias (type : AliasType) (name : String) (uuid : Uuid) : XpcfM Unit := do
  let f ← gets fun w => w.factory
  if f.autoAlias = true ∧ f.aliases.aliasExists type name = false then
    declareAlias type name uuid
  else pure ()

/-! ## Introspected modules -/

/-- The body of the interface loop of `declareModuleMetadata`. -/
def declareComponentInterface (c : ComponentRef) (componentUUID : Uuid)
    (interfaceInfo : InterfaceMetadata) : XpcfM Unit := do
  autobind interfaceInfo.uuid componentUUID
  declareAutoAlias .interface interfaceInfo.name interfaceInfo.uuid
  modifyProcess fun p => p.addInterface c interfaceInfo.uuid
  modifyRegistry fun ctx => ctx.addInterfaceMetadata interfaceInfo

/-- `getInterfaces()` and `getMetadata` of a component that a module created. -/
def getInterfaces (env : Env) : Instance → List InterfaceMetadata
  | .user id => env.interfaces id
  | .core _ => []
  | .framework _ _ => []

/-- The body of the component loop of `declareModuleMetadata`. -/
def declareComponentMetadata (env : Env) (r : ModuleRef) (c : ComponentRef) : XpcfM Unit := do
  let p ← gets fun w => w.process
  let componentUUID := (p.component c).uuid
  let moduleUUID := (p.module r).uuid
  modifyRegistry fun ctx =>
    if ctx.componentModuleUUIDMap.contains componentUUID then ctx
    else ctx.setModuleUUID componentUUID moduleUUID
  declareAutoAlias .component (p.component c).name componentUUID
  let rIntrospect ← createModuleComponent env r componentUUID
  forEach (declareComponentInterface c componentUUID) (getInterfaces env rIntrospect)

/-- `Registry::declareModuleMetadata`. -/
def declareModuleMetadata (env : Env) (r : ModuleRef) : XpcfM Unit := do
  let p ← gets fun w => w.process
  modifyRegistry fun ctx => ctx.addModuleMetadata (p.module r).uuid r
  forEach (declareComponentMetadata env r) (p.module r).components

/-- `Registry::loadModuleMetadata`. -/
def loadModuleMetadata (env : Env) (library : Except Exc ModuleLibrary) :
    XpcfM XPCFErrorCode := do
  let r ← introspectModule env library
  declareModuleMetadata env r
  pure .success

/-- The loop of `Registry::loadModules` over the module libraries of a folder. -/
def loadModuleLibraries (env : Env) (result : XPCFErrorCode) :
    List (Except Exc ModuleLibrary) → XpcfM XPCFErrorCode
  | [] => pure result
  | library :: rest => do
    let result ← loadModuleMetadata env library
    loadModuleLibraries env result rest

/-- What `Registry::loadModules` finds at its path argument. -/
inductive ModuleFolder where
  | nullPath
  | missing
  | notDirectory
  | libraries (files : List (Except Exc ModuleLibrary))

/-- `Registry::loadModules`. -/
def loadModules (env : Env) : ModuleFolder → XpcfM XPCFErrorCode
  | .nullPath => pure .errorNullPointer
  | .missing => pure .fail
  | .notDirectory => pure .fail
  | .libraries files => loadModuleLibraries env .success files

/-! ## XML modules -/

/-- `toUUID` of an attribute that may be missing.  The error text is appended
from the attribute itself, which is a null pointer when it is missing: `append`
reads the text it points to, without a test. -/
def uuidOfAttribute (env : Env) (elt : XMLElement) (name what : String) : XpcfM Uuid :=
  match env.toUUID (elt.attributeOrEmpty name) with
  | some uuid => pure uuid
  | none =>
    match elt.attr name with
    | some text => throw (.configuration (what ++ text))
    | none => undefined

theorem uuidOfAttribute_of_some {env : Env} {elt : XMLElement} {name : String} {uuid : Uuid}
    (h : env.toUUID (elt.attributeOrEmpty name) = some uuid) (what : String) :
    uuidOfAttribute env elt name what = pure uuid := by
  unfold uuidOfAttribute
  rw [h]

/-- Both failures apart, the text of the attribute is a UUID, and nothing has
changed. -/
theorem uuidOfAttribute_ok_iff {env : Env} {elt : XMLElement} {name what : String} {uuid : Uuid}
    {w w1 : World} : uuidOfAttribute env elt name what w = (.ok uuid, w1) ↔
      env.toUUID (elt.attributeOrEmpty name) = some uuid ∧ w1 = w := by
  constructor
  · intro h
    unfold uuidOfAttribute at h
    cases hparse : env.toUUID (elt.attributeOrEmpty name) with
    | some u =>
      rw [hparse] at h
      cases h
      exact ⟨rfl, rfl⟩
    | none =>
      rw [hparse] at h
      cases htext : elt.attr name with
      | some text =>
        rw [htext] at h
        cases h
      | none =>
        rw [htext] at h
        cases h
  · rintro ⟨h, rfl⟩
    rw [uuidOfAttribute_of_some h]
    rfl

theorem keeps_uuidOfAttribute {F : Frame World} (env : Env) (elt : XMLElement)
    (name what : String) : Keeps F (uuidOfAttribute env elt name what) := by
  unfold uuidOfAttribute
  split
  · exact Keeps.pure _
  · split
    · exact Keeps.throw _
    · exact Keeps.undefined

/-- The message of an element with a `uuid` and a `name`. -/
def namedErrorMessage (tag : String) (elt : XMLElement) (subElementError : Bool)
    (what : String) : XmlErrorMessage :=
  let msg : XmlErrorMessage := ⟨tag, what, subElementError, []⟩
  (msg.addAttributeIfSet "uuid" (elt.attributeOrEmpty "uuid")).addAttributeIfSet "name"
    (elt.attributeOrEmpty "name")

/-- The block of `declareInterfaceNode` for an interface that is not known
yet. -/
def declareNewInterface (interfaceElt : XMLElement) (interfaceUuid : Uuid) : XpcfM Unit := do
  let interfaceDescription ← ofExcept (interfaceElt.attributeString "description")
  let interfaceName := interfaceElt.attributeOrEmpty "name"
  declareAutoAlias .interface interfaceName interfaceUuid
  modifyRegistry fun ctx =>
    ctx.addInterfaceMetadata ⟨interfaceName, interfaceUuid, interfaceDescription⟩

/-- `Registry::declareInterfaceNode`. -/
def declareInterfaceNode (env : Env) (c : ComponentRef) (interfaceElt : XMLElement) :
    XpcfM Unit :=
  rethrowXpcf (namedErrorMessage "interface" interfaceElt false) do
    let interfaceUuid ← uuidOfAttribute env interfaceElt "uuid"
      "UUID format invalid in \"uuid\" attribute: "
    modifyProcess fun p => p.addInterface c interfaceUuid
    let w ← gets id
    autobind interfaceUuid (w.process.component c).uuid
    if w.factory.registry.interfacesMap.contains interfaceUuid then pure ()
    else declareNewInterface interfaceElt interfaceUuid

/-- The block of `declareComponent` for a component that is not known yet. -/
def declareNewComponent (env : Env) (moduleInfo : ModuleRef) (componentElt : XMLElement)
    (componentUuid : Uuid) : XpcfM Unit := do
  let p ← gets fun w => w.process
  modifyRegistry fun ctx => ctx.setModuleUUID componentUuid (p.module moduleInfo).uuid
  let description ← ofExcept (componentElt.attributeString "description")
  let componentName := componentElt.attributeOrEmpty "name"
  let componentInfo ← newComponent ⟨componentName, componentUuid, description, []⟩
  declareAutoAlias .component componentName componentUuid
  modifyProcess fun p => p.addComponent moduleInfo componentInfo
  processXmlNode componentElt "interface" (declareInterfaceNode env componentInfo)

/-- `Registry::declareComponent`: nothing happens for a component UUID that is
known. -/
def declareComponent (env : Env) (moduleInfo : ModuleRef) (componentElt : XMLElement) :
    XpcfM Unit := do
  let componentUuid ← rethrowXpcf (namedErrorMessage "component" componentElt false)
    (uuidOfAttribute env componentElt "uuid" "UUID format invalid in \"uuid\": ")
  rethrowXpcf (namedErrorMessage "component" componentElt true) do
    let known ← gets fun w => w.factory.registry.componentModuleUUIDMap.contains componentUuid
    if known then pure ()
    else declareNewComponent env moduleInfo componentElt componentUuid

/-- `Registry::declareModule`.  The components are added to the metadata object
made here, also when another one is registered for the UUID. -/
def declareModule (env : Env) (xmlModuleElt : XMLElement) : XpcfM Unit := do
  let moduleUuid ← rethrowXpcf (namedErrorMessage "module" xmlModuleElt false)
    (uuidOfAttribute env xmlModuleElt "uuid" "UUID format invalid in \"uuid\": ")
  rethrowXpcf (namedErrorMessage "module" xmlModuleElt true) do
    let moduleInfo ← newModule (makeModuleMetadata env (xmlModuleElt.attributeOrEmpty "name")
      moduleUuid (xmlModuleElt.attributeOrEmpty "description") (xmlModuleElt.attr "path"))
    modifyRegistry fun ctx =>
      if ctx.modulesMap.contains moduleUuid then ctx
      else ctx.addModuleMetadata moduleUuid moduleInfo
    processXmlNode xmlModuleElt "component" (declareComponent env moduleInfo)

end Xpcf
