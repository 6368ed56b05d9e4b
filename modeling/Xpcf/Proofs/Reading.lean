import Xpcf.CodeLib.Passes
import Xpcf.Model.Loading

/-!
# The nodes a declaration reads

A declaration stops at the first node that is refused, and a component that is
known already is not read any further.  `ReachesComponent` and
`ReachesInterface` name the nodes below a `<module>` that are read, with the
world they are read in.
-/

namespace Xpcf

open CodeLib CodeLib.Exec

/-! ## Modules and components that are opened -/

/-- `declareModule` up to its components. -/
def openModule (env : Env) (xmlModuleElt : XMLElement) (moduleUuid : Uuid) : XpcfM ModuleRef := do
  let moduleInfo ← newModule (makeModuleMetadata env (xmlModuleElt.attributeOrEmpty "name")
    moduleUuid (xmlModuleElt.attributeOrEmpty "description") (xmlModuleElt.attr "path"))
  modifyRegistry fun ctx =>
    if ctx.modulesMap.contains moduleUuid then ctx
    else ctx.addModuleMetadata moduleUuid moduleInfo
  pure moduleInfo

theorem declareModule_eq (env : Env) (xmlModuleElt : XMLElement) :
    declareModule env xmlModuleElt = (do
      let moduleUuid ← rethrowXpcf (namedErrorMessage "module" xmlModuleElt false)
        (uuidOfAttribute env xmlModuleElt "uuid" "UUID format invalid in \"uuid\": ")
      rethrowXpcf (namedErrorMessage "module" xmlModuleElt true) (do
        let moduleInfo ← openModule env xmlModuleElt moduleUuid
        processXmlNode xmlModuleElt "component" (declareComponent env moduleInfo))) := rfl

/-- `declareNewComponent` up to its interfaces. -/
def openComponent (moduleInfo : ModuleRef) (componentElt : XMLElement) (componentUuid : Uuid) :
    XpcfM ComponentRef := do
  let p ← gets fun w => w.process
  modifyRegistry fun ctx => ctx.setModuleUUID componentUuid (p.module moduleInfo).uuid
  let description ← ofExcept (componentElt.attributeString "description")
  let componentName := componentElt.attributeOrEmpty "name"
  let componentInfo ← newComponent ⟨componentName, componentUuid, description, []⟩
  declareAutoAlias .component componentName componentUuid
  modifyProcess fun p => p.addComponent moduleInfo componentInfo
  pure componentInfo

theorem declareNewComponent_eq (env : Env) (moduleInfo : ModuleRef) (componentElt : XMLElement)
    (componentUuid : Uuid) :
    declareNewComponent env moduleInfo componentElt componentUuid = (do
      let componentInfo ← openComponent moduleInfo componentElt componentUuid
      processXmlNode componentElt "interface" (declareInterfaceNode env componentInfo)) := by
  unfold openComponent
  simp only [Exec.bind_assoc]
  rfl

/-- The registry knows the component already. -/
def World.KnowsComponent (w : World) (componentUuid : Uuid) : Prop :=
  w.factory.registry.componentModuleUUIDMap.contains componentUuid = true

/-- The declaration of the module node, started in `w`, reads this component node
in `w1`. -/
def ReachesComponent (env : Env) (moduleElt : XMLElement) (w : World) (moduleInfo : ModuleRef)
    (componentElt : XMLElement) (w1 : World) : Prop :=
  ∃ moduleUuid w0, env.toUUID (moduleElt.attributeOrEmpty "uuid") = some moduleUuid ∧
    openModule env moduleElt moduleUuid w = (.ok moduleInfo, w0) ∧
    Pass (declareComponent env moduleInfo) (moduleElt.childElements "component") w0 componentElt w1

/-- The declaration of the component node, started in `w`, reads this interface
node in `w1`. -/
def ReachesInterface (env : Env) (moduleInfo : ModuleRef) (componentElt : XMLElement) (w : World)
    (interfaceElt : XMLElement) (w1 : World) : Prop :=
  ∃ componentUuid c w0, env.toUUID (componentElt.attributeOrEmpty "uuid") = some componentUuid ∧
    ¬ w.KnowsComponent componentUuid ∧
    openComponent moduleInfo componentElt componentUuid w = (.ok c, w0) ∧
    Pass (declareInterfaceNode env c) (componentElt.childElements "interface") w0 interfaceElt w1

end Xpcf
