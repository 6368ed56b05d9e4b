import Xpcf.Model.Loading
import Xpcf.Model.XmlFiles

/-!
# Saving what a module declares

`ModuleManager::saveModuleInformations` writes a `<module>` node with the components
of a module.  The interfaces are those that an instance tells, so each component is
created for it.  `libraryFile` is what `Factory::loadLibrary` sees of the bytes of a
file.
-/

namespace Xpcf

open CodeLib CodeLib.Exec TinyXml

/-! ## The node of a module -/

/-- `ModuleManager::getComponentInterfaceList`. -/
def getComponentInterfaceList (env : Env) (moduleInfos : ModuleRef) (componentUUID : Uuid) :
    XpcfM (List InterfaceMetadata) := do
  let rIntrospect ← createModuleComponent env moduleInfos componentUUID
  pure (getInterfaces env rIntrospect)

def xmlInterfaceElt (interface : InterfaceMetadata) : XMLElement :=
  .mk "interface" [("uuid", interface.uuid.toString), ("name", interface.name),
    ("description", interface.description)] none []

def xmlComponentElt (componentInfo : ComponentMetadata) (interfaceList : List InterfaceMetadata) :
    XMLElement :=
  .mk "component" [("uuid", componentInfo.uuid.toString), ("name", componentInfo.name),
    ("description", componentInfo.description)] none (interfaceList.map xmlInterfaceElt)

def xmlModuleElt (moduleInfos : ModuleMetadata) (components : List XMLElement) : XMLElement :=
  .mk "module" [("uuid", moduleInfos.uuid.toString), ("name", moduleInfos.name),
    ("path", moduleInfos.modulePath), ("description", moduleInfos.description)] none components

/-- The loop over the components of the module. -/
def componentElements (env : Env) (moduleInfos : ModuleRef) :
    List ComponentRef → XpcfM (List XMLElement)
  | [] => pure []
  | c :: rest => do
    let p ← gets fun w => w.process
    let interfaceList ← getComponentInterfaceList env moduleInfos (p.component c).uuid
    let elements ← componentElements env moduleInfos rest
    pure (xmlComponentElt (p.component c) interfaceList :: elements)

def moduleNode (env : Env) (moduleInfos : ModuleRef) : XpcfM XMLElement := do
  let p ← gets fun w => w.process
  let components ← componentElements env moduleInfos (p.module moduleInfos).components
  pure (xmlModuleElt (p.module moduleInfos) components)

/-- `ModuleManager::saveModuleInformations`: the code and the file afterwards; `none`
where the null pointer of a missing root element is used.  What `SaveFile` returns is
not looked at. -/
def saveModuleInformations (env : Env) (moduleInfos : ModuleRef) (file : Option Bytes) :
    XpcfM (Option (XPCFErrorCode × Option Bytes)) :=
  tryCatch (do
      let node ← moduleNode env moduleInfos
      pure ((updateFile (.ofString "xpcf-registry") node.toNode file).map fun bytes =>
        (.success, some bytes)))
    fun e => if e.isRuntimeError then pure (some (.fail, file)) else throw e

/-! ## Files as the factory sees them -/

/-- What `Factory::loadLibrary` finds at a path with the extension `.xml`; `none` for a
document without a root element, whose null pointer is used, and for texts that the
model has no strings for. -/
def libraryFile (file : Option Bytes) : Option LibraryFile :=
  match file with
  | none => some .missing
  | some _ =>
    match (loadFile file).1 with
    | some _ => some .unparsable
    | none => (loadFile file).2.rootElement.bind fun root => root.view.map .document

end Xpcf
