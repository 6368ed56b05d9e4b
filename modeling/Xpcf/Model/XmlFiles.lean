import Xpcf.Model.Serialize
import Xpcf.Model.XmlDocument

/-!
# Files that are updated

`PropertyManager::serialize` and `ModuleManager::saveModuleInformations` go the same
way with a file: `LoadFile`, a new node at the end of the root element, or of a new
root in front of what was loaded if there was an error, and `SaveFile`.

An `XMLElement` is made with `NewElement`, `SetAttribute`, `SetText` and
`InsertEndChild`, each of which takes a C string.
-/

namespace Xpcf

open TinyXml

mutual

/-- The node that is made for an element. -/
def XMLElement.toNode : XMLElement → XMLNode
  | .mk value attributes text children =>
    .element (.ofString value)
      (attributes.map fun entry => (.ofString entry.1, .ofString entry.2))
      ((text.map fun value => XMLNode.text (.ofString value) false).toList ++ toNodes children)

def toNodes : List XMLElement → List XMLNode
  | [] => []
  | elt :: elts => elt.toNode :: toNodes elts

end

namespace TinyXml

/-- `InsertEndChild` on the first element, if there is one. -/
def insertEndChild (nodes : List XMLNode) : List XMLNode → List XMLNode
  | [] => []
  | .element name attributes children :: rest =>
    .element name attributes (children ++ nodes) :: rest
  | node :: rest => node :: insertEndChild nodes rest

/-- The file after one update; `none` for a document without a root element, whose
null pointer is written through. -/
def updateFile (rootName : CString) (node : XMLNode) (file : Option Bytes) : Option Bytes :=
  let doc := (loadFile file).2
  match (loadFile file).1 with
  | none =>
    doc.rootElement.map fun _ =>
      { doc with children := insertEndChild [node] doc.children }.saveFile false
  | some _ =>
    some ({ doc with children := .element rootName [] [node] :: doc.children }.saveFile false)

/-- One update after the other. -/
def updateFiles (rootName : CString) : List XMLNode → Option Bytes → Option (Option Bytes)
  | [], file => some file
  | node :: nodes, file =>
    (updateFile rootName node file).bind fun bytes => updateFiles rootName nodes (some bytes)

/-! ## Elements as the framework reads them -/

/-- A C string as a text, if it is one in UTF-8. -/
def CString.decode (s : CString) : Option String := String.fromUTF8? s.bytes.toByteArray

/-- `GetText`: the value of the first child that is no comment, if it is a text. -/
def getText : List XMLNode → Option CString
  | .comment _ :: rest => getText rest
  | .text value _ :: _ => some value
  | _ => none

mutual

/-- An element with its tag, its attributes, its text and its child elements;
`none` where a string is no text in UTF-8. -/
def XMLNode.view : XMLNode → Option XMLElement
  | .element name attributes children => do
    let value ← name.decode
    let attrs ← attributes.mapM fun entry => do
      let key ← entry.1.decode
      let text ← entry.2.decode
      pure (key, text)
    let text ← (getText children).mapM CString.decode
    let elements ← viewAll children
    pure (.mk value attrs text elements)
  | _ => none

def viewAll : List XMLNode → Option (List XMLElement)
  | [] => some []
  | .element name attributes children :: rest => do
    let elt ← (XMLNode.element name attributes children).view
    let elts ← viewAll rest
    pure (elt :: elts)
  | _ :: rest => viewAll rest

end

end TinyXml

/-- `PropertyManager::serialize` on the bytes of a file. -/
def serializeFile (floats : FloatText) (componentUUID : Uuid) (root : PropertyMap)
    (file : Option Bytes) : Option Bytes :=
  updateFile (.ofString "xpcf-configuration")
    (serializedProperties floats componentUUID root).toNode file

end Xpcf
