import Xpcf.Core.Xml

/-!
# Writing XML

`XmlBlockManager`: it writes a document line by line and keeps the names of the
open blocks on a stack.  Attribute values and texts are written as they are, so
the line that a parser sees is the line that was meant as long as they hold no
markup; `readDocument` is what it makes of such lines.
-/

namespace Xpcf.GrpcGen

/-! ## Lines -/

/-- A line of markup. -/
inductive XmlLine where
  | declaration
  | start (name : String) (attributes : List (String × String))
  | finish (name : String)
  /-- A node in one line: `<name/>`. -/
  | node (name : String) (attributes : List (String × String))
  | value (text : String)
  deriving DecidableEq

def attributesText (attributes : List (String × String)) : String :=
  String.join (attributes.map fun entry => " " ++ entry.1 ++ "=\"" ++ entry.2 ++ "\"")

/-- The text of a line after its indentation. -/
def XmlLine.text : XmlLine → String
  | declaration => "<?xml version=\"1.0\" encoding=\"UTF-8\" standalone=\"yes\" ?>"
  | start name attributes => "<" ++ name ++ attributesText attributes ++ ">"
  | finish name => "</" ++ name ++ ">"
  | node name attributes => "<" ++ name ++ attributesText attributes ++ "/>"
  | value text => "<value>" ++ text ++ "</value>"

/-! ## The writer -/

/-- `XmlBlockManager`.  `written` holds every line with its indentation. -/
structure XmlBlockManager where
  indentLevel : Nat
  rootName : String
  blockNameStack : List String
  written : List (Nat × XmlLine)

namespace XmlBlockManager

def new : XmlBlockManager := ⟨0, "", [], []⟩

def write (m : XmlBlockManager) (line : XmlLine) : XmlBlockManager :=
  { m with written := m.written ++ [(m.indentLevel, line)] }

/-- `enter(nodeName, attributes)`. -/
def enter (m : XmlBlockManager) (nodeName : String) (attributes : List (String × String)) :
    XmlBlockManager :=
  let m1 := { m with blockNameStack := nodeName :: m.blockNameStack }
  let m2 := m1.write (.start nodeName attributes)
  { m2 with indentLevel := m2.indentLevel + 1 }

def addValue (m : XmlBlockManager) (text : String) : XmlBlockManager := m.write (.value text)

/-- `node(nodeName, attributes)`. -/
def node (m : XmlBlockManager) (nodeName : String) (attributes : List (String × String)) :
    XmlBlockManager := m.write (.node nodeName attributes)

/-- `leave(nodeName)`. -/
def leaveNode (m : XmlBlockManager) (nodeName : String) : XmlBlockManager :=
  { m with indentLevel := m.indentLevel - 1 }.write (.finish nodeName)

/-- `leave()`, which only runs while a block is open. -/
def leave (m : XmlBlockManager) : XmlBlockManager :=
  match m.blockNameStack with
  | [] => m
  | blkName :: rest => { m with blockNameStack := rest }.leaveNode blkName

/-- The value that the attributes of `xmlOpenRootNode` have by default. -/
def rootAttributes : List (String × String) := [("autoAlias", "true")]

/-- `xmlOpenRootNode(nodeName, attributes)`: it enters the root by its name
alone. -/
def xmlOpenRootNode (m : XmlBlockManager) (nodeName : String)
    (_attributes : List (String × String)) : XmlBlockManager :=
  { m.write .declaration with rootName := nodeName }.enter nodeName []

/-- The loop of `xmlCloseOpenedNodes` over the open blocks. -/
def closeNodes : List String → XmlBlockManager → XmlBlockManager
  | [], m => m
  | _ :: rest, m => closeNodes rest m.leave

/-- `release()`. -/
def release (m : XmlBlockManager) : XmlBlockManager := closeNodes m.blockNameStack m

/-- `xml_block_guard`: a block around what is written while the guard lives. -/
def block (nodeName : String) (attributes : List (String × String))
    (body : XmlBlockManager → XmlBlockManager) (m : XmlBlockManager) : XmlBlockManager :=
  (body (m.enter nodeName attributes)).leave

def lines (m : XmlBlockManager) : List XmlLine := m.written.map Prod.snd

/-- The document as a text. -/
def text (m : XmlBlockManager) : String :=
  String.join (m.written.map fun entry =>
    String.join (List.replicate entry.1 "  ") ++ entry.2.text ++ "\n")

end XmlBlockManager

/-! ## Kinds of blocks -/

/-- The enumeration `XML`. -/
inductive XML where
  | registry
  | config
  | module
  | component
  | interface
  | aliases
  | factory
  | bindings
  | bind
  | properties
  | configure
  | property
  deriving DecidableEq

namespace XML

/-- The name that `enter<t>` and `node<t>` write for a kind. -/
def nodeName : XML → String
  | registry => "xpcf-registry"
  | config => "xpcf-configuration"
  | module => "module"
  | component => "component"
  | interface => "interface"
  | aliases => "aliases"
  | factory => "factory"
  | bindings => "bindings"
  | bind => "bind"
  | properties => "properties"
  | configure => "configure"
  | property => "property"

/-- The kinds that `node<t>` has a case for; its comment leaves the others to blocks of
several lines. -/
def isNode : XML → Bool
  | module | component | interface | bind | configure | property => true
  | _ => false

/-- `enter<t>` enters these by their names alone. -/
def dropsAttributes : XML → Bool
  | aliases | factory | bindings | properties => true
  | _ => false

end XML

namespace XmlBlockManager

/-- `enter<t>(attributes)`. -/
def enterKind (m : XmlBlockManager) (t : XML) (attributes : List (String × String)) :
    XmlBlockManager :=
  if t.dropsAttributes then m.enter t.nodeName [] else m.enter t.nodeName attributes

/-- `node<t>(attributes)`. -/
def nodeKind (m : XmlBlockManager) (t : XML) (attributes : List (String × String)) :
    XmlBlockManager :=
  if t.isNode then m.node t.nodeName attributes else m

end XmlBlockManager

/-- The operations on a manager whose root is open. -/
inductive XmlOperation where
  | enter (nodeName : String) (attributes : List (String × String))
  | enterKind (t : XML) (attributes : List (String × String))
  | node (nodeName : String) (attributes : List (String × String))
  | nodeKind (t : XML) (attributes : List (String × String))
  | addValue (value : String)
  | leave
  | leaveNode (nodeName : String)
  | release

namespace XmlBlockManager

def perform (m : XmlBlockManager) : XmlOperation → XmlBlockManager
  | .enter nodeName attributes => m.enter nodeName attributes
  | .enterKind t attributes => m.enterKind t attributes
  | .node nodeName attributes => m.node nodeName attributes
  | .nodeKind t attributes => m.nodeKind t attributes
  | .addValue value => m.addValue value
  | .leave => m.leave
  | .leaveNode nodeName => m.leaveNode nodeName
  | .release => m.release

end XmlBlockManager

/-- A document: `xmlOpenRootNode` on a new manager and then the operations. -/
def writeDocument (root : String) (attributes : List (String × String))
    (operations : List XmlOperation) : XmlBlockManager :=
  operations.foldl XmlBlockManager.perform (XmlBlockManager.new.xmlOpenRootNode root attributes)

/-! ## Reading the lines back -/

/-- An element whose end has not been read yet. -/
structure OpenElement where
  name : String
  attributes : List (String × String)
  children : List XMLElement

/-- The open elements, innermost first, and the elements outside them. -/
structure ReaderState where
  opened : List OpenElement
  top : List XMLElement

namespace ReaderState

/-- Elements that end here belong to the innermost open element. -/
def add (s : ReaderState) (elts : List XMLElement) : ReaderState :=
  match s.opened with
  | [] => { s with top := s.top ++ elts }
  | e :: rest => { s with opened := { e with children := e.children ++ elts } :: rest }

/-- One line; `none` when the end of another element is expected. -/
def read (s : ReaderState) : XmlLine → Option ReaderState
  | .declaration => some s
  | .start name attributes => some { s with opened := ⟨name, attributes, []⟩ :: s.opened }
  | .node name attributes => some (s.add [.mk name attributes none []])
  | .value text => some (s.add [.mk "value" [] (some text) []])
  | .finish name =>
    match s.opened with
    | [] => none
    | e :: rest =>
      if e.name = name then
        some (add { s with opened := rest } [.mk e.name e.attributes none e.children])
      else none

def readAll : List XmlLine → ReaderState → Option ReaderState
  | [], s => some s
  | line :: rest, s => (s.read line).bind (readAll rest)

end ReaderState

/-- The root element of a document. -/
def readDocument (lines : List XmlLine) : Option XMLElement :=
  match ReaderState.readAll lines ⟨[], []⟩ with
  | some ⟨[], [rootElt]⟩ => some rootElt
  | _ => none

end Xpcf.GrpcGen
