import Xpcf.CodeLib.Exec
import Xpcf.Core.Exceptions

/-!
# XML elements

`XMLElement` is what the framework sees of a `tinyxml2::XMLElement`: its tag,
its attributes, its text and its child elements.  The parser itself is taken as
correct, so a document is its root element.
-/

namespace Xpcf

open CodeLib

inductive XMLElement where
  | mk (value : String) (attributes : List (String × String)) (text : Option String)
      (children : List XMLElement)

namespace XMLElement

/-- `Value()`: the tag. -/
def value : XMLElement → String
  | .mk value _ _ _ => value

def attributes : XMLElement → List (String × String)
  | .mk _ attributes _ _ => attributes

def children : XMLElement → List XMLElement
  | .mk _ _ _ children => children

/-- `Attribute(name)`: `none` stands for the null pointer. -/
def attr (elt : XMLElement) (name : String) : Option String :=
  (elt.attributes.find? fun entry => entry.1 = name).map Prod.snd

/-- `std::string s = elt->Attribute(name);`: a missing attribute is a null
pointer, and the string constructor throws. -/
def attributeString (elt : XMLElement) (name : String) : Except Exc String :=
  match elt.attr name with
  | some text => .ok text
  | none => .error .logicError

theorem attributeString_ok_iff {elt : XMLElement} {name text : String} :
    elt.attributeString name = .ok text ↔ elt.attr name = some text := by
  unfold attributeString
  cases elt.attr name with
  | none => simp
  | some value => simp

theorem attributeString_of_none {elt : XMLElement} {name : String} (h : elt.attr name = none) :
    elt.attributeString name = .error .logicError := by
  unfold attributeString
  rw [h]

/-- An attribute that defaults to the empty string. -/
def attributeOrEmpty (elt : XMLElement) (name : String) : String :=
  (elt.attr name).getD ""

theorem attributeOrEmpty_of_some {elt : XMLElement} {name text : String}
    (h : elt.attr name = some text) : elt.attributeOrEmpty name = text := by
  unfold attributeOrEmpty
  rw [h]
  rfl

/-- `FirstChildElement(name)` and the `NextSiblingElement(name)` after it. -/
def childElements (elt : XMLElement) (name : String) : List XMLElement :=
  elt.children.filter fun child => child.value = name

end XMLElement

variable {σ α : Type}

/-- `processXmlNode`: run `func` on every child element called `nodeName`. -/
def processXmlNode (elt : XMLElement) (nodeName : String) (func : XMLElement → Exec σ Exc Unit) :
    Exec σ Exc Unit :=
  Exec.forEach func (elt.childElements nodeName)

/-- The `catch (const xpcf::Exception & e)` clause around every XML reader: the
error is rethrown inside the message of the enclosing tag.  Other exceptions
pass through. -/
def rethrowXpcf (msg : String → XmlErrorMessage) (m : Exec σ Exc α) : Exec σ Exc α :=
  Exec.tryCatch m fun e =>
    if e.isXpcf then Exec.throw (Exc.configuration (msg e.what).write) else Exec.throw e

/-- The clause never turns a failure into a success. -/
theorem rethrowXpcf_ok_iff {msg : String → XmlErrorMessage} {m : Exec σ Exc α} {s s1 : σ} {a : α} :
    rethrowXpcf msg m s = (.ok a, s1) ↔ m s = (.ok a, s1) := by
  refine Exec.tryCatch_ok_iff ?_
  intro e s2 s3 h
  split at h
  · cases h
  · cases h

theorem keeps_rethrowXpcf {F : Exec.Frame σ} {msg : String → XmlErrorMessage} {m : Exec σ Exc α}
    (hm : Exec.Keeps F m) : Exec.Keeps F (rethrowXpcf msg m) := by
  refine Exec.Keeps.tryCatch hm fun e => ?_
  split
  · exact Exec.Keeps.throw _
  · exact Exec.Keeps.throw _

theorem returns_rethrowXpcf {P : σ → Prop} {Q : α → σ → Prop} {msg : String → XmlErrorMessage}
    {m : Exec σ Exc α} (hm : Exec.Returns P m Q) : Exec.Returns P (rethrowXpcf msg m) Q :=
  fun s hs a s1 h => hm s hs a s1 (rethrowXpcf_ok_iff.mp h)

theorem keeps_processXmlNode {F : Exec.Frame σ} {elt : XMLElement} {nodeName : String}
    {func : XMLElement → Exec σ Exc Unit} (hf : ∀ child, Exec.Keeps F (func child)) :
    Exec.Keeps F (processXmlNode elt nodeName func) :=
  Exec.Keeps.forEach fun child _ => hf child

end Xpcf
