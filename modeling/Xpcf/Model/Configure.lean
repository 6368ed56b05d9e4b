import Xpcf.CodeLib.Numerals
import Xpcf.Model.AliasManager
import Xpcf.Model.Properties

/-!
# Configuring a component from XML

`PropertyManager::configure` and the functions under it: they look up the nodes
of a component in the tree of its configuration file, and write the values that
the nodes give into the properties of the component.
-/

namespace Xpcf

open CodeLib CodeLib.Exec

/-! ## Texts of values -/

/-- What a `std::sto*` function answers: the value and the number of characters
processed, or one of its two exceptions. -/
inductive Conversion (α : Type) where
  | invalidArgument
  | outOfRange
  | read (value : α) (processed : Nat)
  deriving DecidableEq

def Conversion.map {α β : Type} (f : α → β) : Conversion α → Conversion β
  | .invalidArgument => .invalidArgument
  | .outOfRange => .outOfRange
  | .read v processed => .read (f v) processed

/-- `std::stol(text, &processed, 0)` and `std::stoll`: `long` has 64 bits. -/
def stol (text : String) : Conversion Int :=
  match readNumeral text.toList with
  | none => .invalidArgument
  | some n =>
    if -2 ^ 63 ≤ n.value ∧ n.value < 2 ^ 63 then .read n.value n.length else .outOfRange

/-- `std::stoul(text, &processed, 0)` and `std::stoull`: a magnitude of 64 bits,
negated modulo `2^64` after a minus sign. -/
def stoul (text : String) : Conversion Int :=
  match readNumeral text.toList with
  | none => .invalidArgument
  | some n => if n.magnitude < 2 ^ 64 then .read (n.value % 2 ^ 64) n.length else .outOfRange

/-- The floating point conversions of the standard library. -/
structure FloatText where
  stof : String → Conversion (BitVec 32)
  stod : String → Conversion (BitVec 64)
  floatToString : BitVec 32 → String
  doubleToString : BitVec 64 → String

/-! ## One value -/

def Exc.isInvalidArgument : Exc → Bool
  | .std .invalidArgument _ => true
  | _ => false

/-- Convert, then set: the number of characters processed. -/
def setConverted {α : Type} (conversion : Conversion α) (valueIndex : Nat) :
    Exec (Wrapped α) Exc Nat :=
  match conversion with
  | .invalidArgument => throw (.std .invalidArgument "stol")
  | .outOfRange => throw (.std .outOfRange "stol")
  | .read v processed => do
    setValue valueIndex v
    pure processed

/-- The switch of `configureValue`.  A string does not count what it processed,
and there is no conversion for a unicode string. -/
def setText (floats : FloatText) (valueStr : String) (valueIndex : Nat) :
    (type : ValueType) → Exec (Wrapped type.InnerType) Exc Nat
  | .integer => setConverted ((stol valueStr).map (BitVec.ofInt 32)) valueIndex
  | .uinteger => setConverted ((stoul valueStr).map (BitVec.ofInt 32)) valueIndex
  | .long => setConverted ((stol valueStr).map (BitVec.ofInt 64)) valueIndex
  | .ulong => setConverted ((stoul valueStr).map (BitVec.ofInt 64)) valueIndex
  | .float => setConverted (floats.stof valueStr) valueIndex
  | .double => setConverted (floats.stod valueStr) valueIndex
  | .charStr => do
    setStringValue valueIndex (cString valueStr)
    pure 0
  | .unicodeStr => pure 0

def unexpectedValueType (valueStr : String) (type : ValueType) : Exc :=
  .configuration ("Unexpected value type for \"" ++ valueStr ++ "\", \"" ++ type.toStr ++
    "\" expected")

def configureValue (floats : FloatText) (valueStr : String) (valueIndex : Nat) :
    Exec Property Exc XPCFErrorCode :=
  if valueStr.isEmpty then throw (.configuration "No value defined")
  else
    onValues (fun type =>
      Exec.tryCatch
        (do
          let processedValue ← setText floats valueStr valueIndex type
          if valueStr.length ≠ processedValue ∧ type ≠ .charStr then
            throw (unexpectedValueType valueStr type)
          else pure .success)
        fun e =>
          if e.isInvalidArgument then throw (unexpectedValueType valueStr type) else throw e)
      .errorType

/-- `GetText()`, made a string. -/
def XMLElement.textString : XMLElement → Except Exc String
  | .mk _ _ (some text) _ => .ok text
  | .mk _ _ none _ => .error .logicError

/-- The loop over the `<value>` nodes of a property.  The index has 32 bits. -/
def configureValues (floats : FloatText) :
    List XMLElement → Nat → Exec Property Exc XPCFErrorCode
  | [], _ => pure .success
  | valueElt :: valueElts, index => do
    let propertyValue ← ofExcept valueElt.textString
    let result ← configureValue floats propertyValue index
    if result = .success then configureValues floats valueElts ((index + 1) % 2 ^ 32)
    else pure result

/-! ## Properties and structures -/

/-- `configureProperty` once the property is found.  `nested` is the loop over
the child elements called `property`. -/
def configureFoundProperty (floats : FloatText) (propertyElt : XMLElement)
    (nested : Exec (List Property) Exc XPCFErrorCode) : Exec Property Exc XPCFErrorCode := do
  let propertyType ← ofExcept (propertyElt.attributeString "type")
  if propertyType.isEmpty then
    throw (.configuration ("Unknown type \"" ++ propertyType ++ "\""))
  else if propertyType = "structure" then
    onStructureValue (onProperties nested .errorNullPointer)
      (.configuration "\"structure\" expected.")
  else
    match propertyElt.attr "value" with
    | some propertyValue => configureValue floats propertyValue 0
    | none => configureValues floats (propertyElt.childElements "value") 0

mutual

/-- `configureProperty`. -/
def configureProperty (floats : FloatText) : XMLElement → Exec (List Property) Exc XPCFErrorCode
  | .mk tag attributes text children =>
    let propertyElt := XMLElement.mk tag attributes text children
    let propertyName := propertyElt.attributeOrEmpty "name"
    let msg := fun what =>
      XmlErrorMessage.addAttribute ⟨"property", what, false, []⟩ "name" propertyName
    if propertyName.isEmpty then pure .errorInvalidArgument
    else
      rethrowXpcf msg (onProperty propertyName
        (configureFoundProperty floats propertyElt (configureChildren floats children))
        (.configuration ("Property unknown: " ++ propertyName)))

/-- The loop of `configureElement` over the child elements called `property`. -/
def configureChildren (floats : FloatText) :
    List XMLElement → Exec (List Property) Exc XPCFErrorCode
  | [] => pure .success
  | propertyElt :: siblings =>
    if propertyElt.value = "property" then do
      let result ← configureProperty floats propertyElt
      if result = .success then configureChildren floats siblings else pure result
    else configureChildren floats siblings

end

def configureElement (floats : FloatText) (element : XMLElement) :
    Exec PropertyMap Exc XPCFErrorCode :=
  onProperties (configureChildren floats element.children) .errorNullPointer

/-! ## The nodes of a component -/

/-- `while (elt != nullptr && result == XPCFErrorCode::_SUCCESS)`. -/
def whileSuccess {σ : Type} (f : XMLElement → Exec σ Exc XPCFErrorCode) :
    List XMLElement → Exec σ Exc XPCFErrorCode
  | [] => pure .success
  | elt :: elts => do
    let result ← f elt
    if result = .success then whileSuccess f elts else pure result

section Nodes

variable (env : Env) (floats : FloatText) (xmlNodePredicate : XMLElement → Bool)
  (componentUUID : Uuid)

/-- One `<component>` node of `<configuration>`.  The handler of a malformed
UUID reads the attribute `name`, whether the node has one or not. -/
def configureComponentNode (elt : XMLElement) : Exec PropertyMap Exc XPCFErrorCode :=
  Exec.tryCatch
    (do
      let uuidText ← ofExcept (elt.attributeString "uuid")
      if xmlNodePredicate elt then
        let uuid ← ofExcept (toUUID env uuidText)
        if uuid = componentUUID then configureElement floats elt else pure .success
      else pure .success)
    fun e =>
      if e.isXpcf then
        let msg : XmlErrorMessage := ⟨"component", e.what, true, []⟩
        let addIfPresent := fun (msg : XmlErrorMessage) (name : String) =>
          match elt.attr name with
          | some value => msg.addAttribute name value
          | none => msg
        throw (.configuration (addIfPresent (addIfPresent msg "uuid") "name").write)
      else if e.isRuntimeError then
        match elt.attr "name" with
        | some name =>
          let what := "UUID format invalid in \"uuid\": " ++ elt.attributeOrEmpty "uuid"
          throw (.configuration
            (XmlErrorMessage.addAttribute ⟨"component", what, false, []⟩ "name" name).write)
        | none => throw .logicError
      else throw e

variable (aliases : AliasContext)

/-- One `<configure>` node of `<properties>`. -/
def configureConfigureNode (elt : XMLElement) : Exec PropertyMap Exc XPCFErrorCode :=
  Exec.tryCatch
    (do
      let componentAttrValue ← ofExcept (elt.attributeString "component")
      let uuid ← ofExcept (uuidOrAlias env aliases .component componentAttrValue
        invalidUuid)
      if xmlNodePredicate elt ∧ uuid = componentUUID then configureElement floats elt
      else pure .success)
    fun e =>
      let componentAttrValue := elt.attributeOrEmpty "component"
      if e.isXpcf then
        throw (.configuration (XmlErrorMessage.addAttribute ⟨"configure", e.what, true, []⟩
          "component" componentAttrValue).write)
      else if e.isRuntimeError then
        let what := "UUID format invalid in \"component\":" ++ componentAttrValue
        throw (.configuration (XmlErrorMessage.write ⟨"configure", what, false, []⟩))
      else throw e

/-- The `catch (const std::runtime_error & e)` clause around `<properties>`. -/
def rethrowRuntimeError {σ α : Type} (msg : String → XmlErrorMessage) (m : Exec σ Exc α) :
    Exec σ Exc α :=
  Exec.tryCatch m fun e =>
    if e.isRuntimeError then throw (.configuration (msg e.what).write) else throw e

/-- The part of `PropertyManager::configure` that reads `<configuration>`.  Of
several such nodes it reads the first. -/
def configureFromConfiguration (rootElt : XMLElement) : Exec PropertyMap Exc XPCFErrorCode :=
  match (rootElt.childElements "configuration").head? with
  | none => pure .success
  | some xmlConfigElt =>
    rethrowXpcf (fun what => ⟨"configuration", what, true, []⟩)
      (whileSuccess (configureComponentNode env floats xmlNodePredicate componentUUID)
        (xmlConfigElt.childElements "component"))

/-- The part that reads `<properties>`: the first such node again. -/
def configureFromProperties (rootElt : XMLElement) : Exec PropertyMap Exc XPCFErrorCode :=
  match (rootElt.childElements "properties").head? with
  | none => pure .success
  | some xmlPropsElt =>
    rethrowRuntimeError (fun what => ⟨"properties", what, true, []⟩)
      (whileSuccess (configureConfigureNode env floats xmlNodePredicate componentUUID aliases)
        (xmlPropsElt.childElements "configure"))

/-- `PropertyManager::configure` on the tree of the file; `none` when it cannot
be loaded. -/
def configure (document : Option XMLElement) : Exec PropertyMap Exc XPCFErrorCode :=
  match document with
  | none => pure .success
  | some rootElt => do
    let result ← configureFromConfiguration env floats xmlNodePredicate componentUUID rootElt
    if result = .success then
      configureFromProperties env floats xmlNodePredicate componentUUID aliases rootElt
    else pure result

end Nodes

/-- The predicate of `configure(componentUUID, …)`. -/
def unnamedPredicate (elt : XMLElement) : Bool :=
  (elt.attr "name").isNone

/-- The predicate of `configure(instanceName, componentUUID, …)`. -/
def namedPredicate (instanceName : String) (elt : XMLElement) : Bool :=
  elt.attr "name" = some instanceName

end Xpcf
