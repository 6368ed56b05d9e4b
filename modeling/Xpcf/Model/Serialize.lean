import Xpcf.Model.Configure

/-!
# Saving the values of a component

`PropertyManager::serialize`: a new `<properties>` node at the end of the file.
A file is the tree that its parser makes of it, and saving is taken to succeed.
-/

namespace Xpcf

open CodeLib

/-- The text of a value, of the switch in `serializeParameter`. -/
def valueText (floats : FloatText) : (type : ValueType) → type.InnerType → String
  | .integer, v => toString v.toInt
  | .uinteger, v => toString v.toNat
  | .long, v => toString v.toInt
  | .ulong, v => toString v.toNat
  | .charStr, v => cString v
  | .unicodeStr, _ => ""
  | .float, v => floats.floatToString v
  | .double, v => floats.doubleToString v

def propertyAttributes (name : String) (access : AccessSpecifier) (type : String) :
    List (String × String) :=
  [("name", name), ("access", access.toStr), ("type", type)]

mutual

/-- `serializeParameter`: the element that is added to the parent node.  One
value is an attribute, more are child elements; the properties of all the
structures of a sequence are children of the one element. -/
def serializeParameter (floats : FloatText) : Property → XMLElement
  | .value name access type wrapped =>
    let attributes := propertyAttributes name access type.toStr
    match wrapped.items.map (valueText floats type) with
    | [value] => .mk "property" (attributes ++ [("value", value)]) none []
    | values =>
      .mk "property" attributes none (values.map fun value => .mk "value" [] (some value) [])
  | .struct name access map =>
    .mk "property" (propertyAttributes name access "structure") none (serializeMap floats map)
  | .structs name access maps =>
    let elements := (serializeMaps floats maps).take (maps.length % 2 ^ 32)
    .mk "property" (propertyAttributes name access "structure") none elements.flatten

/-- The elements for the properties of a map.  The source does not test for a
null map. -/
def serializeMap (floats : FloatText) : PropertyMap → List XMLElement
  | .null => []
  | .mk properties => serializeProperties floats properties

def serializeProperties (floats : FloatText) : List Property → List XMLElement
  | [] => []
  | p :: ps => serializeParameter floats p :: serializeProperties floats ps

def serializeMaps (floats : FloatText) : List PropertyMap → List (List XMLElement)
  | [] => []
  | map :: maps => serializeMap floats map :: serializeMaps floats maps

end

/-- `InsertEndChild`. -/
def XMLElement.insertEndChild : XMLElement → XMLElement → XMLElement
  | .mk tag attributes text children, child => .mk tag attributes text (children ++ [child])

/-- The `<properties>` node that one call makes. -/
def serializedProperties (floats : FloatText) (componentUUID : Uuid) (root : PropertyMap) :
    XMLElement :=
  .mk "properties" [] none
    [.mk "configure" [("component", componentUUID.toString)] none (serializeMap floats root)]

/-- `PropertyManager::serialize` on what the file holds; `none` when it cannot
be loaded. -/
def serialize (floats : FloatText) (componentUUID : Uuid) (root : PropertyMap)
    (file : Option XMLElement) : XMLElement :=
  let xmlRoot := file.getD (.mk "xpcf-configuration" [] none [])
  xmlRoot.insertEndChild (serializedProperties floats componentUUID root)

end Xpcf
