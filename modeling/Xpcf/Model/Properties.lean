import Mathlib.Data.List.TakeWhile
import Xpcf.Core.Xml

/-!
# Properties

What `declareProperty` and `declarePropertySequence` make of the members of a
component: a `PropertyWrapper` around a single value, a
`PropertySequenceWrapper` around a vector or a deque, and `PropertyMap` for a
structure.  A wrapper refers to the member itself, so a tree of properties is
the values of the component.

The functions are computations over the property (or the map) that they work on.
-/

namespace Xpcf

open CodeLib CodeLib.Exec

/-! ## The tree -/

/-- The `IProperty::PropertyType` of the wrappers that hold no structure. -/
inductive ValueType where
  | integer
  | uinteger
  | long
  | ulong
  | charStr
  | unicodeStr
  | float
  | double
  deriving DecidableEq

/-- `propertyTypeToStrMap`. -/
def ValueType.toStr : ValueType → String
  | .integer => "int"
  | .uinteger => "uint"
  | .long => "long"
  | .ulong => "ulong"
  | .charStr => "string"
  | .unicodeStr => "wstring"
  | .float => "float"
  | .double => "double"

/-- `deduce_from<ExternType>::InnerType`: the type of the member.  Floating
point numbers are their bits. -/
abbrev ValueType.InnerType : ValueType → Type
  | .integer => BitVec 32
  | .uinteger => BitVec 32
  | .long => BitVec 64
  | .ulong => BitVec 64
  | .charStr => String
  | .unicodeStr => String
  | .float => BitVec 32
  | .double => BitVec 64

inductive AccessSpecifier where
  | «in»
  | out
  | inOut
  deriving DecidableEq

/-- `propertyAccessToStrMap`. -/
def AccessSpecifier.toStr : AccessSpecifier → String
  | .in => "w"
  | .out => "r"
  | .inOut => "rw"

/-- `m_wrappedValue` of the two wrappers. -/
inductive Wrapped (α : Type) where
  | single (value : α)
  | sequence (values : List α)
  deriving DecidableEq

mutual

/-- A property.  Names are C strings. -/
inductive Property where
  | value (name : String) (access : AccessSpecifier) (type : ValueType)
      (wrapped : Wrapped type.InnerType)
  | struct (name : String) (access : AccessSpecifier) (map : PropertyMap)
  | structs (name : String) (access : AccessSpecifier) (maps : List PropertyMap)

/-- An `SRef<IPropertyMap>`.  The properties stand in the order in which they
were added. -/
inductive PropertyMap where
  | null
  | mk (properties : List Property)

end

def Property.name : Property → String
  | .value name _ _ _ => name
  | .struct name _ _ => name
  | .structs name _ _ => name

/-- `getProperties()`.  A null map has none to enumerate. -/
def PropertyMap.properties : PropertyMap → List Property
  | .null => []
  | .mk properties => properties

@[simp] theorem PropertyMap.properties_null : PropertyMap.null.properties = [] := rfl

@[simp] theorem PropertyMap.properties_mk (ps : List Property) :
    (PropertyMap.mk ps).properties = ps := rfl

/-! ## The wrappers -/

/-- What the setter of a single value throws for an index above zero. -/
def Exc.itemIndex : Exc := .std .outOfRange "itemIndex is greater than container size"

/-- What `at` of a sequence throws. -/
def Exc.rangeCheck : Exc := .std .outOfRange "vector::_M_range_check"

/-- `getXValue(i)` for every `i` below `size()`.  `size()` is 32 bits wide, so a
longer sequence shows only the elements below its length modulo `2^32`. -/
def Wrapped.items {α : Type} : Wrapped α → List α
  | .single v => [v]
  | .sequence vs => vs.take (vs.length % 2 ^ 32)

/-- `setValue`. -/
def setValue {α : Type} (itemIndex : Nat) (v : α) : Exec (Wrapped α) Exc Unit
  | .single w =>
    if 1 ≤ itemIndex then (.throws .itemIndex, .single w) else (.ok (), .single v)
  | .sequence vs =>
    if itemIndex < vs.length then (.ok (), .sequence (vs.set itemIndex v))
    else (.throws .rangeCheck, .sequence vs)

/-- `s.c_str()`, read back as a string: it ends at the first null character. -/
def cString (s : String) : String :=
  String.ofList (s.toList.takeWhile fun c => c ≠ '\x00')

/-- `setStringValue`: the wrapper of a single string does not look at the index. -/
def setStringValue (itemIndex : Nat) (v : String) : Exec (Wrapped String) Exc Unit
  | .single _ => (.ok (), .single v)
  | .sequence vs => setValue itemIndex v (.sequence vs)

theorem cString_cString (s : String) : cString (cString s) = cString s := by
  unfold cString
  rw [String.toList_ofList, List.takeWhile_idem]

/-! ## Items by their index -/

namespace Wrapped

variable {α : Type}

def length : Wrapped α → Nat
  | .single _ => 1
  | .sequence vs => vs.length

/-- The item is replaced. -/
def put (index : Nat) (v : α) : Wrapped α → Wrapped α
  | .single _ => .single v
  | .sequence vs => .sequence (vs.set index v)

/-- The items from `index` on are replaced. -/
def putAll : Nat → List α → Wrapped α → Wrapped α
  | _, [], w => w
  | index, v :: vs, w => putAll (index + 1) vs (w.put index v)

/-- The item at an index. -/
def item? (index : Nat) : Wrapped α → Option α
  | .single v => if index = 0 then some v else none
  | .sequence vs => vs[index]?

@[simp] theorem length_put (index : Nat) (v : α) (w : Wrapped α) :
    (w.put index v).length = w.length := by
  cases w with
  | single => rfl
  | sequence vs => exact List.length_set

theorem setValue_inside {index : Nat} {w : Wrapped α} (h : index < w.length) (v : α) :
    setValue index v w = (.ok (), w.put index v) := by
  cases w with
  | single w =>
    have hzero : index < 1 := h
    exact if_neg (by omega)
  | sequence ws => exact if_pos h

theorem putAll_sequence {vs before after : List α} (h : vs.length ≤ after.length) :
    putAll before.length vs (.sequence (before ++ after)) =
      .sequence (before ++ vs ++ after.drop vs.length) := by
  induction vs generalizing before after with
  | nil => simp [putAll]
  | cons v vs ih =>
    cases after with
    | nil => simp at h
    | cons w after =>
      have hrest : vs.length ≤ after.length := by simpa using h
      have hset : (before ++ w :: after).set before.length v = (before ++ [v]) ++ after := by
        simp
      have hstep := @ih (before ++ [v]) after hrest
      rw [List.length_append, List.length_singleton] at hstep
      rw [putAll, put, hset, hstep]
      simp

@[simp] theorem length_putAll (index : Nat) (vs : List α) (w : Wrapped α) :
    (w.putAll index vs).length = w.length := by
  induction vs generalizing index w with
  | nil => rfl
  | cons v vs ih =>
    rw [putAll, ih]
    exact length_put index v w

theorem putAll_concat (index : Nat) (vs : List α) (v : α) (w : Wrapped α) :
    w.putAll index (vs ++ [v]) = (w.putAll index vs).put (index + vs.length) v := by
  induction vs generalizing index w with
  | nil => rfl
  | cons u vs ih =>
    rw [List.cons_append, putAll, ih, putAll, List.length_cons]
    congr 1
    omega

theorem item?_of_lt {index : Nat} {w : Wrapped α} (h : index < w.length) :
    ∃ v, w.item? index = some v := by
  cases w with
  | single w =>
    have hzero : index < 1 := h
    exact ⟨w, if_pos (by omega)⟩
  | sequence ws => exact ⟨ws[index], List.getElem?_eq_getElem h⟩

theorem item?_put {index : Nat} {w : Wrapped α} (v : α) (h : index < w.length) :
    (w.put index v).item? index = some v := by
  cases w with
  | single w =>
    have hzero : index < 1 := h
    exact if_pos (by omega)
  | sequence ws => exact List.getElem?_set_self h

theorem put_eq_self_iff {index : Nat} {w : Wrapped α} {v : α} (h : index < w.length) :
    w.put index v = w ↔ w.item? index = some v := by
  constructor
  · intro heq
    rw [← heq]
    exact item?_put v h
  · intro hitem
    cases w with
    | single w =>
      have hzero : index < 1 := h
      rw [item?, if_pos (by omega)] at hitem
      rw [put, Option.some.inj hitem]
    | sequence ws =>
      obtain ⟨hindex, hv⟩ := List.getElem?_eq_some_iff.mp hitem
      rw [put, ← hv, List.set_getElem_self]

end Wrapped

theorem setStringValue_inside {index : Nat} {w : Wrapped String} (h : index < w.length)
    (v : String) : setStringValue index v w = (.ok (), w.put index v) := by
  cases w with
  | single w => rfl
  | sequence ws => exact Wrapped.setValue_inside h v

/-! ## Parts of the tree -/

/-- Work on the values of a property that holds no structure. -/
def onValues {β : Type} (m : (type : ValueType) → Exec (Wrapped type.InnerType) Exc β)
    (otherwise : β) : Exec Property Exc β
  | .value name access type wrapped =>
    let result := m type wrapped
    (result.1, .value name access type result.2)
  | p => (.ok otherwise, p)

/-- Work on the map that `getStructureValue()` returns: the wrapper of a
sequence asks for its first element. -/
def onStructureValue {β : Type} (m : Exec PropertyMap Exc β) (noStructure : Exc) :
    Exec Property Exc β
  | .struct name access map =>
    let result := m map
    (result.1, .struct name access result.2)
  | .structs name access (map :: maps) =>
    let result := m map
    (result.1, .structs name access (result.2 :: maps))
  | .structs name access [] => (.throws .rangeCheck, .structs name access [])
  | p => (.throws noStructure, p)

/-- Work on the properties of a map. -/
def onProperties {β : Type} (m : Exec (List Property) Exc β) (null : β) : Exec PropertyMap Exc β
  | .null => (.ok null, .null)
  | .mk properties =>
    let result := m properties
    (result.1, .mk result.2)

/-- `PropertyMap::at`: work on the property of that name. -/
def onProperty {β : Type} (name : String) (m : Exec Property Exc β) (unknown : Exc) :
    Exec (List Property) Exc β
  | [] => (.throws unknown, [])
  | p :: ps =>
    if p.name = name then
      let result := m p
      (result.1, result.2 :: ps)
    else
      let result := onProperty name m unknown ps
      (result.1, p :: result.2)

end Xpcf
