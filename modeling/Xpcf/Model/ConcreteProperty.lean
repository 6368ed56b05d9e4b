import Xpcf.Model.Properties

/-!
# Properties that hold their items

The class `Property`: a name, an access specifier, and a deque of `utils::any`
that the nine setters write and the nine getters read.  The type of the property
is a tag of its own, beside the types of the items.

`R` stands for what an `SRef<IPropertyMap>` refers to; an empty reference is
`none`.
-/

namespace Xpcf

open CodeLib CodeLib.Exec

/-! ## Items -/

/-- The types that the nine setters take.  As an `IProperty::PropertyType`,
`IProperty_NONE` is `none`. -/
inductive ItemType where
  | value (type : ValueType)
  | struct
  deriving DecidableEq

namespace ItemType

variable (R : Type)

/-- What is stored. -/
abbrev Item : ItemType → Type
  | .value type => type.InnerType
  | .struct => Option R

/-- What the setter takes.  A pointer can be null. -/
abbrev Argument : ItemType → Type
  | .value .charStr => Option String
  | .value .unicodeStr => Option String
  | .value .integer => BitVec 32
  | .value .uinteger => BitVec 32
  | .value .long => BitVec 64
  | .value .ulong => BitVec 64
  | .value .float => BitVec 32
  | .value .double => BitVec 64
  | .struct => Option R

/-- A `const char *` or a `const wchar_t *` that a getter returned.  Nothing can be
read through a pointer into a string that was destroyed. -/
inductive CharPointer where
  | null
  | text (s : String)
  | dangling
  deriving DecidableEq

/-- What the getter returns. -/
abbrev Answer : ItemType → Type
  | .value .charStr => CharPointer
  | .value .unicodeStr => CharPointer
  | .value .integer => BitVec 32
  | .value .uinteger => BitVec 32
  | .value .long => BitVec 64
  | .value .ulong => BitVec 64
  | .value .float => BitVec 32
  | .value .double => BitVec 64
  | .struct => Option R

/-- The two types whose setters take a pointer to characters. -/
def IsText (t : ItemType) : Prop := t = .value .charStr ∨ t = .value .unicodeStr

instance : DecidablePred IsText := fun t =>
  inferInstanceAs (Decidable (t = .value .charStr ∨ t = .value .unicodeStr))

variable {R}

/-- The item that a call of the setter stands for; `none` when there is none. -/
def item? : (t : ItemType) → t.Argument R → Option (t.Item R)
  | .value .charStr, v => v
  | .value .unicodeStr, v => v
  | .value .integer, v => some v
  | .value .uinteger, v => some v
  | .value .long, v => some v
  | .value .ulong, v => some v
  | .value .float, v => some v
  | .value .double, v => some v
  | .struct, none => none
  | .struct, some r => some (some r)

/-- The getter's answer that gives the item back. -/
def answer : (t : ItemType) → t.Item R → t.Answer R
  | .value .charStr, v => .text v
  | .value .unicodeStr, v => .text v
  | .value .integer, v => v
  | .value .uinteger, v => v
  | .value .long, v => v
  | .value .ulong, v => v
  | .value .float, v => v
  | .value .double, v => v
  | .struct, v => v

end ItemType

/-- `utils::any`. -/
abbrev AnyItem (R : Type) : Type := Option (Σ t : ItemType, t.Item R)

def Exc.badAnyCast : Exc := .std .badAnyCast "bad any_cast"

/-- `utils::any_cast<T>`: a copy of the value. -/
def anyCast {R : Type} (t : ItemType) : AnyItem R → Except Exc (t.Item R)
  | some ⟨s, v⟩ => if h : s = t then .ok (h ▸ v) else .error .badAnyCast
  | none => .error .badAnyCast

/-! ## The class -/

structure ConcreteProperty (R : Type) where
  name : String
  type : Option ItemType
  queue : List (AnyItem R)
  access : AccessSpecifier

def Exc.accessDenied : Exc := .xpcf .otherException "ERROR: access denied " .errorAccessDenied

/-- What `at` of a deque throws. -/
def Exc.dequeRangeCheck : Exc := .std .outOfRange "deque::_M_range_check"

namespace ConcreteProperty

variable {R : Type}

/-- `Property::Property()`. -/
def initial : ConcreteProperty R := ⟨"none", none, [], .inOut⟩

/-- `size()`: 32 bits. -/
def size (p : ConcreteProperty R) : Nat := p.queue.length % 2 ^ 32

/-- `clear`. -/
def clear (p : ConcreteProperty R) : ConcreteProperty R :=
  if p.type = none then p else { p with queue := [], type := none }

/-- `checkType(newtype)`. -/
def checkType (newtype : Option ItemType) (p : ConcreteProperty R) : ConcreteProperty R :=
  if p.type ≠ newtype then { p.clear with type := newtype } else p

/-- `checkType<T>()`: the types that it knows. -/
def newType (t : ItemType) (type : Option ItemType) : Option ItemType :=
  match t with
  | .value .ulong => some (.value .uinteger)
  | .value .long => some (.value .integer)
  | .value .charStr => some (.value .charStr)
  | .value .float => some (.value .float)
  | .value .unicodeStr => some (.value .unicodeStr)
  | .struct => some .struct
  | _ => type

/-- `m_queue.at(itemIndex) = value`. -/
def storeAt (t : ItemType) (itemIndex : Nat) (value : t.Item R) :
    Exec (ConcreteProperty R) Exc Unit := fun p =>
  if itemIndex < p.queue.length then
    (.ok (), { p with queue := p.queue.set itemIndex (some ⟨t, value⟩) })
  else (.throws .dequeRangeCheck, p)

/-- `setValue(uint32_t, T)`. -/
def setValue (t : ItemType) (itemIndex : Nat) (value : t.Item R) :
    Exec (ConcreteProperty R) Exc Unit := do
  let access ← gets ConcreteProperty.access
  if access = .out then throw .accessDenied
  else storeAt t itemIndex value

/-- `setValue(uint32_t, const T *)`. -/
def setPointer (t : ItemType) (itemIndex : Nat) :
    Option (t.Item R) → Exec (ConcreteProperty R) Exc Unit
  | none => throw (.std .invalidArgument "Argument 'value' is null")
  | some value => do
    let access ← gets ConcreteProperty.access
    if access = .out then throw .accessDenied
    else do
      modify fun p => p.checkType (newType t p.type)
      storeAt t itemIndex value

def setIntegerValue (val : BitVec 32) (itemIndex : Nat) : Exec (ConcreteProperty R) Exc Unit :=
  setValue (.value .integer) itemIndex val

def setUnsignedIntegerValue (val : BitVec 32) (itemIndex : Nat) :
    Exec (ConcreteProperty R) Exc Unit :=
  setValue (.value .uinteger) itemIndex val

def setLongValue (val : BitVec 64) (itemIndex : Nat) : Exec (ConcreteProperty R) Exc Unit :=
  setValue (.value .long) itemIndex val

def setUnsignedLongValue (val : BitVec 64) (itemIndex : Nat) :
    Exec (ConcreteProperty R) Exc Unit :=
  setValue (.value .ulong) itemIndex val

def setFloatingValue (val : BitVec 32) (itemIndex : Nat) : Exec (ConcreteProperty R) Exc Unit :=
  setValue (.value .float) itemIndex val

def setDoubleValue (val : BitVec 64) (itemIndex : Nat) : Exec (ConcreteProperty R) Exc Unit :=
  setValue (.value .double) itemIndex val

def setStringValue (val : Option String) (itemIndex : Nat) : Exec (ConcreteProperty R) Exc Unit :=
  setPointer (.value .charStr) itemIndex val

def setUnicodeStringValue (val : Option String) (itemIndex : Nat) :
    Exec (ConcreteProperty R) Exc Unit :=
  setPointer (.value .unicodeStr) itemIndex val

def setStructureValue (val : Option R) (itemIndex : Nat) : Exec (ConcreteProperty R) Exc Unit :=
  match val with
  | none => throw (.std .invalidArgument "Argument 'val' is null")
  | some r => setValue .struct itemIndex (some r)

/-- `m_queue.at(itemIndex)`. -/
def itemAt (itemIndex : Nat) (p : ConcreteProperty R) : Except Exc (AnyItem R) :=
  match p.queue[itemIndex]? with
  | some item => .ok item
  | none => .error .dequeRangeCheck

/-- `T getValue(uint32_t, valueType)`. -/
def getValue (t valueType : ItemType) (zero : t.Item R) (itemIndex : Nat)
    (p : ConcreteProperty R) : Except Exc (t.Item R) :=
  if p.type ≠ some valueType ∨ itemIndex > p.queue.length ∨ p.access = .in then .ok zero
  else do
    let item ← p.itemAt itemIndex
    anyCast t item

/-- `const T * getValue(uint32_t, valueType)`.  `any_cast<U>` returns a string of its
own, which is destroyed with the `return` statement that takes its `c_str()`. -/
def getPointer (t valueType : ItemType) (itemIndex : Nat) (p : ConcreteProperty R) :
    Except Exc ItemType.CharPointer :=
  if p.type ≠ some valueType ∨ p.access = .in then .ok .null
  else do
    let item ← p.itemAt itemIndex
    let _copy ← anyCast t item
    .ok .dangling

def getIntegerValue : Nat → ConcreteProperty R → Except Exc (BitVec 32) :=
  getValue (.value .integer) (.value .integer) 0#32

def getUnsignedIntegerValue : Nat → ConcreteProperty R → Except Exc (BitVec 32) :=
  getValue (.value .uinteger) (.value .uinteger) 0#32

def getLongValue : Nat → ConcreteProperty R → Except Exc (BitVec 64) :=
  getValue (.value .long) (.value .integer) 0#64

def getUnsignedLongValue : Nat → ConcreteProperty R → Except Exc (BitVec 64) :=
  getValue (.value .ulong) (.value .uinteger) 0#64

def getStringValue : Nat → ConcreteProperty R → Except Exc ItemType.CharPointer :=
  getPointer (.value .charStr) (.value .charStr)

def getUnicodeStringValue : Nat → ConcreteProperty R → Except Exc ItemType.CharPointer :=
  getPointer (.value .unicodeStr) (.value .unicodeStr)

def getFloatingValue : Nat → ConcreteProperty R → Except Exc (BitVec 32) :=
  getValue (.value .float) (.value .float) 0#32

def getDoubleValue : Nat → ConcreteProperty R → Except Exc (BitVec 64) :=
  getValue (.value .double) (.value .float) 0#64

/-- `getStructureValue`: it does not look at the access specifier. -/
def getStructureValue (itemIndex : Nat) (p : ConcreteProperty R) : Except Exc (Option R) :=
  if p.type ≠ some .struct then .ok none
  else do
    let item ← p.itemAt itemIndex
    anyCast .struct item

/-- The setter of each type. -/
def set : (t : ItemType) → t.Argument R → Nat → Exec (ConcreteProperty R) Exc Unit
  | .value .integer => setIntegerValue
  | .value .uinteger => setUnsignedIntegerValue
  | .value .long => setLongValue
  | .value .ulong => setUnsignedLongValue
  | .value .charStr => setStringValue
  | .value .unicodeStr => setUnicodeStringValue
  | .value .float => setFloatingValue
  | .value .double => setDoubleValue
  | .struct => setStructureValue

/-- The getter of each type. -/
def get : (t : ItemType) → Nat → ConcreteProperty R → Except Exc (t.Answer R)
  | .value .integer => getIntegerValue
  | .value .uinteger => getUnsignedIntegerValue
  | .value .long => getLongValue
  | .value .ulong => getUnsignedLongValue
  | .value .charStr => getStringValue
  | .value .unicodeStr => getUnicodeStringValue
  | .value .float => getFloatingValue
  | .value .double => getDoubleValue
  | .struct => getStructureValue

/-- `std::deque::resize`. -/
def resizeQueue (n : Nat) (queue : List (AnyItem R)) : List (AnyItem R) :=
  queue.take n ++ List.replicate (n - queue.length) none

/-- `setProperties`. -/
def setProperties (name : Option String) (numberOfValues : Nat) (iotype : AccessSpecifier) :
    Exec (ConcreteProperty R) Exc XPCFErrorCode :=
  match name with
  | none => pure .fail
  | some name =>
    if name = "" then pure .fail
    else do
      modify fun p =>
        let cleared := p.clear
        { cleared with
          name := name
          queue := resizeQueue numberOfValues cleared.queue
          access := iotype }
      pure .success

/-- `setName`. -/
def setName (name : Option String) : Exec (ConcreteProperty R) Exc Unit :=
  match name with
  | none => throw (.std .invalidArgument "Argument 'name' is null")
  | some name => modify fun p => { p with name := name }

def setAccessSpecifier (iotype : AccessSpecifier) : Exec (ConcreteProperty R) Exc Unit :=
  modify fun p => { p with access := iotype }

/-- A call of one of the functions that change a property. -/
inductive Operation (R : Type) where
  | set (t : ItemType) (value : t.Argument R) (itemIndex : Nat)
  | setProperties (name : Option String) (numberOfValues : Fin (2 ^ 32))
      (iotype : AccessSpecifier)
  | setName (name : Option String)
  | setAccessSpecifier (iotype : AccessSpecifier)

/-- The property after the call, whether it returns or throws. -/
def Operation.run (operation : Operation R) (p : ConcreteProperty R) : ConcreteProperty R :=
  match operation with
  | .set t value itemIndex => (ConcreteProperty.set t value itemIndex p).2
  | .setProperties name numberOfValues iotype =>
    (ConcreteProperty.setProperties name numberOfValues iotype p).2
  | .setName name => (ConcreteProperty.setName name p).2
  | .setAccessSpecifier iotype => (ConcreteProperty.setAccessSpecifier iotype p).2

/-- A property after any calls. -/
def Reachable (p : ConcreteProperty R) : Prop :=
  ∃ operations : List (Operation R),
    p = operations.foldl (fun p operation => operation.run p) initial

end ConcreteProperty

end Xpcf
