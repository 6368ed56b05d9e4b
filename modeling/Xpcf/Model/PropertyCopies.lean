import Xpcf.CodeLib.Table
import Xpcf.Model.ConcreteProperty

/-!
# Copies of properties

`copyTo` of the three classes of properties, and `PropertyMap::setProperty`, which
copies its argument into the property of the same name.  The properties of a map
are wrappers: `PropertyWrapper` around a single value, `PropertySequenceWrapper`
around a vector or a deque.  The argument is another property than the one in the
map, of any of the three classes.

A structure is copied by its reference, so it is an `Option R` here.
-/

namespace Xpcf

open CodeLib CodeLib.Exec

/-! ## Wrappers -/

/-- `PropertyWrapper` and `PropertySequenceWrapper`. -/
structure WrapperProperty (R : Type) where
  name : String
  type : ItemType
  wrapped : Wrapped (type.Item R)
  access : AccessSpecifier

namespace ItemType

variable {R : Type}

/-- What is seen of an item through a getter: a text ends at its first null
character. -/
def cStr : (t : ItemType) → t.Item R → t.Item R
  | .value .charStr, v => cString v
  | .value .unicodeStr, v => cString v
  | _, v => v

/-- The new elements of a sequence that `resize` makes longer. -/
def default : (t : ItemType) → t.Item R
  | .value .charStr => ""
  | .value .unicodeStr => ""
  | .value .integer => 0#32
  | .value .uinteger => 0#32
  | .value .long => 0#64
  | .value .ulong => 0#64
  | .value .float => 0#32
  | .value .double => 0#64
  | .struct => none

end ItemType

namespace Wrapped

variable {R α : Type}

/-- `getValue`. -/
def getValue (itemIndex : Nat) : Wrapped α → Except Exc α
  | .single v => if 1 ≤ itemIndex then .error .itemIndex else .ok v
  | .sequence vs =>
    match vs[itemIndex]? with
    | some v => .ok v
    | none => .error .rangeCheck

/-- The getter of the wrapper's own type.  That of a single structure does not look at
the index. -/
def getItem : (t : ItemType) → Nat → Wrapped (t.Item R) → Except Exc (t.Item R)
  | .struct, _, .single v => .ok v
  | t, i, wrapped => (wrapped.getValue i).map t.cStr

/-- The setter of the wrapper's own type. -/
def setItemAt : (t : ItemType) → Nat → t.Item R → Exec (Wrapped (t.Item R)) Exc Unit
  | .value .charStr, i, v => setStringValue i v
  | .value .unicodeStr, i, v => setStringValue i v
  | .value .integer, i, v => setValue i v
  | .value .uinteger, i, v => setValue i v
  | .value .long, i, v => setValue i v
  | .value .ulong, i, v => setValue i v
  | .value .float, i, v => setValue i v
  | .value .double, i, v => setValue i v
  | .struct, i, v => setValue i v

/-- A string is assigned from a pointer that leads to no text: undefined behaviour, once
the element is found. -/
def setLost (i : Nat) : Exec (Wrapped α) Exc Unit
  | .single v => (.undefined, .single v)
  | .sequence vs =>
    if i < vs.length then (.undefined, .sequence vs) else (.throws .rangeCheck, .sequence vs)

/-- `resize`. -/
def resize (zero : α) (n : Nat) : Wrapped α → Wrapped α
  | .single v => .single v
  | .sequence vs => .sequence (vs.take n ++ List.replicate (n - vs.length) zero)

end Wrapped

namespace WrapperProperty

variable {R : Type}

/-- `size()`. -/
def size (w : WrapperProperty R) : Nat := w.wrapped.length % 2 ^ 32

/-- `setProperties`, with a name that is no null pointer. -/
def setProperties (name : String) (numberOfValues : Nat) (iotype : AccessSpecifier) :
    Exec (WrapperProperty R) Exc XPCFErrorCode := fun w =>
  if name = "" then (.ok .fail, w)
  else
    match w.wrapped with
    | .single v =>
      if numberOfValues > 1 then (.ok .fail, w)
      else (.ok .success, ⟨name, w.type, .single v, iotype⟩)
    | .sequence vs =>
      (.ok .success,
        ⟨name, w.type, (Wrapped.sequence vs).resize w.type.default numberOfValues, iotype⟩)

/-- Work on the wrapped member. -/
def onWrapped {β : Type} (m : (t : ItemType) → Exec (Wrapped (t.Item R)) Exc β) :
    Exec (WrapperProperty R) Exc β := fun w =>
  let result := m w.type w.wrapped
  (result.1, { w with wrapped := result.2 })

end WrapperProperty

/-! ## `copyTo` -/

/-- What a getter hands on to a setter: an item, or a pointer that leads to no text. -/
inductive Reading (α : Type) where
  | item (value : α)
  | lost

def ItemType.reading {R : Type} : (t : ItemType) → t.Answer R → Reading (t.Item R)
  | .value .charStr, .text s => .item (cString s)
  | .value .charStr, .null => .lost
  | .value .charStr, .dangling => .lost
  | .value .unicodeStr, .text s => .item (cString s)
  | .value .unicodeStr, .null => .lost
  | .value .unicodeStr, .dangling => .lost
  | .value .integer, v => .item v
  | .value .uinteger, v => .item v
  | .value .long, v => .item v
  | .value .ulong, v => .item v
  | .value .float, v => .item v
  | .value .double, v => .item v
  | .struct, v => .item v

/-- What `copyTo` and `setProperty` ask of the property that is copied. -/
structure Source (R : Type) where
  name : String
  access : AccessSpecifier
  type : Option ItemType
  /-- `m_size`, `m_wrappedValue.size()` or `m_queue.size()`: `size()` gives the last 32
  bits of it. -/
  count : Nat
  /-- The getter of each type. -/
  read : (t : ItemType) → Nat → Except Exc (Reading (t.Item R))
  read_cStr : ∀ t i v, read t i = .ok (.item v) → t.cStr v = v

namespace Source

variable {R : Type} (p : Source R)

def size : Nat := p.count % 2 ^ 32

/-- `dest->setXValue(getXValue(i), i)`, on a destination of type `type`. -/
def copyItem (t : ItemType) (i : Nat) (type : ItemType) : Exec (Wrapped (type.Item R)) Exc Unit :=
  match p.read t i with
  | .error e => throw e
  | .ok (.item v) => if h : t = type then Wrapped.setItemAt type i (h ▸ v) else pure ()
  | .ok .lost => if t = type then Wrapped.setLost i else pure ()

/-- The loop over the items.  Its index has 32 bits: where there are more items, it
starts again from zero, to do again what it did without an exception. -/
def copyItems (t type : ItemType) : Exec (Wrapped (type.Item R)) Exc Unit := do
  forEach (fun i => p.copyItem t i type) (List.range (min p.count (2 ^ 32)))
  if p.count < 2 ^ 32 then pure () else diverge

/-- The cases of the switch in `copyTo`. -/
def isCopied : ItemType → Bool
  | .value .integer => true
  | .value .uinteger => true
  | .value .float => true
  | .value .charStr => true
  | .value .unicodeStr => true
  | .struct => true
  | _ => false

/-- `copyTo`, which the three classes have alike. -/
def copyTo : Exec (WrapperProperty R) Exc XPCFErrorCode := do
  let _ ← WrapperProperty.setProperties p.name p.size p.access
  match p.type with
  | none => pure .fail
  | some t =>
    if isCopied t then do
      WrapperProperty.onWrapped fun type => p.copyItems t type
      pure .success
    else pure .fail

end Source

theorem ItemType.cStr_cStr {R : Type} (t : ItemType) (v : t.Item R) :
    t.cStr (t.cStr v) = t.cStr v := by
  cases t with
  | value type =>
    cases type with
    | charStr | unicodeStr => exact cString_cString v
    | _ => rfl
  | struct => rfl

/-- A getter returns a text up to its first null character. -/
theorem Wrapped.cStr_of_getItem {R : Type} {t : ItemType} {i : Nat} {wrapped : Wrapped (t.Item R)}
    {v : t.Item R} (h : wrapped.getItem t i = .ok v) : t.cStr v = v := by
  have hmap : ∀ x : Except Exc (t.Item R), x.map t.cStr = .ok v → t.cStr v = v := by
    intro x hx
    cases x with
    | error e => cases hx
    | ok u =>
      rw [← Except.ok.inj hx]
      exact t.cStr_cStr u
  cases t with
  | value type => exact hmap _ h
  | struct => rfl

/-- The getters of a wrapper: those of another type than its own give a default. -/
def WrapperProperty.read {R : Type} (w : WrapperProperty R) (t : ItemType) (i : Nat) :
    Except Exc (Reading (t.Item R)) :=
  if h : w.type = t then (w.wrapped.getItem w.type i).map fun v => .item (h ▸ v)
  else if t = .value .charStr ∨ t = .value .unicodeStr then .ok .lost
  else .ok (.item t.default)

theorem WrapperProperty.read_cStr {R : Type} (w : WrapperProperty R) (t : ItemType) (i : Nat)
    (v : t.Item R) (h : w.read t i = .ok (.item v)) : t.cStr v = v := by
  unfold WrapperProperty.read at h
  split at h
  · rename_i htype
    subst htype
    cases hitem : w.wrapped.getItem w.type i with
    | error e =>
      rw [hitem] at h
      cases h
    | ok u =>
      rw [hitem] at h
      cases h
      exact Wrapped.cStr_of_getItem hitem
  · split at h
    · cases h
    · cases h
      cases t with
      | value type => cases type <;> rfl
      | struct => rfl

/-- An item that stands for what a getter returned. -/
theorem ItemType.cStr_of_reading {R : Type} {t : ItemType} {a : t.Answer R} {v : t.Item R}
    (h : t.reading a = .item v) : t.cStr v = v := by
  cases t with
  | value type =>
    cases type with
    | charStr | unicodeStr =>
      cases a with
      | text s =>
        cases h
        exact cString_cString s
      | null => cases h
      | dangling => cases h
    | _ => rfl
  | struct => rfl

theorem ConcreteProperty.read_cStr {R : Type} (p : ConcreteProperty R) (t : ItemType) (i : Nat)
    (v : t.Item R) (h : (p.get t i).map t.reading = .ok (.item v)) : t.cStr v = v := by
  cases hget : p.get t i with
  | error e =>
    rw [hget] at h
    cases h
  | ok a =>
    rw [hget] at h
    exact ItemType.cStr_of_reading (Except.ok.inj h)

def WrapperProperty.source {R : Type} (w : WrapperProperty R) : Source R where
  name := w.name
  access := w.access
  type := some w.type
  count := w.wrapped.length
  read := w.read
  read_cStr := w.read_cStr

def ConcreteProperty.source {R : Type} (p : ConcreteProperty R) : Source R where
  name := p.name
  access := p.access
  type := p.type
  count := p.queue.length
  read t i := (p.get t i).map t.reading
  read_cStr := p.read_cStr

/-! ## `setProperty` -/

/-- `m_propertyMap`. -/
abbrev WrapperMap (R : Type) : Type := Table String (WrapperProperty R)

/-- The checks of `setProperty`: the property of that name, or what is thrown. -/
def checkedProperty {R : Type} (map : WrapperMap R) (p : Source R) :
    Except Exc (WrapperProperty R) :=
  match map p.name with
  | none => .error (.std .invalidArgument
      ("No property named " ++ p.name ++ " exists in this IPropertyMap."))
  | some tmp =>
    if tmp.access = .out then .error .accessDenied
    else if tmp.size ≠ p.size then
      .error (.std .invalidArgument "Argument property size differs from inner property size.")
    else if some tmp.type ≠ p.type then
      .error (.std .invalidArgument "Argument property type differs from inner property type.")
    else .ok tmp

/-- `PropertyMap::setProperty`.  It does not look at what `copyTo` returns. -/
def setProperty {R : Type} (p : Option (Source R)) : Exec (WrapperMap R) Exc XPCFErrorCode :=
  fun map =>
    match p with
    | none => (.throws (.std .invalidArgument
        "Argument 'p' doesn't reference an IProperty. This SRef is empty."), map)
    | some p =>
      match checkedProperty map p with
      | .error e => (.throws e, map)
      | .ok tmp =>
        let result := (p.copyTo >>= fun _ => pure XPCFErrorCode.success) tmp
        (result.1, map.insert p.name result.2)

end Xpcf
