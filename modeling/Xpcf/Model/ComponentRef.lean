import Xpcf.CodeLib.SharedPtrs
import Xpcf.CodeLib.Steps
import Xpcf.Core.Exceptions

/-!
# The references to a component

Every `SRef` to a component is a shared pointer.  The control blocks are made by
`acquireComponentRef` (`IComponentIntrospect.h`), one for each interface that is
queried, and their deleters, whatever the interface, call `releaseComponentRef`
(`ComponentBase.cpp`).  The component counts its control blocks and calls
`unloadComponent` when the count drops to zero; a component may then delete
itself or not.
-/

namespace Xpcf

open CodeLib

/-- A component and the `SRef`s to it, for interfaces of the types `I`. -/
structure ComponentRefs (I : Type) where
  componentUUID : Uuid
  /-- `m_interfaces`: the type of the pointer declared for a UUID. -/
  interfaces : Uuid → Option I
  usageRefCount : UInt32
  srefs : SharedPtrs
  /-- The calls of `unloadComponent`, each with the number of `SRef`s alive. -/
  unloads : List Nat

/-- What a program does with the references.  An `SRef` is named by its control
block. -/
inductive RefOperation (I : Type) where
  /-- `acquireComponentRef(T* component)`. -/
  | acquireComponentRef
  /-- `acquireComponentRef(T* component, SRef<B>& aRef)`, for a reference that
  shares the block `old`. -/
  | acquireComponentRefInto (old : Nat)
  | queryInterface (interface : I) (interfaceUUID : Uuid)
  | bindTo (interface : I)
  | copy (block : Nat)
  | destroy (block : Nat)
  /-- An `SRef` that shares `old` is assigned one that shares `block`. -/
  | assign (block old : Nat)

namespace ComponentRefs

variable {I : Type}

/-- After the construction. -/
def new (componentUUID : Uuid) (interfaces : Uuid → Option I) : ComponentRefs I where
  componentUUID := componentUUID
  interfaces := interfaces
  usageRefCount := 0
  srefs := .empty
  unloads := []

def addComponentRef (s : ComponentRefs I) : ComponentRefs I :=
  { s with usageRefCount := s.usageRefCount + 1 }

def unloadComponent (s : ComponentRefs I) : ComponentRefs I :=
  { s with unloads := s.unloads ++ [s.srefs.refs.length] }

def releaseComponentRef (s : ComponentRefs I) : ComponentRefs I :=
  let s1 := { s with usageRefCount := s.usageRefCount - 1 }
  if s1.usageRefCount = 0 then s1.unloadComponent else s1

/-- `SRef<B>(component, IComponentIntrospectDeleter<T>())`. -/
def makeSRef (s : ComponentRefs I) : ComponentRefs I :=
  { s with srefs := s.srefs.make }

def copySRef (s : ComponentRefs I) {block : Nat} (h : block ∈ s.srefs.refs) : ComponentRefs I :=
  { s with srefs := s.srefs.copy h }

/-- The last `SRef` of a block calls the deleter. -/
def destroySRef (s : ComponentRefs I) (block : Nat) : ComponentRefs I :=
  let s1 := { s with srefs := s.srefs.destroy block }
  if s.srefs.useCount block = 1 then s1.releaseComponentRef else s1

/-- `static_cast< SRef<IComponentIntrospect> >(componentRef)->addComponentRef()`:
the cast makes a temporary `SRef`. -/
def addThroughSRef (s : ComponentRefs I) {block : Nat} (h : block ∈ s.srefs.refs) :
    ComponentRefs I :=
  (s.copySRef h).addComponentRef.destroySRef block

def acquireComponentRef (s : ComponentRefs I) : ComponentRefs I :=
  s.makeSRef.addThroughSRef (List.mem_cons_self (a := s.srefs.next))

@[simp] theorem releaseComponentRef_srefs (s : ComponentRefs I) :
    s.releaseComponentRef.srefs = s.srefs := by
  simp only [releaseComponentRef]
  split <;> rfl

@[simp] theorem destroySRef_srefs (s : ComponentRefs I) (block : Nat) :
    (s.destroySRef block).srefs = s.srefs.destroy block := by
  simp only [destroySRef]
  split
  · rw [releaseComponentRef_srefs]
  · rfl

theorem next_mem_makeSRef (s : ComponentRefs I) {old : Nat} (h : old ∈ s.srefs.refs) :
    s.srefs.next ∈ (s.makeSRef.destroySRef old).srefs.refs := by
  have hne : s.srefs.next ≠ old := fun heq => Nat.lt_irrefl _ (heq ▸ s.srefs.fresh old h)
  rw [destroySRef_srefs]
  exact (List.mem_erase_of_ne hne).mpr List.mem_cons_self

/-- The assignment to `aRef` destroys what it shared before the reference is
added. -/
def acquireComponentRefInto (s : ComponentRefs I) {old : Nat} (h : old ∈ s.srefs.refs) :
    ComponentRefs I :=
  (s.makeSRef.destroySRef old).addThroughSRef (s.next_mem_makeSRef h)

variable [DecidableEq I]

/-- `queryInterface<I>(interfaceUUID)`. -/
def queryInterface (s : ComponentRefs I) (interface : I) (interfaceUUID : Uuid) :
    Except Exc (ComponentRefs I) :=
  match s.interfaces interfaceUUID with
  | none => .error (.interfaceNotImplemented s.componentUUID interfaceUUID)
  | some declared =>
    if declared = interface then .ok s.acquireComponentRef
    else .error (.std .badAnyCast "bad any_cast")

/-- A call that throws leaves the component as it is. -/
def afterCall (s : ComponentRefs I) : Except Exc (ComponentRefs I) → ComponentRefs I
  | .ok s1 => s1
  | .error _ => s

/-- The operation, or `none` for an `SRef` that does not exist. `traits` are the
UUIDs of the `InterfaceTraits`. -/
def step (traits : I → Uuid) (s : ComponentRefs I) : RefOperation I → Option (ComponentRefs I)
  | .acquireComponentRef => some s.acquireComponentRef
  | .acquireComponentRefInto old =>
    if h : old ∈ s.srefs.refs then some (s.acquireComponentRefInto h) else none
  | .queryInterface interface interfaceUUID =>
    some (s.afterCall (s.queryInterface interface interfaceUUID))
  | .bindTo interface => some (s.afterCall (s.queryInterface interface (traits interface)))
  | .copy block => if h : block ∈ s.srefs.refs then some (s.copySRef h) else none
  | .destroy block => if block ∈ s.srefs.refs then some (s.destroySRef block) else none
  | .assign block old =>
    if h : block ∈ s.srefs.refs ∧ old ∈ s.srefs.refs then
      some ((s.copySRef h.1).destroySRef old)
    else none

end ComponentRefs

end Xpcf
