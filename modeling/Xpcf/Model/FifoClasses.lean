import Xpcf.Model.SharedFifo

/-!
# The classes that implement `IFifo`

`SharedLifo` and `DropBuffer` beside the classes of `Model.SharedFifo`, and
`clear`, which `SharedFifo` gives to all of them.  `FifoKind` lists the classes
with the arguments of their constructors.

Calls are made one at a time here (`FifoKind.step`), so a call that waits never
returns.
-/

namespace Xpcf

variable {T : Type}

/-! ## `SharedLifo` and `DropBuffer` -/

/-- `SharedLifo::doPop`: the value at the front of the deque, which is popped. -/
def SharedLifo.doPop (f : SharedFifo T) : Option (T × SharedFifo T) :=
  f.data.head?.map fun value =>
    (value, { f with data := f.data.tail, nbNotified := f.nbNotified - 1 })

def sharedLifo (T : Type) : FifoClass T (SharedFifo T) where
  members := id
  release := SharedFifo.release
  pushWaitsOn := fun _ => none
  push := SharedFifo.push
  doPop := SharedLifo.doPop
  doPopNotifies := none

namespace DropBuffer

/-- `DropBuffer::push`. -/
def push (value : T) (f : SharedFifo T) : FifoEnding T (SharedFifo T) :=
  let f1 := if f.nbNotified > 0 then { f with data := [], nbNotified := 0 } else f
  ⟨{ f1 with data := value :: f1.data, nbNotified := f1.nbNotified + 1 }, .done,
    some .queueNotEmpty⟩

/-- `DropBuffer::doPop`. -/
def doPop (f : SharedFifo T) : Option (T × SharedFifo T) :=
  f.data.head?.map fun value =>
    (value, { f with data := f.data.tail, nbNotified := f.nbNotified - 1 })

end DropBuffer

def dropBuffer (T : Type) : FifoClass T (SharedFifo T) where
  members := id
  release := SharedFifo.release
  pushWaitsOn := fun _ => none
  push := DropBuffer.push
  doPop := DropBuffer.doPop
  doPopNotifies := none

/-! ## `clear` -/

/-- The type of the elements, as far as `delete` is concerned. -/
structure ElementType (T : Type) where
  isPointer : Bool
  isNull : T → Bool

/-- `FifoCleaner<T>::cleanup`: what it frees.  The primary template does nothing. -/
def FifoCleaner.cleanup (elements : ElementType T) (data : List T) : List T :=
  if elements.isPointer then data.filter fun element => !elements.isNull element else []

/-- `SharedFifo::clear`: what it frees, and the members after it. -/
def SharedFifo.clear (elements : ElementType T) (f : SharedFifo T) : List T × SharedFifo T :=
  (FifoCleaner.cleanup elements f.data, { f with nbNotified := 0, data := [] })

/-! ## The classes -/

/-- A class of the hierarchy, with the arguments of its constructor. -/
inductive FifoKind where
  | sharedFifo
  | sharedLifo
  | dropBuffer
  | sharedBuffer (max startAt : Nat)
  | sharedCircularBuffer (size : Nat)
  deriving DecidableEq

namespace FifoKind

abbrev State (T : Type) : FifoKind → Type
  | .sharedFifo => SharedFifo T
  | .sharedLifo => SharedFifo T
  | .dropBuffer => SharedFifo T
  | .sharedBuffer _ _ => SharedBuffer T
  | .sharedCircularBuffer _ => SharedCircularBuffer T

def fifoClass (T : Type) : (k : FifoKind) → FifoClass T (k.State T)
  | .sharedFifo => Xpcf.sharedFifo T
  | .sharedLifo => Xpcf.sharedLifo T
  | .dropBuffer => Xpcf.dropBuffer T
  | .sharedBuffer _ _ => Xpcf.sharedBuffer T
  | .sharedCircularBuffer _ => Xpcf.sharedCircularBuffer T

/-- The constructor. -/
def new [Inhabited T] : (k : FifoKind) → k.State T
  | .sharedFifo => SharedFifo.new
  | .sharedLifo => SharedFifo.new
  | .dropBuffer => SharedFifo.new
  | .sharedBuffer max startAt => SharedBuffer.new max startAt
  | .sharedCircularBuffer size => SharedCircularBuffer.new size

/-- The object with other inherited members. -/
def withMembers : (k : FifoKind) → SharedFifo T → k.State T → k.State T
  | .sharedFifo, members, _ => members
  | .sharedLifo, members, _ => members
  | .dropBuffer, members, _ => members
  | .sharedBuffer _ _, members, o => { o with toSharedFifo := members }
  | .sharedCircularBuffer _, members, o => { o with toSharedFifo := members }

/-- `clear`, which no class overrides. -/
def clear (k : FifoKind) (elements : ElementType T) (o : k.State T) : List T × k.State T :=
  let cleared := ((k.fifoClass T).members o).clear elements
  (cleared.1, k.withMembers cleared.2 o)

end FifoKind

/-- A call of a method. -/
inductive FifoOperation (T : Type) where
  | call (c : FifoCall T)
  | clear
  deriving DecidableEq

/-- What a call answers, and what it frees. -/
structure FifoOutput (T : Type) where
  answer : FifoAnswer T
  freed : List T
  deriving DecidableEq

namespace FifoKind

variable (k : FifoKind) (elements : ElementType T)

/-- One call, made while no other is.  `none`: it waits. -/
def step (operation : FifoOperation T) (o : k.State T) : Option (FifoOutput T × k.State T) :=
  match operation with
  | .call c =>
    match (k.fifoClass T).waitsOn c false o with
    | some _ => none
    | none =>
      let ending := (k.fifoClass T).body c false o
      some (⟨ending.result, []⟩, ending.object)
  | .clear =>
    let cleared := k.clear elements o
    some (⟨.done, cleared.1⟩, cleared.2)

/-- Calls one after the other. -/
def run : List (FifoOperation T) → k.State T → Option (List (FifoOutput T) × k.State T)
  | [], o => some ([], o)
  | operation :: operations, o =>
    match k.step elements operation o with
    | none => none
    | some (output, o1) =>
      (run operations o1).map fun rest => (output :: rest.1, rest.2)

end FifoKind

end Xpcf
