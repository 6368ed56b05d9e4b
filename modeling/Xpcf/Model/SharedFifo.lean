import Xpcf.CodeLib.Monitor

/-!
# Fifos shared between threads

`SharedFifo`, `SharedBuffer` and `SharedCircularBuffer` (`xpcf/threading`), each
as the monitor of its critical sections.  A class of the hierarchy gives its own `push` and `doPop`
(`FifoClass`); the methods that wait on the not-empty condition are those of
`SharedFifo` for every class.

`m_nbNotified` is a `std::size_t` and `m_data` a deque that fits in memory, so
the counter is a `Nat`.  The values are default constructible, as `pop()`
needs.
-/

namespace Xpcf

open CodeLib

/-- `m_condQueueNotEmpty` and `m_condQueueNotFull`. -/
inductive QueueCondition where
  | queueNotEmpty
  | queueNotFull
  deriving DecidableEq

/-- The calls of `IFifo` that take the mutex. -/
inductive FifoCall (T : Type) where
  | push (value : T)
  /-- `const T back()`. -/
  | back
  /-- `bool back(T & value)`. -/
  | backInto
  /-- `const T pop()`. -/
  | pop
  /-- `bool pop(T & value)`. -/
  | popInto
  /-- `bool pop(T & value, std::chrono::milliseconds duration)`. -/
  | popFor
  | tryPop
  deriving DecidableEq

/-- What a call answers. -/
inductive FifoAnswer (T : Type) where
  | done
  | value (value : T)
  /-- The returned flag, and what was written to the reference. -/
  | flag (result : Bool) (value : Option T)
  | throws (what : String)
  /-- `back()` or `pop_back()` of an empty deque. -/
  | undefined
  deriving DecidableEq

/-- The members of `SharedFifo`.  `data` is the deque, front first. -/
structure SharedFifo (T : Type) where
  nbNotified : Nat
  data : List T
  released : Bool

/-- The members of `SharedBuffer`. -/
structure SharedBuffer (T : Type) extends SharedFifo T where
  maxSize : Nat
  bufferedStartOffset : Nat
  started : Bool

/-- The members of `SharedCircularBuffer`, whose deque keeps its size. -/
structure SharedCircularBuffer (T : Type) extends SharedFifo T where
  pushCursor : Nat
  popCursor : Nat

abbrev FifoEnding (T σ : Type) : Type := Ending σ QueueCondition (FifoAnswer T)

/-- A class derived from `SharedFifo`: where it keeps the inherited members, and
the virtual methods it may override. -/
structure FifoClass (T σ : Type) where
  members : σ → SharedFifo T
  /-- `m_bReleased = true`. -/
  release : σ → σ
  /-- The guard of the wait loop of `push`. -/
  pushWaitsOn : σ → Option QueueCondition
  push : T → σ → FifoEnding T σ
  /-- `none`: the deque has no such value, and the call is undefined. -/
  doPop : σ → Option (T × σ)
  doPopNotifies : Option QueueCondition

namespace FifoClass

variable {T σ : Type} (C : FifoClass T σ)

/-- `!m_bReleased && m_nbNotified == 0`. -/
def mustWait (o : σ) : Bool :=
  !(C.members o).released && (C.members o).nbNotified = 0

/-- `m_bReleased && m_nbNotified == 0`. -/
def isAborted (o : σ) : Bool :=
  (C.members o).released && (C.members o).nbNotified = 0

/-- A call of `doPop`, and what the caller makes of the value. -/
def popWith (answer : T → FifoAnswer T) (o : σ) : FifoEnding T σ :=
  match C.doPop o with
  | some (value, o1) => ⟨o1, answer value, C.doPopNotifies⟩
  | none => ⟨o, .undefined, none⟩

/-- The wait loops. -/
def waitsOn (call : FifoCall T) (timedOut : Bool) (o : σ) : Option QueueCondition :=
  match call with
  | .push _ => C.pushWaitsOn o
  | .back | .backInto | .pop | .popInto => if C.mustWait o then some .queueNotEmpty else none
  | .popFor => if C.mustWait o && !timedOut then some .queueNotEmpty else none
  | .tryPop => none

/-- What follows the wait loops. -/
def body (call : FifoCall T) (timedOut : Bool) (o : σ) : FifoEnding T σ :=
  match call with
  | .push value => C.push value o
  | .back =>
    if C.isAborted o then ⟨o, .throws "IFifo::back aborted", none⟩
    else
      match (C.members o).data.getLast? with
      | some value => ⟨o, .value value, none⟩
      | none => ⟨o, .undefined, none⟩
  | .backInto =>
    if (C.members o).nbNotified ≠ 0 then
      match (C.members o).data.getLast? with
      | some value => ⟨o, .flag (C.members o).released (some value), none⟩
      | none => ⟨o, .undefined, none⟩
    else ⟨o, .flag (C.members o).released none, none⟩
  | .pop =>
    if C.isAborted o then ⟨o, .throws "IFifo::pop aborted", none⟩
    else C.popWith .value o
  | .popInto =>
    if C.isAborted o then ⟨o, .flag false none, none⟩
    else C.popWith (fun value => .flag true (some value)) o
  | .popFor =>
    if (timedOut || (C.members o).released) && (C.members o).nbNotified = 0 then
      ⟨o, .flag false none, none⟩
    else C.popWith (fun value => .flag true (some value)) o
  | .tryPop =>
    if (C.members o).nbNotified > 0 then C.popWith (fun value => .flag true (some value)) o
    else ⟨o, .flag false none, none⟩

/-- The object shared between threads.  `release` notifies the not-empty
condition only. -/
def monitor : Monitor σ QueueCondition (FifoCall T) (FifoAnswer T) where
  waitsOn := C.waitsOn
  body := C.body
  timed := fun call =>
    match call with
    | .popFor => true
    | _ => false
  tried := fun call =>
    match call with
    | .tryPop => some (.flag false none)
    | _ => none
  release := C.release
  releaseNotifies := .queueNotEmpty

end FifoClass

/-! ## `SharedFifo` -/

namespace SharedFifo

variable {T : Type}

def new : SharedFifo T := ⟨0, [], false⟩

def push (value : T) (f : SharedFifo T) : FifoEnding T (SharedFifo T) :=
  ⟨{ f with data := value :: f.data, nbNotified := f.nbNotified + 1 }, .done,
    some .queueNotEmpty⟩

/-- The value at the back of the deque, which is popped. -/
def doPop (f : SharedFifo T) : Option (T × SharedFifo T) :=
  f.data.getLast?.map fun value =>
    (value, { f with data := f.data.dropLast, nbNotified := f.nbNotified - 1 })

def release (f : SharedFifo T) : SharedFifo T := { f with released := true }

end SharedFifo

def sharedFifo (T : Type) : FifoClass T (SharedFifo T) where
  members := id
  release := SharedFifo.release
  pushWaitsOn := fun _ => none
  push := SharedFifo.push
  doPop := SharedFifo.doPop
  doPopNotifies := none

/-! ## `SharedBuffer` -/

namespace SharedBuffer

variable {T : Type}

/-- `SharedBuffer(max, startAt)`. -/
def new (max startAt : Nat) : SharedBuffer T where
  toSharedFifo := SharedFifo.new
  maxSize := max
  bufferedStartOffset := if max < startAt then max else startAt
  started := startAt = 0

def pushWaitsOn (b : SharedBuffer T) : Option QueueCondition :=
  if !b.released && b.nbNotified ≥ b.maxSize then some .queueNotFull else none

/-- While the buffer fills up to its start offset, `push` notifies nobody; the
push that reaches the offset does not either. -/
def push (value : T) (b : SharedBuffer T) : FifoEnding T (SharedBuffer T) :=
  if b.released && b.nbNotified ≥ b.maxSize then ⟨b, .throws "IFifo::push aborted", none⟩
  else
    let b1 := { b with data := value :: b.data, nbNotified := b.nbNotified + 1 }
    if b.started then ⟨b1, .done, some .queueNotEmpty⟩
    else if b1.nbNotified ≥ b.bufferedStartOffset then ⟨{ b1 with started := true }, .done, none⟩
    else ⟨b1, .done, none⟩

def doPop (b : SharedBuffer T) : Option (T × SharedBuffer T) :=
  b.toSharedFifo.doPop.map fun popped => (popped.1, { b with toSharedFifo := popped.2 })

def release (b : SharedBuffer T) : SharedBuffer T :=
  { b with toSharedFifo := b.toSharedFifo.release }

end SharedBuffer

def sharedBuffer (T : Type) : FifoClass T (SharedBuffer T) where
  members := SharedBuffer.toSharedFifo
  release := SharedBuffer.release
  pushWaitsOn := SharedBuffer.pushWaitsOn
  push := SharedBuffer.push
  doPop := SharedBuffer.doPop
  doPopNotifies := some .queueNotFull

/-! ## `SharedCircularBuffer` -/

namespace SharedCircularBuffer

variable {T : Type}

/-- `SharedCircularBuffer(size)`. -/
def new [Inhabited T] (size : Nat) : SharedCircularBuffer T where
  toSharedFifo := ⟨0, List.replicate size default, false⟩
  pushCursor := 0
  popCursor := 0

/-- `increaseCursor`, for a deque of `size` values. -/
def increaseCursor (size cursor : Nat) : Nat :=
  if cursor + 1 = size then 0 else cursor + 1

/-- `m_data[m_pushCursor]` is undefined when the buffer was made with no room. -/
def push (value : T) (b : SharedCircularBuffer T) : FifoEnding T (SharedCircularBuffer T) :=
  if b.pushCursor < b.data.length then
    let b1 :=
      { b with
        data := b.data.set b.pushCursor value
        pushCursor := increaseCursor b.data.length b.pushCursor
        nbNotified := b.nbNotified + 1 }
    if b1.nbNotified > b1.data.length then
      ⟨{ b1 with
          popCursor := increaseCursor b1.data.length b1.popCursor
          nbNotified := b1.nbNotified - 1 }, .done, some .queueNotEmpty⟩
    else ⟨b1, .done, some .queueNotEmpty⟩
  else ⟨b, .undefined, none⟩

def doPop (b : SharedCircularBuffer T) : Option (T × SharedCircularBuffer T) :=
  b.data[b.popCursor]?.map fun value =>
    (value,
      { b with
        popCursor := increaseCursor b.data.length b.popCursor
        nbNotified := b.nbNotified - 1 })

def release (b : SharedCircularBuffer T) : SharedCircularBuffer T :=
  { b with toSharedFifo := b.toSharedFifo.release }

end SharedCircularBuffer

def sharedCircularBuffer (T : Type) : FifoClass T (SharedCircularBuffer T) where
  members := SharedCircularBuffer.toSharedFifo
  release := SharedCircularBuffer.release
  pushWaitsOn := fun _ => none
  push := SharedCircularBuffer.push
  doPop := SharedCircularBuffer.doPop
  doPopNotifies := none

end Xpcf
