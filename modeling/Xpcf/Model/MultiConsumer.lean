import Mathlib.Logic.Function.Basic
import Xpcf.CodeLib.Steps
import Xpcf.Model.SharedFifo

/-!
# One queue for several consumers

`MultiConsumer` (`xpcf/threading/MultiConsumer.h`) hands each item of a source
fifo to every consumer.  The consumers are threads that call `pop`, each with its
own ID; other threads push to the source and call `release`.

`m_mutex` guards two sections of `pop`; between them the consumer pops its own
buffer.  A section that runs `init` is several steps here, as `init` takes the
mutexes of the source and of each buffer; the thread that runs it is the `owner`
of `m_mutex`.  A thread that waits, for a mutex or for a fifo, takes no step.
-/

namespace Xpcf

open CodeLib

/-- Where a consumer is in `pop`.  The value that the call returns is the item;
the first `init` comes before there is one. -/
inductive PopPhase (T : Type) where
  | outside
  /-- In `init`, before `m_fifo->pop(value)`. -/
  | fetching (item : Option T)
  /-- In the loop of `init`, before the push to the buffer `next`. -/
  | pushing (item : Option T) (value : T) (next : Nat)
  /-- Past the first section, before the pop of the own buffer. -/
  | reading
  /-- Before the second section. -/
  | counting (item : T)

/-- What has happened, in the order of the critical sections. -/
inductive ConsumerEvent (T : Type) where
  /-- A push to the source returned. -/
  | pushed (value : T) (answer : FifoAnswer T)
  /-- The pop of the source in `init` returned. -/
  | fetched (answer : FifoAnswer T)
  /-- The pop of the consumer's own buffer returned, or threw. -/
  | read (consumerID : Nat) (answer : FifoAnswer T)
  /-- `pop` returned. -/
  | returned (consumerID : Nat) (value : T)
  /-- `pop` was given an ID that is not below the number of consumers. -/
  | invalid (consumerID : Nat)
  /-- `subscribe` returned an ID, or threw. -/
  | subscribed (consumerID : Option Nat)

/-- The members, for a source `σ` and `n` consumers, with the threads that use
them. -/
structure MultiConsumer (T σ : Type) (n : Nat) where
  /-- Who holds `m_mutex` between two steps. -/
  owner : Option (Fin n)
  currentSubscriberID : Nat
  fifo : σ
  consumersBuffers : Fin n → SharedFifo T
  nbConsumed : Nat
  firstInit : Bool
  phase : Fin n → PopPhase T
  history : List (ConsumerEvent T)

inductive ConsumerAction (T : Type) (n : Nat) where
  /-- A producer pushes to the source. -/
  | push (value : T)
  | subscribe
  /-- `pop` with an ID of no consumer. -/
  | popInvalid (consumerID : Nat)
  /-- The consumer takes its next step in `pop`. -/
  | pop (consumerID : Fin n)
  /-- `release()` of the source. -/
  | releaseFifo
  /-- One turn of the loop of `MultiConsumer::release()`.  It takes no mutex, and
  the loops of several callers interleave. -/
  | releaseBuffer (consumerID : Fin n)

namespace MultiConsumer

variable {T σ : Type} {n : Nat}

/-- `MultiConsumer(nbConsumers, fifo)`. -/
def new (n : Nat) (fifo : σ) : MultiConsumer T σ n where
  owner := none
  currentSubscriberID := 0
  fifo := fifo
  consumersBuffers := fun _ => SharedFifo.new
  nbConsumed := 0
  firstInit := true
  phase := fun _ => .outside
  history := []

def setPhase (m : MultiConsumer T σ n) (c : Fin n) (p : PopPhase T) : MultiConsumer T σ n :=
  { m with phase := Function.update m.phase c p }

def setBuffer (m : MultiConsumer T σ n) (c : Fin n) (b : SharedFifo T) : MultiConsumer T σ n :=
  { m with consumersBuffers := Function.update m.consumersBuffers c b }

def log (m : MultiConsumer T σ n) (e : ConsumerEvent T) : MultiConsumer T σ n :=
  { m with history := m.history ++ [e] }

/-- `subscribe()`, once `m_mutex` is free. -/
def subscribe (m : MultiConsumer T σ n) : MultiConsumer T σ n :=
  if m.currentSubscriberID < n then
    { m with currentSubscriberID := m.currentSubscriberID + 1 }.log
      (.subscribed (some m.currentSubscriberID))
  else m.log (.subscribed none)

/-- Up to the pop of the source, `init()` only writes the counter. -/
def beginInit (m : MultiConsumer T σ n) (c : Fin n) (item : Option T) : MultiConsumer T σ n :=
  { m with owner := some c, nbConsumed := 0 }.setPhase c (.fetching item)

/-- What `T value` holds after `m_fifo->pop(value)`.  The flag it returns is not
looked at, and the variable keeps its first value when the pop was aborted. -/
def fetchedValue [Inhabited T] : FifoAnswer T → T
  | .flag _ (some value) => value
  | _ => default

/-- The end of a section that ran `init()`. -/
def endInit (m : MultiConsumer T σ n) (c : Fin n) : Option T → MultiConsumer T σ n
  | none => { m with owner := none, firstInit := false }.setPhase c .reading
  | some item => ({ m with owner := none }.setPhase c .outside).log (.returned c item)

/-- `m_nbConsumed++`, and what follows. -/
def count (m : MultiConsumer T σ n) (c : Fin n) (item : T) : MultiConsumer T σ n :=
  if m.nbConsumed + 1 = n then m.beginInit c (some item)
  else ({ m with nbConsumed := m.nbConsumed + 1 }.setPhase c .outside).log (.returned c item)

/-- The next step of a consumer in `pop`, or `none` where it waits. -/
def pop [Inhabited T] (C : FifoClass T σ) (m : MultiConsumer T σ n) (c : Fin n) :
    Option (MultiConsumer T σ n) :=
  match m.phase c with
  | .outside =>
    if m.owner.isSome then none
    else if m.firstInit then some (m.beginInit c none)
    else some (m.setPhase c .reading)
  | .fetching item =>
    if (C.waitsOn .popInto false m.fifo).isSome then none
    else
      let e := C.body .popInto false m.fifo
      some (({ m with fifo := e.object }.setPhase c (.pushing item (fetchedValue e.result) 0)).log
        (.fetched e.result))
  | .pushing item value next =>
    if h : next < n then
      some ((m.setBuffer ⟨next, h⟩ ((m.consumersBuffers ⟨next, h⟩).push value).object).setPhase c
        (.pushing item value (next + 1)))
    else some (m.endInit c item)
  | .reading =>
    if ((sharedFifo T).waitsOn .pop false (m.consumersBuffers c)).isSome then none
    else
      let e := (sharedFifo T).body .pop false (m.consumersBuffers c)
      let m1 := (m.setBuffer c e.object).log (.read c e.result)
      match e.result with
      | .value item => some (m1.setPhase c (.counting item))
      | _ => some (m1.setPhase c .outside)
  | .counting item => if m.owner.isSome then none else some (m.count c item)

def step [Inhabited T] (C : FifoClass T σ) (m : MultiConsumer T σ n) :
    ConsumerAction T n → Option (MultiConsumer T σ n)
  | .push value =>
    if (C.pushWaitsOn m.fifo).isSome then none
    else
      let e := C.push value m.fifo
      some ({ m with fifo := e.object }.log (.pushed value e.result))
  | .subscribe => if m.owner.isSome then none else some m.subscribe
  | .popInvalid consumerID => if consumerID < n then none else some (m.log (.invalid consumerID))
  | .pop c => m.pop C c
  | .releaseFifo => some { m with fifo := C.release m.fifo }
  | .releaseBuffer c => some (m.setBuffer c (m.consumersBuffers c).release)

end MultiConsumer

end Xpcf
