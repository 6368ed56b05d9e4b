import Mathlib.Data.Fintype.Card
import Xpcf.Model.MultiConsumer
import Xpcf.Proofs.CircularBuffer

/-!
# The consumers of one queue

What the consumers of a `MultiConsumer` have received, in any interleaving in
which `init` never finds the source released and empty.

* `taken`, `sourced`, `readBy`, `received`: the values of a history;
* `Ordered`: the invariant.  An item that was taken from the source is, for each
  consumer, popped, or in its buffer, or still to be sent by the thread in
  `init`; and the consumers that have counted it are those that `m_nbConsumed`
  counts;
* `Effect`: what a step does, and one lemma for each effect.
-/

namespace Xpcf

open CodeLib

variable {T σ : Type} {n : Nat}

/-! ## Sources -/

/-- A fifo that may feed several consumers: it gives its values oldest first,
loses only the oldest ones, and is released by `release` alone. -/
structure FifoClass.Feeds (C : FifoClass T σ) (Ok : σ → Prop) (content : σ → List T)
    (keep : List T → List T) : Prop where
  holds : C.Holds Ok content keep
  keepsReleased : C.KeepsReleased
  keep_suffix : ∀ items, keep items <:+ items

theorem sharedFifo_feeds (T : Type) :
    (sharedFifo T).Feeds (fun f => f.nbNotified = f.data.length) (sharedFifo T).content id where
  holds := (sharedFifo_isQueue T).holds
  keepsReleased := sharedFifo_keepsReleased T
  keep_suffix := List.suffix_refl

theorem sharedBuffer_feeds (T : Type) (max : Nat) :
    (sharedBuffer T).Feeds (fun b => b.Bounded max) (sharedBuffer T).content id where
  holds := (sharedBuffer_isQueue T max).holds
  keepsReleased := sharedBuffer_keepsReleased T
  keep_suffix := List.suffix_refl

theorem sharedCircularBuffer_feeds (T : Type) (n : Nat) :
    (sharedCircularBuffer T).Feeds (fun b => b.Circular n) SharedCircularBuffer.content
      (fun items => items.rtake n) where
  holds := sharedCircularBuffer_holds T n
  keepsReleased := sharedCircularBuffer_keepsReleased T
  keep_suffix := fun items => List.drop_suffix _ items

/-! ## Histories -/

namespace ConsumerEvent

def taken : ConsumerEvent T → Option T
  | .fetched (.flag true (some value)) => some value
  | _ => none

def sourced : ConsumerEvent T → Option T
  | .pushed value .done => some value
  | _ => none

def readBy (c : Nat) : ConsumerEvent T → Option T
  | .read consumerID (.value value) => if consumerID = c then some value else none
  | _ => none

def received (c : Nat) : ConsumerEvent T → Option T
  | .returned consumerID value => if consumerID = c then some value else none
  | _ => none

/-- The event takes no item and gives none to a consumer. -/
def Quiet (e : ConsumerEvent T) : Prop :=
  e.taken = none ∧ ∀ c, e.readBy c = none ∧ e.received c = none

end ConsumerEvent

/-- The consumer's thread runs `init`. -/
def PopPhase.inInit : PopPhase T → Bool
  | .fetching _ | .pushing _ _ _ => true
  | _ => false

/-- The value that the call will return. -/
def PopPhase.item : PopPhase T → Option T
  | .fetching item | .pushing item _ _ => item
  | .counting item => some item
  | _ => none

/-- The call has counted its item, and has not returned. -/
def PopPhase.counted : PopPhase T → Nat
  | .fetching (some _) | .pushing (some _) _ _ => 1
  | _ => 0

/-- What the loop of `init` has still to push to the buffer of `c`. -/
def PopPhase.unsent (c : Nat) : PopPhase T → List T
  | .pushing _ value next => if next ≤ c then [value] else []
  | _ => []

theorem PopPhase.counted_le_one (p : PopPhase T) : p.counted ≤ 1 := by
  cases p with
  | fetching item => cases item <;> simp [counted]
  | pushing item value next => cases item <;> simp [counted]
  | _ => simp [counted]

theorem PopPhase.counted_le_item (p : PopPhase T) : p.counted ≤ p.item.toList.length := by
  cases p with
  | fetching item => cases item <;> simp [counted, item]
  | pushing item value next => cases item <;> simp [counted, PopPhase.item]
  | _ => simp [counted]

theorem PopPhase.inInit_of_counted {p : PopPhase T} (h : p.counted ≠ 0) : p.inInit = true := by
  cases p <;> first | rfl | exact absurd rfl h

namespace MultiConsumer

variable {m m1 : MultiConsumer T σ n} {c d : Fin n}

/-- The items taken from the source. -/
def taken (history : List (ConsumerEvent T)) : List T :=
  history.filterMap ConsumerEvent.taken

/-- The values pushed to the source. -/
def sourced (history : List (ConsumerEvent T)) : List T :=
  history.filterMap ConsumerEvent.sourced

/-- What the consumer has popped from its buffer. -/
def readBy (c : Nat) (history : List (ConsumerEvent T)) : List T :=
  history.filterMap (ConsumerEvent.readBy c)

/-- What the calls of `pop` have returned to the consumer. -/
def received (c : Nat) (history : List (ConsumerEvent T)) : List T :=
  history.filterMap (ConsumerEvent.received c)

/-- The number of items that the consumer has counted. -/
def counted (m : MultiConsumer T σ n) (c : Fin n) : Nat :=
  (received c m.history).length + (m.phase c).counted

def unsent (m : MultiConsumer T σ n) (c : Fin n) : List T :=
  match m.owner with
  | none => []
  | some o => (m.phase o).unsent c

/-- The next item is to be taken from the source. -/
def Awaits (m : MultiConsumer T σ n) : Prop :=
  match m.owner with
  | none => m.firstInit = true
  | some o => ∃ item, m.phase o = .fetching item

/-- The consumers that have counted the last item taken. -/
def done (m : MultiConsumer T σ n) : Finset (Fin n) :=
  Finset.univ.filter fun c => m.counted c = (taken m.history).length

/-- The invariant, for a source that held `initial` at first.  `Balance` relates
what went out of the source, and what it holds, to what went in. -/
structure Ordered (Ok : σ → Prop) (content : σ → List T) (Balance : List T → List T → Prop)
    (initial : List T) (m : MultiConsumer T σ n) : Prop where
  ok : Ok m.fifo
  balance : Balance (taken m.history ++ content m.fifo) (initial ++ sourced m.history)
  counts : ∀ c, (m.consumersBuffers c).nbNotified = (m.consumersBuffers c).data.length
  shares : ∀ c : Fin n,
    readBy c m.history ++ (m.consumersBuffers c).data.reverse ++ m.unsent c = taken m.history
  items : ∀ c : Fin n, readBy c m.history = received c m.history ++ (m.phase c).item.toList
  owner : ∀ c, (m.phase c).inInit = true ↔ m.owner = some c
  initialized : ∀ c, m.owner = some c → (m.phase c).item ≠ none → m.firstInit = false
  reset : ∀ c, m.owner = some c → m.nbConsumed = 0
  allCounted : m.Awaits → ∀ c, m.counted c = (taken m.history).length
  oneBehind : ¬ m.Awaits → ∀ c, (taken m.history).length ≤ m.counted c + 1
  consumed : ¬ m.Awaits → m.nbConsumed = m.done.card ∧ m.nbConsumed < n

/-! ## What a step does -/

/-- What a step does, by the section of the code it runs. -/
inductive Effect [Inhabited T] (C : FifoClass T σ) (m : MultiConsumer T σ n) :
    ConsumerAction T n → MultiConsumer T σ n → Prop where
  | pushes {value} (hwaits : C.pushWaitsOn m.fifo = none) :
      Effect C m (.push value)
        ({ m with fifo := (C.push value m.fifo).object }.log
          (.pushed value (C.push value m.fifo).result))
  | subscribes {id next} :
      Effect C m .subscribe ({ m with currentSubscriberID := next }.log (.subscribed id))
  | rejects {id} : Effect C m (.popInvalid id) (m.log (.invalid id))
  | enters {c : Fin n} (hphase : m.phase c = .outside) (hfree : m.owner = none)
      (hfirst : m.firstInit = false) : Effect C m (.pop c) (m.setPhase c .reading)
  | begins {c : Fin n} (hphase : m.phase c = .outside) (hfree : m.owner = none)
      (hfirst : m.firstInit = true) : Effect C m (.pop c) (m.beginInit c none)
  | fetches {c : Fin n} {item} (hphase : m.phase c = .fetching item)
      (hwaits : C.waitsOn .popInto false m.fifo = none) :
      Effect C m (.pop c)
        (({ m with fifo := (C.body .popInto false m.fifo).object }.setPhase c
          (.pushing item (fetchedValue (C.body .popInto false m.fifo).result) 0)).log
            (.fetched (C.body .popInto false m.fifo).result))
  | sends {c : Fin n} {item value next} (hphase : m.phase c = .pushing item value next)
      (hnext : next < n) :
      Effect C m (.pop c)
        ((m.setBuffer ⟨next, hnext⟩ ((m.consumersBuffers ⟨next, hnext⟩).push value).object).setPhase
          c (.pushing item value (next + 1)))
  | ends {c : Fin n} {item value next} (hphase : m.phase c = .pushing item value next)
      (hnext : n ≤ next) :
      Effect C m (.pop c) (m.endInit c item)
  | reads {c : Fin n} {b item} (hphase : m.phase c = .reading)
      (hwaits : (sharedFifo T).waitsOn .pop false (m.consumersBuffers c) = none)
      (hbody : (sharedFifo T).body .pop false (m.consumersBuffers c) = ⟨b, .value item, none⟩) :
      Effect C m (.pop c)
        (((m.setBuffer c b).log (.read c (.value item))).setPhase c (.counting item))
  | throws {c : Fin n} (hphase : m.phase c = .reading)
      (hwaits : (sharedFifo T).waitsOn .pop false (m.consumersBuffers c) = none)
      (hthrows : ∀ item,
        ((sharedFifo T).body .pop false (m.consumersBuffers c)).result ≠ .value item) :
      Effect C m (.pop c)
        ((m.log (.read c ((sharedFifo T).body .pop false (m.consumersBuffers c)).result)).setPhase
          c .outside)
  | counts {c : Fin n} {item} (hphase : m.phase c = .counting item) (hfree : m.owner = none) :
      Effect C m (.pop c) (m.count c item)
  | releasesFifo : Effect C m .releaseFifo { m with fifo := C.release m.fifo }
  | releasesBuffer {c : Fin n} :
      Effect C m (.releaseBuffer c) (m.setBuffer c (m.consumersBuffers c).release)

theorem setBuffer_self (m : MultiConsumer T σ n) (c : Fin n) :
    m.setBuffer c (m.consumersBuffers c) = m := by
  rw [setBuffer, Function.update_eq_self]

/-- The pop of a buffer returns a value, or leaves the buffer as it is. -/
theorem body_pop_cases (f : SharedFifo T) :
    (∃ b item, (sharedFifo T).body .pop false f = ⟨b, .value item, none⟩) ∨
    ((sharedFifo T).body .pop false f).object = f ∧
      ∀ item, ((sharedFifo T).body .pop false f).result ≠ .value item := by
  simp only [FifoClass.body, FifoClass.popWith]
  split
  · exact .inr ⟨rfl, fun item h => by cases h⟩
  · split
    · exact .inl ⟨_, _, rfl⟩
    · exact .inr ⟨rfl, fun item h => by cases h⟩

/-- A step is taken where there is nothing to wait for. -/
theorem step_of_waits {β : Type} {waits : Option β} {next : Option (MultiConsumer T σ n)}
    (h : (if waits.isSome then none else next) = some m1) : waits = none ∧ next = some m1 := by
  cases waits with
  | none => exact ⟨rfl, h⟩
  | some k => cases h

theorem effect_of_pop [Inhabited T] {C : FifoClass T σ} (h : m.pop C c = some m1) :
    Effect C m (.pop c) m1 := by
  unfold pop at h
  split at h
  · rename_i hphase
    obtain ⟨hfree, h⟩ := step_of_waits h
    split at h
    · rename_i hfirst
      cases h
      exact .begins hphase hfree hfirst
    · rename_i hfirst
      cases h
      exact .enters hphase hfree (by simpa using hfirst)
  · rename_i item hphase
    obtain ⟨hwaits, h⟩ := step_of_waits h
    cases h
    exact .fetches hphase hwaits
  · rename_i item value next hphase
    split at h
    · rename_i hnext
      cases h
      exact .sends hphase hnext
    · rename_i hnext
      cases h
      exact .ends hphase (by omega)
  · rename_i hphase
    obtain ⟨hwaits, h⟩ := step_of_waits h
    rcases body_pop_cases (m.consumersBuffers c) with ⟨b, item, hbody⟩ | ⟨hsame, hthrows⟩
    · simp only [hbody] at h
      cases h
      exact .reads hphase hwaits hbody
    · simp only [hsame, setBuffer_self] at h
      cases h
      exact .throws hphase hwaits hthrows
  · rename_i item hphase
    obtain ⟨hfree, h⟩ := step_of_waits h
    cases h
    exact .counts hphase hfree

theorem effect_of_step [Inhabited T] {C : FifoClass T σ} {a : ConsumerAction T n}
    (h : step C m a = some m1) : Effect C m a m1 := by
  cases a with
  | push value =>
    obtain ⟨hwaits, h⟩ := step_of_waits h
    cases h
    exact .pushes hwaits
  | subscribe =>
    obtain ⟨-, h⟩ := step_of_waits h
    cases h
    unfold subscribe
    split
    · exact .subscribes
    · exact .subscribes
  | popInvalid id =>
    simp only [step] at h
    split at h
    · cases h
    · cases h
      exact .rejects
  | pop c => exact effect_of_pop h
  | releaseFifo =>
    cases h
    exact .releasesFifo
  | releaseBuffer c =>
    cases h
    exact .releasesBuffer

/-! ## The invariant -/

section Fields

variable (m : MultiConsumer T σ n) (c : Fin n) (p : PopPhase T) (b : SharedFifo T)
  (e : ConsumerEvent T)

theorem setPhase_phase (d : Fin n) :
    (m.setPhase c p).phase d = if d = c then p else m.phase d :=
  Function.update_apply m.phase c p d

theorem setBuffer_consumersBuffers (d : Fin n) :
    (m.setBuffer c b).consumersBuffers d = if d = c then b else m.consumersBuffers d :=
  Function.update_apply m.consumersBuffers c b d

@[simp] theorem setPhase_history : (m.setPhase c p).history = m.history := rfl
@[simp] theorem setPhase_owner : (m.setPhase c p).owner = m.owner := rfl
@[simp] theorem setPhase_fifo : (m.setPhase c p).fifo = m.fifo := rfl
@[simp] theorem setPhase_firstInit : (m.setPhase c p).firstInit = m.firstInit := rfl
@[simp] theorem setPhase_nbConsumed : (m.setPhase c p).nbConsumed = m.nbConsumed := rfl
@[simp] theorem setPhase_consumersBuffers :
    (m.setPhase c p).consumersBuffers = m.consumersBuffers := rfl

@[simp] theorem log_history : (m.log e).history = m.history ++ [e] := rfl
@[simp] theorem log_owner : (m.log e).owner = m.owner := rfl
@[simp] theorem log_phase : (m.log e).phase = m.phase := rfl
@[simp] theorem log_fifo : (m.log e).fifo = m.fifo := rfl
@[simp] theorem log_firstInit : (m.log e).firstInit = m.firstInit := rfl
@[simp] theorem log_nbConsumed : (m.log e).nbConsumed = m.nbConsumed := rfl
@[simp] theorem log_consumersBuffers : (m.log e).consumersBuffers = m.consumersBuffers := rfl

end Fields

theorem taken_append (history : List (ConsumerEvent T)) (e : ConsumerEvent T) :
    taken (history ++ [e]) = taken history ++ e.taken.toList := by
  unfold taken
  cases h : e.taken <;> simp [h]

theorem sourced_append (history : List (ConsumerEvent T)) (e : ConsumerEvent T) :
    sourced (history ++ [e]) = sourced history ++ e.sourced.toList := by
  unfold sourced
  cases h : e.sourced <;> simp [h]

theorem readBy_append (c : Nat) (history : List (ConsumerEvent T)) (e : ConsumerEvent T) :
    readBy c (history ++ [e]) = readBy c history ++ (e.readBy c).toList := by
  unfold readBy
  cases h : e.readBy c <;> simp [h]

theorem received_append (c : Nat) (history : List (ConsumerEvent T)) (e : ConsumerEvent T) :
    received c (history ++ [e]) = received c history ++ (e.received c).toList := by
  unfold received
  cases h : e.received c <;> simp [h]

theorem unsent_of_free (h : m.owner = none) (c : Fin n) : m.unsent c = [] := by
  simp [unsent, h]

theorem unsent_of_owner {o : Fin n} (h : m.owner = some o) (c : Fin n) :
    m.unsent c = (m.phase o).unsent c := by
  simp [unsent, h]

theorem awaits_of_free (h : m.owner = none) : m.Awaits ↔ m.firstInit = true := by
  simp [Awaits, h]

theorem awaits_of_owner {o : Fin n} (h : m.owner = some o) :
    m.Awaits ↔ ∃ item, m.phase o = .fetching item := by
  simp [Awaits, h]

/-- What the new phase of one consumer leaves as it was. -/
theorem phase_congr {β : Type} (f : PopPhase T → β) {p : PopPhase T}
    (hphase : ∀ d, m1.phase d = if d = c then p else m.phase d) (hp : f p = f (m.phase c))
    (d : Fin n) : f (m1.phase d) = f (m.phase d) := by
  rw [hphase]
  split
  · rename_i hd
    rw [hd, hp]
  · rfl

section Owner

/-! What `init` still has to do is read off the phase of the owner of the mutex. -/

variable (howner : m1.owner = m.owner)
  (hphase : ∀ o, m.owner = some o → m1.phase o = m.phase o)
include howner hphase

theorem unsent_congr : m1.unsent = m.unsent := by
  funext d
  cases ho : m.owner with
  | none => rw [unsent_of_free ho, unsent_of_free (howner.trans ho)]
  | some o => rw [unsent_of_owner ho, unsent_of_owner (howner.trans ho), hphase o ho]

theorem awaits_congr (hfirst : m1.firstInit = m.firstInit) : m1.Awaits ↔ m.Awaits := by
  cases ho : m.owner with
  | none => rw [awaits_of_free ho, awaits_of_free (howner.trans ho), hfirst]
  | some o => rw [awaits_of_owner ho, awaits_of_owner (howner.trans ho), hphase o ho]

end Owner

variable {Ok : σ → Prop} {content : σ → List T} {Balance : List T → List T → Prop}
  {initial : List T}

/-- A step that leaves the consumers alone. -/
theorem Ordered.frame (h : Ordered Ok content Balance initial m) (hphase : m1.phase = m.phase)
    (howner : m1.owner = m.owner) (hfirst : m1.firstInit = m.firstInit)
    (hconsumed : m1.nbConsumed = m.nbConsumed)
    (hbuffers : ∀ c, (m1.consumersBuffers c).nbNotified = (m.consumersBuffers c).nbNotified ∧
      (m1.consumersBuffers c).data = (m.consumersBuffers c).data)
    (htaken : taken m1.history = taken m.history)
    (hreads : ∀ c : Fin n, readBy c m1.history = readBy c m.history ∧
      received c m1.history = received c m.history)
    (hok : Ok m1.fifo)
    (hbalance : Balance (taken m.history ++ content m1.fifo) (initial ++ sourced m1.history)) :
    Ordered Ok content Balance initial m1 := by
  have hcounted : m1.counted = m.counted := by
    funext c
    rw [counted, counted, (hreads c).2, hphase]
  have hunsent := unsent_congr howner fun o _ => congrFun hphase o
  have hawaits := awaits_congr howner (fun o _ => congrFun hphase o) hfirst
  have hdone : m1.done = m.done := by
    rw [done, done, hcounted, htaken]
  constructor
  · exact hok
  · rwa [htaken]
  · intro c
    rw [(hbuffers c).1, (hbuffers c).2, h.counts c]
  · intro c
    rw [(hreads c).1, (hbuffers c).2, hunsent, htaken, h.shares c]
  · intro c
    rw [(hreads c).1, (hreads c).2, hphase, h.items c]
  · intro c
    rw [hphase, howner, h.owner c]
  · intro c
    rw [hphase, howner, hfirst]
    exact h.initialized c
  · intro c
    rw [howner, hconsumed]
    exact h.reset c
  · rw [hawaits, hcounted, htaken]
    exact h.allCounted
  · rw [hawaits, hcounted, htaken]
    exact h.oneBehind
  · rw [hawaits, hconsumed, hdone]
    exact h.consumed

theorem Ordered.event {e : ConsumerEvent T} {o : σ} {next : Nat}
    (h : Ordered Ok content Balance initial m) (he : e.Quiet) (hok : Ok o)
    (hbalance : Balance (taken m.history ++ content o)
      (initial ++ (sourced m.history ++ e.sourced.toList))) :
    Ordered Ok content Balance initial
      ({ m with fifo := o, currentSubscriberID := next }.log e) := by
  refine h.frame rfl rfl rfl rfl (fun _ => ⟨rfl, rfl⟩) ?_ (fun c => ⟨?_, ?_⟩) hok ?_
  · rw [log_history, taken_append, he.1]
    exact List.append_nil _
  · rw [log_history, readBy_append, (he.2 c).1]
    exact List.append_nil _
  · rw [log_history, received_append, (he.2 c).2]
    exact List.append_nil _
  · rw [log_history, sourced_append]
    exact hbalance

/-- The thread that runs `init` is the owner of the mutex. -/
theorem Ordered.ne_owner (h : Ordered Ok content Balance initial m)
    (hc : (m.phase c).inInit = false) {o : Fin n} (ho : m.owner = some o) : o ≠ c := by
  rintro rfl
  rw [(h.owner o).mpr ho] at hc
  cases hc

/-- A consumer moves outside of `init`, with the item it has. -/
theorem Ordered.setPhase {p : PopPhase T} (h : Ordered Ok content Balance initial m)
    (hbefore : (m.phase c).inInit = false) (hp : p.inInit = false)
    (hitem : p.item = (m.phase c).item) (hcounted : p.counted = (m.phase c).counted) :
    Ordered Ok content Balance initial (m.setPhase c p) := by
  have hother : ∀ o, m.owner = some o → (m.setPhase c p).phase o = m.phase o := fun o ho => by
    rw [setPhase_phase, if_neg (h.ne_owner hbefore ho)]
  have hphase := m.setPhase_phase c p
  have hcounted1 : (m.setPhase c p).counted = m.counted := by
    funext d
    rw [counted, counted, setPhase_history, phase_congr PopPhase.counted hphase hcounted]
  have howner : (m.setPhase c p).owner = m.owner := rfl
  have hunsent := unsent_congr howner hother
  have hawaits := awaits_congr howner hother rfl
  have hdone : (m.setPhase c p).done = m.done := by
    rw [done, done, hcounted1, setPhase_history]
  constructor
  · exact h.ok
  · exact h.balance
  · exact h.counts
  · intro d
    rw [hunsent]
    exact h.shares d
  · intro d
    rw [phase_congr PopPhase.item hphase hitem]
    exact h.items d
  · intro d
    rw [phase_congr PopPhase.inInit hphase (hp.trans hbefore.symm)]
    exact h.owner d
  · intro d hd
    rw [hother d hd]
    exact h.initialized d hd
  · exact h.reset
  · rw [hawaits, hcounted1]
    exact h.allCounted
  · rw [hawaits, hcounted1]
    exact h.oneBehind
  · rw [hawaits, hdone]
    exact h.consumed

/-- The consumer starts `init`, when every consumer has counted every item. -/
theorem Ordered.beginInit {item : Option T} (h : Ordered Ok content Balance initial m)
    (hfree : m.owner = none) (hitem : item = (m.phase c).item)
    (hfirst : item ≠ none → m.firstInit = false)
    (hall : ∀ d, (m.beginInit c item).counted d = (taken m.history).length) :
    Ordered Ok content Balance initial (m.beginInit c item) := by
  have howner : (m.beginInit c item).owner = some c := rfl
  have hphase : ∀ d, (m.beginInit c item).phase d = if d = c then .fetching item else m.phase d :=
    setPhase_phase _ c _
  have hawaits : (m.beginInit c item).Awaits := by
    rw [awaits_of_owner howner, hphase, if_pos rfl]
    exact ⟨item, rfl⟩
  constructor
  · exact h.ok
  · exact h.balance
  · exact h.counts
  · intro d
    have hshares := h.shares d
    rw [unsent_of_free hfree] at hshares
    rw [unsent_of_owner howner, hphase, if_pos rfl]
    exact hshares
  · intro d
    rw [hphase]
    by_cases hd : d = c
    · rw [if_pos hd, hd]
      exact hitem ▸ h.items c
    · rw [if_neg hd]
      exact h.items d
  · intro d
    rw [hphase, howner]
    by_cases hd : d = c
    · simp [hd, PopPhase.inInit]
    · rw [if_neg hd, h.owner d, hfree]
      simp [Ne.symm hd]
  · intro d hd
    obtain rfl : c = d := Option.some.inj hd
    rw [hphase, if_pos rfl]
    exact hfirst
  · exact fun _ _ => rfl
  · exact fun _ => hall
  · exact fun hn => absurd hawaits hn
  · exact fun hn => absurd hawaits hn

/-- The consumer takes the next item from the source. -/
theorem Ordered.fetch {item : Option T} {value : T} {o : σ}
    (h : Ordered Ok content Balance initial m) (hphase : m.phase c = .fetching item) (hok : Ok o)
    (hcontent : content m.fifo = value :: content o) :
    Ordered Ok content Balance initial
      (({ m with fifo := o }.setPhase c (.pushing item value 0)).log
        (.fetched (.flag true (some value)))) := by
  have howner : m.owner = some c := (h.owner c).mp (by rw [hphase]; rfl)
  have hawaits : m.Awaits := (awaits_of_owner howner).mpr ⟨item, hphase⟩
  have htaken : ∀ history : List (ConsumerEvent T),
      taken (history ++ [.fetched (.flag true (some value))]) = taken history ++ [value] :=
    fun history => taken_append history _
  generalize hm1 : ({ m with fifo := o }.setPhase c (.pushing item value 0)).log
    (.fetched (.flag true (some value))) = m1
  have howner1 : m1.owner = some c := by rw [← hm1]; exact howner
  have hhistory : m1.history = m.history ++ [.fetched (.flag true (some value))] := by
    rw [← hm1]
    rfl
  have hphase1 : ∀ d, m1.phase d = if d = c then .pushing item value 0 else m.phase d := by
    rw [← hm1]
    exact setPhase_phase _ c _
  have hreceived : ∀ d : Fin n, received d m1.history = received d m.history := fun d => by
    rw [hhistory, received_append]
    exact List.append_nil _
  have hreadBy : ∀ d : Fin n, readBy d m1.history = readBy d m.history := fun d => by
    rw [hhistory, readBy_append]
    exact List.append_nil _
  have hcounted : ∀ d, m1.counted d = (taken m.history).length := by
    intro d
    rw [← h.allCounted hawaits d, counted, counted, hreceived]
    rw [phase_congr PopPhase.counted hphase1 (by rw [hphase]; cases item <;> rfl)]
  have hmoves : ¬ m1.Awaits := by
    rw [awaits_of_owner howner1, hphase1, if_pos rfl]
    simp
  constructor
  · rw [← hm1]
    exact hok
  · have hbalance := h.balance
    rw [hcontent] at hbalance
    rw [hhistory, htaken, sourced_append]
    simpa [ConsumerEvent.sourced, ← hm1] using hbalance
  · rw [← hm1]
    exact h.counts
  · intro d
    have hshares := h.shares d
    rw [unsent_of_owner howner, hphase] at hshares
    rw [hreadBy, hhistory, htaken, ← hshares, unsent_of_owner howner1, hphase1, if_pos rfl, ← hm1]
    simp [PopPhase.unsent]
  · intro d
    rw [hreadBy, hreceived, phase_congr PopPhase.item hphase1 (by rw [hphase]; rfl), h.items d]
  · intro d
    rw [phase_congr PopPhase.inInit hphase1 (by rw [hphase]; rfl), h.owner d, howner1, howner]
  · intro d hd
    obtain rfl : c = d := Option.some.inj (howner1.symm.trans hd)
    rw [hphase1, if_pos rfl, ← hm1]
    exact fun hitem => h.initialized c howner (by rw [hphase]; exact hitem)
  · intro d _
    rw [← hm1]
    exact h.reset c howner
  · exact fun hn => absurd hn hmoves
  · intro _ d
    rw [hcounted, hhistory, htaken, List.length_append]
    exact Nat.le_refl _
  · intro _
    have hzero : m1.nbConsumed = 0 := by rw [← hm1]; exact h.reset c howner
    have hnobody : m1.done = ∅ := by
      refine Finset.filter_eq_empty_iff.mpr fun d _ => ?_
      rw [hcounted, hhistory, htaken, List.length_append]
      simp
    rw [hzero, hnobody]
    exact ⟨rfl, Fin.pos c⟩

/-- The loop of `init` pushes the item to one more buffer. -/
theorem Ordered.send {item : Option T} {value : T} {next : Nat}
    (h : Ordered Ok content Balance initial m) (hphase : m.phase c = .pushing item value next)
    (hnext : next < n) :
    Ordered Ok content Balance initial
      ((m.setBuffer ⟨next, hnext⟩ ((m.consumersBuffers ⟨next, hnext⟩).push value).object).setPhase
        c (.pushing item value (next + 1))) := by
  have howner : m.owner = some c := (h.owner c).mp (by rw [hphase]; rfl)
  generalize hm1 :
    (m.setBuffer ⟨next, hnext⟩ ((m.consumersBuffers ⟨next, hnext⟩).push value).object).setPhase
      c (.pushing item value (next + 1)) = m1
  have howner1 : m1.owner = some c := by rw [← hm1]; exact howner
  have hhistory : m1.history = m.history := by rw [← hm1]; rfl
  have hphase1 : ∀ d, m1.phase d = if d = c then .pushing item value (next + 1) else m.phase d := by
    rw [← hm1]
    exact setPhase_phase _ c _
  have hbuffers : ∀ d, m1.consumersBuffers d = if d = ⟨next, hnext⟩ then
      ((m.consumersBuffers ⟨next, hnext⟩).push value).object else m.consumersBuffers d := by
    rw [← hm1]
    exact setBuffer_consumersBuffers m _ _
  have hmoves : ¬ m.Awaits := by
    rw [awaits_of_owner howner, hphase]
    simp
  have hmoves1 : ¬ m1.Awaits := by
    rw [awaits_of_owner howner1, hphase1, if_pos rfl]
    simp
  have hcounted : m1.counted = m.counted := by
    funext d
    rw [counted, counted, hhistory]
    rw [phase_congr PopPhase.counted hphase1 (by rw [hphase]; cases item <;> rfl)]
  have hdone : m1.done = m.done := by rw [done, done, hcounted, hhistory]
  constructor
  · rw [← hm1]
    exact h.ok
  · rw [hhistory, ← hm1]
    exact h.balance
  · intro d
    rw [hbuffers]
    split
    · show (m.consumersBuffers ⟨next, hnext⟩).nbNotified + 1 =
        (value :: (m.consumersBuffers ⟨next, hnext⟩).data).length
      rw [h.counts, List.length_cons]
    · exact h.counts d
  · intro d
    have hshares := h.shares d
    rw [unsent_of_owner howner, hphase] at hshares
    rw [hhistory, ← hshares, unsent_of_owner howner1, hphase1, if_pos rfl, hbuffers]
    by_cases hd : d = ⟨next, hnext⟩
    · rw [if_pos hd, hd]
      show _ ++ (value :: (m.consumersBuffers ⟨next, hnext⟩).data).reverse ++ _ = _
      simp [PopPhase.unsent]
    · have hval : d.val ≠ next := fun heq => hd (Fin.ext heq)
      have hiff : next + 1 ≤ d.val ↔ next ≤ d.val := by omega
      rw [if_neg hd]
      simp [PopPhase.unsent, hiff]
  · intro d
    rw [hhistory, phase_congr PopPhase.item hphase1 (by rw [hphase]; rfl), h.items d]
  · intro d
    rw [phase_congr PopPhase.inInit hphase1 (by rw [hphase]; rfl), h.owner d, howner1, howner]
  · intro d hd
    obtain rfl : c = d := Option.some.inj (howner1.symm.trans hd)
    rw [hphase1, if_pos rfl, ← hm1]
    exact fun hitem => h.initialized c howner (by rw [hphase]; exact hitem)
  · intro d _
    rw [← hm1]
    exact h.reset c howner
  · exact fun hn => absurd hn hmoves1
  · rw [hcounted, hhistory]
    exact fun _ => h.oneBehind hmoves
  · rw [hdone, ← hm1]
    exact fun _ => h.consumed hmoves

/-- The first `init` ends: the consumer has no item yet. -/
theorem Ordered.endFirstInit {value : T} {next : Nat} (h : Ordered Ok content Balance initial m)
    (hphase : m.phase c = .pushing none value next) (hnext : n ≤ next) :
    Ordered Ok content Balance initial (m.endInit c none) := by
  have howner : m.owner = some c := (h.owner c).mp (by rw [hphase]; rfl)
  have hmoves : ¬ m.Awaits := by
    rw [awaits_of_owner howner, hphase]
    simp
  have howner1 : (m.endInit c none).owner = none := rfl
  have hphase1 : ∀ d, (m.endInit c none).phase d = if d = c then .reading else m.phase d :=
    setPhase_phase _ c _
  have hmoves1 : ¬ (m.endInit c none).Awaits := by
    rw [awaits_of_free howner1]
    exact Bool.false_ne_true
  have hcounted : (m.endInit c none).counted = m.counted := by
    funext d
    rw [counted, counted, hphase1]
    by_cases hd : d = c
    · rw [if_pos hd, hd, hphase]
      rfl
    · rw [if_neg hd]
      rfl
  have hdone : (m.endInit c none).done = m.done := by
    rw [done, done, hcounted]
    rfl
  constructor
  · exact h.ok
  · exact h.balance
  · exact h.counts
  · intro d
    have hshares := h.shares d
    have hsent : ¬ next ≤ d.val := by omega
    rw [unsent_of_owner howner, hphase] at hshares
    rw [unsent_of_free howner1]
    show readBy d m.history ++ (m.consumersBuffers d).data.reverse ++ [] = taken m.history
    simpa [PopPhase.unsent, hsent] using hshares
  · intro d
    rw [hphase1]
    by_cases hd : d = c
    · have hitems := h.items c
      rw [hphase] at hitems
      rw [if_pos hd, hd]
      exact hitems
    · rw [if_neg hd]
      exact h.items d
  · intro d
    rw [hphase1, howner1]
    by_cases hd : d = c
    · simp [hd, PopPhase.inInit]
    · rw [if_neg hd, h.owner d, howner]
      simp [Ne.symm hd]
  · exact fun _ _ _ => rfl
  · exact fun d hd => nomatch hd
  · exact fun hn => absurd hn hmoves1
  · rw [hcounted]
    exact fun _ => h.oneBehind hmoves
  · rw [hdone]
    exact fun _ => h.consumed hmoves

/-- `pop` returns the item. -/
def leave (m : MultiConsumer T σ n) (c : Fin n) (item : T) (consumed : Nat) :
    MultiConsumer T σ n :=
  ({ m with owner := none, nbConsumed := consumed }.setPhase c .outside).log (.returned c item)

theorem leave_counted (m : MultiConsumer T σ n) (c : Fin n) (item : T) (consumed : Nat) :
    (m.leave c item consumed).counted =
      Function.update m.counted c ((received c m.history).length + 1) := by
  funext d
  have hphase : (m.leave c item consumed).phase d = if d = c then .outside else m.phase d :=
    setPhase_phase _ c _ d
  have hreceived : received d (m.leave c item consumed).history = received d m.history ++
      ((ConsumerEvent.returned c item).received d).toList := received_append _ _ _
  rw [counted, hreceived, hphase, Function.update_apply]
  by_cases hd : d = c
  · simp [hd, ConsumerEvent.received, PopPhase.counted]
  · simp [hd, ConsumerEvent.received, Fin.val_inj, Ne.symm hd, counted]

theorem Ordered.leave {item : T} {consumed : Nat} (h : Ordered Ok content Balance initial m)
    (hitem : (m.phase c).item = some item) (hmoves : ¬ m.Awaits) (hsent : ∀ d, m.unsent d = [])
    (howner : ∀ o, m.owner = some o → o = c) (hfirst : m.firstInit = false)
    (hconsumed : consumed = (m.leave c item consumed).done.card ∧ consumed < n) :
    Ordered Ok content Balance initial (m.leave c item consumed) := by
  generalize hm1 : m.leave c item consumed = m1 at hconsumed ⊢
  have howner1 : m1.owner = none := by rw [← hm1]; rfl
  have hfirst1 : m1.firstInit = false := by rw [← hm1]; exact hfirst
  have hmoves1 : ¬ m1.Awaits := by
    rw [awaits_of_free howner1, hfirst1]
    exact Bool.false_ne_true
  have hphase1 : ∀ d, m1.phase d = if d = c then .outside else m.phase d := by
    rw [← hm1]
    exact setPhase_phase _ c _
  have hhistory : m1.history = m.history ++ [.returned c item] := by rw [← hm1]; rfl
  have htaken : taken m1.history = taken m.history := by
    rw [hhistory, taken_append]
    exact List.append_nil _
  have hsourced : sourced m1.history = sourced m.history := by
    rw [hhistory, sourced_append]
    exact List.append_nil _
  have hreadBy : ∀ d : Fin n, readBy d m1.history = readBy d m.history := by
    intro d
    rw [hhistory, readBy_append]
    exact List.append_nil _
  constructor
  · rw [← hm1]
    exact h.ok
  · rw [htaken, hsourced, ← hm1]
    exact h.balance
  · rw [← hm1]
    exact h.counts
  · intro d
    have hshares := h.shares d
    rw [hsent] at hshares
    rw [hreadBy, htaken, unsent_of_free howner1, ← hm1]
    exact hshares
  · intro d
    rw [hreadBy, h.items d, hhistory, received_append, hphase1]
    by_cases hd : d = c
    · rw [if_pos hd, hd, hitem]
      simp [ConsumerEvent.received, PopPhase.item]
    · rw [if_neg hd]
      simp [ConsumerEvent.received, Fin.val_inj, Ne.symm hd]
  · intro d
    rw [hphase1, howner1]
    by_cases hd : d = c
    · simp [hd, PopPhase.inInit]
    · rw [if_neg hd, h.owner d]
      constructor
      · exact fun ho => absurd (howner d ho) hd
      · exact fun ho => nomatch ho
  · exact fun _ _ _ => hfirst1
  · intro d hd
    rw [howner1] at hd
    cases hd
  · exact fun hn => absurd hn hmoves1
  · intro _ d
    have hbehind := h.oneBehind hmoves d
    rw [htaken, ← hm1, leave_counted, Function.update_apply]
    split
    · rename_i hd
      have hle := (m.phase c).counted_le_one
      rw [hd, counted] at hbehind
      omega
    · exact hbehind
  · intro _
    rw [← hm1] at hconsumed ⊢
    exact hconsumed

/-- The last buffer has been pushed to, and `pop` returns the item. -/
theorem Ordered.endInit {item value : T} {next : Nat} (h : Ordered Ok content Balance initial m)
    (hphase : m.phase c = .pushing (some item) value next) (hnext : n ≤ next) :
    Ordered Ok content Balance initial (m.endInit c (some item)) := by
  have howner : m.owner = some c := (h.owner c).mp (by rw [hphase]; rfl)
  have hmoves : ¬ m.Awaits := by
    rw [awaits_of_owner howner, hphase]
    simp
  have hcounted : (m.leave c item m.nbConsumed).counted = m.counted := by
    rw [leave_counted]
    have hself : (received c m.history).length + 1 = m.counted c := by
      rw [counted, hphase]
      rfl
    rw [hself, Function.update_eq_self]
  have hdone : (m.leave c item m.nbConsumed).done = m.done := by
    have htaken : taken (m.leave c item m.nbConsumed).history = taken m.history :=
      (taken_append _ _).trans (List.append_nil _)
    rw [done, done, hcounted, htaken]
  refine h.leave (by rw [hphase]; rfl) hmoves ?_ ?_ ?_ (hdone ▸ h.consumed hmoves)
  · intro d
    have hsent : ¬ next ≤ d.val := by omega
    rw [unsent_of_owner howner, hphase]
    simp [PopPhase.unsent, hsent]
  · intro o ho
    exact Option.some.inj (ho.symm.trans howner)
  · exact h.initialized c howner (by rw [hphase]; simp [PopPhase.item])

/-- The consumer pops an item from its buffer. -/
theorem Ordered.read {item : T} {b : SharedFifo T} (h : Ordered Ok content Balance initial m)
    (hphase : m.phase c = .reading) (hcounts : b.nbNotified = b.data.length)
    (hdata : (m.consumersBuffers c).data.reverse = item :: b.data.reverse) :
    Ordered Ok content Balance initial
      (((m.setBuffer c b).log (.read c (.value item))).setPhase c (.counting item)) := by
  generalize hm1 :
    ((m.setBuffer c b).log (.read c (.value item))).setPhase c (.counting item) = m1
  have howner1 : m1.owner = m.owner := by rw [← hm1]; rfl
  have hphase1 : ∀ d, m1.phase d = if d = c then .counting item else m.phase d := by
    rw [← hm1]
    exact setPhase_phase _ c _
  have hother : ∀ o, m.owner = some o → m1.phase o = m.phase o := by
    intro o ho
    rw [hphase1, if_neg (h.ne_owner (by rw [hphase]; rfl) ho)]
  have hhistory : m1.history = m.history ++ [.read c (.value item)] := by rw [← hm1]; rfl
  have htaken : taken m1.history = taken m.history := by
    rw [hhistory, taken_append]
    exact List.append_nil _
  have hsourced : sourced m1.history = sourced m.history := by
    rw [hhistory, sourced_append]
    exact List.append_nil _
  have hreceived : ∀ d : Fin n, received d m1.history = received d m.history := by
    intro d
    rw [hhistory, received_append]
    exact List.append_nil _
  have hreadBy : ∀ d : Fin n,
      readBy d m1.history = readBy d m.history ++ if d = c then [item] else [] := by
    intro d
    rw [hhistory, readBy_append]
    by_cases hd : d = c
    · simp [hd, ConsumerEvent.readBy]
    · simp [hd, ConsumerEvent.readBy, Fin.val_inj, Ne.symm hd]
  have hbuffers : ∀ d, m1.consumersBuffers d = if d = c then b else m.consumersBuffers d := by
    rw [← hm1]
    exact setBuffer_consumersBuffers m c b
  have hunsent := unsent_congr howner1 hother
  have hawaits := awaits_congr howner1 hother (by rw [← hm1]; rfl)
  have hcounted : m1.counted = m.counted := by
    funext d
    rw [counted, counted, hreceived]
    rw [phase_congr PopPhase.counted hphase1 (by rw [hphase]; rfl)]
  have hdone : m1.done = m.done := by rw [done, done, hcounted, htaken]
  constructor
  · rw [← hm1]
    exact h.ok
  · rw [htaken, hsourced, ← hm1]
    exact h.balance
  · intro d
    rw [hbuffers]
    split
    · exact hcounts
    · exact h.counts d
  · intro d
    rw [htaken, ← h.shares d, hreadBy, hbuffers, hunsent]
    by_cases hd : d = c
    · rw [if_pos hd, if_pos hd, hd, hdata]
      simp
    · rw [if_neg hd, if_neg hd]
      simp
  · intro d
    rw [hreadBy, hreceived, h.items d, hphase1]
    by_cases hd : d = c
    · rw [if_pos hd, if_pos hd, hd, hphase]
      simp [PopPhase.item]
    · rw [if_neg hd, if_neg hd, List.append_nil]
  · intro d
    rw [phase_congr PopPhase.inInit hphase1 (by rw [hphase]; rfl), h.owner d, howner1]
  · intro d hd
    rw [howner1] at hd
    rw [hother d hd, ← hm1]
    exact h.initialized d hd
  · intro d hd
    rw [howner1] at hd
    rw [← hm1]
    exact h.reset d hd
  · rw [hawaits, hcounted, htaken]
    exact h.allCounted
  · rw [hawaits, hcounted, htaken]
    exact h.oneBehind
  · rw [hawaits, hdone, ← hm1]
    exact h.consumed

/-- A consumer has read what it has counted, and at most the item it is about to
count. -/
theorem Ordered.readBy_length (h : Ordered Ok content Balance initial m) (c : Fin n) :
    m.counted c ≤ (readBy c m.history).length ∧
      (readBy c m.history).length ≤ (taken m.history).length := by
  constructor
  · have hle := (m.phase c).counted_le_item
    rw [h.items c, List.length_append, counted]
    omega
  · rw [← h.shares c, List.append_assoc, List.length_append]
    omega

/-- Before the second section the item has not been counted, and the consumer is
one behind. -/
theorem Ordered.counting {item : T} (h : Ordered Ok content Balance initial m)
    (hphase : m.phase c = .counting item) :
    ¬ m.Awaits ∧ (received c m.history).length + 1 = (taken m.history).length := by
  have hcounted : m.counted c = (received c m.history).length := by
    rw [counted, hphase]
    rfl
  have hread : (readBy c m.history).length = (received c m.history).length + 1 := by
    rw [h.items c, hphase, List.length_append]
    rfl
  have hle := (h.readBy_length c).2
  have hmoves : ¬ m.Awaits := by
    intro hawaits
    have hall := h.allCounted hawaits c
    omega
  have hbehind := h.oneBehind hmoves c
  exact ⟨hmoves, by omega⟩

/-- The consumer counts its item; the last one starts `init`. -/
theorem Ordered.count {item : T} (h : Ordered Ok content Balance initial m)
    (hphase : m.phase c = .counting item) (hfree : m.owner = none) :
    Ordered Ok content Balance initial (m.count c item) := by
  obtain ⟨hmoves, hbehind⟩ := h.counting hphase
  obtain ⟨hconsumed, hlt⟩ := h.consumed hmoves
  have hfirst : m.firstInit = false := by
    simpa [awaits_of_free hfree] using hmoves
  have hnotDone : c ∉ m.done := by
    have hcounted : m.counted c = (received c m.history).length := by
      rw [counted, hphase]
      rfl
    simp only [done, Finset.mem_filter, Finset.mem_univ, true_and]
    omega
  unfold MultiConsumer.count
  split
  · rename_i hlast
    -- with this consumer, all of them have counted the item
    have hall : insert c m.done = Finset.univ := by
      rw [← Finset.card_eq_iff_eq_univ, Finset.card_insert_of_notMem hnotDone, ← hconsumed, hlast,
        Fintype.card_fin]
    refine h.beginInit hfree (by rw [hphase]; rfl) (fun _ => hfirst) fun d => ?_
    have hphase1 : (m.beginInit c (some item)).phase d =
        if d = c then .fetching (some item) else m.phase d := setPhase_phase _ c _ d
    rw [counted, hphase1]
    by_cases hd : d = c
    · rw [if_pos hd, hd]
      exact hbehind
    · have hmem : d ∈ insert c m.done := hall ▸ Finset.mem_univ d
      have hcounted : m.counted d = (taken m.history).length := by simpa [hd, done] using hmem
      rw [if_neg hd]
      exact hcounted
  · rename_i hnotLast
    have heq : ({ m with nbConsumed := m.nbConsumed + 1 }.setPhase c .outside).log
        (.returned c item) = m.leave c item (m.nbConsumed + 1) := by
      rw [MultiConsumer.leave, ← hfree]
    rw [heq]
    refine h.leave (by rw [hphase]; rfl) hmoves (unsent_of_free hfree) ?_ hfirst ⟨?_, by omega⟩
    · intro o ho
      rw [hfree] at ho
      cases ho
    · have htaken : taken (m.leave c item (m.nbConsumed + 1)).history = taken m.history :=
        (taken_append _ _).trans (List.append_nil _)
      have hdone : (m.leave c item (m.nbConsumed + 1)).done = insert c m.done := by
        ext d
        simp only [done, leave_counted, htaken, Finset.mem_filter, Finset.mem_univ, true_and,
          Finset.mem_insert, Function.update_apply]
        by_cases hd : d = c
        · simp [hd, hbehind]
        · simp [hd]
      rw [hdone, Finset.card_insert_of_notMem hnotDone, ← hconsumed]

/-! ## Runs -/

/-- `init` does not take from a source that is released and empty. -/
def fetchesItem (C : FifoClass T σ) (m : MultiConsumer T σ n) : ConsumerAction T n → Bool
  | .pop c =>
    match m.phase c with
    | .fetching _ => !C.isAborted m.fifo
    | _ => true
  | _ => true

def Fetches (C : FifoClass T σ) (m : MultiConsumer T σ n) (a : ConsumerAction T n) : Prop :=
  fetchesItem C m a = true

variable {C : FifoClass T σ} {keep : List T → List T}

/-- A push, after which `keep` says what stays, keeps the balance. -/
structure Balances (keep : List T → List T) (Balance : List T → List T → Prop) : Prop where
  refl : ∀ items, Balance items items
  push : ∀ {out items all}, Balance (out ++ items) all → ∀ value,
    Balance (out ++ keep (items ++ [value])) (all ++ [value])

theorem balances_sublist (hkeep : ∀ items, keep items <:+ items) : Balances keep List.Sublist where
  refl := List.Sublist.refl
  push := by
    intro out items all h value
    calc (out ++ keep (items ++ [value])).Sublist (out ++ (items ++ [value])) :=
          (hkeep _).sublist.append_left _
      _ = (out ++ items) ++ [value] := (List.append_assoc _ _ _).symm
      List.Sublist _ (all ++ [value]) := h.append_right _

theorem balances_eq (hkeep : ∀ items, keep items = items) : Balances keep Eq where
  refl := fun _ => rfl
  push := by
    rintro out items all rfl value
    rw [hkeep, List.append_assoc]

/-- The pop of a source that is not aborted. -/
theorem body_popInto (hC : C.Holds Ok content keep) {o : σ} (ho : Ok o)
    (hwaits : C.waitsOn .popInto false o = none) (habort : C.isAborted o = false) :
    ∃ value o1, C.body .popInto false o = ⟨o1, .flag true (some value), C.doPopNotifies⟩ ∧
      Ok o1 ∧ content o = value :: content o1 := by
  have hwait : C.mustWait o = false := by simpa [FifoClass.waitsOn] using hwaits
  obtain ⟨value, o1, hpop, hok, hcontent⟩ :=
    hC.doPop ho (FifoClass.stored_of_not_aborted hwait habort)
  exact ⟨value, o1, by simp [FifoClass.body, habort, FifoClass.popWith, hpop], hok, hcontent⟩

/-- Where `init` finds an item, or the source can still get one, the consumers
stay in order. -/
theorem Ordered.step [Inhabited T] (hC : C.Holds Ok content keep)
    (hkeep : Balances keep Balance) (h : Ordered Ok content Balance initial m)
    {a : ConsumerAction T n} (ha : Fetches C m a) (hstep : step C m a = some m1) :
    Ordered Ok content Balance initial m1 := by
  cases effect_of_step hstep with
  | @pushes value hwaits =>
    obtain ⟨hok, houtcome⟩ := hC.push value h.ok hwaits
    refine h.event ⟨rfl, fun _ => ⟨rfl, rfl⟩⟩ hok ?_
    rcases houtcome with ⟨hdone, hcontent⟩ | ⟨what, hthrows, hcontent⟩
    · rw [hdone, hcontent]
      rw [← List.append_assoc]
      exact hkeep.push h.balance value
    · rw [hthrows, hcontent]
      simpa [ConsumerEvent.sourced] using h.balance
  | subscribes =>
    refine h.event ⟨rfl, fun _ => ⟨rfl, rfl⟩⟩ h.ok ?_
    simpa [ConsumerEvent.sourced] using h.balance
  | rejects =>
    refine h.event ⟨rfl, fun _ => ⟨rfl, rfl⟩⟩ h.ok ?_
    simpa [ConsumerEvent.sourced] using h.balance
  | enters hphase hfree hfirst =>
    exact h.setPhase (by rw [hphase]; rfl) rfl (by rw [hphase]; rfl) (by rw [hphase]; rfl)
  | @begins c hphase hfree hfirst =>
    refine h.beginInit hfree (by rw [hphase]; rfl) (fun hne => absurd rfl hne) fun d => ?_
    rw [← h.allCounted ((awaits_of_free hfree).mpr hfirst) d, counted, counted]
    have hphase1 : (m.beginInit c none).phase d = if d = c then .fetching none else m.phase d :=
      setPhase_phase _ c _ d
    rw [hphase1]
    by_cases hd : d = c
    · rw [if_pos hd, hd, hphase]
      rfl
    · rw [if_neg hd]
      rfl
  | @fetches c item hphase hwaits =>
    obtain ⟨value, o, hbody, hok, hcontent⟩ :=
      body_popInto hC h.ok hwaits (by simpa [Fetches, fetchesItem, hphase] using ha)
    rw [hbody]
    exact h.fetch hphase hok hcontent
  | sends hphase hnext => exact h.send hphase hnext
  | @ends c item value next hphase hnext =>
    cases item with
    | none => exact h.endFirstInit hphase hnext
    | some item => exact h.endInit hphase hnext
  | @reads c b item hphase hwaits hbody =>
    have houtcome := (sharedFifo_isQueue T).holds.outcome (h.counts c) hwaits
    rw [hbody] at houtcome
    obtain ⟨hcounts, houtcome⟩ := houtcome
    refine h.read hphase hcounts ?_
    cases houtcome with
    | stores hcall hresult hcontent => cases hcall
    | takes hcall hpopped hcontent =>
      cases hpopped
      exact hcontent
    | keeps hcontent hpushed hpopped hdefined hempty => cases hpopped
  | @throws c hphase hwaits hthrows =>
    generalize ((sharedFifo T).body .pop false (m.consumersBuffers c)).result = answer at hthrows
    have hquiet : ConsumerEvent.Quiet (T := T) (.read c answer) := by
      cases answer with
      | value item => exact absurd rfl (hthrows item)
      | _ => exact ⟨rfl, fun _ => ⟨rfl, rfl⟩⟩
    have hlog : Ordered Ok content Balance initial (m.log (.read c answer)) :=
      h.event hquiet h.ok (by simpa [ConsumerEvent.sourced] using h.balance)
    exact hlog.setPhase (by rw [log_phase, hphase]; rfl) rfl (by rw [log_phase, hphase]; rfl)
      (by rw [log_phase, hphase]; rfl)
  | counts hphase hfree => exact h.count hphase hfree
  | releasesFifo =>
    obtain ⟨hok, hcontent⟩ := hC.release h.ok
    refine h.frame rfl rfl rfl rfl (fun _ => ⟨rfl, rfl⟩) rfl (fun _ => ⟨rfl, rfl⟩) hok ?_
    show Balance (taken m.history ++ content (C.release m.fifo)) _
    rw [hcontent]
    exact h.balance
  | @releasesBuffer c =>
    refine h.frame rfl rfl rfl rfl (fun d => ?_) rfl (fun _ => ⟨rfl, rfl⟩) h.ok h.balance
    rw [setBuffer_consumersBuffers]
    split
    · rename_i hd
      rw [hd]
      exact ⟨rfl, rfl⟩
    · exact ⟨rfl, rfl⟩

theorem ordered_new (hkeep : Balances keep Balance) {fifo : σ} (hok : Ok fifo) :
    Ordered Ok content Balance (content fifo) (new (T := T) n fifo) where
  ok := hok
  balance := by simpa [new, taken, sourced] using hkeep.refl (content fifo)
  counts := fun _ => rfl
  shares := fun _ => rfl
  items := fun _ => rfl
  owner := fun _ => ⟨nofun, nofun⟩
  initialized := nofun
  reset := nofun
  allCounted := fun _ _ => rfl
  oneBehind := fun hn => absurd rfl hn
  consumed := fun hn => absurd rfl hn

theorem ordered_of_runs [Inhabited T] (hC : C.Holds Ok content keep)
    (hkeep : Balances keep Balance) {fifo : σ} (hok : Ok fifo)
    (h : Runs (MultiConsumer.step C) (Fetches C) (new n fifo) m) :
    Ordered Ok content Balance (content fifo) m :=
  h.invariant (fun hs ha hstep => hs.step hC hkeep ha hstep) (ordered_new hkeep hok)

/-- The action is not a call of `release`. -/
def notReleased (_ : MultiConsumer T σ n) : ConsumerAction T n → Bool
  | .releaseFifo | .releaseBuffer _ => false
  | _ => true

def NotReleased (m : MultiConsumer T σ n) (a : ConsumerAction T n) : Prop :=
  notReleased m a = true

/-- A source that nobody releases is never aborted. -/
theorem fetches_of_notReleased [Inhabited T] (hR : C.KeepsReleased) {fifo : σ}
    (hfifo : (C.members fifo).released = false)
    (h : Runs (MultiConsumer.step C) NotReleased (new n fifo) m) :
    Runs (MultiConsumer.step C) (Fetches C) (new n fifo) m := by
  refine h.weaken (P := fun m => (C.members m.fifo).released = false) ?_ hfifo
  intro m a m1 hm ha hstep
  have habort : C.isAborted m.fifo = false := by simp [FifoClass.isAborted, hm]
  have hfetches : Fetches C m a := by
    unfold Fetches fetchesItem
    split
    · split
      · simp [habort]
      · rfl
    · rfl
  refine ⟨?_, hfetches⟩
  cases effect_of_step hstep with
  | pushes hwaits => exact (hR.push _ _).trans hm
  | fetches hphase hwaits =>
    show (C.members (C.body .popInto false m.fifo).object).released = false
    simp only [FifoClass.body, habort]
    exact (hR.popWith _ _).trans hm
  | @ends c item value next hphase hnext => cases item <;> exact hm
  | @counts c item hphase hfree =>
    unfold MultiConsumer.count
    split <;> exact hm
  | releasesFifo => cases ha
  | _ => exact hm

/-- In `init`, the consumer is the last one to count its item. -/
theorem Ordered.counted_le (h : Ordered Ok content Balance initial m) (c d : Fin n) :
    m.counted c ≤ (received d m.history).length + 1 := by
  have hc : m.counted c ≤ (taken m.history).length :=
    (h.readBy_length c).1.trans (h.readBy_length c).2
  have hd : m.counted d = (received d m.history).length + (m.phase d).counted := rfl
  have hle := (m.phase d).counted_le_one
  by_cases hawaits : m.Awaits
  · have hall := h.allCounted hawaits d
    omega
  · have hbehind := h.oneBehind hawaits d
    rcases Nat.eq_zero_or_pos (m.phase d).counted with hzero | hpos
    · omega
    · have howner := (h.owner d).mp (PopPhase.inInit_of_counted (by omega))
      have hnobody : m.done = ∅ := by
        rw [← Finset.card_eq_zero, ← (h.consumed hawaits).1, h.reset d howner]
      have hne : m.counted c ≠ (taken m.history).length := by
        intro heq
        have hmem : c ∈ m.done := Finset.mem_filter.mpr ⟨Finset.mem_univ c, heq⟩
        rw [hnobody] at hmem
        exact Finset.notMem_empty c hmem
      omega

theorem Ordered.taken_le (h : Ordered Ok content Balance initial m) (d : Fin n) :
    (taken m.history).length ≤ (readBy d m.history).length + 1 := by
  have hd := (h.readBy_length d).1
  by_cases hawaits : m.Awaits
  · have hall := h.allCounted hawaits d
    omega
  · have hbehind := h.oneBehind hawaits d
    omega

/-- Where the next item is to be taken, every consumer has popped all the items
taken so far. -/
theorem Ordered.all_read (h : Ordered Ok content Balance initial m) (hawaits : m.Awaits)
    (c : Fin n) : readBy c m.history = taken m.history := by
  have hprefix : readBy c m.history <+: taken m.history := by
    rw [← h.shares c, List.append_assoc]
    exact List.prefix_append _ _
  have hall := h.allCounted hawaits c
  have hread := h.readBy_length c
  exact hprefix.eq_of_length (by omega)

/-- Only `init` takes from the source. -/
theorem awaits_of_takes [Inhabited T] (h : Ordered Ok content Balance initial m)
    {a : ConsumerAction T n} (hstep : MultiConsumer.step C m a = some m1)
    (htakes : taken m1.history ≠ taken m.history) : m.Awaits := by
  have hlog : ∀ e : ConsumerEvent T, e.taken = none →
      taken (m.history ++ [e]) = taken m.history := by
    intro e he
    rw [taken_append, he]
    exact List.append_nil _
  cases effect_of_step hstep with
  | @fetches c item hphase hwaits =>
    have howner := (h.owner c).mp (by rw [hphase]; rfl)
    exact (awaits_of_owner howner).mpr ⟨item, hphase⟩
  | pushes | subscribes | rejects | throws => exact absurd (hlog _ rfl) htakes
  | reads => exact absurd (hlog _ rfl) htakes
  | @ends c item value next hphase hnext =>
    cases item with
    | none => exact absurd rfl htakes
    | some item => exact absurd (hlog _ rfl) htakes
  | @counts c item hphase hfree =>
    unfold MultiConsumer.count at htakes
    split at htakes
    · exact absurd rfl htakes
    · exact absurd (hlog _ rfl) htakes
  | _ => exact absurd rfl htakes

/-! ## Values that were pushed -/

/-- A pop of an own buffer gave a value, or threw. -/
def ReadsOrThrows (m : MultiConsumer T σ n) : Prop :=
  ∀ c answer, .read c answer ∈ m.history →
    (∃ value, answer = .value value) ∨ answer = .throws "IFifo::pop aborted"

theorem ReadsOrThrows.append {e : ConsumerEvent T} (h : m.ReadsOrThrows)
    (hhistory : m1.history = m.history ++ [e])
    (he : ∀ c answer, e = .read c answer →
      (∃ value, answer = .value value) ∨ answer = .throws "IFifo::pop aborted") :
    m1.ReadsOrThrows := by
  intro c answer hmem
  rw [hhistory] at hmem
  rcases List.mem_append.mp hmem with hold | hnew
  · exact h c answer hold
  · exact he c answer (List.mem_singleton.mp hnew).symm

/-- A buffer that is neither released nor empty gives a value. -/
theorem body_pop_throws {f : SharedFifo T} (hcounts : f.nbNotified = f.data.length)
    (hwaits : (sharedFifo T).waitsOn .pop false f = none)
    (hthrows : ∀ item, ((sharedFifo T).body .pop false f).result ≠ .value item) :
    ((sharedFifo T).body .pop false f).result = .throws "IFifo::pop aborted" := by
  have hwait : (sharedFifo T).mustWait f = false := by simpa [FifoClass.waitsOn] using hwaits
  cases habort : (sharedFifo T).isAborted f with
  | true => simp [FifoClass.body, habort]
  | false =>
    obtain ⟨value, f1, hpop, -, -⟩ := (sharedFifo_isQueue T).doPop hcounts
      (FifoClass.stored_of_not_aborted hwait habort)
    exact absurd (by simp [FifoClass.body, habort, FifoClass.popWith, hpop]) (hthrows value)

theorem ReadsOrThrows.step [Inhabited T] (hordered : Ordered Ok content Balance initial m)
    (h : m.ReadsOrThrows) {a : ConsumerAction T n} (hstep : MultiConsumer.step C m a = some m1) :
    m1.ReadsOrThrows := by
  cases effect_of_step hstep with
  | pushes | subscribes | rejects | fetches => exact h.append rfl nofun
  | @reads c b item hphase hwaits hbody =>
    refine h.append rfl fun d answer heq => ?_
    cases heq
    exact .inl ⟨item, rfl⟩
  | @throws c hphase hwaits hthrows =>
    refine h.append rfl fun d answer heq => ?_
    cases heq
    exact .inr (body_pop_throws (hordered.counts c) hwaits hthrows)
  | @ends c item value next hphase hnext =>
    cases item with
    | none => exact h
    | some item => exact h.append rfl nofun
  | @counts c item hphase hfree =>
    unfold MultiConsumer.count
    split
    · exact h
    · exact h.append rfl nofun
  | _ => exact h

end MultiConsumer

/-! ## Results -/

open MultiConsumer

/-- The consumers of a source that is never released receive its items in order,
each one once, and keep in step: the source gives the next item when all of them
have popped the last one. -/
theorem consumers_keep_in_step [Inhabited T] {C : FifoClass T σ} {Ok : σ → Prop}
    {content : σ → List T} {keep : List T → List T} (hC : C.Feeds Ok content keep)
    {fifo : σ} (hok : Ok fifo) (hfifo : (C.members fifo).released = false)
    {m : MultiConsumer T σ n}
    (h : Runs (MultiConsumer.step C) NotReleased (new n fifo) m) :
    (∀ c : Fin n, received c m.history <+: readBy c m.history ∧
      readBy c m.history <+: taken m.history) ∧
    (taken m.history).Sublist (content fifo ++ sourced m.history) ∧
    ((∀ items, keep items = items) → taken m.history <+: content fifo ++ sourced m.history) ∧
    (∀ c d : Fin n, (received c m.history).length ≤ (received d m.history).length + 1 ∧
      (readBy c m.history).length ≤ (readBy d m.history).length + 1) ∧
    ∀ a m1, MultiConsumer.step C m a = some m1 → taken m1.history ≠ taken m.history →
      ∀ c : Fin n, readBy c m.history = taken m.history := by
  have hruns := fetches_of_notReleased hC.keepsReleased hfifo h
  have hordered := ordered_of_runs hC.holds (balances_sublist hC.keep_suffix) hok hruns
  refine ⟨fun c => ⟨?_, ?_⟩, ?_, fun hall => ?_, fun c d => ⟨?_, ?_⟩, ?_⟩
  · rw [hordered.items c]
    exact List.prefix_append _ _
  · rw [← hordered.shares c, List.append_assoc]
    exact List.prefix_append _ _
  · exact (List.sublist_append_left _ _).trans hordered.balance
  · rw [← (ordered_of_runs hC.holds (balances_eq hall) hok hruns).balance]
    exact List.prefix_append _ _
  · have hle : (received c m.history).length ≤ m.counted c := Nat.le_add_right _ _
    exact hle.trans (hordered.counted_le c d)
  · exact (hordered.readBy_length c).2.trans (hordered.taken_le d)
  · exact fun a m1 hstep htakes => hordered.all_read (awaits_of_takes hordered hstep htakes)

def twoConsumersActions : List (ConsumerAction Nat 2) :=
  [.push 7, .push 8] ++ List.replicate 7 (.pop 0) ++ List.replicate 4 (.pop 1)

/-- Two consumers have popped the item 7, and the second one runs `init`. -/
def twoConsumers : MultiConsumer Nat (SharedFifo Nat) 2 :=
  (runs (MultiConsumer.step (sharedFifo Nat)) notReleased (new 2 SharedFifo.new)
    twoConsumersActions).getD (new 2 SharedFifo.new)

theorem consumers_keep_in_step_two :
    received 0 twoConsumers.history = [7] ∧ taken twoConsumers.history = [7, 8] ∧
      [7] <+: readBy 0 twoConsumers.history ∧ readBy 1 twoConsumers.history <+: [7, 8] := by
  have h : Runs (MultiConsumer.step (sharedFifo Nat)) NotReleased (new 2 SharedFifo.new)
      twoConsumers := by
    have hruns : runs (MultiConsumer.step (sharedFifo Nat)) notReleased (new 2 SharedFifo.new)
        twoConsumersActions = some twoConsumers := rfl
    exact .of_runs hruns
  have hresult := (consumers_keep_in_step (sharedFifo_feeds Nat) rfl rfl h).1
  exact ⟨rfl, rfl, (hresult 0).1, (hresult 1).2⟩

/-- If `init` never takes from a source that is released and empty, whatever else
is released, a call of `pop` returns a value of the source, which was there at
first or was pushed, or throws. -/
theorem consumers_get_pushed_values [Inhabited T] {C : FifoClass T σ} {Ok : σ → Prop}
    {content : σ → List T} {keep : List T → List T} (hC : C.Feeds Ok content keep)
    {fifo : σ} (hok : Ok fifo) {m : MultiConsumer T σ n}
    (h : Runs (MultiConsumer.step C) (Fetches C) (new n fifo) m) :
    (∀ c : Fin n, ∀ value ∈ received c m.history,
      value ∈ content fifo ++ sourced m.history) ∧ m.ReadsOrThrows := by
  have hbalances := balances_sublist hC.keep_suffix
  constructor
  · intro c value hmem
    have hordered := ordered_of_runs hC.holds hbalances hok h
    have hread : value ∈ readBy c m.history := by
      rw [hordered.items c]
      exact List.mem_append_left _ hmem
    have htaken : value ∈ taken m.history := by
      rw [← hordered.shares c, List.append_assoc]
      exact List.mem_append_left _ hread
    exact hordered.balance.subset (List.mem_append_left _ htaken)
  · have hkept : Ordered Ok content List.Sublist (content fifo) m ∧ m.ReadsOrThrows := by
      refine h.invariant (P := fun m => Ordered Ok content List.Sublist (content fifo) m ∧
        m.ReadsOrThrows) ?_ ⟨ordered_new hbalances hok, fun _ _ hmem => nomatch hmem⟩
      intro m a m1 hm ha hstep
      exact ⟨hm.1.step hC.holds hbalances ha hstep, hm.2.step hm.1 hstep⟩
    exact hkept.2

def releasedSourceActions : List (ConsumerAction Nat 1) :=
  [.push 7, .push 8, .releaseFifo] ++ List.replicate 9 (.pop 0) ++ [.releaseBuffer 0]

/-- The source is released when it holds one more item than `init` has taken. -/
def releasedSource : MultiConsumer Nat (SharedFifo Nat) 1 :=
  (runs (MultiConsumer.step (sharedFifo Nat)) (fetchesItem (sharedFifo Nat))
    (new 1 SharedFifo.new) releasedSourceActions).getD (new 1 SharedFifo.new)

theorem consumers_get_pushed_values_released :
    received 0 releasedSource.history = [7] ∧ (∀ value ∈ [7], value ∈ [7, 8]) ∧
      releasedSource.ReadsOrThrows := by
  have h : Runs (MultiConsumer.step (sharedFifo Nat)) (Fetches (sharedFifo Nat))
      (new 1 SharedFifo.new) releasedSource := by
    have hruns : runs (MultiConsumer.step (sharedFifo Nat)) (fetchesItem (sharedFifo Nat))
        (new 1 SharedFifo.new) releasedSourceActions = some releasedSource := rfl
    exact .of_runs hruns
  have hresult := consumers_get_pushed_values (sharedFifo_feeds Nat) rfl h
  exact ⟨rfl, hresult.1 0, hresult.2⟩

/-- One consumer has popped the only item, and the source is released: `init`
takes no item, and the consumer is given a value that nobody pushed. -/
theorem pop_returns_unpushed_value :
    ∃ m : MultiConsumer Nat (SharedFifo Nat) 1,
      Runs (MultiConsumer.step (sharedFifo Nat)) (fun _ _ => True) (new 1 SharedFifo.new) m ∧
        received 0 m.history = [7, 0] ∧ sourced m.history = [7] := by
  let actions : List (ConsumerAction Nat 1) :=
    [.push 7] ++ List.replicate 6 (.pop 0) ++ [.releaseFifo] ++ List.replicate 9 (.pop 0)
  have hruns : ∃ m : MultiConsumer Nat (SharedFifo Nat) 1,
      runs (MultiConsumer.step (sharedFifo Nat)) (fun _ _ => true) (new 1 SharedFifo.new) actions =
        some m ∧ received 0 m.history = [7, 0] ∧ sourced m.history = [7] := ⟨_, rfl, rfl, rfl⟩
  obtain ⟨m, hm, hreceived, hsourced⟩ := hruns
  exact ⟨m, (Runs.of_runs hm).weaken (P := fun _ => True) (fun _ _ _ => ⟨trivial, trivial⟩) trivial,
    hreceived, hsourced⟩

end Xpcf
