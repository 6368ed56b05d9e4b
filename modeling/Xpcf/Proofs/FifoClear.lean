import Xpcf.Model.FifoClasses

/-!
# Clearing a fifo

`clear` empties the deque, which for four of the classes is what the object
holds: it is then as the constructor left it.  The deque of a
`SharedCircularBuffer` is its cells; it is left with none, and the next `push`
writes outside of it.

* `Serves`: a class whose deque is the values that it holds;
* `clearLaw_iff`: the classes for which `clear` gives a fresh object.
-/

namespace Xpcf

open CodeLib

variable {T σ : Type}

/-! ## Classes whose deque is their values -/

/-- An object that holds the values `q`, its deque.  What else it keeps is the index
`i`, which no answer depends on. -/
structure FifoClass.Serves {ι : Type} (C : FifoClass T σ) (hold : ι → List T → σ)
    (put : T → List T → List T) (rest : List T → List T) : Prop where
  members : ∀ i q, C.members (hold i q) = ⟨q.length, q, false⟩
  pushWaitsOn : ∀ i j q, C.pushWaitsOn (hold i q) = C.pushWaitsOn (hold j q)
  push : ∀ i q v, C.pushWaitsOn (hold i q) = none →
    (∃ j, (C.push v (hold i q)).object = hold j (put v q)) ∧
      (C.push v (hold i q)).result = .done
  doPop : ∀ q, q ≠ [] → ∃ v, ∀ i, C.doPop (hold i q) = some (v, hold i (rest q))
  rest_nil : rest [] = []

/-- What a call leaves of the values. -/
def valuesAfter (put : T → List T → List T) (rest : List T → List T) (q : List T) :
    FifoCall T → List T
  | .push v => put v q
  | .back => q
  | .backInto => q
  | .pop => rest q
  | .popInto => rest q
  | .popFor => rest q
  | .tryPop => rest q

/-- The calls that wait for a value. -/
def FifoCall.needsValue : FifoCall T → Bool
  | .back | .backInto | .pop | .popInto | .popFor => true
  | .push _ | .tryPop => false

namespace FifoClass.Serves

variable {ι : Type} {C : FifoClass T σ} {hold : ι → List T → σ} {put : T → List T → List T}
  {rest : List T → List T}

theorem popWith (hC : C.Serves hold put rest) (answer : T → FifoAnswer T) {q : List T}
    (hq : q ≠ []) :
    ∃ v, ∀ i, C.popWith answer (hold i q) = ⟨hold i (rest q), answer v, C.doPopNotifies⟩ := by
  obtain ⟨v, hpop⟩ := hC.doPop q hq
  exact ⟨v, fun i => by unfold FifoClass.popWith; rw [hpop]⟩

theorem mustWait_iff (hC : C.Serves hold put rest) (i : ι) (q : List T) :
    C.mustWait (hold i q) = true ↔ q = [] := by
  unfold FifoClass.mustWait
  rw [hC.members i q]
  simp

theorem isAborted_eq (hC : C.Serves hold put rest) (i : ι) (q : List T) :
    C.isAborted (hold i q) = false := by
  unfold FifoClass.isAborted
  rw [hC.members i q]
  simp

/-- Whether a call waits depends on the values only. -/
theorem waitsOn_eq (hC : C.Serves hold put rest) (i j : ι) (q : List T) (c : FifoCall T) :
    C.waitsOn c false (hold i q) = C.waitsOn c false (hold j q) := by
  have hmust : C.mustWait (hold i q) = C.mustWait (hold j q) := by
    rw [Bool.eq_iff_iff, hC.mustWait_iff, hC.mustWait_iff]
  cases c with
  | push v => exact hC.pushWaitsOn i j q
  | tryPop => rfl
  | back | backInto | pop | popInto | popFor => simp [FifoClass.waitsOn, hmust]

/-- A call that needs a value and does not wait finds one. -/
theorem ne_nil_of_waitsOn (hC : C.Serves hold put rest) {i : ι} {q : List T} {c : FifoCall T}
    (hwaits : C.waitsOn c false (hold i q) = none) (hc : c.needsValue = true) : q ≠ [] := by
  intro hq
  have hmust := (hC.mustWait_iff i q).mpr hq
  cases c with
  | push v => cases hc
  | tryPop => cases hc
  | back | backInto | pop | popInto | popFor => simp [FifoClass.waitsOn, hmust] at hwaits

/-- A call that does not wait answers, and leaves the object holding the values that it
leaves. -/
theorem body_eq (hC : C.Serves hold put rest) {q : List T} {c : FifoCall T}
    (hwaits : ∀ i, C.waitsOn c false (hold i q) = none) :
    ∃ answer, answer ≠ .undefined ∧ ∀ i, (C.body c false (hold i q)).result = answer ∧
      ∃ j, (C.body c false (hold i q)).object = hold j (valuesAfter put rest q c) := by
  have hlast : q ≠ [] → ∃ v, ∀ i, (C.members (hold i q)).data.getLast? = some v := by
    intro hq
    refine ⟨q.getLast hq, fun i => ?_⟩
    rw [hC.members i q]
    exact List.getLast?_eq_some_getLast hq
  have hnb : ∀ i, (C.members (hold i q)).nbNotified = q.length := by
    intro i
    rw [hC.members i q]
  have hreleased : ∀ i, (C.members (hold i q)).released = false := by
    intro i
    rw [hC.members i q]
  -- a call that needs a value waits on an empty object, whatever the index
  have hne : c.needsValue = true → ∀ i : ι, q ≠ [] := fun hc i =>
    hC.ne_nil_of_waitsOn (hwaits i) hc
  by_cases hq : q = []
  · subst hq
    cases c with
    | push v =>
      refine ⟨.done, by simp, fun i => ?_⟩
      obtain ⟨hobject, hresult⟩ := hC.push i [] v (hwaits i)
      exact ⟨hresult, hobject⟩
    | tryPop =>
      refine ⟨.flag false none, by simp, fun i => ?_⟩
      simp only [FifoClass.body, hnb, valuesAfter, hC.rest_nil]
      exact ⟨rfl, i, rfl⟩
    | back | backInto | pop | popInto | popFor =>
      exact ⟨.done, by simp, fun i => absurd rfl (hne rfl i)⟩
  · obtain ⟨v, hv⟩ := hlast hq
    cases c with
    | push v =>
      refine ⟨.done, by simp, fun i => ?_⟩
      obtain ⟨hobject, hresult⟩ := hC.push i q v (hwaits i)
      exact ⟨hresult, hobject⟩
    | back =>
      refine ⟨.value v, by simp, fun i => ?_⟩
      simp only [FifoClass.body, hC.isAborted_eq, hv, valuesAfter]
      exact ⟨rfl, i, rfl⟩
    | backInto =>
      refine ⟨.flag false (some v), by simp, fun i => ?_⟩
      have hlength : q.length ≠ 0 := fun h => hq (List.length_eq_zero_iff.mp h)
      simp only [FifoClass.body, hnb, hv, hreleased, valuesAfter, if_pos hlength]
      exact ⟨trivial, i, rfl⟩
    | pop =>
      obtain ⟨u, hpop⟩ := hC.popWith .value hq
      refine ⟨.value u, by simp, fun i => ?_⟩
      simp only [FifoClass.body, hC.isAborted_eq, hpop, valuesAfter]
      exact ⟨rfl, i, rfl⟩
    | popInto =>
      obtain ⟨u, hpop⟩ := hC.popWith (fun value => .flag true (some value)) hq
      refine ⟨.flag true (some u), by simp, fun i => ?_⟩
      simp only [FifoClass.body, hC.isAborted_eq, hpop, valuesAfter]
      exact ⟨rfl, i, rfl⟩
    | popFor =>
      obtain ⟨u, hpop⟩ := hC.popWith (fun value => .flag true (some value)) hq
      refine ⟨.flag true (some u), by simp, fun i => ?_⟩
      simp only [FifoClass.body, hnb, hreleased, hpop, valuesAfter]
      exact ⟨rfl, i, rfl⟩
    | tryPop =>
      obtain ⟨u, hpop⟩ := hC.popWith (fun value => .flag true (some value)) hq
      refine ⟨.flag true (some u), by simp, fun i => ?_⟩
      have hlength : q.length > 0 := List.length_pos_iff.mpr hq
      simp only [FifoClass.body, hnb, hpop, valuesAfter, if_pos hlength]
      exact ⟨trivial, i, rfl⟩

end FifoClass.Serves

/-! ## The classes -/

namespace FifoKind

variable (k : FifoKind)

/-- What `push` does to the values, the newest first. -/
def put (v : T) (q : List T) : List T :=
  match k with
  | .sharedFifo => v :: q
  | .sharedLifo => v :: q
  | .dropBuffer => [v]
  | .sharedBuffer _ _ => v :: q
  | .sharedCircularBuffer size => (v :: q).take size

/-- What a pop leaves of the values. -/
def rest (q : List T) : List T :=
  match k with
  | .sharedFifo => q.dropLast
  | .sharedLifo => q.tail
  | .dropBuffer => q.tail
  | .sharedBuffer _ _ => q.dropLast
  | .sharedCircularBuffer _ => q.dropLast

/-- The values that are still in the queue after a call. -/
def queuedAfter (q : List T) : FifoOperation T → List T
  | .call c => valuesAfter k.put k.rest q c
  | .clear => []

/-- The values that are still in the queue after calls on a new object. -/
def queued (history : List (FifoOperation T)) : List T :=
  history.foldl k.queuedAfter []

theorem doPop_back {q : List T} (hq : q ≠ []) :
    SharedFifo.doPop ⟨q.length, q, false⟩ =
      some (q.getLast hq, ⟨q.dropLast.length, q.dropLast, false⟩) := by
  unfold SharedFifo.doPop
  simp [List.getLast?_eq_some_getLast hq]

theorem doPop_front {q : List T} (hq : q ≠ []) :
    SharedLifo.doPop ⟨q.length, q, false⟩ =
      some (q.head hq, ⟨q.tail.length, q.tail, false⟩) := by
  unfold SharedLifo.doPop
  simp [List.head?_eq_some_head hq]

section Holding

variable [Inhabited T]

/-- The object with another `m_started`, where it has this member. -/
def withStarted : (k : FifoKind) → Bool → k.State T → k.State T
  | .sharedFifo, _, o => o
  | .sharedLifo, _, o => o
  | .dropBuffer, _, o => o
  | .sharedBuffer _ _, started, o => { o with started := started }
  | .sharedCircularBuffer _, _, o => o

/-- The object whose deque is the values. -/
def holding (started : Bool) (q : List T) : k.State T :=
  k.withStarted started (k.withMembers ⟨q.length, q, false⟩ k.new)

/-- A push on a `SharedBuffer` may start it. -/
theorem push_sharedBuffer (max startAt : Nat) (started : Bool) (q : List T) (v : T) :
    (∃ started1, (((FifoKind.sharedBuffer max startAt).fifoClass T).push v
        ((FifoKind.sharedBuffer max startAt).holding started q)).object =
          (FifoKind.sharedBuffer max startAt).holding started1 (v :: q)) ∧
      (((FifoKind.sharedBuffer max startAt).fifoClass T).push v
        ((FifoKind.sharedBuffer max startAt).holding started q)).result = .done := by
  show (∃ started1, (SharedBuffer.push v _).object = _) ∧ (SharedBuffer.push v _).result = _
  unfold SharedBuffer.push
  rw [if_neg (by simp [holding, withStarted, withMembers])]
  dsimp only
  split
  · exact ⟨⟨started, rfl⟩, rfl⟩
  · split
    · exact ⟨⟨true, rfl⟩, rfl⟩
    · exact ⟨⟨started, rfl⟩, rfl⟩

/-- The deque of these classes is their values. -/
theorem serves (hk : ¬ ∃ size, k = .sharedCircularBuffer size) :
    (k.fifoClass T).Serves k.holding k.put k.rest := by
  cases k with
  | sharedFifo =>
    exact ⟨fun _ _ => rfl, fun _ _ _ => rfl, fun i _ _ _ => ⟨⟨i, rfl⟩, rfl⟩,
      fun q hq => ⟨_, fun _ => doPop_back hq⟩, rfl⟩
  | sharedLifo =>
    exact ⟨fun _ _ => rfl, fun _ _ _ => rfl, fun i _ _ _ => ⟨⟨i, rfl⟩, rfl⟩,
      fun q hq => ⟨_, fun _ => doPop_front hq⟩, rfl⟩
  | dropBuffer =>
    refine ⟨fun _ _ => rfl, fun _ _ _ => rfl, fun i q v _ => ?_,
      fun q hq => ⟨_, fun _ => doPop_front hq⟩, rfl⟩
    cases q with
    | nil => exact ⟨⟨i, rfl⟩, rfl⟩
    | cons u q => exact ⟨⟨i, rfl⟩, rfl⟩
  | sharedBuffer max startAt =>
    refine ⟨fun _ _ => rfl, fun _ _ _ => rfl, fun i q v _ => push_sharedBuffer max startAt i q v,
      fun q hq => ?_, rfl⟩
    have hpop := doPop_back hq
    refine ⟨q.getLast hq, fun i => ?_⟩
    show ((SharedFifo.doPop ⟨q.length, q, false⟩).map _) = _
    rw [hpop]
    rfl
  | sharedCircularBuffer size => exact absurd ⟨size, rfl⟩ hk

theorem clear_holding (hk : ¬ ∃ size, k = .sharedCircularBuffer size) (elements : ElementType T)
    (started : Bool) (q : List T) :
    k.clear elements (k.holding started q) =
      (FifoCleaner.cleanup elements q, k.holding started []) := by
  cases k with
  | sharedFifo => rfl
  | sharedLifo => rfl
  | dropBuffer => rfl
  | sharedBuffer max startAt => rfl
  | sharedCircularBuffer size => exact absurd ⟨size, rfl⟩ hk

theorem new_eq_holding (hk : ¬ ∃ size, k = .sharedCircularBuffer size) :
    ∃ started, (k.new : k.State T) = k.holding started [] := by
  cases k with
  | sharedFifo => exact ⟨true, rfl⟩
  | sharedLifo => exact ⟨true, rfl⟩
  | dropBuffer => exact ⟨true, rfl⟩
  | sharedBuffer max startAt => exact ⟨startAt = 0, rfl⟩
  | sharedCircularBuffer size => exact absurd ⟨size, rfl⟩ hk

/-- One call on an object of these classes waits, or answers according to the values. -/
theorem step_holding (hk : ¬ ∃ size, k = .sharedCircularBuffer size) (elements : ElementType T)
    (operation : FifoOperation T) (q : List T) :
    (∀ i, k.step elements operation (k.holding i q) = none) ∨
      ∃ output, output.answer ≠ .undefined ∧ ∀ i, ∃ j,
        k.step elements operation (k.holding i q) =
          some (output, k.holding j (k.queuedAfter q operation)) := by
  cases operation with
  | call c =>
    unfold step
    cases hwaits : (k.fifoClass T).waitsOn c false (k.holding true q) with
    | some condition =>
      refine .inl fun i => ?_
      rw [← (k.serves hk).waitsOn_eq i true q c] at hwaits
      simp [hwaits]
    | none =>
      have hall : ∀ i, (k.fifoClass T).waitsOn c false (k.holding i q) = none := fun i =>
        ((k.serves hk).waitsOn_eq i true q c).trans hwaits
      obtain ⟨answer, hdefined, hbody⟩ := (k.serves hk).body_eq hall
      refine .inr ⟨⟨answer, []⟩, hdefined, fun i => ?_⟩
      obtain ⟨hresult, j, hobject⟩ := hbody i
      refine ⟨j, ?_⟩
      simp only [hall i, hresult, hobject]
      rfl
  | clear =>
    refine .inr ⟨⟨.done, FifoCleaner.cleanup elements q⟩, nofun, fun i => ⟨i, ?_⟩⟩
    unfold step
    simp only [clear_holding k hk]
    rfl

/-- Calls one after the other: one of them waits, or the answers are those for the
values. -/
theorem run_holding (hk : ¬ ∃ size, k = .sharedCircularBuffer size) (elements : ElementType T)
    (operations : List (FifoOperation T)) (q : List T) :
    (∀ i, k.run elements operations (k.holding i q) = none) ∨
      ∃ outputs, (∀ output ∈ outputs, output.answer ≠ .undefined) ∧ ∀ i, ∃ j,
        k.run elements operations (k.holding i q) =
          some (outputs, k.holding j (operations.foldl k.queuedAfter q)) := by
  induction operations generalizing q with
  | nil => exact .inr ⟨[], nofun, fun i => ⟨i, rfl⟩⟩
  | cons operation operations ih =>
    unfold run
    rcases k.step_holding hk elements operation q with hwaits | ⟨output, hdefined, hstep⟩
    · exact .inl fun i => by rw [hwaits i]
    · rcases ih (k.queuedAfter q operation) with hlater | ⟨outputs, hall, hrun⟩
      · refine .inl fun i => ?_
        obtain ⟨j, hj⟩ := hstep i
        rw [hj]
        simp only [hlater j, Option.map_none]
      · refine .inr ⟨output :: outputs, ?_, fun i => ?_⟩
        · intro out hout
          rcases List.mem_cons.mp hout with rfl | hout
          · exact hdefined
          · exact hall out hout
        · obtain ⟨j, hj⟩ := hstep i
          obtain ⟨j1, hj1⟩ := hrun j
          refine ⟨j1, ?_⟩
          rw [hj]
          simp only [hj1, Option.map_some]
          rfl

/-- The object that calls on a new one lead to. -/
theorem holding_of_run (hk : ¬ ∃ size, k = .sharedCircularBuffer size) {elements : ElementType T}
    {operations : List (FifoOperation T)} {outputs : List (FifoOutput T)} {o : k.State T}
    (h : k.run elements operations k.new = some (outputs, o)) :
    ∃ started, o = k.holding started (k.queued operations) := by
  obtain ⟨i, hi⟩ := new_eq_holding (T := T) k hk
  rw [hi] at h
  rcases k.run_holding hk elements operations [] with hwaits | ⟨outputs1, -, hrun⟩
  · rw [hwaits i] at h
    cases h
  · obtain ⟨j, hj⟩ := hrun i
    rw [hj] at h
    cases h
    exact ⟨j, rfl⟩

end Holding

end FifoKind

/-! ## Fresh objects -/

section Clear

variable [Inhabited T] {k : FifoKind} {elements : ElementType T}
  {history : List (FifoOperation T)} {outputs : List (FifoOutput T)} {o : k.State T}

/-- After calls that left the object `o`, `clear` gives an object that answers any later
calls as a new one does, none of them undefined, and it frees the values that are still in
the queue. -/
structure ClearLaw (k : FifoKind) (elements : ElementType T) (history : List (FifoOperation T))
    (o : k.State T) : Prop where
  behaves : ∀ later, (k.run elements later (k.clear elements o).2).map Prod.fst =
    (k.run elements later k.new).map Prod.fst
  defined : ∀ later outputs o1,
    k.run elements later (k.clear elements o).2 = some (outputs, o1) →
      ∀ output ∈ outputs, output.answer ≠ .undefined
  frees : elements.isPointer = true → (k.clear elements o).1.Perm
    ((k.queued history).filter fun element => !elements.isNull element)

theorem clearLaw_of_queue (hk : ¬ ∃ size, k = .sharedCircularBuffer size)
    (hrun : k.run elements history k.new = some (outputs, o)) : ClearLaw k elements history o := by
  obtain ⟨i, rfl⟩ := k.holding_of_run hk hrun
  obtain ⟨i0, hnew⟩ := FifoKind.new_eq_holding (T := T) k hk
  refine ⟨fun later => ?_, fun later outputs1 o1 hlater => ?_, fun hpointer => ?_⟩
  · rw [k.clear_holding hk, hnew]
    rcases k.run_holding hk elements later [] with hwaits | ⟨outputs1, -, hlater⟩
    · rw [hwaits i, hwaits i0]
    · obtain ⟨j, hj⟩ := hlater i
      obtain ⟨j0, hj0⟩ := hlater i0
      rw [hj, hj0]
      rfl
  · rw [k.clear_holding hk] at hlater
    rcases k.run_holding hk elements later [] with hwaits | ⟨outputs2, hdefined, hrun2⟩
    · rw [hwaits i] at hlater
      cases hlater
    · obtain ⟨j, hj⟩ := hrun2 i
      rw [hj] at hlater
      cases hlater
      exact hdefined
  · rw [k.clear_holding hk]
    show (FifoCleaner.cleanup elements (k.queued history)).Perm _
    rw [FifoCleaner.cleanup, if_pos hpointer]

/-- A circular buffer without cells is written outside of its deque. -/
theorem not_clearLaw_circular {size : Nat} (hsize : 1 ≤ size)
    (o : (FifoKind.sharedCircularBuffer size).State T) :
    ¬ ClearLaw (.sharedCircularBuffer size) elements history o := by
  intro h
  have hbehaves := h.behaves [.call (.push default)]
  have hnew : (SharedCircularBuffer.new size : SharedCircularBuffer T).pushCursor <
      (SharedCircularBuffer.new size : SharedCircularBuffer T).data.length := by
    show 0 < (List.replicate size (default : T)).length
    rw [List.length_replicate]
    omega
  have hdone : ((SharedCircularBuffer.new size).push default).result = (.done : FifoAnswer T) := by
    unfold SharedCircularBuffer.push
    rw [if_pos hnew]
    dsimp only
    split
    · rfl
    · rfl
  -- the answers of the one call, on the cleared buffer and on a new one
  have hanswers : some [(⟨.undefined, []⟩ : FifoOutput T)] =
      some [⟨((SharedCircularBuffer.new size).push default).result, []⟩] := hbehaves
  rw [hdone] at hanswers
  cases hanswers

/-- `clear` gives a fresh object for every class but `SharedCircularBuffer`. -/
theorem clearLaw_iff (k : FifoKind) (elements : ElementType T) (history : List (FifoOperation T))
    (outputs : List (FifoOutput T)) (o : k.State T)
    (hsize : ∀ size, k = .sharedCircularBuffer size → 1 ≤ size)
    (hrun : k.run elements history k.new = some (outputs, o)) :
    ClearLaw k elements history o ↔ ¬ ∃ size, k = .sharedCircularBuffer size := by
  constructor
  · rintro h ⟨size, rfl⟩
    exact not_clearLaw_circular (hsize size rfl) o h
  · intro hk
    exact clearLaw_of_queue hk hrun

/-- A stack of two, cleared after a pop. -/
theorem clearLaw_iff_lifo :
    (∃ outputs o, FifoKind.run .sharedLifo ⟨false, fun _ => false⟩
        [.call (.push 1), .call (.push 2), .call .tryPop] (FifoKind.new .sharedLifo) =
          some (outputs, o)) ∧
      (ClearLaw .sharedLifo ⟨false, fun _ => false⟩
          [.call (.push 1), .call (.push 2), .call .tryPop] ⟨1, [1], false⟩ ↔
        ¬ ∃ size, FifoKind.sharedLifo = .sharedCircularBuffer size) :=
  ⟨⟨_, _, rfl⟩, clearLaw_iff .sharedLifo ⟨false, fun _ => false⟩
    [.call (.push 1), .call (.push 2), .call .tryPop] _ ⟨1, [1], false⟩ nofun rfl⟩

/-- After a push and a pop, a buffer of one cell is cleared: the next push is out of range,
and the element that was popped is freed. -/
theorem clear_breaks_circular_buffer :
    let history : List (FifoOperation Nat) := [.call (.push 7), .call .tryPop]
    let pointers : ElementType Nat := ⟨true, fun p => p = 0⟩
    ∃ outputs o,
      FifoKind.run (.sharedCircularBuffer 1) pointers history (FifoKind.new _) =
        some (outputs, o) ∧
      (FifoKind.clear (.sharedCircularBuffer 1) pointers o).1 = [7] ∧
      ¬ ClearLaw (.sharedCircularBuffer 1) pointers history o := by
  refine ⟨_, _, rfl, rfl, ?_⟩
  exact not_clearLaw_circular (by omega) _

end Clear

end Xpcf
