import Xpcf.Proofs.CircularBuffer
import Xpcf.Proofs.FifoClear

/-!
# Looking at the next value

`back` reads the back of the deque in every class, and each class pops from an
end or from a cursor of its own.  The two agree on the value where
`NextAtBack` holds.  `back(T &)` answers the released flag, which is not what
`pop(T &)` answers on an object that is not released.
-/

namespace Xpcf

open CodeLib

variable {T σ : Type}

/-! ## Calls on an object with a value -/

/-- An object with a value to read and a value to pop. -/
structure FifoClass.Stores (C : FifoClass T σ) (o : σ) (last next : T) (rest : σ) : Prop where
  released : (C.members o).released = false
  stored : (C.members o).nbNotified ≠ 0
  last : (C.members o).data.getLast? = some last
  doPop : C.doPop o = some (next, rest)

namespace FifoKind

variable {k : FifoKind} {elements : ElementType T} {o rest : k.State T} {last next : T}

theorem step_back (h : (k.fifoClass T).Stores o last next rest) :
    k.step elements (.call .back) o = some (⟨.value last, []⟩, o) := by
  simp [step, FifoClass.waitsOn, FifoClass.mustWait, FifoClass.body, FifoClass.isAborted,
    h.released, h.stored, h.last]

theorem step_pop (h : (k.fifoClass T).Stores o last next rest) :
    k.step elements (.call .pop) o = some (⟨.value next, []⟩, rest) := by
  simp [step, FifoClass.waitsOn, FifoClass.mustWait, FifoClass.body, FifoClass.isAborted,
    FifoClass.popWith, h.released, h.stored, h.doPop]

/-- `back(T &)` answers `m_bReleased`. -/
theorem step_backInto (h : (k.fifoClass T).Stores o last next rest) :
    k.step elements (.call .backInto) o = some (⟨.flag false (some last), []⟩, o) := by
  simp [step, FifoClass.waitsOn, FifoClass.mustWait, FifoClass.body, h.released, h.stored, h.last]

end FifoKind

/-! ## The objects that calls lead to -/

/-- A circular buffer that calls lead to.  After `clear` it has no cells, as when
it was made with no room. -/
def SharedCircularBuffer.Reached (b : SharedCircularBuffer T) (size : Nat) : Prop :=
  b.released = false ∧ (b.Circular size ∨ b.data = [] ∧ b.nbNotified = 0)

/-- A call that returns on a buffer without cells leaves it as it is. -/
theorem SharedCircularBuffer.body_of_no_cells {b : SharedCircularBuffer T} {c : FifoCall T}
    (hreleased : b.released = false) (hdata : b.data = []) (hnone : b.nbNotified = 0)
    (hwaits : (sharedCircularBuffer T).waitsOn c false b = none) :
    ((sharedCircularBuffer T).body c false b).object = b := by
  have hmembers : (sharedCircularBuffer T).members b = b.toSharedFifo := rfl
  have hmust : (sharedCircularBuffer T).mustWait b = true := by
    simp [FifoClass.mustWait, hmembers, hreleased, hnone]
  cases c with
  | push v =>
    show (b.push v).object = b
    simp [SharedCircularBuffer.push, hdata]
  | back | backInto | pop | popInto | popFor => simp [FifoClass.waitsOn, hmust] at hwaits
  | tryPop => simp [FifoClass.body, hmembers, hnone]

theorem SharedCircularBuffer.Reached.body {b : SharedCircularBuffer T} {size : Nat} {c : FifoCall T}
    (hb : b.Reached size) (hwaits : (sharedCircularBuffer T).waitsOn c false b = none) :
    SharedCircularBuffer.Reached ((sharedCircularBuffer T).body c false b).object size := by
  obtain ⟨hreleased, hcircular | ⟨hdata, hnone⟩⟩ := hb
  · refine ⟨?_, .inl ((sharedCircularBuffer_holds T size).outcome hcircular hwaits).1⟩
    exact ((sharedCircularBuffer_keepsReleased T).body c false b).trans hreleased
  · rw [body_of_no_cells hreleased hdata hnone hwaits]
    exact ⟨hreleased, .inr ⟨hdata, hnone⟩⟩

namespace FifoKind

variable {k : FifoKind} {elements : ElementType T}

/-- What each call that returns keeps, calls one after the other keep. -/
theorem run_keeps {P : k.State T → Prop}
    (hstep : ∀ {operation o output o1}, P o →
      k.step elements operation o = some (output, o1) → P o1)
    {operations : List (FifoOperation T)} {o : k.State T} {outputs : List (FifoOutput T)}
    {o1 : k.State T} (ho : P o) (h : k.run elements operations o = some (outputs, o1)) : P o1 := by
  induction operations generalizing o outputs with
  | nil =>
    cases h
    exact ho
  | cons operation operations ih =>
    unfold run at h
    cases hnext : k.step elements operation o with
    | none => simp [hnext] at h
    | some result =>
      obtain ⟨output, o2⟩ := result
      simp only [hnext, Option.map_eq_some_iff] at h
      obtain ⟨⟨outputs1, o3⟩, hrest, heq⟩ := h
      cases heq
      exact ih (hstep ho hnext) hrest

theorem step_circular {size : Nat} {operation : FifoOperation T}
    {b b1 : (FifoKind.sharedCircularBuffer size).State T} {output : FifoOutput T}
    (hb : SharedCircularBuffer.Reached b size)
    (h : FifoKind.step (.sharedCircularBuffer size) elements operation b = some (output, b1)) :
    SharedCircularBuffer.Reached b1 size := by
  cases operation with
  | call c =>
    unfold step at h
    cases hwaits : ((FifoKind.sharedCircularBuffer size).fifoClass T).waitsOn c false b with
    | some condition => simp [hwaits] at h
    | none =>
      simp only [hwaits, Option.some.injEq, Prod.mk.injEq] at h
      obtain ⟨-, rfl⟩ := h
      exact hb.body hwaits
  | clear =>
    cases h
    exact ⟨hb.1, .inr ⟨rfl, rfl⟩⟩

theorem reached_new [Inhabited T] (size : Nat) :
    SharedCircularBuffer.Reached (SharedCircularBuffer.new size : SharedCircularBuffer T) size := by
  refine ⟨rfl, ?_⟩
  cases size with
  | zero => exact .inr ⟨rfl, rfl⟩
  | succ size => exact .inl (SharedCircularBuffer.circular_new (Nat.succ_pos size))

/-- A `DropBuffer` keeps one value at most. -/
theorem queued_dropBuffer (operations : List (FifoOperation T)) :
    (FifoKind.dropBuffer.queued operations).length ≤ 1 := by
  have hkeeps : ∀ (q : List T) (operation : FifoOperation T), q.length ≤ 1 →
      (FifoKind.dropBuffer.queuedAfter q operation).length ≤ 1 := by
    intro q operation hq
    have htail : q.tail.length ≤ 1 := by rw [List.length_tail]; omega
    cases operation with
    | clear => exact Nat.zero_le 1
    | call c =>
      cases c with
      | push v => exact Nat.le_refl 1
      | back | backInto => exact hq
      | pop | popInto | popFor | tryPop => exact htail
  unfold queued
  suffices h : ∀ q : List T, q.length ≤ 1 →
      (operations.foldl FifoKind.dropBuffer.queuedAfter q).length ≤ 1 from h [] (Nat.zero_le 1)
  intro q hq
  induction operations generalizing q with
  | nil => exact hq
  | cons operation operations ih => exact ih _ (hkeeps q operation hq)

/-! ## The value that is read and the value that is popped -/

/-- The next value to pop is the back of the deque. -/
def NextAtBack : (k : FifoKind) → k.State T → Prop
  | .sharedFifo, _ => True
  | .sharedLifo, o => o.data.head? = o.data.getLast?
  | .dropBuffer, _ => True
  | .sharedBuffer _ _, _ => True
  | .sharedCircularBuffer _, o => o.data[o.popCursor]? = o.data.getLast?

theorem stores_circular {size : Nat} {b : SharedCircularBuffer T}
    (hb : SharedCircularBuffer.Reached b size) (hstored : b.nbNotified ≠ 0) :
    ∃ last next rest, ((FifoKind.sharedCircularBuffer size).fifoClass T).Stores b last next rest ∧
      (last = next ↔ NextAtBack (.sharedCircularBuffer size) b) := by
  obtain ⟨hreleased, hcircular | ⟨-, hnone⟩⟩ := hb
  · have hne : b.data ≠ [] := (sharedCircularBuffer_holds T size).data hcircular hstored
    have hcursor : b.popCursor < b.data.length := by
      rw [hcircular.size]
      exact hcircular.popCursor
    have hlast := List.getLast?_eq_some_getLast hne
    have hnext := List.getElem?_eq_getElem hcursor
    have hpop : ∃ rest, SharedCircularBuffer.doPop b = some (b.data[b.popCursor], rest) := by
      unfold SharedCircularBuffer.doPop
      rw [hnext]
      exact ⟨_, rfl⟩
    obtain ⟨rest, hpop⟩ := hpop
    refine ⟨_, _, rest, ⟨hreleased, hstored, hlast, hpop⟩, ?_⟩
    show _ ↔ b.data[b.popCursor]? = b.data.getLast?
    rw [hlast, hnext, Option.some.injEq]
    exact eq_comm
  · exact absurd hnone hstored

section Reached

variable [Inhabited T] {history : List (FifoOperation T)} {outputs : List (FifoOutput T)}
  {o : k.State T}

theorem stores_holding (hk : ¬ ∃ size, k = .sharedCircularBuffer size) {i : Bool} {q : List T}
    (hq : q ≠ []) {next : T} {rest : k.State T}
    (hpop : (k.fifoClass T).doPop (k.holding i q) = some (next, rest)) :
    (k.fifoClass T).Stores (k.holding i q) (q.getLast hq) next rest := by
  have hmembers := (k.serves hk).members i q
  refine ⟨?_, ?_, ?_, hpop⟩
  · rw [hmembers]
  · rw [hmembers]
    exact fun hlength => hq (List.length_eq_zero_iff.mp hlength)
  · rw [hmembers]
    exact List.getLast?_eq_some_getLast hq

theorem stores_of_queue (hk : ¬ ∃ size, k = .sharedCircularBuffer size) (i : Bool)
    {q : List T} (hq : q ≠ []) (hdrop : k = .dropBuffer → q.length ≤ 1) :
    ∃ last next rest, (k.fifoClass T).Stores (k.holding i q) last next rest ∧
      (last = next ↔ k.NextAtBack (k.holding i q)) := by
  cases k with
  | sharedFifo =>
    exact ⟨_, _, _, stores_holding hk hq (doPop_back hq), iff_of_true rfl trivial⟩
  | sharedLifo =>
    refine ⟨_, _, _, stores_holding hk hq (doPop_front hq), ?_⟩
    show q.getLast hq = q.head hq ↔ q.head? = q.getLast?
    rw [List.head?_eq_some_head hq, List.getLast?_eq_some_getLast hq, Option.some.injEq]
    exact eq_comm
  | dropBuffer =>
    refine ⟨_, _, _, stores_holding hk hq (doPop_front hq), iff_of_true ?_ trivial⟩
    obtain ⟨v, rfl⟩ : ∃ v, q = [v] := by
      have hone : q.length = 1 := by
        have hsize := hdrop rfl
        have hpos := List.length_pos_iff.mpr hq
        omega
      exact List.length_eq_one_iff.mp hone
    rfl
  | sharedBuffer max startAt =>
    have hpop : ((FifoKind.sharedBuffer max startAt).fifoClass T).doPop
        ((FifoKind.sharedBuffer max startAt).holding i q) =
        some (q.getLast hq, (FifoKind.sharedBuffer max startAt).holding i q.dropLast) := by
      show ((SharedFifo.doPop ⟨q.length, q, false⟩).map _) = _
      rw [doPop_back hq]
      rfl
    exact ⟨_, _, _, stores_holding hk hq hpop, iff_of_true rfl trivial⟩
  | sharedCircularBuffer size => exact absurd ⟨size, rfl⟩ hk

/-- An object that calls on a new one lead to and that is not empty. -/
theorem stores_of_run (hrun : k.run elements history k.new = some (outputs, o))
    (hstored : ((k.fifoClass T).members o).nbNotified ≠ 0) :
    ∃ last next rest, (k.fifoClass T).Stores o last next rest ∧ (last = next ↔ k.NextAtBack o) := by
  by_cases hk : ∃ size, k = .sharedCircularBuffer size
  · obtain ⟨size, rfl⟩ := hk
    exact stores_circular (run_keeps step_circular (reached_new size) hrun) hstored
  · obtain ⟨i, rfl⟩ := k.holding_of_run hk hrun
    have hq : k.queued history ≠ [] := by
      intro hq
      apply hstored
      rw [(k.serves hk).members]
      exact List.length_eq_zero_iff.mpr hq
    refine stores_of_queue hk i hq ?_
    rintro rfl
    exact queued_dropBuffer history

end Reached

end FifoKind

/-! ## Agreement -/

section Back

variable [Inhabited T]

/-- `back()` leaves the object as it is and returns what `pop()` would return. -/
def BackGivesNext (k : FifoKind) (elements : ElementType T) (o : k.State T) : Prop :=
  ∃ v rest, k.step elements (.call .back) o = some (⟨.value v, []⟩, o) ∧
    k.step elements (.call .pop) o = some (⟨.value v, []⟩, rest)

/-- `back(T &)` leaves the object as it is, sets the value that `pop(T &)` would set and
reports success as `pop(T &)` would. -/
def BackIntoGivesNext (k : FifoKind) (elements : ElementType T) (o : k.State T) : Prop :=
  ∃ v rest, k.step elements (.call .backInto) o = some (⟨.flag true (some v), []⟩, o) ∧
    k.step elements (.call .popInto) o = some (⟨.flag true (some v), []⟩, rest)

/-- On every object that is not empty `back(T &)` reports that it failed; `back()` returns
the next value where that value is the back of the deque. -/
theorem back_never_agrees (k : FifoKind) (elements : ElementType T)
    (history : List (FifoOperation T)) (outputs : List (FifoOutput T)) (o : k.State T)
    (hrun : k.run elements history k.new = some (outputs, o))
    (hstored : ((k.fifoClass T).members o).nbNotified ≠ 0) :
    ¬ (BackGivesNext k elements o ∧ BackIntoGivesNext k elements o) ∧
      ¬ BackIntoGivesNext k elements o ∧
      (BackGivesNext k elements o ↔ k.NextAtBack o) := by
  obtain ⟨last, next, rest, hstores, hnext⟩ := FifoKind.stores_of_run hrun hstored
  have hinto : ¬ BackIntoGivesNext k elements o := by
    rintro ⟨v, rest1, hback, -⟩
    rw [FifoKind.step_backInto hstores] at hback
    cases hback
  refine ⟨fun h => hinto h.2, hinto, ?_⟩
  rw [← hnext]
  constructor
  · rintro ⟨v, rest1, hback, hpop⟩
    rw [FifoKind.step_back hstores] at hback
    rw [FifoKind.step_pop hstores] at hpop
    cases hback
    cases hpop
    rfl
  · rintro rfl
    exact ⟨last, rest, FifoKind.step_back hstores, FifoKind.step_pop hstores⟩

/-- A stack of two values. -/
theorem back_never_agrees_lifo :
    ¬ BackIntoGivesNext .sharedLifo ⟨false, fun _ => false⟩
        (⟨2, [2, 1], false⟩ : SharedFifo Nat) ∧
      ¬ BackGivesNext .sharedLifo ⟨false, fun _ => false⟩
        (⟨2, [2, 1], false⟩ : SharedFifo Nat) := by
  obtain ⟨-, hinto, hback⟩ := back_never_agrees .sharedLifo ⟨false, fun _ => false⟩
    [.call (.push 1), .call (.push 2)] [⟨.done, []⟩, ⟨.done, []⟩] ⟨2, [2, 1], false⟩ rfl
    (by decide)
  refine ⟨hinto, fun h => ?_⟩
  have hnext : ([2, 1] : List Nat).head? = [2, 1].getLast? := hback.mp h
  revert hnext
  decide

/-- One value is pushed to a fifo: `back(T &)` sets it and answers false, and `pop(T &)`
answers true. -/
theorem backInto_reports_failure :
    ∃ outputs o, FifoKind.run .sharedFifo ⟨false, fun _ => false⟩ [.call (.push 7)]
        (FifoKind.new (T := Nat) .sharedFifo) = some (outputs, o) ∧
      ((FifoKind.sharedFifo.fifoClass Nat).members o).nbNotified ≠ 0 ∧
      FifoKind.step .sharedFifo ⟨false, fun _ => false⟩ (.call .backInto) o =
        some (⟨.flag false (some 7), []⟩, o) ∧
      ¬ (BackGivesNext .sharedFifo ⟨false, fun _ => false⟩ o ∧
        BackIntoGivesNext .sharedFifo ⟨false, fun _ => false⟩ o) := by
  refine ⟨_, _, rfl, nofun, rfl, ?_⟩
  rintro ⟨-, v, rest, hback, -⟩
  cases hback

end Back

end Xpcf
