import Xpcf.CodeLib.Rings
import Xpcf.Proofs.FifoOrder
import Xpcf.Proofs.FifoRelease

/-!
# The circular buffer

A `SharedCircularBuffer` of capacity `n` is a `BoundedQueue`: its items are the
cells from the pop cursor on.  `Answers` says what each call may do to such a
queue, and the critical sections of the buffer, in their order, are a run of it.
-/

namespace Xpcf

open CodeLib CodeLib.Monitor

variable {T τ : Type} {n : Nat}

/-! ## Bounded queues under the calls of `IFifo` -/

/-- What a call answers on a bounded queue, and what it leaves. -/
inductive Answers :
    BoundedQueue T n → Return (FifoCall T) (FifoAnswer T) → BoundedQueue T n → Prop
  | push {q} (value : T) : Answers q (.call (.push value) .done) (q.push value)
  /-- The oldest item is taken. -/
  | pop {q q1 r value} (hpopped : poppedBy r = some value) (hitems : q.items = value :: q1.items) :
      Answers q r q1
  /-- A pop fails on an empty queue only, and `tryPop` also where it could not
  take the mutex. -/
  | fails {q call answer} (hcall : call.isPop = true)
      (hpopped : poppedBy (.call call answer) = none) (hdefined : answer ≠ .undefined)
      (hempty : call = .tryPop ∨ q.items = []) : Answers q (.call call answer) q
  | peeks {q call answer} (hcall : call = .back ∨ call = .backInto)
      (hdefined : answer ≠ .undefined) : Answers q (.call call answer) q
  | release {q} : Answers q .release q

theorem Answers.suffix {q q1 : BoundedQueue T n} {r : Return (FifoCall T) (FifoAnswer T)}
    (h : Answers q r q1) :
    (poppedBy r).toList ++ q1.items <:+ q.items ++ (pushedBy r).toList := by
  cases h with
  | push value => exact q.push_suffix value
  | pop hpopped hitems => simp [hpopped, pushedBy_of_popped hpopped, hitems]
  | fails hcall hpopped hdefined hempty => simp [hpopped, pushedBy_of_isPop hcall]
  | peeks hcall hdefined => rcases hcall with rfl | rfl <;> simp [poppedBy, pushedBy]
  | release => simp [poppedBy, pushedBy]

/-- The pops take items in push order, and what is left is the end of what was
pushed. -/
theorem items_of_replays {history : List (τ × Return (FifoCall T) (FifoAnswer T))}
    {q : BoundedQueue T n} (h : Replays Answers BoundedQueue.empty history q) :
    q.items <:+ pushed history ∧ (popped history ++ q.items).Sublist (pushed history) := by
  induction h with
  | nil => exact ⟨List.suffix_refl _, List.Sublist.refl _⟩
  | @snoc history q t r q1 hbefore hreturn ih =>
    obtain ⟨hsuffix, hsublist⟩ := ih
    have hstep := hreturn.suffix
    rw [pushed_append, popped_append]
    constructor
    · obtain ⟨lost, hlost⟩ := hsuffix
      calc q1.items <:+ (poppedBy r).toList ++ q1.items := List.suffix_append _ _
        _ <:+ q.items ++ (pushedBy r).toList := hstep
        _ <:+ pushed history ++ (pushedBy r).toList :=
          ⟨lost, by rw [← hlost, List.append_assoc]⟩
    · calc ((popped history ++ (poppedBy r).toList) ++ q1.items).Sublist
            (popped history ++ (q.items ++ (pushedBy r).toList)) := by
              rw [List.append_assoc]
              exact hstep.sublist.append_left _
        _ = (popped history ++ q.items) ++ (pushedBy r).toList := (List.append_assoc _ _ _).symm
        List.Sublist _ (pushed history ++ (pushedBy r).toList) := hsublist.append_right _

/-! ## The buffer -/

/-- The retained values, oldest first. -/
def SharedCircularBuffer.content (b : SharedCircularBuffer T) : List T :=
  Ring.window b.data b.popCursor b.nbNotified

/-- The states of a buffer of capacity `n`: the push cursor is `nbNotified`
positions after the pop cursor. -/
structure SharedCircularBuffer.Circular (b : SharedCircularBuffer T) (n : Nat) : Prop where
  size : b.data.length = n
  count : b.nbNotified ≤ n
  popCursor : b.popCursor < n
  pushCursor : b.pushCursor = (b.popCursor + b.nbNotified) % n

namespace SharedCircularBuffer

variable {b : SharedCircularBuffer T}

/-- A cursor that is in the deque moves to the next position. -/
theorem increaseCursor_eq {size cursor : Nat} (h : cursor < size) :
    increaseCursor size cursor = Ring.next size cursor := (Ring.next_eq_ite h).symm

theorem circular_new [Inhabited T] (hn : 1 ≤ n) : (new n : SharedCircularBuffer T).Circular n where
  size := List.length_replicate
  count := Nat.zero_le n
  popCursor := hn
  pushCursor := (Nat.zero_mod n).symm

theorem Circular.length_content (hb : b.Circular n) : b.content.length = b.nbNotified :=
  Ring.window_length _ (hb.size ▸ hb.count)

theorem Circular.pushCursor_lt (hb : b.Circular n) : b.pushCursor < n := by
  rw [hb.pushCursor]
  exact Nat.mod_lt _ (Nat.zero_lt_of_lt hb.popCursor)

/-- The queue in the cells. -/
def Circular.queue (hb : b.Circular n) : BoundedQueue T n :=
  ⟨b.content, by rw [hb.length_content]; exact hb.count⟩

/-- The state after a push that finds room. -/
theorem push_of_room (value : T) (hb : b.Circular n) (hroom : b.nbNotified < n) :
    ∃ b1, b.push value = ⟨b1, .done, some .queueNotEmpty⟩ ∧ b1.Circular n ∧
      b1.content = b.content ++ [value] := by
  have hcursor : b.pushCursor < b.data.length := by
    rw [hb.size]
    exact hb.pushCursor_lt
  have hcount : ¬ b.nbNotified + 1 > (b.data.set b.pushCursor value).length := by
    rw [List.length_set, hb.size]
    omega
  refine ⟨{ b with
    data := b.data.set b.pushCursor value
    pushCursor := increaseCursor b.data.length b.pushCursor
    nbNotified := b.nbNotified + 1 }, ?_, ?_, ?_⟩
  · simp only [push, if_pos hcursor, if_neg hcount]
  · refine ⟨?_, hroom, hb.popCursor, ?_⟩
    · simp [hb.size]
    · show increaseCursor b.data.length b.pushCursor = (b.popCursor + (b.nbNotified + 1)) % n
      rw [hb.size, increaseCursor_eq hb.pushCursor_lt, hb.pushCursor, Ring.next_add_mod]
  · show Ring.window (b.data.set b.pushCursor value) b.popCursor (b.nbNotified + 1) = _
    rw [hb.pushCursor, ← hb.size]
    exact Ring.window_set (by rw [hb.size]; exact hroom) value

/-- A push that finds the buffer full writes the cell of the oldest value, and
the pop cursor moves with the push cursor. -/
theorem push_of_full (value : T) (hb : b.Circular n) (hfull : b.nbNotified = n) :
    ∃ b1, b.push value = ⟨b1, .done, some .queueNotEmpty⟩ ∧ b1.Circular n ∧
      b1.content = (b.content ++ [value]).tail := by
  have hpush : b.pushCursor = b.popCursor := by
    rw [hb.pushCursor, hfull, Nat.add_mod_right, Nat.mod_eq_of_lt hb.popCursor]
  have hcursor : b.pushCursor < b.data.length := by
    rw [hb.size]
    exact hb.pushCursor_lt
  have hcount : b.nbNotified + 1 > (b.data.set b.pushCursor value).length := by
    rw [List.length_set, hb.size]
    omega
  have hnext : increaseCursor n b.popCursor = Ring.next n b.popCursor :=
    increaseCursor_eq hb.popCursor
  have hlt : Ring.next n b.popCursor < n := Ring.next_lt (Nat.zero_lt_of_lt hb.popCursor) _
  refine ⟨{ b with
    data := b.data.set b.pushCursor value
    pushCursor := increaseCursor b.data.length b.pushCursor
    popCursor := increaseCursor (b.data.set b.pushCursor value).length b.popCursor
    nbNotified := b.nbNotified + 1 - 1 }, ?_, ?_, ?_⟩
  · simp only [push, if_pos hcursor, if_pos hcount]
  · refine ⟨by simp [hb.size], by simpa using hb.count, ?_, ?_⟩
    · simp only [List.length_set, hb.size, hnext]
      exact hlt
    · simp only [List.length_set, hb.size, hpush, hnext, Nat.add_sub_cancel, hfull,
        Nat.add_mod_right]
      exact (Nat.mod_eq_of_lt hlt).symm
  · show Ring.window (b.data.set b.pushCursor value)
      (increaseCursor (b.data.set b.pushCursor value).length b.popCursor) (b.nbNotified + 1 - 1) = _
    rw [hpush, List.length_set, hb.size, hnext, Nat.add_sub_cancel, hfull, ← hb.size,
      Ring.window_overtaken (by rw [hb.size]; exact hb.popCursor), content, hfull, hb.size]

theorem Circular.push (hb : b.Circular n) (value : T) :
    ∃ b1, b.push value = ⟨b1, .done, some .queueNotEmpty⟩ ∧ b1.Circular n ∧
      b1.content = (hb.queue.push value).items := by
  rcases Nat.lt_or_eq_of_le hb.count with hroom | hfull
  · rw [BoundedQueue.push_of_lt (hb.length_content.symm ▸ hroom)]
    exact push_of_room value hb hroom
  · rw [BoundedQueue.push_of_eq (hb.length_content.trans hfull)]
    exact push_of_full value hb hfull

theorem Circular.doPop (hb : b.Circular n) (hstored : b.nbNotified ≠ 0) :
    ∃ value b1, b.doPop = some (value, b1) ∧ b1.Circular n ∧
      b.content = value :: b1.content := by
  obtain ⟨count, hcount⟩ := Nat.exists_eq_succ_of_ne_zero hstored
  have hcursor : b.popCursor < b.data.length := by
    rw [hb.size]
    exact hb.popCursor
  have hbound := hb.count
  refine ⟨b.data[b.popCursor], { b with
    popCursor := increaseCursor b.data.length b.popCursor
    nbNotified := b.nbNotified - 1 }, ?_, ⟨hb.size, ?_, ?_, ?_⟩, ?_⟩
  · rw [SharedCircularBuffer.doPop, List.getElem?_eq_getElem hcursor]
    rfl
  · show b.nbNotified - 1 ≤ n
    omega
  · show increaseCursor b.data.length b.popCursor < n
    rw [increaseCursor_eq hcursor, hb.size]
    exact Ring.next_lt (Nat.zero_lt_of_lt hb.popCursor) _
  · show b.pushCursor = (increaseCursor b.data.length b.popCursor + (b.nbNotified - 1)) % n
    rw [increaseCursor_eq hcursor, hb.pushCursor, hb.size, Ring.next_add, hcount,
      Nat.succ_sub_one]
  · show Ring.window b.data b.popCursor b.nbNotified =
      b.data[b.popCursor] :: Ring.window b.data (increaseCursor b.data.length b.popCursor) _
    rw [increaseCursor_eq hcursor, hcount, Ring.window_cons hcursor (by rw [hb.size]; omega)]
    rfl

end SharedCircularBuffer

theorem sharedCircularBuffer_holds (T : Type) (n : Nat) :
    (sharedCircularBuffer T).Holds (fun b => b.Circular n) SharedCircularBuffer.content
      fun items => items.rtake n where
  counts := fun ho => ho.length_content.symm
  data := by
    intro b ho _ hnil
    have hsize : b.data.length = n := ho.size
    have hcursor := ho.popCursor
    have hlength : b.data.length = 0 := congrArg List.length hnil
    omega
  release := fun ho => ⟨⟨ho.size, ho.count, ho.popCursor, ho.pushCursor⟩, rfl⟩
  push := by
    intro b value ho _
    obtain ⟨b1, hpush, hb1, hcontent⟩ := ho.push value
    have hending : (sharedCircularBuffer T).push value b = ⟨b1, .done, some .queueNotEmpty⟩ := hpush
    rw [hending]
    exact ⟨hb1, .inl ⟨rfl, hcontent⟩⟩
  doPop := fun ho hstored => ho.doPop hstored

theorem sharedCircularBuffer_keepsReleased (T : Type) :
    (sharedCircularBuffer T).KeepsReleased where
  release := fun _ => rfl
  push := by
    intro value b
    show (b.push value).object.released = b.released
    simp only [SharedCircularBuffer.push]
    split
    · split <;> rfl
    · rfl
  doPop := by
    intro b value b1 h
    simp only [sharedCircularBuffer, SharedCircularBuffer.doPop, Option.map_eq_some_iff] at h
    obtain ⟨cell, -, h⟩ := h
    rw [← (Prod.mk.inj h).2]
    rfl
  pushWaitsOn := fun _ => rfl

/-- Each critical section of the buffer is a call of the queue. -/
theorem sharedCircularBuffer_simulates (T : Type) (n : Nat) :
    (sharedCircularBuffer T).monitor.Simulates Answers
      fun b (q : BoundedQueue T n) => b.Circular n ∧ b.content = q.items where
  body := by
    rintro b ⟨items, hbounded⟩ call timedOut ⟨hb, rfl⟩ hwaits
    obtain ⟨hb1, houtcome⟩ := (sharedCircularBuffer_holds T n).outcome hb hwaits
    by_cases hpush : ∃ value, call = .push value
    · obtain ⟨value, rfl⟩ := hpush
      obtain ⟨b1, hending, hb1, hcontent⟩ := hb.push value
      refine ⟨hb.queue.push value, ?_, ?_⟩
      · show Answers _ (.call (.push value) (b.push value).result) _
        rw [hending]
        exact .push value
      · show (b.push value).object.Circular n ∧ (b.push value).object.content = _
        rw [hending]
        exact ⟨hb1, hcontent⟩
    cases houtcome with
    | stores hcall hresult hcontent => exact absurd ⟨_, hcall⟩ hpush
    | takes hcall hpopped hcontent => exact ⟨hb1.queue, .pop hpopped hcontent, hb1, rfl⟩
    | keeps hcontent hpushed hpopped hdefined hempty =>
      refine ⟨hb.queue, ?_, hb1, hcontent⟩
      cases call with
      | push value => exact absurd ⟨value, rfl⟩ hpush
      | back => exact .peeks (.inl rfl) hdefined
      | backInto => exact .peeks (.inr rfl) hdefined
      | _ => exact .fails rfl hpopped hdefined (.inr (hempty rfl))
  tried := by
    intro b q call r hb htried
    cases call with
    | tryPop =>
      obtain rfl : FifoAnswer.flag false none = r := by
        simpa [FifoClass.monitor] using htried
      exact .fails rfl rfl (by simp) (.inl rfl)
    | _ => simp [FifoClass.monitor] at htried
  release := fun hb => ⟨⟨hb.1.size, hb.1.count, hb.1.popCursor, hb.1.pushCursor⟩, hb.2⟩
  returned := fun _ => .release

/-- Whatever the interleaving, the calls on a circular buffer of capacity `n`
answer as those on a bounded queue that drops its oldest item, whose items are
the last `nbNotified` values pushed, none of them popped yet. -/
theorem circular_buffer_drops_oldest (T τ : Type) [Inhabited T] [DecidableEq τ] (n : Nat)
    (hn : 1 ≤ n)
    (s : Config (SharedCircularBuffer T) QueueCondition (FifoCall T) (FifoAnswer T) τ)
    (h : (sharedCircularBuffer T).monitor.Reaches (fun _ _ => True)
      (Config.start (SharedCircularBuffer.new n)) s) :
    ∃ q : BoundedQueue T n, Replays Answers BoundedQueue.empty s.history q ∧
      s.object.content = q.items ∧ q.items.length = s.object.nbNotified ∧
      s.object.nbNotified ≤ n ∧ s.object.pushCursor < n ∧ s.object.popCursor < n ∧
      q.items <:+ pushed s.history ∧ (popped s.history ++ q.items).Sublist (pushed s.history) := by
  have hempty : (SharedCircularBuffer.new (T := T) n).content =
      (BoundedQueue.empty : BoundedQueue T n).items := rfl
  obtain ⟨q, hreplays, hb, hcontent⟩ :=
    (sharedCircularBuffer_simulates T n).replays ⟨SharedCircularBuffer.circular_new hn, hempty⟩ h
  refine ⟨q, hreplays, hcontent, ?_, hb.count, hb.pushCursor_lt, hb.popCursor,
    items_of_replays hreplays⟩
  rw [← hcontent, hb.length_content]

/-- The second push to a buffer of one cell overtakes the pop cursor, and the value
of the first one is lost. -/
theorem circular_buffer_drops_oldest_one_cell :
    ∃ q : BoundedQueue Nat 1,
      Replays (τ := Bool) Answers BoundedQueue.empty
        [(true, .call (.push 7) .done), (true, .call (.push 8) .done),
          (false, .call .pop (.value 8)), (true, .call (.push 9) .done)] q ∧
      [9] = q.items ∧ q.items <:+ [7, 8, 9] ∧ ([8] ++ q.items).Sublist [7, 8, 9] := by
  -- one cell, so both cursors stay at 0
  let config (count value : Nat) (history : List (Bool × Return (FifoCall Nat) (FifoAnswer Nat))) :
      Config (SharedCircularBuffer Nat) QueueCondition (FifoCall Nat) (FifoAnswer Nat) Bool :=
    ⟨⟨⟨count, [value], false⟩, 0, 0⟩, none, fun _ => .idle, history⟩
  have hawake : ∀ count value history,
      (config count value history).CanNotify .queueNotEmpty none := by
    rintro count value history u ⟨c, hasleep⟩
    cases hasleep
  have hfirst : (sharedCircularBuffer Nat).monitor.Reaches (fun _ _ => True)
      (Config.start (SharedCircularBuffer.new 1)) (config 1 7 _) :=
    Reaches.call .refl true (.push 7) false none trivial ⟨rfl, .inl ⟨rfl, rfl⟩⟩ rfl
      (fun h => by cases h) (fun k h => by cases h; exact hawake 0 default [])
      (Config.ext rfl rfl (funext fun u => by cases u <;> rfl) rfl)
  have hsecond : (sharedCircularBuffer Nat).monitor.Reaches (fun _ _ => True)
      (Config.start (SharedCircularBuffer.new 1)) (config 1 8 _) :=
    hfirst.call true (.push 8) false none trivial ⟨rfl, .inl ⟨rfl, rfl⟩⟩ rfl
      (fun h => by cases h) (fun k h => by cases h; exact hawake _ _ _)
      (Config.ext rfl rfl (funext fun u => by cases u <;> rfl) rfl)
  have hpop : (sharedCircularBuffer Nat).monitor.Reaches (fun _ _ => True)
      (Config.start (SharedCircularBuffer.new 1)) (config 0 8 _) :=
    hsecond.call false .pop false none trivial ⟨rfl, .inl ⟨rfl, rfl⟩⟩ rfl (fun _ => rfl)
      (fun k h => by cases h) (Config.ext rfl rfl (funext fun u => by cases u <;> rfl) rfl)
  have hthird : (sharedCircularBuffer Nat).monitor.Reaches (fun _ _ => True)
      (Config.start (SharedCircularBuffer.new 1)) (config 1 9 _) :=
    hpop.call true (.push 9) false none trivial ⟨rfl, .inl ⟨rfl, rfl⟩⟩ rfl
      (fun h => by cases h) (fun k h => by cases h; exact hawake _ _ _)
      (Config.ext rfl rfl (funext fun u => by cases u <;> rfl) rfl)
  obtain ⟨q, hreplays, hitems, -, -, -, -, hsuffix, hsublist⟩ :=
    circular_buffer_drops_oldest Nat Bool 1 (by decide) _ hthird
  exact ⟨q, hreplays, hitems, hsuffix, hsublist⟩

end Xpcf
