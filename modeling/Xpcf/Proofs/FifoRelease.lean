import Xpcf.Model.SharedFifo

/-!
# Releasing a shared fifo

`release` writes its flag and notifies the not-empty condition, without the
mutex.  A thread that has read the flag and not yet gone to sleep misses the
notification, and so does a producer that sleeps on the not-full condition of a
buffer.  No other thread is left asleep.
-/

namespace Xpcf

open CodeLib CodeLib.Monitor

variable {T σ : Type}

/-- What a class of fifos does with the released flag. -/
structure FifoClass.KeepsReleased (C : FifoClass T σ) : Prop where
  release : ∀ o, (C.members (C.release o)).released = true
  push : ∀ value o, (C.members (C.push value o).object).released = (C.members o).released
  doPop : ∀ {o value o1}, C.doPop o = some (value, o1) →
    (C.members o1).released = (C.members o).released
  pushWaitsOn : ∀ {o}, (C.members o).released = true → C.pushWaitsOn o = none

theorem FifoClass.KeepsReleased.popWith {C : FifoClass T σ} (hC : C.KeepsReleased)
    (answer : T → FifoAnswer T) (o : σ) :
    (C.members (C.popWith answer o).object).released = (C.members o).released := by
  unfold FifoClass.popWith
  split
  · rename_i value o1 hpop
    exact hC.doPop hpop
  · rfl

theorem FifoClass.KeepsReleased.body {C : FifoClass T σ} (hC : C.KeepsReleased)
    (call : FifoCall T) (timedOut : Bool) (o : σ) :
    (C.members (C.body call timedOut o).object).released = (C.members o).released := by
  cases call with
  | push value => exact hC.push value o
  | back | backInto =>
    simp only [FifoClass.body]
    split
    · first | rfl | (split <;> rfl)
    · first | rfl | (split <;> rfl)
  | pop | popInto | popFor | tryPop =>
    simp only [FifoClass.body]
    split
    · first | rfl | exact hC.popWith _ o
    · first | rfl | exact hC.popWith _ o

/-- A released fifo stays released, and no call waits on it. -/
theorem FifoClass.KeepsReleased.opens {C : FifoClass T σ} (hC : C.KeepsReleased) :
    ReleaseOpens C.monitor fun o => (C.members o).released = true where
  release := hC.release
  body := by
    intro o call timedOut ho
    exact (hC.body call timedOut o).trans ho
  waitsOn := by
    intro o call timedOut ho
    show C.waitsOn call timedOut o = none
    have hwait : C.mustWait o = false := by simp [FifoClass.mustWait, ho]
    cases call with
    | push value => exact hC.pushWaitsOn ho
    | _ => simp [FifoClass.waitsOn, hwait]

theorem sharedFifo_keepsReleased (T : Type) : (sharedFifo T).KeepsReleased where
  release := fun _ => rfl
  push := fun _ _ => rfl
  doPop := by
    intro f value f1 h
    simp only [sharedFifo, SharedFifo.doPop, Option.map_eq_some_iff] at h
    obtain ⟨last, -, h⟩ := h
    rw [← (Prod.mk.inj h).2]
    rfl
  pushWaitsOn := fun _ => rfl

theorem sharedBuffer_keepsReleased (T : Type) : (sharedBuffer T).KeepsReleased where
  release := fun _ => rfl
  push := by
    intro value b
    show (b.push value).object.released = b.released
    simp only [SharedBuffer.push]
    split
    · rfl
    · split
      · rfl
      · split <;> rfl
  doPop := by
    intro b value b1 h
    simp only [sharedBuffer, SharedBuffer.doPop, SharedFifo.doPop, Option.map_eq_some_iff] at h
    obtain ⟨popped, ⟨last, -, hpopped⟩, h⟩ := h
    rw [← (Prod.mk.inj h).2, ← hpopped]
    rfl
  pushWaitsOn := by
    intro b h
    have hreleased : b.released = true := h
    simp [sharedBuffer, SharedBuffer.pushWaitsOn, hreleased]

/-- Once a `release` of the object `o` has returned nobody sleeps, in the runs
where each release notifies undisturbed threads; and after a release that does
not, somebody may sleep. -/
def ReleaseWakesIfUndisturbed (C : FifoClass T σ) (τ : Type) [DecidableEq τ] (o : σ) : Prop :=
  (∀ s : Config σ QueueCondition (FifoCall T) (FifoAnswer T) τ,
    C.monitor.Reaches (UndisturbedReleases C.monitor) (Config.start o) s → s.Returned →
      ∀ t k, ¬ s.AsleepOn t k) ∧
  ∀ (s s1 : Config σ QueueCondition (FifoCall T) (FifoAnswer T) τ) (t : τ),
    C.monitor.Reaches (fun _ _ => True) (Config.start o) s →
    C.monitor.Step s (.notifyReleased t) s1 → ¬ s.Undisturbed C.monitor →
      ∃ s2 u k, C.monitor.Reaches (fun _ _ => True) s1 s2 ∧ s2.Returned ∧ s2.AsleepOn u k

theorem FifoClass.KeepsReleased.wakesIfUndisturbed {C : FifoClass T σ} (hC : C.KeepsReleased)
    (τ : Type) [DecidableEq τ] (o : σ) : ReleaseWakesIfUndisturbed C τ o :=
  ⟨fun _ h hreturned => hC.opens.nobody_asleep h hreturned,
    fun _ _ _ _ hstep hdisturbed => hstep.someone_sleeps hdisturbed⟩

/-- A release wakes everybody when, at its notification, no thread is about to
sleep and no producer sleeps on a full buffer, and only then. -/
theorem release_wakes_if_undisturbed (T τ : Type) [DecidableEq τ] :
    ReleaseWakesIfUndisturbed (sharedFifo T) τ SharedFifo.new ∧
      ∀ max startAt, ReleaseWakesIfUndisturbed (sharedBuffer T) τ (SharedBuffer.new max startAt) :=
  ⟨(sharedFifo_keepsReleased T).wakesIfUndisturbed τ _, fun _ _ =>
    (sharedBuffer_keepsReleased T).wakesIfUndisturbed τ _⟩

/-- The second push into a buffer of capacity 1 sleeps, and a release leaves it
asleep.  A pop that has found a fifo empty goes to sleep after the release. -/
theorem release_leaves_sleepers :
    (∃ s : Config (SharedBuffer Nat) QueueCondition (FifoCall Nat) (FifoAnswer Nat) Bool,
      (sharedBuffer Nat).monitor.Reaches (fun _ _ => True)
        (Config.start (SharedBuffer.new 1 0)) s ∧
      s.Returned ∧ s.AsleepOn true .queueNotFull) ∧
    ∃ s : Config (SharedFifo Nat) QueueCondition (FifoCall Nat) (FifoAnswer Nat) Bool,
      (sharedFifo Nat).monitor.Reaches (fun _ _ => True) (Config.start SharedFifo.new) s ∧
      s.Returned ∧ s.AsleepOn true .queueNotEmpty := by
  constructor
  · have h0 : (sharedBuffer Nat).monitor.Reaches (τ := Bool) (fun _ _ => True)
        (Config.start (SharedBuffer.new 1 0)) _ := .refl
    have h1 := h0.step (a := .enter true (.push 1) none) trivial
      (.notifies ⟨rfl, .inl ⟨rfl, rfl⟩⟩ rfl rfl fun _ h => nomatch h.choose_spec)
    have h2 := h1.step (a := .enter true (.push 2) none) trivial
      (.waits ⟨rfl, .inl ⟨rfl, rfl⟩⟩ rfl)
    have h3 := h2.step (a := .sleep true) trivial (.sleeps rfl)
    have h4 := h3.step (a := .setReleased false) trivial (.setsReleased rfl)
    have h5 := h4.step (a := .notifyReleased false) trivial (.notifiesReleased rfl)
    exact ⟨_, h5, ⟨false, List.mem_append_right _ (List.mem_singleton.mpr rfl)⟩, .push 2, rfl⟩
  · have h0 : (sharedFifo Nat).monitor.Reaches (τ := Bool) (fun _ _ => True)
        (Config.start SharedFifo.new) _ := .refl
    have h1 := h0.step (a := .enter true .pop none) trivial
      (.waits ⟨rfl, .inl ⟨rfl, rfl⟩⟩ rfl)
    have h2 := h1.step (a := .setReleased false) trivial (.setsReleased rfl)
    have h3 := h2.step (a := .notifyReleased false) trivial (.notifiesReleased rfl)
    have h4 := h3.step (a := .sleep true) trivial (.sleeps rfl)
    exact ⟨_, h4, ⟨false, List.mem_append_right _ (List.mem_singleton.mpr rfl)⟩, .pop, rfl⟩

end Xpcf
