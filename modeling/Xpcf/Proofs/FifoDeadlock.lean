import Mathlib.Data.Finset.Card
import Xpcf.Proofs.FifoOrder

/-!
# Deadlocks of a shared buffer

While a `SharedBuffer` fills up to its start offset it notifies no consumer.  A
consumer that went to sleep on the empty buffer is woken by a later push, if the
buffer has room for one: the producers and the consumers of a buffer never
deadlock exactly when its start offset is below its capacity.

The invariant counts wakeups.  While a consumer waits, the stored values are at
most the start offset and one for each consumer that has a wakeup pending
(`Fed`).
-/

namespace Xpcf

open CodeLib CodeLib.Monitor

variable {T τ : Type}

abbrev BufferConfig (T τ : Type) : Type :=
  Config (SharedBuffer T) QueueCondition (FifoCall T) (FifoAnswer T) τ

/-- The steps of producers and consumers: pushes and pops, without spurious
wakeups and without `release`. -/
def producersAndConsumers (_ : BufferConfig T τ) : Action (FifoCall T) τ → Prop
  | .enter _ call _ => (∃ value, call = .push value) ∨ call.isPop = true
  | .sleep _ | .timeout _ | .tryFails _ _ => True
  | .spurious _ | .setReleased _ | .notifyReleased _ => False

/-- A consumer sleeps and no consumer has a wakeup pending, the buffer is full,
and every producer sleeps. -/
structure Deadlocked (producer : τ → Prop) (s : BufferConfig T τ) : Prop where
  consumer : ∃ t call, ¬ producer t ∧ call.isPop = true ∧ s.phase t = .asleep call .queueNotEmpty
  noWakeup : ∀ t call timedOut, call.isPop = true → s.phase t ≠ .woken call timedOut
  full : s.object.nbNotified ≥ s.object.maxSize
  producers : ∀ t, producer t → ∃ value, s.phase t = .asleep (.push value) .queueNotFull

/-! ## The critical sections of a buffer that is not released -/

namespace SharedBuffer

/-- A push that finds room notifies a consumer if the buffer has started. -/
theorem push_notReleased {b : SharedBuffer T} (value : T) (hreleased : b.released = false)
    (hwaits : b.pushWaitsOn = none) :
    (b.push value).notify = (if b.started then some .queueNotEmpty else none) ∧
      (b.push value).object =
        { b with
          data := value :: b.data
          nbNotified := b.nbNotified + 1
          started := b.started || decide (b.nbNotified + 1 ≥ b.bufferedStartOffset) } := by
  have hroom : ¬ b.nbNotified ≥ b.maxSize := by simpa [pushWaitsOn, hreleased] using hwaits
  cases hstarted : b.started <;> by_cases hoffset : b.nbNotified + 1 ≥ b.bufferedStartOffset <;>
    simp [push, hreleased, hroom, hstarted, hoffset]

/-- A pop takes a value and notifies a producer, or finds none and changes
nothing. -/
theorem pop_notReleased {max : Nat} {b : SharedBuffer T} {call : FifoCall T} {timedOut : Bool}
    (hb : b.Bounded max) (hreleased : b.released = false) (hpop : call.isPop = true)
    (hwaits : (sharedBuffer T).waitsOn call timedOut b = none) :
    (b.nbNotified = 0 ∧ ((sharedBuffer T).body call timedOut b).object = b ∧
        ((sharedBuffer T).body call timedOut b).notify = none) ∨
      ∃ rest, b.nbNotified ≠ 0 ∧
        ((sharedBuffer T).body call timedOut b).object =
          { b with data := rest, nbNotified := b.nbNotified - 1 } ∧
        ((sharedBuffer T).body call timedOut b).notify = some .queueNotFull := by
  have hmembers : (sharedBuffer T).members b = b.toSharedFifo := rfl
  by_cases hzero : b.nbNotified = 0
  · left
    have hwait : (sharedBuffer T).mustWait b = true := by
      simp [FifoClass.mustWait, hmembers, hreleased, hzero]
    cases call with
    | push value | back | backInto => cases hpop
    | pop | popInto => simp [FifoClass.waitsOn, hwait] at hwaits
    | popFor =>
      have htimed : timedOut = true := by simpa [FifoClass.waitsOn, hwait] using hwaits
      simp [FifoClass.body, hmembers, hzero, htimed]
    | tryPop => simp [FifoClass.body, hmembers, hzero]
  · right
    obtain ⟨rest, value, -, htaken⟩ := hb.doPop hzero
    have hwith : ∀ answer : T → FifoAnswer T, (sharedBuffer T).popWith answer b =
        ⟨{ b with data := rest, nbNotified := b.nbNotified - 1 }, answer value,
          some .queueNotFull⟩ := by
      intro answer
      have htaken : (sharedBuffer T).doPop b = _ := htaken
      simp only [FifoClass.popWith, htaken]
      rfl
    refine ⟨rest, hzero, ?_⟩
    cases call with
    | push value | back | backInto => cases hpop
    | pop | popInto => simp [FifoClass.body, FifoClass.isAborted, hmembers, hreleased, hwith]
    | popFor => simp [FifoClass.body, hmembers, hzero, hwith]
    | tryPop => simp [FifoClass.body, hmembers, Nat.pos_of_ne_zero hzero, hwith]

/-- A pop waits only if nothing is stored. -/
theorem stored_of_pop_waits {b : SharedBuffer T} {call : FifoCall T} {timedOut : Bool}
    {k : QueueCondition} (hpop : call.isPop = true)
    (hwaits : (sharedBuffer T).waitsOn call timedOut b = some k) : b.nbNotified = 0 := by
  by_contra hstored
  have hwait : (sharedBuffer T).mustWait b = false := by
    simp [FifoClass.mustWait, sharedBuffer, hstored]
  cases call with
  | push value | back | backInto => cases hpop
  | pop | popInto | popFor | tryPop => simp [FifoClass.waitsOn, hwait] at hwaits

end SharedBuffer

/-- The consumers in `W` have a wakeup pending. -/
def WakeupsPending (s : BufferConfig T τ) (W : Finset τ) : Prop :=
  ∀ t ∈ W, ∃ call timedOut, call.isPop = true ∧ s.phase t = .woken call timedOut

theorem WakeupsPending.empty (s : BufferConfig T τ) : WakeupsPending s ∅ :=
  fun _ ht => absurd ht (Finset.notMem_empty _)

variable [DecidableEq τ]

/-- What one step of a producer or a consumer does to the buffer. -/
inductive BufferStep (s : BufferConfig T τ) (a : Action (FifoCall T) τ) (s1 : BufferConfig T τ) :
    Prop where
  | unchanged (hobject : s1.object = s.object)
      (hpop : ∀ t call w, call.isPop = true → a = .enter t call w → s.object.nbNotified = 0)
  | pushes {t value w} (haction : a = .enter t (.push value) w) (howner : s.owner = none)
      (hobject : s1.object =
        { s.object with
          data := value :: s.object.data
          nbNotified := s.object.nbNotified + 1
          started := s.object.started ||
            decide (s.object.nbNotified + 1 ≥ s.object.bufferedStartOffset) })
      (hwakes : s.object.started = true → s.CanNotify .queueNotEmpty w ∧
        ∀ u call, w = some u → s.phase u = .asleep call .queueNotEmpty →
          s1.phase u = .woken call false)
  | pops {t call w rest} (haction : a = .enter t call w) (hpop : call.isPop = true)
      (hobject : s1.object =
        { s.object with data := rest, nbNotified := s.object.nbNotified - 1 })

theorem bufferStep {max : Nat} {s s1 : BufferConfig T τ} {a : Action (FifoCall T) τ}
    (hb : s.object.Bounded max) (hreleased : s.object.released = false)
    (ha : producersAndConsumers s a) (h : (sharedBuffer T).monitor.Step s a s1) :
    BufferStep s a s1 := by
  cases h with
  | @waits t call timedOut k hready hwaits =>
    refine .unchanged rfl fun t1 call1 w hpop haction => ?_
    obtain ⟨-, rfl, -⟩ := Action.enter.inj haction
    exact SharedBuffer.stored_of_pop_waits hpop hwaits
  | @finishes t call timedOut hready hwaits hnotify =>
    rcases ha with ⟨value, rfl⟩ | hpop
    · obtain ⟨hpush, hobject⟩ := SharedBuffer.push_notReleased value hreleased hwaits
      refine .pushes rfl hready.1 hobject fun hstarted => ?_
      have hnone : (s.object.push value).notify = none := hnotify
      rw [hpush, hstarted] at hnone
      cases hnone
    · rcases SharedBuffer.pop_notReleased hb hreleased hpop hwaits with
        ⟨hzero, hobject, -⟩ | ⟨rest, -, -, hnotFull⟩
      · exact .unchanged hobject fun _ _ _ _ _ => hzero
      · exact absurd (hnotify.symm.trans hnotFull) (by simp)
  | @notifies t call timedOut k w hready hwaits hnotify hcan =>
    rcases ha with ⟨value, rfl⟩ | hpop
    · obtain ⟨hpush, hobject⟩ := SharedBuffer.push_notReleased value hreleased hwaits
      refine .pushes rfl hready.1 ?_ fun hstarted => ⟨?_, fun u call hw hu => ?_⟩
      · rw [Config.wake_object]
        exact hobject
      · have hk : k = .queueNotEmpty := by
          have hsome : (s.object.push value).notify = some k := hnotify
          rw [hpush, hstarted] at hsome
          exact (Option.some.inj hsome).symm
        exact hk ▸ hcan
      · have hut : u ≠ t := by
          rintro rfl
          rcases hready.2 with ⟨hidle, -⟩ | hwoken
          · rw [hidle] at hu
            cases hu
          · rw [hwoken] at hu
            cases hu
        simp [Config.wake_phase, Config.finish_phase, hut, hw, hu, Phase.wake]
    · rcases SharedBuffer.pop_notReleased hb hreleased hpop hwaits with
        ⟨-, -, hnone⟩ | ⟨rest, -, hobject, -⟩
      · exact absurd (hnotify.symm.trans hnone) (by simp)
      · exact .pops rfl hpop ((Config.wake_object _ w).trans hobject)
  | sleeps hphase | timesOut hphase htimed | tryFails hphase htried =>
    exact .unchanged rfl fun _ _ _ _ haction => by cases haction
  | spurious hphase | setsReleased hphase | notifiesReleased hphase => exact ha.elim

/-! ## Wakeups are not lost below the capacity -/

structure Fed (startAt : Nat) (s : BufferConfig T τ) : Prop where
  released : s.object.released = false
  offset : s.object.bufferedStartOffset = startAt
  starting : s.object.started = false → s.object.nbNotified < startAt
  consumers : ∀ t call, s.Waits t call .queueNotEmpty → call.isPop = true
  /-- While a consumer waits, the stored values are at most the start offset and
  one for each pending wakeup. -/
  fed : ∀ t call, s.Waits t call .queueNotEmpty →
    ∃ W, WakeupsPending s W ∧ s.object.nbNotified ≤ W.card + startAt

theorem WakeupsPending.step {s s1 : BufferConfig T τ} {a : Action (FifoCall T) τ} {W : Finset τ}
    (hW : WakeupsPending s W) (h : (sharedBuffer T).monitor.Step s a s1)
    (ha : ∀ t ∈ W, ∀ call w, call.isPop = true → a ≠ .enter t call w) : WakeupsPending s1 W := by
  intro t ht
  obtain ⟨call, timedOut, hpop, hphase⟩ := hW t ht
  rcases h.woken_cases hphase with hstays | ⟨w, henter⟩
  · exact ⟨call, timedOut, hpop, hstays⟩
  · exact absurd henter (ha t ht call w hpop)

/-- The consumer that pops uses up its own wakeup, if it had one. -/
theorem WakeupsPending.erase {s s1 : BufferConfig T τ} {W : Finset τ} (hW : WakeupsPending s W)
    {t : τ} {call : FifoCall T} {w : Option τ}
    (h : (sharedBuffer T).monitor.Step s (.enter t call w) s1) : WakeupsPending s1 (W.erase t) := by
  refine WakeupsPending.step (fun u hu => hW u (Finset.mem_of_mem_erase hu)) h ?_
  intro u hu call1 w1 _ heq
  exact (Finset.mem_erase.mp hu).1 (Action.enter.inj heq).1.symm

/-- A push into a started buffer wakes one more of the consumers that sleep. -/
theorem WakeupsPending.insert {s s1 : BufferConfig T τ} {W : Finset τ} (hW : WakeupsPending s W)
    {t u : τ} {value : T} {call : FifoCall T}
    (h : (sharedBuffer T).monitor.Step s (.enter t (.push value) (some u)) s1)
    (hpop : call.isPop = true) (hu : s.phase u = .asleep call .queueNotEmpty)
    (hu1 : s1.phase u = .woken call false) :
    WakeupsPending s1 (Insert.insert u W) ∧ (Insert.insert u W).card = W.card + 1 := by
  have hnew : u ∉ W := by
    intro hmem
    obtain ⟨call1, timedOut, -, hwoken⟩ := hW u hmem
    rw [hu] at hwoken
    cases hwoken
  refine ⟨fun v hv => ?_, Finset.card_insert_of_notMem hnew⟩
  rcases Finset.mem_insert.mp hv with rfl | hv
  · exact ⟨call, false, hpop, hu1⟩
  · refine hW.step h ?_ v hv
    intro _ _ call1 w1 hpop1 heq
    obtain ⟨-, rfl, -⟩ := Action.enter.inj heq
    cases hpop1

/-- A consumer that waits waited before, or has just found the buffer empty. -/
theorem consumer_waits_cases {s s1 : BufferConfig T τ} {a : Action (FifoCall T) τ}
    (ha : producersAndConsumers s a) (h : (sharedBuffer T).monitor.Step s a s1) {t : τ}
    {call : FifoCall T} (ht : s1.Waits t call .queueNotEmpty) :
    s.Waits t call .queueNotEmpty ∨ call.isPop = true ∧ s1.object.nbNotified = 0 := by
  rcases h.waits_cases ht with hbefore | ⟨rfl, hobject, timedOut, hguard⟩
  · exact .inl hbefore
  · right
    have hguard : (sharedBuffer T).waitsOn call timedOut s.object = some .queueNotEmpty := hguard
    rcases ha with ⟨value, rfl⟩ | hpop
    · simp [FifoClass.waitsOn, sharedBuffer, SharedBuffer.pushWaitsOn] at hguard
    · exact ⟨hpop, hobject ▸ SharedBuffer.stored_of_pop_waits hpop hguard⟩

theorem Fed.step {max startAt : Nat} {s s1 : BufferConfig T τ} {a : Action (FifoCall T) τ}
    (hs : Fed startAt s) (howns : s.DecidingOwns) (hb : s.object.Bounded max)
    (ha : producersAndConsumers s a) (h : (sharedBuffer T).monitor.Step s a s1) :
    Fed startAt s1 := by
  have hbuffer := bufferStep hb hs.released ha h
  refine ⟨?_, ?_, ?_, fun t call ht => ?_, fun t call ht => ?_⟩
  · cases hbuffer with
    | unchanged hobject _ | pushes _ _ hobject _ | pops _ _ hobject =>
      rw [hobject]
      exact hs.released
  · cases hbuffer with
    | unchanged hobject _ | pushes _ _ hobject _ | pops _ _ hobject =>
      rw [hobject]
      exact hs.offset
  · intro hstarted
    have hoffset := hs.offset
    cases hbuffer with
    | unchanged hobject _ =>
      rw [hobject] at hstarted ⊢
      exact hs.starting hstarted
    | pushes _ _ hobject _ =>
      rw [hobject] at hstarted ⊢
      simp only [Bool.or_eq_false_iff, decide_eq_false_iff_not] at hstarted
      show s.object.nbNotified + 1 < startAt
      omega
    | pops _ _ hobject =>
      rw [hobject] at hstarted ⊢
      have := hs.starting hstarted
      show s.object.nbNotified - 1 < startAt
      omega
  · rcases consumer_waits_cases ha h ht with hbefore | ⟨hpop, -⟩
    · exact hs.consumers t call hbefore
    · exact hpop
  · rcases consumer_waits_cases ha h ht with hbefore | ⟨-, hempty⟩
    · obtain ⟨W, hW, hcard⟩ := hs.fed t call hbefore
      cases hbuffer with
      | unchanged hobject hpop =>
        rw [hobject]
        by_cases hzero : s.object.nbNotified = 0
        · exact ⟨∅, .empty s1, by omega⟩
        · exact ⟨W, hW.step h fun t _ call w hc ha => hzero (hpop t call w hc ha), hcard⟩
      | @pushes t1 value w haction howner hobject hwakes =>
        subst haction
        have hnb : s1.object.nbNotified = s.object.nbNotified + 1 := by rw [hobject]
        cases hstarted : s.object.started with
        | false =>
          have := hs.starting hstarted
          exact ⟨∅, .empty s1, by omega⟩
        | true =>
          obtain ⟨hcan, hwoken⟩ := hwakes hstarted
          have hasleep : s.phase t = .asleep call .queueNotEmpty := by
            refine hbefore.resolve_left fun hdeciding => ?_
            rw [howns t call _ hdeciding] at howner
            cases howner
          cases w with
          | none => exact absurd ⟨call, hasleep⟩ (hcan t)
          | some u =>
            obtain ⟨call1, hu⟩ := hcan
            have hpop := hs.consumers u call1 (.inr hu)
            obtain ⟨hW1, hcard1⟩ := hW.insert h hpop hu (hwoken u call1 rfl hu)
            exact ⟨_, hW1, by omega⟩
      | @pops t1 call1 w rest haction hpop hobject =>
        subst haction
        have hnb : s1.object.nbNotified = s.object.nbNotified - 1 := by rw [hobject]
        have := Finset.pred_card_le_card_erase (s := W) (a := t1)
        exact ⟨_, hW.erase h, by omega⟩
    · exact ⟨∅, .empty s1, by omega⟩

theorem SharedBuffer.bounded_new (max startAt : Nat) :
    (SharedBuffer.new (T := T) max startAt).Bounded max :=
  ⟨rfl, rfl, Nat.zero_le max⟩

theorem fed_of_reaches {max startAt : Nat} (hstart : startAt ≤ max) {s : BufferConfig T τ}
    (h : (sharedBuffer T).monitor.Reaches producersAndConsumers
      (Config.start (SharedBuffer.new max startAt)) s) : Fed startAt s := by
  induction h with
  | refl =>
    refine ⟨rfl, ?_, ?_, ?_, ?_⟩
    · exact if_neg (Nat.not_lt.mpr hstart)
    · intro hstarted
      have hpos : startAt ≠ 0 := of_decide_eq_false hstarted
      exact Nat.pos_of_ne_zero hpos
    · rintro t call (ht | ht) <;> cases ht
    · rintro t call (ht | ht) <;> cases ht
  | tail hreach hlast ih =>
    obtain ⟨a, ha, hstep⟩ := hlast
    have hb := ((sharedBuffer_isQueue T max).inOrder (SharedBuffer.bounded_new max startAt)
      (by rfl) hreach).1
    exact ih.step (Reaches.decidingOwns hreach) hb ha hstep

theorem not_deadlocked {max startAt : Nat} (hstart : startAt < max) {s : BufferConfig T τ}
    (h : (sharedBuffer T).monitor.Reaches producersAndConsumers
      (Config.start (SharedBuffer.new max startAt)) s) (producer : τ → Prop) :
    ¬ Deadlocked producer s := by
  intro hdead
  obtain ⟨t, call, -, hpop, hasleep⟩ := hdead.consumer
  obtain ⟨W, hW, hcard⟩ := (fed_of_reaches (Nat.le_of_lt hstart) h).fed t call (.inr hasleep)
  have hb := ((sharedBuffer_isQueue T max).inOrder (SharedBuffer.bounded_new max startAt)
    (by rfl) h).1
  have hfull : max ≤ s.object.nbNotified := hb.maxSize ▸ hdead.full
  obtain ⟨u, hu⟩ : W.Nonempty := Finset.card_pos.mp (by omega)
  obtain ⟨call1, timedOut, hpop1, hwoken⟩ := hW u hu
  exact hdead.noWakeup u call1 timedOut hpop1 hwoken

/-! ## A deadlock at the capacity -/

/-- The consumer `false` sleeps, and the producer `true` has pushed `n` values
that nobody was notified of. -/
structure Filling (max n : Nat) (s : BufferConfig T Bool) : Prop where
  stored : s.object.nbNotified = n
  maxSize : s.object.maxSize = max
  offset : s.object.bufferedStartOffset = max
  released : s.object.released = false
  starting : n < max → s.object.started = false
  owner : s.owner = none
  consumer : s.phase false = .asleep .pop .queueNotEmpty
  producer : s.phase true = .idle

theorem filling_reached [Inhabited T] {max : Nat} (hmax : 1 ≤ max) (n : Nat) (hn : n ≤ max) :
    ∃ s : BufferConfig T Bool, (sharedBuffer T).monitor.Reaches producersAndConsumers
      (Config.start (SharedBuffer.new max max)) s ∧ Filling max n s := by
  induction n with
  | zero =>
    have hstart : (sharedBuffer T).monitor.Reaches producersAndConsumers
        (Config.start (SharedBuffer.new max max) : BufferConfig T Bool)
        (Config.start (SharedBuffer.new max max)) := .refl
    have hsleep := hstart.sleep false .pop .queueNotEmpty false (fun _ => ⟨.inr rfl, trivial⟩)
      ⟨rfl, .inl ⟨rfl, rfl⟩⟩ rfl rfl
    refine ⟨_, hsleep, rfl, rfl, ?_, rfl, ?_, rfl, rfl, rfl⟩
    · exact if_neg (Nat.lt_irrefl max)
    · intro _
      exact decide_eq_false (by omega)
  | succ n ih =>
    obtain ⟨s, hreach, hs⟩ := ih (by omega)
    have hstored := hs.stored
    have hwaits : s.object.pushWaitsOn = none := by
      have hroom : ¬ s.object.nbNotified ≥ s.object.maxSize := by
        rw [hs.stored, hs.maxSize]
        omega
      simp [SharedBuffer.pushWaitsOn, hroom]
    have hstarted := hs.starting (by omega)
    obtain ⟨hnotify, hobject⟩ := SharedBuffer.push_notReleased default hs.released hwaits
    rw [hstarted] at hnotify
    have hstep : (sharedBuffer T).monitor.Step s (.enter true (.push default) none) _ :=
      .finishes ⟨hs.owner, .inl ⟨hs.producer, rfl⟩⟩ hwaits hnotify
    have hallowed : producersAndConsumers s (.enter true (.push default) none) :=
      Or.inl ⟨default, rfl⟩
    refine ⟨_, hreach.step hallowed hstep, ?_⟩
    have hobject1 : (s.finish true (.push default) (s.object.push default)).object = _ := hobject
    refine ⟨?_, ?_, ?_, ?_, ?_, hs.owner, hs.consumer, rfl⟩
    · exact (congrArg (·.nbNotified) hobject1).trans (congrArg (· + 1) hs.stored)
    · exact (congrArg (·.maxSize) hobject1).trans hs.maxSize
    · exact (congrArg (·.bufferedStartOffset) hobject1).trans hs.offset
    · exact (congrArg (·.released) hobject1).trans hs.released
    · intro hlt
      have hoffset := hs.offset
      refine (congrArg (·.started) hobject1).trans ?_
      simp [hstarted]
      omega

/-- A buffer whose start offset is its capacity can deadlock: the consumer went
to sleep first, the producer fills the buffer and sleeps too. -/
theorem deadlock_reached (T : Type) [Inhabited T] (max : Nat) (hmax : 1 ≤ max) :
    ∃ s : BufferConfig T Bool, (sharedBuffer T).monitor.Reaches producersAndConsumers
      (Config.start (SharedBuffer.new max max)) s ∧ Deadlocked (fun t => t = true) s := by
  obtain ⟨s, hreach, hs⟩ := filling_reached (T := T) hmax max (Nat.le_refl max)
  have hfull : s.object.nbNotified ≥ s.object.maxSize := by
    rw [hs.stored, hs.maxSize]
  have hwaits : s.object.pushWaitsOn = some .queueNotFull := by
    simp [SharedBuffer.pushWaitsOn, hs.released, hfull]
  have hsleep := hreach.sleep true (.push default) .queueNotFull false
    (fun _ => ⟨.inl ⟨default, rfl⟩, trivial⟩) ⟨hs.owner, .inl ⟨hs.producer, rfl⟩⟩ hwaits rfl
  refine ⟨_, hsleep, ⟨false, .pop, by simp, rfl, hs.consumer⟩, ?_, hfull, ?_⟩
  · intro t call timedOut _ hphase
    cases t with
    | false =>
      have hconsumer : s.phase false = .woken call timedOut := hphase
      rw [hs.consumer] at hconsumer
      cases hconsumer
    | true =>
      have hproducer : Phase.asleep (.push default) QueueCondition.queueNotFull =
          .woken call timedOut := hphase
      cases hproducer
  · rintro t rfl
    exact ⟨default, rfl⟩

/-- The shortest such run: one slot, and a start offset of 1. -/
theorem deadlock_of_one_slot :
    ∃ s : BufferConfig Nat Bool, (sharedBuffer Nat).monitor.Reaches producersAndConsumers
      (Config.start (SharedBuffer.new 1 1)) s ∧ Deadlocked (fun t => t = true) s :=
  deadlock_reached Nat 1 (Nat.le_refl 1)

/-- Producers and consumers never deadlock on a buffer exactly when its start
offset is below its capacity. -/
theorem never_deadlocked_iff (T : Type) [Inhabited T] {max startAt : Nat} (hmax : 1 ≤ max)
    (hstart : startAt ≤ max) :
    (∀ (τ : Type) [DecidableEq τ] (producer : τ → Prop) (s : BufferConfig T τ),
      (sharedBuffer T).monitor.Reaches producersAndConsumers
        (Config.start (SharedBuffer.new max startAt)) s → ¬ Deadlocked producer s) ↔
      startAt < max := by
  constructor
  · intro hnever
    by_contra hlt
    obtain rfl : startAt = max := by omega
    obtain ⟨s, hreach, hdead⟩ := deadlock_reached T _ hmax
    exact hnever Bool _ s hreach hdead
  · intro hlt τ _ producer s h
    exact not_deadlocked hlt h producer

/-- Two slots and a start offset of 1: the buffer fills while a consumer sleeps, the
second push wakes it, and the producer sleeps too. -/
theorem never_deadlocked_two_slots :
    ∃ s : BufferConfig Nat Bool, (sharedBuffer Nat).monitor.Reaches producersAndConsumers
        (Config.start (SharedBuffer.new 2 1)) s ∧
      s.object.nbNotified = s.object.maxSize ∧ s.phase true = .asleep (.push 9) .queueNotFull ∧
      s.phase false = .woken .pop false ∧ ¬ Deadlocked (fun t => t = true) s := by
  let config (data : List Nat) (started : Bool) (phase : Bool → Phase QueueCondition (FifoCall Nat))
      (history : List (Bool × Return (FifoCall Nat) (FifoAnswer Nat))) : BufferConfig Nat Bool :=
    ⟨⟨⟨data.length, data, false⟩, 2, 1, started⟩, none, phase, history⟩
  have hsleep : (sharedBuffer Nat).monitor.Reaches producersAndConsumers
      (Config.start (SharedBuffer.new 2 1))
      (config [] false (fun t => if t then .idle else .asleep .pop .queueNotEmpty) _) :=
    Reaches.sleep .refl false .pop .queueNotEmpty false (fun _ => ⟨.inr rfl, trivial⟩)
      ⟨rfl, .inl ⟨rfl, rfl⟩⟩ rfl (Config.ext rfl rfl (funext fun u => by cases u <;> rfl) rfl)
  have hfirst : (sharedBuffer Nat).monitor.Reaches producersAndConsumers
      (Config.start (SharedBuffer.new 2 1))
      (config [7] true (fun t => if t then .idle else .asleep .pop .queueNotEmpty) _) :=
    hsleep.call true (.push 7) false none (.inl ⟨7, rfl⟩) ⟨rfl, .inl ⟨rfl, rfl⟩⟩ rfl
      (fun _ => rfl) (fun k h => by cases h)
      (Config.ext rfl rfl (funext fun u => by cases u <;> rfl) rfl)
  have hsecond : (sharedBuffer Nat).monitor.Reaches producersAndConsumers
      (Config.start (SharedBuffer.new 2 1))
      (config [8, 7] true (fun t => if t then .idle else .woken .pop false) _) :=
    hfirst.call true (.push 8) false (some false) (.inl ⟨8, rfl⟩) ⟨rfl, .inl ⟨rfl, rfl⟩⟩ rfl
      (fun h => by cases h) (fun k h => by cases h; exact ⟨.pop, rfl⟩)
      (Config.ext rfl rfl (funext fun u => by cases u <;> rfl) rfl)
  have hlast : (sharedBuffer Nat).monitor.Reaches producersAndConsumers
      (Config.start (SharedBuffer.new 2 1))
      (config [8, 7] true
        (fun t => if t then .asleep (.push 9) .queueNotFull else .woken .pop false) _) :=
    hsecond.sleep true (.push 9) .queueNotFull false (fun _ => ⟨.inl ⟨9, rfl⟩, trivial⟩)
      ⟨rfl, .inl ⟨rfl, rfl⟩⟩ rfl (Config.ext rfl rfl (funext fun u => by cases u <;> rfl) rfl)
  exact ⟨_, hlast, rfl, rfl, rfl,
    (never_deadlocked_iff Nat (by decide) (by decide)).mpr (by decide) Bool _ _ hlast⟩

end Xpcf
