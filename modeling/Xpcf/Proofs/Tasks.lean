import Mathlib.Tactic.Common
import Xpcf.Model.Tasks

/-!
# Tasks that are started and stopped

A joinable task that is stopped before it is started again, and before it is destroyed, is
safe whatever the scheduler does (`joinable_task_safe`): it has one worker at most, and
none from the end of `stop()` to the next `start()`.  Its calls return
(`stop_returns`, `awaitRunning_returns`).  A task that is not joinable has none of this:
`stop()` does not wait for its worker (`detached_task_unsafe`).
-/

namespace Xpcf

open CodeLib

/-- The steps to its end of a worker that finds the task stopped. -/
def WorkerPhase.rank : WorkerPhase → Nat
  | .signalling => 2
  | .testing => 1
  | .processing => 2
  | .finished => 0

namespace DelegateTask

variable {s s1 : DelegateTask} {a : TaskAction}

/-! ## The invariant of a joinable task -/

/-- The worker of the task: in `start()` it is not assigned yet. -/
def worker (s : DelegateTask) : Option Nat :=
  match s.owner with
  | .assigning worker => some worker
  | _ => s.thread

/-- What holds where the owner is. -/
def OwnerSound (s : DelegateTask) : Prop :=
  match s.owner with
  | .outside => s.stop = false → s.future.isSome = true → s.thread.isSome = true
  | .renewing => s.thread = none
  | .launching => s.thread = none ∧ s.promise ∉ s.satisfied ∧ s.future = some s.promise
  | .assigning _ => s.thread = none
  | .cleaning _ => s.stop = true
  | .joining => s.stop = true ∧ s.thread.isSome = true
  | .awaiting promise => s.future = some promise ∧ s.stop = false ∧ s.thread.isSome = true
  | .gone => s.thread = none

structure Sound (s : DelegateTask) : Prop where
  joinable : s.joinable = true
  alive : s.terminated = false
  fresh : ∀ p ∈ s.satisfied, p ≤ s.promise
  others : ∀ w phase, s.workers[w]? = some phase → s.worker ≠ some w → phase = .finished
  /-- The newest promise is that of the worker, which gives it its value. -/
  current : ∀ w, s.worker = some w → s.future = some s.promise ∧
    ∃ phase, s.workers[w]? = some phase ∧ (s.promise ∈ s.satisfied ↔ phase ≠ .signalling)
  owner : s.OwnerSound

/-- The owner starts and destroys the task only where it has no thread. -/
def Disciplined (s : DelegateTask) (a : TaskAction) : Prop :=
  a = .start ∨ a = .destroy → s.thread = none

/-- The owner goes on in its call, or a worker goes on. -/
def Internal (a : TaskAction) : Prop := a = .resume ∨ ∃ w, a = .work w

theorem Internal.disciplined (h : Internal a) : s.Disciplined a := by
  rintro (rfl | rfl) <;> obtain h | ⟨w, h⟩ := h <;> cases h

theorem sound_new : (new true).Sound where
  joinable := rfl
  alive := rfl
  fresh := List.forall_mem_nil _
  others := fun w phase h => by cases h
  current := fun w h => by cases h
  owner := fun _ h => by cases h

theorem step_cases (h : s.step a = some s1) : s.terminated = false ∧ s.owner ≠ .gone ∧
    (a = .resume ∧ s.resume = some s1 ∨ (∃ w, a = .work w ∧ s.work w = some s1) ∨
      s.owner = .outside ∧ s.call a = some s1) := by
  unfold step at h
  split at h
  · cases h
  · rename_i hrunning
    rw [not_or, Bool.not_eq_true] at hrunning
    refine ⟨hrunning.1, hrunning.2, ?_⟩
    split at h
    · exact .inl ⟨rfl, h⟩
    · exact .inr (.inl ⟨_, rfl, h⟩)
    · obtain ⟨howner, hcall⟩ := Option.ite_none_right_eq_some.mp h
      exact .inr (.inr ⟨howner, hcall⟩)

/-- Only the worker of the task is not at its end. -/
theorem Sound.worker_of_phase (h : s.Sound) {w : Nat} {phase : WorkerPhase}
    (hphase : s.workers[w]? = some phase) (hne : phase ≠ .finished) : s.worker = some w := by
  by_contra hother
  exact hne (h.others w phase hphase hother)

/-- The worker gets to another phase. -/
theorem Sound.withPhase (h : s.Sound) {w : Nat} (hworker : s.worker = some w)
    {phase : WorkerPhase} {satisfied : List Nat} (hfresh : ∀ p ∈ satisfied, p ≤ s.promise)
    (hphase : s.promise ∈ satisfied ↔ phase ≠ .signalling) :
    Sound { s with satisfied := satisfied, workers := s.workers.set w phase } where
  joinable := h.joinable
  alive := h.alive
  fresh := hfresh
  others := by
    intro w1 phase1 hin hother
    have hne : w ≠ w1 := by
      rintro rfl
      exact hother hworker
    rw [List.getElem?_set_ne hne] at hin
    exact h.others w1 phase1 hin hother
  current := by
    intro w1 hworker1
    obtain rfl : w = w1 := Option.some.inj (hworker.symm.trans hworker1)
    obtain ⟨hfuture, phase1, hin, -⟩ := h.current w hworker
    refine ⟨hfuture, phase, ?_, hphase⟩
    exact List.getElem?_set_self (List.getElem?_eq_some_iff.mp hin).1
  owner := by
    have howner := h.owner
    unfold OwnerSound at howner ⊢
    dsimp only
    cases hphase : s.owner with
    | launching =>
      -- a task that is launching has no worker
      rw [hphase] at howner
      unfold worker at hworker
      rw [hphase] at hworker
      dsimp only at hworker
      rw [howner.1] at hworker
      cases hworker
    | _ =>
      rw [hphase] at howner
      exact howner

theorem Sound.work (h : s.Sound) {w : Nat} (hwork : s.work w = some s1) : s1.Sound := by
  unfold DelegateTask.work at hwork
  split at hwork
  · rename_i hphase
    have hworker := h.worker_of_phase hphase (by decide)
    obtain ⟨-, phase, hin, hsatisfied⟩ := h.current w hworker
    rw [hphase] at hin
    cases hin
    split at hwork
    · rename_i hset
      exact absurd rfl (hsatisfied.mp hset)
    · cases hwork
      refine h.withPhase hworker (List.forall_mem_cons.mpr ⟨Nat.le_refl _, h.fresh⟩) ?_
      exact iff_of_true List.mem_cons_self (by decide)
  · rename_i hphase
    have hworker := h.worker_of_phase hphase (by decide)
    obtain ⟨-, phase, hin, hsatisfied⟩ := h.current w hworker
    rw [hphase] at hin
    cases hin
    cases hwork
    refine h.withPhase hworker h.fresh (iff_of_true (hsatisfied.mpr (by decide)) ?_)
    split <;> decide
  · rename_i hphase
    have hworker := h.worker_of_phase hphase (by decide)
    obtain ⟨-, phase, hin, hsatisfied⟩ := h.current w hworker
    rw [hphase] at hin
    cases hin
    cases hwork
    exact h.withPhase hworker h.fresh (iff_of_true (hsatisfied.mpr (by decide)) (by decide))
  · cases hwork
  · cases hwork

/-- Outside of `start()` the worker is that of the thread. -/
theorem worker_of_ne (h : ∀ w, s.owner ≠ .assigning w) : s.worker = s.thread := by
  unfold worker
  split
  · rename_i w howner
    exact absurd howner (h w)
  · rfl

/-- The owner goes on with the same workers. -/
theorem Sound.withOwner (h : s.Sound) {stop : Bool} {finalizers released : List Nat}
    {owner : OwnerPhase} (hworker : s.worker = s.thread) (hne : ∀ w, owner ≠ .assigning w)
    (howner : OwnerSound { s with
      stop := stop, finalizers := finalizers, released := released, owner := owner }) :
    Sound { s with
      stop := stop, finalizers := finalizers, released := released, owner := owner } := by
  have hsame : worker { s with
      stop := stop, finalizers := finalizers, released := released, owner := owner } =
      s.worker := (worker_of_ne hne).trans hworker.symm
  exact {
    joinable := h.joinable
    alive := h.alive
    fresh := h.fresh
    others := fun w phase hin hother => h.others w phase hin (hsame ▸ hother)
    current := fun w hw => h.current w (hsame ▸ hw)
    owner := howner }

/-- The owner makes the promise of its next worker. -/
theorem Sound.renew (h : s.Sound) (hthread : s.thread = none) (hworker : s.worker = none) :
    Sound { s with
      promise := s.promise + 1
      future := some (s.promise + 1)
      owner := .launching } where
  joinable := h.joinable
  alive := h.alive
  fresh := fun p hp => Nat.le_succ_of_le (h.fresh p hp)
  others := fun w phase hin _ => h.others w phase hin (by
    rw [hworker]
    exact fun h => by cases h)
  current := fun w hw => by
    rw [worker_of_ne fun w h => by cases h] at hw
    cases hthread.symm.trans hw
  owner := ⟨hthread, fun hin => absurd (h.fresh _ hin) (Nat.not_succ_le_self _), rfl⟩

/-- The new worker is the worker of the task before it is assigned. -/
theorem Sound.launch (h : s.Sound) (hthread : s.thread = none) (hworker : s.worker = none)
    (hnew : s.promise ∉ s.satisfied) (hfuture : s.future = some s.promise) :
    Sound { s with
      workers := s.workers ++ [.signalling]
      owner := .assigning s.workers.length } where
  joinable := h.joinable
  alive := h.alive
  fresh := h.fresh
  others := by
    intro w phase hin hother
    have hne : w ≠ s.workers.length := by
      rintro rfl
      exact hother rfl
    rw [List.getElem?_append] at hin
    split at hin
    · refine h.others w phase hin ?_
      rw [hworker]
      exact fun h => by cases h
    · rw [List.getElem?_singleton] at hin
      split at hin
      · omega
      · cases hin
  current := by
    intro w hw
    obtain rfl : s.workers.length = w := Option.some.inj hw
    refine ⟨hfuture, .signalling, ?_, iff_of_false hnew fun h => h rfl⟩
    exact List.getElem?_concat_length
  owner := hthread

/-- The owner joins the worker, which is at its end. -/
theorem Sound.join (h : s.Sound) {w : Nat} (hworker : s.worker = some w)
    (hfinished : s.workers[w]? = some .finished) (hstop : s.stop = true) :
    Sound { s with thread := none, owner := .outside } where
  joinable := h.joinable
  alive := h.alive
  fresh := h.fresh
  others := by
    intro w1 phase hin _
    by_cases hw : w = w1
    · subst hw
      exact Option.some.inj (hin.symm.trans hfinished)
    · refine h.others w1 phase hin ?_
      rw [hworker]
      exact fun h => hw (Option.some.inj h)
  current := fun w hw => by cases hw
  owner := fun hrunning => absurd (hstop.symm.trans hrunning) (by decide)

/-- The owner goes on in a call. -/
theorem Sound.resume (h : s.Sound) (hresume : s.resume = some s1) : s1.Sound := by
  have hsound := h.owner
  unfold OwnerSound at hsound
  unfold DelegateTask.resume at hresume
  cases howner : s.owner with
  | outside =>
    rw [howner] at hresume
    cases hresume
  | gone =>
    rw [howner] at hresume
    cases hresume
  | renewing =>
    have hworker : s.worker = s.thread :=
      worker_of_ne (by rw [howner]; exact fun w h => by cases h)
    rw [howner] at hresume hsound
    cases hresume
    exact h.renew hsound (hworker.trans hsound)
  | launching =>
    have hworker : s.worker = s.thread :=
      worker_of_ne (by rw [howner]; exact fun w h => by cases h)
    rw [howner] at hresume hsound
    cases hresume
    obtain ⟨hthread, hnew, hfuture⟩ := hsound
    exact h.launch hthread (hworker.trans hthread) hnew hfuture
  | assigning worker =>
    rw [howner] at hresume hsound
    dsimp only at hresume hsound
    rw [hsound, if_neg (by decide), h.joinable, if_pos rfl] at hresume
    cases hresume
    have hworker : s.worker = some worker := by
      unfold DelegateTask.worker
      rw [howner]
    exact {
      joinable := rfl
      alive := h.alive
      fresh := h.fresh
      others := fun w phase hin hother => h.others w phase hin (hworker ▸ hother)
      current := fun w hw => h.current w (hworker.trans hw)
      owner := fun _ _ => rfl }
  | cleaning finalizers =>
    have hworker : s.worker = s.thread :=
      worker_of_ne (by rw [howner]; exact fun w h => by cases h)
    rw [howner] at hresume hsound
    cases finalizers with
    | cons fifo rest =>
      cases hresume
      exact h.withOwner hworker (fun w h => by cases h) hsound
    | nil =>
      cases hresume
      cases hthread : s.joinable && s.thread.isSome with
      | true =>
        have hsome := (Bool.and_eq_true_iff.mp hthread).2
        exact h.withOwner hworker (fun w h => by cases h) ⟨hsound, hsome⟩
      | false =>
        refine h.withOwner hworker (fun w h => by cases h) fun hstop => ?_
        exact absurd (hsound.symm.trans hstop) (by decide)
  | joining =>
    have hworker : s.worker = s.thread :=
      worker_of_ne (by rw [howner]; exact fun w h => by cases h)
    rw [howner] at hresume hsound
    dsimp only at hresume
    cases hthread : s.thread with
    | none =>
      rw [hthread] at hresume
      cases hresume
    | some w =>
      rw [hthread] at hresume
      obtain ⟨hfinished, hresume⟩ := Option.ite_none_right_eq_some.mp hresume
      cases hresume
      exact h.join (hworker.trans hthread) hfinished hsound.1
  | awaiting promise =>
    have hworker : s.worker = s.thread :=
      worker_of_ne (by rw [howner]; exact fun w h => by cases h)
    rw [howner] at hresume hsound
    obtain ⟨-, hresume⟩ := Option.ite_none_right_eq_some.mp hresume
    cases hresume
    exact h.withOwner hworker (fun w h => by cases h) fun _ _ => hsound.2.2

theorem Sound.call (h : s.Sound) (howner : s.owner = .outside) (hallowed : s.Disciplined a)
    (hcall : s.call a = some s1) : s1.Sound := by
  have hsound := h.owner
  unfold OwnerSound at hsound
  rw [howner] at hsound
  have hworker : s.worker = s.thread :=
    worker_of_ne (by rw [howner]; exact fun w h => by cases h)
  cases a with
  | start =>
    cases hcall
    exact h.withOwner hworker (fun w h => by cases h) (hallowed (.inl rfl))
  | stop =>
    cases hcall
    exact h.withOwner hworker (fun w h => by cases h) rfl
  | awaitRunning =>
    unfold DelegateTask.call at hcall
    dsimp only at hcall
    split at hcall
    · cases hcall
      exact h
    · rename_i hstop
      rw [Bool.not_eq_true] at hstop
      obtain ⟨promise, hfuture, rfl⟩ := Option.map_eq_some_iff.mp hcall
      refine h.withOwner hworker (fun w h => by cases h) ⟨hfuture, hstop, ?_⟩
      exact hsound hstop (Option.isSome_of_eq_some hfuture)
  | declareFinalizer fifo =>
    cases hcall
    have hdeclared : Sound { s with finalizers := s.finalizers ++ [fifo], owner := .outside } :=
      h.withOwner hworker (fun w h => by cases h) hsound
    rwa [← howner] at hdeclared
  | destroy =>
    have hthread := hallowed (.inr rfl)
    unfold DelegateTask.call at hcall
    rw [hthread] at hcall
    cases hcall
    have hgone : Sound { s with owner := .gone } :=
      h.withOwner hworker (fun w h => by cases h) hthread
    rwa [hthread] at hgone
  | resume => cases hcall
  | work w => cases hcall

/-- A step of the owner, in any of its calls, or of a worker. -/
theorem Sound.step (h : s.Sound) (hallowed : s.Disciplined a) (hstep : s.step a = some s1) :
    s1.Sound := by
  obtain ⟨-, -, ⟨-, hresume⟩ | ⟨w, -, hwork⟩ | ⟨howner, hcall⟩⟩ := step_cases hstep
  · exact h.resume hresume
  · exact h.work hwork
  · exact h.call howner hallowed hcall

/-! ## Safety -/

/-- The worker is not at its end. -/
def Live (s : DelegateTask) (w : Nat) : Prop :=
  ∃ phase, s.workers[w]? = some phase ∧ phase ≠ .finished

theorem Sound.of_runs (h : Runs DelegateTask.step Disciplined (new true) s) : s.Sound :=
  h.invariant (fun hs hallowed hstep => hs.step hallowed hstep) sound_new

theorem Sound.worker_of_live (h : s.Sound) {w : Nat} (hlive : s.Live w) : s.worker = some w := by
  obtain ⟨phase, hphase, hne⟩ := hlive
  exact h.worker_of_phase hphase hne

/-- A task that was started. -/
def started : DelegateTask :=
  { new true with
    promise := 1
    future := some 1
    thread := some 0
    workers := [.signalling] }

theorem runs_started : Runs step Disciplined (new true) started :=
  have hresume : ∀ s : DelegateTask, s.Disciplined .resume := fun _ =>
    Internal.disciplined (.inl rfl)
  .head ⟨.start, fun _ => rfl, rfl⟩ (.head ⟨.resume, hresume _, rfl⟩
    (.head ⟨.resume, hresume _, rfl⟩ (.single ⟨.resume, hresume _, rfl⟩)))

theorem step_resume (halive : s.terminated = false) (hne : s.owner ≠ .gone) :
    s.step .resume = s.resume := by
  unfold step
  rw [if_neg (by simp [halive, hne])]

theorem step_work (halive : s.terminated = false) (hne : s.owner ≠ .gone) (w : Nat) :
    s.step (.work w) = s.work w := by
  unfold step
  rw [if_neg (by simp [halive, hne])]

/-- A worker leaves the thread and the owner alone. -/
theorem work_keeps {w : Nat} (h : s.work w = some s1) :
    s1.thread = s.thread ∧ s1.owner = s.owner ∧ s1.stop = s.stop ∧ s1.released = s.released ∧
      s1.finalizers = s.finalizers := by
  unfold work at h
  split at h
  · split at h <;> cases h <;> exact ⟨rfl, rfl, rfl, rfl, rfl⟩
  · cases h
    exact ⟨rfl, rfl, rfl, rfl, rfl⟩
  · cases h
    exact ⟨rfl, rfl, rfl, rfl, rfl⟩
  · cases h
  · cases h

/-- In `start()`. -/
def Starting (s : DelegateTask) : Prop :=
  s.owner = .renewing ∨ s.owner = .launching ∨ ∃ w, s.owner = .assigning w

/-- The start of a task that has a thread does not end. -/
theorem starting_step (hthread : s.thread.isSome = true) (hstarting : s.Starting)
    (h : s.step a = some s1) : s1.thread.isSome = true ∧ s1.Starting := by
  obtain ⟨-, -, ⟨-, hresume⟩ | ⟨w, -, hwork⟩ | ⟨houtside, -⟩⟩ := step_cases h
  · unfold resume at hresume
    obtain howner | howner | ⟨w, howner⟩ := hstarting <;> rw [howner] at hresume
    · cases hresume
      exact ⟨hthread, .inr (.inl rfl)⟩
    · cases hresume
      exact ⟨hthread, .inr (.inr ⟨_, rfl⟩)⟩
    · dsimp only at hresume
      rw [if_pos hthread] at hresume
      cases hresume
      exact ⟨hthread, .inr (.inr ⟨w, rfl⟩)⟩
  · obtain ⟨hsame, howner, -⟩ := work_keeps hwork
    unfold Starting
    rw [hsame, howner]
    exact ⟨hthread, hstarting⟩
  · obtain howner | howner | ⟨w, howner⟩ := hstarting <;> cases howner.symm.trans houtside

/-- The steps of the worker of the thread. -/
def rank (s : DelegateTask) : Nat :=
  ((s.thread.bind fun w => s.workers[w]?).map WorkerPhase.rank).getD 0

/-- The steps to the end of `stop()`. -/
def remaining (s : DelegateTask) : Nat :=
  match s.owner with
  | .cleaning finalizers => finalizers.length + 2 + s.rank
  | .joining => 1 + s.rank
  | _ => 0

/-- In `stop()`, with these fifos still to be released; or behind it. -/
inductive Stopping (fifos : List Nat) (s : DelegateTask) : Prop
  | cleaning (rest : List Nat) (howner : s.owner = .cleaning rest)
    (hreleased : s.released ++ rest = fifos)
  | joining (howner : s.owner = .joining) (hreleased : s.released = fifos)
  | returned (howner : s.owner = .outside) (hthread : s.thread = none)
    (hreleased : s.released = fifos)

theorem rank_of_thread {w : Nat} {phase : WorkerPhase} (hthread : s.thread = some w)
    (hphase : s.workers[w]? = some phase) : s.rank = phase.rank := by
  unfold rank
  rw [hthread, Option.bind_some, hphase]
  rfl

/-- Of a task that is stopped each step of the worker is one of its last. -/
theorem Sound.rank_work (h : s.Sound) (hworker : s.worker = s.thread) (hstop : s.stop = true)
    {w : Nat} (hwork : s.work w = some s1) : s1.rank < s.rank := by
  have hnext : ∀ {phase phase1 : WorkerPhase}, s.workers[w]? = some phase →
      phase1.rank < phase.rank → ∀ satisfied,
      rank { s with satisfied := satisfied, workers := s.workers.set w phase1 } < s.rank := by
    intro phase phase1 hphase hlt satisfied
    have hne : phase ≠ .finished := by
      rintro rfl
      exact absurd hlt (Nat.not_lt_zero _)
    have hthread := hworker.symm.trans (h.worker_of_phase hphase hne)
    have hset : (s.workers.set w phase1)[w]? = some phase1 :=
      List.getElem?_set_self (List.getElem?_eq_some_iff.mp hphase).1
    have hrank := @rank_of_thread
      { s with satisfied := satisfied, workers := s.workers.set w phase1 } w phase1 hthread hset
    rw [hrank, rank_of_thread hthread hphase]
    exact hlt
  unfold DelegateTask.work at hwork
  split at hwork
  · rename_i hphase
    split at hwork
    · cases hwork
      obtain ⟨-, phase, hin, hsatisfied⟩ := h.current w (h.worker_of_phase hphase (by decide))
      rw [hphase] at hin
      cases hin
      rename_i hset
      exact absurd rfl (hsatisfied.mp hset)
    · cases hwork
      exact hnext hphase (by decide) _
  · rename_i hphase
    cases hwork
    rw [hstop, if_pos rfl]
    exact hnext hphase (by decide) s.satisfied
  · rename_i hphase
    cases hwork
    exact hnext hphase (by decide) s.satisfied
  · cases hwork
  · cases hwork

theorem Stopping.ne_assigning {fifos : List Nat} (h : s.Stopping fifos) (w : Nat) :
    s.owner ≠ .assigning w := by
  intro heq
  cases h with
  | cleaning rest howner => cases howner.symm.trans heq
  | joining howner => cases howner.symm.trans heq
  | returned howner => cases howner.symm.trans heq

theorem live_of_work {w : Nat} (h : s.work w = some s1) : s.Live w := by
  unfold work at h
  split at h
  · exact ⟨_, by assumption, by decide⟩
  · exact ⟨_, by assumption, by decide⟩
  · exact ⟨_, by assumption, by decide⟩
  · cases h
  · cases h

theorem Stopping.resume {fifos : List Nat} (hstopping : s.Stopping fifos) (h : s.Sound)
    (hresume : s.resume = some s1) : s1.Stopping fifos ∧ s1.remaining < s.remaining := by
  unfold DelegateTask.resume at hresume
  cases hstopping with
  | cleaning rest howner hreleased =>
    have hremaining : s.remaining = rest.length + 2 + s.rank := by
      unfold remaining
      rw [howner]
    rw [howner] at hresume
    rw [hremaining]
    cases rest with
    | cons fifo rest =>
      cases hresume
      refine ⟨.cleaning rest rfl (by rw [← hreleased, List.append_assoc]; rfl), ?_⟩
      show rest.length + 2 + s.rank < rest.length + 1 + 2 + s.rank
      omega
    | nil =>
      rw [List.append_nil] at hreleased
      cases hresume
      cases hthread : s.joinable && s.thread.isSome with
      | true =>
        refine ⟨.joining rfl hreleased, ?_⟩
        show 1 + s.rank < 0 + 2 + s.rank
        omega
      | false =>
        rw [h.joinable, Bool.true_and] at hthread
        refine ⟨.returned rfl (Option.isNone_iff_eq_none.mp ?_) hreleased, ?_⟩
        · rw [← Option.not_isSome, hthread]
          rfl
        · show 0 < 0 + 2 + s.rank
          omega
  | joining howner hreleased =>
    have hremaining : s.remaining = 1 + s.rank := by
      unfold remaining
      rw [howner]
    rw [howner] at hresume
    dsimp only at hresume
    cases hthread : s.thread with
    | none =>
      rw [hthread] at hresume
      cases hresume
    | some w =>
      rw [hthread] at hresume
      obtain ⟨-, hresume⟩ := Option.ite_none_right_eq_some.mp hresume
      cases hresume
      refine ⟨.returned rfl rfl hreleased, ?_⟩
      rw [hremaining]
      show 0 < 1 + s.rank
      omega
  | returned howner =>
    rw [howner] at hresume
    cases hresume

theorem Stopping.work {fifos : List Nat} (hstopping : s.Stopping fifos) (h : s.Sound) {w : Nat}
    (hwork : s.work w = some s1) : s1.Stopping fifos ∧ s1.remaining < s.remaining := by
  have hworker := worker_of_ne hstopping.ne_assigning
  have hsound := h.owner
  obtain ⟨hthread, hsame, -, hkept, -⟩ := work_keeps hwork
  unfold OwnerSound at hsound
  cases hstopping with
  | cleaning rest howner hreleased =>
    rw [howner] at hsound
    have hrank := h.rank_work hworker hsound hwork
    refine ⟨.cleaning rest (hsame.trans howner) (by rw [hkept, hreleased]), ?_⟩
    unfold remaining
    rw [hsame, howner]
    dsimp only
    omega
  | joining howner hreleased =>
    rw [howner] at hsound
    have hrank := h.rank_work hworker hsound.1 hwork
    refine ⟨.joining (hsame.trans howner) (by rw [hkept, hreleased]), ?_⟩
    unfold remaining
    rw [hsame, howner]
    dsimp only
    omega
  | returned howner hnone =>
    have hlive := h.worker_of_live (live_of_work hwork)
    rw [hworker, hnone] at hlive
    cases hlive

/-- Every step in `stop()` is one of the last. -/
theorem Stopping.step {fifos : List Nat} (hstopping : s.Stopping fifos) (h : s.Sound)
    (ha : Internal a) (hstep : s.step a = some s1) :
    s1.Stopping fifos ∧ s1.remaining < s.remaining := by
  obtain ⟨-, -, ⟨-, hresume⟩ | ⟨w, -, hwork⟩ | ⟨-, hcall⟩⟩ := step_cases hstep
  · exact hstopping.resume h hresume
  · exact hstopping.work h hwork
  · obtain rfl | ⟨w, rfl⟩ := ha <;> cases hcall

/-- Where nobody can go on, `stop()` has returned. -/
theorem Stopping.returned_of_stuck {fifos : List Nat} (hstopping : s.Stopping fifos) (h : s.Sound)
    (hstuck : ∀ a, Internal a → s.step a = none) :
    s.owner = .outside ∧ s.thread = none ∧ s.released = fifos := by
  have hresume : s.owner ≠ .gone → s.resume = none := fun hne => by
    rw [← step_resume h.alive hne]
    exact hstuck _ (.inl rfl)
  cases hstopping with
  | cleaning rest howner =>
    have hnone := hresume (by rw [howner]; exact fun h => by cases h)
    unfold DelegateTask.resume at hnone
    rw [howner] at hnone
    cases rest <;> cases hnone
  | joining howner =>
    have hne : s.owner ≠ .gone := by
      rw [howner]
      exact fun h => by cases h
    have hsound := h.owner
    unfold OwnerSound at hsound
    rw [howner] at hsound
    obtain ⟨w, hthread⟩ := Option.isSome_iff_exists.mp hsound.2
    have hworker : s.worker = some w :=
      (worker_of_ne (by rw [howner]; exact fun w h => by cases h)).trans hthread
    obtain ⟨-, phase, hphase, -⟩ := h.current w hworker
    have hwork : s.work w = none := by
      rw [← step_work h.alive hne]
      exact hstuck _ (.inr ⟨w, rfl⟩)
    have hnone := hresume hne
    unfold DelegateTask.resume at hnone
    rw [howner] at hnone
    dsimp only at hnone
    rw [hthread] at hnone
    dsimp only at hnone
    rw [hphase] at hnone
    unfold DelegateTask.work at hwork
    rw [hphase] at hwork
    cases phase with
    | signalling =>
      dsimp only at hwork
      split at hwork <;> cases hwork
    | testing => cases hwork
    | processing => cases hwork
    | finished =>
      rw [if_pos rfl] at hnone
      cases hnone
  | returned howner hthread hreleased => exact ⟨howner, hthread, hreleased⟩

/-- A wait is for the promise of the last `start()`, and it is over after one step of the
worker at most. -/
theorem awaitRunning_returns (h : Runs step Disciplined (new true) s) {promise : Nat}
    (howner : s.owner = .awaiting promise) : promise = s.promise ∧
      ((s.step .resume).isSome = true ∨ ∃ w s1, s.step (.work w) = some s1 ∧
        s1.owner = .awaiting promise ∧ (s1.step .resume).isSome = true) := by
  have hsound := Sound.of_runs h
  have hne : s.owner ≠ .gone := by
    rw [howner]
    exact fun h => by cases h
  have hwaits := hsound.owner
  unfold OwnerSound at hwaits
  rw [howner] at hwaits
  obtain ⟨hfuture, -, hthread⟩ := hwaits
  obtain ⟨w, hthread⟩ := Option.isSome_iff_exists.mp hthread
  have hworker : s.worker = some w :=
    (worker_of_ne (by rw [howner]; exact fun w h => by cases h)).trans hthread
  obtain ⟨hfuture1, phase, hphase, hsatisfied⟩ := hsound.current w hworker
  obtain rfl : promise = s.promise := Option.some.inj (hfuture.symm.trans hfuture1)
  have hover : ∀ {s1 : DelegateTask}, s1.terminated = false → s1.owner = .awaiting s.promise →
      s.promise ∈ s1.satisfied → (s1.step .resume).isSome = true := by
    intro s1 halive howner1 hin
    rw [step_resume halive (by rw [howner1]; exact fun h => by cases h)]
    unfold resume
    rw [howner1]
    dsimp only
    rw [if_pos hin]
    rfl
  refine ⟨rfl, ?_⟩
  by_cases hin : s.promise ∈ s.satisfied
  · exact .inl (hover hsound.alive howner hin)
  · obtain rfl : phase = .signalling := by
      by_contra hphase1
      exact hin (hsatisfied.mpr hphase1)
    have hwork : s.work w = some { s with
        satisfied := s.promise :: s.satisfied, workers := s.workers.set w .testing } := by
      unfold work
      rw [hphase]
      dsimp only
      rw [if_neg hin]
    exact .inr ⟨w, _, (step_work hsound.alive hne w).trans hwork, howner,
      hover hsound.alive howner List.mem_cons_self⟩

theorem awaitRunning_returns_started : ∃ w s1,
    step { started with owner := .awaiting 1 } (.work w) = some s1 ∧ s1.owner = .awaiting 1 ∧
      (s1.step .resume).isSome = true := by
  have hallowed : started.Disciplined .awaitRunning := fun h => by
    obtain h | h := h <;> cases h
  have hruns : Runs step Disciplined (new true) { started with owner := .awaiting 1 } :=
    runs_started.tail ⟨.awaitRunning, hallowed, rfl⟩
  obtain ⟨-, hnow | hthen⟩ := awaitRunning_returns hruns rfl
  · cases hnow
  · exact hthen

/-! ## Tasks that are not joinable -/

/-- The owner starts the task only where it is new or was stopped. -/
def StartsStopped (s : DelegateTask) (a : TaskAction) : Bool :=
  a ≠ .start || s.workers = [] || s.stop

/-- The actions of a start and a stop between which the worker, the next one, only gets into
its function. -/
def missedStop (worker : Nat) : List TaskAction :=
  [.start, .resume, .resume, .resume, .work worker, .work worker, .stop, .resume]

/-- Between a start and a stop, with these workers before. -/
structure LeftRunning (s : DelegateTask) (n : Nat) : Prop where
  joinable : s.joinable = false
  alive : s.terminated = false
  owner : s.owner = .outside
  thread : s.thread = none
  finalizers : s.finalizers = []
  fresh : ∀ p ∈ s.satisfied, p ≤ s.promise
  workers : s.workers = List.replicate n .processing
  stopped : n = 0 ∨ s.stop = true

theorem LeftRunning.missedStop {n : Nat} (h : s.LeftRunning n) :
    ∃ s1, runs step StartsStopped s (missedStop n) = some s1 ∧ s1.LeftRunning (n + 1) := by
  obtain ⟨joinable, stop, finalizers, promise, future, satisfied, thread, workers, owner, released,
    terminated⟩ := s
  obtain ⟨hjoinable, halive, howner, hthread, hfinalizers, hfresh, hworkers, hstopped⟩ := h
  dsimp only at *
  subst hjoinable halive howner hthread hfinalizers
  have hnew : promise + 1 ∉ satisfied := fun hin => absurd (hfresh _ hin) (Nat.not_succ_le_self _)
  have hlength : workers.length = n := by rw [hworkers, List.length_replicate]
  have hallowed : workers = [] ∨ stop = true := by
    refine hstopped.imp_left fun hn => ?_
    rw [hworkers, hn, List.replicate_zero]
  subst hlength
  refine ⟨⟨false, true, [], promise + 1, some (promise + 1), (promise + 1) :: satisfied, none,
    workers ++ [.processing], .outside, released, false⟩, ?_, ?_⟩
  · simp [runs, DelegateTask.missedStop, step, call, resume, work, StartsStopped, hnew, hallowed]
  · exact {
      joinable := rfl
      alive := rfl
      owner := rfl
      thread := rfl
      finalizers := rfl
      fresh := List.forall_mem_cons.mpr
        ⟨Nat.le_refl _, fun p hp => Nat.le_succ_of_le (hfresh p hp)⟩
      workers := by
        dsimp only
        rw [hworkers, List.length_replicate, List.replicate_succ']
      stopped := .inr rfl }

/-- Two starts, between which the first worker, the next one, does not signal. -/
def missedSignal (worker : Nat) : List TaskAction :=
  [.start, .resume, .resume, .resume, .stop, .resume, .start, .resume, .resume, .resume,
    .work worker, .work (worker + 1)]

/-- Both workers give the promise of the second start its value. -/
theorem LeftRunning.missedSignal {n : Nat} (h : s.LeftRunning n) :
    ∃ s1, runs step StartsStopped s (missedSignal n) = some s1 ∧ s1.terminated = true := by
  obtain ⟨joinable, stop, finalizers, promise, future, satisfied, thread, workers, owner, released,
    terminated⟩ := s
  obtain ⟨hjoinable, halive, howner, hthread, hfinalizers, hfresh, hworkers, hstopped⟩ := h
  dsimp only at *
  subst hjoinable halive howner hthread hfinalizers
  have hnew : promise + 1 + 1 ∉ satisfied := fun hin => by
    have hle := hfresh _ hin
    omega
  have hlength : workers.length = n := by rw [hworkers, List.length_replicate]
  have hallowed : workers = [] ∨ stop = true := by
    refine hstopped.imp_left fun hn => ?_
    rw [hworkers, hn, List.replicate_zero]
  subst hlength
  simp [runs, DelegateTask.missedSignal, step, call, resume, work, StartsStopped, hnew, hallowed]

/-- A task that is not joinable may have any number of workers in its function, though it
was stopped before each start; and the next start may terminate the program. -/
theorem detached_task_unsafe (n : Nat) : ∃ s s1,
    Runs step (fun s a => s.StartsStopped a = true) (new false) s ∧ s.terminated = false ∧
      s.owner = .outside ∧ (n = 0 ∨ s.stop = true) ∧ s.workers = List.replicate n .processing ∧
      Runs step (fun s a => s.StartsStopped a = true) s s1 ∧ s1.terminated = true := by
  have hall : ∀ n, ∃ s, Runs step (fun s a => s.StartsStopped a = true) (new false) s ∧
      s.LeftRunning n := by
    intro n
    induction n with
    | zero =>
      exact ⟨new false, .refl, rfl, rfl, rfl, rfl, rfl, List.forall_mem_nil _, rfl, .inl rfl⟩
    | succ n ih =>
      obtain ⟨s, hrun, hleft⟩ := ih
      obtain ⟨s1, hmissed, hleft1⟩ := hleft.missedStop
      exact ⟨s1, hrun.trans (Runs.of_runs hmissed), hleft1⟩
  obtain ⟨s, hrun, hleft⟩ := hall n
  obtain ⟨s1, hmissed, hterminated⟩ := hleft.missedSignal
  exact ⟨s, s1, hrun, hleft.alive, hleft.owner, hleft.stopped, hleft.workers,
    Runs.of_runs hmissed, hterminated⟩

end DelegateTask

end Xpcf
