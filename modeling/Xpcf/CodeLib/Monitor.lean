import Mathlib.Logic.Function.Basic
import Mathlib.Logic.Relation

/-!
# Monitors

A monitor is an object whose methods run under one mutex and wait on condition
variables.  A method takes the mutex, tests the guard of its wait loop, and
either goes to sleep or runs to its end.  The test and the sleep are two steps:
the mutex is held between them, so only code that does not take it can run
there.  The one such method is `release`, which writes a flag and then notifies.

* `Monitor`: the methods, by the object before and after;
* `Config` and `Step`: any number of threads that call them, with the wait sets
  explicit and every choice of the scheduler in the `Action`;
* `Reaches`: the runs whose steps are allowed, and the rules that carry an
  invariant along them.
-/

namespace CodeLib

/-- How a critical section ends: the object it leaves, its answer, and the
condition variable on which it calls `notify_one`. -/
structure Ending (σ κ ρ : Type) where
  object : σ
  result : ρ
  notify : Option κ

/-- The methods `ι` of an object `σ` with condition variables `κ` and answers
`ρ`. -/
structure Monitor (σ κ ι ρ : Type) where
  /-- The guard of the wait loop: what the call waits on.  The flag says that
  its last wait timed out. -/
  waitsOn : ι → Bool → σ → Option κ
  /-- The code after the wait loop. -/
  body : ι → Bool → σ → Ending σ κ ρ
  /-- The call waits with a timeout. -/
  timed : ι → Bool
  /-- The answer of a call that only tries to take the mutex, when it fails. -/
  tried : ι → Option ρ
  /-- The write of `release`, which takes no mutex. -/
  release : σ → σ
  /-- `notify_all` of `release`. -/
  releaseNotifies : κ

namespace Monitor

variable {σ κ ι ρ τ : Type}

/-- What a thread is doing. -/
inductive Phase (κ ι : Type) where
  | idle
  /-- The guard was true: the mutex is held and the sleep comes next. -/
  | deciding (call : ι) (on : κ)
  /-- In the wait set of a condition variable. -/
  | asleep (call : ι) (on : κ)
  /-- Out of the wait set, and the mutex not yet taken again: a wakeup is
  pending. -/
  | woken (call : ι) (timedOut : Bool)
  /-- Inside `release`, between the write and the notification. -/
  | releasing

/-- The effect of a notification on a waiter. -/
def Phase.wake : Phase κ ι → Phase κ ι
  | .asleep c _ => .woken c false
  | p => p

def Phase.asleepOn [DecidableEq κ] (k : κ) : Phase κ ι → Bool
  | .asleep _ k1 => k1 = k
  | _ => false

def Phase.Waits (p : Phase κ ι) (c : ι) (k : κ) : Prop :=
  p = .deciding c k ∨ p = .asleep c k

/-- A method that returned. -/
inductive Return (ι ρ : Type) where
  | call (call : ι) (result : ρ)
  | release

@[ext] structure Config (σ κ ι ρ τ : Type) where
  object : σ
  /-- The thread that holds the mutex between two steps. -/
  owner : Option τ
  phase : τ → Phase κ ι
  /-- The returns so far, in the order of their critical sections. -/
  history : List (τ × Return ι ρ)

/-- No call has been made yet. -/
def Config.start (object : σ) : Config σ κ ι ρ τ :=
  ⟨object, none, fun _ => .idle, []⟩

/-- A choice of the scheduler. -/
inductive Action (ι τ : Type) where
  /-- The thread takes the mutex for the call, and its `notify_one`, if any,
  wakes the second thread. -/
  | enter (t : τ) (call : ι) (wakes : Option τ)
  | sleep (t : τ)
  | spurious (t : τ)
  | timeout (t : τ)
  | tryFails (t : τ) (call : ι)
  | setReleased (t : τ)
  | notifyReleased (t : τ)

namespace Config

/-- The thread may take the mutex for this call: it makes the call now, or it
was woken from it. -/
def Ready (s : Config σ κ ι ρ τ) (t : τ) (c : ι) (timedOut : Bool) : Prop :=
  s.owner = none ∧ (s.phase t = .idle ∧ timedOut = false ∨ s.phase t = .woken c timedOut)

def AsleepOn (s : Config σ κ ι ρ τ) (t : τ) (k : κ) : Prop :=
  ∃ c, s.phase t = .asleep c k

/-- The thread sleeps on `k`, or is about to. -/
def Waits (s : Config σ κ ι ρ τ) (t : τ) (c : ι) (k : κ) : Prop :=
  (s.phase t).Waits c k

/-- `notify_one` on `k` may wake `u`: it wakes a waiter if there is one. -/
def CanNotify (s : Config σ κ ι ρ τ) (k : κ) : Option τ → Prop
  | some u => s.AsleepOn u k
  | none => ∀ u, ¬ s.AsleepOn u k


variable [DecidableEq τ]

def setPhase (s : Config σ κ ι ρ τ) (t : τ) (p : Phase κ ι) : Config σ κ ι ρ τ :=
  { s with phase := Function.update s.phase t p }

def wake (s : Config σ κ ι ρ τ) : Option τ → Config σ κ ι ρ τ
  | some u => s.setPhase u (s.phase u).wake
  | none => s

/-- The end of a critical section of `t`. -/
def finish (s : Config σ κ ι ρ τ) (t : τ) (c : ι) (e : Ending σ κ ρ) : Config σ κ ι ρ τ :=
  { s.setPhase t .idle with
    object := e.object
    history := s.history ++ [(t, .call c e.result)] }

/-- `notify_all`. -/
def wakeAll [DecidableEq κ] (s : Config σ κ ι ρ τ) (k : κ) : Config σ κ ι ρ τ :=
  { s with phase := fun t => if (s.phase t).asleepOn k then (s.phase t).wake else s.phase t }

@[simp] theorem setPhase_object (s : Config σ κ ι ρ τ) (t : τ) (p : Phase κ ι) :
    (s.setPhase t p).object = s.object := rfl

@[simp] theorem setPhase_owner (s : Config σ κ ι ρ τ) (t : τ) (p : Phase κ ι) :
    (s.setPhase t p).owner = s.owner := rfl

@[simp] theorem setPhase_history (s : Config σ κ ι ρ τ) (t : τ) (p : Phase κ ι) :
    (s.setPhase t p).history = s.history := rfl

theorem setPhase_phase (s : Config σ κ ι ρ τ) (t : τ) (p : Phase κ ι) (u : τ) :
    (s.setPhase t p).phase u = if u = t then p else s.phase u :=
  Function.update_apply s.phase t p u

@[simp] theorem wake_object (s : Config σ κ ι ρ τ) (u : Option τ) :
    (s.wake u).object = s.object := by
  cases u <;> rfl

@[simp] theorem wake_owner (s : Config σ κ ι ρ τ) (u : Option τ) :
    (s.wake u).owner = s.owner := by
  cases u <;> rfl

@[simp] theorem wake_history (s : Config σ κ ι ρ τ) (u : Option τ) :
    (s.wake u).history = s.history := by
  cases u <;> rfl

theorem wake_phase (s : Config σ κ ι ρ τ) (u : Option τ) (t : τ) :
    (s.wake u).phase t = if u = some t then (s.phase t).wake else s.phase t := by
  cases u with
  | none => rfl
  | some u =>
    show (s.setPhase u _).phase t = _
    rw [setPhase_phase]
    by_cases htu : t = u
    · simp [htu]
    · simp [htu, Ne.symm htu]

@[simp] theorem finish_object (s : Config σ κ ι ρ τ) (t : τ) (c : ι) (e : Ending σ κ ρ) :
    (s.finish t c e).object = e.object := rfl

@[simp] theorem finish_owner (s : Config σ κ ι ρ τ) (t : τ) (c : ι) (e : Ending σ κ ρ) :
    (s.finish t c e).owner = s.owner := rfl

@[simp] theorem finish_history (s : Config σ κ ι ρ τ) (t : τ) (c : ι) (e : Ending σ κ ρ) :
    (s.finish t c e).history = s.history ++ [(t, .call c e.result)] := rfl

theorem finish_phase (s : Config σ κ ι ρ τ) (t : τ) (c : ι) (e : Ending σ κ ρ) (u : τ) :
    (s.finish t c e).phase u = if u = t then .idle else s.phase u :=
  setPhase_phase s t .idle u

omit [DecidableEq τ] in
theorem wakeAll_phase [DecidableEq κ] (s : Config σ κ ι ρ τ) (k : κ) (t : τ) :
    (s.wakeAll k).phase t = if (s.phase t).asleepOn k then (s.phase t).wake else s.phase t := rfl

end Config

variable [DecidableEq τ] [DecidableEq κ]

/-- The steps of the threads on the object. -/
inductive Step (M : Monitor σ κ ι ρ) :
    Config σ κ ι ρ τ → Action ι τ → Config σ κ ι ρ τ → Prop where
  | waits {s t c timedOut k} (hready : s.Ready t c timedOut)
      (hwaits : M.waitsOn c timedOut s.object = some k) :
      Step M s (.enter t c none) { s.setPhase t (.deciding c k) with owner := some t }
  | finishes {s t c timedOut} (hready : s.Ready t c timedOut)
      (hwaits : M.waitsOn c timedOut s.object = none)
      (hnotify : (M.body c timedOut s.object).notify = none) :
      Step M s (.enter t c none) (s.finish t c (M.body c timedOut s.object))
  | notifies {s t c timedOut k u} (hready : s.Ready t c timedOut)
      (hwaits : M.waitsOn c timedOut s.object = none)
      (hnotify : (M.body c timedOut s.object).notify = some k) (hu : s.CanNotify k u) :
      Step M s (.enter t c u) ((s.finish t c (M.body c timedOut s.object)).wake u)
  | sleeps {s t c k} (hphase : s.phase t = .deciding c k) :
      Step M s (.sleep t) { s.setPhase t (.asleep c k) with owner := none }
  | spurious {s t c k} (hphase : s.phase t = .asleep c k) :
      Step M s (.spurious t) (s.setPhase t (.woken c false))
  | timesOut {s t c k} (hphase : s.phase t = .asleep c k) (htimed : M.timed c = true) :
      Step M s (.timeout t) (s.setPhase t (.woken c true))
  | tryFails {s t c r} (hphase : s.phase t = .idle) (htried : M.tried c = some r) :
      Step M s (.tryFails t c) { s with history := s.history ++ [(t, .call c r)] }
  | setsReleased {s t} (hphase : s.phase t = .idle) :
      Step M s (.setReleased t) { s.setPhase t .releasing with object := M.release s.object }
  | notifiesReleased {s t} (hphase : s.phase t = .releasing) :
      Step M s (.notifyReleased t)
        { (s.wakeAll M.releaseNotifies).setPhase t .idle with
          history := s.history ++ [(t, .release)] }

/-- Some run goes from one configuration to the other by allowed steps. -/
def Reaches (M : Monitor σ κ ι ρ) (allowed : Config σ κ ι ρ τ → Action ι τ → Prop) :
    Config σ κ ι ρ τ → Config σ κ ι ρ τ → Prop :=
  Relation.ReflTransGen fun s s1 => ∃ a, allowed s a ∧ M.Step s a s1

/-! ## Invariants of a run -/

section Invariants

variable {M : Monitor σ κ ι ρ} {allowed : Config σ κ ι ρ τ → Action ι τ → Prop}
  {s s1 : Config σ κ ι ρ τ} {a : Action ι τ}

/-- What every allowed step preserves, a run preserves. -/
theorem Reaches.invariant {P : Config σ κ ι ρ τ → Prop}
    (hstep : ∀ {s a s1}, P s → allowed s a → M.Step s a s1 → P s1)
    (h : M.Reaches allowed s s1) (hs : P s) : P s1 := by
  induction h with
  | refl => exact hs
  | tail _ hlast ih =>
    obtain ⟨a, hallowed, hlast⟩ := hlast
    exact hstep ih hallowed hlast

theorem Reaches.step (h : M.Reaches allowed s s1) {s2 : Config σ κ ι ρ τ} (ha : allowed s1 a)
    (hstep : M.Step s1 a s2) : M.Reaches allowed s s2 :=
  h.tail ⟨a, ha, hstep⟩

/-- A call that finds its guard false runs to its end, and wakes `w` if it notifies. -/
theorem Reaches.call (h : M.Reaches allowed s s1) (t : τ) (c : ι) (timedOut : Bool) (w : Option τ)
    (ha : allowed s1 (.enter t c w)) (hready : s1.Ready t c timedOut)
    (hwaits : M.waitsOn c timedOut s1.object = none)
    (hnone : (M.body c timedOut s1.object).notify = none → w = none)
    (hsome : ∀ k, (M.body c timedOut s1.object).notify = some k → s1.CanNotify k w)
    {s2 : Config σ κ ι ρ τ} (hend : (s1.finish t c (M.body c timedOut s1.object)).wake w = s2) :
    M.Reaches allowed s s2 := by
  refine h.step ha ?_
  rw [← hend]
  cases hnotify : (M.body c timedOut s1.object).notify with
  | none =>
    obtain rfl := hnone hnotify
    exact .finishes hready hwaits hnotify
  | some k => exact .notifies hready hwaits hnotify (hsome k hnotify)

/-- A call that finds its guard true goes to sleep. -/
theorem Reaches.sleep (h : M.Reaches allowed s s1) (t : τ) (c : ι) (k : κ) (timedOut : Bool)
    (ha : ∀ s, allowed s (.enter t c none) ∧ allowed s (.sleep t))
    (hready : s1.Ready t c timedOut) (hwaits : M.waitsOn c timedOut s1.object = some k)
    {s2 : Config σ κ ι ρ τ}
    (hend : { s1.setPhase t (.asleep c k) with owner := none } = s2) :
    M.Reaches allowed s s2 := by
  have hphase : (s1.setPhase t (.deciding c k)).phase t = .deciding c k := by
    simp [Config.setPhase_phase]
  have hdeciding := h.step (ha _).1 (.waits hready hwaits)
  have hasleep := hdeciding.step (ha _).2 (.sleeps hphase)
  rw [← hend]
  simpa [Config.setPhase] using hasleep

/-- The object and the history change only where a method returns and where
`release` writes. -/
theorem Step.object_history {P : σ → List (τ × Return ι ρ) → Prop}
    (hbody : ∀ o hist t c timedOut, P o hist → M.waitsOn c timedOut o = none →
      P (M.body c timedOut o).object (hist ++ [(t, .call c (M.body c timedOut o).result)]))
    (htried : ∀ o hist t c r, P o hist → M.tried c = some r → P o (hist ++ [(t, .call c r)]))
    (hset : ∀ o hist, P o hist → P (M.release o) hist)
    (hreturn : ∀ o hist t, P o hist → P o (hist ++ [(t, .release)]))
    (h : M.Step s a s1) (hs : P s.object s.history) : P s1.object s1.history := by
  cases h with
  | waits hready hwaits => exact hs
  | finishes hready hwaits hnotify => exact hbody _ _ _ _ _ hs hwaits
  | notifies hready hwaits hnotify hu =>
    rw [Config.wake_object, Config.wake_history]
    exact hbody _ _ _ _ _ hs hwaits
  | sleeps hphase => exact hs
  | spurious hphase => exact hs
  | timesOut hphase htimed => exact hs
  | tryFails hphase htried1 => exact htried _ _ _ _ _ hs htried1
  | setsReleased hphase => exact hset _ _ hs
  | notifiesReleased hphase => exact hreturn _ _ _ hs

/-- The returns of a history take an abstract object from `a0` to a state. -/
inductive Replays {α : Type} (spec : α → Return ι ρ → α → Prop) (a0 : α) :
    List (τ × Return ι ρ) → α → Prop where
  | nil : Replays spec a0 [] a0
  | snoc {history a t r a1} (hbefore : Replays spec a0 history a) (hreturn : spec a r a1) :
      Replays spec a0 (history ++ [(t, r)]) a1

/-- Each critical section is a return of the abstract object, under the relation
`R`. -/
structure Simulates {α : Type} (M : Monitor σ κ ι ρ) (spec : α → Return ι ρ → α → Prop)
    (R : σ → α → Prop) : Prop where
  body : ∀ {o a} c timedOut, R o a → M.waitsOn c timedOut o = none →
    ∃ a1, spec a (.call c (M.body c timedOut o).result) a1 ∧ R (M.body c timedOut o).object a1
  tried : ∀ {o a c r}, R o a → M.tried c = some r → spec a (.call c r) a
  release : ∀ {o a}, R o a → R (M.release o) a
  returned : ∀ {o a}, R o a → spec a .release a

/-- A monitor that simulates an abstract object is linearizable to it, in the
order of its critical sections. -/
theorem Simulates.replays {α : Type} {spec : α → Return ι ρ → α → Prop} {R : σ → α → Prop}
    (hM : Simulates M spec R) {o : σ} {a0 : α} (hstart : R o a0)
    (h : M.Reaches allowed (Config.start o) s) :
    ∃ a1, Replays spec a0 s.history a1 ∧ R s.object a1 := by
  let P := fun o (history : List (τ × Return ι ρ)) => ∃ a1, Replays spec a0 history a1 ∧ R o a1
  refine h.invariant (P := fun s => P s.object s.history) ?_ ⟨a0, .nil, hstart⟩
  intro s a s1 hs _ hstep
  refine hstep.object_history (P := P) ?_ ?_ ?_ ?_ hs
  · rintro o history t c timedOut ⟨a1, hreplays, ho⟩ hwaits
    obtain ⟨a2, hreturn, ho2⟩ := hM.body c timedOut ho hwaits
    exact ⟨a2, hreplays.snoc hreturn, ho2⟩
  · rintro o history t c r ⟨a1, hreplays, ho⟩ htried
    exact ⟨a1, hreplays.snoc (hM.tried ho htried), ho⟩
  · rintro o history ⟨a1, hreplays, ho⟩
    exact ⟨a1, hreplays, hM.release ho⟩
  · rintro o history t ⟨a1, hreplays, ho⟩
    exact ⟨a1, hreplays.snoc (hM.returned ho), ho⟩

/-- What one step does to one thread. -/
inductive Moves (M : Monitor σ κ ι ρ) (s : Config σ κ ι ρ τ) (a : Action ι τ)
    (s1 : Config σ κ ι ρ τ) (u : τ) : Prop where
  | stays (hphase : s1.phase u = s.phase u)
  | idles (hphase : s1.phase u = .idle)
  | waits {c timedOut k} (haction : a = .enter u c none) (hready : s.Ready u c timedOut)
      (hwaits : M.waitsOn c timedOut s.object = some k) (hobject : s1.object = s.object)
      (howner : s1.owner = some u) (hphase : s1.phase u = .deciding c k)
  | sleeps {c k} (hbefore : s.phase u = .deciding c k) (hphase : s1.phase u = .asleep c k)
  | wakes {c k timedOut} (hbefore : s.phase u = .asleep c k)
      (hphase : s1.phase u = .woken c timedOut)
  | releases (hobject : s1.object = M.release s.object) (hphase : s1.phase u = .releasing)

omit [DecidableEq τ] [DecidableEq κ] in
/-- A notification wakes a waiter and leaves the other threads alone. -/
theorem Moves.of_wake {u : τ} (h : s1.phase u = (s.phase u).wake) : Moves M s a s1 u := by
  cases hu : s.phase u with
  | asleep c k =>
    rw [hu] at h
    exact .wakes hu h
  | _ =>
    rw [hu] at h
    exact .stays (h.trans hu.symm)

theorem Step.moves (h : M.Step s a s1) (u : τ) : Moves M s a s1 u := by
  cases h with
  | @waits t c timedOut k hready hwaits =>
    by_cases htu : u = t
    · subst htu
      exact .waits rfl hready hwaits rfl rfl (by simp [Config.setPhase_phase])
    · exact .stays (by simp [Config.setPhase_phase, htu])
  | @finishes t c timedOut hready hwaits hnotify =>
    by_cases htu : u = t
    · exact .idles (by simp [Config.finish_phase, htu])
    · exact .stays (by simp [Config.finish_phase, htu])
  | @notifies t c timedOut k w hready hwaits hnotify hcan =>
    by_cases htu : u = t
    · exact .idles (by simp [Config.wake_phase, Config.finish_phase, htu, Phase.wake])
    · by_cases hw : w = some u
      · exact .of_wake (by simp [Config.wake_phase, Config.finish_phase, htu, hw])
      · exact .stays (by simp [Config.wake_phase, Config.finish_phase, htu, hw])
  | @sleeps t c k hphase =>
    by_cases htu : u = t
    · subst htu
      exact .sleeps hphase (by simp [Config.setPhase_phase])
    · exact .stays (by simp [Config.setPhase_phase, htu])
  | @spurious t c k hphase =>
    by_cases htu : u = t
    · subst htu
      exact .wakes hphase ((Config.setPhase_phase s u (.woken c false) u).trans (if_pos rfl))
    · exact .stays (by simp [Config.setPhase_phase, htu])
  | @timesOut t c k hphase htimed =>
    by_cases htu : u = t
    · subst htu
      exact .wakes hphase ((Config.setPhase_phase s u (.woken c true) u).trans (if_pos rfl))
    · exact .stays (by simp [Config.setPhase_phase, htu])
  | tryFails hphase htried => exact .stays rfl
  | @setsReleased t hphase =>
    by_cases htu : u = t
    · exact .releases rfl (by simp [Config.setPhase_phase, htu])
    · exact .stays (by simp [Config.setPhase_phase, htu])
  | @notifiesReleased t hphase =>
    by_cases htu : u = t
    · exact .idles (by simp [Config.setPhase_phase, htu])
    · by_cases hk : (s.phase u).asleepOn M.releaseNotifies = true
      · exact .of_wake (by simp [Config.setPhase_phase, Config.wakeAll_phase, htu, hk])
      · exact .stays (by simp [Config.setPhase_phase, Config.wakeAll_phase, htu, hk])

/-- A thread that waits waited before the step, or its guard has just been
true. -/
theorem Step.waits_cases (h : M.Step s a s1) {u : τ} {c : ι} {k : κ} (hu : s1.Waits u c k) :
    s.Waits u c k ∨ a = .enter u c none ∧ s1.object = s.object ∧
      ∃ timedOut, M.waitsOn c timedOut s.object = some k := by
  unfold Config.Waits at hu
  cases h.moves u with
  | stays hphase =>
    rw [hphase] at hu
    exact .inl hu
  | waits haction hready hwaits hobject howner hphase =>
    rw [hphase] at hu
    rcases hu with hu | hu
    · cases hu
      exact .inr ⟨haction, hobject, _, hwaits⟩
    · cases hu
  | sleeps hbefore hphase =>
    rw [hphase] at hu
    rcases hu with hu | hu
    · cases hu
    · cases hu
      exact .inl (.inl hbefore)
  | idles hphase | wakes hbefore hphase | releases hobject hphase =>
    rw [hphase] at hu
    rcases hu with hu | hu <;> cases hu

/-- A wakeup stays pending until the thread takes the mutex again. -/
theorem Step.woken_cases (h : M.Step s a s1) {u : τ} {c : ι} {timedOut : Bool}
    (hu : s.phase u = .woken c timedOut) :
    s1.phase u = .woken c timedOut ∨ ∃ w, a = .enter u c w := by
  have hready : ∀ {t c1 timedOut1}, s.Ready t c1 timedOut1 → u = t → c1 = c := by
    rintro t c1 timedOut1 ⟨-, ⟨hidle, -⟩ | hwoken⟩ rfl
    · rw [hidle] at hu
      cases hu
    · rw [hwoken] at hu
      exact (Phase.woken.inj hu).1
  have hother : ∀ {t p}, s.phase t = p → p ≠ .woken c timedOut → u ≠ t := by
    rintro t p ht hp rfl
    exact hp (ht ▸ hu)
  cases h with
  | @waits t c1 timedOut1 k hr hwaits =>
    by_cases hut : u = t
    · exact .inr ⟨none, by rw [hready hr hut, hut]⟩
    · exact .inl (by simp [Config.setPhase_phase, hut, hu])
  | @finishes t c1 timedOut1 hr hwaits hnotify =>
    by_cases hut : u = t
    · exact .inr ⟨none, by rw [hready hr hut, hut]⟩
    · exact .inl (by simp [Config.finish_phase, hut, hu])
  | @notifies t c1 timedOut1 k w hr hwaits hnotify hcan =>
    by_cases hut : u = t
    · exact .inr ⟨w, by rw [hready hr hut, hut]⟩
    · exact .inl (by simp [Config.wake_phase, Config.finish_phase, hut, hu, Phase.wake])
  | sleeps hphase | spurious hphase | timesOut hphase htimed | setsReleased hphase =>
    have hut := hother hphase (by simp)
    exact .inl (by simp [Config.setPhase_phase, hut, hu])
  | tryFails hphase htried => exact .inl hu
  | notifiesReleased hphase =>
    have hut := hother hphase (by simp)
    exact .inl (by simp [Config.setPhase_phase, Config.wakeAll_phase, hut, hu, Phase.asleepOn])

/-- The mutex stays with its owner until that thread sleeps. -/
theorem Step.owner_cases (h : M.Step s a s1) :
    s1.owner = s.owner ∨ s.owner = none ∨
      ∃ t c k, s.phase t = .deciding c k ∧ s1.phase t = .asleep c k := by
  cases h with
  | waits hready hwaits => exact .inr (.inl hready.1)
  | sleeps hphase => exact .inr (.inr ⟨_, _, _, hphase, by simp [Config.setPhase_phase]⟩)
  | notifies hready hwaits hnotify hcan => exact .inr (.inl hready.1)
  | _ => exact .inl rfl

/-- The thread that is about to sleep holds the mutex. -/
def Config.DecidingOwns (s : Config σ κ ι ρ τ) : Prop :=
  ∀ t c k, s.phase t = .deciding c k → s.owner = some t

theorem Step.decidingOwns (h : M.Step s a s1) (hs : s.DecidingOwns) : s1.DecidingOwns := by
  intro u c k hu
  cases h.moves u with
  | stays hphase =>
    rw [hphase] at hu
    have howner := hs u c k hu
    rcases h.owner_cases with heq | hnone | ⟨t, c1, k1, hbefore, hafter⟩
    · rw [heq, howner]
    · rw [hnone] at howner
      cases howner
    · have htu : u = t := Option.some.inj (howner.symm.trans (hs t c1 k1 hbefore))
      rw [← htu, hphase, hu] at hafter
      cases hafter
  | waits haction hready hwaits hobject howner hphase => exact howner
  | idles hphase | sleeps hbefore hphase | wakes hbefore hphase | releases hobject hphase =>
    rw [hphase] at hu
    cases hu

theorem Reaches.decidingOwns {o : σ} (h : M.Reaches allowed (Config.start o) s) : s.DecidingOwns :=
  h.invariant (fun hs _ hstep => hstep.decidingOwns hs) fun _ _ _ hu => nomatch hu

/-! ## After a release -/

/-- Nobody is about to sleep, and nobody sleeps on a condition variable that
`release` does not notify. -/
def Config.Undisturbed (M : Monitor σ κ ι ρ) (s : Config σ κ ι ρ τ) : Prop :=
  ∀ t c k, s.phase t ≠ .deciding c k ∧ (s.phase t = .asleep c k → k = M.releaseNotifies)

/-- A `release` has returned. -/
def Config.Returned (s : Config σ κ ι ρ τ) : Prop :=
  ∃ t, (t, .release) ∈ s.history

/-- Every notification of a `release` finds the threads undisturbed. -/
def UndisturbedReleases (M : Monitor σ κ ι ρ) (s : Config σ κ ι ρ τ) (a : Action ι τ) : Prop :=
  ∀ t, a = .notifyReleased t → s.Undisturbed M

/-- Once `Released` holds of the object, it holds for ever and no guard is
true. -/
structure ReleaseOpens (M : Monitor σ κ ι ρ) (Released : σ → Prop) : Prop where
  release : ∀ o, Released (M.release o)
  body : ∀ {o} c timedOut, Released o → Released (M.body c timedOut o).object
  waitsOn : ∀ {o} c timedOut, Released o → M.waitsOn c timedOut o = none

variable {Released : σ → Prop}

theorem ReleaseOpens.step (hM : ReleaseOpens M Released) (h : M.Step s a s1)
    (hs : Released s.object) : Released s1.object :=
  h.object_history (P := fun o _ => Released o) (fun _ _ _ c timedOut ho _ => hM.body c timedOut ho)
    (fun _ _ _ _ _ ho _ => ho) (fun o _ _ => hM.release o) (fun _ _ _ ho => ho) hs

/-- Between its two steps, and after it, a `release` has opened the object; and
after it nobody waits. -/
structure Config.Opened (Released : σ → Prop) (s : Config σ κ ι ρ τ) : Prop where
  releasing : ∀ t, s.phase t = .releasing → Released s.object
  returned : s.Returned → Released s.object ∧ ∀ t c k, ¬ s.Waits t c k

theorem Step.returned_cases (h : M.Step s a s1) (hs : s1.Returned) :
    s.Returned ∨ ∃ t, a = .notifyReleased t ∧ s.phase t = .releasing := by
  obtain ⟨t, ht⟩ := hs
  cases h with
  | waits _ _ | sleeps _ | spurious _ | timesOut _ _ | setsReleased _ => exact .inl ⟨t, ht⟩
  | finishes _ _ _ | tryFails _ _ =>
    left
    rcases List.mem_append.mp ht with hold | hnew
    · exact ⟨t, hold⟩
    · simp at hnew
  | notifies _ _ _ _ =>
    left
    rw [Config.wake_history] at ht
    rcases List.mem_append.mp ht with hold | hnew
    · exact ⟨t, hold⟩
    · simp at hnew
  | notifiesReleased hphase => exact .inr ⟨_, rfl, hphase⟩

/-- A notification that finds the threads undisturbed leaves nobody waiting. -/
theorem Step.nobody_waits {t : τ} (h : M.Step s (.notifyReleased t) s1) (hs : s.Undisturbed M)
    (u : τ) (c : ι) (k : κ) : ¬ s1.Waits u c k := by
  cases h with
  | notifiesReleased hphase =>
    simp only [Config.Waits, Config.setPhase_phase, Config.wakeAll_phase]
    by_cases hut : u = t
    · simp [hut, Phase.Waits]
    · cases hu : s.phase u with
      | deciding c1 k1 => exact absurd hu (hs u c1 k1).1
      | asleep c1 k1 =>
        have hk := (hs u c1 k1).2 hu
        simp [hut, Phase.asleepOn, hk, Phase.wake, Phase.Waits]
      | _ => simp [hut, Phase.asleepOn, Phase.Waits]

theorem ReleaseOpens.opened (hM : ReleaseOpens M Released) (h : M.Step s a s1)
    (ha : UndisturbedReleases M s a) (hs : s.Opened Released) : s1.Opened Released where
  releasing := by
    intro t ht
    cases h.moves t with
    | stays hphase => exact hM.step h (hs.releasing t (hphase ▸ ht))
    | releases hobject hphase =>
      rw [hobject]
      exact hM.release _
    | idles hphase | waits _ _ _ _ _ hphase | sleeps _ hphase | wakes _ hphase =>
      rw [hphase] at ht
      cases ht
  returned := by
    intro hreturned
    rcases h.returned_cases hreturned with hbefore | ⟨t, rfl, hphase⟩
    · obtain ⟨hreleased, hnobody⟩ := hs.returned hbefore
      refine ⟨hM.step h hreleased, fun u c k hu => ?_⟩
      rcases h.waits_cases hu with hwaited | ⟨_, _, timedOut, hguard⟩
      · exact hnobody u c k hwaited
      · rw [hM.waitsOn c timedOut hreleased] at hguard
        cases hguard
    · exact ⟨hM.step h (hs.releasing t hphase), h.nobody_waits (ha t rfl)⟩

/-- If every `release` notifies undisturbed threads, nobody sleeps once one has
returned. -/
theorem ReleaseOpens.nobody_asleep (hM : ReleaseOpens M Released) {o : σ}
    (h : M.Reaches (UndisturbedReleases M) (Config.start o) s) (hs : s.Returned) (t : τ) (k : κ) :
    ¬ s.AsleepOn t k := by
  have hopened : s.Opened Released := by
    refine h.invariant (fun hs ha hstep => hM.opened hstep ha hs) ⟨?_, ?_⟩
    · intro t ht
      cases ht
    · rintro ⟨t, ht⟩
      cases ht
  rintro ⟨c, hc⟩
  exact (hopened.returned hs).2 t c k (.inr hc)

/-- A notification that finds a thread about to sleep, or asleep elsewhere,
leaves a sleeper behind. -/
theorem Step.someone_sleeps {t : τ} (h : M.Step s (.notifyReleased t) s1)
    (hs : ¬ s.Undisturbed M) :
    ∃ s2 u k, M.Reaches (fun _ _ => True) s1 s2 ∧ s2.Returned ∧ s2.AsleepOn u k := by
  have hreturned : s1.Returned := by
    cases h with
    | notifiesReleased hphase => exact ⟨t, List.mem_append_right _ (List.mem_singleton.mpr rfl)⟩
  have hstays : ∀ u p, s.phase u = p → p ≠ .releasing → p.asleepOn M.releaseNotifies = false →
      s1.phase u = p := by
    intro u p hu hp hk
    cases h with
    | notifiesReleased hphase =>
      have hut : u ≠ t := by
        rintro rfl
        exact hp (hu ▸ hphase)
      simp [Config.setPhase_phase, Config.wakeAll_phase, hut, hu, hk]
  simp only [Config.Undisturbed, not_forall] at hs
  obtain ⟨u, c, k, hs⟩ := hs
  by_cases hdeciding : s.phase u = .deciding c k
  · have hu := hstays u _ hdeciding (by simp) rfl
    refine ⟨_, u, k, Relation.ReflTransGen.single ⟨.sleep u, trivial, .sleeps hu⟩, hreturned, c, ?_⟩
    simp [Config.setPhase_phase]
  · have hasleep : s.phase u = .asleep c k ∧ k ≠ M.releaseNotifies := by
      simpa [hdeciding] using hs
    have hu := hstays u _ hasleep.1 (by simp) (by simp [Phase.asleepOn, hasleep.2])
    exact ⟨s1, u, k, .refl, hreturned, c, hu⟩

end Invariants

end Monitor

end CodeLib
