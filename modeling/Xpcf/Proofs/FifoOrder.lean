import Xpcf.Model.SharedFifo

/-!
# The order of a shared fifo

The values that the pops return, in the order of their critical sections, and
then the stored values, oldest first, are the values pushed.  This holds of any
class whose `doPop` takes the oldest value (`IsQueue`), under any interleaving:
`SharedFifo` and `SharedBuffer` are two such classes.
-/

namespace Xpcf

open CodeLib CodeLib.Monitor

variable {T σ τ : Type}

/-! ## Histories -/

/-- The value a call has stored. -/
def pushedBy : Return (FifoCall T) (FifoAnswer T) → Option T
  | .call (.push value) .done => some value
  | _ => none

/-- The value a call has taken out. -/
def poppedBy : Return (FifoCall T) (FifoAnswer T) → Option T
  | .call .pop (.value value) => some value
  | .call .popInto (.flag true (some value)) => some value
  | .call .popFor (.flag true (some value)) => some value
  | .call .tryPop (.flag true (some value)) => some value
  | _ => none

/-- The pushed values, in push order. -/
def pushed (history : List (τ × Return (FifoCall T) (FifoAnswer T))) : List T :=
  history.filterMap fun entry => pushedBy entry.2

/-- The values of the successful pops, in the order of their critical sections. -/
def popped (history : List (τ × Return (FifoCall T) (FifoAnswer T))) : List T :=
  history.filterMap fun entry => poppedBy entry.2

theorem pushed_append (history : List (τ × Return (FifoCall T) (FifoAnswer T))) (t : τ)
    (r : Return (FifoCall T) (FifoAnswer T)) :
    pushed (history ++ [(t, r)]) = pushed history ++ (pushedBy r).toList := by
  unfold pushed
  rw [List.filterMap_append]
  cases h : pushedBy r <;> simp [h]

theorem popped_append (history : List (τ × Return (FifoCall T) (FifoAnswer T))) (t : τ)
    (r : Return (FifoCall T) (FifoAnswer T)) :
    popped (history ++ [(t, r)]) = popped history ++ (poppedBy r).toList := by
  unfold popped
  rw [List.filterMap_append]
  cases h : poppedBy r <;> simp [h]

/-! ## What a critical section does -/

/-- The calls that take a value out. -/
def FifoCall.isPop : FifoCall T → Bool
  | .pop | .popInto | .popFor | .tryPop => true
  | _ => false

theorem pushedBy_of_isPop {call : FifoCall T} (h : call.isPop = true) (answer : FifoAnswer T) :
    pushedBy (.call call answer) = none := by
  cases call <;> first | rfl | cases h

theorem pushedBy_of_popped {r : Return (FifoCall T) (FifoAnswer T)} {value : T}
    (h : poppedBy r = some value) : pushedBy r = none := by
  cases r with
  | release => rfl
  | call call answer => cases call <;> first | rfl | cases h

namespace FifoClass

/-- In the states `Ok`, which the methods preserve, the class holds the values
`content`, oldest first.  A push adds its value at the end, and `keep` says
which values stay then; a pop takes the first one. -/
structure Holds (C : FifoClass T σ) (Ok : σ → Prop) (content : σ → List T)
    (keep : List T → List T) : Prop where
  counts : ∀ {o}, Ok o → (C.members o).nbNotified = (content o).length
  data : ∀ {o}, Ok o → (C.members o).nbNotified ≠ 0 → (C.members o).data ≠ []
  release : ∀ {o}, Ok o → Ok (C.release o) ∧ content (C.release o) = content o
  push : ∀ {o} value, Ok o → C.pushWaitsOn o = none → Ok (C.push value o).object ∧
    ((C.push value o).result = .done ∧
        content (C.push value o).object = keep (content o ++ [value]) ∨
      ∃ what, (C.push value o).result = .throws what ∧
        content (C.push value o).object = content o)
  doPop : ∀ {o}, Ok o → (C.members o).nbNotified ≠ 0 →
    ∃ value o1, C.doPop o = some (value, o1) ∧ Ok o1 ∧ content o = value :: content o1

/-- What a critical section does to the values. -/
inductive Outcome (content : σ → List T) (keep : List T → List T) (o : σ) (call : FifoCall T)
    (e : FifoEnding T σ) : Prop where
  | stores {value} (hcall : call = .push value) (hresult : e.result = .done)
      (hcontent : content e.object = keep (content o ++ [value]))
  | takes {value} (hcall : call.isPop = true)
      (hpopped : poppedBy (.call call e.result) = some value)
      (hcontent : content o = value :: content e.object)
  | keeps (hcontent : content e.object = content o)
      (hpushed : pushedBy (.call call e.result) = none)
      (hpopped : poppedBy (.call call e.result) = none) (hdefined : e.result ≠ .undefined)
      (hempty : call.isPop = true → content o = [])

variable {C : FifoClass T σ} {Ok : σ → Prop} {content : σ → List T} {keep : List T → List T}

/-- A call that returns without having touched the object. -/
theorem Outcome.of_unchanged {o : σ} {call : FifoCall T} {answer : FifoAnswer T}
    (hpushed : pushedBy (.call call answer) = none)
    (hpopped : poppedBy (.call call answer) = none) (hdefined : answer ≠ .undefined)
    (hempty : call.isPop = true → content o = []) (k : Option QueueCondition) :
    Outcome content keep o call ⟨o, answer, k⟩ :=
  .keeps rfl hpushed hpopped hdefined hempty

theorem Holds.empty (hC : C.Holds Ok content keep) {o : σ} (ho : Ok o)
    (hzero : (C.members o).nbNotified = 0) : content o = [] :=
  List.eq_nil_of_length_eq_zero ((hC.counts ho).symm.trans hzero)

theorem Holds.last_value (hC : C.Holds Ok content keep) {o : σ} (ho : Ok o)
    (hstored : (C.members o).nbNotified ≠ 0) :
    ∃ value, (C.members o).data.getLast? = some value :=
  ⟨_, List.getLast?_eq_some_getLast (hC.data ho hstored)⟩

theorem Holds.outcome_popWith (hC : C.Holds Ok content keep) {o : σ} (ho : Ok o)
    (hstored : (C.members o).nbNotified ≠ 0) {call : FifoCall T} {answer : T → FifoAnswer T}
    (hcall : call.isPop = true)
    (hpopped : ∀ value, poppedBy (.call call (answer value)) = some value) :
    Ok (C.popWith answer o).object ∧ Outcome content keep o call (C.popWith answer o) := by
  obtain ⟨value, o1, hpop, ho1, hcontent⟩ := hC.doPop ho hstored
  have hending : C.popWith answer o = ⟨o1, answer value, C.doPopNotifies⟩ := by
    simp [popWith, hpop]
  rw [hending]
  exact ⟨ho1, .takes hcall (hpopped value) hcontent⟩

/-- Past its wait loop, a call that is not aborted finds a stored value. -/
theorem stored_of_not_aborted {o : σ} (hwait : C.mustWait o = false)
    (habort : C.isAborted o = false) : (C.members o).nbNotified ≠ 0 := by
  simp only [mustWait, isAborted] at hwait habort
  cases hreleased : (C.members o).released <;> simp_all

theorem Holds.outcome (hC : C.Holds Ok content keep) {o : σ} (ho : Ok o) {call : FifoCall T}
    {timedOut : Bool} (hwaits : C.waitsOn call timedOut o = none) :
    Ok (C.body call timedOut o).object ∧
      Outcome content keep o call (C.body call timedOut o) := by
  have haborted : C.isAborted o = true → content o = [] := fun h =>
    hC.empty ho (by simpa using (Bool.and_eq_true_iff.mp h).2)
  cases call with
  | push value =>
    obtain ⟨hok, ⟨hresult, hcontent⟩ | ⟨what, hresult, hcontent⟩⟩ := hC.push value ho hwaits
    · exact ⟨hok, .stores rfl hresult hcontent⟩
    · refine ⟨hok, .keeps hcontent ?_ rfl ?_ (by simp [FifoCall.isPop])⟩ <;>
        simp [body, hresult, pushedBy]
  | back =>
    have hwait : C.mustWait o = false := by simpa [waitsOn] using hwaits
    simp only [body]
    split
    · exact ⟨ho, .of_unchanged rfl rfl (by simp) (by simp [FifoCall.isPop]) _⟩
    · rename_i habort
      obtain ⟨value, hlast⟩ :=
        hC.last_value ho (stored_of_not_aborted hwait (by simpa using habort))
      rw [hlast]
      exact ⟨ho, .of_unchanged rfl rfl (by simp) (by simp [FifoCall.isPop]) _⟩
  | backInto =>
    simp only [body]
    split
    · rename_i hne
      obtain ⟨value, hlast⟩ := hC.last_value ho hne
      rw [hlast]
      exact ⟨ho, .of_unchanged rfl rfl (by simp) (by simp [FifoCall.isPop]) _⟩
    · exact ⟨ho, .of_unchanged rfl rfl (by simp) (by simp [FifoCall.isPop]) _⟩
  | pop =>
    have hwait : C.mustWait o = false := by simpa [waitsOn] using hwaits
    simp only [body]
    split
    · rename_i habort
      exact ⟨ho, .of_unchanged rfl rfl (by simp) (fun _ => haborted habort) _⟩
    · rename_i habort
      exact hC.outcome_popWith ho (stored_of_not_aborted hwait (by simpa using habort)) rfl
        fun _ => rfl
  | popInto =>
    have hwait : C.mustWait o = false := by simpa [waitsOn] using hwaits
    simp only [body]
    split
    · rename_i habort
      exact ⟨ho, .of_unchanged rfl rfl (by simp) (fun _ => haborted habort) _⟩
    · rename_i habort
      exact hC.outcome_popWith ho (stored_of_not_aborted hwait (by simpa using habort)) rfl
        fun _ => rfl
  | popFor =>
    simp only [body]
    split
    · rename_i hfails
      have hzero : (C.members o).nbNotified = 0 := by
        simpa using (Bool.and_eq_true_iff.mp hfails).2
      exact ⟨ho, .of_unchanged rfl rfl (by simp) (fun _ => hC.empty ho hzero) _⟩
    · rename_i hfails
      have hne : (C.members o).nbNotified ≠ 0 := by
        intro hzero
        simp only [waitsOn, mustWait, hzero] at hwaits
        cases hreleased : (C.members o).released <;> cases timedOut <;> simp_all
      exact hC.outcome_popWith ho hne rfl fun _ => rfl
  | tryPop =>
    simp only [body]
    split
    · rename_i hpos
      exact hC.outcome_popWith ho (by omega) rfl fun _ => rfl
    · rename_i hpos
      exact ⟨ho, .of_unchanged rfl rfl (by simp) (fun _ => hC.empty ho (by omega)) _⟩

end FifoClass

/-! ## Queues -/

namespace FifoClass

variable (C : FifoClass T σ)

/-- The stored values, oldest first. -/
def content (o : σ) : List T := (C.members o).data.reverse

/-- The counter agrees with the deque, the pops have taken the oldest values of
those pushed, and no pop has found the deque empty. -/
structure InOrder (o : σ) (history : List (τ × Return (FifoCall T) (FifoAnswer T))) : Prop where
  counts : (C.members o).nbNotified = (C.members o).data.length
  balance : popped history ++ C.content o = pushed history
  defined : ∀ t call, (t, .call call .undefined) ∉ history

variable {C}

/-- One more return, which stores a value or takes the oldest one. -/
theorem InOrder.append {o o1 : σ} {history : List (τ × Return (FifoCall T) (FifoAnswer T))}
    (h : C.InOrder o history) (t : τ) {r : Return (FifoCall T) (FifoAnswer T)}
    (hcounts : (C.members o1).nbNotified = (C.members o1).data.length)
    (hcontent : C.content o ++ (pushedBy r).toList = (poppedBy r).toList ++ C.content o1)
    (hdefined : ∀ call, r ≠ .call call .undefined) : C.InOrder o1 (history ++ [(t, r)]) where
  counts := hcounts
  balance := by
    rw [popped_append, pushed_append, List.append_assoc, ← hcontent, ← List.append_assoc,
      h.balance]
  defined := by
    intro t1 call hmem
    rcases List.mem_append.mp hmem with hold | hnew
    · exact h.defined t1 call hold
    · have heq : (t1, Return.call call .undefined) = (t, r) := List.mem_singleton.mp hnew
      exact hdefined call (Prod.mk.inj heq).2.symm

variable (C)

/-- In the states `Ok`, which the methods preserve, the class is a queue. -/
structure IsQueue (Ok : σ → Prop) : Prop where
  counts : ∀ {o}, Ok o → (C.members o).nbNotified = (C.members o).data.length
  release : ∀ {o}, Ok o → Ok (C.release o) ∧ C.content (C.release o) = C.content o
  push : ∀ {o} value, Ok o → C.pushWaitsOn o = none → Ok (C.push value o).object ∧
    ((C.push value o).result = .done ∧ C.content (C.push value o).object = C.content o ++ [value] ∨
      ∃ what, (C.push value o).result = .throws what ∧
        C.content (C.push value o).object = C.content o)
  doPop : ∀ {o}, Ok o → (C.members o).nbNotified ≠ 0 →
    ∃ value o1, C.doPop o = some (value, o1) ∧ Ok o1 ∧ C.content o = value :: C.content o1

variable {C} {Ok : σ → Prop}

/-- What a critical section puts in and takes out. -/
structure Exchanges (C : FifoClass T σ) (Ok : σ → Prop) (o : σ) (call : FifoCall T)
    (e : FifoEnding T σ) : Prop where
  ok : Ok e.object
  defined : e.result ≠ .undefined
  content : C.content o ++ (pushedBy (.call call e.result)).toList =
    (poppedBy (.call call e.result)).toList ++ C.content e.object

theorem IsQueue.holds (hC : C.IsQueue Ok) : C.Holds Ok C.content id where
  counts := fun ho => by rw [hC.counts ho, content, List.length_reverse]
  data := by
    intro o ho hstored hnil
    rw [hC.counts ho, hnil] at hstored
    exact hstored rfl
  release := hC.release
  push := hC.push
  doPop := hC.doPop

theorem IsQueue.exchanges (hC : C.IsQueue Ok) {o : σ} (ho : Ok o) {call : FifoCall T}
    {timedOut : Bool} (hwaits : C.waitsOn call timedOut o = none) :
    Exchanges C Ok o call (C.body call timedOut o) := by
  obtain ⟨hok, houtcome⟩ := hC.holds.outcome ho hwaits
  refine ⟨hok, ?_, ?_⟩
  · cases houtcome with
    | stores hcall hresult hcontent => simp [hresult]
    | takes hcall hpopped hcontent =>
      intro hundefined
      rw [hundefined] at hpopped
      cases call <;> cases hpopped
    | keeps hcontent hpushed hpopped hdefined hempty => exact hdefined
  · cases houtcome with
    | stores hcall hresult hcontent =>
      rw [hcontent, hresult, hcall]
      rfl
    | takes hcall hpopped hcontent =>
      rw [pushedBy_of_isPop hcall, hpopped, hcontent]
      simp
    | keeps hcontent hpushed hpopped hdefined hempty =>
      rw [hpushed, hpopped, hcontent]
      simp

variable [DecidableEq τ]

/-- Every interleaving of the calls on a queue leaves it in order. -/
theorem IsQueue.inOrder (hC : C.IsQueue Ok) {o : σ} (ho : Ok o) (hnew : C.content o = [])
    {allowed : Config σ QueueCondition (FifoCall T) (FifoAnswer T) τ →
      Action (FifoCall T) τ → Prop}
    {s : Config σ QueueCondition (FifoCall T) (FifoAnswer T) τ}
    (h : C.monitor.Reaches allowed (Config.start o) s) :
    Ok s.object ∧ C.InOrder s.object s.history := by
  let P := fun o history => Ok o ∧ C.InOrder (τ := τ) o history
  refine h.invariant (P := fun s => P s.object s.history) ?_ ⟨ho, hC.counts ho, ?_, ?_⟩
  · intro s a s1 hs _ hstep
    refine hstep.object_history (P := P) ?_ ?_ ?_ ?_ hs
    · rintro o history t call timedOut ⟨hok, horder⟩ hwaits
      have hex := hC.exchanges hok hwaits
      refine ⟨hex.ok, horder.append t (hC.counts hex.ok) hex.content fun call1 heq => ?_⟩
      exact hex.defined (Return.call.inj heq).2
    · rintro o history t call r ⟨hok, horder⟩ htried
      -- only `tryPop` can fail to take the mutex
      cases call with
      | tryPop =>
        obtain rfl : FifoAnswer.flag false none = r := by simpa [monitor] using htried
        exact ⟨hok, horder.append t (hC.counts hok) (by simp [pushedBy, poppedBy]) (by simp)⟩
      | _ => simp [monitor] at htried
    · rintro o history ⟨hok, horder⟩
      obtain ⟨hok1, hcontent⟩ := hC.release hok
      refine ⟨hok1, hC.counts hok1, ?_, horder.defined⟩
      show popped history ++ C.content (C.release o) = pushed history
      rw [hcontent, horder.balance]
    · rintro o history t ⟨hok, horder⟩
      exact ⟨hok, horder.append t (hC.counts hok) (by simp [pushedBy, poppedBy]) (by simp)⟩
  · simp [hnew, Config.start, popped, pushed]
  · simp [Config.start]

end FifoClass

/-! ## The two classes -/

theorem SharedFifo.doPop_append (f : SharedFifo T) {rest : List T} {value : T}
    (h : f.data = rest ++ [value]) :
    f.doPop = some (value, { f with data := rest, nbNotified := f.nbNotified - 1 }) := by
  simp [doPop, h]

theorem SharedFifo.data_ne_nil {f : SharedFifo T} (hcounts : f.nbNotified = f.data.length)
    (hstored : f.nbNotified ≠ 0) : ∃ rest value, f.data = rest ++ [value] := by
  rcases List.eq_nil_or_concat f.data with hnil | ⟨rest, value, hdata⟩
  · rw [hcounts, hnil] at hstored
    exact absurd rfl hstored
  · exact ⟨rest, value, by rw [hdata, List.concat_eq_append]⟩

theorem sharedFifo_isQueue (T : Type) :
    (sharedFifo T).IsQueue fun f => f.nbNotified = f.data.length where
  counts := fun ho => ho
  release := fun ho => ⟨ho, rfl⟩
  push := by
    intro f value ho _
    refine ⟨?_, .inl ⟨rfl, ?_⟩⟩
    · show f.nbNotified + 1 = (value :: f.data).length
      simp [ho]
    · show (value :: f.data).reverse = f.data.reverse ++ [value]
      simp
  doPop := by
    intro f ho hstored
    obtain ⟨rest, value, hdata⟩ := SharedFifo.data_ne_nil ho hstored
    refine ⟨value, _, f.doPop_append hdata, ?_, ?_⟩
    · show f.nbNotified - 1 = rest.length
      simp [ho, hdata]
    · show f.data.reverse = value :: rest.reverse
      simp [hdata]

/-- The states of a buffer of capacity `max`. -/
structure SharedBuffer.Bounded (b : SharedBuffer T) (max : Nat) : Prop where
  counts : b.nbNotified = b.data.length
  maxSize : b.maxSize = max
  bounded : b.nbNotified ≤ max

theorem SharedBuffer.Bounded.doPop {max : Nat} {b : SharedBuffer T} (hb : b.Bounded max)
    (hstored : b.nbNotified ≠ 0) :
    ∃ rest value, b.data = rest ++ [value] ∧
      b.doPop = some (value, { b with data := rest, nbNotified := b.nbNotified - 1 }) := by
  obtain ⟨rest, value, hdata⟩ := SharedFifo.data_ne_nil hb.counts hstored
  refine ⟨rest, value, hdata, ?_⟩
  rw [SharedBuffer.doPop, b.toSharedFifo.doPop_append hdata]
  rfl

/-- Past its wait loop, a push that does not throw finds room. -/
theorem SharedBuffer.push_cases {b : SharedBuffer T} (value : T) (hwaits : b.pushWaitsOn = none) :
    b.push value = ⟨b, .throws "IFifo::push aborted", none⟩ ∨
    b.nbNotified < b.maxSize ∧ (b.push value).result = .done ∧
      (b.push value).object =
        { b with
          data := value :: b.data
          nbNotified := b.nbNotified + 1
          started := b.started || decide (b.nbNotified + 1 ≥ b.bufferedStartOffset) } := by
  by_cases hfull : b.nbNotified ≥ b.maxSize
  · left
    have hreleased : b.released = true := by
      simpa [pushWaitsOn, hfull] using hwaits
    simp [push, hreleased, hfull]
  · right
    refine ⟨by omega, ?_⟩
    cases hstarted : b.started <;> by_cases hoffset : b.nbNotified + 1 ≥ b.bufferedStartOffset <;>
      simp [push, hfull, hstarted, hoffset]

theorem sharedBuffer_isQueue (T : Type) (max : Nat) :
    (sharedBuffer T).IsQueue fun b => b.Bounded max where
  counts := fun ho => ho.counts
  release := fun ho => ⟨⟨ho.counts, ho.maxSize, ho.bounded⟩, rfl⟩
  push := by
    intro b value ho hwaits
    rcases SharedBuffer.push_cases value hwaits with habort | ⟨hroom, hdone, hobject⟩
    · have heq : (sharedBuffer T).push value b = ⟨b, .throws "IFifo::push aborted", none⟩ := habort
      rw [heq]
      exact ⟨ho, .inr ⟨_, rfl, rfl⟩⟩
    · have hmax := ho.maxSize
      refine ⟨?_, .inl ⟨hdone, ?_⟩⟩
      · show (b.push value).object.Bounded max
        rw [hobject]
        exact ⟨by simp [ho.counts], hmax, by show b.nbNotified + 1 ≤ max; omega⟩
      · show (b.push value).object.data.reverse = b.data.reverse ++ [value]
        simp [hobject]
  doPop := by
    intro b ho hstored
    obtain ⟨rest, value, hdata, hpop⟩ := ho.doPop hstored
    have hbounded := ho.bounded
    refine ⟨value, _, hpop, ⟨?_, ho.maxSize, ?_⟩, ?_⟩
    · show b.nbNotified - 1 = rest.length
      simp [ho.counts, hdata]
    · show b.nbNotified - 1 ≤ max
      omega
    · show b.data.reverse = value :: rest.reverse
      simp [hdata]

/-- Whatever the interleaving, the counter of a fifo or of a buffer is the
number of stored values, within the capacity of a buffer; the pops return the
pushed values in push order; and no pop runs on an empty deque. -/
theorem shared_fifos_in_order (T τ : Type) [DecidableEq τ] :
    (∀ s : Config (SharedFifo T) QueueCondition (FifoCall T) (FifoAnswer T) τ,
      (sharedFifo T).monitor.Reaches (fun _ _ => True) (Config.start SharedFifo.new) s →
      (sharedFifo T).InOrder s.object s.history ∧ popped s.history <+: pushed s.history) ∧
    (∀ (max startAt : Nat)
        (s : Config (SharedBuffer T) QueueCondition (FifoCall T) (FifoAnswer T) τ),
      (sharedBuffer T).monitor.Reaches (fun _ _ => True)
        (Config.start (SharedBuffer.new max startAt)) s →
      (sharedBuffer T).InOrder s.object s.history ∧ popped s.history <+: pushed s.history ∧
        s.object.nbNotified ≤ max) := by
  constructor
  · intro s h
    obtain ⟨-, horder⟩ := (sharedFifo_isQueue T).inOrder (by rfl) (by rfl) h
    exact ⟨horder, _, horder.balance⟩
  · intro max startAt s h
    have hstart : (SharedBuffer.new (T := T) max startAt).Bounded max :=
      ⟨rfl, rfl, Nat.zero_le max⟩
    obtain ⟨hbounded, horder⟩ := (sharedBuffer_isQueue T max).inOrder hstart (by rfl) h
    exact ⟨horder, ⟨_, horder.balance⟩, hbounded.bounded⟩

/-- A consumer sleeps on the empty fifo and is woken by the first of two pushes; then
both threads take a value. -/
theorem shared_fifos_in_order_push :
    ∃ s : Config (SharedFifo Nat) QueueCondition (FifoCall Nat) (FifoAnswer Nat) Bool,
      s.history = [(true, .call (.push 7) .done), (true, .call (.push 8) .done),
        (false, .call .pop (.value 7)), (false, .call (.push 9) .done),
        (true, .call .pop (.value 8))] ∧
      s.object.data = [9] ∧ (sharedFifo Nat).InOrder s.object s.history ∧
      popped s.history <+: pushed s.history := by
  let config (data : List Nat) (consumer : Phase QueueCondition (FifoCall Nat))
      (history : List (Bool × Return (FifoCall Nat) (FifoAnswer Nat))) :
      Config (SharedFifo Nat) QueueCondition (FifoCall Nat) (FifoAnswer Nat) Bool :=
    ⟨⟨data.length, data, false⟩, none, fun t => if t then .idle else consumer, history⟩
  have hawake : ∀ data consumer history, (∀ c k, consumer ≠ .asleep c k) →
      (config data consumer history).CanNotify .queueNotEmpty none := by
    rintro data consumer history hne u ⟨c, hasleep⟩
    cases u with
    | false => exact hne c _ hasleep
    | true => cases hasleep
  have hsleep : (sharedFifo Nat).monitor.Reaches (fun _ _ => True) (Config.start SharedFifo.new)
      (config [] (.asleep .pop .queueNotEmpty) _) :=
    Reaches.sleep .refl false .pop .queueNotEmpty false (fun _ => ⟨trivial, trivial⟩)
      ⟨rfl, .inl ⟨rfl, rfl⟩⟩ rfl (Config.ext rfl rfl (funext fun u => by cases u <;> rfl) rfl)
  have hfirst : (sharedFifo Nat).monitor.Reaches (fun _ _ => True) (Config.start SharedFifo.new)
      (config [7] (.woken .pop false) _) :=
    hsleep.call true (.push 7) false (some false) trivial ⟨rfl, .inl ⟨rfl, rfl⟩⟩ rfl
      (fun h => by cases h) (fun k h => by cases h; exact ⟨.pop, rfl⟩)
      (Config.ext rfl rfl (funext fun u => by cases u <;> rfl) rfl)
  have hsecond : (sharedFifo Nat).monitor.Reaches (fun _ _ => True) (Config.start SharedFifo.new)
      (config [8, 7] (.woken .pop false) _) :=
    hfirst.call true (.push 8) false none trivial ⟨rfl, .inl ⟨rfl, rfl⟩⟩ rfl
      (fun h => by cases h) (fun k h => by cases h; exact hawake _ _ _ (by simp))
      (Config.ext rfl rfl (funext fun u => by cases u <;> rfl) rfl)
  have hpop : (sharedFifo Nat).monitor.Reaches (fun _ _ => True) (Config.start SharedFifo.new)
      (config [8] .idle _) :=
    hsecond.call false .pop false none trivial ⟨rfl, .inr rfl⟩ rfl (fun _ => rfl)
      (fun k h => by cases h) (Config.ext rfl rfl (funext fun u => by cases u <;> rfl) rfl)
  have hthird : (sharedFifo Nat).monitor.Reaches (fun _ _ => True) (Config.start SharedFifo.new)
      (config [9, 8] .idle _) :=
    hpop.call false (.push 9) false none trivial ⟨rfl, .inl ⟨rfl, rfl⟩⟩ rfl (fun h => by cases h)
      (fun k h => by cases h; exact hawake _ _ _ (by simp))
      (Config.ext rfl rfl (funext fun u => by cases u <;> rfl) rfl)
  have hlast : (sharedFifo Nat).monitor.Reaches (fun _ _ => True) (Config.start SharedFifo.new)
      (config [9] .idle _) :=
    hthird.call true .pop false none trivial ⟨rfl, .inl ⟨rfl, rfl⟩⟩ rfl (fun _ => rfl)
      (fun k h => by cases h) (Config.ext rfl rfl (funext fun u => by cases u <;> rfl) rfl)
  exact ⟨_, rfl, rfl, (shared_fifos_in_order Nat Bool).1 _ hlast⟩

end Xpcf
