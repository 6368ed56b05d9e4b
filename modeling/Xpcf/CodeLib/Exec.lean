import Mathlib.Order.Defs.PartialOrder

/-!
# Computations with a state, exceptions and divergence

`Exec σ ε α` is a computation over a mutable state `σ`.  It returns a value,
throws an exception, runs out of the fuel its caller gave it, or comes to an
operation whose behaviour the language leaves undefined.  The state survives a
throw: a C++ function that throws keeps what it wrote before.

Nothing here names a program.  The module gives

* the operations (`bind`, `throw`, `tryCatch`, `forEach`);
* inversion lemmas for a computation that returned (`bind_ok_iff`,
  `tryCatch_ok_iff`);
* `Frame` and `Keeps`: what every outcome of a computation leaves alone;
* `Returns`: pre- and postconditions of the computations that return;
* `Ends`: postconditions for returning and for throwing;
* `Simulates`: the step a computation that returns makes on a view of the state;
* `AgreeOn`: two computations that agree from every state of a set;
* `Extends`: the order in which more fuel gives a more defined computation;
* `Halts` and `Completes`: some fuel is enough.
-/

namespace CodeLib

/-- How a computation ends. -/
inductive Outcome (ε α : Type) where
  | ok (value : α)
  | throws (exc : ε)
  | diverges
  | undefined
  deriving DecidableEq

/-- A computation over the state `σ`.  Every outcome comes with the state it
was reached in. -/
def Exec (σ ε α : Type) : Type := σ → Outcome ε α × σ

namespace Exec

variable {σ ε α β : Type}

protected def pure (value : α) : Exec σ ε α := fun s => (.ok value, s)

protected def bind (m : Exec σ ε α) (f : α → Exec σ ε β) : Exec σ ε β := fun s =>
  match m s with
  | (.ok a, s1) => f a s1
  | (.throws e, s1) => (.throws e, s1)
  | (.diverges, s1) => (.diverges, s1)
  | (.undefined, s1) => (.undefined, s1)

instance : Monad (Exec σ ε) where
  pure := Exec.pure
  bind := Exec.bind

def throw (e : ε) : Exec σ ε α := fun s => (.throws e, s)

/-- The fuel ran out. -/
def diverge : Exec σ ε α := fun s => (.diverges, s)

/-- An operation without defined behaviour, such as the read of a null pointer. -/
def undefined : Exec σ ε α := fun s => (.undefined, s)

/-- A `try` block with one handler.  The handler runs in the state the block
left behind.  It sees exceptions only. -/
def tryCatch (m : Exec σ ε α) (h : ε → Exec σ ε α) : Exec σ ε α := fun s =>
  match m s with
  | (.throws e, s1) => h e s1
  | (.ok a, s1) => (.ok a, s1)
  | (.diverges, s1) => (.diverges, s1)
  | (.undefined, s1) => (.undefined, s1)

/-- Read a component of the state. -/
def gets (f : σ → α) : Exec σ ε α := fun s => (.ok (f s), s)

def modify (f : σ → σ) : Exec σ ε Unit := fun s => (.ok (), f s)

def ofExcept : Except ε α → Exec σ ε α
  | .ok a => Exec.pure a
  | .error e => throw e

/-- A loop over a list. -/
def forEach (f : α → Exec σ ε Unit) : List α → Exec σ ε Unit
  | [] => pure ()
  | a :: as => do
    f a
    forEach f as

/-! ## Running the operations -/

@[simp] theorem ofExcept_ok_run (a : α) (s : σ) :
    (ofExcept (.ok a) : Exec σ ε α) s = (.ok a, s) := rfl

theorem bind_run (m : Exec σ ε α) (f : α → Exec σ ε β) (s : σ) :
    (m >>= f) s =
      match m s with
      | (.ok a, s1) => f a s1
      | (.throws e, s1) => (.throws e, s1)
      | (.diverges, s1) => (.diverges, s1)
      | (.undefined, s1) => (.undefined, s1) := rfl

theorem tryCatch_run (m : Exec σ ε α) (h : ε → Exec σ ε α) (s : σ) :
    tryCatch m h s =
      match m s with
      | (.throws e, s1) => h e s1
      | (.ok a, s1) => (.ok a, s1)
      | (.diverges, s1) => (.diverges, s1)
      | (.undefined, s1) => (.undefined, s1) := rfl

@[simp] theorem gets_bind_run (f : σ → α) (k : α → Exec σ ε β) (s : σ) :
    (gets f >>= k) s = k (f s) s := rfl

@[simp] theorem modify_bind_run (f : σ → σ) (k : Unit → Exec σ ε β) (s : σ) :
    (modify f >>= k) s = k () (f s) := rfl

@[simp] theorem ofExcept_ok_bind_run (a : α) (k : α → Exec σ ε β) (s : σ) :
    ((ofExcept (.ok a) : Exec σ ε α) >>= k) s = k a s := rfl

theorem ofExcept_ok_bind (a : α) (k : α → Exec σ ε β) : ofExcept (.ok a) >>= k = k a := rfl

theorem ofExcept_error_bind (e : ε) (k : α → Exec σ ε β) :
    (ofExcept (.error e) >>= k : Exec σ ε β) = throw e := rfl

theorem pure_bind_eq (a : α) (k : α → Exec σ ε β) : pure a >>= k = k a := rfl

theorem tryCatch_throw (e : ε) (h : ε → Exec σ ε α) : tryCatch (throw e) h = h e := rfl

/-- The rest of a computation whose first part returned. -/
theorem bind_run_of_ok {m : Exec σ ε α} {f : α → Exec σ ε β} {s s1 : σ} {a : α}
    (h : m s = (.ok a, s1)) : (m >>= f) s = f a s1 := by
  rw [bind_run, h]

theorem bind_assoc {γ : Type} (m : Exec σ ε α) (f : α → Exec σ ε β) (g : β → Exec σ ε γ) :
    (m >>= f) >>= g = m >>= fun a => f a >>= g := by
  funext s
  simp only [bind_run]
  rcases m s with ⟨_ | _ | _ | _, s1⟩ <;> rfl

/-! ## Loops over an index -/

theorem forEach_append (f : α → Exec σ ε Unit) (l l1 : List α) :
    forEach f (l ++ l1) = forEach f l >>= fun _ => forEach f l1 := by
  induction l with
  | nil => rfl
  | cons a l ih =>
    show (f a >>= fun _ => forEach f (l ++ l1)) = (f a >>= fun _ => forEach f l) >>= _
    rw [ih, bind_assoc]

theorem forEach_range_succ {f : Nat → Exec σ ε Unit} {n : Nat} {s s1 : σ}
    (h : forEach f (List.range n) s = (.ok (), s1)) :
    forEach f (List.range (n + 1)) s = f n s1 := by
  rw [List.range_succ, forEach_append, bind_run_of_ok h]
  show (f n >>= fun _ => Exec.pure ()) s1 = f n s1
  rw [bind_run]
  rcases f n s1 with ⟨_ | _ | _ | _, s2⟩ <;> rfl

/-- The loop ends as its body does at the first index at which the body does not
return. -/
theorem forEach_range_of_stop {f : Nat → Exec σ ε Unit} {k n : Nat} {s s1 : σ} (hk : k < n)
    (h : forEach f (List.range k) s = (.ok (), s1)) (hf : (f k s1).1 ≠ .ok ()) :
    forEach f (List.range n) s = f k s1 := by
  induction n with
  | zero => omega
  | succ n ih =>
    by_cases hlast : k = n
    · subst hlast
      exact forEach_range_succ h
    · rw [List.range_succ, forEach_append, bind_run, ih (by omega)]
      rcases hrun : f k s1 with ⟨_ | _ | _ | _, s2⟩
      · rw [hrun] at hf
        exact absurd rfl hf
      · rfl
      · rfl
      · rfl

/-- A loop runs to its end, or to the first index at which its body does not return. -/
theorem forEach_range_cases (f : Nat → Exec σ ε Unit) (n : Nat) (s : σ) :
    (∃ s1, forEach f (List.range n) s = (.ok (), s1)) ∨
      ∃ k s1, k < n ∧ forEach f (List.range k) s = (.ok (), s1) ∧ (f k s1).1 ≠ .ok () := by
  induction n with
  | zero => exact .inl ⟨s, rfl⟩
  | succ n ih =>
    rcases ih with ⟨s1, h⟩ | ⟨k, s1, hk, h, hf⟩
    · by_cases hf : (f n s1).1 = .ok ()
      · exact .inl ⟨(f n s1).2, by rw [forEach_range_succ h, ← hf]⟩
      · exact .inr ⟨n, s1, by omega, h, hf⟩
    · exact .inr ⟨k, s1, by omega, h, hf⟩

/-! ## A computation that returned -/

/-- A sequence returns exactly when both parts do. -/
theorem bind_ok_iff {m : Exec σ ε α} {f : α → Exec σ ε β} {s s2 : σ} {b : β} :
    (m >>= f) s = (.ok b, s2) ↔
      ∃ a s1, m s = (.ok a, s1) ∧ f a s1 = (.ok b, s2) := by
  rw [bind_run]
  constructor
  · intro h
    rcases hm : m s with ⟨a | e | _ | _, s1⟩
    · rw [hm] at h
      exact ⟨a, s1, rfl, h⟩
    · rw [hm] at h
      cases h
    · rw [hm] at h
      cases h
    · rw [hm] at h
      cases h
  · rintro ⟨a, s1, hm, hf⟩
    rw [hm]
    exact hf

/-- A sequence throws when its first part does, or its second part after the first
returned. -/
theorem bind_throws_iff {m : Exec σ ε α} {f : α → Exec σ ε β} {s s2 : σ} {e : ε} :
    (m >>= f) s = (.throws e, s2) ↔
      m s = (.throws e, s2) ∨ ∃ a s1, m s = (.ok a, s1) ∧ f a s1 = (.throws e, s2) := by
  rw [bind_run]
  rcases hm : m s with ⟨a | e1 | _ | _, s1⟩
  · constructor
    · intro h
      exact .inr ⟨a, s1, rfl, h⟩
    · rintro (h | ⟨a1, s3, h, hf⟩)
      · cases h
      · cases h
        exact hf
  · constructor
    · intro h
      cases h
      exact .inl rfl
    · rintro (h | ⟨a1, s3, h, _⟩)
      · cases h
        rfl
      · cases h
  · constructor
    · intro h
      cases h
    · rintro (h | ⟨a1, s3, h, _⟩)
      · cases h
      · cases h
  · constructor
    · intro h
      cases h
    · rintro (h | ⟨a1, s3, h, _⟩)
      · cases h
      · cases h

/-- When no handler returns a value, a `try` block returns it exactly when its body
does. -/
theorem tryCatch_ok_iff {m : Exec σ ε α} {h : ε → Exec σ ε α} {s s2 : σ} {a : α}
    (hrethrow : ∀ e s1 s3, h e s1 ≠ (.ok a, s3)) :
    tryCatch m h s = (.ok a, s2) ↔ m s = (.ok a, s2) := by
  rw [tryCatch_run]
  rcases m s with ⟨b | e | _ | _, s1⟩
  · exact Iff.rfl
  · constructor
    · intro hh
      exact absurd hh (hrethrow e s1 s2)
    · intro hh
      cases hh
  · exact Iff.rfl
  · exact Iff.rfl

theorem ofExcept_ok_iff {x : Except ε α} {s s1 : σ} {a : α} :
    (ofExcept x : Exec σ ε α) s = (.ok a, s1) ↔ x = .ok a ∧ s1 = s := by
  cases x with
  | ok b =>
    rw [ofExcept_ok_run, Prod.mk.injEq, Outcome.ok.injEq, Except.ok.injEq]
    exact and_congr_right fun _ => eq_comm
  | error e =>
    constructor
    · intro h
      cases h
    · rintro ⟨h, _⟩
      cases h

/-! ## Frames -/

/-- What a computation leaves alone: a relation between the states before
and after, and a condition on the starting state that the relation carries
along. -/
structure Frame (σ : Type) where
  pre : σ → Prop
  rel : σ → σ → Prop
  refl : ∀ s, rel s s
  trans : ∀ {a b c}, rel a b → rel b c → rel a c
  stable : ∀ {a b}, pre a → rel a b → pre b

/-- The frame that keeps the value of one component of the state. -/
def Frame.ofView {τ : Type} (view : σ → τ) : Frame σ where
  pre _ := True
  rel s s1 := view s1 = view s
  refl _ := rfl
  trans hab hbc := hbc.trans hab
  stable h _ := h

/-- Whatever the outcome, the computation stays in the frame. -/
def Keeps (F : Frame σ) (m : Exec σ ε α) : Prop :=
  ∀ s, F.pre s → F.rel s (m s).2

namespace Keeps

variable {F : Frame σ}

theorem pure (a : α) : Keeps F (Pure.pure a : Exec σ ε α) := fun s _ => F.refl s

theorem throw (e : ε) : Keeps F (Exec.throw e : Exec σ ε α) := fun s _ => F.refl s

theorem undefined : Keeps F (Exec.undefined : Exec σ ε α) := fun s _ => F.refl s

theorem gets (f : σ → α) : Keeps F (Exec.gets f : Exec σ ε α) := fun s _ => F.refl s

theorem modify {f : σ → σ} (h : ∀ s, F.pre s → F.rel s (f s)) :
    Keeps F (Exec.modify f : Exec σ ε Unit) := h

theorem ofExcept (x : Except ε α) : Keeps F (Exec.ofExcept x : Exec σ ε α) := by
  cases x with
  | ok a => exact Keeps.pure a
  | error e => exact Keeps.throw e

theorem bind {m : Exec σ ε α} {f : α → Exec σ ε β} (hm : Keeps F m)
    (hf : ∀ a, Keeps F (f a)) : Keeps F (m >>= f) := by
  intro s hs
  have h1 := hm s hs
  rw [bind_run]
  rcases hr : m s with ⟨a | e | _ | _, s1⟩
  · rw [hr] at h1
    exact F.trans h1 (hf a s1 (F.stable hs h1))
  · rw [hr] at h1
    exact h1
  · rw [hr] at h1
    exact h1
  · rw [hr] at h1
    exact h1

/-- After `gets` the continuation may use what was read. -/
theorem gets_bind {f : σ → α} {k : α → Exec σ ε β}
    (h : ∀ s, F.pre s → F.rel s (k (f s) s).2) : Keeps F (Exec.gets f >>= k) :=
  fun s hs => h s hs

/-- The continuation is only run on what the first part returns. -/
theorem bind_of {m : Exec σ ε α} {f : α → Exec σ ε β} (hm : Keeps F m)
    (hf : ∀ s a s1, F.pre s → m s = (.ok a, s1) → Keeps F (f a)) : Keeps F (m >>= f) := by
  intro s hs
  have h1 := hm s hs
  rw [bind_run]
  rcases hr : m s with ⟨a | e | _ | _, s1⟩
  · rw [hr] at h1
    exact F.trans h1 (hf s a s1 hs hr s1 (F.stable hs h1))
  · rw [hr] at h1
    exact h1
  · rw [hr] at h1
    exact h1
  · rw [hr] at h1
    exact h1

/-- A computation that keeps more keeps less. -/
theorem weaken {G : Frame σ} {m : Exec σ ε α} (hm : Keeps G m)
    (h : ∀ s s1, F.pre s → G.pre s ∧ (G.rel s s1 → F.rel s s1)) : Keeps F m :=
  fun s hs => (h s _ hs).2 (hm s (h s s hs).1)

/-- The state after a computation that returned. -/
theorem of_run {m : Exec σ ε α} (hm : Keeps F m) {s s1 : σ} {out : Outcome ε α}
    (hs : F.pre s) (hr : m s = (out, s1)) : F.rel s s1 := by
  have h1 := hm s hs
  rw [hr] at h1
  exact h1

/-- The condition on the state still holds afterwards. -/
theorem pre {m : Exec σ ε α} (hm : Keeps F m) (s : σ) (hs : F.pre s) : F.pre (m s).2 :=
  F.stable hs (hm s hs)

theorem tryCatch {m : Exec σ ε α} {h : ε → Exec σ ε α} (hm : Keeps F m)
    (hh : ∀ e, Keeps F (h e)) : Keeps F (Exec.tryCatch m h) := by
  intro s hs
  have h1 := hm s hs
  rw [tryCatch_run]
  rcases hr : m s with ⟨a | e | _ | _, s1⟩
  · rw [hr] at h1
    exact h1
  · rw [hr] at h1
    exact F.trans h1 (hh e s1 (F.stable hs h1))
  · rw [hr] at h1
    exact h1
  · rw [hr] at h1
    exact h1

theorem forEach {f : α → Exec σ ε Unit} {l : List α} (hf : ∀ a ∈ l, Keeps F (f a)) :
    Keeps F (Exec.forEach f l) := by
  induction l with
  | nil => exact Keeps.pure ()
  | cons a l ih =>
    refine Keeps.bind (hf a (List.mem_cons_self)) fun _ => ?_
    exact ih fun b hb => hf b (List.mem_cons_of_mem a hb)

/-- In a loop that returned, the pass of every element returned, and the frame
leads to it and from it. -/
theorem forEach_ok {f : α → Exec σ ε Unit} {l : List α} (hf : ∀ a ∈ l, Keeps F (f a)) {s s1 : σ}
    (hs : F.pre s) (hr : Exec.forEach f l s = (.ok (), s1)) {a : α} (ha : a ∈ l) :
    ∃ sa sb, F.rel s sa ∧ f a sa = (.ok (), sb) ∧ F.rel sb s1 := by
  induction l generalizing s with
  | nil => cases ha
  | cons b l ih =>
    obtain ⟨u, s2, hb, hrest⟩ := bind_ok_iff.mp hr
    have hf1 : ∀ a ∈ l, Keeps F (f a) := fun a ha => hf a (List.mem_cons_of_mem b ha)
    have hsb : F.rel s s2 := (hf b List.mem_cons_self).of_run hs hb
    rcases List.mem_cons.mp ha with rfl | hmem
    · have hlast : F.rel s2 s1 := (Keeps.forEach hf1).of_run (F.stable hs hsb) hrest
      exact ⟨s, s2, F.refl s, hb, hlast⟩
    · obtain ⟨sa, sb, h1, h2, h3⟩ := ih hf1 (F.stable hs hsb) hrest hmem
      exact ⟨sa, sb, F.trans hsb h1, h2, h3⟩

end Keeps

/-! ## Partial correctness -/

/-- From a state in `P`, a computation that returns does so in `Q`. -/
def Returns (P : σ → Prop) (m : Exec σ ε α) (Q : α → σ → Prop) : Prop :=
  ∀ s, P s → ∀ a s1, m s = (.ok a, s1) → Q a s1

namespace Returns

variable {P : σ → Prop}

theorem pure {Q : α → σ → Prop} {a : α} (h : ∀ s, P s → Q a s) :
    Returns P (Pure.pure a : Exec σ ε α) Q := by
  intro s hs b s1 hr
  cases hr
  exact h s hs

theorem modify {Q : Unit → σ → Prop} {f : σ → σ} (h : ∀ s, P s → Q () (f s)) :
    Returns P (Exec.modify f : Exec σ ε Unit) Q := by
  intro s hs u s1 hr
  cases hr
  exact h s hs

theorem ofExcept {Q : α → σ → Prop} {x : Except ε α} (h : ∀ a, x = .ok a → ∀ s, P s → Q a s) :
    Returns P (Exec.ofExcept x) Q := by
  intro s hs a s1 hr
  obtain ⟨hx, rfl⟩ := ofExcept_ok_iff.mp hr
  exact h a hx s1 hs

theorem bind {Mid : α → σ → Prop} {Q : β → σ → Prop} {m : Exec σ ε α} {f : α → Exec σ ε β}
    (hm : Returns P m Mid) (hf : ∀ a, Returns (Mid a) (f a) Q) : Returns P (m >>= f) Q := by
  intro s hs b s2 hr
  obtain ⟨a, s1, h1, h2⟩ := bind_ok_iff.mp hr
  exact hf a s1 (hm s hs a s1 h1) b s2 h2

/-- The continuation is proved with the value that was read. -/
theorem gets_bind {Q : β → σ → Prop} {f : σ → α} {k : α → Exec σ ε β}
    (h : ∀ a, Returns (fun s => P s ∧ f s = a) (k a) Q) : Returns P (Exec.gets f >>= k) Q :=
  fun s hs => h (f s) s ⟨hs, rfl⟩

theorem ofExcept_bind {Q : β → σ → Prop} {x : Except ε α} {k : α → Exec σ ε β}
    (h : ∀ a, x = .ok a → Returns P (k a) Q) : Returns P (Exec.ofExcept x >>= k) Q := by
  cases x with
  | ok a => exact h a rfl
  | error e =>
    intro s _ b s1 hr
    cases hr

/-- Weaken the precondition and the postcondition. -/
theorem conseq {P1 : σ → Prop} {Q Q1 : α → σ → Prop} {m : Exec σ ε α} (h : Returns P1 m Q1)
    (hP : ∀ s, P s → P1 s) (hQ : ∀ a s, Q1 a s → Q a s) : Returns P m Q :=
  fun s hs a s1 hr => hQ a s1 (h s (hP s hs) a s1 hr)

/-- What a frame carries along holds afterwards. -/
theorem of_keeps {F : Frame σ} {Q : σ → Prop} {m : Exec σ ε α} (hm : Keeps F m)
    (h : ∀ s s1, P s → F.pre s ∧ (F.rel s s1 → Q s1)) : Returns P m (fun _ => Q) := by
  intro s hs a s1 hr
  have hrel := hm s (h s s1 hs).1
  rw [hr] at hrel
  exact (h s s1 hs).2 hrel

/-- The loop rule: `I done` is the invariant once the elements `done` have
been processed. -/
theorem forEach {I : List α → σ → Prop} {f : α → Exec σ ε Unit} {l : List α}
    (hstep : ∀ done a rest, done ++ a :: rest = l →
      Returns (I done) (f a) (fun _ => I (done ++ [a]))) :
    Returns (I []) (Exec.forEach f l) (fun _ => I l) := by
  suffices key : ∀ rest done, done ++ rest = l →
      Returns (I done) (Exec.forEach f rest) (fun _ => I l) from key l [] rfl
  intro rest
  induction rest with
  | nil =>
    intro done hl
    rw [List.append_nil] at hl
    subst hl
    exact Returns.pure fun s hs => hs
  | cons a rest ih =>
    intro done hl
    refine Returns.bind (hstep done a rest hl) fun _ => ih (done ++ [a]) ?_
    rw [List.append_assoc]
    exact hl

/-- The loop rule for an invariant that does not look at the elements done. -/
theorem forEach_const {I : σ → Prop} {f : α → Exec σ ε Unit} {l : List α}
    (hstep : ∀ a ∈ l, Returns I (f a) (fun _ => I)) :
    Returns I (Exec.forEach f l) (fun _ => I) := by
  refine Returns.forEach (I := fun _ => I) fun done a rest hl => hstep a ?_
  rw [← hl]
  exact List.mem_append_right done List.mem_cons_self

end Returns

/-! ## The ways to end -/

/-- The computation ends: in `Q` when it returns, in `E` when it throws, and
without a defined behaviour only under `U`. -/
def Ends (m : Exec σ ε α) (s : σ) (Q : α → σ → Prop) (E : ε → σ → Prop) (U : Prop) : Prop :=
  match m s with
  | (.ok a, s1) => Q a s1
  | (.throws e, s1) => E e s1
  | (.diverges, _) => False
  | (.undefined, _) => U

namespace Ends

variable {Q : α → σ → Prop} {E : ε → σ → Prop} {U : Prop} {s s1 : σ}

theorem of_ok {m : Exec σ ε α} {a : α} (h : m s = (.ok a, s1)) : Ends m s Q E U ↔ Q a s1 := by
  unfold Ends
  rw [h]

theorem of_throws {m : Exec σ ε α} {e : ε} (h : m s = (.throws e, s1)) :
    Ends m s Q E U ↔ E e s1 := by
  unfold Ends
  rw [h]

/-- A first part that returned. -/
theorem bind_of_ok {m : Exec σ ε α} {f : α → Exec σ ε β} {a : α} {Q : β → σ → Prop}
    (h : m s = (.ok a, s1)) : Ends (m >>= f) s Q E U ↔ Ends (f a) s1 Q E U := by
  unfold Ends
  rw [bind_run_of_ok h]

/-- The second part is only run where the first one returns. -/
theorem bind {m : Exec σ ε α} {f : α → Exec σ ε β} {Q : β → σ → Prop}
    (h : Ends m s (fun a s1 => Ends (f a) s1 Q E U) E U) : Ends (m >>= f) s Q E U := by
  unfold Ends at h ⊢
  rw [bind_run]
  rcases hr : m s with ⟨a | e | _ | _, s1⟩
  · rw [hr] at h
    exact h
  · rw [hr] at h
    exact h
  · rw [hr] at h
    exact h
  · rw [hr] at h
    exact h

theorem conseq {m : Exec σ ε α} {Q1 : α → σ → Prop} {E1 : ε → σ → Prop} {U1 : Prop}
    (h : Ends m s Q E U) (hQ : ∀ a s1, Q a s1 → Q1 a s1) (hE : ∀ e s1, E e s1 → E1 e s1)
    (hU : U → U1) : Ends m s Q1 E1 U1 := by
  unfold Ends at h ⊢
  rcases hr : m s with ⟨a | e | _ | _, s1⟩
  · rw [hr] at h
    exact hQ a s1 h
  · rw [hr] at h
    exact hE e s1 h
  · rw [hr] at h
    exact h
  · rw [hr] at h
    exact hU h

/-- The handler runs where the block throws. -/
theorem tryCatch {m : Exec σ ε α} {h : ε → Exec σ ε α}
    (hm : Ends m s Q (fun e s1 => Ends (h e) s1 Q E U) U) : Ends (Exec.tryCatch m h) s Q E U := by
  unfold Ends at hm ⊢
  rw [tryCatch_run]
  rcases hr : m s with ⟨a | e | _ | _, s1⟩
  · rw [hr] at hm
    exact hm
  · rw [hr] at hm
    exact hm
  · rw [hr] at hm
    exact hm
  · rw [hr] at hm
    exact hm

end Ends

/-! ## Simulation -/

/-- When the computation returns, it has made the step on the view of the
state. -/
def Simulates {τ : Type} (view : σ → τ) (m : Exec σ ε α) (step : τ → τ) : Prop :=
  ∀ s a s1, m s = (.ok a, s1) → view s1 = step (view s)

namespace Simulates

variable {τ : Type} {view : σ → τ}

/-- A computation that keeps the view makes no step. -/
theorem of_keeps {m : Exec σ ε α} (hm : Keeps (Frame.ofView view) m) : Simulates view m id :=
  fun _ _ _ hr => hm.of_run trivial hr

theorem modify {f : σ → σ} {step : τ → τ} (h : ∀ s, view (f s) = step (view s)) :
    Simulates view (Exec.modify f : Exec σ ε Unit) step := by
  intro s u s1 hr
  cases hr
  exact h s

theorem bind {m : Exec σ ε α} {f : α → Exec σ ε β} {step : τ → τ} (step1 : τ → τ)
    (hm : Simulates view m step) (hf : ∀ a, Simulates view (f a) step1) :
    Simulates view (m >>= f) (fun t => step1 (step t)) := by
  intro s b s2 hr
  obtain ⟨a, s1, h1, h2⟩ := bind_ok_iff.mp hr
  rw [hf a s1 b s2 h2, hm s a s1 h1]

/-- The continuation is only run on what the first part, which keeps the view,
returns. -/
theorem bind_of {m : Exec σ ε α} {f : α → Exec σ ε β} {step : τ → τ}
    (hm : Keeps (Frame.ofView view) m)
    (hf : ∀ s a s1, m s = (.ok a, s1) → Simulates view (f a) step) :
    Simulates view (m >>= f) step := by
  intro s b s2 hr
  obtain ⟨a, s1, h1, h2⟩ := bind_ok_iff.mp hr
  have hview : view s1 = view s := hm.of_run trivial h1
  rw [hf s a s1 h1 s1 b s2 h2, hview]

/-- A loop makes the steps of its elements one after another. -/
theorem forEach {f : α → Exec σ ε Unit} {step : τ → α → τ} {l : List α}
    (hf : ∀ a ∈ l, Simulates view (f a) (step · a)) :
    Simulates view (Exec.forEach f l) (l.foldl step) := by
  induction l with
  | nil =>
    intro s u s1 hr
    cases hr
    rfl
  | cons a l ih =>
    exact Simulates.bind (l.foldl step) (hf a List.mem_cons_self) fun _ =>
      ih fun b hb => hf b (List.mem_cons_of_mem a hb)

/-- A loop whose passes return only for elements that can be read makes the steps
of what was read. -/
theorem forEach_read {f : α → Exec σ ε Unit} {read : α → Option β} {step : τ → β → τ}
    {l : List α} (hf : ∀ a ∈ l, ∀ s u s1, f a s = (.ok u, s1) →
      ∃ b, read a = some b ∧ view s1 = step (view s) b) :
    Simulates view (Exec.forEach f l) ((l.filterMap read).foldl step) := by
  induction l with
  | nil =>
    intro s u s1 hr
    cases hr
    rfl
  | cons a l ih =>
    intro s u s2 hr
    obtain ⟨u1, s1, ha, hrest⟩ := bind_ok_iff.mp hr
    obtain ⟨b, hread, hview⟩ := hf a List.mem_cons_self s u1 s1 ha
    show view s2 = ((a :: l).filterMap read).foldl step (view s)
    rw [List.filterMap_cons_some hread, List.foldl_cons, ← hview]
    exact ih (fun c hc => hf c (List.mem_cons_of_mem a hc)) s1 u s2 hrest

end Simulates

/-! ## Agreement of two computations -/

/-- Two ways to end that differ at most in the exception, and there within `E`. -/
inductive SameEnd (E : ε → ε → Prop) : Outcome ε α → Outcome ε α → Prop where
  | ok (a : α) : SameEnd E (.ok a) (.ok a)
  | throws {e e1 : ε} (h : E e e1) : SameEnd E (.throws e) (.throws e1)
  | diverges : SameEnd E .diverges .diverges
  | undefined : SameEnd E .undefined .undefined

theorem SameEnd.refl {E : ε → ε → Prop} (hE : ∀ e, E e e) (out : Outcome ε α) :
    SameEnd E out out := by
  cases out with
  | ok a => exact .ok a
  | throws e => exact .throws (hE e)
  | diverges => exact .diverges
  | undefined => exact .undefined

/-- From every state in `P` the two computations end alike, in the same state. -/
def AgreeOn (E : ε → ε → Prop) (P : σ → Prop) (m m1 : Exec σ ε α) : Prop :=
  ∀ s, P s → SameEnd E (m s).1 (m1 s).1 ∧ (m1 s).2 = (m s).2

namespace AgreeOn

variable {E : ε → ε → Prop} {P : σ → Prop}

theorem of_eq (hE : ∀ e, E e e) {m m1 : Exec σ ε α} (h : ∀ s, P s → m1 s = m s) :
    AgreeOn E P m m1 := by
  intro s hs
  rw [h s hs]
  exact ⟨.refl hE _, rfl⟩

theorem refl (hE : ∀ e, E e e) (m : Exec σ ε α) : AgreeOn E P m m := of_eq hE fun _ _ => rfl

/-- Sequences agree when the first parts agree, the first part stays in `P`,
and the continuations agree on what it returns. -/
theorem bind_of {m m1 : Exec σ ε α} {f f1 : α → Exec σ ε β} (hm : AgreeOn E P m m1)
    (hP : ∀ s, P s → P (m s).2)
    (hf : ∀ s a s1, P s → m s = (.ok a, s1) → AgreeOn E P (f a) (f1 a)) :
    AgreeOn E P (m >>= f) (m1 >>= f1) := by
  intro s hs
  have h1 := hP s hs
  obtain ⟨hend, hstate⟩ := hm s hs
  rw [bind_run, bind_run]
  rcases hr : m s with ⟨out, s1⟩
  rcases hr1 : m1 s with ⟨out1, s2⟩
  rw [hr] at h1 hend hstate
  rw [hr1] at hend hstate
  obtain rfl : s2 = s1 := hstate
  cases hend with
  | ok a => exact hf s a s2 hs hr s2 h1
  | throws h => exact ⟨.throws h, rfl⟩
  | diverges => exact ⟨.diverges, rfl⟩
  | undefined => exact ⟨.undefined, rfl⟩

theorem bind {m m1 : Exec σ ε α} {f f1 : α → Exec σ ε β} (hm : AgreeOn E P m m1)
    (hP : ∀ s, P s → P (m s).2) (hf : ∀ a, AgreeOn E P (f a) (f1 a)) :
    AgreeOn E P (m >>= f) (m1 >>= f1) :=
  AgreeOn.bind_of hm hP fun _ a _ _ _ => hf a

/-- Handlers that agree on the exceptions of `E`. -/
theorem tryCatch {m m1 : Exec σ ε α} {h h1 : ε → Exec σ ε α} (hm : AgreeOn E P m m1)
    (hP : ∀ s, P s → P (m s).2) (hh : ∀ e e1, E e e1 → AgreeOn E P (h e) (h1 e1)) :
    AgreeOn E P (Exec.tryCatch m h) (Exec.tryCatch m1 h1) := by
  intro s hs
  have hs1 := hP s hs
  obtain ⟨hend, hstate⟩ := hm s hs
  rw [tryCatch_run, tryCatch_run]
  rcases hr : m s with ⟨out, s1⟩
  rcases hr1 : m1 s with ⟨out1, s2⟩
  rw [hr] at hs1 hend hstate
  rw [hr1] at hend hstate
  obtain rfl : s2 = s1 := hstate
  cases hend with
  | ok a => exact ⟨.ok a, rfl⟩
  | throws he => exact hh _ _ he s2 hs1
  | diverges => exact ⟨.diverges, rfl⟩
  | undefined => exact ⟨.undefined, rfl⟩

theorem forEach (hE : ∀ e, E e e) {f f1 : α → Exec σ ε Unit} {l : List α}
    (hf : ∀ a ∈ l, AgreeOn E P (f a) (f1 a)) (hP : ∀ a ∈ l, ∀ s, P s → P (f a s).2) :
    AgreeOn E P (Exec.forEach f l) (Exec.forEach f1 l) := by
  induction l with
  | nil => exact AgreeOn.refl hE _
  | cons a l ih =>
    refine AgreeOn.bind (hf a List.mem_cons_self) (hP a List.mem_cons_self) fun _ => ?_
    exact ih (fun b hb => hf b (List.mem_cons_of_mem a hb))
      fun b hb => hP b (List.mem_cons_of_mem a hb)

end AgreeOn

/-! ## More fuel -/

/-- `m1` does what `m` does wherever `m` does not run out of fuel. -/
def Extends (m m1 : Exec σ ε α) : Prop :=
  ∀ s, (m s).1 ≠ .diverges → m1 s = m s

namespace Extends

theorem refl (m : Exec σ ε α) : Extends m m := fun _ _ => rfl

theorem diverge (m : Exec σ ε α) : Extends Exec.diverge m := fun _ h => absurd rfl h

theorem bind {m m1 : Exec σ ε α} {f f1 : α → Exec σ ε β} (hm : Extends m m1)
    (hf : ∀ a, Extends (f a) (f1 a)) : Extends (m >>= f) (m1 >>= f1) := by
  intro s hs
  rw [bind_run] at hs ⊢
  rw [bind_run]
  rcases hr : m s with ⟨a | e | _ | _, s1⟩
  · rw [hr] at hs
    rw [hm s (by rw [hr]; simp), hr]
    exact hf a s1 hs
  · rw [hm s (by rw [hr]; simp), hr]
  · rw [hr] at hs
    exact absurd rfl hs
  · rw [hm s (by rw [hr]; simp), hr]

theorem tryCatch {m m1 : Exec σ ε α} {h : ε → Exec σ ε α} (hm : Extends m m1) :
    Extends (Exec.tryCatch m h) (Exec.tryCatch m1 h) := by
  intro s hs
  rw [tryCatch_run] at hs ⊢
  rw [tryCatch_run]
  rcases hr : m s with ⟨a | e | _ | _, s1⟩
  · rw [hm s (by rw [hr]; simp), hr]
  · rw [hm s (by rw [hr]; simp), hr]
  · rw [hr] at hs
    exact absurd rfl hs
  · rw [hm s (by rw [hr]; simp), hr]

theorem forEach {f f1 : α → Exec σ ε Unit} (hf : ∀ a, Extends (f a) (f1 a)) (l : List α) :
    Extends (Exec.forEach f l) (Exec.forEach f1 l) := by
  induction l with
  | nil => exact Extends.refl _
  | cons a l ih => exact Extends.bind (hf a) fun _ => ih

end Extends

/-- With enough fuel the computation ends in `out` and `s1`, and more fuel
changes nothing. -/
def Completes (m : Nat → Exec σ ε α) (s : σ) (out : Outcome ε α) (s1 : σ) : Prop :=
  out ≠ .diverges ∧ ∃ n, ∀ fuel, n ≤ fuel → m fuel s = (out, s1)

/-! ## Halting -/

/-- From the states in `P` the computation does not run out of fuel. -/
def Halts (P : σ → Prop) (m : Exec σ ε α) : Prop := ∀ s, P s → (m s).1 ≠ .diverges

namespace Halts

variable {P : σ → Prop}

theorem pure (a : α) : Halts P (Pure.pure a : Exec σ ε α) := by
  intro s _ h
  cases h

theorem throw (e : ε) : Halts P (Exec.throw e : Exec σ ε α) := by
  intro s _ h
  cases h

theorem gets (f : σ → α) : Halts P (Exec.gets f : Exec σ ε α) := by
  intro s _ h
  cases h

theorem modify (f : σ → σ) : Halts P (Exec.modify f : Exec σ ε Unit) := by
  intro s _ h
  cases h

theorem ofExcept (x : Except ε α) : Halts P (Exec.ofExcept x : Exec σ ε α) := by
  cases x with
  | ok a => exact Halts.pure a
  | error e => exact Halts.throw e

theorem weaken {Q : σ → Prop} {m : Exec σ ε α} (hm : Halts P m) (h : ∀ s, Q s → P s) :
    Halts Q m := fun s hs => hm s (h s hs)

/-- The continuation is only run on what the first part returns, in the state it
leaves. -/
theorem bind_of {m : Exec σ ε α} {f : α → Exec σ ε β} (hm : Halts P m)
    (hP : ∀ s, P s → P (m s).2)
    (hf : ∀ s a s1, P s → m s = (.ok a, s1) → Halts P (f a)) : Halts P (m >>= f) := by
  intro s hs
  have h1 := hP s hs
  have h2 := hm s hs
  rw [bind_run]
  rcases hr : m s with ⟨a | e | _ | _, s1⟩
  · rw [hr] at h1
    exact hf s a s1 hs hr s1 h1
  · intro h
    cases h
  · rw [hr] at h2
    exact absurd rfl h2
  · intro h
    cases h

theorem bind {m : Exec σ ε α} {f : α → Exec σ ε β} (hm : Halts P m)
    (hP : ∀ s, P s → P (m s).2) (hf : ∀ a, Halts P (f a)) : Halts P (m >>= f) :=
  Halts.bind_of hm hP fun _ a _ _ _ => hf a

theorem gets_bind {f : σ → α} {k : α → Exec σ ε β}
    (h : ∀ s, P s → (k (f s) s).1 ≠ .diverges) : Halts P (Exec.gets f >>= k) := h

theorem tryCatch {m : Exec σ ε α} {h : ε → Exec σ ε α} (hm : Halts P m)
    (hP : ∀ s, P s → P (m s).2) (hh : ∀ e, Halts P (h e)) : Halts P (Exec.tryCatch m h) := by
  intro s hs
  have h1 := hP s hs
  have h2 := hm s hs
  rw [tryCatch_run]
  rcases hr : m s with ⟨a | e | _ | _, s1⟩
  · intro h
    cases h
  · rw [hr] at h1
    exact hh e s1 h1
  · rw [hr] at h2
    exact absurd rfl h2
  · intro h
    cases h

theorem forEach {f : α → Exec σ ε Unit} {l : List α} (hf : ∀ a ∈ l, Halts P (f a))
    (hP : ∀ a ∈ l, ∀ s, P s → P (f a s).2) : Halts P (Exec.forEach f l) := by
  induction l with
  | nil => exact Halts.pure ()
  | cons a l ih =>
    refine Halts.bind (hf a List.mem_cons_self) (hP a List.mem_cons_self) fun _ => ?_
    exact ih (fun b hb => hf b (List.mem_cons_of_mem a hb))
      fun b hb => hP b (List.mem_cons_of_mem a hb)

/-- A computation that gets more defined with more fuel completes once it
halts. -/
theorem completes {m : Nat → Exec σ ε α} {n : Nat} (h : Halts P (m n))
    (hm : ∀ fuel, n ≤ fuel → Extends (m n) (m fuel)) {s : σ} (hs : P s) :
    ∃ out s1, Completes m s out s1 :=
  ⟨(m n s).1, (m n s).2, h s hs, n, fun fuel hle => hm fuel hle s (h s hs)⟩

end Halts

end Exec

end CodeLib
