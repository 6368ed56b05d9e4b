import Xpcf.CodeLib.Exec

/-!
# The passes of a loop

A loop stops at the first pass that throws.  What it does is said by the passes
that it reaches:

* `Pass f l s a s1`: the loop over `l`, started in `s`, runs `f a` from `s1`;
* `Adds P Q m A`: `m` makes `Q` true exactly where `A` holds;
* `EscapesAt E bad m R`: `m` throws an exception of the family `E` exactly when
  one of its steps is refused.
-/

namespace CodeLib.Exec

variable {σ ε α β : Type}

/-! ## Passes -/

/-- Everything before the pass returned. -/
inductive Pass (f : α → Exec σ ε Unit) : List α → σ → α → σ → Prop
  | here (a : α) (l : List α) (s : σ) : Pass f (a :: l) s a s
  | later {b : α} {l : List α} {s s1 : σ} {a : α} {s2 : σ} (h : f b s = (.ok (), s1))
      (hrest : Pass f l s1 a s2) : Pass f (b :: l) s a s2

namespace Pass

variable {f : α → Exec σ ε Unit}

theorem mem {l : List α} {s : σ} {a : α} {s1 : σ} (h : Pass f l s a s1) : a ∈ l := by
  induction h with
  | here a l s => exact List.mem_cons_self
  | later h hrest ih => exact List.mem_cons_of_mem _ ih

/-- The first pass is reached; a later one is reached when the first returned. -/
theorem cons_iff {b : α} {l : List α} {s : σ} {A : α → σ → Prop} :
    (∃ a s2, Pass f (b :: l) s a s2 ∧ A a s2) ↔
      A b s ∨ ∃ s1, f b s = (.ok (), s1) ∧ ∃ a s2, Pass f l s1 a s2 ∧ A a s2 := by
  constructor
  · rintro ⟨a, s2, hpass, ha⟩
    cases hpass with
    | here => exact .inl ha
    | later h hrest => exact .inr ⟨_, h, a, s2, hrest, ha⟩
  · rintro (ha | ⟨s1, h, a, s2, hrest, ha⟩)
    · exact ⟨b, s, .here b l s, ha⟩
    · exact ⟨a, s2, .later h hrest, ha⟩

theorem not_nil {s : σ} {A : α → σ → Prop} : ¬ ∃ a s1, Pass f [] s a s1 ∧ A a s1 := by
  rintro ⟨a, s1, hpass, -⟩
  cases hpass

/-- A loop whose passes all return reaches every element. -/
theorem of_mem (hf : ∀ a s, ∃ s1, f a s = (.ok (), s1)) {l : List α} {a : α} (ha : a ∈ l) (s : σ) :
    ∃ s1, Pass f l s a s1 := by
  induction l generalizing s with
  | nil => cases ha
  | cons b l ih =>
    rcases List.mem_cons.mp ha with rfl | hmem
    · exact ⟨s, .here a l s⟩
    · obtain ⟨s1, hfirst⟩ := hf b s
      obtain ⟨s2, hrest⟩ := ih hmem s1
      exact ⟨s2, .later hfirst hrest⟩

end Pass

/-! ## What a computation adds -/

/-- `m` stays in `P`, and afterwards `Q` holds where it held before or `A` did. -/
def Adds (P Q : σ → Prop) (m : Exec σ ε α) (A : σ → Prop) : Prop :=
  ∀ s, P s → P (m s).2 ∧ (Q (m s).2 ↔ Q s ∨ A s)

namespace Adds

variable {P Q : σ → Prop}

/-- A computation that leaves alone what `P` and `Q` read. -/
theorem of_keeps {τ : Type} {view : σ → τ} {P Q : τ → Prop} {m : Exec σ ε α}
    (hm : Keeps (Frame.ofView view) m) :
    Adds (fun s => P (view s)) (fun s => Q (view s)) m fun _ => False := by
  intro s hs
  have hsame : view (m s).2 = view s := hm s trivial
  dsimp only
  rw [hsame, or_false]
  exact ⟨hs, Iff.rfl⟩

theorem congr {m : Exec σ ε α} {A B : σ → Prop} (hm : Adds P Q m A) (h : ∀ s, P s → (A s ↔ B s)) :
    Adds P Q m B := by
  intro s hs
  rw [← h s hs]
  exact hm s hs

theorem bind {m : Exec σ ε α} {f : α → Exec σ ε β} {A : σ → Prop} {B : α → σ → Prop}
    (hm : Adds P Q m A) (hf : ∀ a, Adds P Q (f a) (B a)) :
    Adds P Q (m >>= f) fun s => A s ∨ ∃ a s1, m s = (.ok a, s1) ∧ B a s1 := by
  intro s hs
  have hfirst := hm s hs
  rw [bind_run]
  rcases hr : m s with ⟨a | e | _ | _, s1⟩
  · rw [hr] at hfirst
    have hsecond := hf a s1 hfirst.1
    refine ⟨hsecond.1, hsecond.2.trans ?_⟩
    rw [hfirst.2, or_assoc]
    refine or_congr_right (or_congr_right ⟨fun hb => ⟨a, s1, hr, hb⟩, ?_⟩)
    rintro ⟨a1, s2, heq, hb⟩
    cases hr.symm.trans heq
    exact hb
  · have hnone : ¬ ∃ a s2, m s = (.ok a, s2) ∧ B a s2 := by simp [hr]
    rw [hr] at hfirst
    simpa [hnone] using hfirst
  · have hnone : ¬ ∃ a s2, m s = (.ok a, s2) ∧ B a s2 := by simp [hr]
    rw [hr] at hfirst
    simpa [hnone] using hfirst
  · have hnone : ¬ ∃ a s2, m s = (.ok a, s2) ∧ B a s2 := by simp [hr]
    rw [hr] at hfirst
    simpa [hnone] using hfirst

/-- A first part that adds nothing. -/
theorem quiet_bind {m : Exec σ ε α} {f : α → Exec σ ε β} {B : α → σ → Prop}
    (hm : Adds P Q m fun _ => False) (hf : ∀ a, Adds P Q (f a) (B a)) :
    Adds P Q (m >>= f) fun s => ∃ a s1, m s = (.ok a, s1) ∧ B a s1 :=
  (hm.bind hf).congr fun _ _ => by rw [false_or]

theorem ofExcept_bind {x : Except ε α} {k : α → Exec σ ε β} {B : α → σ → Prop}
    (hk : ∀ a, Adds P Q (k a) (B a)) :
    Adds P Q (Exec.ofExcept x >>= k) fun s => ∃ a, x = .ok a ∧ B a s := by
  intro s hs
  cases x with
  | ok a =>
    rw [ofExcept_ok_bind_run]
    simpa using hk a s hs
  | error e =>
    show P s ∧ (Q s ↔ Q s ∨ _)
    simpa using hs

/-- A handler that adds nothing. -/
theorem tryCatch {m : Exec σ ε α} {h : ε → Exec σ ε α} {A : σ → Prop} (hm : Adds P Q m A)
    (hh : ∀ e, Adds P Q (h e) fun _ => False) : Adds P Q (Exec.tryCatch m h) A := by
  intro s hs
  have hfirst := hm s hs
  rw [tryCatch_run]
  rcases hr : m s with ⟨a | e | _ | _, s1⟩
  · rw [hr] at hfirst
    exact hfirst
  · rw [hr] at hfirst
    have hsecond := hh e s1 hfirst.1
    rw [or_false] at hsecond
    exact ⟨hsecond.1, hsecond.2.trans hfirst.2⟩
  · rw [hr] at hfirst
    exact hfirst
  · rw [hr] at hfirst
    exact hfirst

/-- A loop adds what the passes add that it reaches. -/
theorem forEach {f : α → Exec σ ε Unit} {A : α → σ → Prop} (hf : ∀ a, Adds P Q (f a) (A a))
    (l : List α) : Adds P Q (Exec.forEach f l) fun s => ∃ a s1, Pass f l s a s1 ∧ A a s1 := by
  induction l with
  | nil =>
    intro s hs
    have hnone := Pass.not_nil (f := f) (s := s) (A := A)
    exact ⟨hs, by simp [hnone]; rfl⟩
  | cons b l ih =>
    refine (bind (hf b) fun _ => ih).congr fun s _ => ?_
    rw [Pass.cons_iff]
    exact or_congr_right ⟨fun ⟨_, h⟩ => h, fun h => ⟨(), h⟩⟩

end Adds

/-! ## How a computation fails -/

/-- The computation ends in an exception of the family `E`, or not in a defined
way, or not at all. -/
def Escapes (E : ε → Prop) (m : Exec σ ε α) (s : σ) : Prop :=
  match (m s).1 with
  | .ok _ => False
  | .throws e => E e
  | .diverges => True
  | .undefined => True

section Escapes

variable {E : ε → Prop}

theorem escapes_of_throws {m : Exec σ ε α} {s : σ} {e : ε} (h : (m s).1 = .throws e) (he : E e) :
    Escapes E m s := by
  unfold Escapes
  rw [h]
  exact he

theorem escapes_bind_iff {m : Exec σ ε α} {f : α → Exec σ ε β} {s : σ} :
    Escapes E (m >>= f) s ↔
      Escapes E m s ∨ ∃ a s1, m s = (.ok a, s1) ∧ Escapes E (f a) s1 := by
  have hrun := bind_run m f s
  unfold Escapes
  rw [hrun]
  rcases m s with ⟨a | e | _ | _, s1⟩
  · rw [false_or]
    constructor
    · exact fun h => ⟨a, s1, rfl, h⟩
    · rintro ⟨a1, s2, heq, h⟩
      cases heq
      exact h
  · simp
  · simp
  · simp

theorem escapes_ofExcept_iff {x : Except ε α} {s : σ} :
    Escapes E (Exec.ofExcept x) s ↔ ∃ e, x = .error e ∧ E e := by
  cases x with
  | ok a =>
    show False ↔ _
    simp
  | error e =>
    show E e ↔ _
    simp

/-- A sequence of two fails in the first or, after a result, in the second. -/
theorem exists_error_bind_iff {x : Except ε α} {f : α → Except ε β} :
    (∃ e, x >>= f = .error e ∧ E e) ↔
      (∃ e, x = .error e ∧ E e) ∨ ∃ a, x = .ok a ∧ ∃ e, f a = .error e ∧ E e := by
  cases x with
  | ok a =>
    show (∃ e, f a = .error e ∧ E e) ↔ _
    simp
  | error e =>
    show (∃ e1, Except.error e = .error e1 ∧ E e1) ↔ _
    simp

/-- A handler that throws on what it does not know. -/
theorem escapes_tryCatch_iff {m : Exec σ ε α} {h : ε → Exec σ ε α} {s : σ}
    (hh : ∀ e s1, Escapes E (h e) s1 ↔ E e) : Escapes E (Exec.tryCatch m h) s ↔ Escapes E m s := by
  have hrun := tryCatch_run m h s
  unfold Escapes at hh ⊢
  rw [hrun]
  rcases m s with ⟨a | e | _ | _, s1⟩
  · exact Iff.rfl
  · exact hh e s1
  · exact Iff.rfl
  · exact Iff.rfl

end Escapes

/-! ## The step a computation fails in

`R s r s1` says that a computation started in `s` makes the step `r` in `s1`.
The steps are named by a type `ρ`; which step is refused in which state is the
relation `bad`. -/

/-- The computation escapes exactly when one of its steps is refused. -/
def EscapesAt {ρ : Type} (E : ε → Prop) (bad : ρ → σ → Prop) (m : Exec σ ε α)
    (R : σ → ρ → σ → Prop) : Prop :=
  ∀ s, Escapes E m s ↔ ∃ r s1, R s r s1 ∧ bad r s1

namespace EscapesAt

variable {ρ : Type} {E : ε → Prop} {bad : ρ → σ → Prop}

theorem congr {m : Exec σ ε α} {R S : σ → ρ → σ → Prop} (hm : EscapesAt E bad m R)
    (h : ∀ s r s1, R s r s1 ↔ S s r s1) : EscapesAt E bad m S := by
  intro s
  rw [hm s]
  simp only [h]

/-- A computation that always returns or throws what is handled. -/
theorem never {m : Exec σ ε α} (h : ∀ s, ¬ Escapes E m s) :
    EscapesAt E bad m fun _ _ _ => False := by
  intro s
  simp [h s]

theorem bind {m : Exec σ ε α} {f : α → Exec σ ε β} {R : σ → ρ → σ → Prop}
    {S : α → σ → ρ → σ → Prop} (hm : EscapesAt E bad m R) (hf : ∀ a, EscapesAt E bad (f a) (S a)) :
    EscapesAt E bad (m >>= f) fun s r s2 =>
      R s r s2 ∨ ∃ a s1, m s = (.ok a, s1) ∧ S a s1 r s2 := by
  intro s
  rw [escapes_bind_iff, hm s]
  constructor
  · rintro (⟨r, s2, hr, hbad⟩ | ⟨a, s1, hrun, hescapes⟩)
    · exact ⟨r, s2, .inl hr, hbad⟩
    · obtain ⟨r, s2, hr, hbad⟩ := (hf a s1).mp hescapes
      exact ⟨r, s2, .inr ⟨a, s1, hrun, hr⟩, hbad⟩
  · rintro ⟨r, s2, hr | ⟨a, s1, hrun, hr⟩, hbad⟩
    · exact .inl ⟨r, s2, hr, hbad⟩
    · exact .inr ⟨a, s1, hrun, (hf a s1).mpr ⟨r, s2, hr, hbad⟩⟩

/-- A first part that does not escape. -/
theorem bind_of_never {m : Exec σ ε α} {f : α → Exec σ ε β} {S : α → σ → ρ → σ → Prop}
    (hm : ∀ s, ¬ Escapes E m s) (hf : ∀ a, EscapesAt E bad (f a) (S a)) :
    EscapesAt E bad (m >>= f) fun s r s2 => ∃ a s1, m s = (.ok a, s1) ∧ S a s1 r s2 :=
  ((never hm).bind hf).congr fun _ _ _ => by rw [false_or]

/-- A last part that does not escape. -/
theorem then_never {m : Exec σ ε α} {f : α → Exec σ ε β} {R : σ → ρ → σ → Prop}
    (hm : EscapesAt E bad m R) (hf : ∀ a s, ¬ Escapes E (f a) s) : EscapesAt E bad (m >>= f) R :=
  (hm.bind fun a => never (hf a)).congr fun _ _ _ => by simp

/-- A loop fails in a pass that it reaches. -/
theorem forEach {f : α → Exec σ ε Unit} {R : α → σ → ρ → σ → Prop}
    (hf : ∀ a, EscapesAt E bad (f a) (R a)) (l : List α) :
    EscapesAt E bad (Exec.forEach f l) fun s r s2 =>
      ∃ a s1, Pass f l s a s1 ∧ R a s1 r s2 := by
  induction l with
  | nil =>
    refine (never fun s => ?_).congr fun s r s2 => ?_
    · exact id
    · have hnone := Pass.not_nil (f := f) (s := s) (A := fun a s1 => R a s1 r s2)
      simp [hnone]
  | cons b l ih =>
    refine ((hf b).bind fun _ => ih).congr fun s r s2 => ?_
    rw [Pass.cons_iff]
    exact or_congr_right ⟨fun ⟨_, h⟩ => h, fun h => ⟨(), h⟩⟩

end EscapesAt

end CodeLib.Exec
