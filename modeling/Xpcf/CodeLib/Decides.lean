import Xpcf.CodeLib.Passes

/-!
# Computations decided by the shape of the state

A computation answers with a code, throws an exception that its callers handle,
or throws one that escapes them.  `Decides` says which of the three it does, by
two conditions on the shape of the state: under `A` it answers `go` and keeps
the shape, under `F` it escapes, and otherwise it gives up in an orderly way.

The conditions of a loop or of a sequence are made of those of its parts: the
shape does not change while the parts answer `go`, so all of them can be read
off the state at the beginning.

`DecidedBy` writes the conditions as a list of steps: each is accepted, refused
or neither, and what the first step that is not accepted is decides.
-/

namespace CodeLib.Exec

variable {σ ε β : Type}

/-- It answers something other than `go`, or throws what is handled. -/
def GivesUp (go : β) (H : ε → Prop) (m : Exec σ ε β) (s : σ) : Prop :=
  match (m s).1 with
  | .ok b => b ≠ go
  | .throws e => H e
  | .diverges => False
  | .undefined => False

theorem givesUp_of_throws {go : β} {H : ε → Prop} {m : Exec σ ε β} {s : σ} {e : ε}
    (h : (m s).1 = .throws e) (he : H e) : GivesUp go H m s := by
  unfold GivesUp
  rw [h]
  exact he

/-- `H` are the exceptions that callers handle, `E` those that escape them. -/
structure Decides (S : Setoid σ) (go : β) (H E : ε → Prop) (m : Exec σ ε β) (A F : σ → Prop) :
    Prop where
  accepts : ∀ s, A s → ∃ s1, m s = (.ok go, s1) ∧ S.r s s1
  fails : ∀ s, F s → Escapes E m s
  gives_up : ∀ s, ¬ A s → ¬ F s → GivesUp go H m s
  stable_accepts : ∀ s s1, S.r s s1 → A s → A s1
  stable_fails : ∀ s s1, S.r s s1 → F s → F s1

namespace Decides

variable {S : Setoid σ} {go : β} {H E : ε → Prop} {A F : σ → Prop} {m : Exec σ ε β}

theorem congr {B G : σ → Prop} (hm : Decides S go H E m A F) (hA : ∀ s, A s ↔ B s)
    (hF : ∀ s, F s ↔ G s) : Decides S go H E m B G := by
  obtain rfl : A = B := funext fun s => propext (hA s)
  obtain rfl : F = G := funext fun s => propext (hF s)
  exact hm

/-- Where it does not escape, it answers or throws what is handled. -/
theorem handled (hm : Decides S go H E m A F) {s : σ} (hF : ¬ F s) :
    (∃ b, (m s).1 = .ok b) ∨ ∃ e, (m s).1 = .throws e ∧ H e := by
  by_cases hA : A s
  · obtain ⟨s1, hrun, -⟩ := hm.accepts s hA
    exact .inl ⟨go, by rw [hrun]⟩
  · have hup := hm.gives_up s hA hF
    unfold GivesUp at hup
    split at hup
    · rename_i b hrun
      exact .inl ⟨b, hrun⟩
    · rename_i e hrun
      exact .inr ⟨e, hrun, hup⟩
    · exact hup.elim
    · exact hup.elim

/-! ## Single steps -/

theorem pure_go : Decides S go H E (pure go) (fun _ => True) fun _ => False where
  accepts s _ := ⟨s, rfl, S.refl s⟩
  fails _ h := h.elim
  gives_up _ h _ := absurd trivial h
  stable_accepts _ _ _ _ := trivial
  stable_fails _ _ _ h := h

/-- Neither of the two ever: the computation always gives up. -/
theorem never (h : ∀ s, GivesUp go H m s) : Decides S go H E m (fun _ => False) fun _ => False where
  accepts _ h := h.elim
  fails _ h := h.elim
  gives_up s _ _ := h s
  stable_accepts _ _ _ h := h
  stable_fails _ _ _ h := h

theorem throw_escaping {e : ε} (he : E e) :
    Decides S go H E (Exec.throw e) (fun _ => False) fun _ => True where
  accepts _ h := h.elim
  fails _ _ := he
  gives_up _ _ h := absurd trivial h
  stable_accepts _ _ _ h := h
  stable_fails _ _ _ h := h

/-! ## Sequences, loops and handlers -/

/-- Go on as long as the answer is `go`. -/
theorem andThen [DecidableEq β] {k : Exec σ ε β} {B G : σ → Prop}
    (hm : Decides S go H E m A F) (hk : Decides S go H E k B G) :
    Decides S go H E (m >>= fun b => if b = go then k else pure b) (fun s => A s ∧ B s)
      fun s => F s ∨ A s ∧ G s where
  accepts s h := by
    obtain ⟨s1, hrun, hs⟩ := hm.accepts s h.1
    obtain ⟨s2, hrun2, hs2⟩ := hk.accepts s1 (hk.stable_accepts s s1 hs h.2)
    refine ⟨s2, ?_, S.trans hs hs2⟩
    rw [bind_run_of_ok hrun, if_pos rfl]
    exact hrun2
  fails s h := by
    rw [escapes_bind_iff]
    rcases h with hF | ⟨hA, hG⟩
    · exact .inl (hm.fails s hF)
    · obtain ⟨s1, hrun, hs⟩ := hm.accepts s hA
      refine .inr ⟨go, s1, hrun, ?_⟩
      rw [if_pos rfl]
      exact hk.fails s1 (hk.stable_fails s s1 hs hG)
  gives_up s hA hF := by
    rw [not_or] at hF
    unfold GivesUp
    by_cases hfirst : A s
    · obtain ⟨s1, hrun, hs⟩ := hm.accepts s hfirst
      have hB : ¬ B s1 := fun h => hA ⟨hfirst, hk.stable_accepts s1 s (S.symm hs) h⟩
      have hG : ¬ G s1 := fun h => hF.2 ⟨hfirst, hk.stable_fails s1 s (S.symm hs) h⟩
      rw [bind_run_of_ok hrun, if_pos rfl]
      exact hk.gives_up s1 hB hG
    · have hup := hm.gives_up s hfirst hF.1
      unfold GivesUp at hup
      rw [bind_run]
      rcases hrun : m s with ⟨b | e | _ | _, s1⟩
      · rw [hrun] at hup
        show (match ((if b = go then k else pure b) s1).1 with
          | .ok b => b ≠ go
          | .throws e => H e
          | .diverges => False
          | .undefined => False)
        rw [if_neg hup]
        exact hup
      · rw [hrun] at hup
        exact hup
      · rw [hrun] at hup
        exact hup.elim
      · rw [hrun] at hup
        exact hup.elim
  stable_accepts s s1 hs h := ⟨hm.stable_accepts s s1 hs h.1, hk.stable_accepts s s1 hs h.2⟩
  stable_fails s s1 hs h :=
    h.imp (hm.stable_fails s s1 hs) fun h =>
      ⟨hm.stable_accepts s s1 hs h.1, hk.stable_fails s s1 hs h.2⟩

/-- A handler that throws what is handled for what is handled, and passes on
what escapes. -/
theorem tryCatch {h : ε → Exec σ ε β} (hm : Decides S go H E m A F)
    (hH : ∀ e s, H e → ∃ e1, (h e s).1 = .throws e1 ∧ H e1)
    (hE : ∀ e s, E e → ∃ e1, (h e s).1 = .throws e1 ∧ E e1) :
    Decides S go H E (Exec.tryCatch m h) A F where
  accepts s hA := by
    obtain ⟨s1, hrun, hs⟩ := hm.accepts s hA
    refine ⟨s1, ?_, hs⟩
    rw [tryCatch_run, hrun]
  fails s hF := by
    have hescapes := hm.fails s hF
    unfold Escapes at hescapes ⊢
    rw [tryCatch_run]
    rcases hrun : m s with ⟨b | e | _ | _, s1⟩
    · rw [hrun] at hescapes
      exact hescapes
    · rw [hrun] at hescapes
      obtain ⟨e1, heq, he1⟩ := hE e s1 hescapes
      show (match (h e s1).1 with
        | .ok _ => False
        | .throws e => E e
        | .diverges => True
        | .undefined => True)
      rw [heq]
      exact he1
    · trivial
    · trivial
  gives_up s hA hF := by
    have hup := hm.gives_up s hA hF
    unfold GivesUp at hup ⊢
    rw [tryCatch_run]
    rcases hrun : m s with ⟨b | e | _ | _, s1⟩
    · rw [hrun] at hup
      exact hup
    · rw [hrun] at hup
      obtain ⟨e1, heq, he1⟩ := hH e s1 hup
      show (match (h e s1).1 with
        | .ok b => b ≠ go
        | .throws e => H e
        | .diverges => False
        | .undefined => False)
      rw [heq]
      exact he1
    · rw [hrun] at hup
      exact hup.elim
    · rw [hrun] at hup
      exact hup.elim
  stable_accepts := hm.stable_accepts
  stable_fails := hm.stable_fails

end Decides

/-! ## Lists of steps -/

section Steps

variable {ι : Type} {accepted refused : ι → Prop}

/-- The first step that is not accepted is refused. -/
def Stops (accepted refused : ι → Prop) (steps : List ι) : Prop :=
  ∃ before step after, steps = before ++ step :: after ∧ (∀ i ∈ before, accepted i) ∧ refused step

@[simp] theorem stops_nil : ¬ Stops accepted refused [] := by
  rintro ⟨before, step, after, h, -⟩
  simp at h

@[simp] theorem stops_cons_iff {step : ι} {steps : List ι} :
    Stops accepted refused (step :: steps) ↔
      refused step ∨ accepted step ∧ Stops accepted refused steps := by
  constructor
  · rintro ⟨_ | ⟨i, before⟩, step1, after, h, hbefore, hrefused⟩
    · cases h
      exact .inl hrefused
    · cases h
      rw [List.forall_mem_cons] at hbefore
      exact .inr ⟨hbefore.1, before, step1, after, rfl, hbefore.2, hrefused⟩
  · rintro (hrefused | ⟨haccepted, before, step1, after, rfl, hbefore, hrefused⟩)
    · exact ⟨[], step, steps, rfl, by simp, hrefused⟩
    · exact ⟨step :: before, step1, after, rfl, List.forall_mem_cons.mpr ⟨haccepted, hbefore⟩,
        hrefused⟩

theorem stops_append_iff {steps steps1 : List ι} :
    Stops accepted refused (steps ++ steps1) ↔
      Stops accepted refused steps ∨ (∀ i ∈ steps, accepted i) ∧
        Stops accepted refused steps1 := by
  induction steps with
  | nil => simp
  | cons step steps ih =>
    rw [List.cons_append, stops_cons_iff, stops_cons_iff, ih, List.forall_mem_cons, or_assoc,
      and_assoc, ← and_or_left]

/-- The steps decide: when all are accepted it answers `go`, when the first that
is not accepted is refused it escapes. -/
abbrev DecidedBy (S : Setoid σ) (go : β) (H E : ε → Prop) (accepted refused : ι → Prop)
    (m : Exec σ ε β) (steps : σ → List ι) : Prop :=
  Decides S go H E m (fun s => ∀ i ∈ steps s, accepted i) fun s =>
    Stops accepted refused (steps s)

namespace DecidedBy

variable {S : Setoid σ} {go : β} {H E : ε → Prop} {m : Exec σ ε β} {steps : σ → List ι}

theorem nil : DecidedBy S go H E accepted refused (pure go) fun _ => [] :=
  Decides.pure_go.congr (fun s => by simp) fun s => by simp

/-- A step that is known to be accepted decides nothing. -/
theorem cons {step : ι} (haccepted : accepted step) (hrefused : ¬ refused step)
    (hm : DecidedBy S go H E accepted refused m steps) :
    DecidedBy S go H E accepted refused m fun s => step :: steps s :=
  hm.congr (fun s => by simp [haccepted]) fun s => by simp [haccepted, hrefused]

/-- A step that is neither accepted nor refused. -/
theorem of_givesUp {step : ι} {after : σ → List ι} (haccepted : ¬ accepted step)
    (hrefused : ¬ refused step) (h : ∀ s, GivesUp go H m s) :
    DecidedBy S go H E accepted refused m fun s => step :: after s :=
  (Decides.never h).congr (fun s => by simp [haccepted]) fun s => by simp [haccepted, hrefused]

theorem of_refused {step : ι} {after : σ → List ι} {e : ε} (haccepted : ¬ accepted step)
    (hrefused : refused step) (he : E e) :
    DecidedBy S go H E accepted refused (Exec.throw e) fun s => step :: after s :=
  (Decides.throw_escaping he).congr (fun s => by simp [haccepted]) fun s => by simp [hrefused]

theorem andThen [DecidableEq β] {k : Exec σ ε β} {steps1 : σ → List ι}
    (hm : DecidedBy S go H E accepted refused m steps)
    (hk : DecidedBy S go H E accepted refused k steps1) :
    DecidedBy S go H E accepted refused (m >>= fun b => if b = go then k else pure b)
      fun s => steps s ++ steps1 s :=
  (Decides.andThen hm hk).congr (fun _ => List.forall_mem_append.symm)
    fun _ => stops_append_iff.symm

/-- A computation on a part of the state.  The first step is to find the part. -/
theorem focus {τ : Type} {T : Setoid τ} {part : Exec τ ε β} {partSteps : τ → List ι}
    (hpart : DecidedBy T go H E accepted refused part partSteps) {find : σ → Option τ}
    {step : σ → ι}
    (hrun : ∀ s t, find s = some t → ∃ put : τ → σ, m s = ((part t).1, put (part t).2) ∧
      ∀ t1, T.r t t1 → S.r s (put t1))
    (hnone : ∀ s, find s = none → (refused (step s) → Escapes E m s) ∧
      (¬ refused (step s) → GivesUp go H m s))
    (haccepted : ∀ s, accepted (step s) ↔ (find s).isSome = true)
    (hrefused : ∀ s, refused (step s) → find s = none)
    (hshape : ∀ s s1 t, S.r s s1 → find s = some t → ∃ t1, find s1 = some t1 ∧ T.r t t1)
    (hshape_refused : ∀ s s1, S.r s s1 → refused (step s) → refused (step s1)) :
    DecidedBy S go H E accepted refused m fun s => step s :: (find s).elim [] partSteps where
  accepts s h := by
    rw [List.forall_mem_cons, haccepted] at h
    obtain ⟨t, ht⟩ := Option.isSome_iff_exists.mp h.1
    rw [ht] at h
    obtain ⟨put, hm, hput⟩ := hrun s t ht
    obtain ⟨t1, hpart1, hrel⟩ := hpart.accepts t h.2
    exact ⟨put t1, by rw [hm, hpart1], hput t1 hrel⟩
  fails s h := by
    rw [stops_cons_iff, haccepted] at h
    rcases h with hstep | ⟨hsome, hstops⟩
    · exact (hnone s (hrefused s hstep)).1 hstep
    · obtain ⟨t, ht⟩ := Option.isSome_iff_exists.mp hsome
      rw [ht] at hstops
      obtain ⟨put, hm, -⟩ := hrun s t ht
      have hescapes := hpart.fails t hstops
      unfold Escapes at hescapes ⊢
      rwa [hm]
  gives_up s hA hF := by
    rw [List.forall_mem_cons, haccepted] at hA
    rw [stops_cons_iff, haccepted, not_or] at hF
    cases ht : find s with
    | none => exact (hnone s ht).2 hF.1
    | some t =>
      rw [ht] at hA hF
      obtain ⟨put, hm, -⟩ := hrun s t ht
      have hup := hpart.gives_up t (fun h => hA ⟨rfl, h⟩) fun h => hF.2 ⟨rfl, h⟩
      unfold GivesUp at hup ⊢
      rwa [hm]
  stable_accepts s s1 hs h := by
    rw [List.forall_mem_cons, haccepted] at h ⊢
    obtain ⟨t, ht⟩ := Option.isSome_iff_exists.mp h.1
    obtain ⟨t1, ht1, hrel⟩ := hshape s s1 t hs ht
    rw [ht] at h
    rw [ht1]
    exact ⟨rfl, hpart.stable_accepts t t1 hrel h.2⟩
  stable_fails s s1 hs h := by
    rw [stops_cons_iff, haccepted] at h ⊢
    refine h.imp (hshape_refused s s1 hs) fun h => ?_
    obtain ⟨t, ht⟩ := Option.isSome_iff_exists.mp h.1
    obtain ⟨t1, ht1, hrel⟩ := hshape s s1 t hs ht
    rw [ht] at h
    rw [ht1]
    exact ⟨rfl, hpart.stable_fails t t1 hrel h.2⟩

end DecidedBy

end Steps

end CodeLib.Exec
