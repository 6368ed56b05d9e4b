import Mathlib.Logic.Relation

/-!
# Systems that run step by step

A system is a partial step function, under actions that somebody else chooses.

* `Runs`: the runs whose steps are allowed;
* `Runs.invariant`: what every allowed step preserves, a run preserves;
* `forall_splits_cons`, `exists_split_cons`: what holds at each action, or at some action,
  of a list after those before it.
-/

namespace CodeLib

variable {σ α : Type} {step : σ → α → Option σ} {allowed : σ → α → Prop} {s s1 : σ}

/-- Some run goes from one state to the other by allowed steps. -/
def Runs (step : σ → α → Option σ) (allowed : σ → α → Prop) : σ → σ → Prop :=
  Relation.ReflTransGen fun s s1 => ∃ a, allowed s a ∧ step s a = some s1

theorem Runs.invariant {P : σ → Prop}
    (hstep : ∀ {s a s1}, P s → allowed s a → step s a = some s1 → P s1)
    (h : Runs step allowed s s1) (hs : P s) : P s1 := by
  induction h with
  | refl => exact hs
  | tail _ hlast ih =>
    obtain ⟨a, hallowed, hlast⟩ := hlast
    exact hstep ih hallowed hlast

/-- An invariant of the run may be used to show that its steps are allowed. -/
theorem Runs.weaken {allowed1 : σ → α → Prop} {P : σ → Prop}
    (hstep : ∀ {s a s1}, P s → allowed s a → step s a = some s1 → P s1 ∧ allowed1 s a)
    (h : Runs step allowed s s1) (hs : P s) : Runs step allowed1 s s1 := by
  suffices key : P s1 ∧ Runs step allowed1 s s1 from key.2
  induction h with
  | refl => exact ⟨hs, .refl⟩
  | tail _ hlast ih =>
    obtain ⟨a, hallowed, hlast⟩ := hlast
    obtain ⟨hP, hallowed1⟩ := hstep ih.1 hallowed hlast
    exact ⟨hP, ih.2.tail ⟨a, hallowed1, hlast⟩⟩

/-- The state after a list of actions, each of them allowed. -/
def runs (step : σ → α → Option σ) (allowed : σ → α → Bool) (s : σ) (actions : List α) :
    Option σ :=
  actions.foldlM (fun s a => if allowed s a then step s a else none) s

theorem Runs.of_runs {allowed : σ → α → Bool} {actions : List α}
    (h : runs step allowed s actions = some s1) :
    Runs step (fun s a => allowed s a = true) s s1 := by
  induction actions generalizing s with
  | nil =>
    cases h
    exact .refl
  | cons a rest ih =>
    obtain ⟨s2, hstep, hrest⟩ := Option.bind_eq_some_iff.mp h
    obtain ⟨hallowed, hstep⟩ := Option.ite_none_right_eq_some.mp hstep
    exact .head ⟨a, hallowed, hstep⟩ (ih hrest)

/-! ## Each action of a list -/

theorem forall_splits_nil {P : List α → α → Prop} :
    ∀ before a after, [] = before ++ a :: after → P before a := by
  intro before a after h
  cases before <;> cases h

/-- The first action, and the others with the first one before them. -/
theorem forall_splits_cons {P : List α → α → Prop} {a : α} {actions : List α} :
    (∀ before b after, a :: actions = before ++ b :: after → P before b) ↔
      P [] a ∧ ∀ before b after, actions = before ++ b :: after → P (a :: before) b := by
  constructor
  · intro h
    refine ⟨h [] a actions rfl, fun before b after hsplit => ?_⟩
    exact h (a :: before) b after (by rw [hsplit, List.cons_append])
  · rintro ⟨hfirst, hothers⟩ before b after hsplit
    cases before with
    | nil =>
      cases hsplit
      exact hfirst
    | cons c before =>
      cases hsplit
      exact hothers before b after rfl

theorem not_exists_split_nil {P : List α → α → Prop} :
    ¬ ∃ before a after, [] = before ++ a :: after ∧ P before a := by
  rintro ⟨before, a, after, h, -⟩
  cases before <;> cases h

theorem exists_split_cons {P : List α → α → Prop} {a : α} {actions : List α} :
    (∃ before b after, a :: actions = before ++ b :: after ∧ P before b) ↔
      P [] a ∨ ∃ before b after, actions = before ++ b :: after ∧ P (a :: before) b := by
  constructor
  · rintro ⟨before, b, after, hsplit, h⟩
    cases before with
    | nil =>
      cases hsplit
      exact Or.inl h
    | cons c before =>
      cases hsplit
      exact Or.inr ⟨before, b, after, rfl, h⟩
  · rintro (h | ⟨before, b, after, rfl, h⟩)
    · exact ⟨[], a, actions, rfl, h⟩
    · exact ⟨a :: before, b, after, rfl, h⟩

end CodeLib
