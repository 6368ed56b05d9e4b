import Xpcf.CodeLib.Exec

/-!
# What a run lists

A computation `m : Exec σ ε α` says how a run ends.  A list that is read off the
same run, such as the calls it made, is a function `σ → List τ` beside it, built
from the parts of the computation: what the first part lists, and then, when it
returned, what the second part lists from the state it left.

* `listThen`, `forEachList`: the list of a sequence and of a loop;
* `ListFrame`: a relation between the states before and after and the list in
  between, which composes;
* `Lists`: every run of the computation is in the relation.
-/

namespace CodeLib.Exec

variable {σ ε α β τ : Type}

/-- What is listed after the first part, which has to return. -/
def listThen (m : Exec σ ε α) (k : α → σ → List τ) (s : σ) : List τ :=
  match m s with
  | (.ok a, s1) => k a s1
  | (.throws _, _) | (.diverges, _) | (.undefined, _) => []

/-- What a loop lists. -/
def forEachList (f : α → Exec σ ε Unit) (t : α → σ → List τ) : List α → σ → List τ
  | [], _ => []
  | a :: as, s => t a s ++ listThen (f a) (fun _ => forEachList f t as) s

theorem listThen_of_ok {m : Exec σ ε α} {k : α → σ → List τ} {s s1 : σ} {a : α}
    (h : m s = (.ok a, s1)) : listThen m k s = k a s1 := by
  unfold listThen
  rw [h]

/-- A relation between the states before and after a run and what it lists. -/
structure ListFrame (σ τ : Type) where
  pre : σ → Prop
  rel : σ → List τ → σ → Prop
  refl : ∀ s, rel s [] s
  trans : ∀ {a b c l l1}, rel a l b → rel b l1 c → rel a (l ++ l1) c
  stable : ∀ {a l b}, pre a → rel a l b → pre b

/-- Whatever the outcome, the run and what it lists are in the relation. -/
def Lists (F : ListFrame σ τ) (m : Exec σ ε α) (t : σ → List τ) : Prop :=
  ∀ s, F.pre s → F.rel s (t s) (m s).2

namespace Lists

variable {F : ListFrame σ τ}

/-- A computation that stays in a frame, and lists nothing. -/
theorem of_keeps {G : Frame σ} {m : Exec σ ε α} (hm : Keeps G m)
    (h : ∀ s s1, F.pre s → G.pre s ∧ (G.rel s s1 → F.rel s [] s1)) : Lists F m fun _ => [] :=
  fun s hs => (h s _ hs).2 (hm s (h s s hs).1)

theorem pure (a : α) : Lists F (Pure.pure a : Exec σ ε α) fun _ => [] := fun s _ => F.refl s

theorem ofExcept (x : Except ε α) : Lists F (Exec.ofExcept x : Exec σ ε α) fun _ => [] := by
  cases x with
  | ok a => exact Lists.pure a
  | error e => exact fun s _ => F.refl s

/-- The second part only runs on what the first one returns, in the state it
leaves. -/
theorem bind_of {m : Exec σ ε α} {f : α → Exec σ ε β} {t : σ → List τ} {t1 : α → σ → List τ}
    (hm : Lists F m t)
    (hf : ∀ s a s1, F.pre s → m s = (.ok a, s1) → Lists F (f a) (t1 a)) :
    Lists F (m >>= f) fun s => t s ++ listThen m t1 s := by
  intro s hs
  have h1 := hm s hs
  show F.rel s (t s ++ listThen m t1 s) ((m >>= f) s).2
  rw [bind_run]
  unfold listThen
  rcases hr : m s with ⟨a | e | _ | _, s1⟩
  · rw [hr] at h1
    exact F.trans h1 (hf s a s1 hs hr s1 (F.stable hs h1))
  · rw [hr] at h1
    exact (List.append_nil _).symm ▸ h1
  · rw [hr] at h1
    exact (List.append_nil _).symm ▸ h1
  · rw [hr] at h1
    exact (List.append_nil _).symm ▸ h1

theorem bind {m : Exec σ ε α} {f : α → Exec σ ε β} {t : σ → List τ} {t1 : α → σ → List τ}
    (hm : Lists F m t) (hf : ∀ a, Lists F (f a) (t1 a)) :
    Lists F (m >>= f) fun s => t s ++ listThen m t1 s :=
  bind_of hm fun _ a _ _ _ => hf a

/-- A first part that lists nothing. -/
theorem bind_nil {m : Exec σ ε α} {f : α → Exec σ ε β} {t1 : α → σ → List τ}
    (hm : Lists F m fun _ => [])
    (hf : ∀ s a s1, F.pre s → m s = (.ok a, s1) → Lists F (f a) (t1 a)) :
    Lists F (m >>= f) (listThen m t1) := bind_of hm hf

/-- A second part that lists nothing. -/
theorem nil_bind {m : Exec σ ε α} {f : α → Exec σ ε β} {t : σ → List τ} (hm : Lists F m t)
    (hf : ∀ a, Lists F (f a) fun _ => []) : Lists F (m >>= f) t := by
  intro s hs
  have h1 : F.rel s (t s ++ listThen m (fun _ _ => []) s) ((m >>= f) s).2 := bind hm hf s hs
  have hnil : listThen m (fun _ _ => ([] : List τ)) s = [] := by
    unfold listThen
    rcases m s with ⟨a | e | _ | _, s1⟩ <;> rfl
  rw [hnil, List.append_nil] at h1
  exact h1

/-- A handler that lists nothing. -/
theorem tryCatch {m : Exec σ ε α} {h : ε → Exec σ ε α} {t : σ → List τ} (hm : Lists F m t)
    (hh : ∀ e, Lists F (h e) fun _ => []) : Lists F (Exec.tryCatch m h) t := by
  intro s hs
  have h1 := hm s hs
  rw [tryCatch_run]
  rcases hr : m s with ⟨a | e | _ | _, s1⟩
  · rw [hr] at h1
    exact h1
  · rw [hr] at h1
    have h2 := F.trans h1 (hh e s1 (F.stable hs h1))
    rw [List.append_nil] at h2
    exact h2
  · rw [hr] at h1
    exact h1
  · rw [hr] at h1
    exact h1

theorem forEach {f : α → Exec σ ε Unit} {t : α → σ → List τ} {l : List α}
    (hf : ∀ a ∈ l, Lists F (f a) (t a)) : Lists F (Exec.forEach f l) (forEachList f t l) := by
  induction l with
  | nil => exact Lists.pure ()
  | cons a l ih =>
    exact bind (hf a List.mem_cons_self) fun _ => ih fun b hb => hf b (List.mem_cons_of_mem a hb)

end Lists

end CodeLib.Exec
