import Mathlib.Data.Fintype.Order
import Mathlib.Order.WellFounded

/-!
# Acyclic relations on a finite type

A recursion that follows an acyclic relation ends.  `acyclic_bound` gives one
bound for all the places it may start from.
-/

namespace CodeLib

variable {α : Type}

/-- No element reaches itself. -/
def Acyclic (r : α → α → Prop) : Prop := ∀ a, ¬ Relation.TransGen r a a

/-- A number that decreases along the relation. -/
theorem Acyclic.of_rank {r : α → α → Prop} (rank : α → Nat)
    (h : ∀ a b, r a b → rank b < rank a) : Acyclic r := by
  have key : ∀ a b, Relation.TransGen r a b → rank b < rank a := by
    intro a b hab
    induction hab with
    | single hstep => exact h _ _ hstep
    | tail _ hstep ih => exact Nat.lt_trans (h _ _ hstep) ih
  intro a ha
  exact Nat.lt_irrefl _ (key a a ha)

theorem Acyclic.wellFounded [Finite α] {r : α → α → Prop} (h : Acyclic r) :
    WellFounded fun b a => Relation.TransGen r a b := by
  have htrans : IsTrans α fun b a => Relation.TransGen r a b := ⟨fun _ _ _ hab hbc => hbc.trans hab⟩
  have hirrefl : Std.Irrefl fun b a => Relation.TransGen r a b := ⟨h⟩
  exact Finite.wellFounded_of_trans_of_irrefl _

/-- What holds at a bound one higher than for all successors, holds everywhere
at some bound. -/
theorem Acyclic.bound [Finite α] {r : α → α → Prop} (h : Acyclic r) {P : Nat → α → Prop}
    (hmono : ∀ {n k a}, n ≤ k → P n a → P k a)
    (hstep : ∀ n a, (∀ b, r a b → P n b) → P (n + 1) a) : ∃ n, ∀ a, P n a := by
  have heach : ∀ a, ∃ n, P n a := by
    intro a
    induction a using h.wellFounded.induction with
    | _ a ih =>
      have hsucc : ∀ b, ∃ n, r a b → P n b := by
        intro b
        by_cases hab : r a b
        · obtain ⟨n, hn⟩ := ih b (.single hab)
          exact ⟨n, fun _ => hn⟩
        · exact ⟨0, fun hcontra => absurd hcontra hab⟩
      choose bound hbound using hsucc
      obtain ⟨n, hn⟩ := Finite.exists_le bound
      exact ⟨n + 1, hstep n a fun b hab => hmono (hn b) (hbound b hab)⟩
  choose bound hbound using heach
  obtain ⟨n, hn⟩ := Finite.exists_le bound
  exact ⟨n, fun a => hmono (hn a) (hbound a)⟩

end CodeLib
