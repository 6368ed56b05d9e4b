import Mathlib.Algebra.Order.Ring.Int
import Mathlib.Order.Lattice

/-!
# Integer types of a fixed width

An integer type has a number of bits and is signed or not.  A conversion into it
keeps the value modulo two to the width, so it is undone by the conversion back
exactly when no bit was dropped.
-/

namespace CodeLib

structure IntegerType where
  width : Nat
  signed : Bool
  deriving DecidableEq

namespace IntegerType

/-- The value of the type that a number is converted to. -/
def wrap (t : IntegerType) (n : Int) : Int :=
  if t.signed then n.bmod (2 ^ t.width) else n % (2 ^ t.width : Nat)

/-- The number is a value of the type. -/
def Holds (t : IntegerType) (n : Int) : Prop := t.wrap n = n

instance (t : IntegerType) (n : Int) : Decidable (t.Holds n) :=
  inferInstanceAs (Decidable (t.wrap n = n))

theorem wrap_emod (t : IntegerType) (n : Int) :
    t.wrap n % (2 ^ t.width : Nat) = n % (2 ^ t.width : Nat) := by
  unfold wrap
  split
  · exact Int.bmod_emod
  · exact Int.emod_emod_of_dvd n (Int.dvd_refl _)

/-- Only the bits of the type count. -/
theorem wrap_eq_of_emod {t : IntegerType} {n m : Int}
    (h : n % (2 ^ t.width : Nat) = m % (2 ^ t.width : Nat)) : t.wrap n = t.wrap m := by
  unfold wrap
  split
  · rw [← Int.emod_bmod n, h, Int.emod_bmod]
  · exact h

theorem holds_wrap (t : IntegerType) (n : Int) : t.Holds (t.wrap n) :=
  wrap_eq_of_emod (t.wrap_emod n)

/-- A conversion through a type that is at least as wide changes nothing. -/
theorem wrap_wrap {t r : IntegerType} (h : t.width ≤ r.width) (n : Int) :
    t.wrap (r.wrap n) = t.wrap n := by
  apply wrap_eq_of_emod
  have hdvd : ((2 ^ t.width : Nat) : Int) ∣ (2 ^ r.width : Nat) :=
    Int.natCast_dvd_natCast.mpr (Nat.pow_dvd_pow 2 h)
  rw [← Int.emod_emod_of_dvd (r.wrap n) hdvd, r.wrap_emod, Int.emod_emod_of_dvd n hdvd]

@[simp] theorem wrap_zero (t : IntegerType) : t.wrap 0 = 0 := by
  unfold wrap
  split
  · exact Int.zero_bmod
  · exact Int.zero_emod _

/-- A multiple of two to the width of `r` is zero in `r`. -/
theorem wrap_of_dvd {r : IntegerType} {n : Int} (h : ((2 ^ r.width : Nat) : Int) ∣ n) :
    r.wrap n = 0 := by
  rw [← r.wrap_zero]
  apply wrap_eq_of_emod
  rw [Int.emod_eq_zero_of_dvd h, Int.zero_emod]

/-- A type that is wider than `r` has a value that `r` takes for zero. -/
theorem exists_lost {t r : IntegerType} (h : r.width < t.width) :
    ∃ n, t.Holds n ∧ n ≠ 0 ∧ r.wrap n = 0 := by
  have hpow : 2 ^ r.width * 2 ≤ 2 ^ t.width := by
    rw [← Nat.pow_succ]
    exact Nat.pow_le_pow_right (by omega) h
  have hpos : 0 < 2 ^ r.width := Nat.two_pow_pos _
  unfold Holds
  cases hsigned : t.signed with
  | true =>
    refine ⟨-((2 ^ r.width : Nat) : Int), ?_, by omega, wrap_of_dvd (Int.dvd_neg.mpr dvd_rfl)⟩
    unfold wrap
    rw [if_pos hsigned]
    exact Int.bmod_eq_of_le (by omega) (by omega)
  | false =>
    refine ⟨((2 ^ r.width : Nat) : Int), ?_, by omega, wrap_of_dvd dvd_rfl⟩
    unfold wrap
    rw [if_neg (by rw [hsigned]; exact Bool.false_ne_true)]
    exact Int.emod_eq_of_lt (by omega) (by omega)

/-- A conversion is undone on every value of the type exactly when the other type is
at least as wide. -/
theorem wrap_wrap_iff {t r : IntegerType} :
    (∀ n, t.Holds n → t.wrap (r.wrap n) = n) ↔ t.width ≤ r.width := by
  constructor
  · intro h
    by_contra hnot
    obtain ⟨n, hn, hne, hlost⟩ := exists_lost (Nat.lt_of_not_le hnot)
    have hback := h n hn
    rw [hlost, wrap_zero] at hback
    exact hne hback.symm
  · intro hwidth n hn
    rw [wrap_wrap hwidth]
    exact hn

end IntegerType

end CodeLib
