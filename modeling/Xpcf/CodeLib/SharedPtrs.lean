import Mathlib.Data.Finset.Card
import Mathlib.Data.Finset.Range

/-!
# Shared pointers

The shared pointers to one object.  Each control block counts the pointers that
share it, and is destroyed with the last of them; its number is never used again.

* `SharedPtrs`: the use counts and the live pointers, which agree;
* `make`, `copy`, `destroy`: a new control block, one more pointer, one pointer
  less;
* `liveBlocks`: the control blocks not yet destroyed, and what each operation
  makes of them.
-/

namespace CodeLib

/-- `refs` holds the control block of each live pointer. -/
structure SharedPtrs where
  useCount : Nat → Nat
  /-- The number of the next control block. -/
  next : Nat
  refs : List Nat
  counts : ∀ b, useCount b = refs.count b
  fresh : ∀ b ∈ refs, b < next

namespace SharedPtrs

/-- No pointer has been made. -/
def empty : SharedPtrs where
  useCount := fun _ => 0
  next := 0
  refs := []
  counts := fun _ => rfl
  fresh := nofun

variable (p : SharedPtrs) {b : Nat}

/-- A pointer with a control block of its own. -/
def make : SharedPtrs where
  useCount := Function.update p.useCount p.next 1
  next := p.next + 1
  refs := p.next :: p.refs
  counts := by
    intro b
    rw [Function.update_apply, List.count_cons, p.counts b]
    by_cases hb : b = p.next
    · have hcount : p.refs.count p.next = 0 :=
        List.count_eq_zero.mpr fun hmem => Nat.lt_irrefl _ (p.fresh _ hmem)
      simp [hb, hcount]
    · simp [hb, Ne.symm hb]
  fresh := by
    intro b hmem
    rcases List.mem_cons.mp hmem with rfl | hmem
    · omega
    · have hlt := p.fresh b hmem
      omega

/-- One more pointer that shares the block `b`. -/
def copy (h : b ∈ p.refs) : SharedPtrs where
  useCount := Function.update p.useCount b (p.useCount b + 1)
  next := p.next
  refs := b :: p.refs
  counts := by
    intro b1
    rw [Function.update_apply, List.count_cons, p.counts b1]
    by_cases hb : b1 = b
    · simp [hb, p.counts]
    · simp [hb, Ne.symm hb]
  fresh := by
    intro b1 hmem
    rcases List.mem_cons.mp hmem with rfl | hmem
    · exact p.fresh _ h
    · exact p.fresh b1 hmem

/-- A pointer that shares the block `b` is destroyed. -/
def destroy (b : Nat) : SharedPtrs where
  useCount := Function.update p.useCount b (p.useCount b - 1)
  next := p.next
  refs := p.refs.erase b
  counts := by
    intro b1
    rw [Function.update_apply, List.count_erase, p.counts b1]
    by_cases hb : b1 = b
    · simp [hb, p.counts]
    · simp [hb, Ne.symm hb]
  fresh := fun b1 hmem => p.fresh b1 (List.mem_of_mem_erase hmem)

/-- A copy that is destroyed again. -/
theorem destroy_copy (h : b ∈ p.refs) : (p.copy h).destroy b = p := by
  cases p with
  | mk useCount next refs counts fresh =>
    simp [copy, destroy]

/-! ## The live control blocks -/

def liveBlocks : Finset Nat :=
  (Finset.range p.next).filter fun b => 0 < p.useCount b

/-- A block lives as long as a pointer shares it. -/
theorem mem_liveBlocks : b ∈ p.liveBlocks ↔ b ∈ p.refs := by
  rw [liveBlocks, Finset.mem_filter, Finset.mem_range, p.counts, List.count_pos_iff]
  exact ⟨fun h => h.2, fun h => ⟨p.fresh b h, h⟩⟩

/-- The number of live control blocks. -/
def live : Nat := p.liveBlocks.card

theorem live_eq_zero : p.live = 0 ↔ p.refs = [] := by
  rw [live, Finset.card_eq_zero, List.eq_nil_iff_forall_not_mem, Finset.eq_empty_iff_forall_notMem]
  simp only [mem_liveBlocks]

theorem live_make : p.make.live = p.live + 1 := by
  have hnew : p.next ∉ p.liveBlocks := fun h =>
    Nat.lt_irrefl _ (p.fresh _ (p.mem_liveBlocks.mp h))
  have hblocks : p.make.liveBlocks = insert p.next p.liveBlocks := by
    ext b
    rw [mem_liveBlocks, Finset.mem_insert, mem_liveBlocks]
    exact List.mem_cons
  rw [live, hblocks, Finset.card_insert_of_notMem hnew, live]

theorem live_copy (h : b ∈ p.refs) : (p.copy h).live = p.live := by
  have hblocks : (p.copy h).liveBlocks = p.liveBlocks := by
    ext b1
    rw [mem_liveBlocks, mem_liveBlocks]
    exact ⟨fun hmem => (List.mem_cons.mp hmem).elim (fun heq => heq ▸ h) id,
      List.mem_cons_of_mem b⟩
  rw [live, hblocks, live]

/-- The last pointer of a block takes it along. -/
theorem live_destroy_last (h : p.useCount b = 1) : (p.destroy b).live + 1 = p.live := by
  rw [p.counts] at h
  have hmem : b ∈ p.liveBlocks := p.mem_liveBlocks.mpr (List.count_pos_iff.mp (by omega))
  have hblocks : (p.destroy b).liveBlocks = p.liveBlocks.erase b := by
    ext b1
    rw [mem_liveBlocks, Finset.mem_erase, mem_liveBlocks]
    show b1 ∈ p.refs.erase b ↔ _
    by_cases hb : b1 = b
    · have hnone : b ∉ p.refs.erase b := by
        rw [← List.count_eq_zero, List.count_erase_self]
        omega
      simp [hb, hnone]
    · simp [hb, List.mem_erase_of_ne hb]
  rw [live, hblocks, live]
  exact Finset.card_erase_add_one hmem

theorem live_destroy_shared (h : p.useCount b ≠ 1) : (p.destroy b).live = p.live := by
  rw [p.counts] at h
  have hblocks : (p.destroy b).liveBlocks = p.liveBlocks := by
    ext b1
    rw [mem_liveBlocks, mem_liveBlocks]
    show b1 ∈ p.refs.erase b ↔ _
    by_cases hb : b1 = b
    · rw [hb, ← List.count_pos_iff, ← List.count_pos_iff, List.count_erase_self]
      omega
    · rw [List.mem_erase_of_ne hb]
  rw [live, hblocks, live]

end SharedPtrs

end CodeLib
