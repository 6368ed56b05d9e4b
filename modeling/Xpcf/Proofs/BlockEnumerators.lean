import Xpcf.Model.Enumerators

/-!
# Enumerating a block

A range-based `for` gives its body the elements from the start of the
enumerator on, as far as its size, wherever the enumerator was left
(`rangeFor_run`).  The size of a block is a sum of `uint32_t`; `BlockLaw` holds
where this sum is the sum, or the sequence ends before either.
-/

namespace Xpcf

variable {T : Type}

namespace Enumerator

variable {e : Enumerator T}

/-! ## What the loop visits -/

theorem current_of_lt (hindex : 0 ≤ e.index) (h : e.index.toNat < e.sequence.length) :
    e.current = .ok e.sequence[e.index.toNat] := by
  have hnot : ¬ e.index < 0 := by omega
  simp [current, hnot, h]

theorem visit_of_end (h : e.endReached = true) : e.visit = .ok ([], e) := by
  rw [visit, if_pos h]

theorem visit_of_current {value : T} (hend : e.endReached = false)
    (hcurrent : e.current = .ok value) {values : List T} {e1 : Enumerator T}
    (hrest : e.moveNext.2.visit = .ok (values, e1)) : e.visit = .ok (value :: values, e1) := by
  rw [visit, if_neg (by simp [hend]), hcurrent]
  simp only [hrest]

/-- The loop visits the elements from the index to the size. -/
theorem visit_eq {count : Nat} (hend : e.endReached = false) (hindex : 0 ≤ e.index)
    (hcount : e.computeSize = e.index + (count + 1))
    (hsize : e.computeSize ≤ e.sequence.length) :
    ∃ e1, e.visit = .ok ((e.sequence.drop e.index.toNat).take (count + 1), e1) := by
  have hinside : e.index.toNat < e.sequence.length := by omega
  have hcurrent := current_of_lt hindex hinside
  rw [List.drop_eq_getElem_cons hinside, List.take_succ_cons]
  induction count generalizing e with
  | zero =>
    -- the last element: the next move finds the end
    have hlast : ¬ e.index < e.computeSize - 1 := by omega
    refine ⟨{ e with endReached := true }, visit_of_current hend hcurrent ?_⟩
    rw [moveNext_of_ge hlast, List.take_zero]
    exact visit_of_end rfl
  | succ count ih =>
    have hmore : e.index < e.computeSize - 1 := by omega
    have hnext : (e.index + 1).toNat = e.index.toNat + 1 := by omega
    have hinside1 : (e.index + 1).toNat < e.sequence.length := by omega
    have hindex1 : 0 ≤ e.index + 1 := by omega
    have hcount1 : e.computeSize = e.index + 1 + (count + 1) := by
      rw [hcount]
      push_cast
      omega
    obtain ⟨e1, hvisit⟩ := ih (e := { e with index := e.index + 1 }) hend hindex1 hcount1 hsize
      hinside1 (current_of_lt hindex1 hinside1)
    refine ⟨e1, visit_of_current hend hcurrent ?_⟩
    rw [moveNext_of_lt hmore, hvisit, ← hnext, List.drop_eq_getElem_cons hinside1,
      List.take_succ_cons]

/-! ## Where a loop starts -/

/-- The index of the first element. -/
def first (e : Enumerator T) : Nat :=
  match e.kind with
  | .enumerator => 0
  | .blockEnumerator offset _ => offset.toNat

theorem reset_eq (e : Enumerator T) :
    e.reset = { e with endReached := false, index := (e.first : Int) - 1 } := by
  unfold reset first
  cases e.kind with
  | enumerator => rfl
  | blockEnumerator offset size => rfl

/-- Wherever the enumerator was left, a loop visits its elements. -/
theorem rangeFor_eq (hsize : e.computeSize ≤ e.sequence.length) :
    ∃ e1, e.rangeFor =
      .ok ((e.sequence.drop e.first).take (e.computeSize - e.first).toNat, e1) := by
  have hreset : e.reset.computeSize = e.computeSize := by rw [reset_eq]; rfl
  have hindex : e.reset.index = (e.first : Int) - 1 := by rw [reset_eq]
  unfold rangeFor
  by_cases hlt : (e.first : Int) < e.computeSize
  · obtain ⟨count, hcount⟩ : ∃ count : Nat, e.computeSize = e.first + (count + 1) :=
      ⟨(e.computeSize - e.first - 1).toNat, by omega⟩
    have hmove : e.reset.moveNext.2 = { e with endReached := false, index := e.first } := by
      rw [moveNext_of_lt (by omega), reset_eq]
      simp
    rw [hmove]
    have htake : (e.computeSize - e.first).toNat = count + 1 := by omega
    rw [htake]
    exact visit_eq (e := { e with endReached := false, index := e.first }) rfl
      (Int.natCast_nonneg _) hcount hsize
  · have htake : (e.computeSize - e.first).toNat = 0 := by omega
    rw [moveNext_of_ge (by omega), htake, List.take_zero]
    exact ⟨_, visit_of_end rfl⟩

/-! ## What calls leave as it is -/

theorem step_eq (e : Enumerator T) (call : EnumeratorCall) :
    (e.step call).kind = e.kind ∧ (e.step call).sequence = e.sequence := by
  cases call with
  | moveNext =>
    show e.moveNext.2.kind = e.kind ∧ e.moveNext.2.sequence = e.sequence
    unfold moveNext
    split
    · exact ⟨rfl, rfl⟩
    · exact ⟨rfl, rfl⟩
  | reset =>
    show e.reset.kind = e.kind ∧ e.reset.sequence = e.sequence
    rw [reset_eq]
    exact ⟨rfl, rfl⟩

theorem run_eq (e : Enumerator T) (calls : List EnumeratorCall) :
    (e.run calls).kind = e.kind ∧ (e.run calls).sequence = e.sequence := by
  unfold run
  induction calls generalizing e with
  | nil => exact ⟨rfl, rfl⟩
  | cons call calls ih =>
    obtain ⟨hkind, hsequence⟩ := ih (e.step call)
    exact ⟨hkind.trans (e.step_eq call).1, hsequence.trans (e.step_eq call).2⟩

/-- After any calls, a loop visits what it visits on the enumerator as it was made. -/
theorem rangeFor_run (hsize : e.computeSize ≤ e.sequence.length) (calls : List EnumeratorCall) :
    ∃ e1, (e.run calls).rangeFor =
      .ok ((e.sequence.drop e.first).take (e.computeSize - e.first).toNat, e1) := by
  obtain ⟨hkind, hsequence⟩ := e.run_eq calls
  have hcompute : (e.run calls).computeSize = e.computeSize := by
    unfold computeSize
    rw [hkind, hsequence]
  have hfirst : (e.run calls).first = e.first := by
    unfold first
    rw [hkind]
  rw [← hcompute, ← hfirst, ← hsequence]
  exact rangeFor_eq (by rw [hcompute, hsequence]; exact hsize)

/-- The enumerator of a whole sequence. -/
theorem rangeFor_whole (sequence : List T) (calls : List EnumeratorCall) :
    ∃ e1, ((new sequence).run calls).rangeFor = .ok (sequence, e1) := by
  obtain ⟨e1, hvisit⟩ := rangeFor_run (e := new sequence)
    (Int.le_refl _) calls
  refine ⟨e1, ?_⟩
  rw [hvisit]
  show Except.ok ((sequence.drop 0).take ((sequence.length : Int) - (0 : Nat)).toNat, e1) = _
  simp

end Enumerator

/-! ## Blocks -/

/-- `getEnumerator(offset, chunkSize)` throws for a block that the sequence does not hold,
and enumerates the elements of one that it holds, again after any calls. -/
structure BlockLaw (sequence : List T) (offset chunkSize : UInt32) : Prop where
  throws : (∃ what, Collection.getEnumerator sequence offset chunkSize =
      .error (.std .outOfRange what)) ↔
    offset.toNat + chunkSize.toNat > sequence.length
  visits : ∀ e, Collection.getEnumerator sequence offset chunkSize = .ok e →
    ∀ calls, ∃ e1, (e.run calls).rangeFor =
      .ok ((sequence.drop offset.toNat).take chunkSize.toNat, e1)

/-- The enumerator that the constructor makes. -/
theorem getEnumerator_of_le {sequence : List T} {offset chunkSize : UInt32}
    (h : (offset + chunkSize).toNat ≤ sequence.length) :
    Collection.getEnumerator sequence offset chunkSize =
      .ok ⟨.blockEnumerator offset (offset + chunkSize), sequence, offset.toNat - 1, false⟩ :=
  if_neg (Nat.not_lt.mpr h)

theorem getEnumerator_throws_iff {sequence : List T} {offset chunkSize : UInt32} :
    (∃ what, Collection.getEnumerator sequence offset chunkSize =
      .error (.std .outOfRange what)) ↔ sequence.length < (offset + chunkSize).toNat := by
  constructor
  · rintro ⟨what, h⟩
    by_contra hle
    rw [getEnumerator_of_le (Nat.not_lt.mp hle)] at h
    cases h
  · intro h
    exact ⟨_, if_pos h⟩

/-- What a loop visits on the block that was made. -/
theorem rangeFor_block {sequence : List T} {offset chunkSize : UInt32} {e : Enumerator T}
    (h : Collection.getEnumerator sequence offset chunkSize = .ok e)
    (calls : List EnumeratorCall) :
    ∃ e1, (e.run calls).rangeFor = .ok ((sequence.drop offset.toNat).take
      ((offset + chunkSize).toNat - offset.toNat), e1) := by
  have hle : (offset + chunkSize).toNat ≤ sequence.length := by
    by_contra hgt
    obtain ⟨what, hthrows⟩ := getEnumerator_throws_iff.mpr (Nat.not_le.mp hgt)
    rw [hthrows] at h
    cases h
  rw [getEnumerator_of_le hle] at h
  obtain rfl := Except.ok.inj h
  have htake : (((offset + chunkSize).toNat : Int) - offset.toNat).toNat =
      (offset + chunkSize).toNat - offset.toNat := by omega
  rw [← htake]
  exact Enumerator.rangeFor_run
    (e := ⟨.blockEnumerator offset (offset + chunkSize), sequence, offset.toNat - 1, false⟩)
    (Int.ofNat_le.mpr hle) calls

theorem blockLaw_of_sum {sequence : List T} {offset chunkSize : UInt32}
    (hsum : (offset + chunkSize).toNat = offset.toNat + chunkSize.toNat) :
    BlockLaw sequence offset chunkSize := by
  refine ⟨?_, ?_⟩
  · rw [getEnumerator_throws_iff, hsum]
  · intro e he calls
    obtain ⟨e1, hvisit⟩ := rangeFor_block he calls
    rw [hsum, Nat.add_sub_cancel_left] at hvisit
    exact ⟨e1, hvisit⟩

/-- Neither the wrapped sum nor the sum is within the sequence. -/
theorem blockLaw_of_throws {sequence : List T} {offset chunkSize : UInt32}
    (hwrapped : sequence.length < (offset + chunkSize).toNat)
    (hsum : sequence.length < offset.toNat + chunkSize.toNat) :
    BlockLaw sequence offset chunkSize := by
  have hthrows := getEnumerator_throws_iff.mpr hwrapped
  refine ⟨iff_of_true hthrows hsum, ?_⟩
  intro e he
  obtain ⟨what, herror⟩ := hthrows
  rw [herror] at he
  cases he

/-- The wrapped sum is within the sequence: the block is accepted and has no element. -/
theorem not_blockLaw_of_wrapped {sequence : List T} {offset chunkSize : UInt32}
    (hwrapped : (offset + chunkSize).toNat ≤ sequence.length)
    (hbelow : (offset + chunkSize).toNat ≤ offset.toNat) (hchunk : 0 < chunkSize.toNat) :
    ¬ BlockLaw sequence offset chunkSize := by
  intro h
  have haccepted := getEnumerator_of_le hwrapped
  by_cases hinside : offset.toNat + chunkSize.toNat > sequence.length
  · obtain ⟨what, hthrows⟩ := h.throws.mpr hinside
    rw [haccepted] at hthrows
    cases hthrows
  · obtain ⟨e1, hlaw⟩ := h.visits _ haccepted []
    obtain ⟨e2, hvisit⟩ := rangeFor_block haccepted []
    rw [Nat.sub_eq_zero_of_le hbelow, List.take_zero] at hvisit
    rw [hvisit] at hlaw
    have hnil : ((sequence.drop offset.toNat).take chunkSize.toNat).length = 0 :=
      congrArg List.length (Prod.mk.inj (Except.ok.inj hlaw)).1.symm
    rw [List.length_take, List.length_drop] at hnil
    omega

/-- The law holds where the sum does not wrap, or the wrapped one is beyond the sequence
as well. -/
theorem blockLaw_iff (sequence : List T) (offset chunkSize : UInt32) :
    BlockLaw sequence offset chunkSize ↔
      offset.toNat + chunkSize.toNat < 2 ^ 32 ∨
        sequence.length + 2 ^ 32 < offset.toNat + chunkSize.toNat := by
  have hoffset : offset.toNat < 2 ^ 32 := offset.toNat_lt
  have hchunk : chunkSize.toNat < 2 ^ 32 := chunkSize.toNat_lt
  have hsum : (offset + chunkSize).toNat = (offset.toNat + chunkSize.toNat) % 2 ^ 32 :=
    UInt32.toNat_add offset chunkSize
  by_cases hfits : offset.toNat + chunkSize.toNat < 2 ^ 32
  · rw [Nat.mod_eq_of_lt hfits] at hsum
    exact iff_of_true (blockLaw_of_sum hsum) (.inl hfits)
  · have hwrap : (offset + chunkSize).toNat + 2 ^ 32 = offset.toNat + chunkSize.toNat := by omega
    by_cases hbeyond : sequence.length + 2 ^ 32 < offset.toNat + chunkSize.toNat
    · exact iff_of_true (blockLaw_of_throws (by omega) (by omega)) (.inr hbeyond)
    · refine iff_of_false (not_blockLaw_of_wrapped (by omega) (by omega) (by omega)) ?_
      rintro (h | h)
      · exact hfits h
      · exact hbeyond h

/-- `getEnumerator(4294967295, 2)` on five elements does not throw, and its loop visits
none. -/
theorem block_sum_wraps :
    ∃ e, Collection.getEnumerator [10, 11, 12, 13, 14] 4294967295 2 = .ok e ∧
      (∃ e1, e.rangeFor = .ok ([], e1)) ∧
      ¬ BlockLaw [10, 11, 12, 13, 14] 4294967295 2 := by
  refine ⟨_, rfl, ⟨_, Enumerator.visit_of_end (by decide)⟩, ?_⟩
  exact not_blockLaw_of_wrapped (by decide) (by decide) (by decide)

end Xpcf
