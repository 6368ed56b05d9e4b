import Mathlib.Data.List.Infix

/-!
# The first match of a pattern

`splitAtFirst pattern l` is what a scanner does that steps through `l` until the
pattern begins at its position: what it passed over and what stands behind the
pattern.

A match could overlap what was passed over.  The patterns here are *ended*: the
last element occurs nowhere else in them, as the `>` of `-->`.  Then the first
match is the only decomposition whose first part does not hold the pattern
(`splitAtFirst_append`, `of_splitAtFirst`).
-/

namespace CodeLib

variable {α : Type}

def splitAtFirst [DecidableEq α] (pattern : List α) : List α → Option (List α × List α)
  | [] => none
  | a :: l =>
    if pattern <+: a :: l then some ([], (a :: l).drop pattern.length)
    else (splitAtFirst pattern l).map fun parts => (a :: parts.1, parts.2)

/-- The last element of the pattern stands nowhere else in it. -/
def Ended (pattern : List α) : Prop := ∃ init last, pattern = init ++ [last] ∧ last ∉ init

theorem ended_singleton (a : α) : Ended [a] := ⟨[], a, rfl, List.not_mem_nil⟩

theorem Ended.ne_nil {pattern : List α} (h : Ended pattern) : pattern ≠ [] := by
  obtain ⟨init, last, rfl, _⟩ := h
  simp

/-- An ended pattern that begins inside `before`, followed by the pattern, lies
inside `before` as a whole. -/
theorem Ended.prefix_of_prefix_append {pattern before rest : List α} (h : Ended pattern)
    (hne : before ≠ []) (hmatch : pattern <+: before ++ (pattern ++ rest)) :
    pattern <+: before := by
  obtain ⟨init, last, rfl, hlast⟩ := h
  obtain ⟨tail, htail⟩ := hmatch
  rcases List.append_eq_append_iff.mp htail.symm with ⟨gap, hgap, hrest⟩ | ⟨gap, rfl, _⟩
  · -- `gap` is the part of the pattern behind `before`; its last element is also in front
    rcases List.eq_nil_or_concat gap with rfl | ⟨gap, x, rfl⟩
    · rw [List.append_nil] at hgap
      rw [hgap]
    · exfalso
      rw [List.concat_eq_append, ← List.append_assoc] at hgap
      obtain ⟨hinit, hx⟩ := List.append_inj' hgap rfl
      have hshort : (gap ++ [x]).length ≤ init.length := by
        have hlength := congrArg List.length hinit
        have hpos := List.length_pos_iff.mpr hne
        simp only [List.length_append, List.length_singleton] at hlength ⊢
        omega
      have hfront : gap ++ [x] <+: init ++ ([last] ++ rest) := by
        rw [← List.append_assoc, hrest, List.concat_eq_append]
        exact List.prefix_append _ _
      have hmem : x ∈ init :=
        (List.prefix_of_prefix_length_le hfront (List.prefix_append _ _) hshort).subset (by simp)
      rw [← List.singleton_inj.mp hx] at hmem
      exact hlast hmem
  · exact List.prefix_append _ _

variable [DecidableEq α]

/-- The scanner stops behind the first part of a decomposition. -/
theorem splitAtFirst_append {pattern before rest : List α} (h : Ended pattern)
    (hbefore : ¬ pattern <:+: before) :
    splitAtFirst pattern (before ++ (pattern ++ rest)) = some (before, rest) := by
  induction before with
  | nil =>
    obtain ⟨a, l, hpattern⟩ := List.exists_cons_of_ne_nil h.ne_nil
    rw [List.nil_append, hpattern, List.cons_append, splitAtFirst, ← List.cons_append, ← hpattern,
      if_pos (List.prefix_append _ _), List.drop_left]
  | cons a before ih =>
    have hrest : ¬ pattern <:+: before := fun hin =>
      hbefore (hin.trans (List.suffix_cons _ _).isInfix)
    have hnot : ¬ pattern <+: a :: before ++ (pattern ++ rest) := fun hmatch =>
      hbefore (h.prefix_of_prefix_append (List.cons_ne_nil _ _) hmatch).isInfix
    rw [List.cons_append] at hnot ⊢
    rw [splitAtFirst, if_neg hnot, ih hrest]
    rfl

theorem of_splitAtFirst {pattern l before rest : List α} (hne : pattern ≠ [])
    (h : splitAtFirst pattern l = some (before, rest)) :
    l = before ++ (pattern ++ rest) ∧ ¬ pattern <:+: before := by
  induction l generalizing before with
  | nil => cases h
  | cons a l ih =>
    rw [splitAtFirst] at h
    split at h
    · rename_i hmatch
      cases h
      refine ⟨?_, fun hin => hne (List.infix_nil.mp hin)⟩
      rw [List.nil_append]
      exact (List.prefix_iff_eq_append.mp hmatch).symm
    · rename_i hmatch
      obtain ⟨⟨before1, rest1⟩, hsplit, heq⟩ := Option.map_eq_some_iff.mp h
      cases heq
      obtain ⟨rfl, hbefore⟩ := ih hsplit
      refine ⟨rfl, fun hin => ?_⟩
      rcases List.infix_cons_iff.mp hin with hfront | hback
      · exact hmatch (hfront.trans (List.prefix_append (a :: before1) _))
      · exact hbefore hback

/-- For a pattern of one element: the first part does not hold the element. -/
theorem splitAtFirst_singleton_append {a : α} {before : List α} (h : a ∉ before)
    (rest : List α) : splitAtFirst [a] (before ++ a :: rest) = some (before, rest) :=
  splitAtFirst_append (ended_singleton a) fun hin => h (hin.subset List.mem_cons_self)

/-- What is left is shorter. -/
theorem length_of_splitAtFirst {pattern l before rest : List α} (hne : pattern ≠ [])
    (h : splitAtFirst pattern l = some (before, rest)) :
    before.length + pattern.length + rest.length = l.length := by
  obtain ⟨rfl, _⟩ := of_splitAtFirst hne h
  simp only [List.length_append]
  omega

end CodeLib
