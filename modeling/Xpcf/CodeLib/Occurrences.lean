import Mathlib.Data.List.Induction
import Mathlib.Data.List.Nodup

/-!
# Occurrences in a list

The elements of a list in the order of their first occurrences, and the
positions at which one of them stands.
-/

namespace CodeLib

variable {α : Type} [DecidableEq α]

/-! ## First occurrences -/

/-- Append an element unless it is there. -/
def addNew (seen : List α) (a : α) : List α := if a ∈ seen then seen else seen ++ [a]

/-- The elements of `l`, each at its first occurrence. -/
def firstOccurrences (l : List α) : List α := l.foldl addNew []

theorem mem_addNew {seen : List α} {a b : α} : b ∈ addNew seen a ↔ b ∈ seen ∨ b = a := by
  unfold addNew
  split
  · rename_i hmem
    constructor
    · exact Or.inl
    · intro h
      cases h with
      | inl h => exact h
      | inr h => exact h ▸ hmem
  · simp

theorem mem_foldl_addNew {l seen : List α} {b : α} :
    b ∈ l.foldl addNew seen ↔ b ∈ seen ∨ b ∈ l := by
  induction l generalizing seen with
  | nil => simp
  | cons a l ih =>
    rw [List.foldl_cons, ih, mem_addNew, List.mem_cons]
    tauto

@[simp] theorem mem_firstOccurrences {l : List α} {b : α} : b ∈ firstOccurrences l ↔ b ∈ l := by
  simp [firstOccurrences, mem_foldl_addNew]

theorem nodup_addNew {seen : List α} (h : seen.Nodup) (a : α) : (addNew seen a).Nodup := by
  unfold addNew
  split
  · exact h
  · rename_i hnew
    exact List.nodup_append.mpr ⟨h, List.nodup_singleton a, fun x hx y hy hxy =>
      hnew ((List.mem_singleton.mp hy) ▸ hxy ▸ hx)⟩

theorem nodup_firstOccurrences (l : List α) : (firstOccurrences l).Nodup := by
  have hfold : ∀ seen : List α, seen.Nodup → (l.foldl addNew seen).Nodup := by
    induction l with
    | nil => exact fun seen h => h
    | cons a l ih => exact fun seen h => ih (addNew seen a) (nodup_addNew h a)
  exact hfold [] List.nodup_nil

/-- Elements that are all there leave no trace. -/
theorem foldl_addNew_of_subset {l seen : List α} (h : ∀ a ∈ l, a ∈ seen) :
    l.foldl addNew seen = seen := by
  induction l with
  | nil => rfl
  | cons a l ih =>
    have ha : addNew seen a = seen := if_pos (h a List.mem_cons_self)
    rw [List.foldl_cons, ha]
    exact ih fun b hb => h b (List.mem_cons_of_mem a hb)

/-! ## Positions -/

/-- The positions of `a` in `l`, in increasing order. -/
def positions (l : List α) (a : α) : List Nat :=
  (List.range l.length).filter fun i => l[i]? = some a

theorem mem_positions {l : List α} {a : α} {i : Nat} : i ∈ positions l a ↔ l[i]? = some a := by
  unfold positions
  rw [List.mem_filter, List.mem_range, decide_eq_true_iff]
  constructor
  · exact fun h => h.2
  · exact fun h => ⟨(List.getElem?_eq_some_iff.mp h).1, h⟩

theorem nodup_positions (l : List α) (a : α) : (positions l a).Nodup :=
  List.nodup_range.filter _

theorem positions_concat (l : List α) (a b : α) :
    positions (l ++ [b]) a = if b = a then positions l a ++ [l.length] else positions l a := by
  unfold positions
  have hinit : (List.range l.length).filter (fun i => decide ((l ++ [b])[i]? = some a)) =
      (List.range l.length).filter fun i => decide (l[i]? = some a) := by
    refine List.filter_congr fun i hi => ?_
    rw [List.getElem?_append_left (List.mem_range.mp hi)]
  rw [List.length_append, List.length_singleton, List.range_succ, List.filter_append, hinit]
  split
  · rename_i heq
    simp [heq]
  · rename_i hne
    simp [hne]

@[simp] theorem positions_nil (a : α) : positions [] a = [] := rfl

theorem length_positions (l : List α) (a : α) : (positions l a).length = l.count a := by
  induction l using List.reverseRecOn with
  | nil => rfl
  | append_singleton l b ih =>
    rw [positions_concat, List.count_append, List.count_singleton]
    split
    · rename_i heq
      simp [ih, heq]
    · rename_i hne
      simp [ih, hne]

/-- A position is preceded by the positions of the earlier occurrences. -/
theorem idxOf_positions {l : List α} {a : α} {i : Nat} (h : l[i]? = some a) :
    (positions l a).idxOf i = (l.take i).count a := by
  induction l using List.reverseRecOn with
  | nil => simp at h
  | append_singleton l b ih =>
    rw [positions_concat]
    by_cases hi : i < l.length
    · rw [List.getElem?_append_left hi] at h
      have htake : (l ++ [b]).take i = l.take i := List.take_append_of_le_length (by omega)
      rw [htake, ← ih h]
      split
      · exact List.idxOf_append_of_mem (mem_positions.mpr h)
      · rfl
    · have hlt : i < (l ++ [b]).length := (List.getElem?_eq_some_iff.mp h).1
      have hlen : i = l.length := by
        rw [List.length_append, List.length_singleton] at hlt
        omega
      subst hlen
      have hb : b = a := by simpa using h
      have hnot : l.length ∉ positions l a := fun hmem => by
        have hsome := mem_positions.mp hmem
        simp at hsome
      rw [if_pos hb, List.idxOf_append_of_notMem hnot, length_positions]
      simp

/-! ## Groups of positions -/

/-- `groups` lists the keys of `l`, each once and with its positions. -/
structure Indexes (groups : List (α × List Nat)) (l : List α) : Prop where
  nodup_keys : (groups.map Prod.fst).Nodup
  positions_of_mem : ∀ group ∈ groups, group.2 = positions l group.1
  exists_of_mem : ∀ a, a ∈ groups.map Prod.fst ↔ a ∈ l

theorem Indexes.empty : Indexes ([] : List (α × List Nat)) [] :=
  ⟨List.nodup_nil, fun _ h => absurd h List.not_mem_nil, fun _ => Iff.rfl⟩

/-! ## The last element that differs in kind -/

/-- Two lists that end in elements of one kind after an element of another
kind are equal part by part. -/
theorem append_cons_inj {β : Type} {p : β → Bool} {l1 l2 d1 d2 : List β} {c1 c2 : β}
    (hd1 : ∀ x ∈ d1, p x = true) (hd2 : ∀ x ∈ d2, p x = true) (hc1 : p c1 = false)
    (hc2 : p c2 = false) (h : l1 ++ c1 :: d1 = l2 ++ c2 :: d2) :
    l1 = l2 ∧ c1 = c2 ∧ d1 = d2 := by
  have hsuffix : ∀ (l d : List β) (c : β), (∀ x ∈ d, p x = true) → p c = false →
      ((l ++ c :: d).reverse.takeWhile p).reverse = d := by
    intro l d c hd hc
    have hrev : (l ++ c :: d).reverse = d.reverse ++ c :: l.reverse := by simp
    rw [hrev, List.takeWhile_append_of_pos fun x hx => hd x (List.mem_reverse.mp hx),
      List.takeWhile_cons_of_neg (by simp [hc]), List.append_nil, List.reverse_reverse]
  have hd : d1 = d2 := by
    rw [← hsuffix l1 d1 c1 hd1 hc1, h, hsuffix l2 d2 c2 hd2 hc2]
  subst hd
  have hfront := List.append_inj' h (by simp)
  exact ⟨hfront.1, (List.cons.inj hfront.2).1, rfl⟩

end CodeLib
