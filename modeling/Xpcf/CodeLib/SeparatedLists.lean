import Mathlib.Data.List.Infix

/-!
# Lists written with separators

Entries written one after another, each with a separator after it, and what a
search in the text finds: a text with the separator after it is there exactly
when it is a tail of what ends with some entry (`infix_separated_iff`).
-/

namespace CodeLib

variable {α : Type} {sep : α}

/-- The entries with the separator after each. -/
def separated (sep : α) (entries : List (List α)) : List α := entries.flatMap (· ++ [sep])

theorem separated_cons (entry : List α) (entries : List (List α)) :
    separated sep (entry :: entries) = entry ++ sep :: separated sep entries := by
  unfold separated
  rw [List.flatMap_cons, List.append_assoc, List.singleton_append]

theorem separated_append (entries entries1 : List (List α)) :
    separated sep (entries ++ entries1) = separated sep entries ++ separated sep entries1 :=
  List.flatMap_append

/-- What stands before a separator is a run of entries and one more entry. -/
theorem exists_split_of_prefix {entries : List (List α)}
    (hentries : ∀ entry ∈ entries, sep ∉ entry) {text : List α}
    (h : text ++ [sep] <+: separated sep entries) :
    ∃ before entry after, entries = before ++ entry :: after ∧
      text = separated sep before ++ entry := by
  induction entries generalizing text with
  | nil => exact absurd (List.prefix_nil.mp h) (by simp)
  | cons first rest ih =>
    obtain ⟨tail, htail⟩ := h
    rw [separated_cons, List.append_assoc, List.singleton_append] at htail
    obtain ⟨gap, hfirst, hgap⟩ | ⟨gap, htext, hgap⟩ := List.append_eq_append_iff.mp htail
    · cases gap with
      | nil =>
        rw [List.append_nil] at hfirst
        exact ⟨[], first, rest, rfl, hfirst.symm⟩
      | cons c gap =>
        -- the separator would be inside the first entry
        cases hgap
        refine absurd ?_ (hentries first List.mem_cons_self)
        rw [hfirst]
        exact List.mem_append_right _ List.mem_cons_self
    · cases gap with
      | nil =>
        rw [List.append_nil] at htext
        exact ⟨[], first, rest, rfl, htext⟩
      | cons c gap =>
        obtain ⟨rfl, hrest⟩ := List.cons.inj hgap
        rw [List.append_eq] at hrest
        have hprefix : gap ++ [sep] <+: separated sep rest :=
          ⟨tail, by rw [hrest, List.append_assoc, List.singleton_append]⟩
        obtain ⟨before, entry, after, hsplit, heq⟩ :=
          ih (fun entry h => hentries entry (List.mem_cons_of_mem _ h)) hprefix
        refine ⟨first :: before, entry, after, by rw [hsplit]; rfl, ?_⟩
        rw [htext, heq, separated_cons, List.append_assoc, List.cons_append]

/-- A text before a separator is a tail of what ends with some entry. -/
theorem infix_separated_iff {entries : List (List α)} (hentries : ∀ entry ∈ entries, sep ∉ entry)
    {text : List α} :
    text ++ [sep] <:+: separated sep entries ↔
      ∃ before entry after, entries = before ++ entry :: after ∧
        text <:+ separated sep before ++ entry := by
  constructor
  · rintro ⟨front, tail, h⟩
    have hprefix : (front ++ text) ++ [sep] <+: separated sep entries :=
      ⟨tail, by rw [← h, List.append_assoc front text]⟩
    obtain ⟨before, entry, after, hsplit, heq⟩ := exists_split_of_prefix hentries hprefix
    exact ⟨before, entry, after, hsplit, front, heq⟩
  · rintro ⟨before, entry, after, hsplit, front, heq⟩
    refine ⟨front, separated sep after, ?_⟩
    rw [hsplit, separated_append, separated_cons, ← List.append_assoc front text, heq]
    simp only [List.append_assoc, List.singleton_append]

end CodeLib
