import Mathlib.Data.Option.Basic

/-!
# Lookup tables

`Table K V` is a `std::map` seen through its lookups.  Two tables are equal
when every lookup answers the same, so the order of insertions and erased
entries leave no trace.  `insert` is the assignment `m[k] = v`.
-/

namespace CodeLib

/-- A map by what a lookup answers. -/
abbrev Table (K V : Type) : Type := K → Option V

namespace Table

variable {K V : Type}

def empty : Table K V := fun _ => none

/-- `mapContains`: the key has an entry. -/
def contains (t : Table K V) (k : K) : Bool := (t k).isSome

def insert [DecidableEq K] (t : Table K V) (k : K) (v : V) : Table K V :=
  fun k1 => if k1 = k then some v else t k1

def erase [DecidableEq K] (t : Table K V) (k : K) : Table K V :=
  fun k1 => if k1 = k then none else t k1

theorem contains_iff {t : Table K V} {k : K} : t.contains k = true ↔ ∃ v, t k = some v :=
  Option.isSome_iff_exists

theorem not_contains_iff {t : Table K V} {k : K} : t.contains k = false ↔ t k = none :=
  Option.isSome_eq_false_iff.trans Option.isNone_iff_eq_none

theorem contains_of_some {t : Table K V} {k : K} {v : V} (h : t k = some v) :
    t.contains k = true :=
  contains_iff.mpr ⟨v, h⟩

variable [DecidableEq K]

@[simp] theorem insert_self (t : Table K V) (k : K) (v : V) : t.insert k v k = some v :=
  if_pos rfl

theorem insert_ne (t : Table K V) {k k1 : K} (v : V) (h : k1 ≠ k) :
    t.insert k v k1 = t k1 :=
  if_neg h

theorem insert_apply (t : Table K V) (k : K) (v : V) (k1 : K) :
    t.insert k v k1 = if k1 = k then some v else t k1 := rfl

/-- No key is lost by an insertion. -/
theorem contains_insert_of_contains {t : Table K V} {k k1 : K} (v : V)
    (h : t.contains k1 = true) : (t.insert k v).contains k1 = true := by
  unfold contains at h ⊢
  rw [insert_apply]
  split
  · rfl
  · exact h

/-- An entry found after an insertion is the new one or was there before. -/
theorem insert_eq_some {t : Table K V} {k k1 : K} {v v1 : V} (h : t.insert k v k1 = some v1) :
    k1 = k ∧ v1 = v ∨ t k1 = some v1 := by
  rw [insert_apply] at h
  split at h
  · rename_i heq
    exact .inl ⟨heq, (Option.some.inj h).symm⟩
  · exact .inr h

theorem erase_ne (t : Table K V) {k k1 : K} (h : k1 ≠ k) : t.erase k k1 = t k1 := if_neg h

theorem erase_apply (t : Table K V) (k k1 : K) :
    t.erase k k1 = if k1 = k then none else t k1 := rfl

/-- An entry survives the insertion of another key, or of a key that had no
entry yet. -/
theorem insert_of_none {t : Table K V} {k k1 : K} {v v1 : V} (hk : t k = none)
    (h : t k1 = some v1) : t.insert k v k1 = some v1 := by
  have hne : k1 ≠ k := by
    rintro rfl
    rw [hk] at h
    cases h
  rw [insert_ne t v hne, h]

/-! ## Several entries -/

/-- The entry is written unless the key has one. -/
def addFirst (t : Table K V) (k : K) (v : V) : Table K V :=
  if t.contains k then t else t.insert k v

/-- Entries that are added to a table, the first one of each key. -/
def addAllFirst (t : Table K V) (entries : List (K × V)) : Table K V :=
  entries.foldl (fun t entry => t.addFirst entry.1 entry.2) t

def insertAll (t : Table K V) (entries : List (K × V)) : Table K V :=
  entries.foldl (fun t entry => t.insert entry.1 entry.2) t

theorem addFirst_apply (t : Table K V) (k : K) (v : V) (k1 : K) :
    t.addFirst k v k1 = (t k1).or (if k1 = k then some v else none) := by
  unfold addFirst
  cases hk : t k with
  | some v1 =>
    rw [if_pos (contains_of_some hk)]
    split
    · rename_i heq
      rw [heq, hk]
      rfl
    · rw [Option.or_none]
  | none =>
    rw [if_neg (by simp [not_contains_iff.mpr hk]), insert_apply]
    split
    · rename_i heq
      rw [heq, hk]
      rfl
    · rw [Option.or_none]

/-- A lookup stops at the first entry of the key. -/
theorem lookup_cons_or (entry : K × V) (entries : List (K × V)) (k : K) :
    (entry :: entries).lookup k =
      (if k = entry.1 then some entry.2 else none).or (entries.lookup k) := by
  rw [List.lookup_cons]
  by_cases h : k = entry.1
  · rw [if_pos h, beq_iff_eq.mpr h]
    rfl
  · rw [if_neg h, beq_eq_false_iff_ne.mpr h]
    rfl

/-- The old entry of the key, else the first one of the list. -/
theorem addAllFirst_apply (t : Table K V) (entries : List (K × V)) (k : K) :
    t.addAllFirst entries k = (t k).or (entries.lookup k) := by
  unfold addAllFirst
  induction entries generalizing t with
  | nil => rw [List.foldl_nil, List.lookup_nil, Option.or_none]
  | cons entry entries ih =>
    rw [List.foldl_cons, ih, addFirst_apply, Option.or_assoc, lookup_cons_or]

theorem addAllFirst_append (t : Table K V) (l l1 : List (K × V)) :
    t.addAllFirst (l ++ l1) = (t.addAllFirst l).addAllFirst l1 := by
  unfold addAllFirst
  rw [List.foldl_append]

/-- Entries made of the elements of a list: a lookup finds the first element with
the key. -/
theorem lookup_map {α : Type} (key : α → K) (val : α → V) (l : List α) (k : K) :
    (l.map fun a => (key a, val a)).lookup k = (l.find? fun a => key a = k).map val := by
  induction l with
  | nil => rfl
  | cons a l ih =>
    rw [List.map_cons, lookup_cons_or, ih, List.find?_cons]
    by_cases h : key a = k
    · simp [h]
    · simp [h, Ne.symm h]

/-- The last entry of the list, else the old one. -/
theorem insertAll_apply (t : Table K V) (entries : List (K × V)) (k : K) :
    t.insertAll entries k = (entries.reverse.lookup k).or (t k) := by
  unfold insertAll
  induction entries generalizing t with
  | nil => rfl
  | cons entry entries ih =>
    rw [List.foldl_cons, ih, List.reverse_cons, List.lookup_append, Option.or_assoc, insert_apply,
      lookup_cons_or, List.lookup_nil, Option.or_none]
    by_cases h : k = entry.1
    · rw [if_pos h, if_pos h, Option.some_or]
    · rw [if_neg h, if_neg h, Option.none_or]

end Table

/-! ## First occurrences -/

section FirstSeen

variable {α κ : Type} [DecidableEq κ]

/-- One more known key. -/
def see (known : κ → Bool) (k : κ) : κ → Bool := fun k1 => decide (k1 = k) || known k1

/-- Every key of the list is known. -/
def seeAll (key : α → κ) (known : κ → Bool) (l : List α) : κ → Bool :=
  l.foldl (fun known a => see known (key a)) known

/-- The elements of the list whose key is not known, the first one of each key. -/
def firstSeen (key : α → κ) (known : κ → Bool) : List α → List α
  | [] => []
  | a :: rest =>
    if known (key a) then firstSeen key known rest
    else a :: firstSeen key (see known (key a)) rest

theorem Table.contains_insert {V : Type} (t : Table κ V) (k : κ) (v : V) :
    (t.insert k v).contains = see t.contains k := by
  funext k1
  unfold see Table.contains
  rw [Table.insert_apply]
  by_cases h : k1 = k
  · simp [h]
  · simp [h]

theorem see_of_known {known : κ → Bool} {k : κ} (h : known k = true) : see known k = known := by
  funext k1
  unfold see
  by_cases heq : k1 = k
  · rw [heq, h, Bool.or_true]
  · simp [heq]

theorem firstSeen_append (key : α → κ) (known : κ → Bool) (l l1 : List α) :
    firstSeen key known (l ++ l1) =
      firstSeen key known l ++ firstSeen key (seeAll key known l) l1 := by
  induction l generalizing known with
  | nil => rfl
  | cons a l ih =>
    have hsee : seeAll key known (a :: l) = seeAll key (see known (key a)) l := rfl
    rw [List.cons_append, firstSeen, firstSeen, hsee]
    split
    · rename_i hknown
      rw [ih, see_of_known hknown]
    · rw [ih, List.cons_append]

end FirstSeen

end CodeLib
