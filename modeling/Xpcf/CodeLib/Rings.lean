import Mathlib.Data.List.DropRight
import Mathlib.Data.List.Rotate
import Mathlib.Data.Nat.ModEq

/-!
# Ring buffers

A queue of at most `n` items that drops its oldest one to make room, and the
cells that implement it, written and read in turn at positions that wrap around.

* `BoundedQueue`: the queue;
* `window`: the items in the cells, from the position that is read next;
* `window_cons` and `window_set`: reading a cell and writing one.
-/

namespace CodeLib

variable {α : Type}

/-- The oldest item is the first. -/
structure BoundedQueue (α : Type) (n : Nat) where
  items : List α
  bounded : items.length ≤ n

namespace BoundedQueue

variable {n : Nat}

def empty : BoundedQueue α n := ⟨[], Nat.zero_le n⟩

/-- A full queue loses its oldest item. -/
def push (q : BoundedQueue α n) (item : α) : BoundedQueue α n where
  items := (q.items ++ [item]).rtake n
  bounded := by
    rw [List.rtake, List.length_drop]
    omega

theorem push_of_lt {q : BoundedQueue α n} (h : q.items.length < n) (item : α) :
    (q.push item).items = q.items ++ [item] := by
  have hdrop : (q.items ++ [item]).length - n = 0 := by
    rw [List.length_append, List.length_singleton]
    omega
  show List.drop ((q.items ++ [item]).length - n) (q.items ++ [item]) = _
  rw [hdrop, List.drop_zero]

theorem push_of_eq {q : BoundedQueue α n} (h : q.items.length = n) (item : α) :
    (q.push item).items = (q.items ++ [item]).tail := by
  have hdrop : (q.items ++ [item]).length - n = 1 := by
    rw [List.length_append, List.length_singleton]
    omega
  show List.drop ((q.items ++ [item]).length - n) (q.items ++ [item]) = _
  rw [hdrop, List.drop_one]

/-- What a push leaves is at the end of what was there and the item. -/
theorem push_suffix (q : BoundedQueue α n) (item : α) :
    (q.push item).items <:+ q.items ++ [item] :=
  List.drop_suffix _ _

end BoundedQueue

namespace Ring

/-- The position after `i`, of `n`. -/
def next (n i : Nat) : Nat := (i + 1) % n

theorem next_lt {n : Nat} (h : 0 < n) (i : Nat) : next n i < n := Nat.mod_lt _ h

/-- Up to the last position the next one is one further. -/
theorem next_eq_ite {n i : Nat} (h : i < n) : next n i = if i + 1 = n then 0 else i + 1 := by
  unfold next
  split
  · rename_i hn
    rw [hn, Nat.mod_self]
  · exact Nat.mod_eq_of_lt (by omega)

theorem next_add (n i count : Nat) : (next n i + count) % n = (i + (count + 1)) % n := by
  rw [next, Nat.mod_add_mod, Nat.add_assoc, Nat.add_comm 1]

theorem next_add_mod (n start count : Nat) :
    next n ((start + count) % n) = (start + (count + 1)) % n := by
  rw [next, Nat.mod_add_mod, Nat.add_assoc]

/-- The items in `count` cells, from the position `start` on. -/
def window (cells : List α) (start count : Nat) : List α :=
  (cells.rotate start).take count

theorem window_length {cells : List α} {count : Nat} (start : Nat) (h : count ≤ cells.length) :
    (window cells start count).length = count := by
  rw [window, List.length_take, List.length_rotate, Nat.min_eq_left h]

/-- Rotating to the next position moves the first cell to the end. -/
theorem rotate_next {cells : List α} {start : Nat} (h : start < cells.length) :
    ∃ rest, cells.rotate start = cells[start] :: rest ∧
      cells.rotate (next cells.length start) = rest ++ [cells[start]] := by
  obtain ⟨first, rest, hrotate⟩ : ∃ first rest, cells.rotate start = first :: rest :=
    List.exists_cons_of_length_pos (by rw [List.length_rotate]; omega)
  have hfirst : first = cells[start] := by
    have hhead := List.head?_rotate h
    rw [hrotate, List.getElem?_eq_getElem h] at hhead
    exact Option.some.inj hhead
  refine ⟨rest, by rw [hrotate, hfirst], ?_⟩
  rw [next, List.rotate_mod, ← List.rotate_rotate, hrotate, ← hfirst]
  simp

/-- The first item of a window, and the window after it. -/
theorem window_cons {cells : List α} {start count : Nat} (hstart : start < cells.length)
    (hcount : count < cells.length) :
    window cells start (count + 1) =
      cells[start] :: window cells (next cells.length start) count := by
  obtain ⟨rest, hrotate, hnext⟩ := rotate_next hstart
  have hrest : count ≤ rest.length := by
    have hlength := congrArg List.length hrotate
    rw [List.length_rotate, List.length_cons] at hlength
    omega
  rw [window, window, hrotate, hnext, List.take_succ_cons, List.take_append_of_le_length hrest]

/-- Writing the cell after a window adds its item at the end. -/
theorem window_set {cells : List α} {start count : Nat} (hcount : count < cells.length)
    (item : α) :
    window (cells.set ((start + count) % cells.length) item) start (count + 1) =
      window cells start count ++ [item] := by
  have hlt : (start + count) % cells.length < cells.length := Nat.mod_lt _ (by omega)
  have hrotate : (cells.set ((start + count) % cells.length) item).rotate start =
      (cells.rotate start).set count item := by
    refine List.ext_getElem (by simp) fun k hk hk1 => ?_
    have hk2 : k < cells.length := by simpa using hk
    rw [List.getElem_rotate, List.getElem_set, List.getElem_set, List.getElem_rotate]
    simp only [List.length_set]
    -- two offsets below the number of cells name the same cell only if they are equal
    have hiff : (start + count) % cells.length = (k + start) % cells.length ↔ count = k := by
      constructor
      · intro heq
        have hmod : Nat.ModEq cells.length count k := by
          refine Nat.ModEq.add_left_cancel' start ?_
          rw [Nat.ModEq, heq, Nat.add_comm]
        exact hmod.eq_of_lt_of_lt hcount hk2
      · rintro rfl
        rw [Nat.add_comm]
    simp only [hiff]
  have hlength : count < (cells.rotate start).length := by rwa [List.length_rotate]
  rw [window, window, hrotate, List.take_add_one, List.take_set_of_le (Nat.le_refl count),
    List.getElem?_set_self hlength]
  rfl

/-- A window over all the cells is overtaken by a write at its start. -/
theorem window_overtaken {cells : List α} {start : Nat} (hstart : start < cells.length)
    (item : α) :
    window (cells.set start item) (next cells.length start) cells.length =
      (window cells start cells.length ++ [item]).tail := by
  obtain ⟨count, hcount⟩ : ∃ count, cells.length = count + 1 :=
    Nat.exists_eq_succ_of_ne_zero (by omega)
  have hwrap : (next cells.length start + count) % cells.length = start := by
    rw [next_add, ← hcount, Nat.add_mod_right, Nat.mod_eq_of_lt hstart]
  have hset := @window_set _ cells (next cells.length start) count (by omega) item
  rw [hwrap, ← hcount] at hset
  rw [hset, hcount, window_cons hstart (by omega), List.cons_append, List.tail_cons, hcount]

end Ring

end CodeLib
