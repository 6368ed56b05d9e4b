import Xpcf.Core.Exceptions

/-!
# Enumerators

`Enumerator` and `BlockEnumerator` (`xpcf/collection`) over a vector or a deque,
the iterators of `IEnumerator.h` and the range-based `for` that they serve.

`m_index` is an `int64_t` that stays between -1 and the length of a sequence in
memory, so it is an `Int`; the offset and the sizes of a block are `uint32_t`.
-/

namespace Xpcf

/-- The class of an enumerator, with the members that are its own. -/
inductive EnumeratorKind where
  | enumerator
  /-- `m_offset` and `m_size`, the index after the last one. -/
  | blockEnumerator (offset size : UInt32)
  deriving DecidableEq

structure Enumerator (T : Type) where
  kind : EnumeratorKind
  sequence : List T
  index : Int
  endReached : Bool
  deriving DecidableEq

namespace Enumerator

variable {T : Type}

/-- The constructor of `Enumerator`. -/
def new (sequence : List T) : Enumerator T := ⟨.enumerator, sequence, -1, false⟩

def computeSize (e : Enumerator T) : Int :=
  match e.kind with
  | .enumerator => e.sequence.length
  | .blockEnumerator _ size => size.toNat

def reset (e : Enumerator T) : Enumerator T :=
  match e.kind with
  | .enumerator => { e with endReached := false, index := -1 }
  | .blockEnumerator offset _ => { e with endReached := false, index := offset.toNat - 1 }

def moveNext (e : Enumerator T) : Bool × Enumerator T :=
  if e.index < e.computeSize - 1 then (true, { e with index := e.index + 1 })
  else (false, { e with endReached := true })

/-- `m_sequence.at(m_index)`: a negative index is a `size_t` that no sequence reaches. -/
def current (e : Enumerator T) : Except Exc T :=
  match (if e.index < 0 then none else e.sequence[e.index.toNat]?) with
  | some value => .ok value
  | none => .error (.std .outOfRange "at")

/-! ## What a move changes -/

theorem moveNext_of_lt {e : Enumerator T} (h : e.index < e.computeSize - 1) :
    e.moveNext = (true, { e with index := e.index + 1 }) :=
  if_pos h

theorem moveNext_of_ge {e : Enumerator T} (h : ¬ e.index < e.computeSize - 1) :
    e.moveNext = (false, { e with endReached := true }) :=
  if_neg h

/-! ## The range-based `for` -/

/-- The moves that a loop can still make. -/
def remaining (e : Enumerator T) : Nat :=
  if e.endReached then 0 else (e.computeSize - e.index).toNat + 1

theorem remaining_moveNext {e : Enumerator T} (h : e.endReached = false) :
    e.moveNext.2.remaining < e.remaining := by
  have hbefore : e.remaining = (e.computeSize - e.index).toNat + 1 := by simp [remaining, h]
  by_cases hlt : e.index < e.computeSize - 1
  · have hafter : e.moveNext.2.remaining = (e.computeSize - (e.index + 1)).toNat + 1 := by
      rw [moveNext_of_lt hlt]
      simp [remaining, h, computeSize]
    omega
  · have hafter : e.moveNext.2.remaining = 0 := by
      rw [moveNext_of_ge hlt]
      rfl
    omega

/-- The loop from an iterator on: `!=` asks for the end, `*` is `current` and
`++` is `moveNext`.  The values are those given to the body. -/
def visit (e : Enumerator T) : Except Exc (List T × Enumerator T) :=
  if e.endReached = true then .ok ([], e)
  else
    match e.current with
    | .error exc => .error exc
    | .ok value =>
      match visit e.moveNext.2 with
      | .error exc => .error exc
      | .ok (values, e1) => .ok (value :: values, e1)
termination_by e.remaining
decreasing_by exact remaining_moveNext (Bool.eq_false_iff.mpr ‹_›)

/-- `for (auto value : e)`: `begin`, which starts again and makes the first move, and
the loop. -/
def rangeFor (e : Enumerator T) : Except Exc (List T × Enumerator T) :=
  e.reset.moveNext.2.visit

end Enumerator

/-- The constructor of `BlockEnumerator`.  The sum is one of `uint32_t`. -/
def BlockEnumerator.new {T : Type} (sequence : List T) (offset chunkSize : UInt32) :
    Except Exc (Enumerator T) :=
  let size := offset + chunkSize
  if sequence.length < size.toNat then
    .error (.std .outOfRange "offset + size > sequence size")
  else .ok ⟨.blockEnumerator offset size, sequence, offset.toNat - 1, false⟩

/-- `Collection::getEnumerator(offset, chunkSize)`. -/
def Collection.getEnumerator {T : Type} (sequence : List T) (offset chunkSize : UInt32) :
    Except Exc (Enumerator T) :=
  BlockEnumerator.new sequence offset chunkSize

/-- A call of a method that moves an enumerator.  A loop that is left early is a
`reset` and some `moveNext`. -/
inductive EnumeratorCall where
  | moveNext
  | reset
  deriving DecidableEq

namespace Enumerator

variable {T : Type}

def step (e : Enumerator T) : EnumeratorCall → Enumerator T
  | .moveNext => e.moveNext.2
  | .reset => e.reset

/-- The enumerator after calls. -/
def run (calls : List EnumeratorCall) (e : Enumerator T) : Enumerator T :=
  calls.foldl step e

end Enumerator

end Xpcf
