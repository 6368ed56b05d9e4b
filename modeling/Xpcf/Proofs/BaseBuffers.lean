import Xpcf.Model.BaseBuffer
import Xpcf.CodeLib.Steps
import Mathlib.Data.List.Infix

/-!
# Writing to a `BaseBuffer`

`setSize` does not shrink the vector to nothing and `insert` makes it longer, so
the vector is never shorter than the size (`Covered`), but it drifts away from it.
`appendData` writes what it should whatever there is beyond the size.  `setData`
keeps a size that is larger than its source and copies that many bytes.
-/

namespace Xpcf

open CodeLib

namespace BaseBuffer

/-- The vector holds at least `getSize()` bytes. -/
def Covered (b : BaseBuffer) : Prop := b.getSize.toNat ≤ b.storageData.length

/-- The first `getSize()` bytes. -/
def content (b : BaseBuffer) : List UInt8 := b.storageData.take b.getSize.toNat

end BaseBuffer

/-- The call reads no byte past its source, leaves the vector long enough, and
has written what it is for. -/
def BaseBuffer.Writes (b : BaseBuffer) (call : BufferCall) : Prop :=
  ∃ b1, b.call call = some b1 ∧ b1.Covered ∧
    match call with
    | .setSize _ => True
    | .setData data =>
      b1.getSize.toNat = data.length ∧ b1.storageData.take data.length = data
    | .appendData data => b1.content = b.content ++ data

/-- A new buffer and the calls on it, each of which writes what it should. -/
def BufferLaw (constructor : BufferConstructor) (calls : List BufferCall) : Prop :=
  ∃ b, constructor.construct = some b ∧ b.Covered ∧
    ∀ before call after, calls = before ++ call :: after →
      ∃ b1, b.calls before = some b1 ∧ b1.Writes call

/-! ## Sizes -/

/-- The size a new buffer should have. -/
def BufferConstructor.size : BufferConstructor → Nat
  | .default => 0
  | .ofSize size => size.toNat
  | .ofVector buffer => buffer.length
  | .ofData data => data.length

/-- The size a buffer should have after a call. -/
def BufferCall.sizeAfter (size : Nat) : BufferCall → Nat
  | .setSize size => size.toNat
  | .setData data => data.length
  | .appendData data => size + data.length

/-- The size a buffer should have after the calls. -/
def sizeAfterCalls (size : Nat) (calls : List BufferCall) : Nat :=
  calls.foldl BufferCall.sizeAfter size

/-- The call is no `setData` of less than the buffer holds. -/
def BufferCall.NoShorter (size : Nat) : BufferCall → Prop
  | .setData data => size ≤ data.length
  | _ => True

/-! ## The operations -/

theorem length_resize (storage : List UInt8) (count : Nat) :
    (resize storage count).length = count := by
  rw [resize, List.length_append, List.length_take, List.length_replicate]
  omega

theorem take_resize {storage : List UInt8} {offset count : Nat} (hoffset : offset ≤ count)
    (hstorage : offset ≤ storage.length) :
    (resize storage count).take offset = storage.take offset := by
  rw [resize, List.take_append_of_le_length (by rw [List.length_take]; omega), List.take_take,
    Nat.min_eq_left hoffset]

theorem insertBytes_all {storage : List UInt8} {offset : Nat} (hoffset : offset ≤ storage.length)
    (data : List UInt8) :
    insertBytes storage offset data data.length =
      some (storage.take offset ++ data ++ storage.drop offset) := by
  rw [insertBytes, if_pos ⟨hoffset, Nat.le_refl _⟩, List.take_length]

theorem insertBytes_short {storage data : List UInt8} {offset count : Nat}
    (hshort : data.length < count) : insertBytes storage offset data count = none :=
  if_neg fun h => absurd h.2 (Nat.not_le.mpr hshort)

theorem toNat_ofNat_length {data : List UInt8} (h : data.length < 2 ^ 32) :
    (UInt32.ofNat data.length).toNat = data.length := by
  rw [UInt32.toNat_ofNat', Nat.mod_eq_of_lt h]

namespace BaseBuffer

@[simp] theorem getSize_setSize (b : BaseBuffer) (size : UInt32) :
    (b.setSize size).getSize = size := by
  unfold setSize
  split <;> rfl

theorem covered_setSize (b : BaseBuffer) (size : UInt32) : (b.setSize size).Covered := by
  unfold Covered
  rw [getSize_setSize]
  unfold setSize
  split
  · rename_i hzero
    rw [hzero]
    exact Nat.zero_le _
  · exact Nat.le_of_eq (length_resize _ _).symm

/-- Growing a buffer keeps its content. -/
theorem take_setSize {b : BaseBuffer} (hcovered : b.Covered) {size : UInt32}
    (hgrows : b.getSize.toNat ≤ size.toNat) :
    (b.setSize size).storageData.take b.getSize.toNat = b.content := by
  unfold setSize
  split
  · rfl
  · exact take_resize hgrows hcovered

theorem writes_setSize (b : BaseBuffer) (size : UInt32) : b.Writes (.setSize size) :=
  ⟨b.setSize size, rfl, b.covered_setSize size, trivial⟩

theorem call_appendData {b : BaseBuffer} (hcovered : b.Covered) {data : List UInt8}
    (hfits : b.getSize.toNat + data.length < 2 ^ 32) :
    ∃ b1, b.call (.appendData data) = some b1 ∧ b1.Covered ∧
      b1.getSize.toNat = b.getSize.toNat + data.length ∧ b1.content = b.content ++ data := by
  have hlength : (UInt32.ofNat data.length).toNat = data.length := toNat_ofNat_length (by omega)
  have hsum : (b.bufferSize + UInt32.ofNat data.length).toNat =
      b.getSize.toNat + data.length := by
    rw [UInt32.toNat_add, hlength]
    exact Nat.mod_eq_of_lt hfits
  have hgrown := b.covered_setSize (b.bufferSize + UInt32.ofNat data.length)
  have hkept : (b.setSize (b.bufferSize + UInt32.ofNat data.length)).storageData.take
      b.getSize.toNat = b.content := take_setSize hcovered (by rw [hsum]; omega)
  generalize hb1 : b.setSize (b.bufferSize + UInt32.ofNat data.length) = b1 at hgrown hkept
  have hsize : b1.getSize.toNat = b.getSize.toNat + data.length := by
    rw [← hb1, getSize_setSize, hsum]
  have hoffset : b.getSize.toNat ≤ b1.storageData.length := by
    have := hgrown
    unfold Covered at this
    omega
  have hwritten : (b1.storageData.take b.getSize.toNat ++ data).length = b1.getSize.toNat := by
    rw [List.length_append, List.length_take, Nat.min_eq_left hoffset, hsize]
  have hinsert : insertBytes b1.storageData b.bufferSize.toNat data data.length =
      some (b1.storageData.take b.getSize.toNat ++ data ++
        b1.storageData.drop b.getSize.toNat) := insertBytes_all hoffset data
  refine ⟨⟨b1.storageData.take b.getSize.toNat ++ data ++ b1.storageData.drop b.getSize.toNat,
    b1.bufferSize⟩, ?_, ?_, hsize, ?_⟩
  · show b.appendData data (UInt32.ofNat data.length) = _
    unfold appendData
    simp only [hb1, hlength]
    rw [hinsert]
    rfl
  · unfold Covered
    rw [List.length_append, hwritten]
    exact Nat.le_add_right _ _
  · rw [← hkept]
    exact List.take_left' hwritten

/-- A source of the size of the buffer is copied whole. -/
theorem copy_source {b : BaseBuffer} {data : List UInt8}
    (hsize : b.getSize.toNat = data.length) :
    ∃ b1, (do
        let storage ← insertBytes b.storageData 0 data b.bufferSize.toNat
        pure { b with storageData := storage }) = some b1 ∧ b1.Covered ∧
      b1.getSize.toNat = data.length ∧ b1.storageData.take data.length = data := by
  have hinsert : insertBytes b.storageData 0 data b.bufferSize.toNat =
      some (data ++ b.storageData) := by
    rw [show b.bufferSize.toNat = data.length from hsize]
    exact insertBytes_all (Nat.zero_le _) data
  refine ⟨⟨data ++ b.storageData, b.bufferSize⟩, ?_, ?_, hsize, List.take_left⟩
  · rw [hinsert]
    rfl
  · show b.getSize.toNat ≤ (data ++ b.storageData).length
    rw [hsize, List.length_append]
    exact Nat.le_add_right _ _

/-- A buffer that holds no more than the source takes all of it. -/
theorem call_setData {b : BaseBuffer} {data : List UInt8} (hfits : data.length < 2 ^ 32)
    (hsize : b.getSize.toNat ≤ data.length) :
    ∃ b1, b.call (.setData data) = some b1 ∧ b1.Covered ∧ b1.getSize.toNat = data.length ∧
      b1.storageData.take data.length = data := by
  have hlength := toNat_ofNat_length hfits
  show ∃ b1, b.setData data (UInt32.ofNat data.length) = some b1 ∧ _
  unfold setData
  by_cases hless : b.bufferSize < UInt32.ofNat data.length
  · rw [if_pos hless]
    exact copy_source (by rw [getSize_setSize, hlength])
  · rw [if_neg hless]
    rw [UInt32.lt_iff_toNat_lt, hlength] at hless
    exact copy_source (Nat.le_antisymm hsize (Nat.not_lt.mp hless))

/-- A buffer that holds more than the source reads past the source. -/
theorem call_setData_short {b : BaseBuffer} {data : List UInt8} (hfits : data.length < 2 ^ 32)
    (hsize : data.length < b.getSize.toNat) : b.call (.setData data) = none := by
  have hless : ¬ b.bufferSize < UInt32.ofNat data.length := by
    rw [UInt32.lt_iff_toNat_lt, toNat_ofNat_length hfits]
    exact Nat.not_lt.mpr (Nat.le_of_lt hsize)
  show b.setData data _ = none
  unfold setData
  rw [if_neg hless]
  show (insertBytes _ 0 data b.getSize.toNat >>= fun _ => _) = none
  rw [insertBytes_short hsize]
  rfl

/-- One call on a buffer whose vector is long enough: what it writes, and when. -/
theorem writes_iff {b : BaseBuffer} (hcovered : b.Covered) {call : BufferCall}
    (hfits : call.sizeAfter b.getSize.toNat < 2 ^ 32) :
    b.Writes call ↔ call.NoShorter b.getSize.toNat := by
  cases call with
  | setSize size => exact iff_of_true (b.writes_setSize size) trivial
  | setData data =>
    constructor
    · rintro ⟨b1, hcall, _⟩
      by_contra hshort
      rw [call_setData_short hfits (Nat.not_le.mp hshort)] at hcall
      cases hcall
    · intro hsize
      obtain ⟨b1, hcall, hcovered1, hwritten⟩ := call_setData hfits hsize
      exact ⟨b1, hcall, hcovered1, hwritten⟩
  | appendData data =>
    obtain ⟨b1, hcall, hcovered1, _, hcontent⟩ := call_appendData hcovered hfits
    exact iff_of_true ⟨b1, hcall, hcovered1, hcontent⟩ trivial

/-- A call that writes what it should leaves the size it should. -/
theorem call_of_noShorter {b : BaseBuffer} (hcovered : b.Covered) {call : BufferCall}
    (hfits : call.sizeAfter b.getSize.toNat < 2 ^ 32) (hno : call.NoShorter b.getSize.toNat) :
    ∃ b1, b.call call = some b1 ∧ b1.Covered ∧
      b1.getSize.toNat = call.sizeAfter b.getSize.toNat := by
  cases call with
  | setSize size =>
    refine ⟨b.setSize size, rfl, b.covered_setSize size, ?_⟩
    rw [getSize_setSize]
    rfl
  | setData data =>
    obtain ⟨b1, hcall, hcovered1, hsize, _⟩ := call_setData hfits hno
    exact ⟨b1, hcall, hcovered1, hsize⟩
  | appendData data =>
    obtain ⟨b1, hcall, hcovered1, hsize, _⟩ := call_appendData hcovered hfits
    exact ⟨b1, hcall, hcovered1, hsize⟩

/-! ## Sequences of calls -/

theorem writesAll_iff {b : BaseBuffer} (hcovered : b.Covered) {calls : List BufferCall}
    (hfits : ∀ before, before <+: calls →
      sizeAfterCalls b.getSize.toNat before < 2 ^ 32) :
    (∀ before call after, calls = before ++ call :: after →
        ∃ b1, b.calls before = some b1 ∧ b1.Writes call) ↔
      ∀ before call after, calls = before ++ call :: after →
        call.NoShorter (sizeAfterCalls b.getSize.toNat before) := by
  induction calls generalizing b with
  | nil => exact iff_of_true forall_splits_nil forall_splits_nil
  | cons call calls ih =>
    have hfits1 : call.sizeAfter b.getSize.toNat < 2 ^ 32 :=
      hfits [call] (by simp)
    rw [forall_splits_cons, forall_splits_cons]
    have hfirst : (∃ b1, b.calls [] = some b1 ∧ b1.Writes call) ↔
        call.NoShorter (sizeAfterCalls b.getSize.toNat []) := by
      refine Iff.trans ?_ (writes_iff hcovered hfits1)
      exact ⟨fun ⟨b1, hnil, h⟩ => by cases hnil; exact h, fun h => ⟨b, rfl, h⟩⟩
    rw [hfirst]
    refine and_congr_right fun hno => ?_
    obtain ⟨b1, hcall, hcovered1, hsize⟩ := call_of_noShorter hcovered hfits1 hno
    have hcons : ∀ before, b.calls (call :: before) = b1.calls before := by
      intro before
      show (b.call call >>= fun b1 => b1.calls before) = _
      rw [hcall]
      rfl
    have hsizes : ∀ before, sizeAfterCalls b.getSize.toNat (call :: before) =
        sizeAfterCalls b1.getSize.toNat before := by
      intro before
      rw [hsize]
      rfl
    simp only [hcons, hsizes]
    refine ih hcovered1 fun before hbefore => ?_
    rw [← hsizes]
    exact hfits (call :: before) (List.cons_prefix_cons.mpr ⟨rfl, hbefore⟩)

end BaseBuffer

/-! ## New buffers -/

theorem BufferConstructor.construct_covered {constructor : BufferConstructor}
    (hfits : constructor.size < 2 ^ 32) :
    ∃ b, constructor.construct = some b ∧ b.Covered ∧ b.getSize.toNat = constructor.size := by
  cases constructor with
  | default => exact ⟨BaseBuffer.default, rfl, Nat.zero_le _, rfl⟩
  | ofSize size =>
    refine ⟨BaseBuffer.ofSize size, rfl, BaseBuffer.covered_setSize _ _, ?_⟩
    show (BaseBuffer.setSize _ _).getSize.toNat = _
    rw [BaseBuffer.getSize_setSize]
    rfl
  | ofVector buffer =>
    have hsize : (BaseBuffer.default.setSize (UInt32.ofNat buffer.length)).getSize.toNat =
        buffer.length := by rw [BaseBuffer.getSize_setSize, toNat_ofNat_length hfits]
    obtain ⟨b1, hcopy, hcovered1, hsize, _⟩ := BaseBuffer.copy_source hsize
    exact ⟨b1, hcopy, hcovered1, hsize⟩
  | ofData data =>
    obtain ⟨b1, hcall, hcovered1, hsize, _⟩ := BaseBuffer.call_setData (b := BaseBuffer.default)
      hfits (Nat.zero_le _)
    exact ⟨b1, hcall, hcovered1, hsize⟩

/-- Every call of a sequence writes what it should exactly when no `setData` is
given less than the buffer holds. -/
theorem bufferLaw_iff (constructor : BufferConstructor) (calls : List BufferCall)
    (hfits : ∀ before, before <+: calls →
      sizeAfterCalls constructor.size before < 2 ^ 32) :
    BufferLaw constructor calls ↔
      ∀ before call after, calls = before ++ call :: after →
        call.NoShorter (sizeAfterCalls constructor.size before) := by
  obtain ⟨b, hconstruct, hcovered, hsize⟩ :=
    BufferConstructor.construct_covered (hfits [] (List.nil_prefix ..))
  rw [← hsize] at hfits ⊢
  rw [← BaseBuffer.writesAll_iff hcovered hfits]
  constructor
  · rintro ⟨b1, hconstruct1, _, hwrites⟩
    rw [hconstruct] at hconstruct1
    cases hconstruct1
    exact hwrites
  · intro hwrites
    exact ⟨b, hconstruct, hcovered, hwrites⟩

/-- Writing more than before, appending, and starting again. -/
theorem bufferLaw_iff_grows :
    BufferLaw (.ofData [1]) [.setData [2, 3], .appendData [4], .setSize 0, .setData [5]] := by
  let calls : List BufferCall := [.setData [2, 3], .appendData [4], .setSize 0, .setData [5]]
  have hfits : ∀ before ∈ calls.inits, sizeAfterCalls 1 before < 2 ^ 32 := by decide
  refine (bufferLaw_iff (.ofData [1]) calls fun before h =>
    hfits before ((List.mem_inits _ _).mpr h)).mpr ?_
  refine forall_splits_cons.mpr ⟨Nat.le_succ 1, forall_splits_cons.mpr ⟨trivial, ?_⟩⟩
  exact forall_splits_cons.mpr ⟨trivial, forall_splits_cons.mpr ⟨Nat.zero_le 1, forall_splits_nil⟩⟩

/-- A buffer of two bytes is given one. -/
theorem short_setData_reads_past_source :
    (BaseBuffer.default.calls [.setSize 2, .setData [5]]) = none ∧
      ¬ BufferLaw .default [.setSize 2, .setData [5]] := by
  refine ⟨by decide, ?_⟩
  rintro ⟨b, hconstruct, _, hwrites⟩
  cases hconstruct
  obtain ⟨b1, hcalls, b2, hcall, _⟩ := hwrites [.setSize 2] (.setData [5]) [] rfl
  cases hcalls
  cases hcall

end Xpcf
