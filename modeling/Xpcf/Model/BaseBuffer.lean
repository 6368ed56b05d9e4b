import Mathlib.Data.BitVec

/-!
# `BaseBuffer`

The buffer of `xpcf/remoting/BaseBuffer.h`: a vector of bytes beside a size of its
own.  A pointer argument is the list of the bytes it points to, and a call that
reads past them, or moves an iterator past the end of the vector, has no result.
-/

namespace Xpcf

structure BaseBuffer where
  storageData : List UInt8
  bufferSize : UInt32
  deriving DecidableEq

/-- `std::vector<uint8_t>::resize`. -/
def resize (storage : List UInt8) (count : Nat) : List UInt8 :=
  storage.take count ++ List.replicate (count - storage.length) 0

/-- `std::vector<uint8_t>::insert` of the range from `data` to `data + count`, at
the iterator `std::next(begin(), offset)`. -/
def insertBytes (storage : List UInt8) (offset : Nat) (data : List UInt8) (count : Nat) :
    Option (List UInt8) :=
  if offset ≤ storage.length ∧ count ≤ data.length then
    some (storage.take offset ++ data.take count ++ storage.drop offset)
  else none

namespace BaseBuffer

def getSize (b : BaseBuffer) : UInt32 := b.bufferSize

def setSize (b : BaseBuffer) (size : UInt32) : BaseBuffer :=
  if size = 0 then { b with bufferSize := size }
  else ⟨resize b.storageData size.toNat, size⟩

def setData (b : BaseBuffer) (data : List UInt8) (size : UInt32) : Option BaseBuffer := do
  let b := if b.bufferSize < size then b.setSize size else b
  let storage ← insertBytes b.storageData 0 data b.bufferSize.toNat
  pure { b with storageData := storage }

def appendData (b : BaseBuffer) (data : List UInt8) (size : UInt32) : Option BaseBuffer := do
  let endOffset := b.bufferSize
  let b := b.setSize (b.bufferSize + size)
  let storage ← insertBytes b.storageData endOffset.toNat data size.toNat
  pure { b with storageData := storage }

/-! ## Constructors -/

def default : BaseBuffer := ⟨[], 0⟩

def ofSize (size : UInt32) : BaseBuffer := default.setSize size

/-- `BaseBuffer(const std::vector<uint8_t> &)`: the `size_t` of the vector becomes
a `uint32_t`. -/
def ofVector (buffer : List UInt8) : Option BaseBuffer := do
  let b := default.setSize (UInt32.ofNat buffer.length)
  let storage ← insertBytes b.storageData 0 buffer b.bufferSize.toNat
  pure { b with storageData := storage }

def ofData (data : List UInt8) (size : UInt32) : Option BaseBuffer := default.setData data size

end BaseBuffer

/-! ## Calls -/

/-- How a buffer is made.  The bytes of a source are all of them. -/
inductive BufferConstructor where
  | default
  | ofSize (size : UInt32)
  | ofVector (buffer : List UInt8)
  | ofData (data : List UInt8)

def BufferConstructor.construct : BufferConstructor → Option BaseBuffer
  | .default => some BaseBuffer.default
  | .ofSize size => some (BaseBuffer.ofSize size)
  | .ofVector buffer => BaseBuffer.ofVector buffer
  | .ofData data => BaseBuffer.ofData data (UInt32.ofNat data.length)

/-- A call on a buffer, with a source of as many bytes as the call is told. -/
inductive BufferCall where
  | setSize (size : UInt32)
  | setData (data : List UInt8)
  | appendData (data : List UInt8)

def BaseBuffer.call (b : BaseBuffer) : BufferCall → Option BaseBuffer
  | .setSize size => some (b.setSize size)
  | .setData data => b.setData data (UInt32.ofNat data.length)
  | .appendData data => b.appendData data (UInt32.ofNat data.length)

/-- The calls one after another. -/
def BaseBuffer.calls (b : BaseBuffer) (calls : List BufferCall) : Option BaseBuffer :=
  calls.foldlM BaseBuffer.call b

end Xpcf
