import Mathlib.Data.BitVec
import Mathlib.Data.List.TakeWhile
import Xpcf.CodeLib.FirstMatch

/-!
# Text in an XML file

What `tinyxml2` does with one piece of text: `PrintString` of the printer, which
writes a string with its special characters as entities, and `GetStr` of
`StrPair`, which reads it back in place.

A file is a list of bytes.  A C string is a list of bytes without a zero; the
characters of a `String` are the bytes of its UTF-8 form.

Of the modes of `GetStr` this is what the reader asks for: line ends are always
normalized, entities are processed for attribute values and text.  White space is
never collapsed, since every document of the framework preserves it.
-/

namespace Xpcf.TinyXml

open CodeLib

abbrev Bytes : Type := List UInt8

/-- The byte of an ASCII character. -/
def ascii (c : Char) : UInt8 := UInt8.ofNat c.toNat

/-- The UTF-8 form of a text. -/
def bytesOf (s : String) : Bytes := s.toList.flatMap String.utf8EncodeChar

/-- A C string without its terminator. -/
structure CString where
  bytes : Bytes
  noNul : 0 ∉ bytes
  deriving DecidableEq

namespace CString

/-- What a function that stops at a zero sees of a buffer. -/
def ofBytes (buffer : Bytes) : CString where
  bytes := buffer.takeWhile (· ≠ 0)
  noNul h := by
    have hall := List.all_takeWhile (l := buffer) (p := (· ≠ 0))
    exact absurd rfl (of_decide_eq_true (List.all_eq_true.mp hall 0 h))

/-- `c_str()`. -/
def ofString (s : String) : CString := ofBytes (bytesOf s)

def empty : CString := ⟨[], List.not_mem_nil⟩

theorem ext {s t : CString} (h : s.bytes = t.bytes) : s = t := by
  cases s
  cases t
  cases h
  rfl

theorem bytes_ofBytes {buffer : Bytes} (h : 0 ∉ buffer) : (ofBytes buffer).bytes = buffer := by
  unfold ofBytes
  rw [List.takeWhile_eq_self_iff]
  intro b hb
  refine decide_eq_true fun hzero => h ?_
  rw [← hzero]
  exact hb

@[simp] theorem ofBytes_bytes (s : CString) : ofBytes s.bytes = s := ext (bytes_ofBytes s.noNul)

end CString

/-! ## Characters -/

/-- `XMLUtil::IsWhiteSpace`: `isspace`, of the bytes of one ASCII character. -/
def isWhiteSpace (p : UInt8) : Bool := p = ascii ' ' || (9 ≤ p && p ≤ 13)

def isAlpha (ch : UInt8) : Bool :=
  (ascii 'a' ≤ ch && ch ≤ ascii 'z') || (ascii 'A' ≤ ch && ch ≤ ascii 'Z')

def isDigit (ch : UInt8) : Bool := ascii '0' ≤ ch && ch ≤ ascii '9'

/-- `XMLUtil::IsNameStartChar`: every byte of a character beyond ASCII is one. -/
def isNameStartChar (ch : UInt8) : Bool :=
  128 ≤ ch || isAlpha ch || ch = ascii ':' || ch = ascii '_'

/-- `XMLUtil::IsNameChar`. -/
def isNameChar (ch : UInt8) : Bool :=
  isNameStartChar ch || isDigit ch || ch = ascii '.' || ch = ascii '-'

def carriageReturn : UInt8 := 13

def lineFeed : UInt8 := 10

/-! ## Entities -/

/-- `entities`: the patterns, and the character each is for. -/
def entities : List (Bytes × UInt8) :=
  [(bytesOf "quot", ascii '"'), (bytesOf "amp", ascii '&'), (bytesOf "apos", ascii '\''),
    (bytesOf "lt", ascii '<'), (bytesOf "gt", ascii '>')]

/-- `_entityFlag`. -/
def entityFlag (q : UInt8) : Bool := entities.any fun entity => entity.2 = q

/-- `_restrictedEntityFlag`. -/
def restrictedEntityFlag (q : UInt8) : Bool :=
  q = ascii '&' || q = ascii '<' || q = ascii '>'

/-- `ENTITY_RANGE`. -/
def entityRange : UInt8 := 64

/-- The body of the loop of `PrintString`.  A `char` beyond ASCII is negative and
in no range. -/
def printChar (restricted : Bool) (q : UInt8) : Bytes :=
  if q < entityRange ∧ (if restricted then restrictedEntityFlag q else entityFlag q) = true then
    match entities.find? fun entity => entity.2 = q with
    | some entity => ascii '&' :: (entity.1 ++ [ascii ';'])
    | none => []
  else [q]

/-- `XMLPrinter::PrintString`. -/
def printString (restricted : Bool) (p : CString) : Bytes := p.bytes.flatMap (printChar restricted)

/-! ## Character references -/

/-- `XMLUtil::ConvertUTF32ToUTF8`. -/
def convertUTF32ToUTF8 (input : UInt64) : Bytes :=
  let continuation (x : UInt64) : UInt8 := ((x ||| 0x80) &&& 0xBF).toUInt8
  if input < 0x80 then [(input ||| 0x00).toUInt8]
  else if input < 0x800 then
    [((input >>> 6) ||| 0xC0).toUInt8, continuation input]
  else if input < 0x10000 then
    [((input >>> 6 >>> 6) ||| 0xE0).toUInt8, continuation (input >>> 6), continuation input]
  else if input < 0x200000 then
    [((input >>> 6 >>> 6 >>> 6) ||| 0xF0).toUInt8, continuation (input >>> 6 >>> 6),
      continuation (input >>> 6), continuation input]
  else []

/-- The digit of a character in the base of a reference. -/
def decimalDigit (q : UInt8) : Option UInt32 :=
  if isDigit q then some (q - ascii '0').toUInt32 else none

def hexadecimalDigit (q : UInt8) : Option UInt32 :=
  if isDigit q then some (q - ascii '0').toUInt32
  else if ascii 'a' ≤ q ∧ q ≤ ascii 'f' then some ((q - ascii 'a').toUInt32 + 10)
  else if ascii 'A' ≤ q ∧ q ≤ ascii 'F' then some ((q - ascii 'A').toUInt32 + 10)
  else none

/-- The loops over the digits, which go from the last one to the first.  `mult` is
an `unsigned`, `ucs` an `unsigned long`. -/
def readDigits (digit : UInt8 → Option UInt32) (base : UInt32) :
    Bytes → UInt32 → UInt64 → Option UInt64
  | [], _, ucs => some ucs
  | q :: digits, mult, ucs =>
    match digit q with
    | none => none
    | some d => readDigits digit base digits (mult * base) (ucs + (mult * d).toUInt64)

/-- `XMLUtil::GetCharacterRef` on what stands behind `&#`: the bytes it writes and
what is left, or nothing for a malformed reference.  The digits begin behind the
last `x` or `#` before the semicolon. -/
def getCharacterRef (p : Bytes) : Option (Bytes × Bytes) :=
  match p with
  | [] => some ([], [ascii '#'])
  | c :: q =>
    if c = ascii 'x' then
      match splitAtFirst [ascii ';'] q with
      | none => none
      | some (text, rest) =>
        let digits := text.reverse.takeWhile (· ≠ ascii 'x')
        (readDigits hexadecimalDigit 16 digits 1 0).map fun ucs => (convertUTF32ToUTF8 ucs, rest)
    else
      match splitAtFirst [ascii ';'] p with
      | none => none
      | some (text, rest) =>
        let digits := text.reverse.takeWhile (· ≠ ascii '#')
        (readDigits decimalDigit 10 digits 1 0).map fun ucs => (convertUTF32ToUTF8 ucs, rest)

/-! ## Reading text -/

/-- What stands behind an ampersand. -/
inductive EntityRead where
  /-- Bytes to write, and what is left. -/
  | converted (value rest : Bytes)
  /-- A malformed character reference: the ampersand is written. -/
  | malformed
  /-- No entity: the read and the write pointer step on. -/
  | notFound

/-- The branch of `GetStr` for an ampersand, on what stands behind it. -/
def readEntity (p : Bytes) : EntityRead :=
  if [ascii '#'] <+: p then
    match getCharacterRef p.tail with
    | some (value, rest) => .converted value rest
    | none => .malformed
  else
    match entities.find? fun entity => entity.1 ++ [ascii ';'] <+: p with
    | some entity => .converted [entity.2] (p.drop (entity.1.length + 1))
    | none => .notFound

theorem length_getCharacterRef {p value rest : Bytes} (h : getCharacterRef p = some (value, rest)) :
    rest.length ≤ p.length + 1 := by
  unfold getCharacterRef at h
  split at h
  · cases h
    exact Nat.le_refl _
  · rename_i c q
    split at h
    · split at h
      · cases h
      · rename_i text rest1 hsplit
        obtain ⟨ucs, _, heq⟩ := Option.map_eq_some_iff.mp h
        cases heq
        have hlength := length_of_splitAtFirst (by simp) hsplit
        simp only [List.length_cons, List.length_nil] at hlength ⊢
        omega
    · split at h
      · cases h
      · rename_i text rest1 hsplit
        obtain ⟨ucs, _, heq⟩ := Option.map_eq_some_iff.mp h
        cases heq
        have hlength := length_of_splitAtFirst (by simp) hsplit
        simp only [List.length_cons, List.length_nil] at hlength ⊢
        omega

theorem length_readEntity {p value rest : Bytes} (h : readEntity p = .converted value rest) :
    rest.length ≤ p.length := by
  unfold readEntity at h
  split at h
  · rename_i hhash
    obtain ⟨q, rfl⟩ := hhash
    split at h
    · rename_i hread
      cases h
      have hlength := length_getCharacterRef hread
      simp only [List.singleton_append, List.tail_cons, List.length_cons] at hlength ⊢
      omega
    · cases h
  · split at h
    · cases h
      simp
    · cases h

/-- The second character of a line end is passed over with the first. -/
def skipIf (c : UInt8) (p : Bytes) : Bytes := if p.head? = some c then p.tail else p

theorem length_skipIf (c : UInt8) (p : Bytes) : (skipIf c p).length ≤ p.length := by
  unfold skipIf
  split
  · simp
  · exact Nat.le_refl _

/-- The loop of `StrPair::GetStr`: the read pointer is at `p`, and `q` has been
written.  `src` is the text as it is in the file; what is not written over is
still there. -/
def getStrLoop (processEntities : Bool) (src : Bytes) (p q : Bytes) : Bytes :=
  match p with
  | [] => q
  | c :: p =>
    if c = carriageReturn then
      getStrLoop processEntities src (skipIf lineFeed p) (q ++ [lineFeed])
    else if c = lineFeed then
      getStrLoop processEntities src (skipIf carriageReturn p) (q ++ [lineFeed])
    else if processEntities = true ∧ c = ascii '&' then
      match _h : readEntity p with
      | .converted value rest => getStrLoop processEntities src rest (q ++ value)
      | .malformed => getStrLoop processEntities src p (q ++ [c])
      | .notFound => getStrLoop processEntities src p (q ++ [src.getD q.length 0])
    else getStrLoop processEntities src p (q ++ [c])
  termination_by p.length
  decreasing_by
    all_goals simp only [List.length_cons]
    · exact Nat.lt_succ_of_le (length_skipIf _ _)
    · exact Nat.lt_succ_of_le (length_skipIf _ _)
    · exact Nat.lt_succ_of_le (length_readEntity _h)
    · exact Nat.lt_succ_self _
    · exact Nat.lt_succ_self _
    · exact Nat.lt_succ_self _

/-- `StrPair::GetStr` on the text between two pointers. -/
def getStr (processEntities : Bool) (src : Bytes) : CString :=
  .ofBytes (getStrLoop processEntities src src [])

end Xpcf.TinyXml
