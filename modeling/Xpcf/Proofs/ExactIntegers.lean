import Xpcf.CodeLib.IntegerTypes
import Xpcf.CodeLib.Numerals
import Xpcf.Proofs.ConfigureErrors

/-!
# Integers written by `configureValue`

`configureValue` converts the front of the text with a function that knows
64-bit numbers only, stores what it read in the width of the property, and looks
at the characters behind the number last.  So it can store a number that the text
does not denote: another one modulo the width of the property, or the number in
front of a text that it then refuses.

* `configuresExactly_iff`: the texts and properties for which it stores what the
  whole text denotes, or else nothing.
-/

namespace Xpcf

open CodeLib CodeLib.Exec

/-! ## The integer properties -/

/-- The property types that hold an integer. -/
inductive IntegerValueType where
  | integer
  | uinteger
  | long
  | ulong
  deriving DecidableEq

namespace IntegerValueType

abbrev type : IntegerValueType → ValueType
  | .integer => .integer
  | .uinteger => .uinteger
  | .long => .long
  | .ulong => .ulong

/-- The member that the property wraps. -/
def integerType : IntegerValueType → IntegerType
  | .integer => ⟨32, true⟩
  | .uinteger => ⟨32, false⟩
  | .long => ⟨64, true⟩
  | .ulong => ⟨64, false⟩

/-- The number that an item is. -/
def number : (t : IntegerValueType) → t.type.InnerType → Int
  | .integer, v => (v : BitVec 32).toInt
  | .uinteger, v => (v : BitVec 32).toNat
  | .long, v => (v : BitVec 64).toInt
  | .ulong, v => (v : BitVec 64).toNat

/-- The item that a number is stored as. -/
def item : (t : IntegerValueType) → Int → t.type.InnerType
  | .integer, n => BitVec.ofInt 32 n
  | .uinteger, n => BitVec.ofInt 32 n
  | .long, n => BitVec.ofInt 64 n
  | .ulong, n => BitVec.ofInt 64 n

/-- `std::stol` and `std::stoll`, or `std::stoul` and `std::stoull`. -/
def conversion (text : String) : IntegerValueType → Conversion Int
  | .integer => stol text
  | .uinteger => stoul text
  | .long => stol text
  | .ulong => stoul text

/-- The number is not out of range for the conversion. -/
def Converts (t : IntegerValueType) (n : Numeral) : Prop :=
  if t.integerType.signed then -2 ^ 63 ≤ n.value ∧ n.value < 2 ^ 63 else n.magnitude < 2 ^ 64

instance (t : IntegerValueType) (n : Numeral) : Decidable (t.Converts n) :=
  inferInstanceAs (Decidable (if t.integerType.signed then _ else _))

theorem number_item (t : IntegerValueType) (n : Int) :
    t.number (t.item n) = t.integerType.wrap n := by
  cases t with
  | integer => exact BitVec.toInt_ofInt n
  | uinteger =>
    show ((BitVec.ofInt 32 n).toNat : Int) = n % (2 ^ 32 : Nat)
    rw [BitVec.toNat_ofInt]
    omega
  | long => exact BitVec.toInt_ofInt n
  | ulong =>
    show ((BitVec.ofInt 64 n).toNat : Int) = n % (2 ^ 64 : Nat)
    rw [BitVec.toNat_ofInt]
    omega

/-- Numbers that are equal modulo `2^64` are stored alike. -/
theorem item_emod (t : IntegerValueType) (n : Int) : t.item (n % 2 ^ 64) = t.item n := by
  have hof : ∀ w ≤ 64, BitVec.ofInt w (n % 2 ^ 64) = BitVec.ofInt w n := by
    intro w hw
    have hdvd : ((2 ^ w : Nat) : Int) ∣ 2 ^ 64 := by
      exact_mod_cast Nat.pow_dvd_pow 2 hw
    apply BitVec.eq_of_toNat_eq
    rw [BitVec.toNat_ofInt, BitVec.toNat_ofInt, Int.emod_emod_of_dvd n hdvd]
  cases t with
  | integer | uinteger => exact hof 32 (by decide)
  | long | ulong => exact hof 64 (by decide)

section Conversions

variable {text : String} {t : IntegerValueType} {n : Numeral}

theorem conversion_of_none (hread : readNumeral text.toList = none) :
    t.conversion text = .invalidArgument := by
  cases t <;> simp [conversion, stol, stoul, hread]

theorem conversion_of_not_converts (hread : readNumeral text.toList = some n)
    (h : ¬ t.Converts n) : t.conversion text = .outOfRange := by
  cases t with
  | integer | long =>
    simp only [conversion, stol, hread]
    exact if_neg h
  | uinteger | ulong =>
    simp only [conversion, stoul, hread]
    exact if_neg h

theorem conversion_of_converts (hread : readNumeral text.toList = some n) (h : t.Converts n) :
    (t.conversion text).map t.item = .read (t.item n.value) n.length := by
  cases t with
  | integer | long =>
    simp only [conversion, stol, hread]
    exact congrArg (Conversion.map _) (if_pos h)
  | uinteger | ulong =>
    simp only [conversion, stoul, hread]
    refine (congrArg (Conversion.map _) (if_pos h)).trans ?_
    rw [Conversion.map, item_emod]

end Conversions

theorem setText_eq (floats : FloatText) (text : String) (index : Nat) (t : IntegerValueType) :
    setText floats text index t.type = setConverted ((t.conversion text).map t.item) index := by
  cases t <;> rfl

end IntegerValueType

/-! ## One call -/

section Calls

variable {floats : FloatText} {text : String} {index : Nat} {name : String}
  {access : AccessSpecifier} {t : IntegerValueType} {wrapped : Wrapped t.type.InnerType}

/-- The call throws and the property is what it was, or it returns `_SUCCESS` and the
item is the number that the whole text denotes. -/
def ConfiguresExactly (floats : FloatText) (text : String) (index : Nat) (name : String)
    (access : AccessSpecifier) (t : IntegerValueType) (wrapped : Wrapped t.type.InnerType) : Prop :=
  (∃ e, configureValue floats text index (.value name access t.type wrapped) =
      (.throws e, .value name access t.type wrapped)) ∨
    ∃ wrapped1 v,
      configureValue floats text index (.value name access t.type wrapped) =
        (.ok .success, .value name access t.type wrapped1) ∧
      wrapped1.item? index = some v ∧ Denotes text.toList (t.number v)

/-- A number is read from the front of the text: it is a value of the property's type
when nothing stands behind it, and otherwise the item holds it already. -/
def ExactlyReadable (text : String) (index : Nat) (t : IntegerValueType)
    (wrapped : Wrapped t.type.InnerType) : Prop :=
  ∀ n, readNumeral text.toList = some n → t.Converts n →
    if n.length = text.length then t.integerType.Holds n.value
    else wrapped.item? index = some (t.item n.value)

/-- Nothing is stored when there is no number to read. -/
theorem configureValue_unread (h : ∀ n, readNumeral text.toList = some n → ¬ t.Converts n) :
    ∃ e, configureValue floats text index (.value name access t.type wrapped) =
      (.throws e, .value name access t.type wrapped) := by
  by_cases hempty : text = ""
  · subst hempty
    exact ⟨_, rfl⟩
  · have hset : ∃ e, setText floats text index t.type wrapped = (.throws e, wrapped) := by
      rw [t.setText_eq]
      cases hread : readNumeral text.toList with
      | none =>
        rw [IntegerValueType.conversion_of_none hread]
        exact ⟨_, rfl⟩
      | some n =>
        rw [IntegerValueType.conversion_of_not_converts hread (h n hread)]
        exact ⟨_, rfl⟩
    obtain ⟨e, hset⟩ := hset
    rw [configureValue_eq hempty]
    simp only [onValues, checkProcessed_of_throws hset]
    exact ⟨_, rfl⟩

/-- The number is stored, and then the length of what was read decides. -/
theorem configureValue_read {n : Numeral} (hread : readNumeral text.toList = some n)
    (hconverts : t.Converts n) (hvalid : index < wrapped.length) :
    configureValue floats text index (.value name access t.type wrapped) =
      (if n.length = text.length then .ok .success
        else .throws (unexpectedValueType text t.type),
        .value name access t.type (wrapped.put index (t.item n.value))) := by
  have hempty : text ≠ "" := by
    intro hempty
    rw [hempty] at hread
    cases hread
  have hset : setText floats text index t.type wrapped =
      (.ok n.length, wrapped.put index (t.item n.value)) := by
    rw [t.setText_eq, IntegerValueType.conversion_of_converts hread hconverts]
    exact bind_run_of_ok (Wrapped.setValue_inside hvalid _)
  have htype : t.type ≠ .charStr := by cases t <;> decide
  rw [configureValue_eq hempty]
  simp only [onValues, checkProcessed_of_ok hset, htype, ne_eq, not_false_eq_true, and_true]
  by_cases hlength : n.length = text.length
  · simp [hlength]
  · rw [if_pos (Ne.symm hlength), if_neg hlength]

theorem exactlyReadable_of_read {n : Numeral} (hread : readNumeral text.toList = some n)
    (hconverts : t.Converts n) :
    ExactlyReadable text index t wrapped ↔
      if n.length = text.length then t.integerType.Holds n.value
      else wrapped.item? index = some (t.item n.value) := by
  constructor
  · intro h
    exact h n hread hconverts
  · intro h m hm _
    rw [hread] at hm
    rwa [← Option.some.inj hm]

/-- The number of the whole text is stored, in the width of the property. -/
theorem configuresExactly_of_whole {n : Numeral} (hread : readNumeral text.toList = some n)
    (hconverts : t.Converts n) (hvalid : index < wrapped.length)
    (hlength : n.length = text.length) :
    ConfiguresExactly floats text index name access t wrapped ↔ t.integerType.Holds n.value := by
  unfold ConfiguresExactly
  rw [configureValue_read hread hconverts hvalid, if_pos hlength]
  constructor
  · rintro (⟨e, h⟩ | ⟨wrapped1, v, h, hitem, hdenotes⟩)
    · cases h
    · cases h
      rw [Wrapped.item?_put _ hvalid] at hitem
      cases hitem
      obtain ⟨m, hm, -, hvalue⟩ := denotes_iff.mp hdenotes
      rw [hread] at hm
      rw [t.number_item, ← Option.some.inj hm] at hvalue
      exact hvalue.symm
  · intro hholds
    refine .inr ⟨_, t.item n.value, rfl, Wrapped.item?_put _ hvalid, denotes_iff.mpr ?_⟩
    refine ⟨n, hread, by rw [hlength, String.length_toList], ?_⟩
    rw [t.number_item]
    exact hholds.symm

/-- The text is refused, after the number in front of it was stored. -/
theorem configuresExactly_of_front {n : Numeral} (hread : readNumeral text.toList = some n)
    (hconverts : t.Converts n) (hvalid : index < wrapped.length)
    (hlength : n.length ≠ text.length) :
    ConfiguresExactly floats text index name access t wrapped ↔
      wrapped.item? index = some (t.item n.value) := by
  unfold ConfiguresExactly
  rw [configureValue_read hread hconverts hvalid, if_neg hlength, ← Wrapped.put_eq_self_iff hvalid]
  constructor
  · rintro (⟨e, h⟩ | ⟨wrapped1, v, h, -⟩)
    · simpa using (Prod.mk.inj h).2
    · cases h
  · intro hself
    rw [hself]
    exact .inl ⟨_, rfl⟩

/-- The call stores what the whole text denotes, or else nothing, exactly when the text
is readable as it is. -/
theorem configuresExactly_iff (floats : FloatText) (text : String) (index : Nat) (name : String)
    (access : AccessSpecifier) (t : IntegerValueType) (wrapped : Wrapped t.type.InnerType)
    (hvalid : index < wrapped.length) :
    ConfiguresExactly floats text index name access t wrapped ↔
      ExactlyReadable text index t wrapped := by
  by_cases hnumber : ∀ n, readNumeral text.toList = some n → ¬ t.Converts n
  · refine iff_of_true (.inl (configureValue_unread hnumber)) ?_
    intro n hread hconverts
    exact absurd hconverts (hnumber n hread)
  · push Not at hnumber
    obtain ⟨n, hread, hconverts⟩ := hnumber
    rw [exactlyReadable_of_read hread hconverts]
    by_cases hlength : n.length = text.length
    · rw [if_pos hlength]
      exact configuresExactly_of_whole hread hconverts hvalid hlength
    · rw [if_neg hlength]
      exact configuresExactly_of_front hread hconverts hvalid hlength

/-- The largest `int`, in hexadecimal. -/
theorem configuresExactly_iff_hexadecimal :
    ConfiguresExactly .none "0x7fffffff" 0 "x" .inOut .integer (.single 0#32) := by
  have hread : readNumeral "0x7fffffff".toList = some ⟨false, 2147483647, 10⟩ := by rfl
  refine (configuresExactly_iff .none "0x7fffffff" 0 "x" .inOut .integer (.single 0#32)
    (by decide)).mpr ?_
  rw [exactlyReadable_of_read hread (by decide)]
  decide

end Calls

/-- A text that is refused was stored up to the unit, a number above 32 bits is stored
modulo `2^32`, and a minus sign is lost. -/
theorem configureValue_inexact :
    ¬ ConfiguresExactly .none "12mm" 0 "x" .inOut .integer (.single 7#32) ∧
      ¬ ConfiguresExactly .none "4294967297" 0 "x" .inOut .integer (.single 7#32) ∧
      ¬ ConfiguresExactly .none "-1" 0 "x" .inOut .ulong (.single 7#64) := by
  refine ⟨?_, ?_, ?_⟩
  · have hread : readNumeral "12mm".toList = some ⟨false, 12, 2⟩ := by rfl
    rw [configuresExactly_of_front hread (by decide) (by decide) (by decide)]
    decide
  · have hread : readNumeral "4294967297".toList = some ⟨false, 4294967297, 10⟩ := by rfl
    rw [configuresExactly_of_whole hread (by decide) (by decide) (by decide)]
    decide
  · have hread : readNumeral "-1".toList = some ⟨true, 1, 2⟩ := by rfl
    rw [configuresExactly_of_whole hread (by decide) (by decide) (by decide)]
    decide

end Xpcf
