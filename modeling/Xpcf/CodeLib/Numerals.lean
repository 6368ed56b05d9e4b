import Mathlib.Data.List.TakeWhile

/-!
# Reading numerals

The number reading of the C library: `strtol` and its siblings with base zero,
where the text itself says the base (`0x` is sixteen, `0` is eight, anything
else ten).  White space and a sign may stand in front, and reading stops at the
first character that is no digit.

`readNumeral_toString` says that a decimal integer is read back, and
`denotes_iff` that the texts which are read to their last character are those
that the grammar `Denotes` gives a number.
-/

namespace CodeLib

/-- `isspace` in the C locale. -/
def isSpace (c : Char) : Bool :=
  c = ' ' || c = '\t' || c = '\n' || c = '\x0b' || c = '\x0c' || c = '\r'

/-- The value of a letter or a digit; 36 for every other character, which is no
digit in any base. -/
def digitValue (c : Char) : Nat :=
  if '0' ≤ c ∧ c ≤ '9' then c.toNat - '0'.toNat
  else if 'a' ≤ c ∧ c ≤ 'z' then c.toNat - 'a'.toNat + 10
  else if 'A' ≤ c ∧ c ≤ 'Z' then c.toNat - 'A'.toNat + 10
  else 36

def isDigitOf (base : Nat) (c : Char) : Bool :=
  digitValue c < base

/-- The number that the digits spell, most significant digit first. -/
def ofDigits (base : Nat) (digits : List Char) : Nat :=
  digits.foldl (fun n c => base * n + digitValue c) 0

/-- A number that was read: its sign, its magnitude, and how many characters
it took, white space and sign included. -/
structure Numeral where
  negative : Bool
  magnitude : Nat
  length : Nat
  deriving DecidableEq

def Numeral.value (n : Numeral) : Int :=
  if n.negative then -n.magnitude else n.magnitude

/-- The hexadecimal digits after a `0x`. -/
def hexDigits : List Char → List Char
  | '0' :: x :: rest => if x = 'x' ∨ x = 'X' then rest.takeWhile (isDigitOf 16) else []
  | _ => []

/-- The magnitude and how many characters it takes.  A `0x` without a digit
after it is the octal number `0`. -/
def readMagnitude (text : List Char) : Nat × Nat :=
  let hex := hexDigits text
  if hex ≠ [] then (ofDigits 16 hex, hex.length + 2)
  else
    let base := if text.head? = some '0' then 8 else 10
    let digits := text.takeWhile (isDigitOf base)
    (ofDigits base digits, digits.length)

/-- The sign, if there is one, and how many characters it takes. -/
def readSign (text : List Char) : Bool × Nat :=
  match text.head? with
  | some '-' => (true, 1)
  | some '+' => (false, 1)
  | _ => (false, 0)

/-- `none`: there is no number at the front of the text. -/
def readNumeral (text : List Char) : Option Numeral :=
  let rest := text.dropWhile isSpace
  let sign := readSign rest
  let magnitude := readMagnitude (rest.drop sign.2)
  if magnitude.2 = 0 then none
  else some ⟨sign.1, magnitude.1, (text.length - rest.length) + sign.2 + magnitude.2⟩

/-! ## Decimal digits -/

theorem digitValue_digitChar : ∀ d < 10, digitValue (Nat.digitChar d) = d := by
  decide

theorem isSpace_digitChar : ∀ d < 10, isSpace (Nat.digitChar d) = false := by
  decide

theorem ofDigits_append_digit (base : Nat) (digits : List Char) (c : Char) :
    ofDigits base (digits ++ [c]) = base * ofDigits base digits + digitValue c := by
  simp [ofDigits]

theorem ofDigits_toDigits (n : Nat) : ofDigits 10 (Nat.toDigits 10 n) = n := by
  induction n using Nat.strongRecOn with
  | ind n ih =>
    rw [Nat.toDigits_eq_if (by decide)]
    split
    · rename_i hlt
      show 10 * 0 + digitValue _ = n
      rw [digitValue_digitChar n hlt]
      omega
    · rename_i hge
      rw [ofDigits_append_digit, ih (n / 10) (by omega), digitValue_digitChar _ (by omega)]
      omega

/-- Every decimal digit is the character of a number below ten. -/
theorem exists_digitChar {n : Nat} {c : Char} (h : c ∈ Nat.toDigits 10 n) :
    ∃ d, d < 10 ∧ c = Nat.digitChar d := by
  induction n using Nat.strongRecOn with
  | ind n ih =>
    rw [Nat.toDigits_eq_if (by decide)] at h
    split at h
    · rename_i hlt
      exact ⟨n, hlt, List.mem_singleton.mp h⟩
    · rename_i hge
      rcases List.mem_append.mp h with hhigh | hlow
      · exact ih (n / 10) (by omega) hhigh
      · exact ⟨n % 10, by omega, List.mem_singleton.mp hlow⟩

theorem isDigitOf_toDigits {n : Nat} {c : Char} (h : c ∈ Nat.toDigits 10 n) :
    isDigitOf 10 c = true := by
  obtain ⟨d, hd, rfl⟩ := exists_digitChar h
  simp [isDigitOf, digitValue_digitChar d hd, hd]

/-- The first digit is zero for zero only. -/
theorem head_toDigits {n : Nat} (hn : n ≠ 0) :
    ∃ d digits, 0 < d ∧ d < 10 ∧ Nat.toDigits 10 n = Nat.digitChar d :: digits := by
  induction n using Nat.strongRecOn with
  | ind n ih =>
    rw [Nat.toDigits_eq_if (by decide)]
    split
    · rename_i hlt
      exact ⟨n, [], by omega, hlt, rfl⟩
    · rename_i hge
      obtain ⟨d, digits, hpos, hd, heq⟩ := ih (n / 10) (by omega) (by omega)
      exact ⟨d, digits ++ [_], hpos, hd, by rw [heq, List.cons_append]⟩

/-! ## Reading decimal numbers -/

theorem readMagnitude_toDigits (n : Nat) :
    readMagnitude (Nat.toDigits 10 n) = (n, (Nat.toDigits 10 n).length) := by
  by_cases hn : n = 0
  · subst hn
    decide
  · obtain ⟨d, digits, hpos, hd, heq⟩ := head_toDigits hn
    have hnonzero : Nat.digitChar d ≠ '0' := by
      rw [Ne, Nat.digitChar_eq_zero]
      omega
    have hhex : hexDigits (Nat.toDigits 10 n) = [] := by
      rw [heq]
      unfold hexDigits
      split
      · rename_i h
        exact absurd (List.cons.inj h).1 hnonzero
      · rfl
    have hhead : (Nat.toDigits 10 n).head? ≠ some '0' := by
      rw [heq]
      simpa using hnonzero
    have hall : (Nat.toDigits 10 n).takeWhile (isDigitOf 10) = Nat.toDigits 10 n :=
      List.takeWhile_eq_self_iff.mpr fun _ hc => isDigitOf_toDigits hc
    unfold readMagnitude
    simp only [hhex, hhead, hall, ofDigits_toDigits, ne_eq, not_true_eq_false, if_false]

theorem toDigits_cons (n : Nat) :
    ∃ d digits, d < 10 ∧ Nat.toDigits 10 n = Nat.digitChar d :: digits := by
  cases h : Nat.toDigits 10 n with
  | nil => exact absurd h Nat.toDigits_ne_nil
  | cons c digits =>
    obtain ⟨d, hd, rfl⟩ := exists_digitChar (n := n) (c := c) (by rw [h]; exact List.mem_cons_self)
    exact ⟨d, digits, hd, rfl⟩

theorem readSign_toDigits (n : Nat) : readSign (Nat.toDigits 10 n) = (false, 0) := by
  obtain ⟨d, digits, hd, heq⟩ := toDigits_cons n
  have hdigit : ∀ d < 10, readSign [Nat.digitChar d] = (false, 0) := by decide
  rw [heq]
  exact hdigit d hd

theorem dropSpace_toDigits (n : Nat) :
    (Nat.toDigits 10 n).dropWhile isSpace = Nat.toDigits 10 n := by
  obtain ⟨d, digits, hd, heq⟩ := toDigits_cons n
  rw [heq]
  exact List.dropWhile_cons_of_neg (by simp [isSpace_digitChar d hd])

theorem readNumeral_toDigits (n : Nat) :
    readNumeral (Nat.toDigits 10 n) = some ⟨false, n, (Nat.toDigits 10 n).length⟩ := by
  have hlength : (Nat.toDigits 10 n).length ≠ 0 := Nat.pos_iff_ne_zero.mp Nat.length_toDigits_pos
  unfold readNumeral
  simp only [dropSpace_toDigits, readSign_toDigits, List.drop_zero, readMagnitude_toDigits,
    hlength, if_false]
  simp

theorem readNumeral_neg_toDigits (n : Nat) :
    readNumeral ('-' :: Nat.toDigits 10 n) = some ⟨true, n, (Nat.toDigits 10 n).length + 1⟩ := by
  have hlength : (Nat.toDigits 10 n).length ≠ 0 := Nat.pos_iff_ne_zero.mp Nat.length_toDigits_pos
  have hspace : ('-' :: Nat.toDigits 10 n).dropWhile isSpace = '-' :: Nat.toDigits 10 n :=
    List.dropWhile_cons_of_neg (by decide)
  have hsign : readSign ('-' :: Nat.toDigits 10 n) = (true, 1) := rfl
  unfold readNumeral
  simp only [hspace, hsign, List.drop_succ_cons, List.drop_zero, readMagnitude_toDigits, hlength,
    if_false]
  simp [Nat.add_comm]

/-- A decimal integer is read back, to its last character. -/
theorem readNumeral_toString (z : Int) :
    ∃ n, readNumeral (toString z).toList = some n ∧ n.value = z ∧
      n.length = (toString z).length := by
  cases z with
  | ofNat n =>
    have htext : (toString (Int.ofNat n)).toList = Nat.toDigits 10 n := Nat.toList_repr
    refine ⟨_, by rw [htext]; exact readNumeral_toDigits n, rfl, ?_⟩
    rw [← String.length_toList, htext]
  | negSucc n =>
    have htext : (toString (Int.negSucc n)).toList = '-' :: Nat.toDigits 10 (n + 1) := by
      show ("-" ++ Nat.repr (n + 1)).toList = _
      rw [String.toList_append, Nat.toList_repr]
      rfl
    refine ⟨_, by rw [htext]; exact readNumeral_neg_toDigits (n + 1), ?_, ?_⟩
    · show -((n + 1 : Nat) : Int) = Int.negSucc n
      rfl
    · rw [← String.length_toList, htext]
      rfl

theorem toString_int_ne_empty (z : Int) : toString z ≠ "" := by
  obtain ⟨n, hread, -, -⟩ := readNumeral_toString z
  intro hempty
  rw [hempty] at hread
  cases hread

/-! ## Texts that are a number as a whole -/

/-- The texts of a magnitude: hexadecimal digits after `0x`, octal digits after
`0`, or decimal digits of which the first is not `0`. -/
inductive Spells : List Char → Nat → Prop
  | hexadecimal {x : Char} {digits : List Char} (hx : x = 'x' ∨ x = 'X') (hne : digits ≠ [])
      (hdigits : ∀ c ∈ digits, isDigitOf 16 c = true) :
    Spells ('0' :: x :: digits) (ofDigits 16 digits)
  | octal {digits : List Char} (hdigits : ∀ c ∈ digits, isDigitOf 8 c = true) :
    Spells ('0' :: digits) (ofDigits 8 digits)
  | decimal {digits : List Char} (hne : digits ≠ []) (hfirst : digits.head? ≠ some '0')
      (hdigits : ∀ c ∈ digits, isDigitOf 10 c = true) :
    Spells digits (ofDigits 10 digits)

/-- The texts of a number with sign `sign`. -/
inductive Signed : List Char → Nat → Int → Prop
  | none {m : Nat} : Signed [] m m
  | plus {m : Nat} : Signed ['+'] m m
  | minus {m : Nat} : Signed ['-'] m (-m)

/-- The whole text denotes the number: white space, a sign, a magnitude. -/
def Denotes (text : List Char) (value : Int) : Prop :=
  ∃ spaces sign digits m, text = spaces ++ sign ++ digits ∧ (∀ c ∈ spaces, isSpace c = true) ∧
    Spells digits m ∧ Signed sign m value

/-- The letters `x` and `X` are octal digits of no number. -/
theorem isDigitOf_eight_x {x : Char} (hx : x = 'x' ∨ x = 'X') : isDigitOf 8 x = false := by
  cases hx with
  | inl hx => subst hx; decide
  | inr hx => subst hx; decide

theorem hexDigits_of_octal {digits : List Char} (h : ∀ c ∈ digits, isDigitOf 8 c = true) :
    hexDigits ('0' :: digits) = [] := by
  unfold hexDigits
  split
  · rename_i x rest heq
    have hmem : x ∈ digits := by simp [(List.cons.inj heq).2]
    rw [if_neg]
    intro hx
    exact absurd (h x hmem) (by rw [isDigitOf_eight_x hx]; exact Bool.false_ne_true)
  · rfl

theorem hexDigits_of_head {text : List Char} (h : text.head? ≠ some '0') : hexDigits text = [] := by
  unfold hexDigits
  split
  · simp at h
  · rfl

theorem takeWhile_of_all {p : Char → Bool} {digits : List Char} (h : ∀ c ∈ digits, p c = true) :
    digits.takeWhile p = digits :=
  List.takeWhile_eq_self_iff.mpr h

theorem all_of_length_takeWhile {p : Char → Bool} {digits : List Char}
    (h : (digits.takeWhile p).length = digits.length) : ∀ c ∈ digits, p c = true := by
  apply List.takeWhile_eq_self_iff.mp
  exact (List.takeWhile_prefix p).eq_of_length h

theorem readMagnitude_of_spells {text : List Char} {m : Nat} (h : Spells text m) :
    readMagnitude text = (m, text.length) := by
  cases h with
  | @hexadecimal x digits hx hne hdigits =>
    have hhex : hexDigits ('0' :: x :: digits) = digits := by
      simp only [hexDigits, hx, if_true]
      exact takeWhile_of_all hdigits
    unfold readMagnitude
    simp [hhex, hne]
  | @octal digits hdigits =>
    have hall : ∀ c ∈ '0' :: digits, isDigitOf 8 c = true := by
      intro c hc
      cases hc with
      | head => decide
      | tail _ hc => exact hdigits c hc
    unfold readMagnitude
    simp only [hexDigits_of_octal hdigits, List.head?_cons, if_true, takeWhile_of_all hall]
    rfl
  | decimal hne hfirst hdigits =>
    unfold readMagnitude
    simp only [hexDigits_of_head hfirst, hfirst, if_false, takeWhile_of_all hdigits, ne_eq,
      not_true_eq_false]

theorem spells_of_readMagnitude {text : List Char} (hne : text ≠ [])
    (h : (readMagnitude text).2 = text.length) : Spells text (readMagnitude text).1 := by
  unfold readMagnitude at h ⊢
  by_cases hhex : hexDigits text ≠ []
  · simp only [if_pos hhex] at h ⊢
    unfold hexDigits at h hhex ⊢
    split at hhex
    · rename_i x rest
      split at hhex
      · rename_i hx
        simp only [if_pos hx, List.length_cons] at h ⊢
        have hlength : (rest.takeWhile (isDigitOf 16)).length = rest.length := by omega
        have hall := all_of_length_takeWhile hlength
        rw [takeWhile_of_all hall] at hhex ⊢
        exact .hexadecimal hx hhex hall
      · exact absurd rfl hhex
    · exact absurd rfl hhex
  · simp only [if_neg hhex] at h ⊢
    have hall := all_of_length_takeWhile h
    rw [takeWhile_of_all hall]
    by_cases hfirst : text.head? = some '0'
    · rw [if_pos hfirst] at hall ⊢
      obtain ⟨digits, rfl⟩ := List.head?_eq_some_iff.mp hfirst
      exact .octal fun c hc => hall c (List.mem_cons_of_mem _ hc)
    · rw [if_neg hfirst] at hall ⊢
      exact .decimal hne hfirst hall

/-- A magnitude starts with a digit, so with no white space and no sign. -/
theorem Spells.head {text : List Char} {m : Nat} (h : Spells text m) :
    ∃ c rest, text = c :: rest ∧ isDigitOf 10 c = true := by
  cases h with
  | hexadecimal hx hne hdigits => exact ⟨'0', _, rfl, by decide⟩
  | octal hdigits => exact ⟨'0', _, rfl, by decide⟩
  | decimal hne hfirst hdigits =>
    obtain ⟨c, rest, rfl⟩ := List.exists_cons_of_ne_nil hne
    exact ⟨c, rest, rfl, hdigits c List.mem_cons_self⟩

theorem isSpace_of_isDigit {c : Char} (h : isDigitOf 10 c = true) : isSpace c = false := by
  by_contra hspace
  rw [Bool.not_eq_false] at hspace
  simp only [isSpace, Bool.or_eq_true, decide_eq_true_eq] at hspace
  rcases hspace with ((((rfl | rfl) | rfl) | rfl) | rfl) | rfl <;> exact absurd h (by decide)

theorem readSign_of_isDigit {c : Char} {rest : List Char} (h : isDigitOf 10 c = true) :
    readSign (c :: rest) = (false, 0) := by
  unfold readSign
  split
  · rename_i heq
    cases heq
    exact absurd h (by decide)
  · rename_i heq
    cases heq
    exact absurd h (by decide)
  · rfl

/-- A sign in front of a magnitude is read, and it stands on no white space. -/
theorem readSign_of_signed {sign digits : List Char} {m : Nat} {value : Int}
    (hsign : Signed sign m value) (hdigits : Spells digits m) :
    ∃ negative, readSign (sign ++ digits) = (negative, sign.length) ∧
      (sign ++ digits).dropWhile isSpace = sign ++ digits ∧
      value = if negative then -(m : Int) else m := by
  cases hsign with
  | none =>
    obtain ⟨c, rest, rfl, hc⟩ := hdigits.head
    exact ⟨false, readSign_of_isDigit hc,
      List.dropWhile_cons_of_neg (by simp [isSpace_of_isDigit hc]), rfl⟩
  | plus => exact ⟨false, rfl, List.dropWhile_cons_of_neg (by decide), rfl⟩
  | minus => exact ⟨true, rfl, List.dropWhile_cons_of_neg (by decide), rfl⟩

theorem readSign_signed (text : List Char) (m : Nat) :
    (readSign text).2 ≤ text.length ∧
      Signed (text.take (readSign text).2) m (if (readSign text).1 then -(m : Int) else m) := by
  unfold readSign
  split
  · rename_i heq
    obtain ⟨rest, rfl⟩ := List.head?_eq_some_iff.mp heq
    exact ⟨by simp, .minus⟩
  · rename_i heq
    obtain ⟨rest, rfl⟩ := List.head?_eq_some_iff.mp heq
    exact ⟨by simp, .plus⟩
  · exact ⟨by simp, .none⟩

theorem dropWhile_append_of_all {p : Char → Bool} {before after : List Char}
    (h : ∀ c ∈ before, p c = true) : (before ++ after).dropWhile p = after.dropWhile p := by
  induction before with
  | nil => rfl
  | cons c before ih =>
    rw [List.cons_append, List.dropWhile_cons_of_pos (h c List.mem_cons_self)]
    exact ih fun c hc => h c (List.mem_cons_of_mem _ hc)

/-- The texts that are a number as a whole are those that are read to their last
character. -/
theorem denotes_iff {text : List Char} {value : Int} :
    Denotes text value ↔
      ∃ n, readNumeral text = some n ∧ n.length = text.length ∧ n.value = value := by
  constructor
  · rintro ⟨spaces, sign, digits, m, rfl, hspaces, hdigits, hsign⟩
    obtain ⟨negative, hread, hdrop, hvalue⟩ := readSign_of_signed hsign hdigits
    have hrest : (spaces ++ sign ++ digits).dropWhile isSpace = sign ++ digits := by
      rw [List.append_assoc, dropWhile_append_of_all hspaces, hdrop]
    have hpos : digits.length ≠ 0 := by
      obtain ⟨c, rest, rfl, -⟩ := hdigits.head
      simp
    refine ⟨⟨negative, m, (spaces ++ sign ++ digits).length⟩, ?_, rfl, hvalue.symm⟩
    unfold readNumeral
    simp only [hrest, hread, List.drop_left, readMagnitude_of_spells hdigits, if_neg hpos,
      Option.some.injEq, Numeral.mk.injEq, true_and, List.length_append]
    omega
  · rintro ⟨n, hread, hlength, rfl⟩
    unfold readNumeral at hread
    -- the white space that was skipped, the sign, and what is left
    have hsplit : text.takeWhile isSpace ++ text.dropWhile isSpace = text :=
      List.takeWhile_append_dropWhile
    have hspaces : ∀ c ∈ text.takeWhile isSpace, isSpace c = true := fun _ =>
      List.mem_takeWhile_imp
    revert hread hsplit
    generalize text.dropWhile isSpace = rest
    intro hread hsplit
    dsimp only at hread
    split at hread
    · cases hread
    · rename_i hpos
      cases hread
      obtain ⟨hle, hsigned⟩ := readSign_signed rest (readMagnitude (rest.drop (readSign rest).2)).1
      have htext : text.length = (text.takeWhile isSpace).length + rest.length := by
        rw [← List.length_append, hsplit]
      have hwhole : (readMagnitude (rest.drop (readSign rest).2)).2 =
          (rest.drop (readSign rest).2).length := by
        rw [List.length_drop]
        simp only at hlength
        omega
      refine ⟨text.takeWhile isSpace, rest.take (readSign rest).2,
        rest.drop (readSign rest).2, _, ?_, hspaces, ?_, hsigned⟩
      · rw [List.append_assoc, List.take_append_drop, hsplit]
      · apply spells_of_readMagnitude _ hwhole
        intro hnil
        rw [hnil] at hpos
        exact hpos rfl

end CodeLib
