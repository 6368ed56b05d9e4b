import Xpcf.Model.XmlText

/-!
# Printing a string and reading it back

`PrintString` writes entities only, and `GetStr` turns every one of them back, so
what is read is the string with its line ends normalized
(`getStr_printString`).  A string comes back as it was exactly when it holds no
carriage return.
-/

namespace Xpcf.TinyXml

open CodeLib

/-! ## Characters and their bytes -/

/-- The UTF-8 form of a list of characters. -/
def utf8 (s : List Char) : Bytes := s.flatMap String.utf8EncodeChar

theorem utf8_append (s t : List Char) : utf8 (s ++ t) = utf8 s ++ utf8 t := List.flatMap_append

theorem utf8_cons (c : Char) (s : List Char) : utf8 (c :: s) = String.utf8EncodeChar c ++ utf8 s :=
  List.flatMap_cons

/-- An ASCII character is its byte, and every byte of another one is beyond ASCII. -/
theorem utf8EncodeChar_cases (c : Char) :
    c.toNat < 128 ∧ String.utf8EncodeChar c = [ascii c] ∨
      128 ≤ c.toNat ∧ ∀ b ∈ String.utf8EncodeChar c, 128 ≤ b := by
  by_cases h : c.toNat < 128
  · refine .inl ⟨h, ?_⟩
    unfold String.utf8EncodeChar
    rw [if_pos (show c.val.toNat ≤ 0x7f from Nat.le_of_lt_succ h)]
    rfl
  · refine .inr ⟨by omega, ?_⟩
    have hvalue : ¬ c.val.toNat ≤ 0x7f := fun hle => h (Nat.lt_succ_of_le hle)
    have hbyte : ∀ n, 128 ≤ n % 256 → (128 : UInt8) ≤ UInt8.ofNat n := by
      intro n hn
      rw [UInt8.le_iff_toNat_le, UInt8.toNat_ofNat']
      exact hn
    unfold String.utf8EncodeChar
    dsimp only
    rw [if_neg hvalue]
    split_ifs
    all_goals
      simp only [List.mem_cons, List.not_mem_nil, or_false, forall_eq_or_imp, forall_eq]
      refine ⟨hbyte _ (by omega), ?_⟩
    · exact hbyte _ (by omega)
    · exact ⟨hbyte _ (by omega), hbyte _ (by omega)⟩
    · exact ⟨hbyte _ (by omega), hbyte _ (by omega), hbyte _ (by omega)⟩

/-- An ASCII character is in a text if its byte is in the UTF-8 form. -/
theorem mem_of_mem_utf8 {s : List Char} {d : Char} (hd : d.toNat < 128) (h : ascii d ∈ utf8 s) :
    d ∈ s := by
  obtain ⟨c, hc, hmem⟩ := List.mem_flatMap.mp h
  rcases utf8EncodeChar_cases c with ⟨hlt, heq⟩ | ⟨-, hbig⟩
  · rw [heq, List.mem_singleton] at hmem
    have hvalue := congrArg UInt8.toNat hmem
    simp only [ascii, UInt8.toNat_ofNat'] at hvalue
    have hsame : d.toNat = c.toNat := by omega
    rw [Char.toNat_inj.mp hsame]
    exact hc
  · have hvalue := UInt8.le_iff_toNat_le.mp (hbig _ hmem)
    simp only [ascii, UInt8.toNat_ofNat'] at hvalue
    exact absurd hvalue (by simp; omega)

/-- A test of characters that goes over to their bytes. -/
theorem forall_utf8 {s : List Char} {P : UInt8 → Prop}
    (hascii : ∀ c ∈ s, c.toNat < 128 → P (ascii c)) (hbeyond : ∀ b, 128 ≤ b → P b) :
    ∀ b ∈ utf8 s, P b := by
  intro b hb
  obtain ⟨c, hc, hmem⟩ := List.mem_flatMap.mp hb
  rcases utf8EncodeChar_cases c with ⟨hlt, heq⟩ | ⟨-, hbig⟩
  · rw [heq, List.mem_singleton] at hmem
    rw [hmem]
    exact hascii c hc hlt
  · exact hbeyond b (hbig b hmem)

/-- The characters of markup. -/
theorem utf8EncodeChar_mark {c : Char} (h : c ∈ [' ', '=', '"', '<', '>', '/']) :
    String.utf8EncodeChar c = [ascii c] := by
  rcases utf8EncodeChar_cases c with ⟨-, heq⟩ | ⟨hbig, -⟩
  · exact heq
  · simp only [List.mem_cons, List.not_mem_nil, or_false] at h
    rcases h with rfl | rfl | rfl | rfl | rfl | rfl <;> exact absurd hbig (by decide)

/-- A test of the ASCII characters. -/
theorem of_all_ascii {P : Char → Bool} {Q : UInt8 → Bool}
    (h : ((List.range 128).all fun n => !P (Char.ofNat n) || Q (UInt8.ofNat n)) = true) {c : Char}
    (hc : c.toNat < 128) (hP : P c = true) : Q (ascii c) = true := by
  have htest := List.all_eq_true.mp h c.toNat (List.mem_range.mpr hc)
  rw [Char.ofNat_toNat, hP] at htest
  exact htest

theorem of_all_beyond {Q : UInt8 → Bool}
    (h : ((List.range 256).all fun n => decide (n < 128) || Q (UInt8.ofNat n)) = true) {b : UInt8}
    (hb : 128 ≤ b) : Q b = true := by
  have htest := List.all_eq_true.mp h b.toNat (List.mem_range.mpr b.toNat_lt)
  have hbig : ¬ b.toNat < 128 := Nat.not_lt.mpr (UInt8.le_iff_toNat_le.mp hb)
  simpa [hbig, UInt8.ofNat_toNat] using htest

theorem bytesOf_injective {s t : String} (h : bytesOf s = bytesOf t) : s = t := by
  have hencoded : s.toList.utf8Encode = t.toList.utf8Encode := congrArg List.toByteArray h
  rw [String.utf8Encode_toList, String.utf8Encode_toList] at hencoded
  exact String.toByteArray_inj.mp hencoded

/-! ## Line ends -/

/-- A carriage return, a line feed and each pair of the two are one line feed. -/
def normalizeNewlines (s : Bytes) : Bytes :=
  match s with
  | [] => []
  | c :: s =>
    if c = carriageReturn then lineFeed :: normalizeNewlines (skipIf lineFeed s)
    else if c = lineFeed then lineFeed :: normalizeNewlines (skipIf carriageReturn s)
    else c :: normalizeNewlines s
  termination_by s.length
  decreasing_by
    · exact Nat.lt_succ_of_le (length_skipIf _ _)
    · exact Nat.lt_succ_of_le (length_skipIf _ _)
    · exact Nat.lt_succ_self _

theorem mem_of_mem_skipIf {c b : UInt8} {s : Bytes} (h : b ∈ skipIf c s) : b ∈ s := by
  unfold skipIf at h
  split at h
  · exact List.mem_of_mem_tail h
  · exact h

theorem skipIf_of_notMem {c : UInt8} {s : Bytes} (h : c ∉ s) : skipIf c s = s :=
  if_neg fun heq => h (List.mem_of_mem_head? heq)

theorem carriageReturn_ne_lineFeed : carriageReturn ≠ lineFeed := by decide

theorem carriageReturn_notMem_normalizeNewlines (s : Bytes) :
    carriageReturn ∉ normalizeNewlines s := by
  fun_induction normalizeNewlines s with
  | case1 => exact List.not_mem_nil
  | case2 s ih => simp [ih, carriageReturn_ne_lineFeed]
  | case3 s hne ih => simp [ih, carriageReturn_ne_lineFeed]
  | case4 c s hne _ ih => simp [ih, Ne.symm hne]

theorem normalizeNewlines_of_notMem {s : Bytes} (h : carriageReturn ∉ s) :
    normalizeNewlines s = s := by
  fun_induction normalizeNewlines s with
  | case1 => rfl
  | case2 s ih => exact absurd List.mem_cons_self h
  | case3 s hne ih =>
    have hs : carriageReturn ∉ s := fun hin => h (List.mem_cons_of_mem _ hin)
    rw [skipIf_of_notMem hs] at ih ⊢
    rw [ih hs]
  | case4 c s hne _ ih => rw [ih fun hin => h (List.mem_cons_of_mem _ hin)]

theorem normalizeNewlines_eq_self_iff {s : Bytes} :
    normalizeNewlines s = s ↔ carriageReturn ∉ s := by
  constructor
  · intro h
    rw [← h]
    exact carriageReturn_notMem_normalizeNewlines s
  · exact normalizeNewlines_of_notMem

/-- The bytes that stay are those of the text, and line feeds. -/
theorem mem_normalizeNewlines {s : Bytes} {b : UInt8} (h : b ∈ normalizeNewlines s) :
    b ∈ s ∨ b = lineFeed := by
  fun_induction normalizeNewlines s with
  | case1 => exact .inl h
  | case2 s ih =>
    rcases List.mem_cons.mp h with rfl | h
    · exact .inr rfl
    · exact (ih h).imp_left fun hin => List.mem_cons_of_mem _ (mem_of_mem_skipIf hin)
  | case3 s hne ih =>
    rcases List.mem_cons.mp h with rfl | h
    · exact .inr rfl
    · exact (ih h).imp_left fun hin => List.mem_cons_of_mem _ (mem_of_mem_skipIf hin)
  | case4 c s hne _ ih =>
    rcases List.mem_cons.mp h with rfl | h
    · exact .inl List.mem_cons_self
    · exact (ih h).imp_left (List.mem_cons_of_mem _)

theorem zero_notMem_normalizeNewlines {s : Bytes} (h : 0 ∉ s) : 0 ∉ normalizeNewlines s := by
  intro hin
  rcases mem_normalizeNewlines hin with hs | heq
  · exact h hs
  · exact absurd heq (by decide)

/-! ## The steps of the loop -/

section Loop

variable {processEntities : Bool} {src p q : Bytes} {c : UInt8}

theorem getStrLoop_nil : getStrLoop processEntities src [] q = q := by
  rw [getStrLoop]

theorem getStrLoop_carriageReturn :
    getStrLoop processEntities src (carriageReturn :: p) q =
      getStrLoop processEntities src (skipIf lineFeed p) (q ++ [lineFeed]) := by
  rw [getStrLoop, if_pos rfl]

theorem getStrLoop_lineFeed :
    getStrLoop processEntities src (lineFeed :: p) q =
      getStrLoop processEntities src (skipIf carriageReturn p) (q ++ [lineFeed]) := by
  rw [getStrLoop, if_neg (by decide), if_pos rfl]

theorem getStrLoop_plain (hreturn : c ≠ carriageReturn) (hfeed : c ≠ lineFeed)
    (hentity : processEntities = true → c ≠ ascii '&') :
    getStrLoop processEntities src (c :: p) q = getStrLoop processEntities src p (q ++ [c]) := by
  rw [getStrLoop, if_neg hreturn, if_neg hfeed, if_neg fun h => hentity h.1 h.2]

theorem getStrLoop_converted {value rest : Bytes} (h : readEntity p = .converted value rest) :
    getStrLoop true src (ascii '&' :: p) q = getStrLoop true src rest (q ++ value) := by
  rw [getStrLoop, if_neg (by decide), if_neg (by decide), if_pos ⟨rfl, rfl⟩]
  split
  · rename_i heq
    rw [h] at heq
    cases heq
    rfl
  · rename_i heq
    rw [h] at heq
    cases heq
  · rename_i heq
    rw [h] at heq
    cases heq

end Loop

/-- Without entities only the line ends change. -/
theorem getStrLoop_normalizes (src p q : Bytes) :
    getStrLoop false src p q = q ++ normalizeNewlines p := by
  fun_induction normalizeNewlines p generalizing q with
  | case1 => rw [getStrLoop_nil, List.append_nil]
  | case2 s ih => rw [getStrLoop_carriageReturn, ih, List.append_assoc, List.singleton_append]
  | case3 s hne ih => rw [getStrLoop_lineFeed, ih, List.append_assoc, List.singleton_append]
  | case4 c s hreturn hfeed ih =>
    rw [getStrLoop_plain hreturn hfeed (fun h => by cases h), ih, List.append_assoc,
      List.singleton_append]

theorem getStr_false (src : Bytes) : getStr false src = .ofBytes (normalizeNewlines src) := by
  unfold getStr
  rw [getStrLoop_normalizes, List.nil_append]

/-- A text without ampersand and carriage return is read as it is. -/
theorem getStr_plain {src : Bytes} (hentity : ascii '&' ∉ src) (hreturn : carriageReturn ∉ src)
    (processEntities : Bool) : getStr processEntities src = .ofBytes src := by
  have hloop : ∀ p q, ascii '&' ∉ p → carriageReturn ∉ p →
      getStrLoop processEntities src p q = q ++ p := by
    intro p
    induction p with
    | nil =>
      intro q _ _
      rw [getStrLoop_nil, List.append_nil]
    | cons c p ih =>
      intro q hentity hreturn
      obtain ⟨hc, hp⟩ := not_or.mp (mt List.mem_cons.mpr hentity)
      obtain ⟨hc1, hp1⟩ := not_or.mp (mt List.mem_cons.mpr hreturn)
      by_cases hfeed : c = lineFeed
      · rw [hfeed, getStrLoop_lineFeed, skipIf_of_notMem hp1, ih _ hp hp1, List.append_assoc,
          List.singleton_append]
      · rw [getStrLoop_plain (Ne.symm hc1) hfeed (fun _ => Ne.symm hc), ih _ hp hp1,
          List.append_assoc, List.singleton_append]
  unfold getStr
  rw [hloop src [] hentity hreturn, List.nil_append]

/-! ## Entities -/

/-- An entity is read as the character it was written for. -/
theorem readEntity_entity {entity : Bytes × UInt8} (h : entity ∈ entities) (rest : Bytes) :
    readEntity (entity.1 ++ ascii ';' :: rest) = .converted [entity.2] rest := by
  simp only [entities, List.mem_cons, List.not_mem_nil, or_false] at h
  rcases h with rfl | rfl | rfl | rfl | rfl <;>
  · simp [readEntity, entities, bytesOf, ascii, String.utf8EncodeChar]

/-- A character is written as it is, or as an entity if it has one. -/
theorem printChar_cases (restricted : Bool) (c : UInt8) :
    c ≠ ascii '&' ∧ printChar restricted c = [c] ∨
      ∃ entity ∈ entities, entity.2 = c ∧
        printChar restricted c = ascii '&' :: (entity.1 ++ [ascii ';']) := by
  have hflag : (if restricted then restrictedEntityFlag c else entityFlag c) = true →
      entityFlag c = true := by
    intro h
    split at h
    · unfold restrictedEntityFlag at h
      simp only [Bool.or_eq_true, decide_eq_true_eq] at h
      rcases h with (rfl | rfl) | rfl <;> decide
    · exact h
  unfold printChar
  by_cases hspecial : c < entityRange ∧
    (if restricted then restrictedEntityFlag c else entityFlag c) = true
  · rw [if_pos hspecial]
    obtain ⟨entity, hentity, heq⟩ := List.any_eq_true.mp (hflag hspecial.2)
    cases hfind : entities.find? fun entity => entity.2 = c with
    | none => exact absurd heq (List.find?_eq_none.mp hfind entity hentity)
    | some entity1 =>
      have hsame := List.find?_some hfind
      exact .inr ⟨entity1, List.mem_of_find?_eq_some hfind, of_decide_eq_true hsame, rfl⟩
  · rw [if_neg hspecial]
    refine .inl ⟨?_, rfl⟩
    rintro rfl
    refine hspecial ⟨by decide, ?_⟩
    cases restricted <;> decide

/-- The characters that have entities are no line ends. -/
theorem entity_ne_newline {entity : Bytes × UInt8} (h : entity ∈ entities) :
    entity.2 ≠ carriageReturn ∧ entity.2 ≠ lineFeed := by
  have hall : (entities.all fun entity =>
    decide (entity.2 ≠ carriageReturn ∧ entity.2 ≠ lineFeed)) = true := by decide
  exact of_decide_eq_true (List.all_eq_true.mp hall entity h)

theorem printChar_newline {restricted : Bool} {c : UInt8} (h : c = carriageReturn ∨ c = lineFeed) :
    printChar restricted c = [c] := by
  rcases h with rfl | rfl <;> cases restricted <;> decide

/-- What is printed begins with a line end exactly if the string does. -/
theorem head?_printed {restricted : Bool} {s : Bytes} {c : UInt8}
    (h : c = carriageReturn ∨ c = lineFeed) :
    (s.flatMap (printChar restricted)).head? = some c ↔ s.head? = some c := by
  cases s with
  | nil => rfl
  | cons d s =>
    rw [List.flatMap_cons]
    rcases printChar_cases restricted d with ⟨_, hprint⟩ | ⟨entity, hentity, rfl, hprint⟩
    · rw [hprint]
      rfl
    · rw [hprint]
      have hne := entity_ne_newline hentity
      have hampersand : ascii '&' ≠ c := by rcases h with rfl | rfl <;> decide
      simp only [List.cons_append, List.head?_cons, Option.some.injEq]
      refine iff_of_false hampersand fun heq => ?_
      rcases h with rfl | rfl
      · exact hne.1 heq
      · exact hne.2 heq

theorem tail_printed {restricted : Bool} {s : Bytes} {c : UInt8}
    (h : c = carriageReturn ∨ c = lineFeed) (hs : s.head? = some c) :
    (s.flatMap (printChar restricted)).tail = s.tail.flatMap (printChar restricted) := by
  obtain ⟨s, rfl⟩ : ∃ s1, s = c :: s1 := by
    cases s with
    | nil => cases hs
    | cons d s =>
      cases hs
      exact ⟨s, rfl⟩
  rw [List.flatMap_cons, printChar_newline h]
  rfl

/-- After a line end the loop goes on with what is printed for the rest. -/
theorem skip_printed {restricted : Bool} {s : Bytes} {c : UInt8}
    (h : c = carriageReturn ∨ c = lineFeed) :
    skipIf c (s.flatMap (printChar restricted)) =
      (skipIf c s).flatMap (printChar restricted) := by
  unfold skipIf
  by_cases hs : s.head? = some c
  · rw [if_pos ((head?_printed h).mpr hs), if_pos hs, tail_printed h hs]
  · rw [if_neg fun heq => hs ((head?_printed h).mp heq), if_neg hs]

/-- The loop over what was printed for a string. -/
theorem getStrLoop_printed (restricted : Bool) (src s q : Bytes) :
    getStrLoop true src (s.flatMap (printChar restricted)) q = q ++ normalizeNewlines s := by
  fun_induction normalizeNewlines s generalizing q with
  | case1 => rw [List.flatMap_nil, getStrLoop_nil, List.append_nil]
  | case2 s ih =>
    rw [List.flatMap_cons, printChar_newline (.inl rfl), List.singleton_append,
      getStrLoop_carriageReturn, skip_printed (.inr rfl), ih, List.append_assoc,
      List.singleton_append]
  | case3 s hne ih =>
    rw [List.flatMap_cons, printChar_newline (.inr rfl), List.singleton_append,
      getStrLoop_lineFeed, skip_printed (.inl rfl), ih, List.append_assoc, List.singleton_append]
  | case4 c s hreturn hfeed ih =>
    rw [List.flatMap_cons]
    rcases printChar_cases restricted c with ⟨hne, hprint⟩ | ⟨entity, hentity, rfl, hprint⟩
    · rw [hprint, List.singleton_append, getStrLoop_plain hreturn hfeed fun _ => hne, ih,
        List.append_assoc, List.singleton_append]
    · rw [hprint, List.cons_append, List.append_assoc, List.singleton_append,
        getStrLoop_converted (readEntity_entity hentity _), ih, List.append_assoc,
        List.singleton_append]

/-- A string that is printed and read back has its line ends normalized. -/
theorem getStr_printString (restricted : Bool) (s : CString) :
    (getStr true (printString restricted s)).bytes = normalizeNewlines s.bytes := by
  unfold getStr printString
  rw [getStrLoop_printed, List.nil_append,
    CString.bytes_ofBytes (zero_notMem_normalizeNewlines s.noNul)]

theorem getStr_printString_eq_iff (restricted : Bool) (s : CString) :
    getStr true (printString restricted s) = s ↔ carriageReturn ∉ s.bytes := by
  rw [← normalizeNewlines_eq_self_iff, ← getStr_printString restricted s]
  constructor
  · intro h
    rw [h]
  · exact CString.ext

end Xpcf.TinyXml
