import Xpcf.CodeLib.XmlGrammar
import Mathlib.Data.List.Infix

/-!
# Writing XML as it is

A writer that puts attribute values and texts between its markup as they are.
What it writes is read back exactly where the values are plain:

* `CharData.of_plain` and `CharData.eq_of_end`: a text before an end tag;
* `Attributes.of_plain` and `Attributes.eq_of_spelled`: the attributes of a tag;
* `Tag.start_of_spelled`, `Tag.empty_of_spelled`, `Tag.finish_of_spelled`: the tags.

A reading that gives a text back has consumed just this text.  Otherwise it would
have gone past the end tag, and the slash of that tag would be in what was read.
-/

namespace CodeLib.Xml

/-- The attributes with their values in quotes. -/
def spellAttributes (attributes : List (String × String)) : List Char :=
  attributes.flatMap fun entry =>
    ' ' :: (entry.1.toList ++ '=' :: '"' :: (entry.2.toList ++ ['"']))

/-- A text that is read as itself. -/
structure PlainText (text : List Char) : Prop where
  chars : ∀ c ∈ text, isChar c = true ∧ c ≠ '<' ∧ c ≠ '&' ∧ c ≠ '\r'
  no_end : ¬ cdataEnd <:+: text

/-- A value that is read as itself between double quotes. -/
def PlainValue (value : List Char) : Prop :=
  ∀ c ∈ value, isChar c = true ∧ c ≠ '<' ∧ c ≠ '&' ∧ c ≠ '"' ∧ c ≠ '\t' ∧ c ≠ '\n' ∧ c ≠ '\r'

structure PlainAttributes (attributes : List (String × String)) : Prop where
  names : ∀ entry ∈ attributes, IsName entry.1
  distinct : (attributes.map Prod.fst).Nodup
  values : ∀ entry ∈ attributes, PlainValue entry.2.toList

theorem isName_of_all {name : String} {c : Char} {rest : List Char} (h : name.toList = c :: rest)
    (hstart : isNameStart c = true) (hrest : rest.all isNameChar = true) : IsName name :=
  ⟨c, rest, h, hstart, List.all_eq_true.mp hrest⟩

/-! ## Lists that stop at the first character of another kind -/

theorem eq_of_append_stop {p : Char → Bool} {s t u v : List Char} {x y : Char}
    (hs : ∀ c ∈ s, p c = true) (ht : ∀ c ∈ t, p c = true) (hx : p x = false) (hy : p y = false)
    (h : s ++ x :: u = t ++ y :: v) : s = t ∧ x = y ∧ u = v := by
  induction s generalizing t with
  | nil =>
    cases t with
    | nil =>
      cases h
      exact ⟨rfl, rfl, rfl⟩
    | cons c t =>
      cases h
      rw [ht x List.mem_cons_self] at hx
      cases hx
  | cons c s ih =>
    cases t with
    | nil =>
      cases h
      rw [hs y List.mem_cons_self] at hy
      cases hy
    | cons d t =>
      obtain ⟨rfl, htail⟩ := List.cons.inj h
      obtain ⟨rfl, rfl, rfl⟩ := ih (fun c hc => hs c (List.mem_cons_of_mem _ hc))
        (fun c hc => ht c (List.mem_cons_of_mem _ hc)) htail
      exact ⟨rfl, rfl, rfl⟩

theorem blanks_nil : Blanks [] := fun _ hc => absurd hc List.not_mem_nil

theorem blanks_space : Blanks [' '] := by
  intro c hc
  rw [List.mem_singleton.mp hc]
  rfl

/-- Nothing blank stands before what is not blank. -/
theorem Blanks.eq_nil {s u v : List Char} {x y : Char} (hs : Blanks s) (hx : isBlank x = false)
    (hy : isBlank y = false) (h : s ++ x :: u = y :: v) : s = [] ∧ x = y ∧ u = v :=
  eq_of_append_stop (t := []) hs (fun _ hc => absurd hc List.not_mem_nil) hx hy h

theorem isBlank_of_isNameStart {c : Char} (h : isNameStart c = true) : isBlank c = false := by
  by_contra hblank
  rw [Bool.not_eq_false] at hblank
  unfold isBlank at hblank
  simp only [Bool.or_eq_true, decide_eq_true_eq] at hblank
  obtain ((rfl | rfl) | rfl) | rfl := hblank <;> exact absurd h (by decide)

theorem Reference.mem_ne {name : List Char} {c : Char} (h : Reference name c) :
    ∀ x ∈ name, x ≠ '/' ∧ x ≠ '"' := by
  cases h with
  | @entity name c h =>
    have hall : (predefinedEntities.all fun entry =>
        entry.1.toList.all fun x => x ≠ '/' ∧ x ≠ '"') = true := by decide
    intro x hx
    exact of_decide_eq_true (List.all_eq_true.mp (List.all_eq_true.mp hall (name, c) h) x hx)
  | decimal hne hdigits hvalue hchar =>
    rintro x (_ | ⟨_, hx⟩)
    · decide
    · constructor <;> rintro rfl <;> exact absurd (hdigits _ hx) (by decide)
  | hexadecimal hne hdigits hvalue hchar =>
    rintro x (_ | ⟨_, _ | ⟨_, hx⟩⟩)
    · decide
    · decide
    · constructor <;> rintro rfl <;> exact absurd (hdigits _ hx) (by decide)

/-! ## Character data -/

theorem length_normalizeLineEnds (body : List Char) :
    (normalizeLineEnds body).length ≤ body.length := by
  induction body using normalizeLineEnds.induct with
  | case1 => exact Nat.le_refl _
  | case2 rest ih =>
    rw [normalizeLineEnds]
    simp only [List.length_cons]
    omega
  | case3 rest hne ih =>
    rw [normalizeLineEnds]
    · simp only [List.length_cons]
      omega
    · exact hne
  | case4 c rest h1 h2 ih =>
    rw [normalizeLineEnds]
    · simp only [List.length_cons]
      omega
    · exact h1
    · exact h2

theorem count_normalizeLineEnds (body : List Char) :
    (normalizeLineEnds body).count '/' = body.count '/' := by
  induction body using normalizeLineEnds.induct with
  | case1 => rfl
  | case2 rest ih =>
    rw [normalizeLineEnds]
    simp [ih]
  | case3 rest hne ih =>
    rw [normalizeLineEnds]
    · simp [ih]
    · exact hne
  | case4 c rest h1 h2 ih =>
    rw [normalizeLineEnds]
    · rw [List.count_cons, List.count_cons, ih]
    · exact h1
    · exact h2

/-- What is consumed is no shorter than what it is read as, and its slashes are
read; where the two are equal, every character is read as itself. -/
theorem CharData.consumed {input data rest : List Char} (h : CharData input data rest) :
    ∃ raw, input = raw ++ rest ∧ data.length ≤ raw.length ∧ raw.count '/' ≤ data.count '/' ∧
      (data = raw → PlainText raw) := by
  induction h with
  | done rest => exact ⟨[], rfl, le_refl _, le_refl _, fun _ => ⟨by simp, by decide⟩⟩
  | @char c input data rest hchar hopen hreference hreturn hend h ih =>
    obtain ⟨raw, rfl, hlength, hcount, hplain⟩ := ih
    refine ⟨c :: raw, rfl, Nat.succ_le_succ hlength, ?_, fun heq => ?_⟩
    · rw [List.count_cons, List.count_cons]
      omega
    · have hraw := hplain (List.cons.inj heq).2
      refine ⟨?_, fun hpart => ?_⟩
      · rintro d (_ | ⟨_, hd⟩)
        · exact ⟨hchar, hopen, hreference, hreturn⟩
        · exact hraw.chars d hd
      · obtain hfront | hpart := List.infix_cons_iff.mp hpart
        · exact hend (hfront.trans (List.prefix_append (c :: raw) rest))
        · exact hraw.no_end hpart
  | returnNewline h ih =>
    obtain ⟨raw, rfl, hlength, hcount, _⟩ := ih
    refine ⟨'\r' :: '\n' :: raw, rfl, ?_, by simpa using hcount, fun heq => by cases heq⟩
    simp only [List.length_cons]
    omega
  | loneReturn hnewline h ih =>
    obtain ⟨raw, rfl, hlength, hcount, _⟩ := ih
    exact ⟨'\r' :: raw, rfl, Nat.succ_le_succ hlength, by simpa using hcount,
      fun heq => by cases heq⟩
  | @reference name c input data rest hname h ih =>
    obtain ⟨raw, rfl, hlength, hcount, _⟩ := ih
    have hslash : name.count '/' = 0 :=
      List.count_eq_zero.mpr fun hmem => (hname.mem_ne '/' hmem).1 rfl
    refine ⟨'&' :: (name ++ ';' :: raw), by simp, ?_, ?_, fun heq => ?_⟩
    · simp only [List.length_cons, List.length_append]
      omega
    · have hraw : ('&' :: (name ++ ';' :: raw)).count '/' = raw.count '/' := by
        simp [hslash]
      rw [hraw, List.count_cons]
      omega
    · have hlengths := congrArg List.length heq
      simp only [List.length_cons, List.length_append] at hlengths
      omega
  | @cdata body input data rest hbody hend h ih =>
    obtain ⟨raw, rfl, hlength, hcount, _⟩ := ih
    have hshorter := length_normalizeLineEnds body
    have hstart : cdataStart.length = 9 ∧ cdataStart.count '/' = 0 := by decide
    have hclose : cdataEnd.count '/' = 0 := by decide
    refine ⟨cdataStart ++ body ++ cdataEnd ++ raw, by simp, ?_, ?_, fun heq => ?_⟩
    · simp only [List.length_append]
      omega
    · simp only [List.count_append, count_normalizeLineEnds]
      omega
    · have hlengths := congrArg List.length heq
      simp only [List.length_append] at hlengths
      omega

/-- A text that is read before an end tag and is followed by one has been consumed. -/
theorem CharData.eq_of_end {input data x y : List Char}
    (h : CharData input data ('<' :: '/' :: x)) (hinput : input = data ++ '<' :: '/' :: y) :
    x = y ∧ PlainText data := by
  obtain ⟨raw, hraw, hlength, hcount, hplain⟩ := h.consumed
  rw [hinput] at hraw
  obtain ⟨gap, rfl, hgap⟩ | ⟨gap, rfl, hgap⟩ := List.append_eq_append_iff.mp hraw
  · match gap, hgap with
    | [], hgap =>
      cases hgap
      refine ⟨rfl, ?_⟩
      rw [List.append_nil] at hplain
      exact hplain rfl
    | [c], hgap => cases hgap
    | c :: d :: gap, hgap =>
      cases hgap
      -- the slash of the end tag was read
      have hslash : 0 < ('<' :: '/' :: gap).count '/' := List.count_pos_iff.mpr (by simp)
      rw [List.count_append] at hcount
      omega
  · rw [List.length_append] at hlength
    have hnil : gap = [] := List.length_eq_zero_iff.mp (by omega)
    subst hnil
    cases hgap
    rw [List.append_nil] at hplain ⊢
    exact ⟨rfl, hplain rfl⟩

theorem cdataEnd_prefix_of_append {s x : List Char} (h : cdataEnd <+: s ++ '<' :: x) :
    cdataEnd <+: s := by
  obtain ⟨t, ht⟩ := h
  match s, ht with
  | [], ht => cases ht
  | [a], ht => cases ht
  | [a, b], ht => cases ht
  | a :: b :: c :: s, ht =>
    cases ht
    exact ⟨s, rfl⟩

theorem CharData.of_plain {text : List Char} (h : PlainText text) (x : List Char) :
    CharData (text ++ '<' :: x) text ('<' :: x) := by
  induction text with
  | nil => exact .done _
  | cons c text ih =>
    obtain ⟨hchar, hopen, hreference, hreturn⟩ := h.chars c List.mem_cons_self
    refine .char hchar hopen hreference hreturn (fun hfront => ?_) (ih ⟨?_, ?_⟩)
    · exact h.no_end (cdataEnd_prefix_of_append (s := c :: text) hfront).isInfix
    · exact fun d hd => h.chars d (List.mem_cons_of_mem _ hd)
    · exact fun hpart => h.no_end (hpart.trans (List.suffix_cons c text).isInfix)

/-- Character data before a tag, in a text with blanks before one. -/
theorem CharData.eq_of_blanks {input data rest x y : List Char} {c : Char}
    (h : CharData input data rest) (hrest : rest = '<' :: x) {blanks : List Char}
    (hblanks : ∀ d ∈ blanks, d ≠ '<' ∧ d ≠ '&' ∧ d ≠ '\r') (hc : c ≠ '!')
    (hinput : input = blanks ++ '<' :: c :: y) : data = blanks ∧ x = c :: y := by
  induction h generalizing blanks with
  | done rest =>
    rw [hrest] at hinput
    cases blanks with
    | nil =>
      cases hinput
      exact ⟨rfl, rfl⟩
    | cons d blanks =>
      cases hinput
      exact absurd rfl (hblanks '<' List.mem_cons_self).1
  | char hchar hopen hreference hreturn hend h ih =>
    cases blanks with
    | nil =>
      cases hinput
      exact absurd rfl hopen
    | cons d blanks =>
      cases hinput
      obtain ⟨rfl, rfl⟩ := ih hrest (fun e he => hblanks e (List.mem_cons_of_mem _ he)) rfl
      exact ⟨rfl, rfl⟩
  | returnNewline h ih =>
    cases blanks with
    | nil => cases hinput
    | cons d blanks =>
      have hd := (List.cons.inj hinput).1
      exact absurd hd.symm (hblanks d List.mem_cons_self).2.2
  | loneReturn hnewline h ih =>
    cases blanks with
    | nil => cases hinput
    | cons d blanks =>
      have hd := (List.cons.inj hinput).1
      exact absurd hd.symm (hblanks d List.mem_cons_self).2.2
  | reference hname h ih =>
    cases blanks with
    | nil => cases hinput
    | cons d blanks =>
      have hd := (List.cons.inj hinput).1
      exact absurd hd.symm (hblanks d List.mem_cons_self).2.1
  | cdata hbody hend h ih =>
    cases blanks with
    | nil =>
      have hbang := (List.cons.inj (List.cons.inj hinput).2).1
      exact absurd hbang.symm hc
    | cons d blanks =>
      have hd := (List.cons.inj hinput).1
      exact absurd hd.symm (hblanks d List.mem_cons_self).1

/-- Blanks are character data that is blank. -/
theorem CharData.of_blanks {blanks : List Char} (h : Blanks blanks) (x : List Char) :
    CharData (blanks ++ '<' :: x) (normalizeLineEnds blanks) ('<' :: x) ∧
      Blanks (normalizeLineEnds blanks) := by
  induction blanks using normalizeLineEnds.induct with
  | case1 => exact ⟨.done _, h⟩
  | case2 rest ih =>
    obtain ⟨hdata, hblanks⟩ := ih fun c hc => h c (by simp [hc])
    rw [normalizeLineEnds]
    refine ⟨.returnNewline hdata, ?_⟩
    rintro c (_ | ⟨_, hc⟩)
    · rfl
    · exact hblanks c hc
  | case3 rest hne ih =>
    obtain ⟨hdata, hblanks⟩ := ih fun c hc => h c (List.mem_cons_of_mem _ hc)
    rw [normalizeLineEnds]
    · refine ⟨.loneReturn ?_ hdata, ?_⟩
      · cases rest with
        | nil => exact fun heq => absurd (Option.some.inj heq) (by decide)
        | cons c rest =>
          intro heq
          rw [Option.some.inj heq] at hne
          exact hne rest rfl
      · rintro c (_ | ⟨_, hc⟩)
        · rfl
        · exact hblanks c hc
    · exact hne
  | case4 c rest h1 h2 ih =>
    obtain ⟨hdata, hblanks⟩ := ih fun d hd => h d (List.mem_cons_of_mem _ hd)
    have hc := h c List.mem_cons_self
    have hchar : isChar c = true ∧ c ≠ '<' ∧ c ≠ '&' ∧ c ≠ ']' := by
      unfold isBlank at hc
      simp only [Bool.or_eq_true, decide_eq_true_eq] at hc
      obtain ((rfl | rfl) | rfl) | rfl := hc <;> decide
    rw [normalizeLineEnds]
    · refine ⟨.char hchar.1 hchar.2.1 hchar.2.2.1 (fun heq => ?_) (fun hfront => ?_) hdata, ?_⟩
      · exact h2 heq
      · obtain ⟨t, ht⟩ := hfront
        exact hchar.2.2.2 (List.cons.inj ht).1.symm
      · rintro d (_ | ⟨_, hd⟩)
        · exact hc
        · exact hblanks d hd
    · exact h1
    · exact h2

theorem CharData.exists_of_blanks {blanks : List Char} (h : Blanks blanks) :
    ∃ data : String, Blanks data.toList ∧
      ∀ x, CharData (blanks ++ '<' :: x) data.toList ('<' :: x) := by
  refine ⟨String.ofList (normalizeLineEnds blanks), ?_, fun x => ?_⟩
  · rw [String.toList_ofList]
    exact (CharData.of_blanks h []).2
  · rw [String.toList_ofList]
    exact (CharData.of_blanks h x).1

/-! ## Attributes -/

theorem AttData.consumed {input data rest : List Char} (h : AttData '"' input data rest) :
    ∃ raw, input = raw ++ '"' :: rest ∧ '"' ∉ raw ∧ data.length ≤ raw.length ∧
      (data = raw → PlainValue raw) := by
  induction h with
  | done rest => exact ⟨[], rfl, List.not_mem_nil, Nat.le_refl _, fun _ c hc => by cases hc⟩
  | @char c input data rest hchar hquote hopen hreference htab hnewline hreturn h ih =>
    obtain ⟨raw, rfl, hnone, hlength, hplain⟩ := ih
    refine ⟨c :: raw, rfl, ?_, Nat.succ_le_succ hlength, fun heq => ?_⟩
    · rw [List.mem_cons, not_or]
      exact ⟨Ne.symm hquote, hnone⟩
    · rintro d (_ | ⟨_, hd⟩)
      · exact ⟨hchar, hopen, hreference, hquote, htab, hnewline, hreturn⟩
      · exact hplain (List.cons.inj heq).2 d hd
  | @blank c input data rest hblank h ih =>
    obtain ⟨raw, rfl, hnone, hlength, _⟩ := ih
    refine ⟨c :: raw, rfl, ?_, Nat.succ_le_succ hlength, fun heq => ?_⟩
    · rw [List.mem_cons, not_or]
      refine ⟨?_, hnone⟩
      rintro rfl
      exact absurd hblank (by decide)
    · have hc := (List.cons.inj heq).1
      rw [← hc] at hblank
      exact absurd hblank (by decide)
  | returnNewline h ih =>
    obtain ⟨raw, rfl, hnone, hlength, _⟩ := ih
    refine ⟨'\r' :: '\n' :: raw, rfl, by simpa using hnone, ?_, fun heq => by cases heq⟩
    simp only [List.length_cons]
    omega
  | loneReturn hnewline h ih =>
    obtain ⟨raw, rfl, hnone, hlength, _⟩ := ih
    exact ⟨'\r' :: raw, rfl, by simpa using hnone, Nat.succ_le_succ hlength,
      fun heq => by cases heq⟩
  | @reference name c input data rest hname h ih =>
    obtain ⟨raw, rfl, hnone, hlength, _⟩ := ih
    have hquote : '"' ∉ name := fun hmem => (hname.mem_ne '"' hmem).2 rfl
    refine ⟨'&' :: (name ++ ';' :: raw), by simp, by simp [hquote, hnone], ?_, fun heq => ?_⟩
    · simp only [List.length_cons, List.length_append]
      omega
    · have hlengths := congrArg List.length heq
      simp only [List.length_cons, List.length_append] at hlengths
      omega

/-- A value that is read between quotes where it stands between quotes has been
consumed. -/
theorem AttData.eq_of_quoted {input data rest y : List Char} (h : AttData '"' input data rest)
    (hinput : input = data ++ '"' :: y) : rest = y ∧ PlainValue data := by
  obtain ⟨raw, hraw, hnone, hlength, hplain⟩ := h.consumed
  rw [hinput] at hraw
  obtain ⟨gap, rfl, hgap⟩ | ⟨gap, rfl, hgap⟩ := List.append_eq_append_iff.mp hraw
  · cases gap with
    | nil =>
      cases hgap
      rw [List.append_nil] at hplain
      exact ⟨rfl, hplain rfl⟩
    | cons c gap =>
      cases hgap
      exact absurd (List.mem_append_right _ List.mem_cons_self) hnone
  · rw [List.length_append] at hlength
    have hnil : gap = [] := List.length_eq_zero_iff.mp (by omega)
    subst hnil
    cases hgap
    rw [List.append_nil] at hplain ⊢
    exact ⟨rfl, hplain rfl⟩

theorem AttData.of_plain {value : List Char} (h : PlainValue value) (rest : List Char) :
    AttData '"' (value ++ '"' :: rest) value rest := by
  induction value with
  | nil => exact .done rest
  | cons c value ih =>
    obtain ⟨hchar, hopen, hreference, hquote, htab, hnewline, hreturn⟩ := h c List.mem_cons_self
    exact .char hchar hquote hopen hreference htab hnewline hreturn
      (ih fun d hd => h d (List.mem_cons_of_mem _ hd))

theorem spellAttributes_cons (name value : String) (attributes : List (String × String)) :
    spellAttributes ((name, value) :: attributes) =
      ' ' :: (name.toList ++ '=' :: '"' ::
        (value.toList ++ '"' :: spellAttributes attributes)) := by
  unfold spellAttributes
  rw [List.flatMap_cons]
  simp

/-- Attributes that are read where attributes are written, or none, are the ones that
are written. -/
theorem Attributes.eq_of_spelled {input rest : List Char} {attributes : List (String × String)}
    (h : Attributes input attributes rest) {written : List (String × String)}
    (hwritten : written = attributes ∨ written = []) {c : Char} {y : List Char}
    (hc : isBlank c = false) (hinput : input = spellAttributes written ++ c :: y) :
    written = attributes ∧ rest = c :: y ∧
      ∀ entry ∈ attributes, IsName entry.1 ∧ PlainValue entry.2.toList := by
  induction h generalizing written with
  | done rest =>
    have hnil : written = [] := hwritten.elim id id
    subst hnil
    exact ⟨rfl, hinput, fun entry hentry => by cases hentry⟩
  | @more blanks blanks1 blanks2 input input1 rest name value quote attributes hne hblanks
      hname hblanks1 hblanks2 hquote hvalue h ih =>
    obtain ⟨first, others, hlist, hstart, _⟩ := hname
    have hfirst := isBlank_of_isNameStart hstart
    obtain rfl | rfl := hwritten
    · rw [spellAttributes_cons, hlist] at hinput
      have heq : blanks ++ first :: (others ++ (blanks1 ++ '=' :: (blanks2 ++ quote :: input))) =
          [' '] ++ first :: (others ++ '=' :: '"' ::
            (value.toList ++ '"' :: (spellAttributes attributes ++ c :: y))) := by
        simpa using hinput
      obtain ⟨_, _, hname1⟩ := eq_of_append_stop hblanks blanks_space hfirst hfirst heq
      obtain ⟨_, _, hequals⟩ :=
        hblanks1.eq_nil (by decide) (by decide) (List.append_cancel_left hname1)
      have hnotblank : isBlank quote = false := by
        obtain rfl | rfl := hquote <;> decide
      obtain ⟨_, rfl, hrest⟩ := hblanks2.eq_nil hnotblank (by decide) hequals
      obtain ⟨hinput1, hplain⟩ := hvalue.eq_of_quoted hrest
      obtain ⟨_, rfl, hall⟩ := ih (Or.inl rfl) hinput1
      refine ⟨rfl, rfl, ?_⟩
      rintro entry (_ | ⟨_, hentry⟩)
      · exact ⟨⟨first, others, hlist, hstart, by assumption⟩, hplain⟩
      · exact hall entry hentry
    · cases blanks with
      | nil => exact absurd rfl hne
      | cons d blanks =>
        have hd := (List.cons.inj hinput).1
        rw [← hd, hblanks d List.mem_cons_self] at hc
        cases hc

theorem Attributes.of_plain {attributes : List (String × String)}
    (hnames : ∀ entry ∈ attributes, IsName entry.1)
    (hvalues : ∀ entry ∈ attributes, PlainValue entry.2.toList) (rest : List Char) :
    Attributes (spellAttributes attributes ++ rest) attributes rest := by
  induction attributes with
  | nil => exact .done rest
  | cons entry attributes ih =>
    obtain ⟨name, value⟩ := entry
    have hothers := ih (fun e he => hnames e (List.mem_cons_of_mem _ he))
      (fun e he => hvalues e (List.mem_cons_of_mem _ he))
    have hdata := AttData.of_plain (hvalues (name, value) List.mem_cons_self)
      (spellAttributes attributes ++ rest)
    have h := Attributes.more (List.cons_ne_nil ' ' []) blanks_space
      (hnames (name, value) List.mem_cons_self) blanks_nil blanks_nil (Or.inl rfl) hdata hothers
    rw [spellAttributes_cons]
    simpa using h

/-! ## Tags -/

namespace Tag

variable {input rest : List Char} {tag : List Token} {name : String}
  {attributes : List (String × String)}

theorem input_eq (h : Tag input tag rest) : ∃ x, input = '<' :: x := by
  cases h with
  | start hname hattributes hnodup hblanks => exact ⟨_, rfl⟩
  | empty hname hattributes hnodup hblanks => exact ⟨_, rfl⟩
  | finish hname hblanks => exact ⟨_, rfl⟩

theorem isName_of_start (h : Tag input tag rest)
    (hhead : tag.head? = some (.start name attributes)) : IsName name := by
  cases h with
  | start hname hattributes hnodup hblanks =>
    cases hhead
    exact hname
  | empty hname hattributes hnodup hblanks =>
    cases hhead
    exact hname
  | finish hname hblanks => cases hhead

/-- A start that is read where a start is written, with its attributes or with none. -/
theorem start_of_spelled (h : Tag input tag rest)
    (hhead : tag.head? = some (.start name attributes)) {written : List (String × String)}
    (hwritten : written = attributes ∨ written = []) {c : Char} {y : List Char}
    (hc : isBlank c = false)
    (hinput : input = '<' :: (name.toList ++ (spellAttributes written ++ c :: y))) :
    written = attributes ∧ PlainAttributes attributes ∧
      (tag = [.start name attributes] ∧ c = '>' ∧ rest = y ∨
        tag = [.start name attributes, .text "", .finish name] ∧ c = '/' ∧ y = '>' :: rest) := by
  cases h with
  | start hname hattributes hnodup hblanks =>
    cases hhead
    have hafter := List.append_cancel_left (List.cons.inj hinput).2
    obtain ⟨hsame, hrest, hall⟩ := hattributes.eq_of_spelled hwritten hc hafter
    obtain ⟨_, rfl, rfl⟩ := hblanks.eq_nil (by decide) hc hrest
    exact ⟨hsame, ⟨fun e he => (hall e he).1, hnodup, fun e he => (hall e he).2⟩,
      Or.inl ⟨rfl, rfl, rfl⟩⟩
  | empty hname hattributes hnodup hblanks =>
    cases hhead
    have hafter := List.append_cancel_left (List.cons.inj hinput).2
    obtain ⟨hsame, hrest, hall⟩ := hattributes.eq_of_spelled hwritten hc hafter
    obtain ⟨_, rfl, rfl⟩ := hblanks.eq_nil (by decide) hc hrest
    exact ⟨hsame, ⟨fun e he => (hall e he).1, hnodup, fun e he => (hall e he).2⟩,
      Or.inr ⟨rfl, rfl, rfl⟩⟩
  | finish hname hblanks => cases hhead

theorem finish_of_spelled (h : Tag input tag rest) (hhead : tag.head? = some (.finish name))
    {y : List Char} (hinput : input = '<' :: '/' :: (name.toList ++ '>' :: y)) :
    tag = [.finish name] ∧ rest = y ∧ IsName name := by
  cases h with
  | start hname hattributes hnodup hblanks => cases hhead
  | empty hname hattributes hnodup hblanks => cases hhead
  | finish hname hblanks =>
    cases hhead
    have hafter := List.append_cancel_left (List.cons.inj (List.cons.inj hinput).2).2
    obtain ⟨_, _, rfl⟩ := hblanks.eq_nil (by decide) (by decide) hafter
    exact ⟨rfl, rfl, hname⟩

/-- An end is written with a slash after its bracket. -/
theorem input_of_finish (h : Tag input tag rest) (hhead : tag.head? = some (.finish name)) :
    ∃ x, input = '<' :: '/' :: x := by
  cases h with
  | start hname hattributes hnodup hblanks => cases hhead
  | empty hname hattributes hnodup hblanks => cases hhead
  | finish hname hblanks => exact ⟨_, rfl⟩

theorem start_of_plain (hname : IsName name) (hplain : PlainAttributes attributes)
    (rest : List Char) :
    Tag ('<' :: (name.toList ++ (spellAttributes attributes ++ '>' :: rest)))
      [.start name attributes] rest :=
  .start hname (Attributes.of_plain hplain.names hplain.values ([] ++ '>' :: rest))
    hplain.distinct blanks_nil

theorem empty_of_plain (hname : IsName name) (hplain : PlainAttributes attributes)
    (rest : List Char) :
    Tag ('<' :: (name.toList ++ (spellAttributes attributes ++ '/' :: '>' :: rest)))
      [.start name attributes, .text "", .finish name] rest :=
  .empty hname (Attributes.of_plain hplain.names hplain.values ([] ++ '/' :: '>' :: rest))
    hplain.distinct blanks_nil

theorem finish_of_plain (hname : IsName name) (rest : List Char) :
    Tag ('<' :: '/' :: (name.toList ++ '>' :: rest)) [.finish name] rest :=
  .finish hname blanks_nil

end Tag

end CodeLib.Xml
