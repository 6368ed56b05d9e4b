import Xpcf.Model.XmlDocument
import Xpcf.Proofs.XmlText

/-!
# Texts that the parser reads

`Layout` describes how nodes may stand in a file: blanks between markup, an
attribute or a text in any spelling that reads back as its value, an element
without children in one tag or in two.  `parseDeep` reads every layout as its nodes
(`parseDeep_layout`), whoever wrote it.

A plain text takes all the bytes up to the next tag, so no blanks may follow or
precede it: `afterText` tells that the last node was one.
-/

namespace Xpcf.TinyXml

open CodeLib

/-! ## Spellings -/

def IsName (name : CString) : Prop :=
  ∃ c rest, name.bytes = c :: rest ∧ isNameStartChar c = true ∧ ∀ d ∈ rest, isNameChar d = true

theorem isName_iff {name : CString} :
    IsName name ↔ name.bytes.head?.any isNameStartChar = true ∧
      name.bytes.tail.all isNameChar = true := by
  constructor
  · rintro ⟨c, rest, hbytes, hstart, hrest⟩
    rw [hbytes]
    exact ⟨hstart, List.all_eq_true.mpr hrest⟩
  · rintro ⟨hstart, hrest⟩
    cases hbytes : name.bytes with
    | nil =>
      rw [hbytes] at hstart
      cases hstart
    | cons c rest =>
      rw [hbytes] at hstart hrest
      exact ⟨c, rest, hbytes, hstart, List.all_eq_true.mp hrest⟩

instance (name : CString) : Decidable (IsName name) := decidable_of_iff _ isName_iff.symm

def Blank (s : Bytes) : Prop := ∀ b ∈ s, isWhiteSpace b = true

theorem blank_nil : Blank [] := fun _ h => absurd h List.not_mem_nil

theorem Blank.append {s t : Bytes} (hs : Blank s) (ht : Blank t) : Blank (s ++ t) := by
  intro b hb
  rcases List.mem_append.mp hb with h | h
  · exact hs b h
  · exact ht b h

/-- How attributes are written: each behind a blank and in double quotes, in a
spelling that is read as its value. -/
inductive AttributesLayout : List (CString × CString) → Bytes → Prop where
  | done : AttributesLayout [] []
  | more {name : CString} {attributes : List (CString × CString)} {raw s : Bytes}
    (hname : IsName name) (hnul : 0 ∉ raw) (hraw : ascii '"' ∉ raw)
    (h : AttributesLayout attributes s) :
    AttributesLayout ((name, getStr true raw) :: attributes)
      (ascii ' ' :: (name.bytes ++ ascii '=' :: ascii '"' :: (raw ++ ascii '"' :: s)))

/-- The nodes without children, text and declarations apart. -/
inductive LeafLayout : XMLNode → Bytes → Prop where
  | comment {raw : Bytes} (hnul : 0 ∉ raw) (hend : ¬ bytesOf "-->" <:+: raw) :
    LeafLayout (.comment (getStr false raw)) (bytesOf "<!--" ++ (raw ++ bytesOf "-->"))
  | cdata {raw : Bytes} (hnul : 0 ∉ raw) (hend : ¬ bytesOf "]]>" <:+: raw) :
    LeafLayout (.text (getStr false raw) true) (bytesOf "<![CDATA[" ++ (raw ++ bytesOf "]]>"))
  | unknown {raw : Bytes} (hnul : 0 ∉ raw) (hend : ¬ bytesOf ">" <:+: raw)
    (hcomment : ¬ bytesOf "--" <+: raw) (hcdata : ¬ bytesOf "[CDATA[" <+: raw) :
    LeafLayout (.unknown (getStr false raw)) (bytesOf "<!" ++ (raw ++ bytesOf ">"))

/-- How the children of a node may stand, at a parsing depth. -/
inductive Layout : Nat → Bool → List XMLNode → Bytes → Prop where
  | done {depth : Nat} {afterText : Bool} {ws : Bytes} (hws : Blank ws)
    (htext : afterText = true → ws = []) : Layout depth afterText [] ws
  | text {depth : Nat} {raw s : Bytes} {nodes : List XMLNode} (hnul : 0 ∉ raw)
    (hopen : ascii '<' ∉ raw) (hvisible : ∃ b ∈ raw, isWhiteSpace b = false)
    (h : Layout depth true nodes s) :
    Layout depth false (.text (getStr true raw) false :: nodes) (raw ++ s)
  | leaf {depth : Nat} {afterText : Bool} {ws m s : Bytes} {node : XMLNode}
    {nodes : List XMLNode} (hws : Blank ws) (htext : afterText = true → ws = [])
    (hleaf : LeafLayout node m) (h : Layout depth false nodes s) :
    Layout depth afterText (node :: nodes) (ws ++ (m ++ s))
  | empty {depth : Nat} {afterText : Bool} {ws a s : Bytes} {name : CString}
    {attributes : List (CString × CString)} {nodes : List XMLNode} (hws : Blank ws)
    (htext : afterText = true → ws = []) (hname : IsName name)
    (hattributes : AttributesLayout attributes a) (hnodup : (attributes.map Prod.fst).Nodup)
    (h : Layout depth false nodes s) :
    Layout depth afterText (.element name attributes [] :: nodes)
      (ws ++ ascii '<' :: (name.bytes ++ (a ++ ascii '/' :: ascii '>' :: s)))
  | element {depth : Nat} {afterText : Bool} {ws a inner s : Bytes} {name : CString}
    {attributes : List (CString × CString)} {children nodes : List XMLNode} (hws : Blank ws)
    (htext : afterText = true → ws = []) (hname : IsName name)
    (hattributes : AttributesLayout attributes a) (hnodup : (attributes.map Prod.fst).Nodup)
    (hdepth : depth + 1 ≠ maxElementDepth) (hinner : Layout (depth + 1) false children inner)
    (h : Layout depth false nodes s) :
    Layout depth afterText (.element name attributes children :: nodes)
      (ws ++ ascii '<' :: (name.bytes ++ (a ++ ascii '>' :: (inner ++
        ascii '<' :: ascii '/' :: (name.bytes ++ ascii '>' :: s)))))

/-! ## No zeros -/

theorem Blank.noNul {s : Bytes} (h : Blank s) : 0 ∉ s := fun hin =>
  absurd (h 0 hin) (by decide)

theorem AttributesLayout.noNul {attributes : List (CString × CString)} {s : Bytes}
    (h : AttributesLayout attributes s) : 0 ∉ s := by
  induction h with
  | done => exact List.not_mem_nil
  | @more name attributes raw s hname hnul hraw h ih =>
    have hmarks : 0 ≠ ascii ' ' ∧ 0 ≠ ascii '=' ∧ 0 ≠ ascii '"' := by decide
    simp [name.noNul, hnul, ih, hmarks]

theorem LeafLayout.noNul {node : XMLNode} {m : Bytes} (h : LeafLayout node m) : 0 ∉ m := by
  have hmarkup : ∀ s ∈ ["<!--", "-->", "<![CDATA[", "]]>", "<!", ">"], 0 ∉ bytesOf s := by decide
  cases h with
  | comment hnul => simp [hnul, hmarkup]
  | cdata hnul => simp [hnul, hmarkup]
  | unknown hnul => simp [hnul, hmarkup]

theorem Layout.noNul {depth : Nat} {afterText : Bool} {nodes : List XMLNode} {s : Bytes}
    (h : Layout depth afterText nodes s) : 0 ∉ s := by
  have hopen : (0 : UInt8) ≠ ascii '<' ∧ (0 : UInt8) ≠ ascii '/' ∧ (0 : UInt8) ≠ ascii '>' := by
    decide
  induction h with
  | done hws => exact hws.noNul
  | text hnul _ _ _ ih => simp [hnul, ih]
  | leaf hws _ hleaf _ ih => simp [hws.noNul, hleaf.noNul, ih]
  | @empty _ _ _ _ _ name _ _ hws _ _ hattributes _ _ ih =>
    simp [hws.noNul, name.noNul, hattributes.noNul, ih, hopen]
  | @element _ _ _ _ _ _ name _ _ _ hws _ _ hattributes _ _ _ _ ihinner ih =>
    simp [hws.noNul, name.noNul, hattributes.noNul, ihinner, ih, hopen]

/-! ## Scanners -/

theorem skipWhiteSpace_append {ws : Bytes} (hws : Blank ws) (p : Bytes) :
    skipWhiteSpace (ws ++ p) = skipWhiteSpace p :=
  List.dropWhile_append_of_pos hws

theorem skipWhiteSpace_cons {c : UInt8} (h : isWhiteSpace c = false) (p : Bytes) :
    skipWhiteSpace (c :: p) = c :: p :=
  List.dropWhile_cons_of_neg (by simp [h])

/-- A test of all the bytes. -/
theorem of_all_bytes (test : UInt8 → Bool)
    (h : ((List.range 256).all fun n => test (UInt8.ofNat n)) = true) (c : UInt8) :
    test c = true := by
  have hc := List.all_eq_true.mp h c.toNat (List.mem_range.mpr c.toNat_lt)
  rwa [UInt8.ofNat_toNat] at hc

theorem isWhiteSpace_of_isNameStartChar {c : UInt8} (h : isNameStartChar c = true) :
    isWhiteSpace c = false := by
  have htest := of_all_bytes (fun c => !(isNameStartChar c && isWhiteSpace c))
    (by decide +kernel) c
  simpa [h] using htest

theorem parseName_append {name : CString} (h : IsName name) {p : Bytes}
    (hstop : ∀ b ∈ p.head?, isNameChar b = false) :
    parseName (name.bytes ++ p) = some (name, p) := by
  obtain ⟨c, rest, hbytes, hstart, hrest⟩ := h
  have htake : (rest ++ p).takeWhile isNameChar = rest ∧ (rest ++ p).dropWhile isNameChar = p := by
    rw [List.takeWhile_append_of_pos hrest, List.dropWhile_append_of_pos hrest]
    cases p with
    | nil => exact ⟨List.append_nil _, rfl⟩
    | cons b p =>
      have hb : ¬ isNameChar b = true := by simp [hstop b rfl]
      rw [List.takeWhile_cons_of_neg hb, List.dropWhile_cons_of_neg hb, List.append_nil]
      exact ⟨rfl, rfl⟩
  rw [hbytes, List.cons_append, parseName, if_pos hstart, htake.1, htake.2, ← hbytes,
    CString.ofBytes_bytes]

theorem parseAttribute_append {name : CString} (hname : IsName name) {raw : Bytes}
    (hraw : ascii '"' ∉ raw) (p : Bytes) :
    parseAttribute (name.bytes ++ ascii '=' :: ascii '"' :: (raw ++ ascii '"' :: p)) =
      some ((name, getStr true raw), p) := by
  unfold parseAttribute
  rw [parseName_append hname (by simp; decide)]
  dsimp only
  rw [skipWhiteSpace_cons (by decide)]
  dsimp only
  rw [if_pos rfl, skipWhiteSpace_cons (by decide)]
  dsimp only
  rw [if_pos (.inl rfl), splitAtFirst_singleton_append hraw]
  rfl

/-! ## Tags -/

/-- The attributes are read, and the parser goes on behind them. -/
theorem parseAttributes_append {attributes : List (CString × CString)} {a : Bytes}
    (h : AttributesLayout attributes a) (before : List (CString × CString))
    (closingType : ClosingType) (hnodup : ((before ++ attributes).map Prod.fst).Nodup) (p : Bytes) :
    parseAttributes before closingType (a ++ p) =
      parseAttributes (before ++ attributes) closingType p := by
  induction h generalizing before with
  | done => rw [List.nil_append, List.append_nil]
  | @more name attributes raw s hname hnul hraw h ih =>
    obtain ⟨c, rest, hbytes, hstart, hrest⟩ := id hname
    have hread := parseAttribute_append hname hraw (s ++ p)
    have hskip : skipWhiteSpace (ascii ' ' :: (name.bytes ++ ascii '=' :: ascii '"' ::
        (raw ++ ascii '"' :: (s ++ p)))) =
          name.bytes ++ ascii '=' :: ascii '"' :: (raw ++ ascii '"' :: (s ++ p)) := by
      have hblank : Blank [ascii ' '] := by
        intro b hb
        rw [List.mem_singleton.mp hb]
        decide
      rw [← List.singleton_append, skipWhiteSpace_append hblank, hbytes, List.cons_append,
        skipWhiteSpace_cons (isWhiteSpace_of_isNameStartChar hstart)]
    have hnew : (before.any fun entry => entry.1 = name) = false := by
      rw [List.any_eq_false]
      intro entry hentry heq
      rw [List.map_append, List.nodup_append] at hnodup
      exact hnodup.2.2 entry.1 (List.mem_map_of_mem hentry) name (by simp) (of_decide_eq_true heq)
    rw [show ascii ' ' :: (name.bytes ++ ascii '=' :: ascii '"' :: (raw ++ ascii '"' :: s)) ++ p =
      ascii ' ' :: (name.bytes ++ ascii '=' :: ascii '"' :: (raw ++ ascii '"' :: (s ++ p))) by simp]
    rw [parseAttributes]
    split
    · rename_i heq
      rw [hskip, hbytes] at heq
      cases heq
    · rename_i c1 rest1 heq
      rw [hskip] at heq
      have hc : c1 = c := by
        rw [hbytes] at heq
        exact (List.cons.inj heq).1.symm
      rw [if_pos (hc ▸ hstart), ← heq]
      split
      · rename_i hnone
        rw [hread] at hnone
        cases hnone
      · rename_i attrib p1 hsome
        rw [hread] at hsome
        cases hsome
        rw [if_neg (by rw [hnew]; decide), ih (before ++ [(name, getStr true raw)])
          (by simpa using hnodup), List.append_assoc]
        rfl

theorem parseAttributes_end (attributes : List (CString × CString)) (closingType : ClosingType)
    (p : Bytes) :
    parseAttributes attributes closingType (ascii '>' :: p) = .ok (attributes, closingType, p) := by
  rw [parseAttributes]
  split
  · rename_i heq
    rw [skipWhiteSpace_cons (by decide)] at heq
    cases heq
  · rename_i c rest heq
    rw [skipWhiteSpace_cons (by decide)] at heq
    cases heq
    rw [if_neg (by decide), if_pos rfl]

theorem parseAttributes_close (attributes : List (CString × CString)) (closingType : ClosingType)
    (p : Bytes) :
    parseAttributes attributes closingType (ascii '/' :: ascii '>' :: p) =
      .ok (attributes, .closed, p) := by
  rw [parseAttributes]
  split
  · rename_i heq
    rw [skipWhiteSpace_cons (by decide)] at heq
    cases heq
  · rename_i c rest heq
    rw [skipWhiteSpace_cons (by decide)] at heq
    cases heq
    rw [if_neg (by decide), if_neg (by decide), if_pos ⟨rfl, rfl⟩]
    rfl

/-- The name of a tag is not followed by a character of a name. -/
theorem AttributesLayout.stops {attributes : List (CString × CString)} {a : Bytes}
    (h : AttributesLayout attributes a) {c : UInt8} (hc : isNameChar c = false) (p : Bytes) :
    ∀ b ∈ (a ++ c :: p).head?, isNameChar b = false := by
  cases h with
  | done =>
    intro b hb
    cases hb
    exact hc
  | more =>
    intro b hb
    cases hb
    decide

section Tags

variable {name : CString} {attributes : List (CString × CString)} {a : Bytes}

theorem skipWhiteSpace_name (hname : IsName name) (p : Bytes) :
    skipWhiteSpace (name.bytes ++ p) = name.bytes ++ p ∧
      (name.bytes ++ p).head? ≠ some (ascii '/') := by
  obtain ⟨c, rest, hbytes, hstart, hrest⟩ := hname
  rw [hbytes, List.cons_append]
  refine ⟨skipWhiteSpace_cons (isWhiteSpace_of_isNameStartChar hstart) _, fun heq => ?_⟩
  rw [List.head?_cons, Option.some.injEq] at heq
  rw [heq] at hstart
  exact absurd hstart (by decide)

theorem parseTag_opening (hname : IsName name) (hattributes : AttributesLayout attributes a)
    (hnodup : (attributes.map Prod.fst).Nodup) (p : Bytes) :
    parseTag (name.bytes ++ (a ++ ascii '>' :: p)) = .ok (⟨name, attributes, .opening⟩, p) := by
  obtain ⟨hskip, hslash⟩ := skipWhiteSpace_name hname (a ++ ascii '>' :: p)
  unfold parseTag
  rw [hskip]
  simp only [if_neg hslash]
  rw [parseName_append hname (hattributes.stops (by decide) p)]
  simp only [parseAttributes_append hattributes [] .opening hnodup, List.nil_append,
    parseAttributes_end]

theorem parseTag_closed (hname : IsName name) (hattributes : AttributesLayout attributes a)
    (hnodup : (attributes.map Prod.fst).Nodup) (p : Bytes) :
    parseTag (name.bytes ++ (a ++ ascii '/' :: ascii '>' :: p)) =
      .ok (⟨name, attributes, .closed⟩, p) := by
  obtain ⟨hskip, hslash⟩ := skipWhiteSpace_name hname (a ++ ascii '/' :: ascii '>' :: p)
  unfold parseTag
  rw [hskip]
  simp only [if_neg hslash]
  rw [parseName_append hname (hattributes.stops (by decide) (ascii '>' :: p))]
  simp only [parseAttributes_append hattributes [] .opening hnodup, List.nil_append,
    parseAttributes_close]

theorem parseTag_closing (hname : IsName name) (p : Bytes) :
    parseTag (ascii '/' :: (name.bytes ++ ascii '>' :: p)) = .ok (⟨name, [], .closing⟩, p) := by
  unfold parseTag
  rw [skipWhiteSpace_cons (by decide)]
  simp only [List.head?_cons, if_true, List.tail_cons]
  rw [parseName_append hname (by simp; decide)]
  simp only [parseAttributes_end]

end Tags

/-! ## Nodes -/

theorem identify_append {ws : Bytes} (hws : Blank ws) {p : Bytes} {c : UInt8} {rest : Bytes}
    (hp : p = c :: rest) (hc : c = ascii '<') : identify (ws ++ p) = identify p := by
  subst hp
  unfold identify
  rw [skipWhiteSpace_append hws, skipWhiteSpace_cons (by rw [hc]; decide)]
  have hopen : bytesOf "<" <+: c :: rest := by
    rw [hc]
    exact ⟨rest, rfl⟩
  simp only [if_pos hopen]

/-- A tag: the name of an element or a slash follows. -/
theorem identify_element {c : UInt8} (hquestion : c ≠ ascii '?') (hexclam : c ≠ ascii '!')
    (p : Bytes) : identify (ascii '<' :: c :: p) = some (.element, c :: p) := by
  have hne : ∀ (pattern : Bytes) (d : UInt8), pattern[1]? = some d → c ≠ d →
      ¬ pattern <+: ascii '<' :: c :: p := by
    rintro pattern d hd hc ⟨t, ht⟩
    have hlength := List.getElem?_eq_some_iff.mp hd
    have hsecond := congrArg (·[1]?) ht
    simp only [List.getElem?_append_left hlength.1, hd, List.getElem?_cons_succ,
      List.getElem?_cons_zero, Option.some.injEq] at hsecond
    exact hc hsecond.symm
  unfold identify
  rw [skipWhiteSpace_cons (by decide)]
  simp only
  rw [if_neg (List.cons_ne_nil _ _), if_neg (hne (bytesOf "<?") _ rfl hquestion),
    if_neg (hne (bytesOf "<!--") _ rfl hexclam), if_neg (hne (bytesOf "<![CDATA[") _ rfl hexclam),
    if_neg (hne (bytesOf "<!") _ rfl hexclam), if_pos ⟨c :: p, rfl⟩]
  rfl

theorem identify_name {name : CString} (h : IsName name) (p : Bytes) :
    identify (ascii '<' :: (name.bytes ++ p)) = some (.element, name.bytes ++ p) := by
  obtain ⟨c, rest, hbytes, hstart, -⟩ := h
  rw [hbytes]
  refine identify_element ?_ ?_ (rest ++ p)
  · rintro rfl
    exact absurd hstart (by decide)
  · rintro rfl
    exact absurd hstart (by decide)

/-- A text with something visible in it, up to the next tag. -/
theorem identify_text {raw : Bytes} (hopen : ascii '<' ∉ raw)
    (hvisible : ∃ b ∈ raw, isWhiteSpace b = false) (p : Bytes) :
    identify (raw ++ p) = some (.text, raw ++ p) := by
  obtain ⟨ws, c, rest, hraw, hws, hc⟩ : ∃ ws c rest, raw = ws ++ c :: rest ∧ Blank ws ∧
      isWhiteSpace c = false := by
    cases hdrop : raw.dropWhile isWhiteSpace with
    | nil =>
      obtain ⟨b, hb, hfalse⟩ := hvisible
      have htrue := List.dropWhile_eq_nil_iff.mp hdrop b hb
      rw [htrue] at hfalse
      cases hfalse
    | cons c rest =>
      refine ⟨raw.takeWhile isWhiteSpace, c, rest, ?_, ?_, ?_⟩
      · rw [← hdrop, List.takeWhile_append_dropWhile]
      · exact fun b hb => List.all_eq_true.mp List.all_takeWhile b hb
      · have hhead := List.head?_dropWhile_not isWhiteSpace raw
        rw [hdrop] at hhead
        simpa using hhead
  have hne : ∀ pattern : Bytes, pattern.head? = some (ascii '<') →
      ¬ pattern <+: c :: (rest ++ p) := by
    rintro pattern hhead ⟨t, ht⟩
    refine hopen ?_
    have hc : c = ascii '<' := by
      have hfirst := congrArg List.head? ht
      rw [List.head?_append, hhead] at hfirst
      exact (Option.some.inj hfirst).symm
    rw [← hc, hraw]
    simp
  have hskip : skipWhiteSpace (raw ++ p) = c :: (rest ++ p) := by
    rw [hraw, List.append_assoc, skipWhiteSpace_append hws, List.cons_append,
      skipWhiteSpace_cons hc]
  unfold identify
  rw [hskip]
  simp only
  rw [if_neg (List.cons_ne_nil _ _), if_neg (hne (bytesOf "<?") rfl),
    if_neg (hne (bytesOf "<!--") rfl), if_neg (hne (bytesOf "<![CDATA[") rfl),
    if_neg (hne (bytesOf "<!") rfl), if_neg (hne (bytesOf "<") rfl)]

theorem parseValue_append {endTag raw : Bytes} (hended : Ended endTag) (hend : ¬ endTag <:+: raw)
    (error : XMLError) (node : CString → XMLNode) (p : Bytes) :
    parseValue endTag error node (raw ++ (endTag ++ p)) = .ok (node (getStr false raw), p) := by
  unfold parseValue
  rw [splitAtFirst_append hended hend]

theorem ended_comment : Ended (bytesOf "-->") := ⟨bytesOf "--", ascii '>', by decide, by decide⟩

theorem ended_cdata : Ended (bytesOf "]]>") := ⟨bytesOf "]]", ascii '>', by decide, by decide⟩

theorem ended_declaration : Ended (bytesOf "?>") := ⟨bytesOf "?", ascii '>', by decide, by decide⟩

theorem ended_unknown : Ended (bytesOf ">") := ended_singleton _

/-- A node without children is identified and read. -/
theorem LeafLayout.parses {node : XMLNode} {m : Bytes} (h : LeafLayout node m) (p : Bytes) :
    ∃ kind p1, kind ≠ .element ∧ kind ≠ .declaration ∧ identify (m ++ p) = some (kind, p1) ∧
      parseLeaf kind p1 = .ok (node, p) := by
  cases h with
  | @comment raw hnul hend =>
    refine ⟨.comment, raw ++ (bytesOf "-->" ++ p), by decide, by decide, ?_,
      parseValue_append ended_comment hend .parsingComment .comment p⟩
    rw [List.append_assoc, List.append_assoc]
    rfl
  | @cdata raw hnul hend =>
    refine ⟨.cdata, raw ++ (bytesOf "]]>" ++ p), by decide, by decide, ?_,
      parseValue_append ended_cdata hend .parsingCData (.text · true) p⟩
    rw [List.append_assoc, List.append_assoc]
    rfl
  | @unknown raw hnul hend hcomment hcdata =>
    refine ⟨.unknown, raw ++ (bytesOf ">" ++ p), by decide, by decide, ?_,
      parseValue_append ended_unknown hend .parsingUnknown .unknown p⟩
    have hshort : ∀ s : Bytes, ascii '>' ∉ s → ¬ s <+: raw →
        ¬ bytesOf "<!" ++ s <+: bytesOf "<!" ++ (raw ++ (bytesOf ">" ++ p)) := by
      intro s hs hraw hmatch
      rw [List.prefix_append_right_inj] at hmatch
      rcases List.prefix_or_prefix_of_prefix hmatch (List.prefix_append raw _) with h | ⟨t, rfl⟩
      · exact hraw h
      · -- the pattern would go on with the end of the node
        rw [List.prefix_append_right_inj] at hmatch
        cases t with
        | nil => exact hraw (by rw [List.append_nil])
        | cons b t =>
          have hb : b = ascii '>' := (List.cons_prefix_cons.mp hmatch).1
          rw [hb] at hs
          exact hs (by simp)
    have hskip : skipWhiteSpace (bytesOf "<!" ++ (raw ++ (bytesOf ">" ++ p))) =
        bytesOf "<!" ++ (raw ++ (bytesOf ">" ++ p)) := skipWhiteSpace_cons (by decide) _
    have hquestion : ¬ bytesOf "<?" <+: bytesOf "<!" ++ (raw ++ (bytesOf ">" ++ p)) := by
      intro hmatch
      have h2 := (List.cons_prefix_cons.mp (List.cons_prefix_cons.mp hmatch).2).1
      exact absurd h2 (by decide)
    rw [List.append_assoc, List.append_assoc]
    unfold identify
    rw [hskip]
    simp only
    have hne : bytesOf "<!" ++ (raw ++ (bytesOf ">" ++ p)) ≠ [] := List.cons_ne_nil _ _
    have hdash : ¬ bytesOf "<!--" <+: _ := hshort (bytesOf "--") (by decide) hcomment
    have hbracket : ¬ bytesOf "<![CDATA[" <+: _ := hshort (bytesOf "[CDATA[") (by decide) hcdata
    rw [if_neg hne, if_neg hquestion, if_neg hdash, if_neg hbracket,
      if_pos (List.prefix_append _ _)]
    rfl

theorem LeafLayout.starts {node : XMLNode} {m : Bytes} (h : LeafLayout node m) :
    ∃ rest, m = ascii '<' :: ascii '!' :: rest := by
  cases h with
  | comment => exact ⟨_, rfl⟩
  | cdata => exact ⟨_, rfl⟩
  | unknown => exact ⟨_, rfl⟩

end Xpcf.TinyXml
