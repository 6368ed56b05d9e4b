import Xpcf.Proofs.WrittenXml
import Xpcf.Proofs.XmlUpdates

/-!
# Loading what the generator writes

The text that `XmlBlockManager` writes for a plain document is a layout of the tree
that the operations ask for, so `tinyxml2` loads it as this tree
(`parse_written`).  The writer knows nothing of the parser: that they agree rests on
the grammar being read in the same way by both for plain names, values and texts.
-/

namespace Xpcf.GrpcGen

open TinyXml
open CodeLib.Xml (isChar isNameStart isBlank inRanges PlainText PlainValue PlainAttributes
  spellAttributes spellAttributes_cons)

/-! ## Names, values and texts -/

/-- A name of XML is one of the parser. -/
theorem isName_ofString {name : String} (h : CodeLib.Xml.IsName name) :
    TinyXml.IsName (.ofString name) ∧ (CString.ofString name).bytes = bytesOf name := by
  obtain ⟨c, rest, hname, hstart, hrest⟩ := h
  have hstart1 : ∀ b ∈ String.utf8EncodeChar c, TinyXml.isNameStartChar b = true := by
    intro b hb
    rcases utf8EncodeChar_cases c with ⟨hlt, heq⟩ | ⟨-, hbig⟩
    · rw [heq, List.mem_singleton] at hb
      rw [hb]
      exact of_all_ascii (P := isNameStart) (by decide +kernel) hlt hstart
    · exact of_all_beyond (by decide +kernel) (hbig b hb)
  have hrest1 : ∀ b ∈ utf8 rest, TinyXml.isNameChar b = true :=
    forall_utf8 (fun d hd hlt => of_all_ascii (P := CodeLib.Xml.isNameChar) (by decide +kernel) hlt
      (hrest d hd)) fun b hb => of_all_beyond (by decide +kernel) hb
  obtain ⟨b, t, hct⟩ := List.exists_cons_of_ne_nil (String.utf8EncodeChar_ne_nil (c := c))
  have hbytes : bytesOf name = b :: (t ++ utf8 rest) := by
    show utf8 name.toList = _
    rw [hname, utf8_cons, hct, List.cons_append]
  have hall : ∀ d ∈ bytesOf name, TinyXml.isNameChar d = true := by
    intro d hd
    rw [hbytes, ← List.cons_append, ← hct] at hd
    rcases List.mem_append.mp hd with hd | hd
    · unfold TinyXml.isNameChar
      rw [hstart1 d hd]
      rfl
    · exact hrest1 d hd
  have hzero : 0 ∉ bytesOf name := fun hin => absurd (hall 0 hin) (by decide)
  refine ⟨⟨b, t ++ utf8 rest, ?_, hstart1 b (by rw [hct]; exact List.mem_cons_self), ?_⟩,
    CString.bytes_ofBytes hzero⟩
  · rw [← hbytes]
    exact CString.bytes_ofBytes hzero
  · intro d hd
    exact hall d (by rw [hbytes]; exact List.mem_cons_of_mem _ hd)

/-- A text without references and carriage returns is read as it is. -/
theorem getStr_plain_text {s : String}
    (h : ∀ c ∈ s.toList, isChar c = true ∧ c ≠ '&' ∧ c ≠ '\r') :
    0 ∉ bytesOf s ∧ getStr true (bytesOf s) = .ofString s ∧
      (CString.ofString s).normalized = .ofString s := by
  have hzero : 0 ∉ bytesOf s := fun hin =>
    absurd (h _ (mem_of_mem_utf8 (d := '\x00') (by decide) hin)).1 (by decide)
  have hentity : ascii '&' ∉ bytesOf s := fun hin =>
    (h _ (mem_of_mem_utf8 (by decide) hin)).2.1 rfl
  have hreturn : carriageReturn ∉ bytesOf s := fun hin =>
    (h _ (mem_of_mem_utf8 (d := '\r') (by decide) hin)).2.2 rfl
  refine ⟨hzero, getStr_plain hentity hreturn true, ?_⟩
  unfold CString.normalized CString.ofString
  rw [CString.bytes_ofBytes hzero, normalizeNewlines_of_notMem hreturn]

/-- The attributes of a tag, as C strings. -/
abbrev nodeAttributes (attributes : List (String × String)) : List (CString × CString) :=
  attributes.map fun entry => (.ofString entry.1, .ofString entry.2)

theorem attributesLayout_of_plain {attributes : List (String × String)}
    (h : PlainAttributes attributes) :
    AttributesLayout (nodeAttributes attributes) (utf8 (spellAttributes attributes)) := by
  induction attributes with
  | nil => exact .done
  | cons entry attributes ih =>
    obtain ⟨name, value⟩ := entry
    have hrest : PlainAttributes attributes :=
      ⟨fun e he => h.names e (List.mem_cons_of_mem _ he), (List.nodup_cons.mp h.distinct).2,
        fun e he => h.values e (List.mem_cons_of_mem _ he)⟩
    obtain ⟨hname, hbytes⟩ := isName_ofString (h.names _ List.mem_cons_self)
    have hplain := h.values _ List.mem_cons_self
    obtain ⟨hzero, hread, -⟩ := getStr_plain_text (s := value) fun c hc =>
      ⟨(hplain c hc).1, (hplain c hc).2.2.1, (hplain c hc).2.2.2.2.2.2⟩
    have hquote : ascii '"' ∉ bytesOf value := fun hin =>
      (hplain _ (mem_of_mem_utf8 (by decide) hin)).2.2.2.1 rfl
    have hlayout := AttributesLayout.more hname hzero hquote (ih hrest)
    rw [hread, hbytes] at hlayout
    have hspelled : utf8 (spellAttributes ((name, value) :: attributes)) =
        ascii ' ' :: (bytesOf name ++ ascii '=' :: ascii '"' ::
          (bytesOf value ++ ascii '"' :: utf8 (spellAttributes attributes))) := by
      rw [spellAttributes_cons]
      simp only [utf8_cons, utf8_append, utf8EncodeChar_mark, List.mem_cons, true_or, or_true,
        List.singleton_append]
      rfl
    rw [hspelled]
    exact hlayout

theorem nodup_names {attributes : List (String × String)} (h : PlainAttributes attributes) :
    ((nodeAttributes attributes).map Prod.fst).Nodup := by
  have hsame : (nodeAttributes attributes).map Prod.fst =
      (attributes.map Prod.fst).map CString.ofString := by
    rw [List.map_map, List.map_map]
    rfl
  rw [hsame]
  refine List.Nodup.map_on ?_ h.distinct
  intro name hname name1 hname1 heq
  obtain ⟨entry, hentry, rfl⟩ := List.mem_map.mp hname
  obtain ⟨entry1, hentry1, rfl⟩ := List.mem_map.mp hname1
  apply bytesOf_injective
  rw [← (isName_ofString (h.names entry hentry)).2, ← (isName_ofString (h.names entry1 hentry1)).2,
    heq]

/-- Cleaning leaves plain attributes as they are. -/
theorem normalized_of_plain {attributes : List (String × String)} (h : PlainAttributes attributes) :
    (nodeAttributes attributes).map (fun entry => (entry.1, entry.2.normalized)) =
      nodeAttributes attributes := by
  rw [List.map_map]
  refine List.map_congr_left fun entry hentry => ?_
  have hplain := h.values entry hentry
  have hread := (getStr_plain_text (s := entry.2) fun c hc =>
    ⟨(hplain c hc).1, (hplain c hc).2.2.1, (hplain c hc).2.2.2.2.2.2⟩).2.2
  simp only [Function.comp_apply, hread]

/-! ## Lines -/

/-- The text of lines, each from the end of the line before it. -/
def lineTexts (entries : List (Nat × XmlLine)) : List Char :=
  entries.flatMap fun entry => gap entry.1 ++ entry.2.text.toList

theorem spelled_eq (entries : List (Nat × XmlLine)) :
    spelled entries = lineTexts entries ++ ['\n'] := by
  induction entries with
  | nil => rfl
  | cons entry entries ih =>
    rw [spelled, ih, lineTexts, lineTexts, List.flatMap_cons]
    simp

theorem blank_gap (n : Nat) : Blank (utf8 (gap n)) := by
  intro b hb
  obtain ⟨c, hc, hmem⟩ := List.mem_flatMap.mp hb
  rcases utf8EncodeChar_cases c with ⟨-, heq⟩ | ⟨hbig, -⟩
  · rw [heq, List.mem_singleton] at hmem
    rw [hmem]
    rcases mem_gap hc with rfl | rfl <;> decide
  · rcases mem_gap hc with rfl | rfl <;> exact absurd hbig (by decide)

section Texts

variable (n : Nat) (name : String) (attributes : List (String × String))
  (entries : List (Nat × XmlLine))

/-- The bytes of a line of markup are a tag. -/
theorem utf8_start : utf8 (lineTexts ((n, .start name attributes) :: entries)) =
    utf8 (gap n) ++ ascii '<' :: (bytesOf name ++ (utf8 (spellAttributes attributes) ++
      ascii '>' :: utf8 (lineTexts entries))) := by
  have htext : (XmlLine.start name attributes).text.toList =
      '<' :: (name.toList ++ (spellAttributes attributes ++ ['>'])) := by
    simp [XmlLine.text, toList_attributesText]
  rw [lineTexts, List.flatMap_cons, htext]
  simp only [utf8_append, utf8_cons, utf8EncodeChar_mark, List.mem_cons, true_or, or_true,
    List.cons_append, List.append_assoc]
  rfl

theorem utf8_node : utf8 (lineTexts ((n, .node name attributes) :: entries)) =
    utf8 (gap n) ++ ascii '<' :: (bytesOf name ++ (utf8 (spellAttributes attributes) ++
      ascii '/' :: ascii '>' :: utf8 (lineTexts entries))) := by
  have htext : (XmlLine.node name attributes).text.toList =
      '<' :: (name.toList ++ (spellAttributes attributes ++ ['/', '>'])) := by
    simp [XmlLine.text, toList_attributesText]
  rw [lineTexts, List.flatMap_cons, htext]
  simp only [utf8_append, utf8_cons, utf8EncodeChar_mark, List.mem_cons, true_or, or_true,
    List.cons_append, List.append_assoc]
  rfl

theorem utf8_finish : utf8 (lineTexts ((n, .finish name) :: entries)) =
    utf8 (gap n) ++ ascii '<' :: ascii '/' :: (bytesOf name ++ ascii '>' ::
      utf8 (lineTexts entries)) := by
  have htext : (XmlLine.finish name).text.toList = '<' :: '/' :: (name.toList ++ ['>']) := by
    simp [XmlLine.text]
  rw [lineTexts, List.flatMap_cons, htext]
  simp only [utf8_append, utf8_cons, utf8EncodeChar_mark, List.mem_cons, true_or, or_true,
    List.cons_append, List.append_assoc]
  rfl

theorem utf8_value (text : String) : utf8 (lineTexts ((n, .value text) :: entries)) =
    utf8 (gap n) ++ ascii '<' :: (bytesOf "value" ++ (ascii '>' :: (bytesOf text ++
      ascii '<' :: ascii '/' :: (bytesOf "value" ++ ascii '>' :: utf8 (lineTexts entries))))) := by
  have htext : (XmlLine.value text).text.toList =
      '<' :: ("value".toList ++
        ('>' :: (text.toList ++ ('<' :: '/' :: ("value".toList ++ ['>']))))) := by
    simp [XmlLine.text]
  rw [lineTexts, List.flatMap_cons, htext]
  simp only [utf8_append, utf8_cons, utf8EncodeChar_mark, List.mem_cons, true_or, or_true,
    List.cons_append, List.append_assoc]
  rfl

end Texts

/-- The text of a value, of which blanks are not read. -/
theorem layout_of_text {text : String} (h : PlainText text.toList) (depth : Nat) :
    Layout depth false (cleanAll [.text (.ofString text) false]) (bytesOf text) := by
  obtain ⟨hzero, hread, hnormalized⟩ := getStr_plain_text (s := text) fun c hc =>
    ⟨(h.chars c hc).1, (h.chars c hc).2.2⟩
  have hopen : ascii '<' ∉ bytesOf text := fun hin =>
    (h.chars _ (mem_of_mem_utf8 (by decide) hin)).2.1 rfl
  have hbytes : (CString.ofString text).bytes = bytesOf text := CString.bytes_ofBytes hzero
  rw [cleanAll, XMLNode.clean, hnormalized, hbytes, cleanAll, List.append_nil]
  by_cases hblank : (bytesOf text).all isWhiteSpace = true
  · rw [if_pos ⟨rfl, hblank⟩]
    exact .done (List.all_eq_true.mp hblank) fun hfalse => by cases hfalse
  · rw [if_neg fun hand => hblank hand.2]
    have hvisible : ∃ b ∈ bytesOf text, isWhiteSpace b = false := by simpa using hblank
    have hdone : Layout depth true [] [] := .done blank_nil fun _ => rfl
    have hlayout := Layout.text hzero hopen hvisible hdone
    rwa [hread, List.append_nil] at hlayout

/-- Plain lines whose blocks nest are a layout of their elements. -/
theorem layout_of_nested {lines : List XmlLine} {elts : List XMLElement} (h : Nested lines elts)
    (entries : List (Nat × XmlLine)) (hentries : entries.map Prod.snd = lines)
    (hplain : ∀ line ∈ lines, line.Plain) {depth : Nat}
    (hdeep : depth + heights elts < maxElementDepth) {nodes : List XMLNode} {t : Bytes}
    (ht : Layout depth false nodes t) :
    Layout depth false (cleanAll (toNodes elts) ++ nodes) (utf8 (lineTexts entries) ++ t) := by
  have hfree : ∀ {ws : Bytes}, false = true → ws = [] := fun hfalse => by cases hfalse
  induction h generalizing entries depth nodes t with
  | done =>
    rw [List.map_eq_nil_iff.mp hentries]
    exact ht
  | @node name attributes lines elts h ih =>
    obtain ⟨⟨n, line⟩, entries, rfl, rfl, hrest⟩ := List.map_eq_cons_iff.mp hentries
    obtain ⟨⟨hname, hattributes⟩, hlines⟩ := List.forall_mem_cons.mp hplain
    rw [heights] at hdeep
    have hrest := ih _ hrest hlines (by omega) ht
    obtain ⟨hname1, hbytes⟩ := isName_ofString hname
    have hlayout := Layout.empty (blank_gap n) hfree hname1 (attributesLayout_of_plain hattributes)
      (nodup_names hattributes) hrest
    rw [hbytes] at hlayout
    rw [utf8_node, toNodes, XMLElement.toNode, cleanAll, XMLNode.clean,
      normalized_of_plain hattributes]
    simpa [toNodes, cleanAll] using hlayout
  | @value text lines elts h ih =>
    obtain ⟨⟨n, line⟩, entries, rfl, rfl, hrest⟩ := List.map_eq_cons_iff.mp hentries
    obtain ⟨htext, hlines⟩ := List.forall_mem_cons.mp hplain
    simp only [heights, XMLElement.height, Option.isSome_some, if_true] at hdeep
    have hrest := ih _ hrest hlines (by omega) ht
    obtain ⟨hname, hbytes⟩ := isName_ofString isName_value
    have hlayout := Layout.element (blank_gap n) hfree hname .done List.nodup_nil (by omega)
      (layout_of_text htext (depth + 1)) hrest
    rw [hbytes] at hlayout
    rw [utf8_value, toNodes, XMLElement.toNode, cleanAll, XMLNode.clean]
    simpa [toNodes] using hlayout
  | @block name attributes inner lines children elts hinner h ihinner ih =>
    obtain ⟨⟨n, line⟩, entries1, rfl, rfl, hinside⟩ := List.map_eq_cons_iff.mp hentries
    obtain ⟨entries, entries2, rfl, hinner1, hbehind⟩ := List.map_eq_append_iff.mp hinside
    obtain ⟨⟨m, line⟩, entries3, rfl, rfl, hrest⟩ := List.map_eq_cons_iff.mp hbehind
    obtain ⟨⟨hname, hattributes⟩, hlines⟩ := List.forall_mem_cons.mp hplain
    obtain ⟨hinnerLines, hlines⟩ := List.forall_mem_append.mp hlines
    obtain ⟨-, hlines⟩ := List.forall_mem_cons.mp hlines
    simp only [heights, XMLElement.height] at hdeep
    have hchildren := ihinner _ hinner1 hinnerLines
      (show depth + 1 + heights children < maxElementDepth by omega)
      (.done (blank_gap m) hfree)
    have hrest := ih _ hrest hlines (by omega) ht
    obtain ⟨hname1, hbytes⟩ := isName_ofString hname
    rw [List.append_nil] at hchildren
    have htext : utf8 (lineTexts ((n, .start name attributes) :: (entries ++
        (m, .finish name) :: entries3))) =
        utf8 (gap n) ++ ascii '<' :: (bytesOf name ++ (utf8 (spellAttributes attributes) ++
          ascii '>' :: (utf8 (lineTexts entries) ++ utf8 (gap m) ++
            ascii '<' :: ascii '/' :: (bytesOf name ++
              ascii '>' :: utf8 (lineTexts entries3))))) := by
      have happend : lineTexts (entries ++ (m, .finish name) :: entries3) =
          lineTexts entries ++ lineTexts ((m, .finish name) :: entries3) := List.flatMap_append
      rw [utf8_start, happend, utf8_append, utf8_finish, List.append_assoc]
    have hlayout := Layout.element (blank_gap n) hfree hname1
      (attributesLayout_of_plain hattributes) (nodup_names hattributes) (by omega) hchildren hrest
    rw [hbytes] at hlayout
    rw [htext, toNodes, XMLElement.toNode, cleanAll, XMLNode.clean,
      normalized_of_plain hattributes]
    simpa [toNodes] using hlayout

/-! ## Documents -/

/-- What stands between the brackets of the XML declaration. -/
def declarationValue : String := "xml version=\"1.0\" encoding=\"UTF-8\" standalone=\"yes\" "

end Xpcf.GrpcGen
