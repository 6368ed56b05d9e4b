import Xpcf.Proofs.WrittenLines

/-!
# Which documents read back

`XmlBlockManager` puts names, attribute values and texts between its markup as
they are.  A document that is written so reads back as the tree that the
operations ask for exactly when every name is one, every value and text is plain,
no attribute is left out and the root is closed at the end (`readsBack_iff`).

The reading of the text and the lines that are asked for go side by side from tag
to tag: `written_of_markup` for a text that is read as the tree, `markup_of_plain`
for lines that are plain.
-/

namespace Xpcf.GrpcGen

open CodeLib.Xml

/-! ## Tokens that make a tree -/

/-- The tokens of the content of a block: before each child and at the end there
are only blanks, and a child that has a text has this text and nothing else. -/
inductive Content : List XMLElement → List Token → Prop where
  | done {data : String} (hdata : Blanks data.toList) : Content [] [.text data]
  | value {data name text : String} {attributes : List (String × String)} {rest : List XMLElement}
    {tokens : List Token} (hdata : Blanks data.toList) (h : Content rest tokens) :
    Content (.mk name attributes (some text) [] :: rest)
      (.text data :: .start name attributes :: .text text :: .finish name :: tokens)
  | block {data name : String} {attributes : List (String × String)}
    {children rest : List XMLElement} {inner tokens : List Token} (hdata : Blanks data.toList)
    (hchildren : Content children inner) (h : Content rest tokens) :
    Content (.mk name attributes none children :: rest)
      (.text data :: .start name attributes :: (inner ++ .finish name :: tokens))

/-- The text is well-formed and is read as the tree. -/
def ReadsAs (text : List Char) (tree : XMLElement) : Prop :=
  ∃ body tokens, text = XmlLine.declaration.text.toList ++ body ∧ Document body tokens ∧
    Content [tree] (.text "" :: (tokens ++ [.text ""]))

/-- The document that is written reads back as the tree that was written. -/
def ReadsBack (root : String) (attributes : List (String × String))
    (operations : List XmlOperation) : Prop :=
  ∃ tree, treeWritten root attributes operations = some tree ∧
    ReadsAs (writeDocument root attributes operations).text.toList tree

structure PlainDocument (root : String) (attributes : List (String × String))
    (operations : List XmlOperation) : Prop where
  root_name : IsName root
  /-- `xmlOpenRootNode` leaves its attributes out. -/
  root_attributes : attributes = []
  plain : ∀ op ∈ operations, op.Plain
  closes : closesRoot root operations = true

/-! ## Lines and tokens -/

/-- The tokens of lines: character data before each tag, which is blank but for the text of
a value. -/
inductive Spells : List XmlLine → List Token → Prop where
  | done {data : String} (hdata : Blanks data.toList) : Spells [] [.text data]
  | start {data name : String} {attributes : List (String × String)} {lines : List XmlLine}
    {tokens : List Token} (hdata : Blanks data.toList) (h : Spells lines tokens) :
    Spells (.start name attributes :: lines) (.text data :: .start name attributes :: tokens)
  | finish {data name : String} {lines : List XmlLine} {tokens : List Token}
    (hdata : Blanks data.toList) (h : Spells lines tokens) :
    Spells (.finish name :: lines) (.text data :: .finish name :: tokens)
  | node {data data1 name : String} {attributes : List (String × String)} {lines : List XmlLine}
    {tokens : List Token} (hdata : Blanks data.toList) (hdata1 : Blanks data1.toList)
    (h : Spells lines tokens) :
    Spells (.node name attributes :: lines)
      (.text data :: .start name attributes :: .text data1 :: .finish name :: tokens)
  | value {data text : String} {lines : List XmlLine} {tokens : List Token}
    (hdata : Blanks data.toList) (h : Spells lines tokens) :
    Spells (.value text :: lines)
      (.text data :: .start "value" [] :: .text text :: .finish "value" :: tokens)

/-- The tokens of lines with the end of a block among them. -/
theorem spells_append_finish_iff {inner lines : List XmlLine} {name : String}
    {tokens : List Token} :
    Spells (inner ++ .finish name :: lines) tokens ↔
      ∃ tokens1 tokens2, tokens = tokens1 ++ .finish name :: tokens2 ∧ Spells inner tokens1 ∧
        Spells lines tokens2 := by
  constructor
  · intro h
    induction inner generalizing tokens with
    | nil =>
      cases h with
      | finish hdata h => exact ⟨[_], _, rfl, .done hdata, h⟩
    | cons line inner ih =>
      cases h with
      | start hdata h =>
        obtain ⟨tokens1, tokens2, rfl, h1, h2⟩ := ih h
        exact ⟨_ :: _ :: tokens1, tokens2, rfl, .start hdata h1, h2⟩
      | finish hdata h =>
        obtain ⟨tokens1, tokens2, rfl, h1, h2⟩ := ih h
        exact ⟨_ :: _ :: tokens1, tokens2, rfl, .finish hdata h1, h2⟩
      | node hdata hdata1 h =>
        obtain ⟨tokens1, tokens2, rfl, h1, h2⟩ := ih h
        exact ⟨_ :: _ :: _ :: _ :: tokens1, tokens2, rfl, .node hdata hdata1 h1, h2⟩
      | value hdata h =>
        obtain ⟨tokens1, tokens2, rfl, h1, h2⟩ := ih h
        exact ⟨_ :: _ :: _ :: _ :: tokens1, tokens2, rfl, .value hdata h1, h2⟩
  · rintro ⟨tokens1, tokens2, rfl, h1, h2⟩
    induction h1 with
    | done hdata => exact .finish hdata h2
    | start hdata h ih => exact .start hdata ih
    | finish hdata h ih => exact .finish hdata ih
    | node hdata hdata1 h ih => exact .node hdata hdata1 ih
    | value hdata h ih => exact .value hdata ih

/-- The tokens of the elements are those of their lines. -/
theorem Nested.content_iff {lines : List XmlLine} {elts : List XMLElement}
    (h : Nested lines elts) {tokens : List Token} : Content elts tokens ↔ Spells lines tokens := by
  induction h generalizing tokens with
  | done =>
    constructor
    · rintro ⟨hdata⟩
      exact .done hdata
    · rintro ⟨hdata⟩
      exact .done hdata
  | node h ih =>
    constructor
    · intro hcontent
      cases hcontent with
      | block hdata hchildren hrest =>
        cases hchildren with
        | done hdata1 => exact .node hdata hdata1 (ih.mp hrest)
    · intro hspells
      cases hspells with
      | node hdata hdata1 hrest => exact .block hdata (.done hdata1) (ih.mpr hrest)
  | value h ih =>
    constructor
    · intro hcontent
      cases hcontent with
      | value hdata hrest => exact .value hdata (ih.mp hrest)
    · intro hspells
      cases hspells with
      | value hdata hrest => exact .value hdata (ih.mpr hrest)
  | block hinner h ihinner ih =>
    constructor
    · intro hcontent
      cases hcontent with
      | block hdata hchildren hrest =>
        refine .start hdata (spells_append_finish_iff.mpr ⟨_, _, rfl, ?_, ih.mp hrest⟩)
        exact ihinner.mp hchildren
    · intro hspells
      cases hspells with
      | start hdata hrest =>
        obtain ⟨tokens1, tokens2, rfl, h1, h2⟩ := spells_append_finish_iff.mp hrest
        exact .block hdata (ihinner.mpr h1) (ih.mpr h2)

/-! ## The text -/

/-- What stands before a line. -/
def gap (indentLevel : Nat) : List Char :=
  '\n' :: (String.join (List.replicate indentLevel "  ")).toList

/-- The text of lines, from the end of the line before them. -/
def spelled : List (Nat × XmlLine) → List Char
  | [] => ['\n']
  | (indentLevel, line) :: rest => gap indentLevel ++ (line.text.toList ++ spelled rest)

theorem mem_gap {n : Nat} {c : Char} (h : c ∈ gap n) : c = '\n' ∨ c = ' ' := by
  obtain rfl | h := List.mem_cons.mp h
  · exact Or.inl rfl
  · rw [String.toList_join] at h
    obtain ⟨s, hs, hc⟩ := List.mem_flatMap.mp h
    rw [List.eq_of_mem_replicate hs] at hc
    right
    simpa using hc

theorem blanks_gap (n : Nat) : Blanks (gap n) := by
  intro c hc
  obtain rfl | rfl := mem_gap hc <;> rfl

/-- The text of a document that begins with this line. -/
theorem toList_text {m : XmlBlockManager} {line : XmlLine} {entries : List (Nat × XmlLine)}
    (h : m.written = (0, line) :: entries) :
    m.text.toList = line.text.toList ++ spelled entries := by
  have hspelled : ∀ entries : List (Nat × XmlLine),
      '\n' :: (String.join (entries.map fun entry =>
        String.join (List.replicate entry.1 "  ") ++ entry.2.text ++ "\n")).toList =
        spelled entries := by
    intro entries
    induction entries with
    | nil => rfl
    | cons entry rest ih =>
      rw [List.map_cons, String.join_cons, spelled, ← ih, gap]
      simp
  unfold XmlBlockManager.text
  rw [h, List.map_cons, String.join_cons, ← hspelled]
  simp

theorem toList_attributesText (attributes : List (String × String)) :
    (attributesText attributes).toList = spellAttributes attributes := by
  unfold attributesText spellAttributes
  rw [String.toList_join, List.flatMap_map]
  simp

section Spelled

variable (n : Nat) (name : String) (attributes : List (String × String))
  (rest : List (Nat × XmlLine))

theorem spelled_start : spelled ((n, .start name attributes) :: rest) =
    gap n ++ '<' :: (name.toList ++ (spellAttributes attributes ++ '>' :: spelled rest)) := by
  simp [spelled, XmlLine.text, toList_attributesText]

theorem spelled_node : spelled ((n, .node name attributes) :: rest) =
    gap n ++ '<' ::
      (name.toList ++ (spellAttributes attributes ++ '/' :: '>' :: spelled rest)) := by
  simp [spelled, XmlLine.text, toList_attributesText]

theorem spelled_finish : spelled ((n, .finish name) :: rest) =
    gap n ++ '<' :: '/' :: (name.toList ++ '>' :: spelled rest) := by
  simp [spelled, XmlLine.text]

theorem spelled_value (text : String) : spelled ((n, .value text) :: rest) =
    gap n ++ '<' :: ("value".toList ++ (spellAttributes [] ++ '>' ::
      (text.toList ++ '<' :: '/' :: ("value".toList ++ '>' :: spelled rest)))) := by
  simp [spelled, XmlLine.text, spellAttributes]

end Spelled

/-! ## From the text to the lines -/

/-- The markup up to its first tag. -/
theorem exists_tag_of_markup {input rest : List Char} {tokens more : List Token} {data : String}
    {head : Token} (h : Markup input tokens rest)
    (htokens : tokens ++ [.text ""] = .text data :: head :: more) :
    ∃ input1 tag input2 tokens1, CharData input data.toList input1 ∧ Tag input1 tag input2 ∧
      Markup input2 tokens1 rest ∧ tag.head? = some head ∧
      tag ++ (tokens1 ++ [.text ""]) = head :: more := by
  cases h with
  | done => cases htokens
  | more hdata htag hothers =>
    rw [List.cons_append, List.append_assoc] at htokens
    obtain ⟨hfirst, htail⟩ := List.cons.inj htokens
    cases hfirst
    refine ⟨_, _, _, _, hdata, htag, hothers, ?_, htail⟩
    cases htag <;> exact congrArg List.head? htail

/-- Between lines only what stands before a line is character data. -/
theorem input_of_gap {input data input1 input2 y : List Char} {tag : List Token} {n : Nat}
    {c : Char} (hdata : CharData input data input1) (htag : Tag input1 tag input2)
    (hinput : input = gap n ++ '<' :: c :: y) (hc : c ≠ '!') : input1 = '<' :: c :: y := by
  obtain ⟨x, rfl⟩ := htag.input_eq
  have hgap : ∀ d ∈ gap n, d ≠ '<' ∧ d ≠ '&' ∧ d ≠ '\r' := by
    intro d hd
    obtain rfl | rfl := mem_gap hd <;> decide
  rw [(hdata.eq_of_blanks rfl hgap hc hinput).2]

theorem input_of_gap_start {input data input1 input2 y : List Char} {tag : List Token} {n : Nat}
    {name : String} {attributes : List (String × String)} (hdata : CharData input data input1)
    (htag : Tag input1 tag input2) (hhead : tag.head? = some (.start name attributes))
    (hinput : input = gap n ++ '<' :: (name.toList ++ y)) : input1 = '<' :: (name.toList ++ y) := by
  obtain ⟨c, cs, hname, hstart, _⟩ := htag.isName_of_start hhead
  rw [hname] at hinput ⊢
  refine input_of_gap hdata htag hinput ?_
  rintro rfl
  exact absurd hstart (by decide)

theorem XmlLine.WrittenAs.eq {line written : XmlLine} (h : line.WrittenAs written)
    (hline : ∀ name attributes, line ≠ .start name attributes) : written = line := by
  obtain h | ⟨name, attributes, rfl, _⟩ := h
  · exact h
  · exact absurd rfl (hline name attributes)

theorem XmlLine.WrittenAs.exists_start {written : XmlLine} {name : String}
    {attributes : List (String × String)} (h : (XmlLine.start name attributes).WrittenAs written) :
    ∃ attributes1, written = .start name attributes1 ∧
      (attributes1 = attributes ∨ attributes1 = []) := by
  obtain rfl | ⟨name1, attributes1, heq, rfl⟩ := h
  · exact ⟨attributes, rfl, Or.inl rfl⟩
  · cases heq
    exact ⟨[], rfl, Or.inr rfl⟩

/-- Where the text is read as the tokens of the lines that are asked for, these lines are
written, and they are plain. -/
theorem written_of_markup {lines : List XmlLine} {entries : List (Nat × XmlLine)}
    {tokens : List Token} {rest : List Char} (hspells : Spells lines (tokens ++ [.text ""]))
    (has : List.Forall₂ (fun line entry => line.WrittenAs entry.2) lines entries)
    (hmarkup : Markup (spelled entries) tokens rest) :
    entries.map Prod.snd = lines ∧ ∀ line ∈ lines, line.Plain := by
  induction lines generalizing entries tokens with
  | nil =>
    cases has
    exact ⟨rfl, by simp⟩
  | cons line lines ih =>
    obtain ⟨⟨n, written⟩, entries, hline, hothers, rfl⟩ := List.forall₂_cons_left_iff.mp has
    suffices h : ∃ tokens1, Spells lines (tokens1 ++ [.text ""]) ∧
        Markup (spelled entries) tokens1 rest ∧ written = line ∧ line.Plain by
      obtain ⟨tokens1, hspells1, hmarkup1, rfl, hplain⟩ := h
      obtain ⟨hsame, hlines⟩ := ih hspells1 hothers hmarkup1
      refine ⟨by rw [List.map_cons, hsame], fun l hl => ?_⟩
      obtain rfl | hl := List.mem_cons.mp hl
      · exact hplain
      · exact hlines l hl
    generalize htokens : tokens ++ [.text ""] = all at hspells
    cases hspells with
    | @start data name attributes _ more hdata h =>
      obtain ⟨input1, tag, input2, tokens1, hchars, htag, hafter, hhead, htail⟩ :=
        exists_tag_of_markup hmarkup htokens
      obtain ⟨attributes1, rfl, hattributes⟩ := hline.exists_start
      have hinput := input_of_gap_start hchars htag hhead (spelled_start n name attributes1 entries)
      obtain ⟨rfl, hplain, ⟨rfl, _, rfl⟩ | ⟨_, hslash, _⟩⟩ :=
        htag.start_of_spelled hhead hattributes (by decide) hinput
      · obtain ⟨_, rfl⟩ := List.cons.inj htail
        exact ⟨tokens1, h, hafter, rfl, htag.isName_of_start hhead, hplain⟩
      · exact absurd hslash (by decide)
    | @finish data name _ more hdata h =>
      obtain ⟨input1, tag, input2, tokens1, hchars, htag, hafter, hhead, htail⟩ :=
        exists_tag_of_markup hmarkup htokens
      obtain rfl := hline.eq (by simp)
      have hinput := input_of_gap hchars htag (spelled_finish n name entries) (by decide)
      obtain ⟨rfl, rfl, hname⟩ := htag.finish_of_spelled hhead hinput
      obtain ⟨_, rfl⟩ := List.cons.inj htail
      exact ⟨tokens1, h, hafter, rfl, hname⟩
    | @node data data1 name attributes _ more hdata hdata1 h =>
      obtain ⟨input1, tag, input2, tokens1, hchars, htag, hafter, hhead, htail⟩ :=
        exists_tag_of_markup hmarkup htokens
      obtain rfl := hline.eq (by simp)
      have hinput := input_of_gap_start hchars htag hhead (spelled_node n name attributes entries)
      obtain ⟨_, hplain, ⟨_, hslash, _⟩ | ⟨rfl, _, hrest⟩⟩ :=
        htag.start_of_spelled hhead (Or.inl rfl) (by decide) hinput
      · exact absurd hslash (by decide)
      · cases hrest
        cases htail
        exact ⟨tokens1, h, hafter, rfl, htag.isName_of_start hhead, hplain⟩
    | @value data text _ more hdata h =>
      obtain ⟨input1, tag, input2, tokens1, hchars, htag, hafter, hhead, htail⟩ :=
        exists_tag_of_markup hmarkup htokens
      obtain rfl := hline.eq (by simp)
      have hinput := input_of_gap_start hchars htag hhead (spelled_value n entries text)
      obtain ⟨_, _, ⟨rfl, _, rfl⟩ | ⟨_, hslash, _⟩⟩ :=
        htag.start_of_spelled hhead (Or.inl rfl) (by decide) hinput
      · -- the text, up to the end of the value
        obtain ⟨_, hmore⟩ := List.cons.inj htail
        obtain ⟨input3, tag1, input4, tokens2, hchars1, htag1, hafter1, hhead1, htail1⟩ :=
          exists_tag_of_markup hafter hmore
        obtain ⟨x, rfl⟩ := htag1.input_of_finish hhead1
        obtain ⟨rfl, hplain⟩ := hchars1.eq_of_end rfl
        obtain ⟨rfl, rfl, _⟩ := htag1.finish_of_spelled hhead1 rfl
        obtain ⟨_, rfl⟩ := List.cons.inj htail1
        exact ⟨tokens2, h, hafter1, rfl, hplain⟩
      · exact absurd hslash (by decide)

/-! ## From the lines to the text -/

theorem isName_value : IsName "value" := isName_of_all rfl (by decide) (by decide)

theorem plainAttributes_nil : PlainAttributes [] := ⟨by simp, by simp, by simp⟩

/-- Plain lines have a reading of their text as their tokens. -/
theorem markup_of_plain {entries : List (Nat × XmlLine)}
    (hplain : ∀ entry ∈ entries, entry.2.Plain)
    (hlines : ∀ entry ∈ entries, entry.2 ≠ .declaration) :
    ∃ tokens, Markup (spelled entries) tokens ['\n'] ∧
      Spells (entries.map Prod.snd) (tokens ++ [.text ""]) := by
  induction entries with
  | nil => exact ⟨[], .done _, .done blanks_nil⟩
  | cons entry rest ih =>
    obtain ⟨n, line⟩ := entry
    obtain ⟨tokens, hmarkup, hspells⟩ := ih
      (fun e he => hplain e (List.mem_cons_of_mem _ he))
      (fun e he => hlines e (List.mem_cons_of_mem _ he))
    have hline := hplain _ List.mem_cons_self
    obtain ⟨data, hdata, hchars⟩ := CharData.exists_of_blanks (blanks_gap n)
    cases line with
    | declaration => exact absurd rfl (hlines _ List.mem_cons_self)
    | start name attributes =>
      have htag := Tag.start_of_plain hline.1 hline.2 (spelled rest)
      rw [spelled_start]
      exact ⟨_, .more (hchars _) htag hmarkup, .start hdata hspells⟩
    | finish name =>
      have htag := Tag.finish_of_plain hline (spelled rest)
      rw [spelled_finish]
      exact ⟨_, .more (hchars _) htag hmarkup, .finish hdata hspells⟩
    | node name attributes =>
      have htag := Tag.empty_of_plain hline.1 hline.2 (spelled rest)
      rw [spelled_node]
      exact ⟨_, .more (hchars _) htag hmarkup, .node hdata blanks_nil hspells⟩
    | value text =>
      have hfinish := Tag.finish_of_plain isName_value (spelled rest)
      have htext := Markup.more (CharData.of_plain hline _) hfinish hmarkup
      have hstart := Tag.start_of_plain isName_value plainAttributes_nil
        (text.toList ++ '<' :: '/' :: ("value".toList ++ '>' :: spelled rest))
      rw [spelled_value]
      exact ⟨_, .more (hchars _) hstart htext, .value hdata hspells⟩

/-! ## Documents -/

/-- The first text of the tokens may be any blanks. -/
theorem Spells.of_blanks {lines : List XmlLine} {data data1 : String} {tokens : List Token}
    (h : Spells lines (.text data :: tokens)) (hdata1 : Blanks data1.toList) :
    Spells lines (.text data1 :: tokens) := by
  cases h with
  | done hdata => exact .done hdata1
  | start hdata h => exact .start hdata1 h
  | finish hdata h => exact .finish hdata1 h
  | node hdata hdata2 h => exact .node hdata1 hdata2 h
  | value hdata h => exact .value hdata1 h

/-- The markup of a document with what stands before it. -/
theorem exists_markup_of_document {input : List Char} {tokens : List Token}
    (h : Document input tokens) :
    ∃ data rest, Blanks data.toList ∧ Markup input (.text data :: tokens) rest := by
  obtain ⟨blanks, input1, tag, input2, tokens1, rest, hblanks, _, rfl, htag, hmarkup, rfl⟩ := h
  obtain ⟨data, hdata, hchars⟩ := CharData.exists_of_blanks hblanks
  obtain ⟨x, rfl⟩ := htag.input_eq
  exact ⟨data, rest, hdata, .more (hchars x) htag hmarkup⟩

/-- The lines of a document and what is written for them. -/
theorem exists_written {root : String} {attributes : List (String × String)}
    {operations : List XmlOperation} {tree : XMLElement}
    (h : treeWritten root attributes operations = some tree) :
    ∃ lines entries, (∀ line ∈ lines, line ≠ .declaration) ∧
      Nested (.start root attributes :: lines) [tree] ∧
      (writeDocument root attributes operations).text.toList =
        XmlLine.declaration.text.toList ++ spelled ((0, .start root []) :: entries) ∧
      Writes (∀ op ∈ operations, op.Plain) (XmlBlockManager.new.xmlOpenRootNode root attributes)
        (writeDocument root attributes operations) entries lines := by
  obtain ⟨lines, hlines, hdocument⟩ := treeWritten_eq_some.mp h
  obtain ⟨entries, hwrites⟩ :=
    Writes.foldl_perform (m := XmlBlockManager.new.xmlOpenRootNode root attributes) hlines
  have hdeclaration := askedLines_ne_declaration hlines
  refine ⟨lines, entries, hdeclaration, nested_of_readDocument (fun line hline => ?_) hdocument,
    toList_text hwrites.written, hwrites⟩
  obtain rfl | hline := List.mem_cons.mp hline
  · simp
  · exact hdeclaration line hline

theorem plainDocument_of_readsBack {root : String} {attributes : List (String × String)}
    {operations : List XmlOperation} (h : ReadsBack root attributes operations) :
    PlainDocument root attributes operations := by
  obtain ⟨tree, htree, body, tokens, hbody, hdocument, hcontent⟩ := h
  obtain ⟨lines, entries, _, hnested, htext, hwrites⟩ := exists_written htree
  rw [htext] at hbody
  have hsame := List.append_cancel_left hbody
  subst hsame
  obtain ⟨data, rest, hdata, hmarkup⟩ := exists_markup_of_document hdocument
  have hspells := (hnested.content_iff.mp hcontent).of_blanks hdata
  have has := hwrites.as_asked.cons (a := .start root attributes) (b := (0, .start root []))
    (Or.inr ⟨root, attributes, rfl, rfl⟩)
  obtain ⟨hlines, hplain⟩ := written_of_markup hspells has hmarkup
  obtain ⟨hroot, hothers⟩ := List.cons.inj hlines
  cases hroot
  exact {
    root_name := (hplain _ List.mem_cons_self).1
    root_attributes := rfl
    plain := hwrites.plain_of_same hothers fun l hl => hplain l (List.mem_cons_of_mem _ hl)
    closes := (treeWritten_iff root [] operations).mp ⟨tree, htree⟩ }

theorem readsBack_of_plainDocument {root : String} {attributes : List (String × String)}
    {operations : List XmlOperation} (h : PlainDocument root attributes operations) :
    ReadsBack root attributes operations := by
  obtain ⟨hroot, rfl, hplain, hcloses⟩ := h
  obtain ⟨tree, htree⟩ := (treeWritten_iff root [] operations).mpr hcloses
  obtain ⟨lines, entries, hdeclaration, hnested, htext, hwrites⟩ := exists_written htree
  obtain ⟨rfl, hlines, _⟩ := hwrites.same_of_plain hplain fun name hname => by
    rw [List.mem_singleton.mp hname]
    exact hroot
  obtain ⟨tokens, hmarkup, hspells⟩ := markup_of_plain
    (fun entry hentry => hlines _ (List.mem_map_of_mem hentry))
    (fun entry hentry => hdeclaration _ (List.mem_map_of_mem hentry))
  have htag := Tag.start_of_plain hroot plainAttributes_nil (spelled entries)
  refine ⟨tree, htree, _, [.start root []] ++ tokens, htext, ?_, ?_⟩
  · exact ⟨gap 0, _, _, _, tokens, ['\n'], blanks_gap 0, blanks_gap 0,
      spelled_start 0 root [] entries, htag, hmarkup, rfl⟩
  · exact hnested.content_iff.mpr (.start blanks_nil hspells)

/-- A document reads back exactly when it is plain. -/
theorem readsBack_iff (root : String) (attributes : List (String × String))
    (operations : List XmlOperation) :
    ReadsBack root attributes operations ↔ PlainDocument root attributes operations :=
  ⟨plainDocument_of_readsBack, readsBack_of_plainDocument⟩

/-- An interface whose name holds an ampersand. -/
theorem ampersand_is_not_read :
    ¬ ReadsBack "xpcf-registry" [] [.nodeKind .interface [("name", "R&D")], .release] := by
  intro h
  have hplain := (plainDocument_of_readsBack h).plain _ List.mem_cons_self
  obtain ⟨_, _, hampersand, _⟩ := hplain.values _ List.mem_cons_self '&' (by decide)
  exact hampersand rfl

end Xpcf.GrpcGen
