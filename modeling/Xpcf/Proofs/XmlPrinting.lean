import Xpcf.Proofs.XmlParsing

/-!
# What the printer writes

`XMLPrinter` keeps track of where line breaks may go.  Its output for nodes that can
be printed is a layout (`accept_layout`, `acceptAll_layout`), so it can be read back.

What is read back is the document as it was, cleaned: carriage returns have become
line feeds, and the texts that are all blanks are gone, since the parser passes them
over (`parse_saveFile`).
-/

namespace Xpcf.TinyXml

open CodeLib

/-! ## Documents that can be printed -/

structure PrintableAttributes (attributes : List (CString × CString)) : Prop where
  names : ∀ entry ∈ attributes, IsName entry.1
  nodup : (attributes.map Prod.fst).Nodup

mutual

/-- The node can be printed as a child of a node that is parsed at this depth: its
names are names, the end of its markup is not in its value, and it is not deeper than
the parser goes. -/
def XMLNode.Printable (depth : Nat) : XMLNode → Prop
  | .element name attributes children =>
    IsName name ∧ PrintableAttributes attributes ∧
      (children = [] ∨ depth + 1 ≠ maxElementDepth) ∧ PrintableAll (depth + 1) false children
  | .text value cData => cData = true → ¬ bytesOf "]]>" <:+: value.bytes
  | .comment value => ¬ bytesOf "-->" <:+: value.bytes
  | .declaration _ => False
  | .unknown value =>
    ¬ bytesOf ">" <:+: value.bytes ∧ ¬ bytesOf "--" <+: value.bytes ∧
      ¬ bytesOf "[CDATA[" <+: value.bytes

/-- No plain text stands behind another one. -/
def PrintableAll (depth : Nat) (afterText : Bool) : List XMLNode → Prop
  | [] => True
  | node :: nodes =>
    (afterText = true → node.isPlainText = false) ∧ node.Printable depth ∧
      PrintableAll depth node.isPlainText nodes

end

/-- Declarations come first, and there is no text at the level of the document. -/
def PrintableChildren : List XMLNode → Prop
  | .declaration value :: nodes => ¬ bytesOf "?>" <:+: value.bytes ∧ PrintableChildren nodes
  | nodes => ∀ node ∈ nodes, node.isPlainText = false ∧ node.Printable 1

/-! ## What is lost -/

def CString.normalized (s : CString) : CString := .ofBytes (normalizeNewlines s.bytes)

mutual

/-- What a node is read back as: nothing for a blank text. -/
def XMLNode.clean : XMLNode → List XMLNode
  | .element name attributes children =>
    [.element name (attributes.map fun entry => (entry.1, entry.2.normalized)) (cleanAll children)]
  | .text value cData =>
    if cData = false ∧ value.bytes.all isWhiteSpace = true then []
    else [.text value.normalized cData]
  | .comment value => [.comment value.normalized]
  | .declaration value => [.declaration value.normalized]
  | .unknown value => [.unknown value.normalized]

def cleanAll : List XMLNode → List XMLNode
  | [] => []
  | node :: nodes => node.clean ++ cleanAll nodes

end

def XMLDocument.clean (doc : XMLDocument) : XMLDocument :=
  { doc with children := cleanAll doc.children }

theorem isPlainText_of_mem_clean {node n : XMLNode} (h : node.isPlainText = false)
    (hn : n ∈ node.clean) : n.isPlainText = false := by
  cases node with
  | text value cData =>
    obtain rfl : cData = true := by simpa [XMLNode.isPlainText] using h
    rw [XMLNode.clean, if_neg (by simp), List.mem_singleton] at hn
    rw [hn]
    rfl
  | _ =>
    rw [XMLNode.clean, List.mem_singleton] at hn
    rw [hn]
    rfl

theorem isPlainText_of_mem_cleanAll {nodes : List XMLNode}
    (h : ∀ node ∈ nodes, node.isPlainText = false) {n : XMLNode} (hn : n ∈ cleanAll nodes) :
    n.isPlainText = false := by
  induction nodes with
  | nil => cases hn
  | cons node nodes ih =>
    rw [cleanAll, List.mem_append] at hn
    rcases hn with hn | hn
    · exact isPlainText_of_mem_clean (h node List.mem_cons_self) hn
    · exact ih (fun n hn => h n (List.mem_cons_of_mem _ hn)) hn

/-- A value is printed as it is where entities are not processed. -/
theorem getStr_false_value (value : CString) : getStr false value.bytes = value.normalized :=
  getStr_false _

theorem getStr_true_printString (restricted : Bool) (value : CString) :
    getStr true (printString restricted value) = value.normalized := by
  apply CString.ext
  rw [getStr_printString, CString.normalized,
    CString.bytes_ofBytes (zero_notMem_normalizeNewlines value.noNul)]

/-! ## The steps of the printer -/

namespace XMLPrinter

/-- The output, with the pending end of a tag. -/
def sealed (s : XMLPrinter) : Bytes := s.out ++ if s.elementJustOpened then bytesOf ">" else []

/-- The first node stands at the beginning of a line. -/
def Settled (s : XMLPrinter) : Prop :=
  s.firstElement = true → s.compactMode = true ∨ s.depth = 0

theorem seal_eq (s : XMLPrinter) :
    s.sealElementIfJustOpened = { s with elementJustOpened := false, out := s.sealed } := by
  unfold sealElementIfJustOpened sealed write
  cases h : s.elementJustOpened with
  | true => simp
  | false =>
    cases s
    cases h
    simp

theorem blank_spaces (depth : Int) :
    Blank (List.replicate depth.toNat (bytesOf "    ")).flatten := by
  intro b hb
  obtain ⟨l, hl, hb⟩ := List.mem_flatten.mp hb
  rw [(List.mem_replicate.mp hl).2] at hb
  exact List.all_eq_true.mp (by decide : (bytesOf "    ").all isWhiteSpace = true) b hb

theorem blank_lineFeed : Blank [lineFeed] := by
  intro b hb
  rw [List.mem_singleton.mp hb]
  decide

/-- Blanks may be written before a node, but not behind a text. -/
theorem prepareForNewNode_eq {s : XMLPrinter} (hs : s.Settled) :
    ∃ ws first, Blank ws ∧ (0 ≤ s.textDepth → ws = []) ∧ (first = true → s.compactMode = true) ∧
      s.prepareForNewNode s.compactMode =
        { s with elementJustOpened := false, out := s.sealed ++ ws, firstElement := first } := by
  unfold prepareForNewNode
  rw [seal_eq]
  by_cases hcompact : s.compactMode = true
  · exact ⟨[], s.firstElement, blank_nil, fun _ => rfl, fun _ => hcompact, by simp [hcompact]⟩
  · by_cases hfirst : s.firstElement = true
    · have hdepth := (hs hfirst).resolve_left hcompact
      refine ⟨[], false, blank_nil, fun _ => rfl, (fun h => by cases h), ?_⟩
      simp [hcompact, hfirst, hdepth, printSpace, write]
    · by_cases htext : s.textDepth < 0
      · refine ⟨[lineFeed] ++ (List.replicate s.depth.toNat (bytesOf "    ")).flatten, false,
          blank_lineFeed.append (blank_spaces _), fun h => absurd htext (by omega),
          (fun h => by cases h), ?_⟩
        simp [hcompact, hfirst, htext, printSpace, write]
      · exact ⟨[], false, blank_nil, fun _ => rfl, (fun h => by cases h),
          by simp [hcompact, hfirst, htext]⟩

theorem pushAttribute_eq (s : XMLPrinter) (attrib : CString × CString) :
    s.pushAttribute attrib = s.write (ascii ' ' :: (attrib.1.bytes ++ ascii '=' :: ascii '"' ::
      (printString false attrib.2 ++ [ascii '"']))) := by
  have hparts : bytesOf " " = [ascii ' '] ∧ bytesOf "=\"" = [ascii '=', ascii '"'] ∧
    bytesOf "\"" = [ascii '"'] := by decide
  simp [pushAttribute, write, hparts]

/-- A printed string holds no zero, and none of the characters that have entities. -/
theorem notMem_printString (restricted : Bool) (value : CString) {c : UInt8}
    (hc : c = 0 ∨ c = ascii '<' ∨ (restricted = false ∧ c = ascii '"')) :
    c ∉ printString restricted value := by
  intro hin
  obtain ⟨d, hd, hin⟩ := List.mem_flatMap.mp hin
  have hclean : (entities.all fun entity => decide (c ∉ entity.1)) = true := by
    rcases hc with rfl | rfl | ⟨-, rfl⟩ <;> decide
  have hends : c ≠ ascii '&' ∧ c ≠ ascii ';' := by
    rcases hc with rfl | rfl | ⟨-, rfl⟩ <;> decide
  rcases printChar_cases restricted d with ⟨-, hprint⟩ | ⟨entity, hentity, -, hprint⟩
  · rw [hprint, List.mem_singleton] at hin
    subst hin
    rcases hc with rfl | rfl | ⟨rfl, rfl⟩
    · exact value.noNul hd
    · cases restricted <;> exact absurd hprint (by decide)
    · exact absurd hprint (by decide)
  · rw [hprint] at hin
    have hpattern := of_decide_eq_true (List.all_eq_true.mp hclean entity hentity)
    simp [hends, hpattern] at hin

theorem pushAttributes_eq {attributes : List (CString × CString)}
    (h : PrintableAttributes attributes) (s : XMLPrinter) :
    ∃ a, AttributesLayout (attributes.map fun entry => (entry.1, entry.2.normalized)) a ∧
      attributes.foldl pushAttribute s = s.write a := by
  induction attributes generalizing s with
  | nil => exact ⟨[], .done, by simp [write]⟩
  | cons attrib attributes ih =>
    have hrest : PrintableAttributes attributes :=
      ⟨fun e he => h.names e (List.mem_cons_of_mem _ he), (List.nodup_cons.mp h.nodup).2⟩
    obtain ⟨a, ha, hrun⟩ := ih hrest (s.pushAttribute attrib)
    have hlayout := AttributesLayout.more (h.names _ List.mem_cons_self)
      (notMem_printString false attrib.2 (.inl rfl))
      (notMem_printString false attrib.2 (.inr (.inr ⟨rfl, rfl⟩))) ha
    rw [getStr_true_printString] at hlayout
    refine ⟨_, hlayout, ?_⟩
    rw [List.foldl_cons, hrun, pushAttribute_eq]
    simp [write]

/-- The end of an element: one tag if nothing was written since it was opened. -/
theorem closeElement_eq {s : XMLPrinter} {name : CString} {stack : List CString}
    (hstack : s.stack = name :: stack) (compact : Bool) :
    ∃ ws nl textDepth, Blank ws ∧ (0 ≤ s.textDepth → ws = []) ∧ Blank nl ∧
      (1 < s.depth → nl = []) ∧ s.closeElement compact =
        { s with
          out := s.out ++ ((if s.elementJustOpened then bytesOf "/>"
            else ws ++ (bytesOf "</" ++ (name.bytes ++ bytesOf ">"))) ++ nl)
          stack := stack, depth := s.depth - 1, textDepth := textDepth
          elementJustOpened := false } := by
  have hnl : ∃ nl, Blank nl ∧ (1 < s.depth → nl = []) ∧
      (if s.depth - 1 = 0 ∧ compact = false then [lineFeed] else []) = nl := by
    refine ⟨_, ?_, fun h => if_neg fun h1 => ?_, rfl⟩
    · split
      · exact blank_lineFeed
      · exact blank_nil
    · omega
  obtain ⟨nl, hblank, hinner, hnl⟩ := hnl
  have hws : ∃ ws, Blank ws ∧ (0 ≤ s.textDepth → ws = []) ∧
      (if s.textDepth < 0 ∧ compact = false then
        [lineFeed] ++ (List.replicate (s.depth - 1).toNat (bytesOf "    ")).flatten
        else []) = ws := by
    refine ⟨_, ?_, fun h => if_neg fun h1 => ?_, rfl⟩
    · split
      · exact blank_lineFeed.append (blank_spaces _)
      · exact blank_nil
    · omega
  obtain ⟨ws, hblank1, htext, hws⟩ := hws
  refine ⟨ws, nl, if s.textDepth = s.depth - 1 then -1 else s.textDepth, hblank1, htext, hblank,
    hinner, ?_⟩
  subst hnl hws
  unfold closeElement printSpace write
  rw [hstack]
  cases s.elementJustOpened <;> simp only <;> split_ifs <;> simp_all

/-- What printing nodes leaves behind: the text is written, and the printer is where
it was. -/
structure Wrote (s s1 : XMLPrinter) (text : Bytes) : Prop where
  out : s1.out = s.sealed ++ text
  depth : s1.depth = s.depth
  stack : s1.stack = s.stack
  compact : s1.compactMode = s.compactMode
  opened : s1.elementJustOpened = false
  settled : s1.Settled

theorem sealed_eq_out {s : XMLPrinter} (h : s.elementJustOpened = false) : s.sealed = s.out := by
  unfold sealed
  rw [h]
  simp

theorem Wrote.trans {s s1 s2 : XMLPrinter} {text text1 : Bytes} (h : s.Wrote s1 text)
    (h1 : s1.Wrote s2 text1) : s.Wrote s2 (text ++ text1) := by
  refine ⟨?_, h1.depth.trans h.depth, h1.stack.trans h.stack, h1.compact.trans h.compact,
    h1.opened, h1.settled⟩
  rw [h1.out, sealed_eq_out h.opened, h.out, List.append_assoc]

theorem pushMarkup_wrote {s : XMLPrinter} (hs : s.Settled) (before after : Bytes)
    (value : CString) :
    ∃ ws, Blank ws ∧ (0 ≤ s.textDepth → ws = []) ∧
      s.Wrote (s.pushMarkup before after value) (ws ++ (before ++ (value.bytes ++ after))) := by
  obtain ⟨ws, first, hws, htext, hfirst, hrun⟩ := prepareForNewNode_eq hs
  refine ⟨ws, hws, htext, ?_⟩
  unfold pushMarkup
  rw [hrun]
  exact ⟨by simp [write], rfl, rfl, rfl, rfl, fun h => .inl (hfirst h)⟩

theorem pushText_wrote {s : XMLPrinter} (hs : s.Settled) (text : CString) (cdata : Bool) :
    s.Wrote (s.pushText text cdata) (if cdata then
        bytesOf "<![CDATA[" ++ (text.bytes ++ bytesOf "]]>") else printString true text) ∧
      (s.pushText text cdata).textDepth = s.depth - 1 := by
  unfold pushText
  rw [seal_eq]
  cases cdata with
  | true => exact ⟨⟨by simp [write, sealed], rfl, rfl, rfl, rfl, hs⟩, rfl⟩
  | false => exact ⟨⟨by simp [write, sealed], rfl, rfl, rfl, rfl, hs⟩, rfl⟩

end XMLPrinter

/-! ## Printed nodes -/

/-- The text of a node, wherever the node may stand. -/
def NodeLayout (depth : Nat) (node : XMLNode) (m : Bytes) : Prop :=
  ∀ afterText ws nodes s, Blank ws → (afterText = true → ws = []) → Layout depth false nodes s →
    Layout depth afterText (node.clean ++ nodes) (ws ++ (m ++ s))

theorem nodeLayout_of_leaf {depth : Nat} {node node1 : XMLNode} {m : Bytes}
    (hclean : node.clean = [node1]) (h : LeafLayout node1 m) : NodeLayout depth node m := by
  intro afterText ws nodes s hws htext hrest
  rw [hclean]
  exact .leaf hws htext h hrest

/-- What the printer writes around names and values. -/
theorem markup : bytesOf "<" = [ascii '<'] ∧ bytesOf "/>" = [ascii '/', ascii '>'] ∧
    bytesOf "</" = [ascii '<', ascii '/'] ∧ bytesOf ">" = [ascii '>'] := by decide

/-- A byte that is printed is in the output, unless it has an entity; then the output
holds an ampersand. -/
theorem exists_visible_printString (restricted : Bool) {value : CString}
    (h : ∃ b ∈ value.bytes, isWhiteSpace b = false) :
    ∃ b ∈ printString restricted value, isWhiteSpace b = false := by
  obtain ⟨b, hb, hvisible⟩ := h
  rcases printChar_cases restricted b with ⟨-, hprint⟩ | ⟨entity, -, -, hprint⟩
  · refine ⟨b, List.mem_flatMap.mpr ⟨b, hb, ?_⟩, hvisible⟩
    rw [hprint]
    exact List.mem_singleton_self b
  · refine ⟨ascii '&', List.mem_flatMap.mpr ⟨b, hb, ?_⟩, by decide⟩
    rw [hprint]
    exact List.mem_cons_self

/-- Blanks in front of a tag are passed over. -/
theorem Layout.blanks {depth : Nat} {nodes : List XMLNode} {s : Bytes}
    (h : Layout depth true nodes s) {ws : Bytes} (hws : Blank ws) :
    Layout depth false nodes (ws ++ s) := by
  have hfree : false = true → ws = [] := fun heq => by cases heq
  cases h with
  | done _ htext =>
    rw [htext rfl, List.append_nil]
    exact .done hws hfree
  | leaf _ htext hleaf h =>
    rw [htext rfl, List.nil_append]
    exact .leaf hws hfree hleaf h
  | empty _ htext hname hattributes hnodup h =>
    rw [htext rfl, List.nil_append]
    exact .empty hws hfree hname hattributes hnodup h
  | element _ htext hname hattributes hnodup hdepth hinner h =>
    rw [htext rfl, List.nil_append]
    exact .element hws hfree hname hattributes hnodup hdepth hinner h

theorem printString_blank {restricted : Bool} {value : CString} (h : Blank value.bytes) :
    printString restricted value = value.bytes := by
  have hprint : ∀ b ∈ value.bytes, printChar restricted b = [b] := by
    intro b hb
    have htest := of_all_bytes
      (fun b => !isWhiteSpace b || decide (printChar restricted b = [b]))
      (by cases restricted <;> decide +kernel) b
    simpa [h b hb] using htest
  unfold printString
  rw [List.flatMap_congr hprint, List.flatMap_singleton']

/-- A plain text is printed without blanks around it. -/
theorem plainText_layout (depth : Nat) {node : XMLNode} (hplain : node.isPlainText = true)
    {s : XMLPrinter} (hs : s.Settled) :
    ∃ m, s.Wrote (node.accept s) m ∧ (node.accept s).textDepth = s.depth - 1 ∧
      ∀ nodes t, Layout depth true nodes t →
        Layout depth false (node.clean ++ nodes) (m ++ t) := by
  cases node with
  | text value cData =>
    obtain rfl : cData = false := by simpa [XMLNode.isPlainText] using hplain
    obtain ⟨hwrote, hdepth⟩ := XMLPrinter.pushText_wrote hs value false
    refine ⟨_, hwrote, hdepth, fun nodes t ht => ?_⟩
    by_cases hblank : value.bytes.all isWhiteSpace = true
    · have hws : Blank value.bytes := List.all_eq_true.mp hblank
      rw [XMLNode.clean, if_pos ⟨rfl, hblank⟩, if_neg Bool.false_ne_true, printString_blank hws]
      exact ht.blanks hws
    · have hvisible : ∃ b ∈ value.bytes, isWhiteSpace b = false := by simpa using hblank
      have hlayout := Layout.text (XMLPrinter.notMem_printString true value (.inl rfl))
        (XMLPrinter.notMem_printString true value (.inr (.inl rfl)))
        (exists_visible_printString true hvisible) ht
      rw [getStr_true_printString] at hlayout
      rw [XMLNode.clean, if_neg fun h => hblank h.2]
      exact hlayout
  | element => cases hplain
  | comment => cases hplain
  | declaration => cases hplain
  | unknown => cases hplain

mutual

theorem accept_layout {depth : Nat} : ∀ (node : XMLNode) {s : XMLPrinter},
    node.Printable depth → node.isPlainText = false → s.Settled → 0 ≤ s.depth →
    ∃ ws m nl, Blank ws ∧ (0 ≤ s.textDepth → ws = []) ∧ Blank nl ∧ (0 < s.depth → nl = []) ∧
      NodeLayout depth node m ∧ s.Wrote (node.accept s) (ws ++ (m ++ nl))
  | .text value true, s, hp, _, hs, _ => by
    have hleaf := LeafLayout.cdata value.noNul (hp rfl)
    rw [getStr_false_value] at hleaf
    refine ⟨[], _, [], blank_nil, fun _ => rfl, blank_nil, fun _ => rfl,
      nodeLayout_of_leaf (by rw [XMLNode.clean, if_neg (by simp)]) hleaf, ?_⟩
    rw [List.append_nil]
    exact (XMLPrinter.pushText_wrote hs value true).1
  | .comment value, s, hp, _, hs, _ => by
    have hleaf := LeafLayout.comment value.noNul hp
    rw [getStr_false_value] at hleaf
    obtain ⟨ws, hws, htext, hwrote⟩ :=
      XMLPrinter.pushMarkup_wrote hs (bytesOf "<!--") (bytesOf "-->") value
    refine ⟨ws, _, [], hws, htext, blank_nil, fun _ => rfl, nodeLayout_of_leaf rfl hleaf, ?_⟩
    rw [List.append_nil]
    exact hwrote
  | .unknown value, s, hp, _, hs, _ => by
    obtain ⟨hend, hcomment, hcdata⟩ := hp
    have hleaf := LeafLayout.unknown value.noNul hend hcomment hcdata
    rw [getStr_false_value] at hleaf
    obtain ⟨ws, hws, htext, hwrote⟩ :=
      XMLPrinter.pushMarkup_wrote hs (bytesOf "<!") (bytesOf ">") value
    refine ⟨ws, _, [], hws, htext, blank_nil, fun _ => rfl, nodeLayout_of_leaf rfl hleaf, ?_⟩
    rw [List.append_nil]
    exact hwrote
  | .element name attributes children, s, hp, _, hs, hdepth => by
    obtain ⟨hname, hattributes, hdeep, hchildren⟩ := hp
    obtain ⟨ws, first, hws, htext, hfirst, hprepare⟩ := XMLPrinter.prepareForNewNode_eq hs
    have hnodup :
        ((attributes.map fun entry => (entry.1, entry.2.normalized)).map Prod.fst).Nodup := by
      simpa [Function.comp_def] using hattributes.nodup
    -- the printer with the tag open and its attributes written
    obtain ⟨a, ha, hpush⟩ :=
      XMLPrinter.pushAttributes_eq hattributes (s.openElement name s.compactMode)
    let s1 : XMLPrinter := { s with
      out := s.sealed ++ (ws ++ (bytesOf "<" ++ (name.bytes ++ a))), elementJustOpened := true
      stack := name :: s.stack, firstElement := first, depth := s.depth + 1 }
    have hs1 :
        attributes.foldl XMLPrinter.pushAttribute (s.openElement name s.compactMode) = s1 := by
      rw [hpush]
      simp [s1, XMLPrinter.openElement, hprepare, XMLPrinter.write]
    have haccept : (XMLNode.element name attributes children).accept s =
        (acceptAll children s1).closeElement (acceptAll children s1).compactMode := by
      rw [XMLNode.accept, hs1]
    rw [haccept]
    by_cases hempty : children = []
    · subst hempty
      obtain ⟨ws1, nl, textDepth, -, -, hnl, hinner, hclose⟩ :=
        XMLPrinter.closeElement_eq (s := s1) rfl s.compactMode
      refine ⟨ws, bytesOf "<" ++ (name.bytes ++ (a ++ bytesOf "/>")), nl, hws, htext, hnl,
        fun h => hinner (by show 1 < s.depth + 1; omega), ?_, ?_⟩
      · intro afterText ws nodes t hws htext hrest
        have hlayout := Layout.empty hws htext hname ha hnodup hrest
        rw [markup.1, markup.2.1, XMLNode.clean, cleanAll]
        simpa using hlayout
      · rw [acceptAll]
        show s.Wrote (s1.closeElement s.compactMode) _
        rw [hclose]
        refine ⟨by simp [s1], by simp [s1], rfl, rfl, rfl, fun h => .inl (hfirst h)⟩
    · have hsettled : s1.Settled := fun h => .inl (hfirst h)
      obtain ⟨m, hwrote, hlayout⟩ := acceptAll_layout children hempty hchildren hsettled
        (by show 0 < s.depth + 1; omega) (fun h => by cases h)
      obtain ⟨ws1, nl, textDepth, hws1, htext1, hnl, hinner, hclose⟩ :=
        XMLPrinter.closeElement_eq hwrote.stack (acceptAll children s1).compactMode
      have hdepth1 : (acceptAll children s1).depth = s.depth + 1 := hwrote.depth
      refine ⟨ws, bytesOf "<" ++ (name.bytes ++ (a ++ (bytesOf ">" ++ ((m ++ ws1) ++
        (bytesOf "</" ++ (name.bytes ++ bytesOf ">")))))), nl, hws, htext, hnl,
        fun h => hinner (by omega), ?_, ?_⟩
      · intro afterText ws nodes t hws htext hrest
        have hlayout := Layout.element hws htext hname ha hnodup
          (hdeep.resolve_left hempty) (hlayout ws1 hws1 htext1) hrest
        rw [markup.1, markup.2.2.1, markup.2.2.2, XMLNode.clean]
        simpa using hlayout
      · rw [hclose]
        refine ⟨?_, by simp [hdepth1], rfl, hwrote.compact, rfl, fun h => ?_⟩
        · have hsealed : s1.sealed = s.sealed ++ (ws ++ (bytesOf "<" ++ (name.bytes ++ a))) ++
              bytesOf ">" := rfl
          rw [hwrote.opened, hwrote.out, hsealed]
          simp
        · exact (hwrote.settled h).imp id fun h0 => by omega

theorem acceptAll_layout {depth : Nat} : ∀ (nodes : List XMLNode) {afterText : Bool}
    {s : XMLPrinter}, nodes ≠ [] → PrintableAll depth afterText nodes → s.Settled →
    0 < s.depth → (afterText = true → 0 ≤ s.textDepth) →
    ∃ m, s.Wrote (acceptAll nodes s) m ∧
      ∀ ws, Blank ws → (0 ≤ (acceptAll nodes s).textDepth → ws = []) →
        Layout depth afterText (cleanAll nodes) (m ++ ws)
  | [], _, _, hne, _, _, _, _ => absurd rfl hne
  | node :: nodes, afterText, s, _, hp, hs, hdepth, htext => by
    obtain ⟨hbehind, hnode, hrest⟩ := hp
    have hfirst : ∃ m, s.Wrote (node.accept s) m ∧
        (node.isPlainText = true → 0 ≤ (node.accept s).textDepth) ∧
        ∀ t, Layout depth node.isPlainText (cleanAll nodes) t →
          Layout depth afterText (node.clean ++ cleanAll nodes) (m ++ t) := by
      cases hplain : node.isPlainText with
      | true =>
        obtain rfl : afterText = false := by
          cases afterText with
          | false => rfl
          | true => exact hplain.symm.trans (hbehind rfl)
        obtain ⟨m, hwrote, htext1, hlayout⟩ := plainText_layout depth hplain hs
        exact ⟨m, hwrote, fun _ => by omega, hlayout (cleanAll nodes)⟩
      | false =>
        obtain ⟨ws, m, nl, hws, htext1, hnl, hinner, hlayout, hwrote⟩ :=
          accept_layout node hnode hplain hs (by omega)
        obtain rfl := hinner hdepth
        rw [List.append_nil] at hwrote
        refine ⟨_, hwrote, (fun h => by cases h), fun t ht => ?_⟩
        rw [List.append_assoc]
        exact hlayout afterText ws (cleanAll nodes) t hws (fun h => htext1 (htext h)) ht
    obtain ⟨m, hwrote, htext1, hlayout⟩ := hfirst
    rw [acceptAll, cleanAll]
    by_cases hempty : nodes = []
    · subst hempty
      refine ⟨m, hwrote, fun ws hws h => ?_⟩
      exact hlayout _ (.done hws fun h1 => h (htext1 h1))
    · obtain ⟨m1, hwrote1, hlayout1⟩ := acceptAll_layout nodes hempty hrest hwrote.settled
        (by rw [hwrote.depth]; exact hdepth) htext1
      refine ⟨m ++ m1, hwrote.trans hwrote1, fun ws hws h => ?_⟩
      rw [List.append_assoc]
      exact hlayout _ (hlayout1 ws hws h)

end

/-! ## Printed documents -/

theorem XMLPrinter.wrote_nothing {s : XMLPrinter} (hs : s.Settled)
    (hopened : s.elementJustOpened = false) : s.Wrote s [] :=
  ⟨by rw [sealed_eq_out hopened, List.append_nil], rfl, rfl, rfl, hopened, hs⟩

/-- Behind the declarations.  The line end of an element is a blank in front of the
next node. -/
theorem acceptNodes_layout {nodes : List XMLNode} {s : XMLPrinter}
    (h : ∀ node ∈ nodes, node.isPlainText = false ∧ node.Printable 1) (hs : s.Settled)
    (hopened : s.elementJustOpened = false) (hdepth : s.depth = 0) :
    ∃ m, s.Wrote (acceptAll nodes s) m ∧
      ∀ ws, Blank ws → Layout 1 false (cleanAll nodes) (ws ++ m) := by
  induction nodes generalizing s with
  | nil =>
    refine ⟨[], ?_, fun ws hws => ?_⟩
    · rw [acceptAll]
      exact XMLPrinter.wrote_nothing hs hopened
    · rw [List.append_nil]
      exact .done hws fun h => by cases h
  | cons node nodes ih =>
    obtain ⟨hplain, hnode⟩ := h node List.mem_cons_self
    obtain ⟨ws1, m, nl, hws1, -, hnl, -, hlayout, hwrote⟩ :=
      accept_layout node hnode hplain hs hdepth.ge
    obtain ⟨m1, hwrote1, hlayout1⟩ := ih (fun n hn => h n (List.mem_cons_of_mem _ hn))
      hwrote.settled hwrote.opened (hwrote.depth.trans hdepth)
    refine ⟨ws1 ++ (m ++ nl) ++ m1, ?_, fun ws hws => ?_⟩
    · rw [acceptAll]
      exact hwrote.trans hwrote1
    · rw [cleanAll]
      have hnode := hlayout false (ws ++ ws1) (cleanAll nodes) (nl ++ m1) (hws.append hws1)
        (fun h => by cases h)
        (hlayout1 nl hnl)
      simpa using hnode

theorem acceptChildren_layout {nodes : List XMLNode} {s : XMLPrinter}
    (h : PrintableChildren nodes) (hs : s.Settled) (hopened : s.elementJustOpened = false)
    (hdepth : s.depth = 0) :
    ∃ m, s.Wrote (acceptAll nodes s) m ∧
      ∀ ws, Blank ws → DocumentLayout (cleanAll nodes) (ws ++ m) := by
  induction nodes generalizing s with
  | nil =>
    obtain ⟨m, hwrote, hlayout⟩ :=
      acceptNodes_layout (List.forall_mem_nil _) hs hopened hdepth
    exact ⟨m, hwrote, fun ws hws => .nodes (hlayout ws hws) (List.forall_mem_nil _)⟩
  | cons node nodes ih =>
    by_cases hdeclaration : node.isDeclaration = true
    · obtain ⟨value, rfl⟩ : ∃ value, node = .declaration value := by
        cases node with
        | declaration value => exact ⟨value, rfl⟩
        | _ => cases hdeclaration
      obtain ⟨hend, hrest⟩ := h
      obtain ⟨ws1, hws1, -, hwrote⟩ :=
        XMLPrinter.pushMarkup_wrote hs (bytesOf "<?") (bytesOf "?>") value
      obtain ⟨m1, hwrote1, hlayout1⟩ := ih hrest hwrote.settled hwrote.opened
        (hwrote.depth.trans hdepth)
      refine ⟨_, hwrote.trans hwrote1, fun ws hws => ?_⟩
      have hnode := DocumentLayout.declaration (hws.append hws1) value.noNul hend
        (hlayout1 [] blank_nil)
      rw [getStr_false_value] at hnode
      rw [cleanAll, XMLNode.clean]
      simpa using hnode
    · have hall : ∀ n ∈ node :: nodes, n.isPlainText = false ∧ n.Printable 1 := by
        cases node with
        | declaration => exact absurd rfl hdeclaration
        | _ => exact h
      obtain ⟨m, hwrote, hlayout⟩ := acceptNodes_layout hall hs hopened hdepth
      exact ⟨m, hwrote, fun ws hws => .nodes (hlayout ws hws) fun n hn =>
        isPlainText_of_mem_cleanAll (fun n hn => (hall n hn).1) hn⟩

/-- A saved document is a layout of its nodes, behind its byte order mark. -/
theorem saveFile_layout {doc : XMLDocument} (h : PrintableChildren doc.children) (compact : Bool) :
    ∃ m, DocumentLayout doc.clean.children m ∧
      doc.saveFile compact = (if doc.writeBOM then XMLPrinter.byteOrderMark else []) ++ m := by
  have hstart : ∀ mark : Bytes, ((XMLPrinter.new compact).write mark).Settled := fun _ _ => .inr rfl
  unfold XMLDocument.saveFile XMLDocument.accept
  cases doc.writeBOM with
  | true =>
    obtain ⟨m, hwrote, hlayout⟩ := acceptChildren_layout h (hstart XMLPrinter.byteOrderMark) rfl rfl
    exact ⟨m, hlayout [] blank_nil, hwrote.out⟩
  | false =>
    obtain ⟨m, hwrote, hlayout⟩ := acceptChildren_layout h (hstart []) rfl rfl
    exact ⟨m, hlayout [] blank_nil, hwrote.out⟩

theorem cleanAll_ne_nil {nodes : List XMLNode} (h : PrintableChildren nodes) (hne : nodes ≠ []) :
    cleanAll nodes ≠ [] := by
  cases nodes with
  | nil => exact absurd rfl hne
  | cons node nodes =>
    rw [cleanAll]
    cases node with
    | text value cData =>
      have hcData : cData = true := by
        simpa [XMLNode.isPlainText] using (h _ List.mem_cons_self).1
      rw [XMLNode.clean, if_neg (by simp [hcData])]
      exact List.cons_ne_nil _ _
    | _ =>
      rw [XMLNode.clean]
      exact List.cons_ne_nil _ _

/-- A document is saved and loaded again. -/
theorem parse_saveFile {doc : XMLDocument} (h : PrintableChildren doc.children)
    (hne : doc.children ≠ []) (compact : Bool) :
    parse (doc.saveFile compact) = (none, doc.clean) := by
  obtain ⟨m, hlayout, hsaved⟩ := saveFile_layout h compact
  rw [hsaved]
  exact parse_of_layout hlayout (cleanAll_ne_nil h hne) doc.writeBOM

end Xpcf.TinyXml
