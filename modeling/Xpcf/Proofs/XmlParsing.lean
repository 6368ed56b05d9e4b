import Xpcf.Proofs.XmlLayouts

/-!
# The parser on a layout

One lemma for each way an iteration of `parseDeep` can go, and the run over a
layout by induction on it.  What stands behind the layout decides how the loop
ends: an end tag for the children of an element, nothing for those of a document.
-/

namespace Xpcf.TinyXml

open CodeLib

/-! ## One iteration -/

section Steps

variable {isDocument : Bool} {fuel depth : Nat} {children inner : List XMLNode}
variable {p p1 rest rest1 : Bytes}

theorem parseDeep_leaf {kind : NodeKind} {node : XMLNode} (hidentify : identify p = some (kind, p1))
    (helement : kind ≠ .element) (hdeclaration : kind ≠ .declaration)
    (hparse : parseLeaf kind p1 = .ok (node, rest)) :
    parseDeep isDocument (fuel + 1) depth children p =
      parseDeep isDocument fuel depth (children ++ [node]) rest := by
  rw [parseDeep, hidentify]
  cases kind with
  | element => exact absurd rfl helement
  | declaration => exact absurd rfl hdeclaration
  | comment => simp [hparse]
  | cdata => simp [hparse]
  | unknown => simp [hparse]
  | text => simp [hparse]

theorem parseDeep_declaration {node : XMLNode} (hidentify : identify p = some (.declaration, p1))
    (hparse : parseLeaf .declaration p1 = .ok (node, rest))
    (hlocated : wellLocated isDocument children = true) :
    parseDeep isDocument (fuel + 1) depth children p =
      parseDeep isDocument fuel depth (children ++ [node]) rest := by
  rw [parseDeep, hidentify]
  simp [hparse, hlocated]

variable {name endTag : CString} {attributes : List (CString × CString)}

theorem parseDeep_closing (hidentify : identify p = some (.element, p1))
    (htag : parseTag p1 = .ok (⟨name, attributes, .closing⟩, rest)) :
    parseDeep isDocument (fuel + 1) depth children p = some (.closed children name rest) := by
  rw [parseDeep, hidentify]
  simp only [htag]

theorem parseDeep_closed (hidentify : identify p = some (.element, p1))
    (htag : parseTag p1 = .ok (⟨name, attributes, .closed⟩, rest)) :
    parseDeep isDocument (fuel + 1) depth children p =
      parseDeep isDocument fuel depth (children ++ [.element name attributes []]) rest := by
  rw [parseDeep, hidentify]
  simp only [htag]

theorem parseDeep_opening (hidentify : identify p = some (.element, p1))
    (htag : parseTag p1 = .ok (⟨name, attributes, .opening⟩, rest)) (hrest : rest ≠ [])
    (hdepth : depth + 1 ≠ maxElementDepth)
    (hinner : parseDeep false fuel (depth + 1) [] rest = some (.closed inner name rest1)) :
    parseDeep isDocument (fuel + 1) depth children p =
      parseDeep isDocument fuel depth (children ++ [.element name attributes inner]) rest1 := by
  rw [parseDeep, hidentify]
  simp only [htag, if_neg hrest, if_neg hdepth, hinner, if_true]

end Steps

/-! ## The run -/

def XMLNode.isPlainText : XMLNode → Bool
  | .text _ cData => !cData
  | _ => false

theorem LeafLayout.isPlainText {node : XMLNode} {m : Bytes} (h : LeafLayout node m) :
    node.isPlainText = false := by
  cases h <;> rfl

/-- What follows a plain text is a tag. -/
theorem Layout.starts {depth : Nat} {nodes : List XMLNode} {s : Bytes}
    (h : Layout depth true nodes s) {tail : Bytes}
    (htail : ∃ b t, tail = ascii '<' :: b :: t) : ∃ b t, s ++ tail = ascii '<' :: b :: t := by
  cases h with
  | done hws htext =>
    rw [htext rfl]
    exact htail
  | leaf hws htext hleaf h =>
    obtain ⟨rest, rfl⟩ := hleaf.starts
    rw [htext rfl]
    exact ⟨_, _, rfl⟩
  | empty hws htext hname hattributes hnodup h =>
    obtain ⟨c, rest, hbytes, -⟩ := hname
    rw [htext rfl, hbytes]
    exact ⟨_, _, rfl⟩
  | element hws htext hname hattributes hnodup hdepth hinner h =>
    obtain ⟨c, rest, hbytes, -⟩ := hname
    rw [htext rfl, hbytes]
    exact ⟨_, _, rfl⟩

/-- The loop stops at the tail, with what `done` makes of the children. -/
def Stops (isDocument : Bool) (depth : Nat) (tail : Bytes) (done : List XMLNode → Parsed) : Prop :=
  ∀ ws fuel children, Blank ws → (ws ++ tail).length < fuel →
    parseDeep isDocument fuel depth children (ws ++ tail) = some (done children)

/-- An end tag. -/
def endTagOf (name : CString) : Bytes :=
  ascii '<' :: ascii '/' :: (name.bytes ++ [ascii '>'])

theorem stops_endTag {name : CString} (h : IsName name) (isDocument : Bool) (depth : Nat)
    (rest : Bytes) :
    Stops isDocument depth (endTagOf name ++ rest) fun children => .closed children name rest := by
  intro ws fuel children hws hfuel
  obtain ⟨fuel, rfl⟩ : ∃ f, fuel = f + 1 := ⟨fuel - 1, by omega⟩
  have htag : parseTag (ascii '/' :: (name.bytes ++ [ascii '>'] ++ rest)) =
      .ok (⟨name, [], .closing⟩, rest) := by
    rw [List.append_assoc]
    exact parseTag_closing h rest
  exact parseDeep_closing ((identify_append hws rfl rfl).trans
    (identify_element (by decide) (by decide) _)) htag

theorem stops_nil (isDocument : Bool) (depth : Nat) : Stops isDocument depth [] .ended := by
  intro ws fuel children hws hfuel
  obtain ⟨fuel, rfl⟩ : ∃ f, fuel = f + 1 := ⟨fuel - 1, by omega⟩
  have hidentify : identify (ws ++ []) = none := by
    unfold identify
    rw [skipWhiteSpace_append hws]
    rfl
  rw [parseDeep, hidentify]

/-- Every layout is read as its nodes. -/
theorem parseDeep_layout {depth : Nat} {afterText : Bool} {nodes : List XMLNode} {s : Bytes}
    (h : Layout depth afterText nodes s) {isDocument : Bool} {tail : Bytes}
    {done : List XMLNode → Parsed} (hstops : Stops isDocument depth tail done)
    (htail : (∃ b t, tail = ascii '<' :: b :: t) ∨ ∀ node ∈ nodes, node.isPlainText = false)
    {fuel : Nat} (hfuel : (s ++ tail).length < fuel) (children : List XMLNode) :
    parseDeep isDocument fuel depth children (s ++ tail) = some (done (children ++ nodes)) := by
  induction h generalizing isDocument tail done fuel children with
  | done hws htext =>
    rw [List.append_nil]
    exact hstops _ _ _ hws hfuel
  | @text depth raw s nodes hnul hopen hvisible h ih =>
    have htag : ∃ b t, tail = ascii '<' :: b :: t :=
      htail.resolve_right fun hnone => by
        simpa [XMLNode.isPlainText] using hnone _ List.mem_cons_self
    obtain ⟨fuel, rfl⟩ : ∃ f, fuel = f + 1 := ⟨fuel - 1, by omega⟩
    obtain ⟨b, t, hst⟩ := h.starts htag
    have hparse : parseLeaf .text (raw ++ (s ++ tail)) =
        .ok (.text (getStr true raw) false, s ++ tail) := by
      have htagStart : bytesOf "<" = [ascii '<'] := by decide
      simp only [parseLeaf, htagStart, hst, splitAtFirst_singleton_append hopen]
      exact if_neg (List.cons_ne_nil _ _)
    rw [List.append_assoc, parseDeep_leaf (identify_text hopen hvisible _) (by decide) (by decide)
      hparse, ih hstops (.inl htag) ?_, List.append_assoc]
    · rfl
    · obtain ⟨b, hb, -⟩ := hvisible
      have hpos := List.length_pos_of_mem hb
      simp only [List.length_append] at hfuel ⊢
      omega
  | @leaf depth afterText ws m s node nodes hws htext hleaf h ih =>
    obtain ⟨fuel, rfl⟩ : ∃ f, fuel = f + 1 := ⟨fuel - 1, by omega⟩
    obtain ⟨kind, p1, helement, hdeclaration, hidentify, hparse⟩ := hleaf.parses (s ++ tail)
    obtain ⟨rest, hm⟩ := hleaf.starts
    have hid : identify (ws ++ (m ++ (s ++ tail))) = some (kind, p1) := by
      rw [← hidentify]
      exact identify_append hws (by rw [hm]; rfl) rfl
    rw [List.append_assoc, List.append_assoc, parseDeep_leaf hid helement hdeclaration hparse,
      ih hstops (htail.imp_right fun hall n hn => hall n (List.mem_cons_of_mem _ hn)) ?_,
      List.append_assoc]
    · rfl
    · rw [hm] at hfuel
      simp only [List.length_append, List.length_cons] at hfuel ⊢
      omega
  | @empty depth afterText ws a s name attributes nodes hws htext hname hattributes hnodup h ih =>
    obtain ⟨fuel, rfl⟩ : ∃ f, fuel = f + 1 := ⟨fuel - 1, by omega⟩
    have hshape : (ws ++ ascii '<' :: (name.bytes ++ (a ++ ascii '/' :: ascii '>' :: s))) ++ tail =
        ws ++ ascii '<' :: (name.bytes ++ (a ++ ascii '/' :: ascii '>' :: (s ++ tail))) := by simp
    have hid := (identify_append hws rfl rfl).trans
      (identify_name hname (a ++ ascii '/' :: ascii '>' :: (s ++ tail)))
    rw [hshape] at hfuel ⊢
    rw [parseDeep_closed hid (parseTag_closed hname hattributes hnodup _),
      ih hstops (htail.imp_right fun hall n hn => hall n (List.mem_cons_of_mem _ hn)) ?_,
      List.append_assoc]
    · rfl
    · simp only [List.length_append, List.length_cons] at hfuel ⊢
      omega
  | @element depth afterText ws a inner s name attributes children1 nodes hws htext hname
      hattributes hnodup hdepth hinner h ihinner ih =>
    obtain ⟨fuel, rfl⟩ : ∃ f, fuel = f + 1 := ⟨fuel - 1, by omega⟩
    have hshape : (ws ++ ascii '<' :: (name.bytes ++ (a ++ ascii '>' :: (inner ++
        ascii '<' :: ascii '/' :: (name.bytes ++ ascii '>' :: s))))) ++ tail =
        ws ++ ascii '<' :: (name.bytes ++ (a ++ ascii '>' :: (inner ++
          (endTagOf name ++ (s ++ tail))))) := by
      simp [endTagOf]
    have hid := (identify_append hws rfl rfl).trans
      (identify_name hname (a ++ ascii '>' :: (inner ++ (endTagOf name ++ (s ++ tail)))))
    rw [hshape] at hfuel ⊢
    have hlength : (inner ++ (endTagOf name ++ (s ++ tail))).length < fuel := by
      simp only [List.length_append, List.length_cons] at hfuel ⊢
      omega
    have hchildren := ihinner (stops_endTag hname false (depth + 1) (s ++ tail))
      (.inl ⟨_, _, rfl⟩) hlength []
    have hne : inner ++ (endTagOf name ++ (s ++ tail)) ≠ [] := by simp [endTagOf]
    rw [parseDeep_opening hid (parseTag_opening hname hattributes hnodup _) hne hdepth hchildren,
      ih hstops (htail.imp_right fun hall n hn => hall n (List.mem_cons_of_mem _ hn)) ?_,
      List.append_assoc]
    · rfl
    · simp only [List.length_append] at hlength ⊢
      omega

/-! ## Documents -/

/-- How the nodes of a document may stand: declarations come first. -/
inductive DocumentLayout : List XMLNode → Bytes → Prop where
  | nodes {nodes : List XMLNode} {s : Bytes} (h : Layout 1 false nodes s)
    (htext : ∀ node ∈ nodes, node.isPlainText = false) : DocumentLayout nodes s
  | declaration {ws raw s : Bytes} {nodes : List XMLNode} (hws : Blank ws) (hnul : 0 ∉ raw)
    (hend : ¬ bytesOf "?>" <:+: raw) (h : DocumentLayout nodes s) :
    DocumentLayout (.declaration (getStr false raw) :: nodes)
      (ws ++ (bytesOf "<?" ++ (raw ++ (bytesOf "?>" ++ s))))

theorem DocumentLayout.noNul {nodes : List XMLNode} {s : Bytes} (h : DocumentLayout nodes s) :
    0 ∉ s := by
  have hmarkup : 0 ∉ bytesOf "<?" ∧ 0 ∉ bytesOf "?>" := by decide
  induction h with
  | nodes h => exact h.noNul
  | declaration hws hnul _ _ ih => simp [hws.noNul, hnul, hmarkup, ih]

def XMLNode.isDeclaration : XMLNode → Bool
  | .declaration _ => true
  | _ => false

theorem wellLocated_of_all {children : List XMLNode}
    (h : ∀ node ∈ children, node.isDeclaration = true) : wellLocated true children = true := by
  unfold wellLocated
  simp only [Bool.true_and, Bool.and_eq_true]
  refine ⟨?_, ?_⟩
  · rw [Option.all_eq_true]
    exact fun node hnode => h node (List.mem_of_mem_head? hnode)
  · rw [Option.all_eq_true]
    exact fun node hnode => h node (List.mem_of_getLast? hnode)

theorem parseDeep_documentLayout {nodes : List XMLNode} {s : Bytes} (h : DocumentLayout nodes s)
    {fuel : Nat} (hfuel : s.length < fuel) {children : List XMLNode}
    (hchildren : ∀ node ∈ children, node.isDeclaration = true) :
    parseDeep true fuel 1 children s = some (.ended (children ++ nodes)) := by
  induction h generalizing fuel children with
  | @nodes nodes s h htext =>
    have hrun := parseDeep_layout h (stops_nil true 1) (.inr htext)
      (by rwa [List.append_nil]) children
    rwa [List.append_nil] at hrun
  | @declaration ws raw s nodes hws hnul hend h ih =>
    obtain ⟨fuel, rfl⟩ : ∃ f, fuel = f + 1 := ⟨fuel - 1, by omega⟩
    have hid : identify (ws ++ (bytesOf "<?" ++ (raw ++ (bytesOf "?>" ++ s)))) =
        some (.declaration, raw ++ (bytesOf "?>" ++ s)) :=
      (identify_append hws rfl rfl).trans rfl
    have hparse : parseLeaf .declaration (raw ++ (bytesOf "?>" ++ s)) =
        .ok (.declaration (getStr false raw), s) :=
      parseValue_append ended_declaration hend .parsingDeclaration .declaration s
    rw [parseDeep_declaration hid hparse (wellLocated_of_all hchildren), ih ?_ ?_,
      List.append_assoc]
    · rfl
    · simp only [List.length_append] at hfuel ⊢
      have hlength : (bytesOf "<?").length = 2 := rfl
      omega
    · intro node hnode
      rcases List.mem_append.mp hnode with hold | hnew
      · exact hchildren node hold
      · rw [List.mem_singleton.mp hnew]
        rfl

/-- Without the blanks in front of it a layout is still one, and begins with a tag. -/
theorem DocumentLayout.strip {nodes : List XMLNode} {s : Bytes} (h : DocumentLayout nodes s)
    (hne : nodes ≠ []) :
    DocumentLayout nodes (skipWhiteSpace s) ∧ ∃ t, skipWhiteSpace s = ascii '<' :: t := by
  have hskip : ∀ {ws t : Bytes}, Blank ws →
      skipWhiteSpace (ws ++ ascii '<' :: t) = ascii '<' :: t := fun hws =>
    (skipWhiteSpace_append hws _).trans (skipWhiteSpace_cons (by decide) _)
  cases h with
  | nodes h htext =>
    cases h with
    | done => exact absurd rfl hne
    | text => exact absurd (htext _ List.mem_cons_self) (by simp [XMLNode.isPlainText])
    | leaf hws _ hleaf h =>
      obtain ⟨rest, rfl⟩ := hleaf.starts
      rw [List.cons_append, hskip hws]
      exact ⟨.nodes (.leaf blank_nil (fun _ => rfl) hleaf h) htext, _, rfl⟩
    | empty hws _ hname hattributes hnodup h =>
      rw [hskip hws]
      exact ⟨.nodes (.empty blank_nil (fun _ => rfl) hname hattributes hnodup h) htext, _, rfl⟩
    | element hws _ hname hattributes hnodup hdepth hinner h =>
      rw [hskip hws]
      refine ⟨.nodes ?_ htext, _, rfl⟩
      exact .element blank_nil (fun _ => rfl) hname hattributes hnodup hdepth hinner h
  | @declaration ws raw s nodes hws hnul hend h =>
    have hshape : ws ++ (bytesOf "<?" ++ (raw ++ (bytesOf "?>" ++ s))) =
        ws ++ ascii '<' :: (ascii '?' :: (raw ++ (bytesOf "?>" ++ s))) := rfl
    rw [hshape, hskip hws]
    exact ⟨.declaration blank_nil hnul hend h, _, rfl⟩

/-- A file that holds a layout, with or without a byte order mark. -/
theorem parse_of_layout {nodes : List XMLNode} {s : Bytes} (h : DocumentLayout nodes s)
    (hne : nodes ≠ []) (bom : Bool) :
    parse ((if bom then XMLPrinter.byteOrderMark else []) ++ s) = (none, ⟨bom, nodes⟩) := by
  have hfile : 0 ∉ (if bom then XMLPrinter.byteOrderMark else []) ++ s := by
    intro hin
    rcases List.mem_append.mp hin with hmark | hs
    · cases bom with
      | false => cases hmark
      | true => exact absurd hmark (by decide)
    · exact h.noNul hs
  unfold parse
  rw [CString.bytes_ofBytes hfile]
  cases bom with
  | true =>
    have hskip : skipWhiteSpace (XMLPrinter.byteOrderMark ++ s) =
        XMLPrinter.byteOrderMark ++ s := skipWhiteSpace_cons (by decide) _
    have hs : s ≠ [] := by
      rintro rfl
      obtain ⟨-, t, ht⟩ := h.strip hne
      cases ht
    have hrun := parseDeep_documentLayout h (Nat.lt_succ_self s.length)
      (List.forall_mem_nil _)
    simp only [if_true, hskip, List.prefix_append, decide_true]
    rw [show (XMLPrinter.byteOrderMark ++ s).drop 3 = s from rfl, if_neg hs, hrun]
    rfl
  | false =>
    obtain ⟨hlayout, t, ht⟩ := h.strip hne
    have hmark : ¬ XMLPrinter.byteOrderMark <+: skipWhiteSpace s := by
      rw [ht]
      intro hmatch
      exact absurd (List.cons_prefix_cons.mp hmatch).1 (by decide)
    have hs : skipWhiteSpace s ≠ [] := by
      rw [ht]
      exact List.cons_ne_nil _ _
    have hrun := parseDeep_documentLayout hlayout (Nat.lt_succ_self (skipWhiteSpace s).length)
      (List.forall_mem_nil _)
    simp [hmark, hs, hrun]

end Xpcf.TinyXml
