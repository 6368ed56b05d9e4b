import Xpcf.Proofs.XmlPrinting

/-!
# What the parser makes of any file

Whatever a file holds, the nodes that `Parse` has made of it can be printed, also when
it stops at an error (`accepted_parse`): names are names, no attribute stands twice,
declarations come first, no text stands behind another one, and nothing is deeper than
the limit.

So a document that was loaded can be saved and loaded again, and is then the cleaned
one (`parse_saveFile_of_parse`); from then on it does not change any more.
-/

namespace Xpcf.TinyXml

open CodeLib

/-! ## Names and attributes -/

theorem isName_of_parseName {p rest : Bytes} {name : CString}
    (h : parseName p = some (name, rest)) : IsName name := by
  cases p with
  | nil => cases h
  | cons c p =>
    rw [parseName] at h
    split at h
    · rename_i hstart
      cases h
      have hchars : ∀ d ∈ p.takeWhile isNameChar, isNameChar d = true := fun d hd =>
        List.all_eq_true.mp List.all_takeWhile d hd
      have hzero : 0 ∉ c :: p.takeWhile isNameChar := by
        intro hin
        rcases List.mem_cons.mp hin with heq | hin
        · rw [← heq] at hstart
          exact absurd hstart (by decide)
        · exact absurd (hchars 0 hin) (by decide)
      exact ⟨c, _, CString.bytes_ofBytes hzero, hstart, hchars⟩
    · cases h

theorem isName_of_parseAttribute {p rest : Bytes} {attrib : CString × CString}
    (h : parseAttribute p = some (attrib, rest)) : IsName attrib.1 := by
  unfold parseAttribute at h
  split at h
  · cases h
  · rename_i name p1 hname
    split at h
    · cases h
    · split at h
      · split at h
        · cases h
        · split at h
          · obtain ⟨parts, -, heq⟩ := Option.map_eq_some_iff.mp h
            cases heq
            exact isName_of_parseName hname
          · cases h
      · cases h

/-- The attributes that a tag adds are new. -/
theorem printable_of_parseAttributes {attributes attributes1 : List (CString × CString)}
    {closingType closingType1 : ClosingType} {p rest : Bytes}
    (hbefore : PrintableAttributes attributes)
    (h : parseAttributes attributes closingType p = .ok (attributes1, closingType1, rest)) :
    PrintableAttributes attributes1 := by
  fun_induction parseAttributes attributes closingType p with
  | case1 => cases h
  | case2 => cases h
  | case3 => cases h
  | case4 attributes p c rest hskip hstart attrib p1 hread hnew ih =>
    refine ih ⟨?_, ?_⟩ h
    · intro entry hentry
      rcases List.mem_append.mp hentry with hold | hlast
      · exact hbefore.names entry hold
      · rw [List.mem_singleton.mp hlast]
        exact isName_of_parseAttribute hread
    · rw [List.map_append, List.map_singleton, List.nodup_append]
      refine ⟨hbefore.nodup, List.nodup_singleton _, ?_⟩
      intro name hname name1 hname1
      obtain ⟨entry, hentry, rfl⟩ := List.mem_map.mp hname
      rw [List.mem_singleton.mp hname1]
      intro heq
      exact hnew (List.any_eq_true.mpr ⟨entry, hentry, decide_eq_true heq⟩)
  | case5 =>
    cases h
    exact hbefore
  | case6 =>
    cases h
    exact hbefore
  | case7 => cases h

theorem printable_of_parseTag {p rest : Bytes} {tag : XMLTag} (h : parseTag p = .ok (tag, rest)) :
    IsName tag.name ∧ PrintableAttributes tag.attributes := by
  unfold parseTag at h
  dsimp only at h
  split at h
  · cases h
  · rename_i name p1 hname
    split at h
    · cases h
    · rename_i hattributes
      cases h
      exact ⟨isName_of_parseName hname,
        printable_of_parseAttributes ⟨List.forall_mem_nil _, List.nodup_nil⟩ hattributes⟩

/-! ## Values -/

/-- A pattern without a line end that stands in a normalized text stands in the text. -/
theorem isPrefix_of_normalizeNewlines {pattern s : Bytes} (hfeed : lineFeed ∉ pattern)
    (h : pattern <+: normalizeNewlines s) : pattern <+: s := by
  fun_induction normalizeNewlines s generalizing pattern with
  | case1 => exact h
  | case2 s ih =>
    cases pattern with
    | nil => exact List.nil_prefix
    | cons b pattern =>
      rw [(List.cons_prefix_cons.mp h).1] at hfeed
      exact absurd List.mem_cons_self hfeed
  | case3 s hne ih =>
    cases pattern with
    | nil => exact List.nil_prefix
    | cons b pattern =>
      rw [(List.cons_prefix_cons.mp h).1] at hfeed
      exact absurd List.mem_cons_self hfeed
  | case4 c s hreturn hline ih =>
    cases pattern with
    | nil => exact List.nil_prefix
    | cons b pattern =>
      obtain ⟨rfl, hrest⟩ := List.cons_prefix_cons.mp h
      have hfeed1 : lineFeed ∉ pattern := fun hin => hfeed (List.mem_cons_of_mem _ hin)
      exact List.cons_prefix_cons.mpr ⟨rfl, ih hfeed1 hrest⟩

theorem skipIf_suffix (c : UInt8) (s : Bytes) : skipIf c s <:+ s := by
  unfold skipIf
  split
  · exact List.tail_suffix s
  · exact List.suffix_refl s

theorem isInfix_of_normalizeNewlines {pattern s : Bytes} (hfeed : lineFeed ∉ pattern)
    (h : pattern <:+: normalizeNewlines s) : pattern <:+: s := by
  fun_induction normalizeNewlines s with
  | case1 => exact h
  | case2 s ih =>
    rcases List.infix_cons_iff.mp h with hmatch | hrest
    · refine (isPrefix_of_normalizeNewlines hfeed (s := carriageReturn :: s) ?_).isInfix
      rwa [normalizeNewlines, if_pos rfl]
    · exact (ih hrest).trans ((skipIf_suffix _ _).trans (List.suffix_cons _ _)).isInfix
  | case3 s hne ih =>
    rcases List.infix_cons_iff.mp h with hmatch | hrest
    · refine (isPrefix_of_normalizeNewlines hfeed (s := lineFeed :: s) ?_).isInfix
      rwa [normalizeNewlines, if_neg (by decide), if_pos rfl]
    · exact (ih hrest).trans ((skipIf_suffix _ _).trans (List.suffix_cons _ _)).isInfix
  | case4 c s hreturn hline ih =>
    rcases List.infix_cons_iff.mp h with hmatch | hrest
    · refine (isPrefix_of_normalizeNewlines hfeed (s := c :: s) ?_).isInfix
      rwa [normalizeNewlines, if_neg hreturn, if_neg hline]
    · exact (ih hrest).trans (List.suffix_cons _ _).isInfix

theorem bytes_getStr_false (raw : Bytes) : (getStr false raw).bytes <+: normalizeNewlines raw := by
  rw [getStr_false]
  exact List.takeWhile_prefix _

theorem notInfix_getStr {pattern raw : Bytes} (hfeed : lineFeed ∉ pattern)
    (h : ¬ pattern <:+: raw) : ¬ pattern <:+: (getStr false raw).bytes := fun hin =>
  h (isInfix_of_normalizeNewlines hfeed (hin.trans (bytes_getStr_false raw).isInfix))

theorem notPrefix_getStr {pattern raw : Bytes} (hfeed : lineFeed ∉ pattern)
    (h : ¬ pattern <+: raw) : ¬ pattern <+: (getStr false raw).bytes := fun hin =>
  h (isPrefix_of_normalizeNewlines hfeed (hin.trans (bytes_getStr_false raw)))

/-! ## Nodes without children -/

theorem of_parseValue {endTag p rest : Bytes} {error : XMLError} {make : CString → XMLNode}
    {node : XMLNode} (hne : endTag ≠ []) (hfeed : lineFeed ∉ endTag)
    (h : parseValue endTag error make p = .ok (node, rest)) :
    ∃ raw, p = raw ++ (endTag ++ rest) ∧ node = make (getStr false raw) ∧
      ¬ endTag <:+: (getStr false raw).bytes := by
  unfold parseValue at h
  split at h
  · cases h
  · rename_i value rest1 hsplit
    cases h
    obtain ⟨hp, hnot⟩ := of_splitAtFirst hne hsplit
    exact ⟨value, hp, rfl, notInfix_getStr hfeed hnot⟩

/-- What stands behind `<!` is no comment and no CDATA. -/
theorem of_identify_unknown {p p1 : Bytes} (h : identify p = some (.unknown, p1)) :
    ¬ bytesOf "--" <+: p1 ∧ ¬ bytesOf "[CDATA[" <+: p1 := by
  unfold identify at h
  dsimp only at h
  -- one branch is left: the kinds of the others are different
  split_ifs at h with hnil hdeclaration hcomment hcdata hunknown <;> cases h
  obtain ⟨t, ht⟩ := hunknown
  rw [← ht] at hcomment hcdata ⊢
  refine ⟨?_, ?_⟩
  · rintro ⟨u, hu⟩
    have ht1 : bytesOf "--" ++ u = t := hu
    exact hcomment ⟨u, by rw [← ht1]; rfl⟩
  · rintro ⟨u, hu⟩
    have ht1 : bytesOf "[CDATA[" ++ u = t := hu
    exact hcdata ⟨u, by rw [← ht1]; rfl⟩

/-- A tag is no text. -/
theorem identify_ne_text {p p1 : Bytes} (h : identify (ascii '<' :: p) = some (.text, p1)) :
    False := by
  unfold identify at h
  rw [skipWhiteSpace_cons (by decide)] at h
  have hopen : bytesOf "<" <+: ascii '<' :: p := ⟨p, rfl⟩
  dsimp only at h
  split_ifs at h <;> cases h

/-- What `ParseDeep` makes of the nodes without children. -/
structure LeafAccepted (depth : Nat) (kind : NodeKind) (node : XMLNode) (rest : Bytes) : Prop where
  declaration : kind = .declaration →
    ∃ value, node = .declaration value ∧ ¬ bytesOf "?>" <:+: value.bytes
  printable : kind ≠ .declaration → node.Printable depth
  text : node.isPlainText = true → kind = .text ∧ ∃ t, rest = ascii '<' :: t

theorem leafAccepted {p p1 rest : Bytes} {kind : NodeKind} {node : XMLNode}
    (hidentify : identify p = some (kind, p1)) (h : parseLeaf kind p1 = .ok (node, rest))
    (depth : Nat) : LeafAccepted depth kind node rest := by
  have hends : ∀ s ∈ ["?>", "-->", "]]>", ">"], bytesOf s ≠ [] ∧ lineFeed ∉ bytesOf s := by decide
  cases kind with
  | declaration =>
    obtain ⟨hne, hfeed⟩ := hends "?>" (by simp)
    obtain ⟨raw, -, rfl, hnot⟩ := of_parseValue hne hfeed h
    exact ⟨fun _ => ⟨_, rfl, hnot⟩, fun hkind => absurd rfl hkind, fun htext => by cases htext⟩
  | comment =>
    obtain ⟨hne, hfeed⟩ := hends "-->" (by simp)
    obtain ⟨raw, -, rfl, hnot⟩ := of_parseValue hne hfeed h
    exact ⟨(fun hkind => by cases hkind), fun _ => hnot, fun htext => by cases htext⟩
  | cdata =>
    obtain ⟨hne, hfeed⟩ := hends "]]>" (by simp)
    have hvalue : parseValue _ _ (.text · true) p1 = .ok (node, rest) := h
    obtain ⟨raw, -, hnode, hnot⟩ := of_parseValue hne hfeed hvalue
    subst hnode
    exact ⟨(fun hkind => by cases hkind), fun _ _ => hnot, fun htext => by cases htext⟩
  | unknown =>
    obtain ⟨hcomment, hcdata⟩ := of_identify_unknown hidentify
    obtain ⟨hne, hfeed⟩ := hends ">" (by simp)
    obtain ⟨raw, hp, rfl, hnot⟩ := of_parseValue hne hfeed h
    rw [hp] at hcomment hcdata
    refine ⟨(fun hkind => by cases hkind), fun _ => ⟨hnot, ?_, ?_⟩, fun htext => by cases htext⟩
    · exact notPrefix_getStr (by decide) fun hin => hcomment (hin.trans (List.prefix_append _ _))
    · exact notPrefix_getStr (by decide) fun hin => hcdata (hin.trans (List.prefix_append _ _))
  | element => cases h
  | text =>
    dsimp only [parseLeaf] at h
    split at h
    · cases h
    · split at h
      · cases h
      · cases h
        exact ⟨(fun hkind => by cases hkind), (fun _ hcData => by cases hcData),
          fun _ => ⟨rfl, _, rfl⟩⟩

/-! ## The run -/

def Parsed.children : Parsed → List XMLNode
  | .fails _ children => children
  | .ended children => children
  | .closed children _ _ => children

def endsWithText (nodes : List XMLNode) : Bool := nodes.getLast?.any XMLNode.isPlainText

theorem printableAll_concat {depth : Nat} {nodes : List XMLNode} {node : XMLNode}
    (hnode : node.Printable depth) (htext : endsWithText nodes = true → node.isPlainText = false)
    {afterText : Bool} (hfirst : nodes = [] → afterText = true → node.isPlainText = false)
    (h : PrintableAll depth afterText nodes) : PrintableAll depth afterText (nodes ++ [node]) := by
  induction nodes generalizing afterText with
  | nil => exact ⟨hfirst rfl, hnode, trivial⟩
  | cons n nodes ih =>
    obtain ⟨hn, hprintable, hrest⟩ := h
    refine ⟨hn, hprintable, ih (fun hends => htext ?_) (fun hnil hlast => htext ?_) hrest⟩
    · cases nodes with
      | nil => cases hends
      | cons n1 nodes => exact hends
    · rw [hnil]
      exact hlast

theorem printable_of_mem {depth : Nat} {nodes : List XMLNode} {afterText : Bool}
    (h : PrintableAll depth afterText nodes) {node : XMLNode} (hnode : node ∈ nodes) :
    node.Printable depth := by
  induction nodes generalizing afterText with
  | nil => cases hnode
  | cons n nodes ih =>
    obtain ⟨-, hprintable, hrest⟩ := h
    rcases List.mem_cons.mp hnode with rfl | hnode
    · exact hprintable
    · exact ih hrest hnode

def DeclarationsOnly (nodes : List XMLNode) : Prop :=
  ∀ node ∈ nodes, ∃ value, node = .declaration value ∧ ¬ bytesOf "?>" <:+: value.bytes

/-- The children of a node: declarations, if it is the document, and then nodes that
can be printed. -/
def Accepted (isDocument : Bool) (depth : Nat) (children : List XMLNode) : Prop :=
  ∃ declarations nodes, children = declarations ++ nodes ∧ DeclarationsOnly declarations ∧
    (isDocument = false → declarations = []) ∧ PrintableAll depth false nodes

/-- The loop of `ParseDeep` at `p`: what stands behind a text is a tag. -/
def Reading (isDocument : Bool) (depth : Nat) (children : List XMLNode) (p : Bytes) : Prop :=
  Accepted isDocument depth children ∧
    (endsWithText children = true → ∃ t, p = ascii '<' :: t)

theorem endsWithText_concat (nodes : List XMLNode) (node : XMLNode) :
    endsWithText (nodes ++ [node]) = node.isPlainText := by
  unfold endsWithText
  rw [List.getLast?_concat]
  rfl

theorem reading_nil (isDocument : Bool) (depth : Nat) (p : Bytes) :
    Reading isDocument depth [] p :=
  ⟨⟨[], [], rfl, List.forall_mem_nil _, fun _ => rfl, trivial⟩, fun h => by cases h⟩

section Steps

variable {isDocument : Bool} {depth : Nat} {children : List XMLNode} {p rest : Bytes}

theorem Reading.node (h : Reading isDocument depth children p) {node : XMLNode}
    (hnode : node.Printable depth)
    (htext : node.isPlainText = true → endsWithText children = false ∧ ∃ t, rest = ascii '<' :: t) :
    Reading isDocument depth (children ++ [node]) rest := by
  obtain ⟨⟨declarations, nodes, rfl, hdeclarations, hdocument, hprintable⟩, -⟩ := h
  refine ⟨⟨declarations, nodes ++ [node], List.append_assoc _ _ _, hdeclarations, hdocument,
    printableAll_concat hnode (fun hends => ?_) (fun _ hfalse => by cases hfalse) hprintable⟩, ?_⟩
  · cases hplain : node.isPlainText with
    | false => rfl
    | true =>
      have hlast : endsWithText (declarations ++ nodes) = true := by
        unfold endsWithText at hends ⊢
        obtain ⟨last, hlast, hplain⟩ := (Option.any_eq_true _ _).mp hends
        rw [List.getLast?_append, hlast]
        exact hplain
      rw [(htext hplain).1] at hlast
      cases hlast
  · rw [endsWithText_concat]
    exact fun hplain => (htext hplain).2

/-- A declaration stands behind declarations only. -/
theorem Reading.declaration (h : Reading isDocument depth children p) {value : CString}
    (hvalue : ¬ bytesOf "?>" <:+: value.bytes)
    (hlocated : wellLocated isDocument children = true) :
    Reading isDocument depth (children ++ [.declaration value]) rest := by
  obtain ⟨⟨declarations, nodes, rfl, hdeclarations, hdocument, hprintable⟩, -⟩ := h
  unfold wellLocated at hlocated
  simp only [Bool.and_eq_true] at hlocated
  obtain ⟨⟨rfl, -⟩, hlast⟩ := hlocated
  have hnodes : nodes = [] := by
    rcases List.eq_nil_or_concat nodes with hnil | ⟨nodes, last, rfl⟩
    · exact hnil
    · exfalso
      rw [List.concat_eq_append, ← List.append_assoc, List.getLast?_concat] at hlast
      have hprinted := printable_of_mem hprintable
        (show last ∈ nodes.concat last by simp)
      cases last with
      | declaration => exact hprinted
      | _ => cases hlast
  subst hnodes
  refine ⟨⟨declarations ++ [.declaration value], [], by simp, ?_, (fun hfalse => by cases hfalse),
    trivial⟩, ?_⟩
  · intro node hnode
    rcases List.mem_append.mp hnode with hold | hnew
    · exact hdeclarations node hold
    · exact ⟨value, List.mem_singleton.mp hnew, hvalue⟩
  · rw [endsWithText_concat]
    exact fun hfalse => by cases hfalse

end Steps

/-- Whatever is parsed, the children that were made can be printed. -/
theorem parseDeep_accepted {isDocument : Bool} {fuel depth : Nat} {children : List XMLNode}
    {p : Bytes} {r : Parsed} (h : parseDeep isDocument fuel depth children p = some r)
    (hreading : Reading isDocument depth children p) : Accepted isDocument depth r.children := by
  induction fuel generalizing isDocument depth children p r with
  | zero => cases h
  | succ fuel ih =>
    rw [parseDeep] at h
    split at h
    · cases h
      exact hreading.1
    · rename_i p1 hidentify
      split at h
      · cases h
        exact hreading.1
      · rename_i tag rest htag
        obtain ⟨hname, hattributes⟩ := printable_of_parseTag htag
        dsimp only at h
        split at h
        · cases h
          exact hreading.1
        · exact ih h (hreading.node ⟨hname, hattributes, .inl rfl, trivial⟩
            fun htext => by cases htext)
        · split_ifs at h with hrest hdepth
          · cases h
            exact hreading.1
          · cases h
            exact hreading.1
          · split at h
            · cases h
            · cases h
              exact hreading.1
            · cases h
              exact hreading.1
            · rename_i inner endTag rest1 hinner
              split_ifs at h with htagname
              · obtain ⟨declarations, nodes, hsplit, -, hnone, hprintable⟩ :=
                  ih hinner (reading_nil false (depth + 1) rest)
                rw [hnone rfl, List.nil_append] at hsplit
                have hchildren : PrintableAll (depth + 1) false inner := by
                  rw [show inner = nodes from hsplit]
                  exact hprintable
                exact ih h (hreading.node ⟨hname, hattributes, .inr hdepth, hchildren⟩
                  fun htext => by cases htext)
              · cases h
                exact hreading.1
    · rename_i kind p1 helement hidentify
      split at h
      · cases h
        exact hreading.1
      · rename_i node rest hleaf
        have hnode := leafAccepted hidentify hleaf depth
        split_ifs at h with hmisplaced
        · cases h
          exact hreading.1
        · by_cases hkind : kind = .declaration
          · obtain ⟨value, rfl, hvalue⟩ := hnode.declaration hkind
            refine ih h (hreading.declaration hvalue ?_)
            simpa [hkind] using hmisplaced
          · refine ih h (hreading.node (hnode.printable hkind) fun htext => ?_)
            obtain ⟨rfl, hrest⟩ := hnode.text htext
            refine ⟨?_, hrest⟩
            rw [Bool.eq_false_iff]
            intro hends
            obtain ⟨t, rfl⟩ := hreading.2 hends
            exact identify_ne_text hidentify

/-- Of any file, with any error. -/
theorem accepted_parse (file : Bytes) : Accepted true 1 (parse file).2.children := by
  have hnone : Accepted true 1 [] := (reading_nil true 1 []).1
  have hrun : ∀ {p : Bytes} {r : Parsed}, parseDeep true (p.length + 1) 1 [] p = some r →
      Accepted true 1 r.children := fun h => parseDeep_accepted h (reading_nil true 1 _)
  unfold parse
  dsimp only
  split_ifs
  · exact hnone
  · split
    · exact hnone
    all_goals exact hrun (by assumption)
  · exact hnone
  · split
    · exact hnone
    all_goals exact hrun (by assumption)

/-! ## Saving what was loaded -/

theorem printableChildren_of_accepted {children : List XMLNode}
    (h : Accepted true 1 children) (htext : ∀ node ∈ children, node.isPlainText = false) :
    PrintableChildren children := by
  obtain ⟨declarations, nodes, rfl, hdeclarations, -, hprintable⟩ := h
  induction declarations with
  | nil =>
    have hnodes : ∀ node ∈ nodes, node.isPlainText = false ∧ node.Printable 1 := fun node hnode =>
      ⟨htext node hnode, printable_of_mem hprintable hnode⟩
    rw [List.nil_append]
    cases nodes with
    | nil => exact hnodes
    | cons node nodes =>
      cases node with
      | declaration => exact absurd (hnodes _ List.mem_cons_self).2 id
      | _ => exact hnodes
  | cons node declarations ih =>
    obtain ⟨value, rfl, hvalue⟩ := hdeclarations node List.mem_cons_self
    exact ⟨hvalue, ih (fun n hn => htext n (List.mem_cons_of_mem _ hn))
      fun n hn => hdeclarations n (List.mem_cons_of_mem _ hn)⟩

theorem all_blank_normalizeNewlines (s : Bytes) :
    (normalizeNewlines s).all isWhiteSpace = s.all isWhiteSpace := by
  have hskip : ∀ c s, isWhiteSpace c = true →
      (skipIf c s).all isWhiteSpace = s.all isWhiteSpace := by
    intro c s hc
    unfold skipIf
    split
    · rename_i hhead
      obtain ⟨t, rfl⟩ := List.head?_eq_some_iff.mp hhead
      rw [List.tail_cons, List.all_cons, hc, Bool.true_and]
    · rfl
  fun_induction normalizeNewlines s with
  | case1 => rfl
  | case2 s ih =>
    rw [List.all_cons, List.all_cons, ih, hskip _ _ (by decide)]
    rfl
  | case3 s hne ih =>
    rw [List.all_cons, List.all_cons, ih, hskip _ _ (by decide)]
  | case4 c s hreturn hline ih => rw [List.all_cons, List.all_cons, ih]

theorem CString.bytes_normalized (s : CString) : s.normalized.bytes = normalizeNewlines s.bytes :=
  bytes_ofBytes (zero_notMem_normalizeNewlines s.noNul)

theorem CString.normalized_normalized (s : CString) : s.normalized.normalized = s.normalized := by
  apply CString.ext
  rw [bytes_normalized s.normalized, bytes_normalized,
    normalizeNewlines_of_notMem (carriageReturn_notMem_normalizeNewlines _)]

theorem CString.normalized_eq_self_iff (s : CString) :
    s.normalized = s ↔ carriageReturn ∉ s.bytes := by
  rw [← normalizeNewlines_eq_self_iff, ← bytes_normalized]
  constructor
  · intro h
    rw [h]
  · exact CString.ext

theorem cleanAll_append (nodes nodes1 : List XMLNode) :
    cleanAll (nodes ++ nodes1) = cleanAll nodes ++ cleanAll nodes1 := by
  induction nodes with
  | nil => rfl
  | cons node nodes ih => rw [List.cons_append, cleanAll, ih, cleanAll, List.append_assoc]

mutual

theorem cleanAll_clean : ∀ node : XMLNode, cleanAll node.clean = node.clean
  | .element name attributes children => by
    simp only [XMLNode.clean, cleanAll, cleanAll_cleanAll children, List.map_map, List.append_nil,
      Function.comp_def, CString.normalized_normalized]
  | .text value cData => by
    by_cases hblank : cData = false ∧ value.bytes.all isWhiteSpace = true
    · rw [XMLNode.clean, if_pos hblank, cleanAll]
    · have hblank1 : ¬ (cData = false ∧ value.normalized.bytes.all isWhiteSpace = true) := by
        rwa [CString.bytes_normalized, all_blank_normalizeNewlines]
      rw [XMLNode.clean, if_neg hblank, cleanAll, XMLNode.clean, if_neg hblank1, cleanAll,
        CString.normalized_normalized, List.append_nil]
  | .comment value => by
    simp only [XMLNode.clean, cleanAll, CString.normalized_normalized, List.append_nil]
  | .declaration value => by
    simp only [XMLNode.clean, cleanAll, CString.normalized_normalized, List.append_nil]
  | .unknown value => by
    simp only [XMLNode.clean, cleanAll, CString.normalized_normalized, List.append_nil]

theorem cleanAll_cleanAll : ∀ nodes : List XMLNode, cleanAll (cleanAll nodes) = cleanAll nodes
  | [] => rfl
  | node :: nodes => by
    rw [cleanAll, cleanAll_append, cleanAll_clean node, cleanAll_cleanAll nodes]

end

/-- `<a b="&#10;"><!--c--></a>`. -/
def smallDocument : XMLDocument where
  writeBOM := false
  children := [.element (.ofString "a") [(.ofString "b", .ofString "\n")]
    [.comment (.ofString "c")]]

theorem printable_smallDocument : PrintableChildren smallDocument.children := by
  have hcomment : ¬ bytesOf "-->" <:+: (CString.ofString "c").bytes := by decide
  exact List.forall_mem_singleton.mpr ⟨rfl, by decide, ⟨by decide, by decide⟩,
    .inr (by decide), fun _ => rfl, hcomment, trivial⟩

theorem clean_smallDocument : smallDocument.clean = smallDocument := by
  have hattribute : carriageReturn ∉ (CString.ofString "\n").bytes := by decide
  have hcomment : carriageReturn ∉ (CString.ofString "c").bytes := by decide
  unfold XMLDocument.clean smallDocument
  simp only [cleanAll, XMLNode.clean, List.map_cons, List.map_nil, List.append_nil]
  rw [(CString.normalized_eq_self_iff _).mpr hattribute,
    (CString.normalized_eq_self_iff _).mpr hcomment]

/-- What was loaded from any file is saved, loaded and saved again: the first time it
is cleaned, and then it stays as it is. -/
theorem parse_saveFile_of_parse {file : Bytes} {error : Option XMLError} {doc : XMLDocument}
    (h : parse file = (error, doc)) (hne : doc.children ≠ [])
    (htext : ∀ node ∈ doc.children, node.isPlainText = false) (compact compact1 : Bool) :
    parse (doc.saveFile compact) = (none, doc.clean) ∧
      parse (doc.clean.saveFile compact1) = (none, doc.clean) := by
  have haccepted : Accepted true 1 doc.children := by
    have haccepted := accepted_parse file
    rwa [h] at haccepted
  have hprintable := printableChildren_of_accepted haccepted htext
  have hfirst := parse_saveFile hprintable hne compact
  refine ⟨hfirst, ?_⟩
  have haccepted1 : Accepted true 1 doc.clean.children := by
    have haccepted := accepted_parse (doc.saveFile compact)
    rwa [hfirst] at haccepted
  have hprintable1 := printableChildren_of_accepted haccepted1
    fun node hnode => isPlainText_of_mem_cleanAll htext hnode
  rw [parse_saveFile hprintable1 (cleanAll_ne_nil hprintable hne) compact1]
  congr 1
  unfold XMLDocument.clean
  rw [cleanAll_cleanAll]

theorem parse_saveFile_of_parse_small :
    parse (smallDocument.saveFile true) = (none, smallDocument) ∧
      parse (smallDocument.saveFile false) = (none, smallDocument) := by
  have hparse := parse_saveFile printable_smallDocument (List.cons_ne_nil _ _) true
  rw [clean_smallDocument] at hparse
  have hagain := parse_saveFile_of_parse hparse (List.cons_ne_nil _ _)
    (List.forall_mem_singleton.mpr rfl) true false
  rwa [clean_smallDocument] at hagain

/-! ## Documents that come back as they are -/

mutual

/-- No value holds a carriage return, and no text is blank. -/
def XMLNode.IsClean : XMLNode → Prop
  | .element _ attributes children =>
    (∀ entry ∈ attributes, carriageReturn ∉ entry.2.bytes) ∧ IsCleanAll children
  | .text value cData =>
    carriageReturn ∉ value.bytes ∧ (cData = false → value.bytes.all isWhiteSpace = false)
  | .comment value => carriageReturn ∉ value.bytes
  | .declaration value => carriageReturn ∉ value.bytes
  | .unknown value => carriageReturn ∉ value.bytes

def IsCleanAll : List XMLNode → Prop
  | [] => True
  | node :: nodes => node.IsClean ∧ IsCleanAll nodes

end

theorem length_clean_le (node : XMLNode) : node.clean.length ≤ 1 := by
  cases node with
  | text value cData =>
    rw [XMLNode.clean]
    split
    · exact Nat.zero_le _
    · exact Nat.le_refl _
  | _ => exact Nat.le_of_eq (by rw [XMLNode.clean, List.length_singleton])

theorem length_cleanAll_le (nodes : List XMLNode) : (cleanAll nodes).length ≤ nodes.length := by
  induction nodes with
  | nil => exact Nat.le_refl _
  | cons node nodes ih =>
    rw [cleanAll, List.length_append, List.length_cons]
    have hnode := length_clean_le node
    omega

theorem cleanAll_cons_eq_self_iff {node : XMLNode} {nodes : List XMLNode} :
    cleanAll (node :: nodes) = node :: nodes ↔ node.clean = [node] ∧ cleanAll nodes = nodes := by
  rw [cleanAll]
  constructor
  · intro h
    have hlength := congrArg List.length h
    rw [List.length_append, List.length_cons] at hlength
    have hnode := length_clean_le node
    have hnodes := length_cleanAll_le nodes
    -- a node that vanishes would leave too few
    obtain ⟨n, hn⟩ := List.length_eq_one_iff.mp (show node.clean.length = 1 by omega)
    rw [hn, List.singleton_append] at h
    obtain ⟨rfl, hrest⟩ := List.cons_eq_cons.mp h
    exact ⟨hn, hrest⟩
  · rintro ⟨h, h1⟩
    rw [h, h1, List.singleton_append]

theorem map_normalized_eq_self_iff {attributes : List (CString × CString)} :
    (attributes.map fun entry => (entry.1, entry.2.normalized)) = attributes ↔
      ∀ entry ∈ attributes, carriageReturn ∉ entry.2.bytes := by
  induction attributes with
  | nil => exact ⟨fun _ => List.forall_mem_nil _, fun _ => rfl⟩
  | cons entry attributes ih =>
    rw [List.map_cons, List.cons_eq_cons, ih, List.forall_mem_cons,
      ← CString.normalized_eq_self_iff]
    refine and_congr_left fun _ => ⟨fun h => congrArg Prod.snd h, fun h => ?_⟩
    exact Prod.ext rfl h

mutual

theorem clean_eq_self_iff : ∀ node : XMLNode, node.clean = [node] ↔ node.IsClean
  | .element name attributes children => by
    rw [XMLNode.clean, List.singleton_inj, XMLNode.element.injEq, XMLNode.IsClean,
      map_normalized_eq_self_iff, cleanAll_eq_self_iff children]
    exact ⟨fun h => h.2, fun h => ⟨rfl, h⟩⟩
  | .text value cData => by
    rw [XMLNode.clean, XMLNode.IsClean, ← CString.normalized_eq_self_iff]
    by_cases hblank : cData = false ∧ value.bytes.all isWhiteSpace = true
    · rw [if_pos hblank]
      refine iff_of_false (List.cons_ne_nil _ _).symm fun h => ?_
      rw [h.2 hblank.1] at hblank
      cases hblank.2
    · rw [if_neg hblank, List.singleton_inj, XMLNode.text.injEq]
      refine and_congr_right fun _ => iff_of_true rfl fun h => ?_
      exact Bool.eq_false_iff.mpr fun hall => hblank ⟨h, hall⟩
  | .comment value => by
    rw [XMLNode.clean, List.singleton_inj, XMLNode.comment.injEq, XMLNode.IsClean,
      CString.normalized_eq_self_iff]
  | .declaration value => by
    rw [XMLNode.clean, List.singleton_inj, XMLNode.declaration.injEq, XMLNode.IsClean,
      CString.normalized_eq_self_iff]
  | .unknown value => by
    rw [XMLNode.clean, List.singleton_inj, XMLNode.unknown.injEq, XMLNode.IsClean,
      CString.normalized_eq_self_iff]

theorem cleanAll_eq_self_iff : ∀ nodes : List XMLNode, cleanAll nodes = nodes ↔ IsCleanAll nodes
  | [] => iff_of_true rfl trivial
  | node :: nodes => by
    rw [cleanAll_cons_eq_self_iff, clean_eq_self_iff node, cleanAll_eq_self_iff nodes]
    rfl

end

/-- The node stands in the list, or below an element of it; the depth is that of the
parser, which counts the list as `depth`. -/
inductive Below (node : XMLNode) : Nat → Nat → List XMLNode → Prop where
  | here {depth : Nat} {nodes : List XMLNode} (h : node ∈ nodes) : Below node depth depth nodes
  | deeper {depth depth1 : Nat} {name : CString} {attributes : List (CString × CString)}
      {children nodes : List XMLNode} (hin : .element name attributes children ∈ nodes)
      (h : Below node (depth + 1) depth1 children) : Below node depth depth1 nodes

/-- What every node that the parser made is like. -/
def WellFormed : XMLNode → Prop
  | .element name attributes _ =>
    IsName name ∧ (∀ entry ∈ attributes, IsName entry.1) ∧ (attributes.map Prod.fst).Nodup
  | .text value cData => cData = true → ¬ bytesOf "]]>" <:+: value.bytes
  | .comment value => ¬ bytesOf "-->" <:+: value.bytes
  | .declaration value => ¬ bytesOf "?>" <:+: value.bytes
  | .unknown value => ¬ bytesOf ">" <:+: value.bytes

theorem wellFormed_of_printable {node : XMLNode} {depth : Nat} (h : node.Printable depth) :
    WellFormed node := by
  cases node with
  | element name attributes children => exact ⟨h.1, h.2.1.names, h.2.1.nodup⟩
  | text value cData => exact h
  | comment value => exact h
  | declaration value => exact h.elim
  | unknown value => exact h.1

theorem below_of_printable {node : XMLNode} {depth depth1 : Nat} {nodes : List XMLNode}
    (h : Below node depth depth1 nodes) (hdepth : depth < maxElementDepth) {afterText : Bool}
    (hnodes : PrintableAll depth afterText nodes) :
    depth1 < maxElementDepth ∧ node.Printable depth1 := by
  induction h generalizing afterText with
  | here hin => exact ⟨hdepth, printable_of_mem hnodes hin⟩
  | deeper hin _ ih =>
    obtain ⟨-, -, hdeep, hchildren⟩ := printable_of_mem hnodes hin
    rcases hdeep with rfl | hlimit
    · rename_i hbelow
      cases hbelow with
      | here hin1 => cases hin1
      | deeper hin1 => cases hin1
    · exact ih (by omega) hchildren

/-- Every node that was made of a file is well formed and above the limit, and only a
declaration stands at the level of the document alone. -/
theorem parse_wellFormed {file : Bytes} {node : XMLNode} {depth : Nat}
    (h : Below node 1 depth (parse file).2.children) :
    WellFormed node ∧ depth < maxElementDepth ∧ (node.isDeclaration = true → depth = 1) := by
  obtain ⟨declarations, nodes, heq, hdeclarations, -, hprintable⟩ := accepted_parse file
  rw [heq] at h
  have hdepth : 1 < maxElementDepth := by decide
  have hbelow : Below node 1 depth nodes → WellFormed node ∧ depth < maxElementDepth ∧
      (node.isDeclaration = true → depth = 1) := by
    intro hnode
    obtain ⟨hlimit, hprint⟩ := below_of_printable hnode hdepth hprintable
    refine ⟨wellFormed_of_printable hprint, hlimit, fun hdeclaration => ?_⟩
    cases node with
    | declaration value => exact hprint.elim
    | _ => cases hdeclaration
  cases h with
  | here hin =>
    rcases List.mem_append.mp hin with hfirst | hrest
    · obtain ⟨value, rfl, hvalue⟩ := hdeclarations node hfirst
      exact ⟨hvalue, hdepth, fun _ => rfl⟩
    · exact hbelow (.here hrest)
  | deeper hin hinner =>
    rcases List.mem_append.mp hin with hfirst | hrest
    · obtain ⟨value, hvalue, -⟩ := hdeclarations _ hfirst
      cases hvalue
    · exact hbelow (.deeper hrest hinner)

theorem parse_wellFormed_small : WellFormed (.comment (.ofString "c")) ∧ 2 < maxElementDepth ∧
    ((XMLNode.comment (.ofString "c")).isDeclaration = true → 2 = 1) := by
  have hparse := parse_saveFile printable_smallDocument (List.cons_ne_nil _ _) true
  rw [clean_smallDocument] at hparse
  have hbelow : Below (.comment (.ofString "c")) 1 2
      (parse (smallDocument.saveFile true)).2.children := by
    rw [hparse]
    exact .deeper List.mem_cons_self (.here List.mem_cons_self)
  exact parse_wellFormed hbelow

end Xpcf.TinyXml
