import Xpcf.Model.XmlFiles
import Xpcf.Proofs.Saves
import Xpcf.Proofs.XmlAccepted

/-!
# Runs of updates

After any number of updates the file can be loaded, and its document is the one that
was there before, with the new nodes in order at the end of the root
(`updateFiles_loads`).  So what `serialize` does to a tree is what it does to the bytes
of the file (`serializeFiles_refine`): the layer on which a document is its root
element is the layer of files, except for the values that cleaning changes.
-/

namespace Xpcf.TinyXml

open CodeLib

/-! ## Inserting -/

theorem insertEndChild_insertEndChild (nodes nodes1 children : List XMLNode) :
    insertEndChild nodes1 (insertEndChild nodes children) =
      insertEndChild (nodes ++ nodes1) children := by
  induction children with
  | nil => rfl
  | cons node children ih =>
    cases node with
    | element => simp only [insertEndChild, List.append_assoc]
    | _ => simp only [insertEndChild, ih]

theorem insertEndChild_nil (children : List XMLNode) : insertEndChild [] children = children := by
  induction children with
  | nil => rfl
  | cons node children ih =>
    cases node with
    | element => simp only [insertEndChild, List.append_nil]
    | _ => simp only [insertEndChild, ih]

theorem cleanAll_insertEndChild (nodes children : List XMLNode) :
    cleanAll (insertEndChild nodes children) =
      insertEndChild (cleanAll nodes) (cleanAll children) := by
  induction children with
  | nil => rfl
  | cons node children ih =>
    cases node with
    | element => simp [insertEndChild, cleanAll, XMLNode.clean, cleanAll_append]
    | text value cData =>
      simp only [insertEndChild, cleanAll, XMLNode.clean, ih]
      split <;> rfl
    | _ => simp [insertEndChild, cleanAll, XMLNode.clean, ih]

/-- Cleaning what was there already makes no difference. -/
theorem cleanAll_insertEndChild_clean (nodes children : List XMLNode) :
    cleanAll (insertEndChild nodes (cleanAll children)) =
      cleanAll (insertEndChild nodes children) := by
  rw [cleanAll_insertEndChild, cleanAll_insertEndChild, cleanAll_cleanAll]

def XMLNode.isElement : XMLNode → Bool
  | .element _ _ _ => true
  | _ => false

theorem rootElement_isSome_iff {doc : XMLDocument} :
    doc.rootElement.isSome = true ↔ ∃ node ∈ doc.children, node.isElement = true := by
  unfold XMLDocument.rootElement
  rw [List.find?_isSome]
  constructor
  · rintro ⟨node, hnode, hmatch⟩
    cases node with
    | element => exact ⟨_, hnode, rfl⟩
    | _ => cases hmatch
  · rintro ⟨node, hnode, hmatch⟩
    cases node with
    | element => exact ⟨_, hnode, rfl⟩
    | _ => cases hmatch

/-- A document keeps its root element. -/
theorem exists_element_clean {nodes : List XMLNode} (h : ∃ node ∈ nodes, node.isElement = true) :
    ∃ node ∈ cleanAll nodes, node.isElement = true := by
  induction nodes with
  | nil =>
    obtain ⟨node, hnode, -⟩ := h
    cases hnode
  | cons n nodes ih =>
    obtain ⟨node, hnode, helement⟩ := h
    rw [cleanAll]
    rcases List.mem_cons.mp hnode with rfl | hnode
    · cases node with
      | element =>
        rw [XMLNode.clean]
        exact ⟨_, List.mem_append_left _ (List.mem_singleton_self _), rfl⟩
      | _ => cases helement
    · obtain ⟨node1, hnode1, helement1⟩ := ih ⟨node, hnode, helement⟩
      exact ⟨node1, List.mem_append_right _ hnode1, helement1⟩

theorem exists_element_insertEndChild (nodes : List XMLNode) {children : List XMLNode}
    (h : ∃ node ∈ children, node.isElement = true) :
    ∃ node ∈ insertEndChild nodes children, node.isElement = true := by
  induction children with
  | nil =>
    obtain ⟨node, hnode, -⟩ := h
    cases hnode
  | cons n children ih =>
    obtain ⟨node, hnode, helement⟩ := h
    cases n with
    | element => exact ⟨_, List.mem_cons_self, rfl⟩
    | _ =>
      rcases List.mem_cons.mp hnode with rfl | hnode
      · cases helement
      · obtain ⟨node1, hnode1, helement1⟩ := ih ⟨node, hnode, helement⟩
        exact ⟨node1, List.mem_cons_of_mem _ hnode1, helement1⟩

/-! ## What can be inserted -/

/-- Nodes that may stand at the end of a root element. -/
def Insertable (nodes : List XMLNode) : Prop :=
  ∀ node ∈ nodes, node.isPlainText = false ∧ node.Printable 2

theorem printableAll_append {depth : Nat} {afterText : Bool} {children nodes : List XMLNode}
    (hchildren : PrintableAll depth afterText children)
    (hnodes : ∀ node ∈ nodes, node.isPlainText = false ∧ node.Printable depth) :
    PrintableAll depth afterText (children ++ nodes) := by
  have hall : ∀ {afterText : Bool}, PrintableAll depth afterText nodes := by
    induction nodes with
    | nil => exact trivial
    | cons node nodes ih =>
      obtain ⟨hnode, hrest⟩ := List.forall_mem_cons.mp hnodes
      exact ⟨fun _ => hnode.1, hnode.2, ih hrest⟩
  induction children generalizing afterText with
  | nil => exact hall
  | cons node children ih =>
    obtain ⟨hplain, hprintable, hrest⟩ := hchildren
    exact ⟨hplain, hprintable, ih hrest⟩

/-- The nodes of a document behind its declarations. -/
def PrintableNodes (nodes : List XMLNode) : Prop :=
  ∀ node ∈ nodes, node.isPlainText = false ∧ node.Printable 1

theorem PrintableNodes.children {nodes : List XMLNode} (h : PrintableNodes nodes) :
    PrintableChildren nodes := by
  cases nodes with
  | nil => exact h
  | cons node nodes =>
    cases node with
    | declaration => exact absurd (h _ List.mem_cons_self).2 id
    | _ => exact h

theorem PrintableNodes.insertEndChild {nodes children : List XMLNode}
    (h : PrintableNodes children) (hnodes : Insertable nodes) :
    PrintableNodes (insertEndChild nodes children) := by
  induction children with
  | nil => exact h
  | cons node children ih =>
    obtain ⟨hnode, hrest⟩ := List.forall_mem_cons.mp h
    have hinserted := ih hrest
    cases node with
    | element name attributes inner =>
      obtain ⟨hname, hattributes, -, hinner⟩ := hnode.2
      refine List.forall_mem_cons.mpr ⟨⟨rfl, hname, hattributes, .inr (by decide), ?_⟩, hrest⟩
      exact printableAll_append hinner hnodes
    | _ => exact List.forall_mem_cons.mpr ⟨hnode, hinserted⟩

theorem printableChildren_insertEndChild {nodes children : List XMLNode}
    (h : PrintableChildren children) (hnodes : Insertable nodes) :
    PrintableChildren (insertEndChild nodes children) := by
  induction children with
  | nil => exact h
  | cons node children ih =>
    cases node with
    | declaration value => exact ⟨h.1, ih h.2⟩
    | _ => exact (PrintableNodes.insertEndChild h hnodes).children

theorem PrintableChildren.nodes {children : List XMLNode} (h : PrintableChildren children)
    (hdeclaration : ∀ node ∈ children, node.isDeclaration = false) : PrintableNodes children := by
  cases children with
  | nil => exact h
  | cons node children =>
    cases node with
    | declaration => cases hdeclaration _ List.mem_cons_self
    | _ => exact h

theorem isPlainText_of_printableChildren {children : List XMLNode}
    (h : PrintableChildren children) :
    ∀ node ∈ children, node.isPlainText = false := by
  induction children with
  | nil => exact List.forall_mem_nil _
  | cons node children ih =>
    cases node with
    | declaration value => exact List.forall_mem_cons.mpr ⟨rfl, ih h.2⟩
    | _ => exact fun n hn => (h n hn).1

/-! ## The file -/

theorem loadFile_accepted (file : Option Bytes) : Accepted true 1 (loadFile file).2.children := by
  cases file with
  | none => exact (reading_nil true 1 []).1
  | some file =>
    rw [loadFile]
    split
    · exact (reading_nil true 1 []).1
    · exact accepted_parse file

theorem loadFile_of_parse {file : Bytes} {doc : XMLDocument} (h : parse file = (none, doc)) :
    loadFile (some file) = (none, doc) := by
  rw [loadFile, if_neg, h]
  rintro rfl
  rw [show parse [] = (some .emptyDocument, ⟨false, []⟩) from rfl] at h
  cases h

/-- One update of a file that can be loaded. -/
theorem updateFile_loads (rootName : CString) {node : XMLNode} {file : Option Bytes}
    {doc : XMLDocument} (hload : loadFile file = (none, doc)) (hnode : Insertable [node])
    (hdoc : PrintableChildren doc.children) (hroot : ∃ node ∈ doc.children, node.isElement = true) :
    ∃ bytes, updateFile rootName node file = some bytes ∧
      parse bytes = (none, ⟨doc.writeBOM, cleanAll (insertEndChild [node] doc.children)⟩) := by
  obtain ⟨root, hfind⟩ := Option.isSome_iff_exists.mp (rootElement_isSome_iff.mpr hroot)
  let doc1 : XMLDocument := { doc with children := insertEndChild [node] doc.children }
  have hne : doc1.children ≠ [] := by
    obtain ⟨n, hn, -⟩ := exists_element_insertEndChild [node] hroot
    exact List.ne_nil_of_mem hn
  refine ⟨doc1.saveFile false, ?_,
    parse_saveFile (printableChildren_insertEndChild hdoc hnode) hne false⟩
  unfold updateFile
  rw [hload]
  simp only [hfind, Option.map_some, doc1]

/-- Updates of a file that holds a cleaned document. -/
theorem updateFiles_cleaned (rootName : CString) {nodes children : List XMLNode} {bytes : Bytes}
    {bom : Bool} (hparse : parse bytes = (none, ⟨bom, cleanAll children⟩))
    (hnodes : Insertable nodes) (hchildren : PrintableChildren children)
    (hroot : ∃ node ∈ children, node.isElement = true) :
    ∃ bytes1, updateFiles rootName nodes (some bytes) = some (some bytes1) ∧
      parse bytes1 = (none, ⟨bom, cleanAll (insertEndChild nodes children)⟩) := by
  induction nodes generalizing bytes children with
  | nil => exact ⟨bytes, rfl, by rwa [insertEndChild_nil]⟩
  | cons node nodes ih =>
    obtain ⟨hnode, hrest⟩ := List.forall_mem_cons.mp hnodes
    have hsingle : Insertable [node] := List.forall_mem_singleton.mpr hnode
    -- what was loaded is printable like every loaded document
    have hloaded : PrintableChildren (cleanAll children) := by
      have haccepted := accepted_parse bytes
      rw [hparse] at haccepted
      exact printableChildren_of_accepted haccepted fun n hn =>
        isPlainText_of_mem_cleanAll (isPlainText_of_printableChildren hchildren) hn
    obtain ⟨bytes1, hupdate, hparse1⟩ := updateFile_loads rootName
      (loadFile_of_parse hparse) hsingle hloaded (exists_element_clean hroot)
    rw [cleanAll_insertEndChild_clean] at hparse1
    obtain ⟨bytes2, hrun, hparse2⟩ := ih hparse1 hrest
      (printableChildren_insertEndChild hchildren hsingle)
      (exists_element_insertEndChild [node] hroot)
    refine ⟨bytes2, ?_, ?_⟩
    · rw [updateFiles, hupdate]
      exact hrun
    · rwa [insertEndChild_insertEndChild] at hparse2

/-- The document into which the first update inserts. -/
def rooted (rootName : CString) (error : Option XMLError) (children : List XMLNode) :
    List XMLNode :=
  if error = none then children else .element rootName [] [] :: children

/-- Whatever is in the file, or if there is none: after the updates it is loaded, and
holds what was there with the new nodes at the end of the root.  What could be loaded
in front of an error stays behind the new root. -/
theorem updateFiles_loads {rootName : CString} (hrootName : IsName rootName) {file : Option Bytes}
    {error : Option XMLError} {doc : XMLDocument} (hload : loadFile file = (error, doc))
    (htext : ∀ node ∈ doc.children, node.isPlainText = false)
    (hroot : error = none → doc.rootElement.isSome = true)
    (hdeclaration : error ≠ none → ∀ node ∈ doc.children, node.isDeclaration = false)
    {nodes : List XMLNode} (hne : nodes ≠ [])
    (hnodes : ∀ node ∈ nodes, node.isPlainText = false ∧ node.Printable 2) :
    ∃ bytes, updateFiles rootName nodes file = some (some bytes) ∧
      parse bytes = (none, ⟨doc.writeBOM,
        cleanAll (insertEndChild nodes (rooted rootName error doc.children))⟩) := by
  obtain ⟨node, nodes, rfl⟩ := List.exists_cons_of_ne_nil hne
  obtain ⟨hnode, hrest⟩ := List.forall_mem_cons.mp hnodes
  have hsingle : Insertable [node] := List.forall_mem_singleton.mpr hnode
  have hprintable : PrintableChildren doc.children := by
    have haccepted := loadFile_accepted file
    rw [hload] at haccepted
    exact printableChildren_of_accepted haccepted htext
  have hrooted : PrintableChildren (rooted rootName error doc.children) := by
    unfold rooted
    split_ifs with herror
    · exact hprintable
    · exact PrintableNodes.children (List.forall_mem_cons.mpr
        ⟨⟨rfl, hrootName, ⟨List.forall_mem_nil _, List.nodup_nil⟩, .inl rfl, trivial⟩,
          hprintable.nodes (hdeclaration herror)⟩)
  have helement : ∃ node ∈ rooted rootName error doc.children, node.isElement = true := by
    unfold rooted
    split_ifs with herror
    · exact rootElement_isSome_iff.mp (hroot herror)
    · exact ⟨_, List.mem_cons_self, rfl⟩
  have hfirst : ∃ bytes, updateFile rootName node file = some bytes ∧
      parse bytes = (none, ⟨doc.writeBOM,
        cleanAll (insertEndChild [node] (rooted rootName error doc.children))⟩) := by
    cases error with
    | none =>
      exact updateFile_loads rootName hload hsingle hprintable
        (rootElement_isSome_iff.mp (hroot rfl))
    | some e =>
      let doc1 : XMLDocument := { doc with children := .element rootName [] [node] :: doc.children }
      have hdoc1 : PrintableChildren doc1.children :=
        printableChildren_insertEndChild hrooted hsingle
      refine ⟨doc1.saveFile false, ?_, parse_saveFile hdoc1 (List.cons_ne_nil _ _) false⟩
      unfold updateFile
      rw [hload]
  obtain ⟨bytes, hupdate, hparse⟩ := hfirst
  obtain ⟨bytes1, hrun, hparse1⟩ := updateFiles_cleaned rootName hparse hrest
    (printableChildren_insertEndChild hrooted hsingle)
    (exists_element_insertEndChild [node] helement)
  rw [insertEndChild_insertEndChild] at hparse1
  refine ⟨bytes1, ?_, hparse1⟩
  rw [updateFiles, hupdate]
  exact hrun

end Xpcf.TinyXml

namespace Xpcf

open CodeLib TinyXml

/-! ## Elements as nodes -/

mutual

/-- The levels of the node that is made for an element. -/
def XMLElement.height : XMLElement → Nat
  | .mk _ _ text children => 1 + max (if text.isSome then 1 else 0) (heights children)

def heights : List XMLElement → Nat
  | [] => 0
  | elt :: elts => max elt.height (heights elts)

end

mutual

/-- The names of the element are those of XML. -/
def XMLElement.Named : XMLElement → Prop
  | .mk value attributes _ children =>
    IsName (.ofString value) ∧
      PrintableAttributes (attributes.map fun entry => (.ofString entry.1, .ofString entry.2)) ∧
      AllNamed children

def AllNamed : List XMLElement → Prop
  | [] => True
  | elt :: elts => elt.Named ∧ AllNamed elts

end

theorem isPlainText_toNode (elt : XMLElement) : elt.toNode.isPlainText = false := by
  cases elt
  rfl

mutual

theorem printable_toNode : ∀ (elt : XMLElement) {depth : Nat}, elt.Named →
    depth + elt.height ≤ maxElementDepth → elt.toNode.Printable depth
  | .mk value attributes text children, depth, ⟨hname, hattributes, hchildren⟩, hdeep => by
    rw [XMLElement.height] at hdeep
    have hinner := printable_toNodes children hchildren
      (show depth + 1 + heights children ≤ maxElementDepth by omega)
    refine ⟨hname, hattributes, ?_, ?_⟩
    · cases text with
      | none =>
        cases children with
        | nil => exact .inl rfl
        | cons elt elts =>
          obtain ⟨value1, attributes1, text1, children1⟩ := elt
          simp only [heights, XMLElement.height] at hdeep
          exact .inr (by omega)
      | some text =>
        simp only [Option.isSome_some, if_true] at hdeep
        exact .inr (by omega)
    · cases text with
      | none => exact hinner false
      | some text => exact ⟨(fun h => by cases h), (fun h => by cases h), hinner true⟩

theorem printable_toNodes : ∀ (elts : List XMLElement) {depth : Nat}, AllNamed elts →
    depth + heights elts ≤ maxElementDepth →
    ∀ afterText, PrintableAll depth afterText (toNodes elts)
  | [], _, _, _, _ => trivial
  | elt :: elts, depth, ⟨helt, helts⟩, hdeep, afterText => by
    rw [heights] at hdeep
    refine ⟨fun _ => isPlainText_toNode elt, printable_toNode elt helt (by omega), ?_⟩
    exact printable_toNodes elts helts (by omega) _

end

theorem allNamed_of_forall {elts : List XMLElement} (h : ∀ elt ∈ elts, elt.Named) :
    AllNamed elts := by
  induction elts with
  | nil => exact trivial
  | cons elt elts ih =>
    obtain ⟨helt, helts⟩ := List.forall_mem_cons.mp h
    exact ⟨helt, ih helts⟩

/-! ## The nodes of `serialize` -/

theorem printableAttributes_of_names {attributes : List (String × String)} (names : List String)
    (h : attributes.map Prod.fst = names)
    (hnames : (∀ name ∈ names, IsName (.ofString name)) ∧ (names.map CString.ofString).Nodup) :
    PrintableAttributes (attributes.map fun entry => (.ofString entry.1, .ofString entry.2)) := by
  subst h
  refine ⟨?_, ?_⟩
  · intro entry hentry
    obtain ⟨attrib, hattrib, rfl⟩ := List.mem_map.mp hentry
    exact hnames.1 _ (List.mem_map_of_mem hattrib)
  · have hsame : (attributes.map fun entry =>
        (CString.ofString entry.1, CString.ofString entry.2)).map Prod.fst =
        (attributes.map Prod.fst).map CString.ofString := by
      rw [List.map_map, List.map_map]
      rfl
    rw [hsame]
    exact hnames.2

theorem isName_serialized : ∀ name ∈ ["xpcf-configuration", "properties", "configure", "component",
    "property", "name", "access", "type", "value"], IsName (.ofString name) := by decide +kernel

mutual

theorem named_serializeParameter (floats : FloatText) : ∀ p : Property,
    (serializeParameter floats p).Named
  | .value name access type wrapped => by
    rw [serializeParameter]
    split
    · exact ⟨isName_serialized _ (by simp), printableAttributes_of_names
        ["name", "access", "type", "value"] rfl (by decide +kernel), trivial⟩
    · refine ⟨isName_serialized _ (by simp), printableAttributes_of_names
        ["name", "access", "type"] rfl (by decide +kernel), allNamed_of_forall ?_⟩
      intro elt helt
      obtain ⟨value, -, rfl⟩ := List.mem_map.mp helt
      exact ⟨isName_serialized _ (by simp), printableAttributes_of_names [] rfl (by decide),
        trivial⟩
  | .struct name access map => by
    exact ⟨isName_serialized _ (by simp), printableAttributes_of_names
      ["name", "access", "type"] rfl (by decide +kernel),
      allNamed_of_forall (named_serializeMap floats map)⟩
  | .structs name access maps => by
    refine ⟨isName_serialized _ (by simp), printableAttributes_of_names
      ["name", "access", "type"] rfl (by decide +kernel), allNamed_of_forall ?_⟩
    intro elt helt
    obtain ⟨elts, helts, helt⟩ := List.mem_flatten.mp helt
    exact named_serializeMaps floats maps elts (List.mem_of_mem_take helts) elt helt

theorem named_serializeMap (floats : FloatText) : ∀ map : PropertyMap,
    ∀ elt ∈ serializeMap floats map, elt.Named
  | .null, elt, helt => by cases helt
  | .mk properties, elt, helt => named_serializeProperties floats properties elt helt

theorem named_serializeProperties (floats : FloatText) : ∀ ps : List Property,
    ∀ elt ∈ serializeProperties floats ps, elt.Named
  | [], elt, helt => by cases helt
  | p :: ps, elt, helt => by
    rw [serializeProperties] at helt
    rcases List.mem_cons.mp helt with rfl | helt
    · exact named_serializeParameter floats p
    · exact named_serializeProperties floats ps elt helt

theorem named_serializeMaps (floats : FloatText) : ∀ maps : List PropertyMap,
    ∀ elts ∈ serializeMaps floats maps, ∀ elt ∈ elts, elt.Named
  | [], elts, helts, _, _ => by cases helts
  | map :: maps, elts, helts, elt, helt => by
    rw [serializeMaps] at helts
    rcases List.mem_cons.mp helts with rfl | helts
    · exact named_serializeMap floats map elt helt
    · exact named_serializeMaps floats maps elts helts elt helt

end

theorem named_serializedProperties (floats : FloatText) (uuid : Uuid) (root : PropertyMap) :
    (serializedProperties floats uuid root).Named := by
  refine ⟨isName_serialized _ (by simp), printableAttributes_of_names [] rfl (by decide), ?_,
    trivial⟩
  exact ⟨isName_serialized _ (by simp), printableAttributes_of_names
    ["component"] rfl (by decide +kernel),
    allNamed_of_forall (named_serializeMap floats root)⟩

/-! ## Saving several times -/

/-- The bytes of the file after the calls. -/
def savedBytes (floats : FloatText) : List (Uuid × PropertyMap) → Option Bytes →
    Option (Option Bytes)
  | [], file => some file
  | call :: calls, file =>
    (serializeFile floats call.1 call.2 file).bind fun bytes =>
      savedBytes floats calls (some bytes)

/-- The nodes of the calls. -/
def savedNodes (floats : FloatText) (calls : List (Uuid × PropertyMap)) : List XMLElement :=
  calls.map fun call => serializedProperties floats call.1 call.2

theorem toNodes_eq_map (elts : List XMLElement) : toNodes elts = elts.map XMLElement.toNode := by
  induction elts with
  | nil => rfl
  | cons elt elts ih => rw [toNodes, ih, List.map_cons]

theorem savedBytes_eq (floats : FloatText) (calls : List (Uuid × PropertyMap))
    (file : Option Bytes) : savedBytes floats calls file =
      updateFiles (.ofString "xpcf-configuration") (toNodes (savedNodes floats calls)) file := by
  induction calls generalizing file with
  | nil => rfl
  | cons call calls ih =>
    rw [savedBytes]
    show _ = (serializeFile floats call.1 call.2 file).bind _
    exact congrArg _ (funext fun bytes => ih (some bytes))

/-- The tree that the calls make. -/
theorem savedFile_eq {floats : FloatText} {calls : List (Uuid × PropertyMap)} (hne : calls ≠ []) :
    savedFile floats calls =
      some (.mk "xpcf-configuration" [] none (savedNodes floats calls)) := by
  have hrun : ∀ (calls : List (Uuid × PropertyMap)) elts,
      calls.foldl (fun file call => some (serialize floats call.1 call.2 file))
        (some (.mk "xpcf-configuration" [] none elts)) =
      some (.mk "xpcf-configuration" [] none (elts ++ savedNodes floats calls)) := by
    intro calls
    induction calls with
    | nil =>
      intro elts
      rw [savedNodes, List.map_nil, List.append_nil]
      rfl
    | cons call calls ih =>
      intro elts
      rw [List.foldl_cons]
      change calls.foldl (fun file call => some (serialize floats call.1 call.2 file))
        (some (.mk "xpcf-configuration" [] none (elts ++ [_]))) = _
      rw [ih, List.append_assoc]
      rfl
  obtain ⟨call, calls, rfl⟩ := List.exists_cons_of_ne_nil hne
  exact hrun calls [serializedProperties floats call.1 call.2]

/-- Updates that make a file: it is loaded as the root with the elements. -/
theorem updateFiles_new {rootName : String} (hrootName : IsName (.ofString rootName))
    {elts : List XMLElement} (hne : elts ≠ []) (hnamed : ∀ elt ∈ elts, elt.Named)
    (hdeep : ∀ elt ∈ elts, elt.height + 2 ≤ maxElementDepth) :
    ∃ bytes, updateFiles (.ofString rootName) (toNodes elts) none = some (some bytes) ∧
      parse bytes = (none, ⟨false, cleanAll [(XMLElement.mk rootName [] none elts).toNode]⟩) := by
  have hne1 : toNodes elts ≠ [] := by
    obtain ⟨elt, elts, rfl⟩ := List.exists_cons_of_ne_nil hne
    exact List.cons_ne_nil _ _
  refine updateFiles_loads hrootName
    (show loadFile none = (some .fileNotFound, ⟨false, []⟩) from rfl) (List.forall_mem_nil _)
    (fun h => by cases h) (fun _ => List.forall_mem_nil _) hne1 fun node hnode => ?_
  rw [toNodes_eq_map] at hnode
  obtain ⟨elt, helt, rfl⟩ := List.mem_map.mp hnode
  have hfits := hdeep elt helt
  exact ⟨isPlainText_toNode _, printable_toNode _ (hnamed elt helt) (by omega)⟩

end Xpcf
