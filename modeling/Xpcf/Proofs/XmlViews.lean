import Xpcf.Model.SaveModule
import Xpcf.Proofs.XmlUpdates

/-!
# Elements that a file keeps

An element is *storable* if no string of it holds a zero, no value or text a carriage
return, and no text is all blanks.  A storable element is what the framework sees of
the node that was made for it (`view_toNode`), and cleaning leaves this node alone
(`clean_toNode`); so a file gives back the storable elements that were saved in it
(`savedBytes_refines`).  What was in the file before stays (`savedBytes_loads`).
-/

namespace Xpcf

open CodeLib TinyXml

/-! ## Strings -/

theorem bytes_ofString {s : String} (h : 0 ∉ bytesOf s) :
    (CString.ofString s).bytes = bytesOf s := CString.bytes_ofBytes h

theorem decode_ofString {s : String} (h : 0 ∉ bytesOf s) :
    (CString.ofString s).decode = some s := by
  have hbytes : (CString.ofString s).bytes.toByteArray = s.toByteArray := by
    rw [bytes_ofString h, ← String.utf8Encode_toList]
    rfl
  unfold CString.decode String.fromUTF8?
  rw [hbytes, dif_pos s.isValidUTF8]
  rfl

/-- A value that is read back as it was. -/
def KeptText (s : String) : Prop := '\x00' ∉ s.toList ∧ '\r' ∉ s.toList

instance (s : String) : Decidable (KeptText s) := inferInstanceAs (Decidable (_ ∧ _))

namespace KeptText

variable {s : String} (h : KeptText s)
include h

theorem noNul : 0 ∉ bytesOf s := fun hin => h.1 (mem_of_mem_utf8 (d := '\x00') (by decide) hin)

theorem noReturn : carriageReturn ∉ bytesOf s := fun hin =>
  h.2 (mem_of_mem_utf8 (d := '\r') (by decide) hin)

theorem normalized : (CString.ofString s).normalized = .ofString s := by
  unfold CString.normalized
  rw [bytes_ofString h.noNul, normalizeNewlines_of_notMem h.noReturn]
  rfl

end KeptText

theorem mem_toDigits_sixteen {n : Nat} {c : Char} (h : c ∈ Nat.toDigits 16 n) :
    ∃ d, d < 16 ∧ c = Nat.digitChar d := by
  induction n using Nat.strongRecOn with
  | ind n ih =>
    rw [Nat.toDigits_eq_if (by decide)] at h
    split at h
    · rename_i hlt
      exact ⟨n, hlt, List.mem_singleton.mp h⟩
    · rename_i hge
      rcases List.mem_append.mp h with hrest | hlast
      · exact ih (n / 16) (Nat.div_lt_self (by omega) (by decide)) hrest
      · exact ⟨n % 16, Nat.mod_lt _ (by decide), List.mem_singleton.mp hlast⟩

/-- The text of a UUID holds hexadecimal digits and hyphens only. -/
theorem keptText_toString (u : Uuid) : KeptText u.toString := by
  let hex := List.replicate (32 - (Nat.toDigits 16 u.toNat).length) '0' ++ Nat.toDigits 16 u.toNat
  have hdigit : ∀ c ∈ hex, c ≠ '\x00' ∧ c ≠ '\r' := by
    intro c hc
    rcases List.mem_append.mp hc with hzero | hdigits
    · rw [List.eq_of_mem_replicate hzero]
      decide
    · obtain ⟨d, hd, rfl⟩ := mem_toDigits_sixteen hdigits
      have hall : ∀ d, d < 16 → Nat.digitChar d ≠ '\x00' ∧ Nat.digitChar d ≠ '\r' := by decide
      exact hall d hd
  have hchars : ∀ c ∈ u.toString.toList, c ∈ hex ∨ c = '-' := by
    intro c hc
    have hgroup : ∀ start count, c ∈ (hex.drop start).take count → c ∈ hex :=
      fun start count h => List.drop_subset _ _ (List.take_subset _ _ h)
    unfold Uuid.toString at hc
    simp only [String.toList_append, String.toList_ofList, List.mem_append] at hc
    have hdash : "-".toList = ['-'] := rfl
    simp only [hdash, List.mem_singleton] at hc
    rcases hc with (((((((h | h) | h) | h) | h) | h) | h) | h) | h
    · exact .inl (hgroup 0 8 h)
    · exact .inr h
    · exact .inl (hgroup 8 4 h)
    · exact .inr h
    · exact .inl (hgroup 12 4 h)
    · exact .inr h
    · exact .inl (hgroup 16 4 h)
    · exact .inr h
    · exact .inl (hgroup 20 12 h)
  have hkept : ∀ c ∈ u.toString.toList, c ≠ '\x00' ∧ c ≠ '\r' := by
    intro c hc
    rcases hchars c hc with hin | rfl
    · exact hdigit c hin
    · decide
  exact ⟨fun h => (hkept _ h).1 rfl, fun h => (hkept _ h).2 rfl⟩

/-! ## Elements -/

mutual

def XMLElement.Storable : XMLElement → Prop
  | .mk value attributes text children =>
    0 ∉ bytesOf value ∧ (∀ entry ∈ attributes, 0 ∉ bytesOf entry.1 ∧ KeptText entry.2) ∧
      (∀ s ∈ text, KeptText s ∧ ∃ b ∈ bytesOf s, isWhiteSpace b = false) ∧ AllStorable children

def AllStorable : List XMLElement → Prop
  | [] => True
  | elt :: elts => elt.Storable ∧ AllStorable elts

end

theorem allStorable_iff {elts : List XMLElement} :
    AllStorable elts ↔ ∀ elt ∈ elts, elt.Storable := by
  induction elts with
  | nil => exact ⟨fun _ => List.forall_mem_nil _, fun _ => trivial⟩
  | cons elt elts ih => rw [AllStorable, ih, List.forall_mem_cons]

theorem normalized_attributes {attributes : List (String × String)}
    (h : ∀ entry ∈ attributes, 0 ∉ bytesOf entry.1 ∧ KeptText entry.2) :
    (attributes.map fun entry => (CString.ofString entry.1, CString.ofString entry.2)).map
        (fun entry => (entry.1, entry.2.normalized)) =
      attributes.map fun entry => (CString.ofString entry.1, CString.ofString entry.2) := by
  rw [List.map_map]
  refine List.map_congr_left fun entry hentry => ?_
  simp only [Function.comp_apply, (h entry hentry).2.normalized]

mutual

theorem clean_toNode : ∀ elt : XMLElement, elt.Storable → elt.toNode.clean = [elt.toNode]
  | .mk value attributes text children, ⟨hvalue, hattributes, htext, hchildren⟩ => by
    have hinner := cleanAll_toNodes children hchildren
    rw [XMLElement.toNode, XMLNode.clean, normalized_attributes hattributes, cleanAll_append,
      hinner]
    cases text with
    | none => rfl
    | some s =>
      obtain ⟨hkept, b, hb, hvisible⟩ := htext s rfl
      have hblank : ¬ (CString.ofString s).bytes.all isWhiteSpace = true := by
        rw [bytes_ofString hkept.noNul]
        intro hall
        rw [List.all_eq_true.mp hall b hb] at hvisible
        cases hvisible
      show [XMLNode.element _ _ (cleanAll [.text (.ofString s) false] ++ _)] = _
      rw [cleanAll, XMLNode.clean, if_neg fun h => hblank h.2, hkept.normalized]
      rfl

theorem cleanAll_toNodes : ∀ elts : List XMLElement, AllStorable elts →
    cleanAll (toNodes elts) = toNodes elts
  | [], _ => rfl
  | elt :: elts, ⟨helt, helts⟩ => by
    rw [toNodes, cleanAll, clean_toNode elt helt, cleanAll_toNodes elts helts]
    rfl

end

theorem mapM_decode {attributes : List (String × String)}
    (h : ∀ entry ∈ attributes, 0 ∉ bytesOf entry.1 ∧ KeptText entry.2) :
    ((attributes.map fun entry => (CString.ofString entry.1, CString.ofString entry.2)).mapM
      fun entry => do
        let key ← entry.1.decode
        let text ← entry.2.decode
        pure (key, text)) = some attributes := by
  induction attributes with
  | nil => rfl
  | cons entry attributes ih =>
    obtain ⟨hentry, hrest⟩ := List.forall_mem_cons.mp h
    rw [List.map_cons, List.mapM_cons, ih hrest, decode_ofString hentry.1,
      decode_ofString hentry.2.noNul]
    rfl

theorem getText_toNodes (elts : List XMLElement) : getText (toNodes elts) = none := by
  cases elts with
  | nil => rfl
  | cons elt elts =>
    obtain ⟨value, attributes, text, children⟩ := elt
    rfl

mutual

/-- A storable element is what is seen of its node. -/
theorem view_toNode : ∀ elt : XMLElement, elt.Storable → elt.toNode.view = some elt
  | .mk value attributes text children, ⟨hvalue, hattributes, htext, hchildren⟩ => by
    have hinner := viewAll_toNodes children hchildren
    rw [XMLElement.toNode, XMLNode.view, decode_ofString hvalue, mapM_decode hattributes]
    cases text with
    | none =>
      simp only [Option.map_none, Option.toList_none, List.nil_append, getText_toNodes, hinner]
      rfl
    | some s =>
      obtain ⟨hkept, -⟩ := htext s rfl
      have htext1 : (getText ([.text (.ofString s) false] ++ toNodes children)).mapM
          CString.decode = some (some s) := by
        show (some (CString.ofString s)).mapM CString.decode = _
        simp [decode_ofString hkept.noNul]
      have hchildren1 : viewAll ([.text (.ofString s) false] ++ toNodes children) = some children :=
        hinner
      simp only [Option.map_some, Option.toList_some, htext1, hchildren1]
      rfl

theorem viewAll_toNodes : ∀ elts : List XMLElement, AllStorable elts →
    viewAll (toNodes elts) = some elts
  | [], _ => rfl
  | .mk value attributes text children :: elts, ⟨helt, helts⟩ => by
    have hfirst := view_toNode (.mk value attributes text children) helt
    rw [XMLElement.toNode] at hfirst
    rw [toNodes, XMLElement.toNode, viewAll, hfirst, viewAll_toNodes elts helts]
    rfl

end

/-! ## Files -/

/-- A file that is loaded as a storable element. -/
theorem libraryFile_of_parse {bytes : Bytes} {bom : Bool} {root : XMLElement}
    (hroot : root.Storable) (h : parse bytes = (none, ⟨bom, cleanAll [root.toNode]⟩)) :
    libraryFile (some bytes) = some (.document root) := by
  have hview := view_toNode root hroot
  have hkept : cleanAll [root.toNode] = [root.toNode] := by
    rw [cleanAll, clean_toNode root hroot]
    rfl
  have hload := loadFile_of_parse h
  rw [hkept] at hload
  unfold libraryFile
  rw [hload]
  obtain ⟨value, attributes, text, children⟩ := root
  rw [XMLElement.toNode] at hview ⊢
  show (XMLNode.element _ _ _).view.map LibraryFile.document = _
  rw [hview]
  rfl

/-- Updates that make a file of storable elements. -/
theorem updateFiles_library {rootName : String} (hrootName : IsName (.ofString rootName))
    (hkept : 0 ∉ bytesOf rootName) {elts : List XMLElement} (hne : elts ≠ [])
    (hnamed : ∀ elt ∈ elts, elt.Named) (hdeep : ∀ elt ∈ elts, elt.height + 2 ≤ maxElementDepth)
    (hstorable : AllStorable elts) :
    ∃ bytes, updateFiles (.ofString rootName) (toNodes elts) none = some (some bytes) ∧
      libraryFile (some bytes) = some (.document (.mk rootName [] none elts)) := by
  obtain ⟨bytes, hrun, hparse⟩ := updateFiles_new hrootName hne hnamed hdeep
  exact ⟨bytes, hrun, libraryFile_of_parse
    ⟨hkept, List.forall_mem_nil _, (fun s hs => by cases hs), hstorable⟩ hparse⟩

/-! ## Saving properties -/

section SavedBytes

variable {floats : FloatText} {calls : List (Uuid × PropertyMap)}

theorem savedNodes_named : ∀ elt ∈ savedNodes floats calls, elt.Named := by
  intro elt helt
  obtain ⟨call, -, rfl⟩ := List.mem_map.mp helt
  exact named_serializedProperties _ _ _

theorem savedNodes_height (hdeep : ∀ call ∈ calls,
    (serializedProperties floats call.1 call.2).height + 2 ≤ maxElementDepth) :
    ∀ elt ∈ savedNodes floats calls, elt.height + 2 ≤ maxElementDepth := by
  intro elt helt
  obtain ⟨call, hcall, rfl⟩ := List.mem_map.mp helt
  exact hdeep call hcall

end SavedBytes

/-- Two components with one value each. -/
def twoCounts : List (Uuid × PropertyMap) := [(2, oneCount 5), (1, oneCount 6)]

theorem storable_oneCount (uuid : Uuid) {n : BitVec 32}
    (h : AllStorable (serializeMap .none (oneCount n))) :
    (serializedProperties .none uuid (oneCount n)).Storable := by
  have hname : 0 ∉ bytesOf "component" := by decide
  refine ⟨by decide, List.forall_mem_nil _, (fun s hs => by cases hs), ⟨by decide,
    List.forall_mem_singleton.mpr ⟨hname, keptText_toString uuid⟩, (fun s hs => by cases hs),
    h⟩, trivial⟩

end Xpcf
