import Xpcf.CodeLib.XmlSpelling
import Xpcf.Proofs.GeneratedFiles

/-!
# The lines that operations write

The operations on an open document stand for lines (`askedLines`), and these for
a tree.  Two facts about them do not need the text:

* the lines make a tree exactly when they close the root at the end and not before
  (`treeWritten_iff`), and then their blocks nest (`nested_of_readDocument`);
* what the manager writes are these lines, some of them without their attributes
  (`Writes`), and all as they are exactly when every operation is plain.
-/

namespace Xpcf.GrpcGen

open CodeLib.Xml

/-! ## The tree that is asked for -/

namespace XmlOperation

/-- The lines that an operation stands for, where the manager has these blocks on its
stack; `node<t>` is not for the kinds that must be blocks. -/
def asked : XmlOperation → List String → Option (List XmlLine)
  | enter nodeName attributes, _ => some [.start nodeName attributes]
  | enterKind t attributes, _ => some [.start t.nodeName attributes]
  | node nodeName attributes, _ => some [.node nodeName attributes]
  | nodeKind t attributes, _ => if t.isNode then some [.node t.nodeName attributes] else none
  | addValue value, _ => some [.value value]
  | leave, [] => none
  | leave, name :: _ => some [.finish name]
  | leaveNode nodeName, _ => some [.finish nodeName]
  | release, stack => some (stack.map .finish)

/-- The blocks on the stack afterwards; `leave(nodeName)` takes none away. -/
def stackAfter : XmlOperation → List String → List String
  | enter nodeName _, stack => nodeName :: stack
  | enterKind t _, stack => t.nodeName :: stack
  | node _ _, stack => stack
  | nodeKind _ _, stack => stack
  | addValue _, stack => stack
  | leave, stack => stack.tail
  | leaveNode _, stack => stack
  | release, _ => []

end XmlOperation

/-- The lines of a sequence of operations; there are none when one of them has none. -/
def askedLines (stack : List String) : List XmlOperation → Option (List XmlLine)
  | [] => some []
  | op :: rest => do
    let lines ← op.asked stack
    let others ← askedLines (op.stackAfter stack) rest
    pure (lines ++ others)

/-- The tree that the operations write, when they make a document. -/
def treeWritten (root : String) (attributes : List (String × String))
    (operations : List XmlOperation) : Option XMLElement := do
  let lines ← askedLines [root] operations
  readDocument (.start root attributes :: lines)

theorem askedLines_cons_eq_some {stack : List String} {op : XmlOperation}
    {rest : List XmlOperation} {lines : List XmlLine} :
    askedLines stack (op :: rest) = some lines ↔
      ∃ lines1 lines2, op.asked stack = some lines1 ∧
        askedLines (op.stackAfter stack) rest = some lines2 ∧ lines = lines1 ++ lines2 := by
  rw [askedLines]
  simp only [Option.bind_eq_bind, Option.bind_eq_some_iff, Option.pure_def, Option.some.injEq]
  constructor
  · rintro ⟨lines1, h1, lines2, h2, rfl⟩
    exact ⟨lines1, lines2, h1, h2, rfl⟩
  · rintro ⟨lines1, lines2, h1, h2, rfl⟩
    exact ⟨lines1, h1, lines2, h2, rfl⟩

theorem treeWritten_eq_some {root : String} {attributes : List (String × String)}
    {operations : List XmlOperation} {tree : XMLElement} :
    treeWritten root attributes operations = some tree ↔
      ∃ lines, askedLines [root] operations = some lines ∧
        readDocument (.start root attributes :: lines) = some tree := by
  unfold treeWritten
  rw [Option.bind_eq_bind, Option.bind_eq_some_iff]

/-- The declaration stands before the operations. -/
theorem asked_ne_declaration {op : XmlOperation} {stack : List String} {lines : List XmlLine}
    (h : op.asked stack = some lines) : ∀ line ∈ lines, line ≠ .declaration := by
  cases op with
  | leave =>
    cases stack with
    | nil => cases h
    | cons name stack =>
      cases h
      simp
  | nodeKind t attributes =>
    obtain ⟨_, hlines⟩ := Option.ite_none_right_eq_some.mp h
    cases hlines
    simp
  | _ =>
    cases h
    simp

theorem askedLines_ne_declaration {operations : List XmlOperation} {stack : List String}
    {lines : List XmlLine} (h : askedLines stack operations = some lines) :
    ∀ line ∈ lines, line ≠ .declaration := by
  induction operations generalizing stack lines with
  | nil =>
    cases h
    simp
  | cons op rest ih =>
    obtain ⟨lines1, lines2, h1, h2, rfl⟩ := askedLines_cons_eq_some.mp h
    intro line hline
    obtain hline | hline := List.mem_append.mp hline
    · exact asked_ne_declaration h1 line hline
    · exact ih h2 line hline

/-! ## Lines that nest -/

/-- Lines whose blocks are closed where they should be, and their elements. -/
inductive Nested : List XmlLine → List XMLElement → Prop where
  | done : Nested [] []
  | node {name : String} {attributes : List (String × String)} {lines : List XmlLine}
    {elts : List XMLElement} (h : Nested lines elts) :
    Nested (.node name attributes :: lines) (.mk name attributes none [] :: elts)
  | value {text : String} {lines : List XmlLine} {elts : List XMLElement} (h : Nested lines elts) :
    Nested (.value text :: lines) (.mk "value" [] (some text) [] :: elts)
  | block {name : String} {attributes : List (String × String)} {inner lines : List XmlLine}
    {children elts : List XMLElement} (hinner : Nested inner children) (h : Nested lines elts) :
    Nested (.start name attributes :: (inner ++ .finish name :: lines))
      (.mk name attributes none children :: elts)

namespace ReaderState

/-- The end of a block, with what its element held and was given. -/
theorem read_finish {e : OpenElement} {rest : List OpenElement} {top elts : List XMLElement}
    {name : String} {s1 : ReaderState}
    (h : (ReaderState.add ⟨e :: rest, top⟩ elts).read (.finish name) = some s1) :
    e.name = name ∧
      s1 = ReaderState.add ⟨rest, top⟩ [.mk e.name e.attributes none (e.children ++ elts)] := by
  unfold add read at h
  simp only at h
  split at h
  · rename_i hname
    exact ⟨hname, (Option.some.inj h).symm⟩
  · cases h

theorem readAll_cons_eq_some {line : XmlLine} {lines : List XmlLine} {s s1 : ReaderState} :
    readAll (line :: lines) s = some s1 ↔
      ∃ s2, s.read line = some s2 ∧ readAll lines s2 = some s1 := by
  rw [readAll, Option.bind_eq_some_iff]

/-- Lines that are read begin with lines that nest, up to the end of the block that is
open where they start. -/
theorem exists_nested_front (n : Nat) {lines : List XmlLine} {s s1 : ReaderState}
    (hlength : lines.length ≤ n) (hlines : ∀ line ∈ lines, line ≠ .declaration)
    (h : readAll lines s = some s1) (hclosed : s1.opened = []) :
    ∃ inner elts after, lines = inner ++ after ∧ Nested inner elts ∧
      readAll after (s.add elts) = some s1 ∧
      (after = [] ∨ ∃ name after1, after = .finish name :: after1) := by
  induction n generalizing lines s with
  | zero =>
    have hnil := List.length_eq_zero_iff.mp (Nat.le_zero.mp hlength)
    subst hnil
    exact ⟨[], [], [], rfl, .done, by rw [s.add_nil]; exact h, Or.inl rfl⟩
  | succ n ih =>
    cases lines with
    | nil => exact ⟨[], [], [], rfl, .done, by rw [s.add_nil]; exact h, Or.inl rfl⟩
    | cons line lines =>
      have hrest : ∀ line ∈ lines, line ≠ .declaration :=
        fun l hl => hlines l (List.mem_cons_of_mem _ hl)
      have hshort : lines.length ≤ n := Nat.le_of_succ_le_succ hlength
      obtain ⟨s2, hread, hall⟩ := readAll_cons_eq_some.mp h
      cases line with
      | declaration => exact absurd rfl (hlines _ List.mem_cons_self)
      | finish name =>
        exact ⟨[], [], _, rfl, .done, by rw [s.add_nil]; exact h, Or.inr ⟨name, lines, rfl⟩⟩
      | node name attributes =>
        cases hread
        obtain ⟨inner, elts, after, rfl, hnested, hafter, hend⟩ := ih hshort hrest hall
        rw [add_add] at hafter
        exact ⟨_, _, after, rfl, .node hnested, hafter, hend⟩
      | value text =>
        cases hread
        obtain ⟨inner, elts, after, rfl, hnested, hafter, hend⟩ := ih hshort hrest hall
        rw [add_add] at hafter
        exact ⟨_, _, after, rfl, .value hnested, hafter, hend⟩
      | start name attributes =>
        cases hread
        obtain ⟨inner, children, after, rfl, hinner, hafter, hend⟩ := ih hshort hrest hall
        obtain rfl | ⟨name1, after, rfl⟩ := hend
        · -- the block stays open
          have hs1 := Option.some.inj hafter
          rw [← hs1] at hclosed
          cases hclosed
        · obtain ⟨s3, hfinish, hafter⟩ := readAll_cons_eq_some.mp hafter
          obtain ⟨rfl, rfl⟩ := read_finish hfinish
          have hshort1 : after.length ≤ n := by
            rw [List.length_append, List.length_cons] at hshort
            omega
          have hrest1 : ∀ line ∈ after, line ≠ .declaration := fun l hl =>
            hrest l (List.mem_append_right _ (List.mem_cons_of_mem _ hl))
          obtain ⟨inner1, elts, after, rfl, hnested, hafter, hend⟩ := ih hshort1 hrest1 hafter
          rw [add_add] at hafter
          exact ⟨_, _, after, by simp, .block hinner hnested, hafter, hend⟩

end ReaderState

theorem readDocument_eq_some {lines : List XmlLine} {tree : XMLElement} :
    readDocument lines = some tree ↔
      ReaderState.readAll lines ⟨[], []⟩ = some ⟨[], [tree]⟩ := by
  unfold readDocument
  constructor
  · intro h
    split at h
    · rename_i hread
      cases h
      exact hread
    · cases h
  · intro h
    rw [h]

/-- The lines of a document nest. -/
theorem nested_of_readDocument {lines : List XmlLine} {tree : XMLElement}
    (hlines : ∀ line ∈ lines, line ≠ .declaration) (h : readDocument lines = some tree) :
    Nested lines [tree] := by
  obtain ⟨inner, elts, after, rfl, hnested, hafter, hend⟩ :=
    ReaderState.exists_nested_front _ (Nat.le_refl _) hlines (readDocument_eq_some.mp h) rfl
  obtain rfl | ⟨name, after, rfl⟩ := hend
  · cases hafter
    rw [List.append_nil]
    exact hnested
  · cases hafter

/-! ## Lines that close the root -/

/-- The blocks that are open after a line; there are none when nothing is open where it
stands, or it ends another block than the innermost. -/
def XmlLine.openedAfter : XmlLine → List String → Option (List String)
  | declaration, opened => some opened
  | start name _, opened => if opened = [] then none else some (name :: opened)
  | node _ _, opened => if opened = [] then none else some opened
  | value _, opened => if opened = [] then none else some opened
  | finish name, opened => if opened.head? = some name then some opened.tail else none

/-- Inside the blocks that are open, the lines close every block by its name, the last one
at the end and not before. -/
def closesBlocks : List XmlLine → List String → Bool
  | [], opened => opened = []
  | line :: rest, opened =>
    match line.openedAfter opened with
    | none => false
    | some opened1 => closesBlocks rest opened1

/-- The operations close the root at the end and write nothing after it. -/
def closesRoot (root : String) (operations : List XmlOperation) : Bool :=
  match askedLines [root] operations with
  | none => false
  | some lines => closesBlocks lines [root]

namespace ReaderState

/-- The elements that are at the top, or will be when they end. -/
def roots (s : ReaderState) : Nat := s.top.length + if s.opened = [] then 0 else 1

/-- Every line adds an element at the top where nothing is open, and none otherwise. -/
theorem roots_of_read {s s1 : ReaderState} {line : XmlLine} (hline : line ≠ .declaration)
    (h : s.read line = some s1) : s1.roots = s.roots + if s.opened = [] then 1 else 0 := by
  obtain ⟨opened, top⟩ := s
  cases line with
  | declaration => exact absurd rfl hline
  | start name attributes =>
    cases h
    by_cases hopened : opened = [] <;> simp [roots, hopened]
  | node name attributes =>
    cases h
    cases opened <;> simp [roots, add]
  | value text =>
    cases h
    cases opened <;> simp [roots, add]
  | finish name =>
    cases opened with
    | nil => cases h
    | cons e rest =>
      simp only [read] at h
      split at h
      · cases h
        cases rest <;> simp [roots, add]
      · cases h

theorem roots_le_of_readAll {lines : List XmlLine} {s s1 : ReaderState}
    (hlines : ∀ line ∈ lines, line ≠ .declaration) (h : readAll lines s = some s1) :
    s.roots ≤ s1.roots := by
  induction lines generalizing s with
  | nil =>
    cases h
    exact Nat.le_refl _
  | cons line lines ih =>
    obtain ⟨s2, hread, hall⟩ := readAll_cons_eq_some.mp h
    have hstep := roots_of_read (hlines _ List.mem_cons_self) hread
    have hrest := ih (fun l hl => hlines l (List.mem_cons_of_mem _ hl)) hall
    omega

/-- The names of the elements that are open. -/
def names (s : ReaderState) : List String := s.opened.map OpenElement.name

theorem names_add (s : ReaderState) (elts : List XMLElement) : (s.add elts).names = s.names := by
  obtain ⟨opened, top⟩ := s
  cases opened with
  | nil => rfl
  | cons e rest => rfl

theorem names_eq_nil_iff {s : ReaderState} : s.names = [] ↔ s.opened = [] := List.map_eq_nil_iff

/-- A line inside the blocks that are open is read, and adds no element at the top. -/
theorem exists_read_of_openedAfter {s : ReaderState} {line : XmlLine} {opened : List String}
    (hline : line ≠ .declaration) (h : line.openedAfter s.names = some opened) :
    ∃ s1, s.read line = some s1 ∧ s1.names = opened ∧ s1.roots = s.roots := by
  suffices hread : ∃ s1, s.read line = some s1 ∧ s1.names = opened ∧ s.opened ≠ [] by
    obtain ⟨s1, hread, hnames, hopened⟩ := hread
    have hroots := roots_of_read hline hread
    rw [if_neg hopened] at hroots
    exact ⟨s1, hread, hnames, hroots⟩
  cases line with
  | declaration => exact absurd rfl hline
  | start name attributes =>
    simp only [XmlLine.openedAfter, names_eq_nil_iff, Option.ite_none_left_eq_some] at h
    obtain ⟨hopened, hnames⟩ := h
    exact ⟨_, rfl, Option.some.inj hnames, hopened⟩
  | node name attributes =>
    simp only [XmlLine.openedAfter, names_eq_nil_iff, Option.ite_none_left_eq_some] at h
    obtain ⟨hopened, hnames⟩ := h
    exact ⟨_, rfl, (names_add _ _).trans (Option.some.inj hnames), hopened⟩
  | value text =>
    simp only [XmlLine.openedAfter, names_eq_nil_iff, Option.ite_none_left_eq_some] at h
    obtain ⟨hopened, hnames⟩ := h
    exact ⟨_, rfl, (names_add _ _).trans (Option.some.inj hnames), hopened⟩
  | finish name =>
    simp only [XmlLine.openedAfter, Option.ite_none_right_eq_some] at h
    obtain ⟨hhead, hnames⟩ := h
    obtain ⟨openElts, top⟩ := s
    cases openElts with
    | nil => cases hhead
    | cons e rest =>
      obtain rfl : e.name = name := Option.some.inj hhead
      have hread : (ReaderState.mk (e :: rest) top).read (.finish e.name) =
          some (ReaderState.add ⟨rest, top⟩ [.mk e.name e.attributes none e.children]) :=
        if_pos rfl
      exact ⟨_, hread, (names_add _ _).trans (Option.some.inj hnames), by simp⟩

/-- Any other line that is read adds an element at the top. -/
theorem roots_lt_of_openedAfter {s s1 : ReaderState} {line : XmlLine}
    (h : line.openedAfter s.names = none) (hread : s.read line = some s1) :
    s.roots < s1.roots := by
  have hopened : line ≠ .declaration ∧ s.opened = [] := by
    cases line with
    | declaration => cases h
    | finish name =>
      obtain ⟨openElts, top⟩ := s
      cases openElts with
      | nil => cases hread
      | cons e rest =>
        have hfinish : (ReaderState.add ⟨e :: rest, top⟩ []).read (.finish name) = some s1 := by
          rw [add_nil]
          exact hread
        obtain ⟨rfl, _⟩ := read_finish hfinish
        simp [XmlLine.openedAfter, names] at h
    | _ =>
      simp only [XmlLine.openedAfter, names_eq_nil_iff, ite_eq_left_iff, reduceCtorEq, imp_false,
        not_not] at h
      exact ⟨by simp, h⟩
  have hroots := roots_of_read hopened.1 hread
  rw [if_pos hopened.2] at hroots
  omega

/-- Lines are read as one element exactly when they close the blocks that are open. -/
theorem exists_readAll_iff {lines : List XmlLine} {s : ReaderState}
    (hlines : ∀ line ∈ lines, line ≠ .declaration) (hroots : s.roots = 1) :
    (∃ tree, readAll lines s = some ⟨[], [tree]⟩) ↔ closesBlocks lines s.names = true := by
  induction lines generalizing s with
  | nil =>
    obtain ⟨openElts, top⟩ := s
    rw [closesBlocks, decide_eq_true_eq, names_eq_nil_iff]
    constructor
    · rintro ⟨tree, hall⟩
      cases hall
      rfl
    · rintro rfl
      obtain ⟨tree, rfl⟩ := List.length_eq_one_iff.mp hroots
      exact ⟨tree, rfl⟩
  | cons line rest ih =>
    have hrest : ∀ line ∈ rest, line ≠ .declaration :=
      fun l hl => hlines l (List.mem_cons_of_mem _ hl)
    rw [closesBlocks]
    cases hline : line.openedAfter s.names with
    | none =>
      simp only [Bool.false_eq_true, iff_false]
      rintro ⟨tree, hall⟩
      obtain ⟨s1, hread, hall1⟩ := readAll_cons_eq_some.mp hall
      have hmore := roots_lt_of_openedAfter hline hread
      have hafter := roots_le_of_readAll hrest hall1
      have hone : (ReaderState.mk [] [tree]).roots = 1 := rfl
      omega
    | some opened =>
      obtain ⟨s1, hread, rfl, hroots1⟩ :=
        exists_read_of_openedAfter (hlines line List.mem_cons_self) hline
      rw [← ih hrest (hroots1.trans hroots)]
      simp only [readAll_cons_eq_some, hread, Option.some.injEq, exists_eq_left']

end ReaderState

theorem treeWritten_iff (root : String) (attributes : List (String × String))
    (operations : List XmlOperation) :
    (∃ tree, treeWritten root attributes operations = some tree) ↔
      closesRoot root operations = true := by
  simp only [treeWritten_eq_some, readDocument_eq_some]
  unfold closesRoot
  cases hlines : askedLines [root] operations with
  | none => simp
  | some lines =>
    have hread := ReaderState.exists_readAll_iff (s := ⟨[⟨root, attributes, []⟩], []⟩)
      (askedLines_ne_declaration hlines) rfl
    refine Iff.trans ?_ hread
    simp only [Option.some.injEq, exists_eq_left']
    rfl

/-! ## What the manager writes -/

/-- What is written for a line: the line, or the start without its attributes. -/
def XmlLine.WrittenAs (line written : XmlLine) : Prop :=
  written = line ∨ ∃ name attributes, line = .start name attributes ∧ written = .start name []

/-- A line whose names, values and texts are read as themselves. -/
def XmlLine.Plain : XmlLine → Prop
  | declaration => True
  | start name attributes => IsName name ∧ PlainAttributes attributes
  | finish name => IsName name
  | node name attributes => IsName name ∧ PlainAttributes attributes
  | value text => PlainText text.toList

/-- An operation whose names, values and texts are read as themselves and whose
attributes are written. -/
def XmlOperation.Plain : XmlOperation → Prop
  | enter nodeName attributes => IsName nodeName ∧ PlainAttributes attributes
  | enterKind t attributes =>
    PlainAttributes attributes ∧ (t.dropsAttributes = true → attributes = [])
  | node nodeName attributes => IsName nodeName ∧ PlainAttributes attributes
  | nodeKind _ attributes => PlainAttributes attributes
  | addValue value => PlainText value.toList
  | leave => True
  | leaveNode nodeName => IsName nodeName
  | release => True

/-- Between two managers these entries are written for these lines; they are the lines
themselves, and plain, exactly when `plain` holds. -/
structure Writes (plain : Prop) (m m1 : XmlBlockManager) (entries : List (Nat × XmlLine))
    (lines : List XmlLine) : Prop where
  written : m1.written = m.written ++ entries
  as_asked : List.Forall₂ (fun line entry => line.WrittenAs entry.2) lines entries
  plain_of_same : entries.map Prod.snd = lines → (∀ line ∈ lines, line.Plain) → plain
  same_of_plain : plain → (∀ name ∈ m.blockNameStack, IsName name) →
    entries.map Prod.snd = lines ∧ (∀ line ∈ lines, line.Plain) ∧
      ∀ name ∈ m1.blockNameStack, IsName name

theorem isName_nodeName (t : XML) : IsName t.nodeName := by
  cases t <;> exact isName_of_all rfl (by decide) (by decide)

namespace Writes

open XmlBlockManager

variable {plain plain1 : Prop} {m m1 m2 : XmlBlockManager} {entries entries1 : List (Nat × XmlLine)}
  {lines lines1 : List XmlLine}

theorem refl (m : XmlBlockManager) : Writes True m m [] [] :=
  ⟨(List.append_nil _).symm, .nil, fun _ _ => trivial, fun _ h => ⟨rfl, by simp, h⟩⟩

theorem trans (h : Writes plain m m1 entries lines) (h1 : Writes plain1 m1 m2 entries1 lines1) :
    Writes (plain ∧ plain1) m m2 (entries ++ entries1) (lines ++ lines1) where
  written := by rw [h1.written, h.written, List.append_assoc]
  as_asked := List.rel_append h.as_asked h1.as_asked
  plain_of_same hsame hplain := by
    rw [List.map_append] at hsame
    have hlength : (entries.map Prod.snd).length = lines.length := by
      rw [List.length_map, h.as_asked.length_eq]
    obtain ⟨hfront, hback⟩ := List.append_inj hsame hlength
    exact ⟨h.plain_of_same hfront fun line hline => hplain line (List.mem_append_left _ hline),
      h1.plain_of_same hback fun line hline => hplain line (List.mem_append_right _ hline)⟩
  same_of_plain hplain hnames := by
    obtain ⟨hsame, hlines, hnames1⟩ := h.same_of_plain hplain.1 hnames
    obtain ⟨hsame1, hlines1, hnames2⟩ := h1.same_of_plain hplain.2 hnames1
    refine ⟨by rw [List.map_append, hsame, hsame1], fun line hline => ?_, hnames2⟩
    obtain hline | hline := List.mem_append.mp hline
    · exact hlines line hline
    · exact hlines1 line hline

/-- One line. -/
theorem line {entry : Nat × XmlLine} {asked : XmlLine}
    (hwritten : m1.written = m.written ++ [entry]) (has : asked.WrittenAs entry.2)
    (hplain : entry.2 = asked → asked.Plain → plain)
    (hsame : plain → (∀ name ∈ m.blockNameStack, IsName name) → entry.2 = asked ∧ asked.Plain ∧
      ∀ name ∈ m1.blockNameStack, IsName name) :
    Writes plain m m1 [entry] [asked] where
  written := hwritten
  as_asked := .cons has .nil
  plain_of_same heq hlines := hplain (List.cons.inj heq).1 (hlines asked List.mem_cons_self)
  same_of_plain h hnames := by
    obtain ⟨heq, hasked, hnames1⟩ := hsame h hnames
    refine ⟨by rw [List.map_singleton, heq], fun line hline => ?_, hnames1⟩
    rw [List.mem_singleton.mp hline]
    exact hasked

theorem enter {nodeName : String} {attributes asked : List (String × String)}
    (has : attributes = asked ∨ attributes = [])
    (hplain : plain ↔ attributes = asked ∧ IsName nodeName ∧ PlainAttributes asked) :
    Writes plain m (m.enter nodeName attributes) [(m.indentLevel, .start nodeName attributes)]
      [.start nodeName asked] := by
  refine line rfl ?_ (fun heq hasked => ?_) fun h hnames => ?_
  · obtain rfl | rfl := has
    · exact Or.inl rfl
    · exact Or.inr ⟨nodeName, asked, rfl, rfl⟩
  · cases heq
    exact hplain.mpr ⟨rfl, hasked⟩
  · obtain ⟨rfl, hasked⟩ := hplain.mp h
    refine ⟨rfl, hasked, fun name hname => ?_⟩
    obtain rfl | hname := List.mem_cons.mp hname
    · exact hasked.1
    · exact hnames name hname

/-- What only writes its line. -/
theorem write {asked : XmlLine} (hplain : plain ↔ asked.Plain) :
    Writes plain m (m.write asked) [(m.indentLevel, asked)] [asked] :=
  line rfl (Or.inl rfl) (fun _ => hplain.mpr) fun h hnames => ⟨rfl, hplain.mp h, hnames⟩

theorem leave {name : String} {names : List String} (hstack : m.blockNameStack = name :: names) :
    Writes True m m.leave [(m.indentLevel - 1, .finish name)] [.finish name] ∧
      m.leave.blockNameStack = names := by
  unfold XmlBlockManager.leave
  rw [hstack]
  refine ⟨line rfl (Or.inl rfl) (fun _ _ => trivial) fun _ hnames => ?_, rfl⟩
  rw [hstack] at hnames
  exact ⟨rfl, hnames name List.mem_cons_self, fun n hn => hnames n (List.mem_cons_of_mem _ hn)⟩

theorem closeNodes {names : List String} {m : XmlBlockManager} (hstack : m.blockNameStack = names) :
    ∃ entries, Writes True m (closeNodes names m) entries (names.map .finish) ∧
      (XmlBlockManager.closeNodes names m).blockNameStack = [] := by
  induction names generalizing m with
  | nil => exact ⟨[], refl m, hstack⟩
  | cons name names ih =>
    obtain ⟨hleave, hnames⟩ := leave hstack
    obtain ⟨entries, hclose, hclosed⟩ := ih hnames
    have hboth := hleave.trans hclose
    rw [and_true] at hboth
    exact ⟨_, hboth, hclosed⟩

/-- What an operation writes. -/
theorem perform {op : XmlOperation} (hasked : op.asked m.blockNameStack = some lines) :
    ∃ entries, Writes op.Plain m (m.perform op) entries lines ∧
      (m.perform op).blockNameStack = op.stackAfter m.blockNameStack := by
  cases op with
  | enter nodeName attributes =>
    cases hasked
    exact ⟨_, enter (Or.inl rfl) (by simp [XmlOperation.Plain]), rfl⟩
  | enterKind t attributes =>
    cases hasked
    have hname := isName_nodeName t
    by_cases hdrops : t.dropsAttributes = true
    · have hperform : m.perform (.enterKind t attributes) = m.enter t.nodeName [] := if_pos hdrops
      rw [hperform]
      refine ⟨_, enter (Or.inr rfl) ?_, rfl⟩
      simp only [XmlOperation.Plain, hname, hdrops, true_and, forall_const]
      rw [and_comm, eq_comm]
    · have hperform : m.perform (.enterKind t attributes) = m.enter t.nodeName attributes :=
        if_neg hdrops
      rw [hperform]
      exact ⟨_, enter (Or.inl rfl) (by simp [XmlOperation.Plain, hname, hdrops]), rfl⟩
  | node nodeName attributes =>
    cases hasked
    exact ⟨_, write Iff.rfl, rfl⟩
  | nodeKind t attributes =>
    obtain ⟨ht, hlines⟩ := Option.ite_none_right_eq_some.mp hasked
    cases hlines
    have hperform : m.perform (.nodeKind t attributes) = m.node t.nodeName attributes :=
      if_pos ht
    rw [hperform]
    exact ⟨_, write (by simp [XmlOperation.Plain, XmlLine.Plain, isName_nodeName t]), rfl⟩
  | addValue value =>
    cases hasked
    exact ⟨_, write Iff.rfl, rfl⟩
  | leave =>
    cases hstack : m.blockNameStack with
    | nil =>
      rw [hstack] at hasked
      cases hasked
    | cons name names =>
      rw [hstack] at hasked
      cases hasked
      obtain ⟨hleave, hnames⟩ := leave hstack
      exact ⟨_, hleave, hnames⟩
  | leaveNode nodeName =>
    cases hasked
    exact ⟨_, line rfl (Or.inl rfl) (fun _ hplain => hplain) fun h hnames => ⟨rfl, h, hnames⟩, rfl⟩
  | release =>
    cases hasked
    exact closeNodes rfl

/-- What a run writes. -/
theorem foldl_perform {operations : List XmlOperation}
    (hasked : askedLines m.blockNameStack operations = some lines) :
    ∃ entries, Writes (∀ op ∈ operations, op.Plain) m
      (operations.foldl XmlBlockManager.perform m) entries lines := by
  induction operations generalizing m lines with
  | nil =>
    cases hasked
    have h := refl m
    exact ⟨[], by simpa using h⟩
  | cons op rest ih =>
    obtain ⟨lines1, lines2, h1, h2, rfl⟩ := askedLines_cons_eq_some.mp hasked
    obtain ⟨entries1, hfirst, hstack⟩ := perform h1
    rw [← hstack] at h2
    obtain ⟨entries2, hothers⟩ := ih h2
    have hboth := hfirst.trans hothers
    rw [← List.forall_mem_cons] at hboth
    exact ⟨_, hboth⟩

end Writes

end Xpcf.GrpcGen
