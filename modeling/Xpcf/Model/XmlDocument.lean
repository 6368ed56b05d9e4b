import Xpcf.Model.XmlText

/-!
# XML files

The documents of `tinyxml2` with the two ways they go: `SaveFile`, where
`XMLPrinter` visits the nodes, and `LoadFile`, where `ParseDeep` makes them.

The parser reports an error by its kind; the line numbers and the texts of the
errors are left out, since the framework tests the kind only.
-/

namespace Xpcf.TinyXml

open CodeLib

/-! ## Documents -/

inductive XMLNode where
  | element (name : CString) (attributes : List (CString × CString)) (children : List XMLNode)
  | text (value : CString) (cData : Bool)
  | comment (value : CString)
  | declaration (value : CString)
  | unknown (value : CString)

structure XMLDocument where
  writeBOM : Bool
  children : List XMLNode

/-- `RootElement()`: the first child that is an element. -/
def XMLDocument.rootElement (doc : XMLDocument) : Option XMLNode :=
  doc.children.find? fun node =>
    match node with
    | .element _ _ _ => true
    | _ => false

/-- `XMLError`, less the kinds for files that cannot be read and for values. -/
inductive XMLError where
  | fileNotFound
  | parsingElement
  | parsingAttribute
  | parsingText
  | parsingCData
  | parsingComment
  | parsingDeclaration
  | parsingUnknown
  | emptyDocument
  | mismatchedElement
  | parsing
  | elementDepthExceeded
  deriving DecidableEq

/-! ## The printer -/

structure XMLPrinter where
  out : Bytes
  elementJustOpened : Bool
  stack : List CString
  firstElement : Bool
  depth : Int
  textDepth : Int
  compactMode : Bool

namespace XMLPrinter

def new (compact : Bool) : XMLPrinter where
  out := []
  elementJustOpened := false
  stack := []
  firstElement := true
  depth := 0
  textDepth := -1
  compactMode := compact

def write (data : Bytes) (s : XMLPrinter) : XMLPrinter := { s with out := s.out ++ data }

def printSpace (depth : Int) (s : XMLPrinter) : XMLPrinter :=
  s.write (List.replicate depth.toNat (bytesOf "    ")).flatten

def sealElementIfJustOpened (s : XMLPrinter) : XMLPrinter :=
  if s.elementJustOpened then { s with elementJustOpened := false }.write (bytesOf ">") else s

def prepareForNewNode (compact : Bool) (s : XMLPrinter) : XMLPrinter :=
  let s := s.sealElementIfJustOpened
  if compact then s
  else
    let s1 :=
      if s.firstElement then s.printSpace s.depth
      else if s.textDepth < 0 then (s.write [lineFeed]).printSpace s.depth
      else s
    { s1 with firstElement := false }

def openElement (name : CString) (compact : Bool) (s : XMLPrinter) : XMLPrinter :=
  let s := s.prepareForNewNode compact
  let s := ({ s with stack := name :: s.stack }.write (bytesOf "<")).write name.bytes
  { s with elementJustOpened := true, depth := s.depth + 1 }

def pushAttribute (s : XMLPrinter) (attrib : CString × CString) : XMLPrinter :=
  ((((s.write (bytesOf " ")).write attrib.1.bytes).write (bytesOf "=\"")).write
    (printString false attrib.2)).write (bytesOf "\"")

def closeElement (compact : Bool) (s : XMLPrinter) : XMLPrinter :=
  let name := s.stack.headD .empty
  let s := { s with depth := s.depth - 1, stack := s.stack.tail }
  let s :=
    if s.elementJustOpened then s.write (bytesOf "/>")
    else
      let s :=
        if s.textDepth < 0 ∧ compact = false then (s.write [lineFeed]).printSpace s.depth else s
      ((s.write (bytesOf "</")).write name.bytes).write (bytesOf ">")
  let s := if s.textDepth = s.depth then { s with textDepth := -1 } else s
  let s := if s.depth = 0 ∧ compact = false then s.write [lineFeed] else s
  { s with elementJustOpened := false }

def pushText (text : CString) (cdata : Bool) (s : XMLPrinter) : XMLPrinter :=
  let s := { s with textDepth := s.depth - 1 }.sealElementIfJustOpened
  if cdata then ((s.write (bytesOf "<![CDATA[")).write text.bytes).write (bytesOf "]]>")
  else s.write (printString true text)

/-- `PushComment`, `PushDeclaration` and `PushUnknown`, with what they write around
the value. -/
def pushMarkup (before after : Bytes) (value : CString) (s : XMLPrinter) : XMLPrinter :=
  (((s.prepareForNewNode s.compactMode).write before).write value.bytes).write after

def pushComment : CString → XMLPrinter → XMLPrinter := pushMarkup (bytesOf "<!--") (bytesOf "-->")

def pushDeclaration : CString → XMLPrinter → XMLPrinter := pushMarkup (bytesOf "<?") (bytesOf "?>")

def pushUnknown : CString → XMLPrinter → XMLPrinter := pushMarkup (bytesOf "<!") (bytesOf ">")

def byteOrderMark : Bytes := [0xEF, 0xBB, 0xBF]

end XMLPrinter

mutual

/-- `Accept` with the printer as the visitor: `VisitEnter`, the children and
`VisitExit` of an element, `Visit` of the other nodes. -/
def XMLNode.accept : XMLNode → XMLPrinter → XMLPrinter
  | .element name attributes children, s =>
    let s := attributes.foldl XMLPrinter.pushAttribute (s.openElement name s.compactMode)
    let s := acceptAll children s
    s.closeElement s.compactMode
  | .text value cData, s => s.pushText value cData
  | .comment value, s => s.pushComment value
  | .declaration value, s => s.pushDeclaration value
  | .unknown value, s => s.pushUnknown value

def acceptAll : List XMLNode → XMLPrinter → XMLPrinter
  | [], s => s
  | node :: nodes, s => acceptAll nodes (node.accept s)

end

/-- `XMLDocument::Accept`, with the header for a byte order mark. -/
def XMLDocument.accept (doc : XMLDocument) (s : XMLPrinter) : XMLPrinter :=
  acceptAll doc.children (if doc.writeBOM then s.write XMLPrinter.byteOrderMark else s)

/-- `XMLDocument::SaveFile`: what the file holds afterwards. -/
def XMLDocument.saveFile (doc : XMLDocument) (compact : Bool) : Bytes :=
  (doc.accept (.new compact)).out

/-! ## The parser -/

def skipWhiteSpace (p : Bytes) : Bytes := p.dropWhile isWhiteSpace

/-- `StrPair::ParseName`. -/
def parseName : Bytes → Option (CString × Bytes)
  | [] => none
  | c :: p =>
    if isNameStartChar c then
      some (.ofBytes (c :: p.takeWhile isNameChar), p.dropWhile isNameChar)
    else none

/-- `XMLAttribute::ParseDeep`. -/
def parseAttribute (p : Bytes) : Option ((CString × CString) × Bytes) :=
  match parseName p with
  | none => none
  | some (name, p) =>
    match skipWhiteSpace p with
    | [] => none
    | c :: p =>
      if c = ascii '=' then
        match skipWhiteSpace p with
        | [] => none
        | quote :: p =>
          if quote = ascii '"' ∨ quote = ascii '\'' then
            (splitAtFirst [quote] p).map fun parts => ((name, getStr true parts.1), parts.2)
          else none
      else none

/-- `ElementClosingType`. -/
inductive ClosingType where
  | opening
  | closed
  | closing
  deriving DecidableEq

theorem length_skipWhiteSpace (p : Bytes) : (skipWhiteSpace p).length ≤ p.length :=
  (List.dropWhile_suffix _).length_le

theorem length_of_parseName {p rest : Bytes} {name : CString}
    (h : parseName p = some (name, rest)) : rest.length < p.length := by
  cases p with
  | nil => cases h
  | cons c p =>
    rw [parseName] at h
    split at h
    · cases h
      exact Nat.lt_succ_of_le (List.dropWhile_suffix _).length_le
    · cases h

theorem length_of_parseAttribute {p rest : Bytes} {attrib : CString × CString}
    (h : parseAttribute p = some (attrib, rest)) : rest.length < p.length := by
  unfold parseAttribute at h
  split at h
  · cases h
  · rename_i name p1 hname
    have h1 := length_of_parseName hname
    split at h
    · cases h
    · rename_i c p2 hequals
      have h2 := hequals ▸ length_skipWhiteSpace p1
      split at h
      · split at h
        · cases h
        · rename_i quote p3 hquote
          have h3 := hquote ▸ length_skipWhiteSpace p2
          split at h
          · obtain ⟨⟨value, rest1⟩, hsplit, heq⟩ := Option.map_eq_some_iff.mp h
            cases heq
            have h4 := length_of_splitAtFirst (by simp) hsplit
            simp only [List.length_cons, List.length_nil] at h2 h3 h4 ⊢
            omega
          · cases h
      · cases h

/-- `XMLElement::ParseAttributes`: the attributes, how the tag is closed when it
was not so before, and what is left. -/
def parseAttributes (attributes : List (CString × CString)) (closingType : ClosingType)
    (p : Bytes) : Except XMLError (List (CString × CString) × ClosingType × Bytes) :=
  match _hskip : skipWhiteSpace p with
  | [] => .error .parsingElement
  | c :: rest =>
    if isNameStartChar c then
      match _hread : parseAttribute (c :: rest) with
      | none => .error .parsingAttribute
      | some (attrib, p1) =>
        -- `Attribute(name)` searches the attributes before this one
        if attributes.any fun entry => entry.1 = attrib.1 then .error .parsingAttribute
        else parseAttributes (attributes ++ [attrib]) closingType p1
    else if c = ascii '>' then .ok (attributes, closingType, rest)
    else if c = ascii '/' ∧ rest.head? = some (ascii '>') then .ok (attributes, .closed, rest.tail)
    else .error .parsingElement
  termination_by p.length
  decreasing_by
    have h1 := length_of_parseAttribute _hread
    have h2 := _hskip ▸ length_skipWhiteSpace p
    omega

/-- What `XMLElement::ParseDeep` reads before the children. -/
structure XMLTag where
  name : CString
  attributes : List (CString × CString)
  closingType : ClosingType

def parseTag (p : Bytes) : Except XMLError (XMLTag × Bytes) :=
  let p := skipWhiteSpace p
  let (closingType, p) :=
    if p.head? = some (ascii '/') then (ClosingType.closing, p.tail) else (ClosingType.opening, p)
  match parseName p with
  | none => .error .parsing
  | some (name, p) =>
    match parseAttributes [] closingType p with
    | .error e => .error e
    | .ok (attributes, closingType, p) => .ok (⟨name, attributes, closingType⟩, p)

inductive NodeKind where
  | declaration
  | comment
  | cdata
  | unknown
  | element
  | text
  deriving DecidableEq

/-- `XMLDocument::Identify`: the kind of the next node, and where it is parsed from. -/
def identify (p : Bytes) : Option (NodeKind × Bytes) :=
  let start := p
  let p := skipWhiteSpace p
  if p = [] then none
  else if bytesOf "<?" <+: p then some (.declaration, p.drop 2)
  else if bytesOf "<!--" <+: p then some (.comment, p.drop 4)
  else if bytesOf "<![CDATA[" <+: p then some (.cdata, p.drop 9)
  else if bytesOf "<!" <+: p then some (.unknown, p.drop 2)
  else if bytesOf "<" <+: p then some (.element, p.drop 1)
  else some (.text, start)

/-- `ParseText` with an end tag, for a node whose value is that text. -/
def parseValue (endTag : Bytes) (error : XMLError) (node : CString → XMLNode) (p : Bytes) :
    Except XMLError (XMLNode × Bytes) :=
  match splitAtFirst endTag p with
  | none => .error error
  | some (value, rest) => .ok (node (getStr false value), rest)

/-- `ParseDeep` of the nodes that have no children.  A text ends in front of the
next tag, and it is an error if that is not even a character long. -/
def parseLeaf : NodeKind → Bytes → Except XMLError (XMLNode × Bytes)
  | .declaration => parseValue (bytesOf "?>") .parsingDeclaration .declaration
  | .comment => parseValue (bytesOf "-->") .parsingComment .comment
  | .cdata => parseValue (bytesOf "]]>") .parsingCData (.text · true)
  | .unknown => parseValue (bytesOf ">") .parsingUnknown .unknown
  | .element => fun _ => .error .parsing
  | .text => fun p =>
    match splitAtFirst (bytesOf "<") p with
    | none => .error .parsingText
    | some (value, rest) =>
      if rest = [] then .error .parsing
      else .ok (.text (getStr true value) false, ascii '<' :: rest)

/-- Declarations come before anything else, in a document only. -/
def wellLocated (isDocument : Bool) (children : List XMLNode) : Bool :=
  let isDeclaration : XMLNode → Bool := fun node =>
    match node with
    | .declaration _ => true
    | _ => false
  isDocument && children.head?.all isDeclaration && children.getLast?.all isDeclaration

/-- `TINYXML2_MAX_ELEMENT_DEPTH`. -/
def maxElementDepth : Nat := 500

/-- How `XMLNode::ParseDeep` ends: with an error, at the end of the text, or at an
end tag, which is that of the node itself.  The children it has made stay. -/
inductive Parsed where
  | fails (error : XMLError) (children : List XMLNode)
  | ended (children : List XMLNode)
  | closed (children : List XMLNode) (endTag : CString) (rest : Bytes)

/-- `XMLNode::ParseDeep`, from the iteration of its loop in which the node has these
children.  `depth` is `_parsingDepth`.  Every iteration consumes a byte, so the
length of the text is fuel enough. -/
def parseDeep (isDocument : Bool) : Nat → Nat → List XMLNode → Bytes → Option Parsed
  | 0, _, _, _ => none
  | fuel + 1, depth, children, p =>
    match identify p with
    | none => some (.ended children)
    | some (.element, p) =>
      match parseTag p with
      | .error e => some (.fails e children)
      | .ok (tag, rest) =>
        let element := XMLNode.element tag.name tag.attributes
        match tag.closingType with
        | .closing => some (.closed children tag.name rest)
        | .closed => parseDeep isDocument fuel depth (children ++ [element []]) rest
        | .opening =>
          if rest = [] then some (.fails .mismatchedElement children)
          else if depth + 1 = maxElementDepth then some (.fails .elementDepthExceeded children)
          else
            match parseDeep false fuel (depth + 1) [] rest with
            | none => none
            | some (.fails e _) => some (.fails e children)
            | some (.ended _) => some (.fails .parsing children)
            | some (.closed inner endTag rest) =>
              if endTag = tag.name then
                parseDeep isDocument fuel depth (children ++ [element inner]) rest
              else some (.fails .mismatchedElement children)
    | some (kind, p) =>
      match parseLeaf kind p with
      | .error e => some (.fails e children)
      | .ok (node, rest) =>
        if kind = .declaration ∧ wellLocated isDocument children = false then
          some (.fails .parsingDeclaration children)
        else parseDeep isDocument fuel depth (children ++ [node]) rest

/-- `XMLDocument::Parse` on the bytes of a file: the error, if any, and the document
as it is then.  An end tag at the level of the document ends it. -/
def parse (file : Bytes) : Option XMLError × XMLDocument :=
  let p := skipWhiteSpace (CString.ofBytes file).bytes
  let bom := decide (XMLPrinter.byteOrderMark <+: p)
  let p := if bom then p.drop 3 else p
  if p = [] then (some .emptyDocument, ⟨bom, []⟩)
  else
    match parseDeep true (p.length + 1) 1 [] p with
    | none => (some .parsing, ⟨bom, []⟩)
    | some (.fails e children) => (some e, ⟨bom, children⟩)
    | some (.ended children) => (none, ⟨bom, children⟩)
    | some (.closed children _ _) => (none, ⟨bom, children⟩)

/-- `XMLDocument::LoadFile`; `none` is a missing file. -/
def loadFile : Option Bytes → Option XMLError × XMLDocument
  | none => (some .fileNotFound, ⟨false, []⟩)
  | some file => if file = [] then (some .emptyDocument, ⟨false, []⟩) else parse file

end Xpcf.TinyXml
