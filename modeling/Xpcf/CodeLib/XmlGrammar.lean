import Xpcf.CodeLib.Numerals

/-!
# A grammar of XML documents

The productions of XML 1.0 for a document without a document type: names,
references, character data with CDATA sections, attributes, tags.  Each is a
relation between a text, what is read off its front and what is left of it.

A document is read as tokens: its tags and, before each of them, the character
data.  A comment or a processing instruction is a node of its own, which no
token stands for, so a text with one has no reading here.

* `IsName`, `Reference`, `CharData`, `AttData`, `Attributes`, `Tag`, `Markup`:
  the productions;
* `Document`: a whole text, after its XML declaration.
-/

namespace CodeLib.Xml

/-! ## Characters and names -/

def inRanges (ranges : List (Nat × Nat)) (c : Char) : Bool :=
  ranges.any fun range => range.1 ≤ c.toNat && c.toNat ≤ range.2

/-- `Char`. -/
def isChar : Char → Bool :=
  inRanges [(0x9, 0xA), (0xD, 0xD), (0x20, 0xD7FF), (0xE000, 0xFFFD), (0x10000, 0x10FFFF)]

/-- The characters of `S`. -/
def isBlank (c : Char) : Bool := c = ' ' || c = '\t' || c = '\n' || c = '\r'

/-- `NameStartChar`. -/
def isNameStart : Char → Bool :=
  inRanges [(0x3A, 0x3A), (0x41, 0x5A), (0x5F, 0x5F), (0x61, 0x7A), (0xC0, 0xD6), (0xD8, 0xF6),
    (0xF8, 0x2FF), (0x370, 0x37D), (0x37F, 0x1FFF), (0x200C, 0x200D), (0x2070, 0x218F),
    (0x2C00, 0x2FEF), (0x3001, 0xD7FF), (0xF900, 0xFDCF), (0xFDF0, 0xFFFD), (0x10000, 0xEFFFF)]

/-- `NameChar`. -/
def isNameChar (c : Char) : Bool :=
  isNameStart c ||
    inRanges [(0x2D, 0x2E), (0x30, 0x39), (0xB7, 0xB7), (0x300, 0x36F), (0x203F, 0x2040)] c

/-- `Name`. -/
def IsName (name : String) : Prop :=
  ∃ c rest, name.toList = c :: rest ∧ isNameStart c = true ∧ ∀ d ∈ rest, isNameChar d = true

/-- `S?`. -/
def Blanks (s : List Char) : Prop := ∀ c ∈ s, isBlank c = true

/-! ## Character data -/

def predefinedEntities : List (String × Char) :=
  [("lt", '<'), ("gt", '>'), ("amp", '&'), ("apos", '\''), ("quot", '"')]

/-- What stands between the ampersand and the semicolon of a reference, and the
character it is for. -/
inductive Reference : List Char → Char → Prop where
  | entity {name : String} {c : Char} (h : (name, c) ∈ predefinedEntities) :
    Reference name.toList c
  | decimal {digits : List Char} {c : Char} (hne : digits ≠ [])
    (hdigits : ∀ d ∈ digits, isDigitOf 10 d = true) (hvalue : c.toNat = ofDigits 10 digits)
    (hchar : isChar c = true) : Reference ('#' :: digits) c
  | hexadecimal {digits : List Char} {c : Char} (hne : digits ≠ [])
    (hdigits : ∀ d ∈ digits, isDigitOf 16 d = true) (hvalue : c.toNat = ofDigits 16 digits)
    (hchar : isChar c = true) : Reference ('#' :: 'x' :: digits) c

/-- The ends of lines as a processor passes them on. -/
def normalizeLineEnds : List Char → List Char
  | [] => []
  | '\r' :: '\n' :: rest => '\n' :: normalizeLineEnds rest
  | '\r' :: rest => '\n' :: normalizeLineEnds rest
  | c :: rest => c :: normalizeLineEnds rest

def cdataStart : List Char := ['<', '!', '[', 'C', 'D', 'A', 'T', 'A', '[']

def cdataEnd : List Char := [']', ']', '>']

/-- Character data, with what it is read as. -/
inductive CharData : List Char → List Char → List Char → Prop where
  | done (rest : List Char) : CharData rest [] rest
  | char {c : Char} {input data rest : List Char} (hchar : isChar c = true)
    (hopen : c ≠ '<') (hreference : c ≠ '&') (hreturn : c ≠ '\r')
    (hend : ¬ cdataEnd <+: c :: input) (h : CharData input data rest) :
    CharData (c :: input) (c :: data) rest
  | returnNewline {input data rest : List Char} (h : CharData input data rest) :
    CharData ('\r' :: '\n' :: input) ('\n' :: data) rest
  | loneReturn {input data rest : List Char} (hnewline : input.head? ≠ some '\n')
    (h : CharData input data rest) : CharData ('\r' :: input) ('\n' :: data) rest
  | reference {name : List Char} {c : Char} {input data rest : List Char}
    (hname : Reference name c) (h : CharData input data rest) :
    CharData ('&' :: (name ++ ';' :: input)) (c :: data) rest
  | cdata {body input data rest : List Char} (hbody : ∀ c ∈ body, isChar c = true)
    (hend : ¬ cdataEnd <:+: body) (h : CharData input data rest) :
    CharData (cdataStart ++ body ++ cdataEnd ++ input) (normalizeLineEnds body ++ data) rest

/-! ## Tags -/

/-- The value of an attribute after its opening quote, with the closing one. -/
inductive AttData (quote : Char) : List Char → List Char → List Char → Prop where
  | done (rest : List Char) : AttData quote (quote :: rest) [] rest
  | char {c : Char} {input data rest : List Char} (hchar : isChar c = true) (hquote : c ≠ quote)
    (hopen : c ≠ '<') (hreference : c ≠ '&') (htab : c ≠ '\t') (hnewline : c ≠ '\n')
    (hreturn : c ≠ '\r') (h : AttData quote input data rest) :
    AttData quote (c :: input) (c :: data) rest
  | blank {c : Char} {input data rest : List Char} (hblank : c = '\t' ∨ c = '\n')
    (h : AttData quote input data rest) : AttData quote (c :: input) (' ' :: data) rest
  | returnNewline {input data rest : List Char} (h : AttData quote input data rest) :
    AttData quote ('\r' :: '\n' :: input) (' ' :: data) rest
  | loneReturn {input data rest : List Char} (hnewline : input.head? ≠ some '\n')
    (h : AttData quote input data rest) : AttData quote ('\r' :: input) (' ' :: data) rest
  | reference {name : List Char} {c : Char} {input data rest : List Char}
    (hname : Reference name c) (h : AttData quote input data rest) :
    AttData quote ('&' :: (name ++ ';' :: input)) (c :: data) rest

inductive Attributes : List Char → List (String × String) → List Char → Prop where
  | done (rest : List Char) : Attributes rest [] rest
  | more {blanks blanks1 blanks2 input input1 rest : List Char} {name value : String}
    {quote : Char} {attributes : List (String × String)} (hne : blanks ≠ [])
    (hblanks : Blanks blanks) (hname : IsName name) (hblanks1 : Blanks blanks1)
    (hblanks2 : Blanks blanks2) (hquote : quote = '"' ∨ quote = '\'')
    (hvalue : AttData quote input value.toList input1)
    (h : Attributes input1 attributes rest) :
    Attributes (blanks ++ (name.toList ++ (blanks1 ++ '=' :: (blanks2 ++ quote :: input))))
      ((name, value) :: attributes) rest

/-- What a document is read as, one after the other. -/
inductive Token where
  | text (data : String)
  | start (name : String) (attributes : List (String × String))
  | finish (name : String)
  deriving DecidableEq

/-- One tag.  That of an empty element is a start and an end with nothing between. -/
inductive Tag : List Char → List Token → List Char → Prop where
  | start {name : String} {attributes : List (String × String)} {input blanks rest : List Char}
    (hname : IsName name) (hattributes : Attributes input attributes (blanks ++ '>' :: rest))
    (hnodup : (attributes.map Prod.fst).Nodup) (hblanks : Blanks blanks) :
    Tag ('<' :: (name.toList ++ input)) [.start name attributes] rest
  | empty {name : String} {attributes : List (String × String)} {input blanks rest : List Char}
    (hname : IsName name) (hattributes : Attributes input attributes (blanks ++ '/' :: '>' :: rest))
    (hnodup : (attributes.map Prod.fst).Nodup) (hblanks : Blanks blanks) :
    Tag ('<' :: (name.toList ++ input)) [.start name attributes, .text "", .finish name] rest
  | finish {name : String} {blanks rest : List Char} (hname : IsName name)
    (hblanks : Blanks blanks) :
    Tag ('<' :: '/' :: (name.toList ++ (blanks ++ '>' :: rest))) [.finish name] rest

/-- Character data and a tag, any number of times. -/
inductive Markup : List Char → List Token → List Char → Prop where
  | done (rest : List Char) : Markup rest [] rest
  | more {input input1 input2 rest : List Char} {data : String} {tag tokens : List Token}
    (hdata : CharData input data.toList input1) (htag : Tag input1 tag input2)
    (h : Markup input2 tokens rest) : Markup input (.text data :: (tag ++ tokens)) rest

/-- A document after its declaration: the first tag is the one of the root, and
nothing but blanks surrounds the root.  That its tags match is left to the reader
of the tokens. -/
def Document (input : List Char) (tokens : List Token) : Prop :=
  ∃ blanks input1 tag input2 tokens1 blanks1, Blanks blanks ∧ Blanks blanks1 ∧
    input = blanks ++ input1 ∧ Tag input1 tag input2 ∧ Markup input2 tokens1 blanks1 ∧
    tokens = tag ++ tokens1

end CodeLib.Xml
