import Xpcf.CodeLib.IntegerTypes
import Xpcf.Model.RemoteComponents

/-!
# Values on the wire

What the generated code does with a value: a conversion to the C++ type of a
protobuf field, or to an archive, and back.  The widths of the C++ types are the
compiler's.  A type stands for the values of its leaf; the levels above it decide
which statements have them.
-/

namespace Xpcf.GrpcGen

open CodeLib

/-- The kinds of C++ values that the generated code handles. -/
inductive ValueKind where
  | integer (type : IntegerType)
  | boolean
  | float
  | double
  | text
  /-- An object of a class. -/
  | object
  /-- What `xpcf::serialize` makes of an object. -/
  | archive
  /-- A value that no field has room for, as a `long double` or a `void *`. -/
  | other
  deriving DecidableEq

/-- A value.  Floating point numbers are their bits, objects are numbered. -/
inductive CppValue where
  | integer (n : Int)
  | boolean (b : Bool)
  | float (bits : BitVec 32)
  | double (bits : BitVec 64)
  | text (s : String)
  | object (id : Nat)
  | archive (id : Nat)
  | other (id : Nat)
  deriving DecidableEq

/-- The value has the kind. -/
inductive ValueKind.Holds : ValueKind → CppValue → Prop
  | integer {type : IntegerType} {n : Int} (h : type.Holds n) : Holds (.integer type) (.integer n)
  | boolean (b : Bool) : Holds .boolean (.boolean b)
  | float (bits : BitVec 32) : Holds .float (.float bits)
  | double (bits : BitVec 64) : Holds .double (.double bits)
  | text (s : String) : Holds .text (.text s)
  | object (id : Nat) : Holds .object (.object id)
  | archive (id : Nat) : Holds .archive (.archive id)
  | other (id : Nat) : Holds .other (.other id)

/-- A conversion, implicit or by `static_cast`.  Between kinds the generated code
has none that compiles. -/
def ValueKind.convert : ValueKind → CppValue → Option CppValue
  | integer type, .integer n => some (.integer (type.wrap n))
  | boolean, .boolean b => some (.boolean b)
  | float, .float bits => some (.float bits)
  | double, .double bits => some (.double bits)
  | text, .text s => some (.text s)
  | object, .object id => some (.object id)
  | archive, .archive id => some (.archive id)
  | _, _ => none

/-! ## Levels -/

def TypeLevel.isReference : TypeLevel → Bool
  | .lvalueReference | .rvalueReference => true
  | _ => false

def TypeLevel.isQualifier : TypeLevel → Bool
  | .const | .volatile => true
  | _ => false

namespace CppType

/-- The levels of what an expression of the type denotes. -/
def objectLevels (type : CppType) : List TypeLevel :=
  type.levels.dropWhile TypeLevel.isReference

/-- The qualifiers of what an expression of the type denotes. -/
def qualifiers (type : CppType) : List TypeLevel :=
  type.objectLevels.takeWhile TypeLevel.isQualifier

/-- The levels below the qualifiers. -/
def innerLevels (type : CppType) : List TypeLevel :=
  type.objectLevels.dropWhile TypeLevel.isQualifier

/-- An expression of the type has a value of the leaf, or is a C string.  Nothing takes
a volatile object of a class, and of a pointer or an array only the address. -/
def holdsValue (type : CppType) : Bool :=
  match type.kind with
  | .builtin | .enum => type.innerLevels = []
  | .stdString | .userDefined | .template =>
    type.innerLevels = [] && !type.qualifiers.contains .volatile
  | .cString => type.innerLevels = [.pointer] || type.innerLevels = [.pointer, .const]

/-- A variable of the leaf type can be passed for a parameter of the type. -/
def bindsVariable (type : CppType) : Bool :=
  type.holdsValue && type.levels.head? ≠ some .rvalueReference

/-- A parameter of the type can be given a value. -/
def isAssignable (type : CppType) : Bool :=
  type.holdsValue && !type.qualifiers.contains .const

/-- A method with this return type can return a temporary.  A reference to it would
outlive it. -/
def returnsTemporary (type : CppType) : Bool :=
  type.holdsValue && type.objectLevels = type.levels &&
    (type.kind ≠ .cString || type.innerLevels = [.pointer, .const])

end CppType

/-! ## Kinds of types -/

def int32 : IntegerType := ⟨32, true⟩

def uint32 : IntegerType := ⟨32, false⟩

def int64 : IntegerType := ⟨64, true⟩

def uint64 : IntegerType := ⟨64, false⟩

/-- The kind of a protobuf type; no kind for what is not one. -/
def wireKind : String → Option ValueKind
  | "int32" => some (.integer int32)
  | "sint32" => some (.integer int32)
  | "uint32" => some (.integer uint32)
  | "sint64" => some (.integer int64)
  | "uint64" => some (.integer uint64)
  | "bool" => some .boolean
  | "float" => some .float
  | "double" => some .double
  | "string" => some .text
  | "bytes" => some .archive
  | _ => none

/-- The kind of a type that `getRPCType()` names. -/
def rpcKind : String → Option ValueKind
  | "int32_t" => some (.integer int32)
  | "uint32_t" => some (.integer uint32)
  | "int64_t" => some (.integer int64)
  | "uint64_t" => some (.integer uint64)
  | "std::string" => some .archive
  | _ => none

/-- What the compiler chooses. -/
structure Platform where
  /-- Read for integer types only. -/
  integerType : CppBuiltinType → IntegerType
  /-- The integer type that has the values of the enumeration. -/
  enumType : String → IntegerType

namespace Platform

variable (platform : Platform)

def builtinKind : CppBuiltinType → ValueKind
  | .bool => .boolean
  | .float => .float
  | .double => .double
  | .void => .other
  | .longdouble => .other
  | .float128 => .other
  | .nullptr => .other
  | type => .integer (platform.integerType type)

def typeKind (type : CppType) : ValueKind :=
  match type.kind with
  | .builtin => platform.builtinKind type.builtinType
  | .enum => .integer (platform.enumType type.fullTypeDescription)
  | .stdString | .cString => .text
  | .userDefined | .template => .object

/-- The enumerators of `grpcCompressType` need seven bits. -/
def contentKind : FieldContent → ValueKind
  | .compressionFormat => .integer ⟨7, false⟩
  | .value type => platform.typeKind type

end Platform

/-- `xpcf::serialize`. -/
def serialize : CppValue → Option CppValue
  | .object id => some (.archive id)
  | _ => none

/-- `xpcf::deserialize`: it only reads what `serialize` wrote. -/
def deserialize : CppValue → Option CppValue
  | .archive id => some (.object id)
  | _ => none

/-! ## Statements -/

/-- The variable has the value that the field stands for.  Where it is an argument, the
call compiles. -/
def FieldContent.gives : FieldContent → Place → Bool
  | .compressionFormat, _ => true
  | .value type, .parameter => type.holdsValue
  | .value type, .argument => type.bindsVariable
  | .value type, .result => type.holdsValue
  | .value _, _ => false

/-- The variable can be given a value, and what it is for gets it.  The member for a C
string returns a pointer to its text. -/
def FieldContent.takes : FieldContent → Place → Bool
  | .compressionFormat, _ => true
  | .value type, .parameter => type.isAssignable
  | .value type, .argument => type.bindsVariable
  | .value type, .result => type.returnsTemporary
  | .value type, .member assignable =>
    assignable && if type.kind = .cString then type.returnsTemporary else type.bindsVariable
  | .value _, .generated => false

/-- What a setter of a field of the protobuf type makes of the value that it is given. -/
def FieldWrite.convert (w : FieldWrite) (typeName : String) (v : CppValue) : Option CppValue :=
  let argument := match w.encoding with
    | .plain => some v
    | .staticCast rpcType => (rpcKind rpcType).bind fun kind => kind.convert v
    | .serialize _ => GrpcGen.serialize v
  (wireKind typeName).bind fun kind => argument.bind kind.convert

/-- What the setter of the field sends.  A statement that does not compile, or has
another value, sends nothing of it. -/
def FieldWrite.encode (w : FieldWrite) (typeName : String) (v : CppValue) : Option CppValue :=
  if w.content.gives w.source then w.convert typeName v else none

/-- What a variable of the leaf type gets of the value that the getter returns.  A cast
names the type of the variable. -/
def FieldRead.convert (platform : Platform) (r : FieldRead) (v : CppValue) : Option CppValue :=
  match r.decoding with
  | .plain => (platform.contentKind r.content).convert v
  | .staticCast _ => (platform.contentKind r.content).convert v
  | .deserialize _ => (GrpcGen.deserialize v).bind (platform.contentKind r.content).convert

/-- What is made of the value that the getter returns. -/
def FieldRead.decode (platform : Platform) (r : FieldRead) (v : CppValue) : Option CppValue :=
  if r.content.takes r.target then r.convert platform v else none

end Xpcf.GrpcGen
