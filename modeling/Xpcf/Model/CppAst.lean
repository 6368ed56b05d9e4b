import Mathlib.Data.List.Basic

/-!
# What the generator parses

The part of the cppast syntax tree that `xpcf_grpc_gen` reads: attributes,
types, parameters, member functions and classes with their bases.  A base
class stands in the tree of every class that inherits from it, so a class that
is reached several times is several equal subtrees.
-/

namespace Xpcf.GrpcGen

/-- `cppast::cpp_attribute`. -/
structure CppAttribute where
  scope : Option String
  name : String
  arguments : Option String
  deriving DecidableEq

/-! ## Types -/

/-- `cpp_builtin_type`. -/
inductive CppBuiltinType where
  | void
  | bool
  | uchar | ushort | uint | ulong | ulonglong | uint128
  | schar | short | int | long | longlong | int128
  | float | double | longdouble | float128
  | char | wchar | char16 | char32
  | nullptr
  | int8_t | int16_t | int32_t | int64_t
  | uint8_t | uint16_t | uint32_t | uint64_t
  | int_least8_t | int_least16_t | int_least32_t | int_least64_t
  | uint_least8_t | uint_least16_t | uint_least32_t | uint_least64_t
  | int_fast8_t | int_fast16_t | int_fast32_t | int_fast64_t
  | uint_fast8_t | uint_fast16_t | uint_fast32_t | uint_fast64_t
  | intptr_t | uintptr_t | intmax_t | uintmax_t
  deriving DecidableEq

/-- `type_kind`, less `array_t`, which no type is given. -/
inductive TypeKind where
  | builtin
  | cString
  | stdString
  | userDefined
  | enum
  | template
  deriving DecidableEq

/-- A level of a type above its leaf. -/
inductive TypeLevel where
  | pointer
  | array
  | lvalueReference
  | rvalueReference
  | const
  | volatile
  deriving DecidableEq

/-- A type as `TypeDescriptor::parseType` describes it.  Only `void` itself is void. -/
structure CppType where
  kind : TypeKind
  /-- Read for the kind `builtin` only. -/
  builtinType : CppBuiltinType
  isConst : Bool
  isReference : Bool
  isVoid : Bool
  /-- `getFullTypeDescription()`: the name of the leaf. -/
  fullTypeDescription : String
  /-- Of `m_cppastType`, which is what declarations say: from the outside to the leaf. -/
  levels : List TypeLevel
  of_isVoid : isVoid = true → kind = .builtin ∧ builtinType = .void ∧ isReference = false
  deriving DecidableEq

/-- `cppast::cpp_function_parameter`. -/
structure CppFunctionParameter where
  name : String
  attributes : List CppAttribute
  type : CppType
  deriving DecidableEq

/-! ## Functions and classes -/

/-- `cppast::cpp_member_function`.  A template is not virtual. -/
structure CppMemberFunction where
  name : String
  attributes : List CppAttribute
  isTemplated : Bool
  isVirtual : Bool
  isPure : Bool
  isConst : Bool
  returnType : CppType
  parameters : List CppFunctionParameter
  not_isVirtual : isTemplated = true → isVirtual = false
  deriving DecidableEq

/-- A `cppast::cpp_class` less its bases.  `scope` is the namespace around it:
two classes of one name are in two scopes. -/
structure ClassEntity where
  scope : String
  name : String
  attributes : List CppAttribute
  isTemplated : Bool
  memberFunctions : List CppMemberFunction
  deriving DecidableEq

mutual

/-- `cppast::cpp_class`. -/
inductive CppClass where
  | mk (entity : ClassEntity) (bases : BaseClasses)

/-- `bases()`: the name of each base as it is written, with the class that
`cppast::get_class` finds for it. -/
inductive BaseClasses where
  | nil
  | unknown (name : String) (rest : BaseClasses)
  | known (name : String) (cls : CppClass) (rest : BaseClasses)

end

deriving instance DecidableEq for CppClass, BaseClasses

namespace CppClass

def entity : CppClass → ClassEntity
  | .mk entity _ => entity

def bases : CppClass → BaseClasses
  | .mk _ bases => bases

/-- `name()`: without the scope. -/
def name (c : CppClass) : String := c.entity.name

end CppClass

/-- The names of the bases, as they are written. -/
def BaseClasses.names : BaseClasses → List String
  | .nil => []
  | .unknown name rest => name :: rest.names
  | .known name _ rest => name :: rest.names

end Xpcf.GrpcGen
