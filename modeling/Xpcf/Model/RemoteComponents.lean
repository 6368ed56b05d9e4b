import Xpcf.CodeLib.Table
import Xpcf.Model.Properties
import Xpcf.Model.ProtoGenerator

/-!
# The generated components

`ProxyGenerator` and `ServerGenerator` write the two C++ components of an
interface: the properties that their constructors declare, and for each method
the code that fills and reads the messages.  That code is a list of writes of
fields and a list of reads of fields; what it does besides (the channel, the
call, timers) is left out, and so is the macro `DISABLE_GRPC_COMPRESSION`, which
takes the compression format out of both components.
-/

namespace Xpcf.GrpcGen

open CodeLib

/-! ## Accesses to the fields of a message -/

/-- How a value is given to the setter of a field. -/
inductive Encoding where
  | plain
  | staticCast (rpcType : String)
  | serialize (type : String)
  deriving DecidableEq

/-- How a value is made of what the getter of a field returns. -/
inductive Decoding where
  | plain
  | staticCast (type : String)
  | deserialize (type : String)
  deriving DecidableEq

/-- The C++ variable that is written to a field, or that gets what is read. -/
inductive Place where
  /-- A parameter of the method of the proxy, of the type that is declared. -/
  | parameter
  /-- A variable of the server, of the leaf type, that is an argument of the call. -/
  | argument
  /-- What the method returns. -/
  | result
  /-- A member of the proxy, returned after the assignment, which may not compile. -/
  | member (assignable : Bool)
  /-- A variable that the generated code adds. -/
  | generated
  deriving DecidableEq

/-- What a field stands for. -/
inductive FieldContent where
  /-- An `xpcf::grpcCompressType`. -/
  | compressionFormat
  | value (type : CppType)
  deriving DecidableEq

/-- `message.set_accessor(encoding(variable))`. -/
structure FieldWrite where
  accessor : String
  content : FieldContent
  encoding : Encoding
  source : Place
  deriving DecidableEq

/-- `variable = decoding(message.accessor())`. -/
structure FieldRead where
  accessor : String
  content : FieldContent
  decoding : Decoding
  target : Place
  deriving DecidableEq

/-- `boost::to_lower_copy(name)`: the C++ accessors of a field are in lower case. -/
def accessorName (name : String) : String := String.ofList (name.toList.map Char.toLower)

def ProtoField.accessor (field : ProtoField) : String := accessorName field.name

/-- The accessor of the compression format. -/
def compressionAccessor : String := "grpcservercompressionformat"

/-- The accessor of the return value. -/
def returnAccessor : String := "xpcfgrpcreturnvalue"

namespace TypeDescriptor

/-- A cast to `getRPCType()` when `needsStaticCast()`. -/
def castEncoding (t : TypeDescriptor) : Encoding :=
  match t.rpcType with
  | some rpcType => .staticCast rpcType
  | none => .plain

/-- A cast back when `needsStaticCast()`. -/
def castDecoding (t : TypeDescriptor) : Decoding :=
  match t.rpcType with
  | some _ => .staticCast t.type.fullTypeDescription
  | none => .plain

/-- The write of a variable of the type. -/
def write (t : TypeDescriptor) (accessor : String) (encoding : Encoding) (source : Place) :
    FieldWrite :=
  ⟨accessor, .value t.type, encoding, source⟩

/-- The read into a variable of the type. -/
def read (t : TypeDescriptor) (accessor : String) (decoding : Decoding) (target : Place) :
    FieldRead :=
  ⟨accessor, .value t.type, decoding, target⟩

end TypeDescriptor

/-- The methods that carry the compression format. -/
def MethodDescriptor.sendsCompression (m : MethodDescriptor) : Bool :=
  m.hasOutputs && !m.compressionDisabled

/-! ## The proxy -/

namespace ProxyGenerator

/-- The properties that the constructor declares.  The member for the credentials
has no initial value. -/
def properties (c : ClassDescriptor) (channelCredentials : BitVec 32) : PropertyMap :=
  .mk ([.value "channelUrl" .inOut .charStr (.single ""),
      .value "channelCredentials" .inOut .uinteger (.single channelCredentials)] ++
    if c.compressionDisabled then []
    else
      [.value "grpc_compress_proxy" .inOut .charStr
        (.sequence (List.replicate (c.methods.length + 1) ""))])

/-- An entry of `m_proxyMembersVariables`. -/
structure ProxyMember where
  type : String
  /-- The member of a const method is `mutable`. -/
  isMutable : Bool
  deriving DecidableEq

def memberName (m : MethodDescriptor) : String := "m_" ++ m.name

/-- The member that `processHeaderMethods` adds for a method. -/
def memberOf (m : MethodDescriptor) : Option ProxyMember :=
  let type := m.returnType.type
  if type.kind = .cString then some ⟨"std::string", false⟩
  else if type.isConst && type.isReference then some ⟨type.fullTypeDescription, m.isConst⟩
  else none

/-- `m_proxyMembersVariables`: the methods of one name share a member. -/
def memberVariables (methods : List MethodDescriptor) : Table String ProxyMember :=
  methods.foldl
    (fun members m =>
      match memberOf m with
      | some member => members.insert (memberName m) member
      | none => members)
    Table.empty

/-- The method can assign what it returns to the member of its name. -/
def assignsMember (members : Table String ProxyMember) (m : MethodDescriptor) : Bool :=
  match memberOf m, members (memberName m) with
  | some own, some member => own.type = member.type && (member.isMutable || !m.isConst)
  | _, _ => false

/-- `ProxyGenerator::bindInput`. -/
def bindInput (p : ParameterDescriptor) : List FieldWrite :=
  let accessor := accessorName p.name
  match p.type.type.kind with
  | .builtin | .enum | .stdString | .cString =>
    [p.type.write accessor p.type.castEncoding .parameter]
  | .userDefined | .template =>
    [p.type.write accessor (.serialize p.type.type.fullTypeDescription) .parameter]

/-- `ProxyGenerator::bindOutput`. -/
def bindOutput (p : ParameterDescriptor) : List FieldRead :=
  let accessor := accessorName p.name
  match p.type.type.kind with
  | .builtin | .enum | .stdString => [p.type.read accessor p.type.castDecoding .parameter]
  | .userDefined | .template =>
    [p.type.read accessor (.deserialize p.type.type.fullTypeDescription) .parameter]
  | .cString => []

/-- The return statement of a method that is not void, and whether it can assign its member. -/
def bindReturn (assignable : Bool) (t : TypeDescriptor) : List FieldRead :=
  match t.type.kind with
  | .builtin => [t.read returnAccessor t.castDecoding .result]
  | .userDefined | .template =>
    [t.read returnAccessor (.deserialize t.type.fullTypeDescription)
      (if t.type.isConst && t.type.isReference then .member assignable else .result)]
  | .enum => [t.read returnAccessor t.castDecoding .result]
  | .cString => [t.read returnAccessor .plain (.member assignable)]
  | .stdString => []

/-- The part of `processBodyMethods` that fills the request. -/
def requestWrites (m : MethodDescriptor) : List FieldWrite :=
  (if m.sendsCompression then
    [⟨compressionAccessor, .compressionFormat, .staticCast "int32_t", .generated⟩] else []) ++
  if m.hasInputs then m.inParams.flatMap bindInput ++ m.inoutParams.flatMap bindInput else []

/-- The part that reads the response. -/
def responseReads (members : Table String ProxyMember) (m : MethodDescriptor) : List FieldRead :=
  (if m.hasOutputs then m.inoutParams.flatMap bindOutput ++ m.outParams.flatMap bindOutput
    else []) ++
  if m.returnsVoid then [] else bindReturn (assignsMember members m) m.returnType

end ProxyGenerator

/-! ## The server -/

namespace ServerGenerator

/-- The properties that the constructor declares. -/
def properties (c : ClassDescriptor) : PropertyMap :=
  .mk (if c.compressionDisabled then []
    else
      [.value "grpc_compress_server" .inOut .charStr
        (.sequence (List.replicate (c.methods.length + 1) ""))])

/-- `ServerGenerator::bindInput`: a parameter that is no input is only declared. -/
def bindInput (p : ParameterDescriptor) : List FieldRead :=
  let accessor := accessorName p.name
  if p.ioType = .in ∨ p.ioType = .inout then
    match p.type.type.kind with
    | .builtin | .enum | .stdString => [p.type.read accessor p.type.castDecoding .argument]
    | _ => [p.type.read accessor (.deserialize p.type.type.fullTypeDescription) .argument]
  else []

/-- `ServerGenerator::bindOutput`. -/
def bindOutput (p : ParameterDescriptor) : List FieldWrite :=
  let accessor := accessorName p.name
  if p.ioType = .inout ∨ p.ioType = .out then
    match p.type.type.kind with
    | .builtin | .enum | .stdString => [p.type.write accessor p.type.castEncoding .argument]
    | .userDefined | .template =>
      [p.type.write accessor (.serialize p.type.type.fullTypeDescription) .argument]
    | .cString => []
  else []

/-- What a method that is not void does with `returnValue`. -/
def bindReturn (t : TypeDescriptor) : List FieldWrite :=
  match t.type.kind with
  | .builtin => [t.write returnAccessor t.castEncoding .result]
  | .userDefined | .template =>
    [t.write returnAccessor (.serialize t.type.fullTypeDescription) .result]
  | .enum => [t.write returnAccessor t.castEncoding .result]
  | .cString => [t.write returnAccessor .plain .result]
  | .stdString => []

/-- The part of `processBodyMethods` that reads the request. -/
def requestReads (m : MethodDescriptor) : List FieldRead :=
  (if m.sendsCompression then
    [⟨compressionAccessor, .compressionFormat, .staticCast "xpcf::grpcCompressType",
      .generated⟩] else []) ++
  m.params.flatMap bindInput

/-- The part that fills the response. -/
def responseWrites (m : MethodDescriptor) : List FieldWrite :=
  m.params.flatMap bindOutput ++ if m.returnsVoid then [] else bindReturn m.returnType

end ServerGenerator

end Xpcf.GrpcGen
