import Xpcf.Model.Descriptors

/-!
# The proto file of an interface

`GRPCProtoGenerator`: the names of the messages, one message declaration for
each request and each response that has fields, and the service.  Declaring a
field also changes the parameter it stands for: a reserved name is replaced and
the cast of its type is chosen, and the proxy and the server are generated from
the parameters so changed.
-/

namespace Xpcf.GrpcGen

/-! ## Types and names of fields -/

/-- `builtinType2protobufTypeMap`. -/
def builtinType2protobufTypeMap : CppBuiltinType → Option (String × Bool)
  | .void => some ("Empty", false)
  | .bool => some ("bool", false)
  | .uchar => some ("uint32", true)
  | .ushort => some ("uint32", true)
  | .uint => some ("uint32", false)
  | .ulong => some ("uint64", false)
  | .ulonglong => some ("uint64", false)
  | .uint128 => some ("bytes", false)
  | .schar => some ("sint32", true)
  | .short => some ("sint32", true)
  | .int => some ("sint32", false)
  | .long => some ("sint64", false)
  | .longlong => some ("sint64", false)
  | .int128 => some ("bytes", false)
  | .float => some ("float", false)
  | .double => some ("double", false)
  | .longdouble => some ("bytes", false)
  | .float128 => some ("bytes", false)
  | .char => some ("sint32", true)
  | .wchar => some ("sint32", true)
  | .char16 => some ("sint32", true)
  | .char32 => some ("sint32", true)
  | .int8_t => some ("sint32", true)
  | .int16_t => some ("sint32", false)
  | .int32_t => some ("sint32", true)
  | .int64_t => some ("sint64", false)
  | .uint8_t => some ("uint32", true)
  | .uint16_t => some ("uint32", true)
  | .uint32_t => some ("uint32", false)
  | .uint64_t => some ("uint64", false)
  | .int_least8_t => some ("sint32", true)
  | .int_least16_t => some ("sint32", true)
  | .int_least32_t => some ("sint32", false)
  | .int_least64_t => some ("sint64", false)
  | .uint_least8_t => some ("uint32", true)
  | .uint_least16_t => some ("uint32", true)
  | .uint_least32_t => some ("uint32", false)
  | .uint_least64_t => some ("uint64", false)
  | .int_fast8_t => some ("sint32", true)
  | .int_fast16_t => some ("sint32", true)
  | .int_fast32_t => some ("sint32", false)
  | .int_fast64_t => some ("sint64", false)
  | .uint_fast8_t => some ("uint32", true)
  | .uint_fast16_t => some ("uint32", true)
  | .uint_fast32_t => some ("uint32", false)
  | .uint_fast64_t => some ("uint64", false)
  | .nullptr => none
  | .intptr_t => none
  | .uintptr_t => none
  | .intmax_t => none
  | .uintmax_t => none

/-- `proto2cppTypeMap`. -/
def proto2cppTypeMap : String → Option String
  | "uint32" => some "uint32_t"
  | "sint32" => some "int32_t"
  | "uint64" => some "uint64_t"
  | "sint64" => some "int64_t"
  | "bytes" => some "std::string"
  | _ => none

/-- `protoReservedKeywordsTranscription`. -/
def protoReservedKeywordsTranscription : String → Option String
  | "descriptor" => some "descriptorParam"
  | "grpcServerCompressionFormat" => some "grpcServerCompressionFormatParam"
  | _ => none

/-- `enableStaticCast(proto2cppTypeMap.at(typeName))`. -/
def TypeDescriptor.enableStaticCast (p : TypeDescriptor) (typeName : String) :
    Except Exc TypeDescriptor :=
  match proto2cppTypeMap typeName with
  | some rpcType => .ok { p with rpcType := some rpcType }
  | none => .error (.std .outOfRange "map::at")

/-- `GRPCProtoGenerator::tryConvertType`. -/
def tryConvertType (type : CppBuiltinType) : String × Bool :=
  (builtinType2protobufTypeMap type).getD ("", false)

/-- `GRPCProtoGenerator::getTypeName`, with the type descriptor it leaves. -/
def getTypeName (p : TypeDescriptor) : Except Exc (String × TypeDescriptor) :=
  match p.type.kind with
  | .stdString => .ok ("string", p)
  | .cString => .ok ("string", p)
  | .enum => do
    let p1 ← p.enableStaticCast "sint32"
    pure ("sint32", p1)
  | kind =>
    if p.type.isVoid && p.type.isReference then
      .error (.exception "GRPCProtoGenerator: void * serialization is not defined !")
    else if kind = .builtin then do
      let typeInfo := tryConvertType p.type.builtinType
      let p1 ← if typeInfo.2 then p.enableStaticCast typeInfo.1 else pure p
      pure (typeInfo.1, p1)
    else pure ("bytes", p)

/-- `GRPCProtoGenerator::tryTranscribeName`. -/
def tryTranscribeName (desc : ParameterDescriptor) : ParameterDescriptor :=
  { desc with name := (protoReservedKeywordsTranscription desc.name).getD desc.name }

/-! ## Messages -/

structure ProtoField where
  typeName : String
  name : String
  deriving DecidableEq

/-- A message declaration.  The fields are numbered from one in this order. -/
structure ProtoMessage where
  name : String
  fields : List ProtoField
  deriving DecidableEq

/-- The fields with their numbers, by a counter `fieldIndex++`. -/
def numberFields (fieldIndex : Nat) : List ProtoField → List (Nat × ProtoField)
  | [] => []
  | field :: rest => (fieldIndex, field) :: numberFields (fieldIndex + 1) rest

/-- The lines of a declaration. -/
def ProtoMessage.numberedFields (msg : ProtoMessage) : List (Nat × ProtoField) :=
  numberFields 1 msg.fields

/-- The name of the message without fields in a proto file. -/
def protoEmptyMessage : String := "google.protobuf.Empty"

/-- `prepareMessages` on one method. -/
def MethodDescriptor.prepareMessages (m : MethodDescriptor) : MethodDescriptor :=
  { m with
    requestName :=
      if m.requestName = MethodDescriptor.emptyMessage then protoEmptyMessage
      else if m.requestName.isEmpty then m.rpcName ++ "Request" else m.requestName
    responseName :=
      if m.hasOutputs then
        if m.responseName.isEmpty then m.rpcName ++ "Response" else m.responseName
      else protoEmptyMessage }

/-- `GRPCProtoGenerator::prepareMessages`. -/
def prepareMessages (c : ClassDescriptor) : ClassDescriptor :=
  { c with methods := c.methods.map MethodDescriptor.prepareMessages }

/-- The declaration of a parameter, with the parameter it leaves. -/
def declareField (p : ParameterDescriptor) : Except Exc (ProtoField × ParameterDescriptor) := do
  let (typeName, type) ← getTypeName p.type
  let p1 := tryTranscribeName { p with type := type }
  pure (⟨typeName, p1.name⟩, p1)

/-- The loop over the parameters of one direction. -/
def declareFields (io : IoType) :
    List ParameterDescriptor → Except Exc (List ProtoField × List ParameterDescriptor)
  | [] => pure ([], [])
  | p :: rest =>
    if p.direction = io then do
      let (field, p1) ← declareField p
      let (fields, rest1) ← declareFields io rest
      pure (field :: fields, p1 :: rest1)
    else do
      let (fields, rest1) ← declareFields io rest
      pure (fields, p :: rest1)

def declareParams (io : IoType) (m : MethodDescriptor) :
    Except Exc (List ProtoField × MethodDescriptor) := do
  let (fields, params) ← declareFields io m.params
  pure (fields, { m with params := params })

/-- The field of the compression format. -/
def compressionField : ProtoField := ⟨"int32", "grpcServerCompressionFormat"⟩

/-- The request of `generateMessages`. -/
def generateRequest (m : MethodDescriptor) :
    Except Exc (List ProtoMessage × MethodDescriptor) :=
  if m.requestName = protoEmptyMessage then pure ([], m)
  else do
    let compression :=
      if m.responseName ≠ protoEmptyMessage ∧ m.compressionDisabled = false then
        [compressionField]
      else []
    let (inFields, m1) ← declareParams .in m
    let (inoutFields, m2) ← declareParams .inout m1
    pure ([⟨m.requestName, compression ++ inFields ++ inoutFields⟩], m2)

/-- The field of the return value. -/
def declareReturn (m : MethodDescriptor) : Except Exc (List ProtoField × MethodDescriptor) :=
  if m.returnsVoid then pure ([], m)
  else do
    let (typeName, type) ← getTypeName m.returnType
    pure ([⟨typeName, "xpcfGrpcReturnValue"⟩], { m with returnType := type })

/-- The response of `generateMessages`. -/
def generateResponse (m : MethodDescriptor) :
    Except Exc (List ProtoMessage × MethodDescriptor) :=
  if m.responseName = protoEmptyMessage then pure ([], m)
  else do
    let (inoutFields, m1) ← declareParams .inout m
    let (outFields, m2) ← declareParams .out m1
    let (returnFields, m3) ← declareReturn m2
    pure ([⟨m.responseName, inoutFields ++ outFields ++ returnFields⟩], m3)

/-- `GRPCProtoGenerator::generateMessages`: the request and the response, and
the method that is left. -/
def generateMessages (m : MethodDescriptor) :
    Except Exc (List ProtoMessage × List ProtoMessage × MethodDescriptor) := do
  let (request, m1) ← generateRequest m
  let (response, m2) ← generateResponse m1
  pure (request, response, m2)

/-! ## The service -/

/-- A line `rpc` of the service. -/
structure ProtoRpc where
  name : String
  clientStream : Bool
  requestName : String
  serverStream : Bool
  responseName : String
  deriving DecidableEq

/-- The line that `generateService` writes for a method. -/
def MethodDescriptor.rpc (m : MethodDescriptor) : ProtoRpc where
  name := m.rpcName
  clientStream := (m.streamingType = .client ∨ m.streamingType = .bidir) ∧
    m.requestName ≠ protoEmptyMessage
  requestName := m.requestName
  serverStream := (m.streamingType = .server ∨ m.streamingType = .bidir) ∧
    m.responseName ≠ protoEmptyMessage
  responseName := m.responseName

/-- `GRPCProtoGenerator::generateService`, on the methods of `prepareMessages`. -/
def generateService (c : ClassDescriptor) : List ProtoRpc :=
  c.methods.map MethodDescriptor.rpc

end Xpcf.GrpcGen
