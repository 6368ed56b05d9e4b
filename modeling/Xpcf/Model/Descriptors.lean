import Xpcf.Model.CppAst
import Xpcf.Model.Metadata

/-!
# The descriptors of an interface

`TypeDescriptor`, `ParameterDescriptor`, `MethodDescriptor` and
`ClassDescriptor`: what the generators know of a parsed class.  The attributes
of the remoting DSL are read here, and the rpc names are given here.

Left out are the log and the attributes `client_receiveSize` and
`client_sendSize`, which only reach the channel arguments of the proxy.
-/

namespace Xpcf.GrpcGen

/-- `boost::algorithm::erase_all(text, "\"")`. -/
def eraseQuotes (text : String) : String :=
  String.ofList (text.toList.filter fun c => c ≠ '\x22')

/-! ## Types and parameters -/

/-- `TypeDescriptor`: the parsed type, and the type of `enableStaticCast` once
that was called. -/
structure TypeDescriptor where
  type : CppType
  rpcType : Option String
  deriving DecidableEq

/-- `ParameterDescriptor::io_type`. -/
inductive IoType where
  | none
  | in
  | out
  | inout
  deriving DecidableEq

/-- `str2typeIoMap`. -/
def str2typeIoMap : String → Option IoType
  | "inout" => some .inout
  | "in" => some .in
  | "out" => some .out
  | _ => none

/-- `ParameterDescriptor::setIOType`. -/
def setIOType (current : IoType) (ioType : String) : IoType :=
  match str2typeIoMap ioType with
  | none => current
  | some t => if (current = .in ∧ t = .out) ∨ (current = .out ∧ t = .in) then .inout else t

structure ParameterDescriptor where
  name : String
  ioType : IoType
  type : TypeDescriptor
  deriving DecidableEq

/-- The direction a type has without any attribute. -/
def CppType.ioType (type : CppType) : IoType :=
  if type.isConst then .in else if type.isReference then .inout else .none

def readParameterAttribute (ioType : IoType) (attrib : CppAttribute) : IoType :=
  if attrib.scope = some "xpcf" then setIOType ioType attrib.name else ioType

/-- `ParameterDescriptor::parse`. -/
def ParameterDescriptor.parse (p : CppFunctionParameter) : ParameterDescriptor where
  name := p.name
  ioType := p.attributes.foldl readParameterAttribute p.type.ioType
  type := ⟨p.type, none⟩

/-- The switch of `MethodDescriptor::parse`: the list a parameter goes to. -/
def ParameterDescriptor.direction (p : ParameterDescriptor) : IoType :=
  match p.ioType with
  | .none => if p.type.type.isReference ∧ p.type.type.isConst = false then .inout else .in
  | .in => .in
  | .out => .out
  | .inout => .inout

/-! ## Methods -/

/-- `MethodDescriptor::streaming_type`. -/
inductive StreamingType where
  | none
  | client
  | server
  | bidir
  deriving DecidableEq

/-- `str2typeStreamingMap`. -/
def str2typeStreamingMap : String → Option StreamingType
  | "streaming" => some .bidir
  | "client_streaming" => some .client
  | "server_streaming" => some .server
  | _ => none

/-- `MethodDescriptor::setStreamingType`. -/
def setStreamingType (current : StreamingType) (streamType : String) : StreamingType :=
  match str2typeStreamingMap streamType with
  | none => current
  | some t =>
    if (current = .client ∧ t = .server) ∨ (current = .server ∧ t = .client) then .bidir else t

structure MethodDescriptor where
  baseMethod : CppMemberFunction
  compressionDisabled : Bool
  pureVirtual : Bool
  isConst : Bool
  requestName : String
  responseName : String
  rpcName : String
  streamingType : StreamingType
  params : List ParameterDescriptor
  returnType : TypeDescriptor
  deriving DecidableEq

namespace MethodDescriptor

/-- The constructor. -/
def new (m : CppMemberFunction) (compressionDisabled : Bool) : MethodDescriptor where
  baseMethod := m
  compressionDisabled := compressionDisabled
  pureVirtual := false
  isConst := false
  requestName := ""
  responseName := ""
  rpcName := ""
  streamingType := .none
  params := []
  returnType := ⟨m.returnType, none⟩

/-- `getName()`. -/
def name (m : MethodDescriptor) : String := m.baseMethod.name

def inParams (m : MethodDescriptor) : List ParameterDescriptor :=
  m.params.filter fun p => p.direction = .in

def outParams (m : MethodDescriptor) : List ParameterDescriptor :=
  m.params.filter fun p => p.direction = .out

def inoutParams (m : MethodDescriptor) : List ParameterDescriptor :=
  m.params.filter fun p => p.direction = .inout

def returnsVoid (m : MethodDescriptor) : Bool := m.returnType.type.isVoid

/-- `hasInputs()`. -/
def hasInputs (m : MethodDescriptor) : Bool :=
  !m.inParams.isEmpty || !m.inoutParams.isEmpty

/-- `hasOutputs()`. -/
def hasOutputs (m : MethodDescriptor) : Bool :=
  !m.inoutParams.isEmpty || !m.outParams.isEmpty || !m.returnsVoid

/-- One turn of the attribute loop of `MethodDescriptor::parse`. -/
def readAttribute (m : MethodDescriptor) (attrib : CppAttribute) : MethodDescriptor :=
  if attrib.scope = some "grpc" then
    match attrib.name, attrib.arguments with
    | "request", some arguments => { m with requestName := eraseQuotes arguments }
    | "request", none => m
    | "response", some arguments => { m with responseName := eraseQuotes arguments }
    | "response", none => m
    | "rpcName", some arguments => { m with rpcName := eraseQuotes arguments }
    | "rpcName", none => m
    | "noCompression", _ => { m with compressionDisabled := true }
    | streamType, _ => { m with streamingType := setStreamingType m.streamingType streamType }
  else m

/-- The name of the message without fields. -/
def emptyMessage : String := "::google::protobuf::Empty"

/-- The end of `MethodDescriptor::parse`. -/
def nameEmptyMessages (m : MethodDescriptor) : MethodDescriptor :=
  let noInput := m.inParams.isEmpty && m.inoutParams.isEmpty
  let noOutput := m.outParams.isEmpty && m.inoutParams.isEmpty && m.returnsVoid
  { m with
    responseName := if noOutput then emptyMessage else m.responseName
    requestName :=
      if noInput && (noOutput || m.compressionDisabled) then emptyMessage else m.requestName }

/-- `MethodDescriptor::parse`.  A template keeps `m_pureVirtual` unset. -/
def parse (m : MethodDescriptor) : MethodDescriptor :=
  let read := m.baseMethod.attributes.foldl readAttribute
    { m with isConst := m.baseMethod.isConst }
  if m.baseMethod.isTemplated then read
  else
    nameEmptyMessages { read with
      pureVirtual := m.baseMethod.isVirtual && m.baseMethod.isPure
      params := m.baseMethod.parameters.map ParameterDescriptor.parse }

end MethodDescriptor

/-! ## Classes -/

/-- `Traits` of an interface, as texts. -/
structure InterfaceTraits where
  uuid : String
  name : String
  description : String
  deriving DecidableEq

/-- The members of `ClassDescriptor` that `parseMethods` fills, with the
`virtualMethodsMap` it fills beside them: for each name the positions of the
methods called so, in the order of the names' first occurrences. -/
structure ParsedMethods where
  isXpcfComponent : Bool
  isXpcfInterface : Bool
  /-- The keys of `m_classParsed`. -/
  classParsed : List String
  virtualMethods : List MethodDescriptor
  virtualMethodsMap : List (String × List Nat)
  deriving DecidableEq

/-- `virtualMethodsMap[name].push_back(index)`. -/
def pushIndex (name : String) (index : Nat) : List (String × List Nat) → List (String × List Nat)
  | [] => [(name, [index])]
  | entry :: rest =>
    if entry.1 = name then (name, entry.2 ++ [index]) :: rest
    else entry :: pushIndex name index rest

namespace ParsedMethods

def empty : ParsedMethods := ⟨false, false, [], [], []⟩

/-- The tests on the name of a base. -/
def readBaseName (s : ParsedMethods) (name : String) : ParsedMethods :=
  { s with
    isXpcfComponent := s.isXpcfComponent ||
      (name == "org::bcom::xpcf::ComponentBase" || name == "org::bcom::xpcf::ConfigurableBase")
    isXpcfInterface := s.isXpcfInterface || name == "org::bcom::xpcf::IComponentIntrospect" }

/-- `m_classParsed[baseClass.name()] = true`. -/
def markParsed (s : ParsedMethods) (name : String) : ParsedMethods :=
  { s with classParsed := s.classParsed ++ [name] }

/-- The body of the member loop of `parseMethods`. -/
def addMethod (compressionDisabled : Bool) (s : ParsedMethods) (m : CppMemberFunction) :
    ParsedMethods :=
  let desc := (MethodDescriptor.new m compressionDisabled).parse
  if desc.pureVirtual then
    { s with
      virtualMethods := s.virtualMethods ++ [desc]
      virtualMethodsMap := pushIndex desc.name s.virtualMethods.length s.virtualMethodsMap }
  else s

def addMethods (compressionDisabled : Bool) (s : ParsedMethods) (c : ClassEntity) :
    ParsedMethods :=
  c.memberFunctions.foldl (addMethod compressionDisabled) s

end ParsedMethods

mutual

/-- `ClassDescriptor::parseMethods`. -/
def parseMethods (compressionDisabled : Bool) : CppClass → ParsedMethods → ParsedMethods
  | .mk entity bases, s =>
    (parseBases compressionDisabled bases s).addMethods compressionDisabled entity

/-- The loop of `parseMethods` over the bases. -/
def parseBases (compressionDisabled : Bool) : BaseClasses → ParsedMethods → ParsedMethods
  | .nil, s => s
  | .unknown name rest, s => parseBases compressionDisabled rest (s.readBaseName name)
  | .known name baseClass rest, s =>
    let s1 := s.readBaseName name
    -- the guard knows a class by its name without the scope
    if s1.classParsed.contains baseClass.name then parseBases compressionDisabled rest s1
    else
      parseBases compressionDisabled rest
        (parseMethods compressionDisabled baseClass (s1.markParsed baseClass.name))

end

/-- `m_virtualMethods[index]->m_rpcName = rpcName`. -/
def setRpcName (methods : List MethodDescriptor) (index : Nat) (rpcName : String) :
    List MethodDescriptor :=
  methods.modify index fun m => { m with rpcName := rpcName }

/-- The name of the overload `methodIndex` of a method. -/
def overloadName (name : String) (methodIndex : Nat) : String :=
  name ++ "_grpc" ++ toString methodIndex

/-- The loop over the overloads of one name. -/
def nameOverloads (name : String) :
    List Nat → Nat → List MethodDescriptor → List MethodDescriptor
  | [], _, methods => methods
  | index :: indexArray, methodIndex, methods =>
    nameOverloads name indexArray (methodIndex + 1)
      (setRpcName methods index (overloadName name methodIndex))

/-- The body of the loop of `generateRpcMapping`. -/
def mapEntry (methods : List MethodDescriptor) (entry : String × List Nat) :
    List MethodDescriptor :=
  if 1 < entry.2.length then nameOverloads entry.1 entry.2 0 methods
  else setRpcName methods (entry.2.headD 0) entry.1

/-- `ClassDescriptor::generateRpcMapping`. -/
def generateRpcMapping (virtualMethodsMap : List (String × List Nat))
    (methods : List MethodDescriptor) : List MethodDescriptor :=
  virtualMethodsMap.foldl mapEntry methods

structure ClassDescriptor where
  baseClass : CppClass
  interfaceNamespace : String
  ignored : Bool
  compressionDisabled : Bool
  clientUUID : Uuid
  serverUUID : Uuid
  bases : List String
  isXpcfComponent : Bool
  isXpcfInterface : Bool
  isInterface : Bool
  classParsed : List String
  /-- `m_virtualMethods`. -/
  methods : List MethodDescriptor
  xpcfTrait : InterfaceTraits
  deriving DecidableEq

namespace ClassDescriptor

/-- The constructor. -/
def new (c : CppClass) (nameSpace : String) : ClassDescriptor where
  baseClass := c
  interfaceNamespace := nameSpace
  ignored := false
  compressionDisabled := false
  clientUUID := 0
  serverUUID := 0
  bases := []
  isXpcfComponent := false
  isXpcfInterface := false
  isInterface := false
  classParsed := []
  methods := []
  xpcfTrait := ⟨"", "", ""⟩

/-- `getName()`. -/
def name (c : ClassDescriptor) : String := c.baseClass.name

/-- One turn of the attribute loop of `ClassDescriptor::parse`, less the early
return. -/
def readAttribute (env : Env) (c : ClassDescriptor) (attrib : CppAttribute) :
    Except Exc ClassDescriptor :=
  match attrib.scope, attrib.name, attrib.arguments with
  | some "xpcf", "clientUUID", some arguments => do
    let uuid ← toUUID env (eraseQuotes arguments)
    pure { c with clientUUID := uuid }
  | some "xpcf", "serverUUID", some arguments => do
    let uuid ← toUUID env (eraseQuotes arguments)
    pure { c with serverUUID := uuid }
  | some "grpc", "noCompression", _ => pure { c with compressionDisabled := true }
  | _, _, _ => pure c

def isIgnore (attrib : CppAttribute) : Bool :=
  attrib.scope = some "xpcf" && attrib.name = "ignore"

/-- The attribute loop: `[[xpcf::ignore]]` ends it. -/
def readAttributes (env : Env) : List CppAttribute → ClassDescriptor → Except Exc ClassDescriptor
  | [], c => pure c
  | attrib :: rest, c =>
    if isIgnore attrib then pure { c with ignored := true }
    else do
      let c1 ← readAttribute env c attrib
      readAttributes env rest c1

/-- The part of `ClassDescriptor::parse` after the attributes. -/
def parseInterface (c : ClassDescriptor) : ClassDescriptor :=
  let parsed := parseMethods c.compressionDisabled c.baseClass ParsedMethods.empty
  let isInterface :=
    !parsed.isXpcfComponent && !parsed.virtualMethods.isEmpty && parsed.isXpcfInterface
  { c with
    bases := c.baseClass.bases.names
    isXpcfComponent := parsed.isXpcfComponent
    isXpcfInterface := parsed.isXpcfInterface
    isInterface := isInterface
    classParsed := parsed.classParsed
    methods :=
      if isInterface then generateRpcMapping parsed.virtualMethodsMap parsed.virtualMethods
      else parsed.virtualMethods }

/-- `ClassDescriptor::parse`.  Nothing reads the flag it returns. -/
def parse (env : Env) (c : ClassDescriptor) : Except Exc ClassDescriptor := do
  let c1 ← readAttributes env c.baseClass.entity.attributes c
  if c1.ignored || c1.baseClass.entity.isTemplated then pure c1 else pure c1.parseInterface

end ClassDescriptor

end Xpcf.GrpcGen
