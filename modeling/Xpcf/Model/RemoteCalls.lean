import Xpcf.CodeLib.Table
import Xpcf.Model.WireValues

/-!
# Calls over the wire

What the methods do that `ProxyGenerator` and `ServerGenerator` write: the proxy fills
a request from its parameters, the server reads it into variables of the same names,
calls the component and fills the response, and the proxy reads the response.  A
statement that does not compile, and a component that throws, give `none`.

The messages arrive as they were sent.  The variables that the generated code adds, as
`reqIn` or `context`, are apart from those of the parameters.
-/

namespace Xpcf.GrpcGen

open CodeLib

/-! ## Messages -/

/-- The fields that were set, by their accessors. -/
abbrev WireMessage : Type := Table String CppValue

/-- The variables that hold a value. -/
abbrev Variables : Type := Table String CppValue

/-- What the getter of a field that was not set returns.  Empty bytes are no archive. -/
def ValueKind.unset : ValueKind → Option CppValue
  | integer _ => some (.integer 0)
  | boolean => some (.boolean false)
  | float => some (.float 0)
  | double => some (.double 0)
  | text => some (.text "")
  | _ => none

/-- The field with the accessor, in a message with these fields. -/
def fieldOf (fields : List ProtoField) (accessor : String) : Option ProtoField :=
  fields.find? fun field => field.accessor = accessor

/-- `message.set_accessor(encoding(variable));` -/
def setField (fields : List ProtoField) (msg : WireMessage) (w : FieldWrite) (v : CppValue) :
    Option WireMessage := do
  let field ← fieldOf fields w.accessor
  let x ← w.encode field.typeName v
  pure (msg.insert w.accessor x)

/-- `decoding(message.accessor())` -/
def getField (platform : Platform) (fields : List ProtoField) (msg : WireMessage)
    (r : FieldRead) : Option CppValue := do
  let field ← fieldOf fields r.accessor
  let kind ← wireKind field.typeName
  let x ← (msg r.accessor).or kind.unset
  r.decode platform x

/-- Setters that are called one after the other, each with the value of its variable. -/
def setFields (fields : List ProtoField) :
    List (FieldWrite × Option CppValue) → WireMessage → Option WireMessage
  | [], msg => some msg
  | (w, v) :: rest, msg => do
    let value ← v
    let msg1 ← setField fields msg w value
    setFields fields rest msg1

/-- Variables that get the values of fields, one after the other. -/
def readFields (platform : Platform) (fields : List ProtoField) (msg : WireMessage) :
    List (FieldRead × String) → Variables → Option Variables
  | [], vars => some vars
  | (r, name) :: rest, vars => do
    let v ← getField platform fields msg r
    readFields platform fields msg rest (vars.insert name v)

/-! ## The method itself -/

/-- What a method leaves in its parameters that are outputs, in their order, and what
it returns. -/
structure MethodResult where
  outputs : List CppValue
  returned : Option CppValue

/-- A method of the component, on the values of the parameters that are inputs. -/
abbrev Implementation : Type := List CppValue → MethodResult

namespace MethodDescriptor

/-- The parameters whose values the method uses. -/
def takenParams (m : MethodDescriptor) : List ParameterDescriptor :=
  m.params.filter fun p => p.direction ≠ .out

/-- The parameters that the method writes. -/
def givenParams (m : MethodDescriptor) : List ParameterDescriptor :=
  m.params.filter fun p => p.direction ≠ .in

/-- A call of the method on the variables: these afterwards, and what was returned. -/
def localCall (m : MethodDescriptor) (impl : Implementation) (vars : Variables) :
    Option (Variables × Option CppValue) := do
  let arguments ← m.takenParams.mapM fun p => vars p.name
  let result := impl arguments
  pure (vars.insertAll ((m.givenParams.zip result.outputs).map fun e => (e.1.name, e.2)),
    if m.returnsVoid then none else result.returned)

end MethodDescriptor

/-! ## The proxy -/

namespace ProxyGenerator

/-- The setters of a request. -/
def requestSets (m : MethodDescriptor) (compression : CppValue) (vars : Variables) :
    List (FieldWrite × Option CppValue) :=
  (if m.sendsCompression then
    [(⟨compressionAccessor, .compressionFormat, .staticCast "int32_t", .generated⟩,
      some compression)]
    else []) ++
  if m.hasInputs then
    (m.inParams ++ m.inoutParams).flatMap fun p => (bindInput p).map fun w => (w, vars p.name)
  else []

/-- The parameters that get the values of a response. -/
def responseAssignments (m : MethodDescriptor) : List (FieldRead × String) :=
  if m.hasOutputs then
    (m.inoutParams ++ m.outParams).flatMap fun p => (bindOutput p).map fun r => (r, p.name)
  else []

/-- The value that the method returns; `none` for a method that is not void and has no
return statement. -/
def returnedValue (platform : Platform) (members : Table String ProxyMember)
    (fields : List ProtoField) (m : MethodDescriptor) (msg : WireMessage) :
    Option (Option CppValue) :=
  if m.returnsVoid then some none
  else
    match bindReturn (assignsMember members m) m.returnType with
    | [] => none
    | r :: _ => (getField platform fields msg r).map some

end ProxyGenerator

/-! ## The server -/

namespace ServerGenerator

/-- The format that the server is asked for. -/
def askedCompression (platform : Platform) (fields : List ProtoField) (m : MethodDescriptor)
    (msg : WireMessage) : Option (Option CppValue) :=
  if m.sendsCompression then
    (getField platform fields msg ⟨compressionAccessor, .compressionFormat,
      .staticCast "xpcf::grpcCompressType", .generated⟩).map some
  else some none

/-- The declarations of the variables that get the values of a request. -/
def requestAssignments (m : MethodDescriptor) : List (FieldRead × String) :=
  m.params.flatMap fun p => (bindInput p).map fun r => (r, p.name)

/-- The setters of a response. -/
def responseSets (m : MethodDescriptor) (vars : Variables) (returned : Option CppValue) :
    List (FieldWrite × Option CppValue) :=
  (m.params.flatMap fun p => (bindOutput p).map fun w => (w, vars p.name)) ++
    if m.returnsVoid then [] else (bindReturn m.returnType).map fun w => (w, returned)

/-- The method of the service: the format it is asked for, and its response. -/
def serve (platform : Platform) (request response : List ProtoField) (m : MethodDescriptor)
    (impl : Implementation) (msg : WireMessage) : Option (Option CppValue × WireMessage) := do
  let asked ← askedCompression platform request m msg
  let vars ← readFields platform request msg (requestAssignments m) Table.empty
  let (vars1, returned) ← m.localCall impl vars
  let reply ← setFields response (responseSets m vars1 returned) Table.empty
  pure (asked, reply)

end ServerGenerator

/-- A call of the method of a proxy with these members: the format that the server was
asked for, the variables of the caller afterwards, and what was returned.  The stub of a
method that streams takes no message. -/
def remoteCall (platform : Platform) (members : Table String ProxyGenerator.ProxyMember)
    (request response : List ProtoField) (m : MethodDescriptor)
    (impl : Implementation) (compression : CppValue) (vars : Variables) :
    Option (Option CppValue × Variables × Option CppValue) :=
  if m.streamingType ≠ .none then none
  else do
    let msg ← setFields request (ProxyGenerator.requestSets m compression vars) Table.empty
    let (asked, reply) ← ServerGenerator.serve platform request response m impl msg
    let vars1 ← readFields platform response reply (ProxyGenerator.responseAssignments m) vars
    let returned ← ProxyGenerator.returnedValue platform members response m reply
    pure (asked, vars1, returned)

end Xpcf.GrpcGen
