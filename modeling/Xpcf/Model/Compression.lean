import Xpcf.CodeLib.Numerals
import Xpcf.Model.RemoteCalls

/-!
# Compression of calls

`GrpcHelper.h`: what the proxy and the server make of the lines of their properties
`grpc_compress_proxy` and `grpc_compress_server`, and the algorithms that a call sets.
The macro that leaves compression out of the generated code is not defined.
-/

namespace Xpcf.GrpcGen

open CodeLib

inductive GrpcCompressType where
  | unspecified
  | none
  | deflate
  | gzip
  deriving DecidableEq

inductive GrpcCompressionAlgorithm where
  | none
  | deflate
  | gzip
  deriving DecidableEq

namespace GrpcCompressType

def code : GrpcCompressType → Nat
  | unspecified => 0x00
  | none => 0x10
  | deflate => 0x20
  | gzip => 0x40

/-- `static_cast<grpcCompressType>`, of a number that is no enumerator undefined. -/
def ofCode (n : Int) : Option GrpcCompressType :=
  [unspecified, none, deflate, gzip].find? fun t => (t.code : Int) = n

end GrpcCompressType

/-- `GrpcHelper::getCompressionType`. -/
def getCompressionType (compressMask : Nat) : GrpcCompressionAlgorithm :=
  match compressMask &&& 0xF0 with
  | 0x20 => .deflate
  | 0x40 => .gzip
  | _ => .none

structure GrpcCompressionInfos where
  request : GrpcCompressType := .unspecified
  response : GrpcCompressType := .unspecified
  deriving DecidableEq

structure GrpcServerCompressionInfos where
  force : Bool := false
  type : GrpcCompressType := .unspecified
  deriving DecidableEq

/-! ## Configuration lines -/

def translateCompressionConfigMap : List (String × GrpcCompressType) :=
  [("none", .none), ("unspecified", .unspecified), ("deflate", .deflate), ("gzip", .gzip)]

def translateCompression (compressionStr : String) : GrpcCompressType :=
  (translateCompressionConfigMap.lookup compressionStr).getD .unspecified

/-- `atol`.  What does not fit a `long` is not zero here either. -/
def atol (text : String) : Int :=
  let body := text.toList.dropWhile isSpace
  let magnitude := ofDigits 10 ((body.drop (readSign body).2).takeWhile (isDigitOf 10))
  if (readSign body).1 then -magnitude else magnitude

/-- The line without its carriage returns, split at the bars. -/
def compressDetails (compressionLine : String) : List String :=
  ((compressionLine.toList.filter fun c => c ≠ '\r').splitOn '|').map String.ofList

/-- The members `m_serviceCompressionInfos` and `m_methodCompressionInfosMap`. -/
structure CompressionConfig (σ : Type) where
  service : σ
  methods : Table String σ

section Lines

variable {σ : Type} (setFirst setSecond : σ → String → σ)

/-- The infos that the values of a line set: the second one counts only where it is
the last. -/
def setInfos (infos : σ) (value : String) (rest : List String) : σ :=
  match rest with
  | [second] => setSecond (setFirst infos value) second
  | _ => setFirst infos value

/-- One line, for infos of two values. -/
def translateConfiguration (blank : σ) (compressionLine : String) (c : CompressionConfig σ) :
    CompressionConfig σ :=
  match compressDetails compressionLine with
  | kind :: value :: rest =>
    if kind = "service" then { c with service := setInfos setFirst setSecond c.service value rest }
    else if kind = "method" then
      match rest with
      | value1 :: rest1 =>
        let infos := setInfos setFirst setSecond blank value1 rest1
        { c with methods := c.methods.addFirst value infos }
      | [] => c
    else c
  | _ => c

end Lines

def translateClientConfiguration : String → CompressionConfig GrpcCompressionInfos →
    CompressionConfig GrpcCompressionInfos :=
  translateConfiguration (fun infos s => { infos with request := translateCompression s })
    (fun infos s => { infos with response := translateCompression s }) {}

def translateServerConfiguration : String → CompressionConfig GrpcServerCompressionInfos →
    CompressionConfig GrpcServerCompressionInfos :=
  translateConfiguration (fun infos s => { infos with type := translateCompression s })
    (fun infos s => { infos with force := atol s ≠ 0 }) {}

/-! ## One call -/

def deduceClientCompressionInfo (serviceInfos : GrpcCompressionInfos) (methodName : String)
    (methodCompressionInfos : Table String GrpcCompressionInfos) : GrpcCompressionInfos :=
  match methodCompressionInfos methodName with
  | some infos =>
    { request := if infos.request ≠ .unspecified then infos.request else serviceInfos.request
      response := if infos.response ≠ .unspecified then infos.response else serviceInfos.response }
  | none => serviceInfos

/-- The algorithm that is set for the request, if any, and the type that the server is
asked for. -/
def prepareClientCompressionContext (infos : GrpcCompressionInfos) :
    Option GrpcCompressionAlgorithm × GrpcCompressType :=
  (if infos.request ≠ .unspecified then some (getCompressionType infos.request.code) else none,
    infos.response)

def deduceServerCompressionType (askedCompressType : GrpcCompressType)
    (serviceInfos : GrpcServerCompressionInfos) (methodName : String)
    (methodCompressionInfos : Table String GrpcServerCompressionInfos) :
    GrpcServerCompressionInfos :=
  let infos : GrpcServerCompressionInfos := { type := askedCompressType }
  let infos1 :=
    if serviceInfos.type ≠ .unspecified ∧
      (serviceInfos.force ∨ askedCompressType = .unspecified) then serviceInfos
    else infos
  match methodCompressionInfos methodName with
  | some compressInfo =>
    if compressInfo.type ≠ .unspecified ∧
      (compressInfo.force ∨ askedCompressType = .unspecified) then compressInfo
    else infos1
  | none => infos1

/-- The algorithm that is set for the response, if any. -/
def prepareServerCompressionContext (infos : GrpcServerCompressionInfos) :
    Option GrpcCompressionAlgorithm :=
  if infos.type ≠ .unspecified then some (getCompressionType infos.type.code) else none

/-! ## The generated components -/

namespace ProxyGenerator

/-- The loop of `onConfigured`. -/
def onConfigured (m_grpcProxyCompressionConfig : List String)
    (c : CompressionConfig GrpcCompressionInfos) : CompressionConfig GrpcCompressionInfos :=
  m_grpcProxyCompressionConfig.foldl (fun c line => translateClientConfiguration line c) c

/-- What the method of the proxy sets in its context, and what it asks for. -/
def callCompression (m : MethodDescriptor) (c : CompressionConfig GrpcCompressionInfos) :
    Option GrpcCompressionAlgorithm × GrpcCompressType :=
  if m.sendsCompression then
    prepareClientCompressionContext (deduceClientCompressionInfo c.service m.name c.methods)
  else (none, .unspecified)

end ProxyGenerator

namespace ServerGenerator

/-- The loop of `onConfigured`. -/
def onConfigured (m_grpcServerCompressionConfig : List String)
    (c : CompressionConfig GrpcServerCompressionInfos) :
    CompressionConfig GrpcServerCompressionInfos :=
  m_grpcServerCompressionConfig.foldl (fun c line => translateServerConfiguration line c) c

/-- What the method of the service sets in its context, asked for the value; `none` where
the cast of the value is undefined. -/
def callCompression (m : MethodDescriptor) (c : CompressionConfig GrpcServerCompressionInfos) :
    Option CppValue → Option (Option GrpcCompressionAlgorithm)
  | some (.integer n) => do
    let asked ← GrpcCompressType.ofCode n
    pure (prepareServerCompressionContext
      (deduceServerCompressionType asked c.service m.name c.methods))
  | some _ => none
  | none => some none

end ServerGenerator

/-- A call: the algorithms of the request and of the response, and what the call does. -/
def compressedCall (platform : Platform) (members : Table String ProxyGenerator.ProxyMember)
    (request response : List ProtoField) (m : MethodDescriptor) (impl : Implementation)
    (proxy : CompressionConfig GrpcCompressionInfos)
    (server : CompressionConfig GrpcServerCompressionInfos) (vars : Variables) :
    Option (Option GrpcCompressionAlgorithm × Option GrpcCompressionAlgorithm ×
      Variables × Option CppValue) := do
  let (requestAlgorithm, asked) := ProxyGenerator.callCompression m proxy
  let (asked1, vars1, returned) ←
    remoteCall platform members request response m impl (.integer asked.code) vars
  let responseAlgorithm ← ServerGenerator.callCompression m server asked1
  pure (requestAlgorithm, responseAlgorithm, vars1, returned)

end Xpcf.GrpcGen
