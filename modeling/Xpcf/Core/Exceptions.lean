import Mathlib.Data.BitVec

/-!
# Identifiers, error codes and exceptions

The values every part of the framework exchanges: the 128-bit `uuids::uuid`,
`XPCFErrorCode`, the exception classes and the XML error message writer of
`ErrorMessage.cpp`.

An exception is modelled by its class, its `what()` text and, for the
framework's own classes, its error code.  The catch clauses of the framework
select on the class only; `isXpcf` and `isRuntimeError` are the two tests they
use most.
-/

namespace Xpcf

/-- `uuids::uuid`: sixteen bytes. -/
abbrev Uuid : Type := BitVec 128

/-- `uuids::to_string`: lower-case hexadecimal digits in groups of 8, 4, 4, 4
and 12. -/
def Uuid.toString (u : Uuid) : String :=
  let digits := Nat.toDigits 16 u.toNat
  let hex := List.replicate (32 - digits.length) '0' ++ digits
  let group (start count : Nat) : String := String.ofList ((hex.drop start).take count)
  group 0 8 ++ "-" ++ group 8 4 ++ "-" ++ group 12 4 ++ "-" ++ group 16 4 ++ "-" ++ group 20 12

/-- `XPCFErrorCode`. -/
inductive XPCFErrorCode where
  | success
  | fail
  | errorInvalidArgument
  | errorDomain
  | errorNotImplemented
  | errorNullPointer
  | errorOutOfRange
  | errorType
  | errorOverflow
  | errorUnderflow
  | errorOutOfMemory
  | errorRange
  | errorSystem
  | errorUnknown
  | errorAccessDenied
  | errorTimeout
  | errorIllegalState
  | errorComponentUnknown
  | errorInterfaceUnknown
  | errorModuleUnknown
  | errorModuleMissingXpcfEntry
  | errorInjectionFailed
  | errorInjectableAlreadyDeclared
  | errorInjectableUnknown
  | errorInjectableNobind
  | errorRemoting
  deriving DecidableEq

/-! ## Exceptions -/

/-- The exception classes of the framework.  All of them derive from
`xpcf::Exception`, which derives from `std::runtime_error`. -/
inductive XpcfExceptionClass where
  | exception
  | configurationException
  | nullPointerException
  | componentNotFoundException
  | interfaceNotImplementedException
  | moduleException
  | moduleNotFoundException
  | injectionException
  | injectableNotFoundException
  | injectableDeclarationException
  | otherException
  deriving DecidableEq

/-- The exception classes that do not derive from `xpcf::Exception`. -/
inductive StdExceptionClass where
  | runtimeError
  | logicError
  | outOfRange
  | invalidArgument
  | badFunctionCall
  | badAnyCast
  | other
  deriving DecidableEq

/-- An exception in flight. -/
inductive Exc where
  | xpcf (cls : XpcfExceptionClass) (what : String) (errCode : XPCFErrorCode)
  | std (cls : StdExceptionClass) (what : String)
  deriving DecidableEq

namespace Exc

/-- `catch (const xpcf::Exception &)` takes it. -/
def isXpcf : Exc → Bool
  | .xpcf _ _ _ => true
  | .std _ _ => false

/-- `catch (const std::runtime_error &)` takes it. -/
def isRuntimeError : Exc → Bool
  | .xpcf _ _ _ => true
  | .std cls _ => cls = .runtimeError

/-- `catch (const InjectableNotFoundException &)` takes it. -/
def isInjectableNotFound : Exc → Bool
  | .xpcf cls _ _ => cls = .injectableNotFoundException
  | .std _ _ => false

/-- `what()`. -/
def what : Exc → String
  | .xpcf _ text _ => text
  | .std _ text => text

/-- `Exception(what)`, with the default error code. -/
def exception (text : String) : Exc := .xpcf .exception text .fail

/-- `ConfigurationException(what)`, with the default error code. -/
def configuration (text : String) : Exc := .xpcf .configurationException text .fail

def moduleNotFound (text : String) : Exc :=
  .xpcf .moduleNotFoundException text .errorModuleUnknown

def injectableNotFound (text : String) : Exc :=
  .xpcf .injectableNotFoundException text .errorInjectableNobind

/-- `InterfaceNotImplementedException(componentUUID, interfaceUUID)`. -/
def interfaceNotImplemented (componentUUID interfaceUUID : Uuid) : Exc :=
  .xpcf .interfaceNotImplementedException
    ("Component " ++ componentUUID.toString ++ " doesn't implement interface " ++
      interfaceUUID.toString) .errorInterfaceUnknown

/-- A `std::string` built from a null pointer. -/
def logicError : Exc := .std .logicError "basic_string: construction from null is not valid"

/-- `std::map::at` on a missing key. -/
def outOfRange : Exc := .std .outOfRange "map::at"

/-- A call of an empty `std::function`. -/
def badFunctionCall : Exc := .std .badFunctionCall "bad_function_call"

end Exc

/-! ## XML error messages -/

/-- `XmlErrorMessage`: the tag that is being read, its attributes, and the
error found on the tag itself or below it. -/
structure XmlErrorMessage where
  tag : String
  whatError : String
  subElementError : Bool
  tagAttributes : List (String × String)

namespace XmlErrorMessage

def addAttribute (msg : XmlErrorMessage) (name value : String) : XmlErrorMessage :=
  { msg with tagAttributes := msg.tagAttributes ++ [(name, value)] }

/-- The guard `if(!value.empty())` in front of most `addAttribute` calls. -/
def addAttributeIfSet (msg : XmlErrorMessage) (name value : String) : XmlErrorMessage :=
  if value.isEmpty then msg else msg.addAttribute name value

def write (msg : XmlErrorMessage) : String :=
  let attributes := msg.tagAttributes.foldl
    (fun text entry => text ++ " " ++ entry.1 ++ "=\"" ++ entry.2 ++ "\"") ""
  let opening := "<" ++ msg.tag ++ attributes
  if msg.subElementError then opening ++ ">" ++ msg.whatError
  else opening ++ " error=\"" ++ msg.whatError ++ "\">"

end XmlErrorMessage

/-! ## Computations that throw -/

theorem bind_eq_ok {α β : Type} {x : Except Exc α} {f : α → Except Exc β} {b : β} :
    (x >>= f) = .ok b ↔ ∃ a, x = .ok a ∧ f a = .ok b := by
  cases x with
  | error e => exact ⟨nofun, nofun⟩
  | ok a => exact ⟨fun h => ⟨a, rfl, h⟩, fun ⟨_, ha, h⟩ => by cases ha; exact h⟩

theorem pure_eq_ok {α : Type} {a b : α} : (pure a : Except Exc α) = .ok b ↔ a = b :=
  ⟨Except.ok.inj, congrArg Except.ok⟩

theorem map_eq_ok {α β : Type} {x : Except Exc α} {f : α → β} {b : β} :
    x.map f = .ok b ↔ ∃ a, x = .ok a ∧ f a = b := by
  cases x with
  | error e => exact ⟨nofun, nofun⟩
  | ok a =>
    constructor
    · intro h
      exact ⟨a, rfl, Except.ok.inj h⟩
    · rintro ⟨a1, ha, rfl⟩
      cases ha
      rfl

end Xpcf
