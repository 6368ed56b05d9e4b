import Xpcf.CodeLib.Exec
import Xpcf.CodeLib.Table
import Xpcf.Core.Exceptions

/-!
# The state of a factory and of its process

* `Factory`: the tables of one `Factory` object, of the alias manager, the
  registry and the property manager that its constructor creates;
* `Process`: what outlives a factory, which is the metadata objects, the
  module manager singleton, the injected references and the record of the
  calls made into user code;
* `Env`: what user code, module libraries and the file system answer.  An
  answer may depend on the moment of the call (`Process.tick`), so one `Env`
  covers every behaviour of that code over one run.

User code does not call back into the factory, and it never returns a null
reference.
-/

namespace Xpcf

open CodeLib

/-! ## Bindings -/

/-- `BindingScope`. -/
inductive BindingScope where
  | transient
  | singleton
  deriving DecidableEq

/-- `BindingRange`: the bits of a range mask. -/
inductive BindingRange where
  | explicit
  | withParents
  | named
  | default
  | all
  deriving DecidableEq

def BindingRange.bits : BindingRange → BitVec 8
  | .explicit => 0x01
  | .withParents => 0x02
  | .named => 0x04
  | .default => 0x08
  | .all => 0x10

/-- `BindingRange_Core`. -/
def bindingRangeCore : BitVec 8 := 0

/-- The test `mask & bits`. -/
def hasBits (mask bits : BitVec 8) : Bool := mask &&& bits ≠ 0

structure FactoryBindInfos where
  componentUUID : Uuid
  scope : BindingScope
  bindingRangeMask : BitVec 8
  properties : String
  deriving DecidableEq

inductive ContextType where
  | component
  | named
  | specific
  | multi
  deriving DecidableEq

/-- One level of the injection that is going on. -/
abbrev BindContext : Type := ContextType × FactoryBindInfos

/-- `std::deque<BindContext>`, front first. -/
abbrev ContextLevels : Type := List BindContext

/-- A `std::function` that creates a component, by its identity. -/
abbrev FactoryFunc : Type := Nat

/-- `FactoryContext`, less the three properties maps, which no code reads. -/
structure FactoryContext where
  autoBindings : Table Uuid FactoryBindInfos
  defaultBindings : Table Uuid FactoryBindInfos
  multiBindings : Table Uuid (List FactoryBindInfos)
  namedBindings : Table (Uuid × String) FactoryBindInfos
  factoryMethods : Table Uuid FactoryFunc
  specificBindings : Table Uuid (Table Uuid FactoryBindInfos)
  specificNamedBindings : Table Uuid (Table (Uuid × String) FactoryBindInfos)

def FactoryContext.empty : FactoryContext where
  autoBindings := Table.empty
  defaultBindings := Table.empty
  multiBindings := Table.empty
  namedBindings := Table.empty
  factoryMethods := Table.empty
  specificBindings := Table.empty
  specificNamedBindings := Table.empty

/-! ## Components -/

/-- The components the framework itself can create. -/
inductive CoreComponent where
  | aliasManager
  | registry
  | propertyManager
  deriving DecidableEq

/-- A component object.  `core c` is the object a factory keeps in
`m_coreInstances`, named relative to that factory; `framework` objects are
further objects of the same classes; `user` objects come from modules and
factory functions, which choose their identity. -/
inductive Instance where
  | core (c : CoreComponent)
  | framework (c : CoreComponent) (id : Nat)
  | user (id : Nat)
  deriving DecidableEq

/-- `Injector`: an injectable of a component. -/
structure Injector where
  uuid : Uuid
  name : Option String
  multi : Bool
  optional : Bool
  deriving DecidableEq

/-! ## Metadata -/

structure InterfaceMetadata where
  name : String
  uuid : Uuid
  description : String
  deriving DecidableEq

/-- A shared pointer on a `ModuleMetadata`. -/
abbrev ModuleRef : Type := Nat

/-- A shared pointer on a `ComponentMetadata`. -/
abbrev ComponentRef : Type := Nat

structure ComponentMetadata where
  name : String
  uuid : Uuid
  description : String
  interfaceUUIDs : List Uuid
  deriving DecidableEq

structure ModuleMetadata where
  name : String
  uuid : Uuid
  description : String
  modulePath : String
  moduleFullPath : String
  componentUUIDs : List Uuid
  components : List ComponentRef
  moduleComponentMap : Table Uuid ComponentRef

/-! ## Managers -/

/-- `AliasContext`. -/
structure AliasContext where
  componentResolverMap : Table String Uuid
  interfaceResolverMap : Table String Uuid
  moduleResolverMap : Table String Uuid

def AliasContext.empty : AliasContext := ⟨Table.empty, Table.empty, Table.empty⟩

/-- `RegistryContext`. -/
structure RegistryContext where
  modulesVector : List ModuleRef
  interfacesVector : List InterfaceMetadata
  componentModuleUUIDMap : Table Uuid Uuid
  interfacesMap : Table Uuid InterfaceMetadata
  modulesMap : Table Uuid ModuleRef

def RegistryContext.empty : RegistryContext :=
  ⟨[], [], Table.empty, Table.empty, Table.empty⟩

/-- `PropertyContext`. -/
structure PropertyContext where
  moduleConfigMap : Table Uuid String
  componentConfigMap : Table Uuid String

def PropertyContext.empty : PropertyContext := ⟨Table.empty, Table.empty⟩

/-! ## A factory -/

structure Factory where
  context : FactoryContext
  singletonInstances : Table Uuid Instance
  namedSingletonInstances : Table (Uuid × String) Instance
  coreBindings : Table Uuid FactoryBindInfos
  coreInstances : Table Uuid Instance
  coreFactoryMethods : Table Uuid CoreComponent
  aliases : AliasContext
  registry : RegistryContext
  /-- `Registry::m_autoAlias`, which is not part of the registry's context. -/
  autoAlias : Bool
  properties : PropertyContext

/-- A factory before its constructor has run. -/
def Factory.blank : Factory where
  context := FactoryContext.empty
  singletonInstances := Table.empty
  namedSingletonInstances := Table.empty
  coreBindings := Table.empty
  coreInstances := Table.empty
  coreFactoryMethods := Table.empty
  aliases := AliasContext.empty
  registry := RegistryContext.empty
  autoAlias := false
  properties := PropertyContext.empty

/-! ## The process -/

/-- A call into the code of a component, with what came of it. -/
inductive Event where
  | created (componentUUID : Uuid) (result : Except Exc Instance)
  | injected (component : Instance) (injectable : Injector) (instances : List Instance)
  | onInjected (component : Instance) (result : Except Exc Unit)
  | configured (component : Instance) (path : String) (properties : Option String)
      (result : Except Exc XPCFErrorCode)

structure Process where
  modules : List ModuleMetadata
  components : List ComponentMetadata
  /-- `ModuleManager::m_moduleMap`. -/
  moduleMap : Table Uuid ModuleRef
  /-- `ModuleManager::m_funcMap`: the file each entry point was imported from. -/
  funcMap : Table Uuid String
  /-- What each injectable of each component holds. -/
  slots : Table (Instance × Injector) (List Instance)
  log : List Event

def Process.initial : Process :=
  ⟨[], [], Table.empty, Table.empty, Table.empty, []⟩

/-- The moment of a call into user code. -/
def Process.tick (p : Process) : Nat := p.log.length

/-- One factory and its process. -/
structure World where
  factory : Factory
  process : Process

abbrev XpcfM (α : Type) : Type := Exec World Exc α

/-! ## User code -/

/-- What the code outside the framework answers.  The last `Nat` of each
question is the tick of the call. -/
structure Env where
  /-- `toUUID`: `none` is the parse error of the generator. -/
  toUUID : String → Option Uuid
  /-- The elements that the iterator of `fs::path` visits, by which paths are
  compared: `d//f.xml` and `d/f.xml` have the same ones. -/
  pathElements : String → List String
  /-- `PathBuilder::buildModuleFilePath(name, folder)`. -/
  buildModuleFilePath : String → String → String
  /-- `validateModule` on the module with this UUID and full path. -/
  validateModule : Uuid → String → Nat → Except Exc Unit
  /-- Import of the `getComponent` symbol from a module file. -/
  importSymbol : String → Nat → Except Exc Unit
  /-- The entry point imported from a module file, asked for a component:
  `none` when it leaves the reference null. -/
  getComponent : String → Uuid → Nat → Except Exc (Option Nat)
  /-- A factory function given to `bind`. -/
  factoryFunc : FactoryFunc → Nat → Except Exc Nat
  /-- The UUID a user component was constructed with. -/
  componentUUID : Nat → Uuid
  /-- `getInterfaces()` with `getMetadata` of each. -/
  interfaces : Nat → List InterfaceMetadata
  /-- `getInjectables()`. -/
  injectables : Nat → Nat → List Injector
  onInjected : Nat → Nat → Except Exc Unit
  /-- `IConfigurable::configure(path)` or `configure(path, properties)`. -/
  configure : Nat → String → Option String → Nat → Except Exc XPCFErrorCode

end Xpcf
