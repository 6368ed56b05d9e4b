import Xpcf.Model.Loading

/-!
# The factory object

Its constructor, `clear`, `createNewFactoryContext`, and its public operations
as one type, so that a history of a factory is a list of operations.
-/

namespace Xpcf

open CodeLib CodeLib.Exec

/-! ## Construction -/

/-- `Factory::bindCore<I, C, BindingScope::Singleton>`. -/
def bindCore (interfaceUUID : Uuid) (c : CoreComponent) : XpcfM Unit :=
  modifyFactory fun f =>
    { f with
      coreBindings := f.coreBindings.insert interfaceUUID ⟨c.uuid, .singleton, bindingRangeCore, ""⟩
      coreFactoryMethods := f.coreFactoryMethods.insert c.uuid c }

/-- `IFactory::resolve<I>()->bindTo<A>()`. -/
def resolveAndBind (env : Env) (fuel : Nat) (interfaceUUID abstractUUID : Uuid) : XpcfM Unit := do
  let ref ← resolve env fuel interfaceUUID []
  ofExcept (env.bindTo ref abstractUUID)

/-- The constructor of `Factory`. -/
def constructFactory (env : Env) (fuel : Nat) : XpcfM Unit := do
  modifyFactory fun _ => Factory.blank
  bindCore uuidIAliasManager .aliasManager
  bindCore uuidIRegistryManager .registry
  bindCore uuidIPropertyManager .propertyManager
  resolveAndBind env fuel uuidIPropertyManager uuidAbstractPropertyManager
  resolveAndBind env fuel uuidIAliasManager uuidAbstractAliasManager
  resolveAndBind env fuel uuidIRegistryManager uuidAbstractRegistry

/-! ## Clearing -/

/-- `Factory::clear`: the contexts and the singletons.  `Registry::clear` clears
its context and resets `m_libraryLoaded`. -/
def Factory.clear (f : Factory) : Factory :=
  { f with
    context := FactoryContext.empty
    singletonInstances := Table.empty
    namedSingletonInstances := Table.empty
    properties := PropertyContext.empty
    aliases := AliasContext.empty
    registry := RegistryContext.empty }

/-! ## New factory contexts -/

/-- `ContextMode`, less `Shared`: two factories that share their contexts are
not two independent values. -/
inductive ContextMode where
  | empty
  | cloned
  deriving DecidableEq

/-- `Collection::operator=`: the collection after the assignment, and what the
operator returns. -/
def collectionAssign {α : Type} (self collection : List α) : List α × List α :=
  let coll := collection
  (self, coll)

/-- The implicit assignment operator of `RegistryContext`, member by member. -/
def RegistryContext.assign (self other : RegistryContext) : RegistryContext where
  modulesVector := (collectionAssign self.modulesVector other.modulesVector).1
  interfacesVector := (collectionAssign self.interfacesVector other.interfacesVector).1
  componentModuleUUIDMap := other.componentModuleUUIDMap
  interfacesMap := other.interfacesMap
  modulesMap := other.modulesMap

/-- The assignments of `createNewFactoryContext` in `Cloned` mode. -/
def Factory.assignContexts (f source : Factory) : Factory :=
  { f with
    properties := source.properties
    aliases := source.aliases
    registry := f.registry.assign source.registry
    context := source.context }

/-- `Factory::createNewFactoryContext`. -/
def createNewFactoryContext (env : Env) (fuel : Nat) (ctxMode : ContextMode) : XpcfM Factory := do
  let source ← gets fun w => w.factory
  constructFactory env fuel
  let f ← gets fun w => w.factory
  modifyFactory fun _ => source
  match ctxMode with
  | .empty => pure f
  | .cloned => pure (f.assignContexts source)

/-! ## Operations -/

/-- Calls that read a factory and change nothing. -/
inductive Query where
  | getComponentUUID (interfaceUUID : Uuid)
  | getNamedComponentUUID (interfaceUUID : Uuid) (name : String)
  | multiBindings (interfaceUUID : Uuid)
  | aliasExists (type : AliasType) (name : String)
  | resolveAlias (type : AliasType) (name : String)
  | getModuleUUID (componentUUID : Uuid)
  | findModuleMetadata (moduleUUID : Uuid)
  | findComponentMetadata (componentUUID : Uuid)
  | findInterfaceMetadata (interfaceUUID : Uuid)
  | getConfigPath (componentUUID : Uuid)
  | getModulesMetadata
  | getInterfacesMetadata

/-- What a call returns; metadata objects come with their content. -/
inductive Observation where
  | done
  | code (errCode : XPCFErrorCode)
  | uuid (uuid : Uuid)
  | flag (value : Bool)
  | binds (bindInfos : Option (List FactoryBindInfos))
  | component (ref : Instance)
  | components (refs : List Instance)
  | path (path : String)
  | module (metadata : ModuleMetadata)
  | modules (metadata : List ModuleMetadata)
  | componentMetadata (metadata : Option ComponentMetadata)
  | interfaceMetadata (metadata : Option InterfaceMetadata)
  | interfacesMetadata (metadata : List InterfaceMetadata)

/-- The answer of a factory to a query. -/
def Factory.answer (f : Factory) (p : Process) : Query → Except Exc Observation
  | .getComponentUUID interfaceUUID => (f.getComponentUUID interfaceUUID).map .uuid
  | .getNamedComponentUUID interfaceUUID name =>
    (f.getNamedComponentUUID interfaceUUID name).map .uuid
  | .multiBindings interfaceUUID => .ok (.binds (f.context.multiBindings interfaceUUID))
  | .aliasExists type name => .ok (.flag (f.aliases.aliasExists type name))
  | .resolveAlias type name =>
    (Xpcf.resolveAlias name (f.aliases.resolverMap type)).map .uuid
  | .getModuleUUID componentUUID => (Xpcf.getModuleUUID f.registry componentUUID).map .uuid
  | .findModuleMetadata moduleUUID =>
    (Xpcf.findModuleMetadata f.registry moduleUUID).map fun r => .module (p.module r)
  | .findComponentMetadata componentUUID =>
    (Xpcf.findComponentMetadata f.registry p componentUUID).map fun c =>
      .componentMetadata (c.map p.component)
  | .findInterfaceMetadata interfaceUUID =>
    .ok (.interfaceMetadata (Xpcf.findInterfaceMetadata f.registry interfaceUUID))
  | .getConfigPath componentUUID =>
    .ok (.path (Xpcf.getConfigPath f.registry f.properties componentUUID))
  | .getModulesMetadata => .ok (.modules (f.registry.modulesVector.map p.module))
  | .getInterfacesMetadata => .ok (.interfacesMetadata f.registry.interfacesVector)

/-- The calls a client can make on a factory.  A resolution may start in any
context; the public functions start in the empty one. -/
inductive Operation where
  | autobind (interfaceUUID instanceUUID : Uuid)
  | bind (key : BindKey) (bindInfos : FactoryBindInfos)
  | bindMethod (key : BindKey) (factoryFunc : FactoryFunc) (bindInfos : FactoryBindInfos)
  | declareAlias (type : AliasType) (name : String) (uuid : Uuid)
  | load (path : String) (file : LibraryFile)
  | loadFolder (files : List (String × LibraryFile))
  | loadModuleMetadata (library : Except Exc ModuleLibrary)
  | loadModules (folder : ModuleFolder)
  | resolve (interfaceUUID : Uuid) (contextLevels : ContextLevels)
  | resolveNamed (interfaceUUID : Uuid) (name : String) (contextLevels : ContextLevels)
  | resolveAll (interfaceUUID : Uuid) (contextLevels : ContextLevels)
  | inject (component : Instance) (contextLevels : ContextLevels)
  | createComponent (instanceName : Option String) (componentUUID : Uuid)
  | query (q : Query)
  | clear

/-- Run one operation. -/
def perform (env : Env) (fuel : Nat) : Operation → XpcfM Observation
  | .autobind interfaceUUID instanceUUID => do
    modifyContext fun ctx => ctx.autobind interfaceUUID instanceUUID
    pure .done
  | .bind key bindInfos => do
    modifyContext fun ctx => ctx.bind key bindInfos
    pure .done
  | .bindMethod key factoryFunc bindInfos => do
    modifyContext fun ctx => ctx.bindMethod key factoryFunc bindInfos
    pure .done
  | .declareAlias type name uuid => do
    Xpcf.declareAlias type name uuid
    pure .done
  | .load path file => do
    let errCode ← loadLibrary env path file
    pure (.code errCode)
  | .loadFolder files => do
    let errCode ← Xpcf.loadFolder env files
    pure (.code errCode)
  | .loadModuleMetadata library => do
    let errCode ← Xpcf.loadModuleMetadata env library
    pure (.code errCode)
  | .loadModules folder => do
    let errCode ← Xpcf.loadModules env folder
    pure (.code errCode)
  | .resolve interfaceUUID contextLevels => do
    let ref ← Xpcf.resolve env fuel interfaceUUID contextLevels
    pure (.component ref)
  | .resolveNamed interfaceUUID name contextLevels => do
    let ref ← Xpcf.resolveNamed env fuel interfaceUUID name contextLevels
    pure (.component ref)
  | .resolveAll interfaceUUID contextLevels => do
    let refs ← Xpcf.resolveAll env fuel interfaceUUID contextLevels
    pure (.components refs)
  | .inject component contextLevels => do
    Xpcf.inject env fuel component contextLevels
    pure .done
  | .createComponent instanceName componentUUID => do
    let ref ← Xpcf.createComponent env fuel instanceName componentUUID
    pure (.component ref)
  | .query q => do
    let w ← gets id
    ofExcept (w.factory.answer w.process q)
  | .clear => do
    modifyFactory Factory.clear
    pure .done

/-- A history: the operations one after the other, with the way each of them
ended.  A call that throws does not end the history; one that diverges or has
no defined behaviour does. -/
def performAll (env : Env) (fuel : Nat) :
    List Operation → World → List (Outcome Exc Observation) × World
  | [], w => ([], w)
  | op :: rest, w =>
    match perform env fuel op w with
    | (.diverges, w1) => ([.diverges], w1)
    | (.undefined, w1) => ([.undefined], w1)
    | (.ok result, w1) =>
      let (outcomes, w2) := performAll env fuel rest w1
      (.ok result :: outcomes, w2)
    | (.throws e, w1) =>
      let (outcomes, w2) := performAll env fuel rest w1
      (.throws e :: outcomes, w2)

end Xpcf
