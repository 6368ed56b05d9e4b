import Xpcf.Model.PropertyManager

/-!
# Resolution and injection

`resolve`, `resolveAll`, `inject` and `resolveComponent` call one another: a
binding is selected, its component is created, the injectables of that component
are resolved in turn, and the component is configured.

Each function takes `resolveComponent` as the argument `rc`, and
`resolveComponent` ties the knot on a fuel argument: one unit for each component
that is being created inside another one.  The C++ code has no such bound; a run
that needs more fuel than it gets `diverges`.
-/

namespace Xpcf

open CodeLib CodeLib.Exec

/-! ## What component objects answer -/

/-- UUID constants of the framework interfaces. -/
def uuidIComponentIntrospect : Uuid := 0x125f20071bf9421d9367fbdc1210d006

def uuidIInjectable : Uuid := 0x6C5B9EDCC78B47FD8CB22BF8D7EDE4EA

def uuidIConfigurable : Uuid := 0x98DBA14F6EF9462EA38734756B4CBA80

def uuidIAliasManager : Uuid := 0x2855F87952AA42F6A84AD9D3FD37D28F

def uuidIRegistryManager : Uuid := 0x3AE3A5D2F200407889EF5AE1F5EF1A17

def uuidIPropertyManager : Uuid := 0xC939A7FBB0C247BA945848F4AB228D92

def uuidAbstractAliasManager : Uuid := 0xA05EB0B3682E4FAB82B7A3CBCAADE866

def uuidAbstractRegistry : Uuid := 0x5FF5FABF14A644A29E2A2D124369FBBF

def uuidAbstractPropertyManager : Uuid := 0xA92925F0CA114A2DAB84B1A39511841F

namespace CoreComponent

/-- `ComponentTraits<C>::UUID`. -/
def uuid : CoreComponent → Uuid
  | .aliasManager => 0x007AF927A5854D2CB6049CF25B4B191A
  | .registry => 0xC79C683D64F44F7FB43AEF8F368F9940
  | .propertyManager => 0xFF18E0388D1741FFAFEB5927DF713DD2

/-- The interfaces the constructors declare, those of `ComponentBase` first. -/
def interfaces : CoreComponent → List Uuid
  | .aliasManager =>
    [uuidIComponentIntrospect, uuidIInjectable, uuidIAliasManager, uuidAbstractAliasManager]
  | .registry =>
    [uuidIComponentIntrospect, uuidIInjectable, uuidIRegistryManager, uuidAbstractRegistry]
  | .propertyManager =>
    [uuidIComponentIntrospect, uuidIInjectable, uuidIPropertyManager, uuidAbstractPropertyManager]

/-- The injectables the constructors declare. -/
def injectables : CoreComponent → List Injector
  | .aliasManager => []
  | .registry => [⟨uuidIAliasManager, none, false, false⟩]
  | .propertyManager =>
    [⟨uuidIAliasManager, none, false, false⟩, ⟨uuidIRegistryManager, none, false, false⟩]

end CoreComponent

namespace Env

/-- The UUID a component object carries. -/
def uuidOf (env : Env) : Instance → Uuid
  | .core c => c.uuid
  | .framework c _ => c.uuid
  | .user id => env.componentUUID id

def interfacesOf (env : Env) : Instance → List Uuid
  | .core c => c.interfaces
  | .framework c _ => c.interfaces
  | .user id => (env.interfaces id).map InterfaceMetadata.uuid

/-- `implements(interfaceUUID)`. -/
def implements (env : Env) (component : Instance) (interfaceUUID : Uuid) : Bool :=
  (env.interfacesOf component).contains interfaceUUID

/-- `getInjectables()`. -/
def injectablesOf (env : Env) (component : Instance) (tick : Nat) : List Injector :=
  match component with
  | .core c => c.injectables
  | .framework c _ => c.injectables
  | .user id => env.injectables id tick

/-- `onInjected()`, which the framework classes leave empty. -/
def onInjectedOf (env : Env) (component : Instance) (tick : Nat) : Except Exc Unit :=
  match component with
  | .core _ => .ok ()
  | .framework _ _ => .ok ()
  | .user id => env.onInjected id tick

/-- `bindTo<I>()`. -/
def bindTo (env : Env) (component : Instance) (interfaceUUID : Uuid) : Except Exc Unit :=
  if env.implements component interfaceUUID then .ok ()
  else .error (.interfaceNotImplemented (env.uuidOf component) interfaceUUID)

/-- `IConfigurable::configure`; no framework class is configurable. -/
def configureOf (env : Env) (component : Instance) (path : String) (properties : Option String)
    (tick : Nat) : Except Exc XPCFErrorCode :=
  match component with
  | .core _ => .ok .errorNotImplemented
  | .framework _ _ => .ok .errorNotImplemented
  | .user id => env.configure id path properties tick

end Env

/-! ## Injecting -/

def logEvent (e : Event) : XpcfM Unit := modifyProcess fun p => { p with log := p.log ++ [e] }

/-- The component's injectable holds `refs` from now on. -/
def Process.setSlot (p : Process) (component : Instance) (injectable : Injector)
    (refs : List Instance) : Process :=
  { p with slots := p.slots.insert (component, injectable) refs }

/-- `injectable->inject(injectableRef)` of a single injectable: the slot is
replaced. -/
def injectSingle (env : Env) (component : Instance) (injectable : Injector) (ref : Instance) :
    XpcfM Unit := do
  ofExcept (env.bindTo ref injectable.uuid)
  modifyProcess fun p => p.setSlot component injectable [ref]
  logEvent (.injected component injectable [ref])

/-- `injectableSet->add(instance->bindTo<I>())`. -/
def addToSlot (env : Env) (component : Instance) (injectable : Injector) (ref : Instance) :
    XpcfM Unit := do
  ofExcept (env.bindTo ref injectable.uuid)
  modifyProcess fun p =>
    p.setSlot component injectable ((p.slots (component, injectable)).getD [] ++ [ref])

/-- `injectable->inject(injectableRef)` of a multi-injectable: nothing happens
when the slot holds more than the new collection. -/
def injectMulti (env : Env) (component : Instance) (injectable : Injector)
    (refs : List Instance) : XpcfM Unit := do
  let held ← gets fun w => (w.process.slots (component, injectable)).getD []
  (if held.length > refs.length then pure ()
    else forEach (addToSlot env component injectable) refs)
  logEvent (.injected component injectable refs)

/-- The call of `component->onInjected()`. -/
def callOnInjected (env : Env) (component : Instance) : XpcfM Unit := do
  let tick ← gets fun w => w.process.tick
  let result := env.onInjectedOf component tick
  logEvent (.onInjected component result)
  ofExcept result

/-! ## The singleton caches -/

/-- A key of one of the three caches `m_singletonInstances`,
`m_namedSingletonInstances` and `m_coreInstances`. -/
inductive SingletonKey where
  | component (componentUUID : Uuid)
  | named (componentUUID : Uuid) (name : String)
  | core (componentUUID : Uuid)
  deriving DecidableEq

namespace SingletonKey

/-- The component UUID a key belongs to. -/
def componentUUID : SingletonKey → Uuid
  | .component c => c
  | .named c _ => c
  | .core c => c

end SingletonKey

namespace Factory

def cached (f : Factory) : SingletonKey → Option Instance
  | .component c => f.singletonInstances c
  | .named c name => f.namedSingletonInstances (c, name)
  | .core c => f.coreInstances c

def store (f : Factory) (key : SingletonKey) (ref : Instance) : Factory :=
  match key with
  | .component c => { f with singletonInstances := f.singletonInstances.insert c ref }
  | .named c name =>
    { f with namedSingletonInstances := f.namedSingletonInstances.insert (c, name) ref }
  | .core c => { f with coreInstances := f.coreInstances.insert c ref }

@[simp] theorem cached_store_self (f : Factory) (key : SingletonKey) (ref : Instance) :
    (f.store key ref).cached key = some ref := by
  cases key <;> simp [store, cached]

theorem cached_store_ne (f : Factory) {key key1 : SingletonKey} (ref : Instance)
    (h : key1 ≠ key) : (f.store key ref).cached key1 = f.cached key1 := by
  cases key <;> cases key1 <;> simp_all [store, cached, Table.insert_apply]

end Factory

/-- The block around the use of a cache: the component is created when its key
has no entry, and what is returned is read back from the cache. -/
def cachedInstance (key : SingletonKey) (create : XpcfM Instance) : XpcfM Instance := do
  let found ← gets fun w => w.factory.cached key
  match found with
  | some ref => pure ref
  | none => do
    let componentRef ← create
    modifyFactory fun f => f.store key componentRef
    let stored ← gets fun w => w.factory.cached key
    match stored with
    | some ref => pure ref
    | none => throw .outOfRange

/-! ## Resolving, given `resolveComponent` -/

section Open

variable (env : Env) (rc : FactoryBindInfos → ContextLevels → XpcfM Instance)

/-- `contextLevels.push_front({ContextType::Component, bindInfos})`. -/
def pushContext (bindInfos : FactoryBindInfos) (contextLevels : ContextLevels) : ContextLevels :=
  (.component, bindInfos) :: contextLevels

/-- The cache an unnamed singleton binding uses. -/
def unnamedKey (bindInfos : FactoryBindInfos) : SingletonKey :=
  if bindInfos.bindingRangeMask ≠ bindingRangeCore then .component bindInfos.componentUUID
  else .core bindInfos.componentUUID

/-- `Factory::resolve(interfaceUUID, contextLevels)`. -/
def resolveWith (interfaceUUID : Uuid) (contextLevels : ContextLevels) : XpcfM Instance := do
  let f ← gets fun w => w.factory
  let bindInfos ← ofExcept (resolveBind f.context f.coreBindings interfaceUUID contextLevels)
  if bindInfos.scope = .singleton then
    cachedInstance (unnamedKey bindInfos) (rc bindInfos (pushContext bindInfos contextLevels))
  else rc bindInfos (pushContext bindInfos contextLevels)

/-- `Factory::resolve(interfaceUUID, name, contextLevels)`. -/
def resolveNamedWith (interfaceUUID : Uuid) (name : String) (contextLevels : ContextLevels) :
    XpcfM Instance := do
  let f ← gets fun w => w.factory
  let bindInfos ← ofExcept
    (resolveNamedBind f.context f.coreBindings interfaceUUID name contextLevels)
  if bindInfos.scope = .singleton then
    cachedInstance (.named bindInfos.componentUUID name)
      (rc bindInfos (pushContext bindInfos contextLevels))
  else rc bindInfos (pushContext bindInfos contextLevels)

/-- `Factory::resolve(injectableInfo, contextLevels)`. -/
def resolveInjectableWith (injectable : Injector) (contextLevels : ContextLevels) :
    XpcfM Instance :=
  match injectable.name with
  | some name => resolveNamedWith rc injectable.uuid name contextLevels
  | none => resolveWith rc injectable.uuid contextLevels

/-- The block `if (bindInfos.scope == BindingScope::Singleton)` of the loop of
`resolveAll`: the shared instance, if the binding has one. -/
def resolveShared (bindInfos : FactoryBindInfos) (contextLevels : ContextLevels) :
    XpcfM (List Instance) :=
  if bindInfos.scope = .singleton then do
    let ref ← cachedInstance (.component bindInfos.componentUUID) (rc bindInfos contextLevels)
    pure [ref]
  else pure []

/-- The loop of `resolveAll` over a multi-binding.  Every pass pushes its own
context level on the same deque, and a singleton binding adds the shared
instance before the instance that every binding adds. -/
def resolveBinds : List FactoryBindInfos → ContextLevels → XpcfM (List Instance)
  | [], _ => pure []
  | bindInfos :: rest, contextLevels => do
    let shared ← resolveShared rc bindInfos (pushContext bindInfos contextLevels)
    let component ← rc bindInfos (pushContext bindInfos contextLevels)
    let others ← resolveBinds rest (pushContext bindInfos contextLevels)
    pure (shared ++ component :: others)

/-- `Factory::resolveAll(interfaceUUID, contextLevels)`. -/
def resolveAllWith (interfaceUUID : Uuid) (contextLevels : ContextLevels) :
    XpcfM (List Instance) := do
  let f ← gets fun w => w.factory
  match f.context.multiBindings interfaceUUID with
  | none => do
    let ref ← resolveWith rc interfaceUUID contextLevels
    pure [ref]
  | some binds => resolveBinds rc binds contextLevels

/-- The catch clauses of `inject`: an optional injectable swallows the
framework's exceptions, a mandatory one lets `InjectableNotFoundException` pass
and turns the others into a `ConfigurationException`. -/
def handleInjectionError (optional : Bool) (e : Exc) : XpcfM Unit :=
  if e.isXpcf then
    if optional then pure ()
    else if e.isInjectableNotFound then throw e
    else throw (.configuration e.what)
  else throw e

/-- One pass of the loop of `inject`. -/
def injectOneWith (component : Instance) (contextLevels : ContextLevels) (injectable : Injector) :
    XpcfM Unit :=
  let body : XpcfM Unit :=
    if injectable.multi then do
      let refs ← resolveAllWith rc injectable.uuid contextLevels
      injectMulti env component injectable refs
    else do
      let ref ← resolveInjectableWith rc injectable contextLevels
      injectSingle env component injectable ref
  tryCatch body (handleInjectionError injectable.optional)

/-- `Factory::inject`. -/
def injectWith (component : Instance) (contextLevels : ContextLevels) : XpcfM Unit := do
  let injectables ← gets fun w => env.injectablesOf component w.process.tick
  forEach (injectOneWith env rc component contextLevels) injectables
  callOnInjected env component

/-! ## Creating a component -/

/-- `Factory::resolveFromModule`, and `Factory::create`, which has the same
body. -/
def resolveFromModule (componentUUID : Uuid) : XpcfM Instance := do
  let registry ← gets fun w => w.factory.registry
  let moduleInfos ← ofExcept do
    let moduleUUID ← getModuleUUID registry componentUUID
    findModuleMetadata registry moduleUUID
  createModuleComponent env moduleInfos componentUUID

/-- A call of `m_coreFactoryMethods[componentUUID]`. -/
def createCore (componentUUID : Uuid) : XpcfM Instance := do
  let w ← gets id
  match w.factory.coreFactoryMethods componentUUID with
  | none => throw .badFunctionCall
  | some c =>
    recordCreated componentUUID (.ok
      (if w.factory.coreInstances.contains componentUUID then .framework c w.process.tick
      else .core c))

/-- A call of `m_context->factoryMethods[componentUUID]`. -/
def createFromMethod (factoryFunc : FactoryFunc) (componentUUID : Uuid) : XpcfM Instance := do
  let tick ← gets fun w => w.process.tick
  recordCreated componentUUID ((env.factoryFunc factoryFunc tick).map Instance.user)

/-- The creator `resolveComponent` selects. -/
def createInstance (bindInfos : FactoryBindInfos) : XpcfM Instance := do
  let ctx ← gets fun w => w.factory.context
  if bindInfos.bindingRangeMask = bindingRangeCore then createCore bindInfos.componentUUID
  else
    match ctx.factoryMethods bindInfos.componentUUID with
    | some factoryFunc => createFromMethod env factoryFunc bindInfos.componentUUID
    | none => resolveFromModule env bindInfos.componentUUID

/-- A call of `configure` with its record. -/
def callConfigure (component : Instance) (path : String) (properties : Option String) :
    XpcfM XPCFErrorCode := do
  let tick ← gets fun w => w.process.tick
  let result := env.configureOf component path properties tick
  logEvent (.configured component path properties result)
  ofExcept result

/-- `m_propertyManager->getConfigPath(componentUUID)`. -/
def Factory.configPath (f : Factory) (componentUUID : Uuid) : String :=
  getConfigPath f.registry f.properties componentUUID

/-- The properties argument `configure` is called with, if any. -/
def FactoryBindInfos.configureProperties (bindInfos : FactoryBindInfos) : Option String :=
  if bindInfos.properties = "" then none else some bindInfos.properties

def checkConfigured (componentUUID : Uuid) (confErrCode : XPCFErrorCode) : XpcfM Unit :=
  if confErrCode ≠ .success then
    throw (.xpcf .configurationException
      ("Configuration failed for component uuid=" ++ componentUUID.toString) confErrCode)
  else pure ()

/-- The last part of `resolveComponent`: an error code of `configure` is an
exception. -/
def configureResolved (component : Instance) (bindInfos : FactoryBindInfos) : XpcfM Unit := do
  let configFilePath ← gets fun w => w.factory.configPath bindInfos.componentUUID
  if env.implements component uuidIConfigurable ∧ configFilePath ≠ "" then do
    let confErrCode ← callConfigure env component configFilePath bindInfos.configureProperties
    checkConfigured bindInfos.componentUUID confErrCode
  else pure ()

/-- `Factory::resolveComponent`. -/
def resolveComponentWith (bindInfos : FactoryBindInfos) (contextLevels : ContextLevels) :
    XpcfM Instance := do
  let componentRef ← createInstance env bindInfos
  ofExcept (env.bindTo componentRef uuidIInjectable)
  injectWith env rc componentRef contextLevels
  configureResolved env componentRef bindInfos
  pure componentRef

/-- The last part of `createComponent`: what `configure` returns is not looked
at. -/
def configureCreated (instanceName : Option String) (componentUUID : Uuid)
    (component : Instance) : XpcfM Unit := do
  let configFilePath ← gets fun w => w.factory.configPath componentUUID
  if env.implements component uuidIConfigurable ∧ configFilePath ≠ "" then do
    let _ ← callConfigure env component configFilePath instanceName
  else pure ()

/-- `Factory::createComponent(componentUUID)` and, with an instance name,
`createComponent(instanceName, componentUUID)`. -/
def createComponentWith (instanceName : Option String) (componentUUID : Uuid) :
    XpcfM Instance := do
  let componentRef ← resolveFromModule env componentUUID
  ofExcept (env.bindTo componentRef uuidIInjectable)
  injectWith env rc componentRef []
  configureCreated env instanceName componentUUID componentRef
  pure componentRef

end Open

/-! ## Tying the knot -/

def resolveComponent (env : Env) : Nat → FactoryBindInfos → ContextLevels → XpcfM Instance
  | 0 => fun _ _ => diverge
  | fuel + 1 => resolveComponentWith env (resolveComponent env fuel)

def resolve (env : Env) (fuel : Nat) : Uuid → ContextLevels → XpcfM Instance :=
  resolveWith (resolveComponent env fuel)

def resolveNamed (env : Env) (fuel : Nat) : Uuid → String → ContextLevels → XpcfM Instance :=
  resolveNamedWith (resolveComponent env fuel)

def resolveAll (env : Env) (fuel : Nat) : Uuid → ContextLevels → XpcfM (List Instance) :=
  resolveAllWith (resolveComponent env fuel)

def inject (env : Env) (fuel : Nat) : Instance → ContextLevels → XpcfM Unit :=
  injectWith env (resolveComponent env fuel)

def createComponent (env : Env) (fuel : Nat) : Option String → Uuid → XpcfM Instance :=
  createComponentWith env (resolveComponent env fuel)

end Xpcf
