import Xpcf.Model.State

/-!
# Metadata objects and the module manager

`ModuleMetadata` and `ComponentMetadata` objects are shared: a registry, its
clones and the module manager may all hold the same one, and `addComponent` and
`addInterface` change it for everybody.  The objects live in two lists of the
process and a shared pointer is a position in its list.

The module manager is a singleton of the process.  It keeps one metadata object
for each module it introspected and one entry point for each module UUID.
-/

namespace Xpcf

open CodeLib CodeLib.Exec

/-! ## The metadata objects -/

namespace Process

def module (p : Process) (r : ModuleRef) : ModuleMetadata :=
  p.modules.getD r ⟨"", 0, "", "", "", [], [], Table.empty⟩

def component (p : Process) (c : ComponentRef) : ComponentMetadata :=
  p.components.getD c ⟨"", 0, "", []⟩

def modifyModule (p : Process) (r : ModuleRef) (f : ModuleMetadata → ModuleMetadata) : Process :=
  { p with modules := p.modules.modify r f }

/-- `ModuleMetadata::addComponent`: a component UUID is added once. -/
def addComponent (p : Process) (r : ModuleRef) (c : ComponentRef) : Process :=
  let uuid := (p.component c).uuid
  if (p.module r).moduleComponentMap.contains uuid then p
  else p.modifyModule r fun m =>
    { m with
      componentUUIDs := m.componentUUIDs ++ [uuid]
      moduleComponentMap := m.moduleComponentMap.insert uuid c
      components := m.components ++ [c] }

/-- `ModuleMetadata::removeComponent`.  `m_components.remove` compares pointers. -/
def removeComponent (p : Process) (r : ModuleRef) (uuid : Uuid) : Process :=
  match (p.module r).moduleComponentMap uuid with
  | none => p
  | some c => p.modifyModule r fun m =>
    { m with
      componentUUIDs := m.componentUUIDs.filter (· ≠ uuid)
      components := m.components.filter (· ≠ c) }

/-- `ModuleMetadata::getComponentMetadata`: `none` is the null pointer. -/
def getComponentMetadata (p : Process) (r : ModuleRef) (uuid : Uuid) : Option ComponentRef :=
  (p.module r).moduleComponentMap uuid

/-- `ComponentMetadata::addInterface`: the list may hold an interface twice. -/
def addInterface (p : Process) (c : ComponentRef) (uuid : Uuid) : Process :=
  { p with
    components := p.components.modify c fun m =>
      { m with interfaceUUIDs := m.interfaceUUIDs ++ [uuid] } }

/-! ## Reading back -/

@[simp] theorem log_addComponent (p : Process) (r : ModuleRef) (c : ComponentRef) :
    (p.addComponent r c).log = p.log := by
  unfold addComponent modifyModule
  dsimp only
  split
  · rfl
  · rfl

theorem module_modifyModule_self {p : Process} {r : ModuleRef}
    {f : ModuleMetadata → ModuleMetadata} (hr : r < p.modules.length) :
    (p.modifyModule r f).module r = f (p.module r) := by
  simp [module, modifyModule, hr]

theorem module_modifyModule_ne {p : Process} {r r1 : ModuleRef}
    {f : ModuleMetadata → ModuleMetadata} (hne : r1 ≠ r) :
    (p.modifyModule r f).module r1 = p.module r1 := by
  simp [module, modifyModule, Ne.symm hne]

end Process

/-! ## Creating metadata objects -/

def newModule (m : ModuleMetadata) : XpcfM ModuleRef := fun w =>
  (.ok w.process.modules.length,
    { w with process := { w.process with modules := w.process.modules ++ [m] } })

def newComponent (m : ComponentMetadata) : XpcfM ComponentRef := fun w =>
  (.ok w.process.components.length,
    { w with process := { w.process with components := w.process.components ++ [m] } })

def modifyProcess (f : Process → Process) : XpcfM Unit :=
  modify fun w => { w with process := f w.process }

def modifyFactory (f : Factory → Factory) : XpcfM Unit :=
  modify fun w => { w with factory := f w.factory }

/-- The text of the exception `toUUID` throws. -/
def invalidUuid : Exc := .std .runtimeError "invalid uuid string"

/-- `toUUID`, which throws `std::runtime_error` on a malformed text. -/
def toUUID (env : Env) (text : String) : Except Exc Uuid :=
  match env.toUUID text with
  | some uuid => .ok uuid
  | none => .error invalidUuid

/-- The constructor of `ModuleMetadata`, with its call of `setPath`. -/
def makeModuleMetadata (env : Env) (name : String) (uuid : Uuid) (description : String)
    (modulePath : Option String) : ModuleMetadata where
  name := name
  uuid := uuid
  description := description
  modulePath := modulePath.getD ""
  moduleFullPath := env.buildModuleFilePath name (modulePath.getD "")
  componentUUIDs := []
  components := []
  moduleComponentMap := Table.empty

/-! ## The module manager -/

/-- What the entry points of a module library tell: its UUID, name and
description, the folder it lies in, and the components its index declares as
UUID, name and description. -/
structure ModuleLibrary where
  moduleUUID : String
  name : String
  description : String
  folder : String
  index : List (String × String × String)

/-- `ModuleMetadata::declareComponent`. -/
def declareIndexComponent (env : Env) (r : ModuleRef) (entry : String × String × String) :
    XpcfM Unit := do
  let uuid ← ofExcept (toUUID env entry.1)
  let c ← newComponent ⟨entry.2.1, uuid, entry.2.2, []⟩
  modifyProcess fun p => p.addComponent r c

/-- A call that may change the components of a module. -/
inductive ModuleCall where
  | addComponent (c : ComponentRef)
  | declareComponent (uuid name description : String)
  | removeComponent (uuid : Uuid)
  deriving DecidableEq

def ModuleCall.run (env : Env) (r : ModuleRef) : ModuleCall → XpcfM Unit
  | .addComponent c => modifyProcess fun p => p.addComponent r c
  | .declareComponent uuid name description => declareIndexComponent env r (uuid, name, description)
  | .removeComponent uuid => modifyProcess fun p => p.removeComponent r uuid

/-- Calls one after the other.  A call that throws is followed by the next. -/
def callModule (env : Env) (r : ModuleRef) (w : World) (calls : List ModuleCall) : World :=
  calls.foldl (fun w1 call => (call.run env r w1).2) w

/-- `ModuleManager::introspectModule`.  `library` is what loading the file
gives; a module that is known already keeps its metadata object. -/
def introspectModule (env : Env) (library : Except Exc ModuleLibrary) : XpcfM ModuleRef := do
  let lib ← ofExcept library
  let moduleUUID ← ofExcept (toUUID env lib.moduleUUID)
  let known ← gets fun w => w.process.moduleMap moduleUUID
  match known with
  | some r => pure r
  | none => do
    let r ← newModule (makeModuleMetadata env lib.name moduleUUID lib.description lib.folder)
    forEach (declareIndexComponent env r) lib.index
    modifyProcess fun p => { p with moduleMap := p.moduleMap.insert moduleUUID r }
    pure r

/-- Append the creation to the log and return it. -/
def recordCreated (componentUUID : Uuid) (result : Except Exc Instance) : XpcfM Instance := do
  modifyProcess fun p => { p with log := p.log ++ [.created componentUUID result] }
  ofExcept result

/-- The file whose entry point serves the module: `validateModule`, then the
function that was imported for this module UUID, or the import of it. -/
def entryPoint (env : Env) (p : Process) (m : ModuleMetadata) : Except Exc String :=
  match env.validateModule m.uuid m.moduleFullPath p.tick with
  | .error e => .error e
  | .ok () =>
    match p.funcMap m.uuid with
    | some file => .ok file
    | none =>
      match env.importSymbol m.moduleFullPath p.tick with
      | .error e => .error e
      | .ok () => .ok m.moduleFullPath

/-- The call of the entry point; a reference left null is an error. -/
def callEntryPoint (env : Env) (file : String) (componentUUID : Uuid) (tick : Nat) :
    Except Exc Instance :=
  match env.getComponent file componentUUID tick with
  | .error e => .error e
  | .ok none => .error (.configuration ("Unable to find component uuid=" ++ componentUUID.toString))
  | .ok (some id) => .ok (.user id)

/-- `ModuleManager::createComponent`. -/
def createModuleComponent (env : Env) (r : ModuleRef) (componentUUID : Uuid) : XpcfM Instance := do
  let p ← gets fun w => w.process
  match entryPoint env p (p.module r) with
  | .error e => recordCreated componentUUID (.error e)
  | .ok file => do
    modifyProcess fun p1 => { p1 with funcMap := p1.funcMap.insert (p.module r).uuid file }
    recordCreated componentUUID (callEntryPoint env file componentUUID p.tick)

end Xpcf
