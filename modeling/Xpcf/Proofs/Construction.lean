import Xpcf.CodeLib.Numerals
import Xpcf.Proofs.Runs

/-!
# The constructor of a factory

The constructor resolves its three managers with the very code it serves later.
It never calls user code, so what it builds is one fixed factory,
`Factory.fresh`, in every environment and every process.
-/

namespace Xpcf

open CodeLib CodeLib.Exec

/-! ## The factory it builds -/

def Factory.freshCoreBindings : Table Uuid FactoryBindInfos :=
  ((Table.empty.insert uuidIAliasManager
    ⟨CoreComponent.aliasManager.uuid, .singleton, bindingRangeCore, ""⟩).insert uuidIRegistryManager
    ⟨CoreComponent.registry.uuid, .singleton, bindingRangeCore, ""⟩).insert uuidIPropertyManager
    ⟨CoreComponent.propertyManager.uuid, .singleton, bindingRangeCore, ""⟩

def Factory.freshCoreFactoryMethods : Table Uuid CoreComponent :=
  ((Table.empty.insert CoreComponent.aliasManager.uuid .aliasManager).insert
    CoreComponent.registry.uuid .registry).insert
    CoreComponent.propertyManager.uuid .propertyManager

/-- In the order the constructor stores them. -/
def Factory.freshCoreInstances : Table Uuid Instance :=
  ((Table.empty.insert CoreComponent.aliasManager.uuid (.core .aliasManager)).insert
    CoreComponent.registry.uuid (.core .registry)).insert
    CoreComponent.propertyManager.uuid (.core .propertyManager)

/-- A core factory method makes the component it is registered for. -/
theorem freshCoreFactoryMethods_some {C : Uuid} {c : CoreComponent}
    (h : Factory.freshCoreFactoryMethods C = some c) : C = c.uuid := by
  unfold Factory.freshCoreFactoryMethods at h
  rcases Table.insert_eq_some h with ⟨rfl, rfl⟩ | h
  · rfl
  · rcases Table.insert_eq_some h with ⟨rfl, rfl⟩ | h
    · rfl
    · rcases Table.insert_eq_some h with ⟨rfl, rfl⟩ | h
      · rfl
      · cases h

/-- The core instances are the managers. -/
theorem freshCoreInstances_some {C : Uuid} {ref : Instance}
    (h : Factory.freshCoreInstances C = some ref) :
    ∃ c : CoreComponent, C = c.uuid ∧ ref = .core c := by
  unfold Factory.freshCoreInstances at h
  rcases Table.insert_eq_some h with ⟨hC, hc⟩ | h
  · exact ⟨_, hC, hc⟩
  · rcases Table.insert_eq_some h with ⟨hC, hc⟩ | h
    · exact ⟨_, hC, hc⟩
    · rcases Table.insert_eq_some h with ⟨hC, hc⟩ | h
      · exact ⟨_, hC, hc⟩
      · cases h

theorem freshCoreInstances_uuid (c : CoreComponent) :
    Factory.freshCoreInstances c.uuid = some (.core c) := by
  cases c <;> rfl

def Factory.fresh : Factory :=
  { Factory.blank with
    coreBindings := Factory.freshCoreBindings
    coreFactoryMethods := Factory.freshCoreFactoryMethods
    coreInstances := Factory.freshCoreInstances }

/-- What the constructor leaves in the process. -/
def Process.afterConstruction (p : Process) : Process :=
  let inject (p : Process) (c target : CoreComponent) (interfaceUUID : Uuid) : Process :=
    let injectable : Injector := ⟨interfaceUUID, none, false, false⟩
    let p := p.setSlot (.core c) injectable [.core target]
    { p with log := p.log ++ [.injected (.core c) injectable [.core target]] }
  let created (p : Process) (c : CoreComponent) : Process :=
    { p with log := p.log ++ [.created c.uuid (.ok (.core c))] }
  let done (p : Process) (c : CoreComponent) : Process :=
    { p with log := p.log ++ [.onInjected (.core c) (.ok ())] }
  let p := done (created (created p .propertyManager) .aliasManager) .aliasManager
  let p := created (inject p .propertyManager .aliasManager uuidIAliasManager) .registry
  let p := done (inject p .registry .aliasManager uuidIAliasManager) .registry
  done (inject p .propertyManager .registry uuidIRegistryManager) .propertyManager

/-- The constructor returns the fresh factory. -/
theorem constructFactory_run (env : Env) (fuel : Nat) (w : World) :
    constructFactory env (fuel + 3) w = (.ok (), ⟨Factory.fresh, w.process.afterConstruction⟩) :=
  rfl

/-- A factory that was just constructed in the process. -/
def World.constructed (p : Process) : World := ⟨Factory.fresh, p.afterConstruction⟩

/-- A factory that was just constructed in a new process. -/
def World.initial : World := World.constructed Process.initial

/-! ## A concrete environment -/

/-- Texts of the UUIDs 1, 2, 3 and 4. -/
def uuidText1 : String := "00000000-0000-0000-0000-000000000001"

def uuidText2 : String := "00000000-0000-0000-0000-000000000002"

def uuidText3 : String := "00000000-0000-0000-0000-000000000003"

def uuidText4 : String := "00000000-0000-0000-0000-000000000004"

/-- The UUID generator on the texts above; no other text is a UUID here. -/
def smallUuid (text : String) : Option Uuid :=
  if text = uuidText1 then some 1
  else if text = uuidText2 then some 2
  else if text = uuidText3 then some 3
  else if text = uuidText4 then some 4
  else none

/-- The elements of a path without a root: the texts between the slashes. -/
def relativeElements (path : String) : List String :=
  ((path.toList.splitOn '/').filter (· ≠ [])).map String.ofList

/-- Every module and every factory function creates a new object; all objects
implement the listed interfaces, need nothing and configure themselves well. -/
def Env.simple (interfaces : List Uuid) : Env where
  toUUID := smallUuid
  pathElements := relativeElements
  buildModuleFilePath name folder := folder ++ "/" ++ name
  validateModule _ _ _ := .ok ()
  importSymbol _ _ := .ok ()
  getComponent _ _ tick := .ok (some tick)
  factoryFunc _ tick := .ok tick
  componentUUID _ := 0
  interfaces _ := (uuidIComponentIntrospect :: uuidIInjectable :: interfaces).map (⟨"", ·, ""⟩)
  injectables _ _ := []
  onInjected _ _ := .ok ()
  configure _ _ _ _ := .ok .success

/-- The same environment where modules name an object by its component UUID, and
where the objects need what is listed for them. -/
def Env.wired (interfaces : List Uuid) (needs : Nat → List Injector) : Env :=
  { Env.simple interfaces with
    getComponent := fun _ componentUUID _ => .ok (some componentUUID.toNat)
    injectables := fun id _ => needs id }

/-- The hexadecimal digits of a text, hyphens left out. -/
def readUuid (text : String) : Option Uuid :=
  let digits := text.toList.filter (· ≠ '-')
  if digits.length = 32 ∧ digits.all (isDigitOf 16) = true then
    some (BitVec.ofNat 128 (ofDigits 16 digits))
  else none

/-- The environment of the examples with a generator that reads every UUID. -/
def Env.printing (interfaces : List Uuid) : Env :=
  { Env.simple interfaces with toUUID := readUuid }

/-- A registry file with these nodes below its root. -/
def registryFile (rootAttributes : List (String × String)) (nodes : List XMLElement) :
    LibraryFile :=
  .document (.mk "xpcf-registry" rootAttributes none nodes)

end Xpcf
