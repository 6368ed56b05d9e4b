import Xpcf.Core.Xml
import Xpcf.Model.Metadata

/-!
# The alias manager

Names for interface, component and module UUIDs.  `declareAlias` refuses a name
that is taken; `declareExplicitAlias`, which only the `<aliases>` node uses,
replaces it.
-/

namespace Xpcf

open CodeLib CodeLib.Exec

/-- `IAliasManager::Type`. -/
inductive AliasType where
  | component
  | interface
  | module
  deriving DecidableEq

/-- `aliasTypeConvertMap`. -/
def aliasTypeConvertMap : Table String AliasType
  | "interface" => some .interface
  | "component" => some .component
  | "module" => some .module
  | _ => none

namespace AliasContext

def resolverMap (ctx : AliasContext) : AliasType → Table String Uuid
  | .component => ctx.componentResolverMap
  | .interface => ctx.interfaceResolverMap
  | .module => ctx.moduleResolverMap

def setResolverMap (ctx : AliasContext) (map : Table String Uuid) : AliasType → AliasContext
  | .component => { ctx with componentResolverMap := map }
  | .interface => { ctx with interfaceResolverMap := map }
  | .module => { ctx with moduleResolverMap := map }

@[simp] theorem resolverMap_setResolverMap_self (ctx : AliasContext) (map : Table String Uuid)
    (t : AliasType) : (ctx.setResolverMap map t).resolverMap t = map := by
  cases t <;> rfl

theorem resolverMap_setResolverMap_ne (ctx : AliasContext) (map : Table String Uuid)
    {t t1 : AliasType} (h : t1 ≠ t) :
    (ctx.setResolverMap map t).resolverMap t1 = ctx.resolverMap t1 := by
  cases t <;> cases t1 <;> first | rfl | exact absurd rfl h

/-- `AliasManager::aliasExists`. -/
def aliasExists (ctx : AliasContext) (type : AliasType) (name : String) : Bool :=
  (ctx.resolverMap type).contains name

end AliasContext

/-- `addAlias`. -/
def addAlias (elementMap : Table String Uuid) (name : String) (uuid : Uuid)
    (forceReplace : Bool) : Except Exc (Table String Uuid) :=
  if forceReplace = false ∧ elementMap.contains name = true then
    .error (.exception ("Alias already exists for name = " ++ name))
  else .ok (elementMap.insert name uuid)

/-- `m_addAliasFunction[type]`. -/
def addAliasFunction (type : AliasType) (name : String) (uuid : Uuid) (forceReplace : Bool) :
    XpcfM Unit := do
  let ctx ← gets fun w => w.factory.aliases
  let map ← ofExcept (addAlias (ctx.resolverMap type) name uuid forceReplace)
  modifyFactory fun f => { f with aliases := f.aliases.setResolverMap map type }

def declareAlias (type : AliasType) (name : String) (uuid : Uuid) : XpcfM Unit :=
  addAliasFunction type name uuid false

def declareExplicitAlias (type : AliasType) (name : String) (uuid : Uuid) : XpcfM Unit :=
  addAliasFunction type name uuid true

/-- `AliasManager::resolveAlias`. -/
def resolveAlias (name : String) (elementMap : Table String Uuid) : Except Exc Uuid :=
  match elementMap name with
  | some uuid => .ok uuid
  | none => .error (.exception ("Unknown alias : no alias found for name " ++ name))

def resolveComponentAlias (ctx : AliasContext) (name : String) : Except Exc Uuid :=
  resolveAlias name (ctx.resolverMap .component)

def resolveInterfaceAlias (ctx : AliasContext) (name : String) : Except Exc Uuid :=
  resolveAlias name (ctx.resolverMap .interface)

def resolveModuleAlias (ctx : AliasContext) (name : String) : Except Exc Uuid :=
  resolveAlias name (ctx.resolverMap .module)

/-- How the XML readers turn a text into a UUID: an alias if there is one, else
the text itself, with `onError` thrown for a malformed one. -/
def uuidOrAlias (env : Env) (ctx : AliasContext) (type : AliasType) (text : String)
    (onError : Exc) : Except Exc Uuid :=
  if ctx.aliasExists type text then resolveAlias text (ctx.resolverMap type)
  else
    match env.toUUID text with
    | some uuid => .ok uuid
    | none => .error onError

/-! ## Reading `<aliases>` -/

/-- The checks of `declareAliasNode`: the kind, the name and the UUID. -/
def readAlias (env : Env) (elt : XMLElement) : Except Exc (AliasType × String × Uuid) :=
  match elt.attr "name", elt.attr "type", elt.attr "uuid" with
  | some aliasName, some typeStr, some aliasUuid =>
    match aliasTypeConvertMap typeStr with
    | none => .error (.exception ("Invalid type attribute : type must be a value in " ++
        "\x7bcomponent|interface|module\x7d. No other value is allowed."))
    | some type =>
      match env.toUUID aliasUuid with
      | some uuid => .ok (type, aliasName, uuid)
      | none => .error (.configuration ("UUID format invalid in \"uuid\": " ++ aliasUuid))
  | _, _, _ => .error (.exception
      "node incomplete : attributes name, type and uuid are mandatory.")

def aliasErrorMessage (elt : XMLElement) (what : String) : XmlErrorMessage :=
  let msg : XmlErrorMessage := ⟨"alias", what, true, []⟩
  let msg := match elt.attr "uuid" with
    | some uuid => msg.addAttribute "uuid" uuid
    | none => msg
  match elt.attr "name" with
    | some name => msg.addAttribute "name" name
    | none => msg

/-- `AliasManager::declareAliasNode`. -/
def declareAliasNode (env : Env) (elt : XMLElement) : XpcfM Unit :=
  rethrowXpcf (aliasErrorMessage elt) do
    let entry ← ofExcept (readAlias env elt)
    declareExplicitAlias entry.1 entry.2.1 entry.2.2

/-- `AliasManager::declareAliases`. -/
def declareAliases (env : Env) (elt : XMLElement) : XpcfM Unit :=
  rethrowXpcf (fun what => ⟨"aliases", what, true, []⟩)
    (processXmlNode elt "alias" (declareAliasNode env))

/-! ## What declaring does -/

/-- Both declarations write one entry; the plain one needs the name to be
free. -/
theorem addAliasFunction_ok_iff {type : AliasType} {name : String} {uuid : Uuid}
    {forceReplace : Bool} {w w1 : World} :
    addAliasFunction type name uuid forceReplace w = (.ok (), w1) ↔
      (forceReplace = true ∨ w.factory.aliases.aliasExists type name = false) ∧
      w1 = { w with factory := { w.factory with
        aliases := w.factory.aliases.setResolverMap
          ((w.factory.aliases.resolverMap type).insert name uuid) type } } := by
  unfold addAliasFunction AliasContext.aliasExists
  rw [gets_bind_run, bind_ok_iff]
  by_cases hc : forceReplace = false ∧
      (w.factory.aliases.resolverMap type).contains name = true
  · constructor
    · rintro ⟨map, w2, hmap, _⟩
      rw [addAlias, if_pos hc] at hmap
      cases hmap
    · rintro ⟨hfree, _⟩
      rw [hc.1, hc.2] at hfree
      rcases hfree with h | h <;> cases h
  · rw [addAlias, if_neg hc]
    constructor
    · rintro ⟨map, w2, hmap, hw⟩
      cases hmap
      cases hw
      refine ⟨?_, rfl⟩
      cases hf : forceReplace with
      | true => exact Or.inl rfl
      | false =>
        rw [hf] at hc
        exact Or.inr (Bool.eq_false_iff.mpr fun h => hc ⟨rfl, h⟩)
    · rintro ⟨_, rfl⟩
      exact ⟨_, w, rfl, rfl⟩

end Xpcf
