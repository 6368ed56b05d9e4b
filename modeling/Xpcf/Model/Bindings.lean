import Xpcf.Model.Metadata

/-!
# Declaring and selecting bindings

* `autobind` and `bind` write the tables of a `FactoryContext`;
* `resolveBind` and `resolveNamedBind` select the binding of an interface from
  the injection that is going on (the context levels), the tables and the core
  bindings.

All of them are functions of the tables: selecting a binding changes nothing.
-/

namespace Xpcf

open CodeLib CodeLib.Exec

/-! ## Declaring -/

/-- What a binding is declared for. -/
inductive BindKey where
  | default (interfaceUUID : Uuid)
  | named (name : String) (interfaceUUID : Uuid)
  | specific (targetComponentUUID interfaceUUID : Uuid)
  | specificNamed (targetComponentUUID : Uuid) (name : String) (interfaceUUID : Uuid)
  deriving DecidableEq

/-- The binding an autobind declares. -/
def autobindInfos (instanceUUID : Uuid) : FactoryBindInfos :=
  ⟨instanceUUID, .transient, BindingRange.all.bits, ""⟩

namespace FactoryContext

/-- `Factory::autobind`: ignored when an explicit bind exists. -/
def autobind (ctx : FactoryContext) (interfaceUUID instanceUUID : Uuid) : FactoryContext :=
  if ctx.defaultBindings.contains interfaceUUID then ctx
  else { ctx with
    autoBindings := ctx.autoBindings.insert interfaceUUID (autobindInfos instanceUUID) }

/-- `Factory::bind`, in its four forms.  An unnamed bind removes the autobind
of the interface. -/
def bind (ctx : FactoryContext) (key : BindKey) (bindInfos : FactoryBindInfos) : FactoryContext :=
  match key with
  | .default interfaceUUID =>
    { ctx with
      autoBindings := ctx.autoBindings.erase interfaceUUID
      defaultBindings := ctx.defaultBindings.insert interfaceUUID bindInfos }
  | .named name interfaceUUID =>
    { ctx with namedBindings := ctx.namedBindings.insert (interfaceUUID, name) bindInfos }
  | .specific target interfaceUUID =>
    let binds := (ctx.specificBindings target).getD Table.empty
    { ctx with specificBindings :=
        ctx.specificBindings.insert target (binds.insert interfaceUUID bindInfos) }
  | .specificNamed target name interfaceUUID =>
    let binds := (ctx.specificNamedBindings target).getD Table.empty
    { ctx with specificNamedBindings :=
        ctx.specificNamedBindings.insert target (binds.insert (interfaceUUID, name) bindInfos) }

/-- `Factory::bind` with a factory function for the component. -/
def bindMethod (ctx : FactoryContext) (key : BindKey) (factoryFunc : FactoryFunc)
    (bindInfos : FactoryBindInfos) : FactoryContext :=
  let ctx := ctx.bind key bindInfos
  { ctx with factoryMethods := ctx.factoryMethods.insert bindInfos.componentUUID factoryFunc }

/-- `binds.add(infos)` on `multiBindings[interfaceUUID]`. -/
def addMultiBind (ctx : FactoryContext) (interfaceUUID : Uuid) (bindInfos : FactoryBindInfos) :
    FactoryContext :=
  let binds := (ctx.multiBindings interfaceUUID).getD []
  { ctx with multiBindings := ctx.multiBindings.insert interfaceUUID (binds ++ [bindInfos]) }

/-- `m_context->multiBindings[interfaceUUID]`, which creates an empty entry. -/
def openMultiBind (ctx : FactoryContext) (interfaceUUID : Uuid) : FactoryContext :=
  let binds := (ctx.multiBindings interfaceUUID).getD []
  { ctx with multiBindings := ctx.multiBindings.insert interfaceUUID binds }

/-- The lookup in `specificBindings`. -/
def specificBind (ctx : FactoryContext) (target interfaceUUID : Uuid) : Option FactoryBindInfos :=
  (ctx.specificBindings target).bind fun binds => binds interfaceUUID

/-- The lookup in `specificNamedBindings`. -/
def specificNamedBind (ctx : FactoryContext) (target : Uuid) (key : Uuid × String) :
    Option FactoryBindInfos :=
  (ctx.specificNamedBindings target).bind fun binds => binds key

end FactoryContext

/-! ## Selecting -/

/-- The loop of `resolveBind` over the context levels: the nearest component
with a specific binding wins, a level that is `Explicit` only ends the search
with `onExplicit`, and a level without `WithParents` ends it with nothing. -/
def searchContexts (specific : Uuid → Option FactoryBindInfos)
    (onExplicit : Uuid → Except Exc FactoryBindInfos) :
    ContextLevels → Option (Except Exc FactoryBindInfos)
  | [] => none
  | (contextType, contextValue) :: rest =>
    if contextType = .component then
      match specific contextValue.componentUUID with
      | some bindInfos => some (.ok bindInfos)
      | none =>
        if contextValue.bindingRangeMask = BindingRange.explicit.bits then
          some (onExplicit contextValue.componentUUID)
        else if hasBits contextValue.bindingRangeMask BindingRange.withParents.bits then
          searchContexts specific onExplicit rest
        else none
    else searchContexts specific onExplicit rest

/-- The guard `contextLevels.empty() || contextLevels.back().second.bindingRangeMask & bits`. -/
def rangeAllows (contextLevels : ContextLevels) (bits : BitVec 8) : Bool :=
  match contextLevels.getLast? with
  | none => true
  | some level => hasBits level.2.bindingRangeMask bits

/-- `BindingRange::Default | BindingRange::All`. -/
def defaultOrAll : BitVec 8 := BindingRange.default.bits ||| BindingRange.all.bits

/-- A table lookup behind the guard. -/
def whenAllowed (contextLevels : ContextLevels) (bits : BitVec 8)
    (found : Option FactoryBindInfos) : Option FactoryBindInfos :=
  if rangeAllows contextLevels bits then found else none

/-- The second half of `resolveBind`: default binding, autobinding, core
binding. -/
def defaultBind (ctx : FactoryContext) (coreBindings : Table Uuid FactoryBindInfos)
    (interfaceUUID : Uuid) (contextLevels : ContextLevels) : Option FactoryBindInfos :=
  (whenAllowed contextLevels defaultOrAll (ctx.defaultBindings interfaceUUID)).or
    ((whenAllowed contextLevels BindingRange.all.bits (ctx.autoBindings interfaceUUID)).or
      (coreBindings interfaceUUID))

/-- What an `Explicit` level leaves for an unnamed interface: the core binding
or an error. -/
def onlyExplicit (coreBindings : Table Uuid FactoryBindInfos) (interfaceUUID componentUUID : Uuid) :
    Except Exc FactoryBindInfos :=
  match coreBindings interfaceUUID with
  | some bindInfos => .ok bindInfos
  | none => .error (.injectableNotFound
      ("No explicit binding found to resolve component from interface UUID = " ++
        interfaceUUID.toString ++ " to inject to " ++ componentUUID.toString))

/-- What an `Explicit` level leaves for a named interface: an error. -/
def onlyExplicitNamed (interfaceUUID : Uuid) (name : String) (componentUUID : Uuid) :
    Except Exc FactoryBindInfos :=
  .error (.injectableNotFound
    ("No explicit binding found to resolve component from interface UUID = " ++
      interfaceUUID.toString ++ " named " ++ name ++ " to inject to " ++ componentUUID.toString))

/-- `Factory::resolveBind(interfaceUUID, contextLevels)`. -/
def resolveBind (ctx : FactoryContext) (coreBindings : Table Uuid FactoryBindInfos)
    (interfaceUUID : Uuid) (contextLevels : ContextLevels) : Except Exc FactoryBindInfos :=
  match searchContexts (fun target => ctx.specificBind target interfaceUUID)
      (onlyExplicit coreBindings interfaceUUID) contextLevels with
  | some result => result
  | none =>
    match defaultBind ctx coreBindings interfaceUUID contextLevels with
    | some bindInfos => .ok bindInfos
    | none => .error (.injectableNotFound
        ("No [auto|default|named] binding found to resolve component from interface UUID = " ++
          interfaceUUID.toString))

/-- `Factory::resolveBind(interfaceUUID, name, contextLevels)`, which falls back
on the unnamed binding. -/
def resolveNamedBind (ctx : FactoryContext) (coreBindings : Table Uuid FactoryBindInfos)
    (interfaceUUID : Uuid) (name : String) (contextLevels : ContextLevels) :
    Except Exc FactoryBindInfos :=
  match searchContexts (fun target => ctx.specificNamedBind target (interfaceUUID, name))
      (onlyExplicitNamed interfaceUUID name) contextLevels with
  | some result => result
  | none =>
    match whenAllowed contextLevels (BindingRange.named.bits ||| defaultOrAll)
        (ctx.namedBindings (interfaceUUID, name)) with
    | some bindInfos => .ok bindInfos
    | none =>
      if rangeAllows contextLevels defaultOrAll then
        resolveBind ctx coreBindings interfaceUUID contextLevels
      else .error (.injectableNotFound
        ("No default named binding found to resolve component from interface UUID = " ++
          interfaceUUID.toString ++ " named " ++ name))

namespace Factory

/-- `Factory::getComponentUUID(interfaceUUID)`. -/
def getComponentUUID (f : Factory) (interfaceUUID : Uuid) : Except Exc Uuid :=
  (resolveBind f.context f.coreBindings interfaceUUID []).map FactoryBindInfos.componentUUID

/-- `Factory::getComponentUUID(interfaceUUID, name)`. -/
def getNamedComponentUUID (f : Factory) (interfaceUUID : Uuid) (name : String) :
    Except Exc Uuid :=
  (resolveNamedBind f.context f.coreBindings interfaceUUID name []).map
    FactoryBindInfos.componentUUID

end Factory

end Xpcf
