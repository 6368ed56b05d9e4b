import Xpcf.Proofs.Construction

/-!
# The order of binds

Which component an interface gets after a sequence of autobinds and unnamed
binds.  An explicit bind wins over every autobind, before or after it, and the
last explicit bind wins.  Among autobinds alone the last one wins.
-/

namespace Xpcf

open CodeLib CodeLib.Exec

/-! ## Reading a sequence -/

/-- An autobind or an unnamed bind. -/
def Operation.isUnnamedBinding : Operation → Bool
  | .autobind _ _ | .bind (.default _) _ | .bindMethod (.default _) _ _ => true
  | _ => false

/-- The component an operation binds the interface to explicitly. -/
def Operation.explicitBind (interfaceUUID : Uuid) : Operation → Option Uuid
  | .bind (.default I) b => if I = interfaceUUID then some b.componentUUID else none
  | .bindMethod (.default I) _ b => if I = interfaceUUID then some b.componentUUID else none
  | _ => none

/-- The component an operation autobinds the interface to. -/
def Operation.autobindOf (interfaceUUID : Uuid) : Operation → Option Uuid
  | .autobind I C => if I = interfaceUUID then some C else none
  | _ => none

def explicitBinds (interfaceUUID : Uuid) (ops : List Operation) : List Uuid :=
  ops.filterMap (Operation.explicitBind interfaceUUID)

def autobinds (interfaceUUID : Uuid) (ops : List Operation) : List Uuid :=
  ops.filterMap (Operation.autobindOf interfaceUUID)

theorem explicitBinds_append (interfaceUUID : Uuid) (ops : List Operation) (op : Operation) :
    explicitBinds interfaceUUID (ops ++ [op]) =
      explicitBinds interfaceUUID ops ++ (op.explicitBind interfaceUUID).toList := by
  unfold explicitBinds
  rw [List.filterMap_append]
  cases h : op.explicitBind interfaceUUID <;> simp [h]

theorem autobinds_append (interfaceUUID : Uuid) (ops : List Operation) (op : Operation) :
    autobinds interfaceUUID (ops ++ [op]) =
      autobinds interfaceUUID ops ++ (op.autobindOf interfaceUUID).toList := by
  unfold autobinds
  rw [List.filterMap_append]
  cases h : op.autobindOf interfaceUUID <;> simp [h]

/-! ## The tables after a sequence -/

/-- What a binding operation does to the tables. -/
def FactoryContext.applyBinding (ctx : FactoryContext) : Operation → FactoryContext
  | .autobind I C => ctx.autobind I C
  | .bind key b => ctx.bind key b
  | .bindMethod key factoryFunc b => ctx.bindMethod key factoryFunc b
  | _ => ctx

theorem perform_binding (env : Env) (fuel : Nat) {op : Operation} (hop : op.isUnnamedBinding = true)
    (w : World) : perform env fuel op w =
      (.ok .done, { w with factory := { w.factory with
        context := w.factory.context.applyBinding op } }) := by
  cases op with
  | autobind I C => rfl
  | bind key b => rfl
  | bindMethod key factoryFunc b => rfl
  | _ => cases hop

/-- A sequence of bindings only rewrites the tables. -/
theorem performAll_bindings (env : Env) (fuel : Nat) {ops : List Operation}
    (hops : ∀ op ∈ ops, op.isUnnamedBinding = true) (w : World) :
    (performAll env fuel ops w).2.factory =
      { w.factory with context := ops.foldl FactoryContext.applyBinding w.factory.context } := by
  induction ops generalizing w with
  | nil => rfl
  | cons op rest ih =>
    have hrest := ih fun op1 hm => hops op1 (List.mem_cons_of_mem op hm)
    unfold performAll
    rw [perform_binding env fuel (hops op List.mem_cons_self) w]
    exact hrest _

/-- The tables hold the last explicit bind or, without one, the last autobind. -/
structure BoundBy (interfaceUUID : Uuid) (ops : List Operation) (ctx : FactoryContext) : Prop where
  auto : explicitBinds interfaceUUID ops = [] →
    ctx.defaultBindings interfaceUUID = none ∧
      (ctx.autoBindings interfaceUUID).map FactoryBindInfos.componentUUID =
        (autobinds interfaceUUID ops).getLast?
  explicit : ∀ C, (explicitBinds interfaceUUID ops).getLast? = some C →
    (ctx.defaultBindings interfaceUUID).map FactoryBindInfos.componentUUID = some C

/-- An explicit bind of the interface. -/
theorem boundBy_explicit {interfaceUUID : Uuid} {ops : List Operation} {op : Operation}
    {ctx : FactoryContext} {C : Uuid} (hop : op.explicitBind interfaceUUID = some C)
    (hdefault : (ctx.defaultBindings interfaceUUID).map FactoryBindInfos.componentUUID = some C) :
    BoundBy interfaceUUID (ops ++ [op]) ctx := by
  constructor
  · intro hnone
    rw [explicitBinds_append, hop] at hnone
    simp at hnone
  · intro C1 hlast
    rw [explicitBinds_append, hop, Option.toList_some, List.getLast?_concat] at hlast
    rw [hdefault, hlast]

/-- An operation on another interface. -/
theorem BoundBy.other {interfaceUUID : Uuid} {ops : List Operation} {op : Operation}
    {ctx ctx1 : FactoryContext} (h : BoundBy interfaceUUID ops ctx)
    (hexplicit : op.explicitBind interfaceUUID = none)
    (hauto : op.autobindOf interfaceUUID = none)
    (hdefault : ctx1.defaultBindings interfaceUUID = ctx.defaultBindings interfaceUUID)
    (hautoBinding : ctx1.autoBindings interfaceUUID = ctx.autoBindings interfaceUUID) :
    BoundBy interfaceUUID (ops ++ [op]) ctx1 := by
  have hexp := explicitBinds_append interfaceUUID ops op
  have haut := autobinds_append interfaceUUID ops op
  rw [hexplicit, Option.toList_none, List.append_nil] at hexp
  rw [hauto, Option.toList_none, List.append_nil] at haut
  constructor
  · intro hnone
    rw [hdefault, hautoBinding, haut]
    exact h.auto (hexp ▸ hnone)
  · intro C hlast
    rw [hdefault]
    exact h.explicit C (hexp ▸ hlast)

/-- The unnamed bind, whatever creates the component. -/
theorem BoundBy.bind {interfaceUUID : Uuid} {ops : List Operation} {op : Operation}
    {ctx ctx1 : FactoryContext} (h : BoundBy interfaceUUID ops ctx) {I : Uuid}
    {b : FactoryBindInfos}
    (hexplicit : op.explicitBind interfaceUUID =
      if I = interfaceUUID then some b.componentUUID else none)
    (hauto : op.autobindOf interfaceUUID = none)
    (hdefault : ctx1.defaultBindings = ctx.defaultBindings.insert I b)
    (hautoBinding : ctx1.autoBindings = ctx.autoBindings.erase I) :
    BoundBy interfaceUUID (ops ++ [op]) ctx1 := by
  by_cases hI : I = interfaceUUID
  · subst hI
    refine boundBy_explicit (hexplicit.trans (if_pos rfl)) ?_
    rw [hdefault, Table.insert_self]
    rfl
  · refine h.other (hexplicit.trans (if_neg hI)) hauto ?_ ?_
    · rw [hdefault, Table.insert_ne _ _ (Ne.symm hI)]
    · rw [hautoBinding, Table.erase_ne _ (Ne.symm hI)]

/-- An autobind is ignored once an explicit bind exists; else it replaces the
autobind before it. -/
theorem BoundBy.autobind {interfaceUUID : Uuid} {ops : List Operation} {ctx : FactoryContext}
    (h : BoundBy interfaceUUID ops ctx) (I C : Uuid) :
    BoundBy interfaceUUID (ops ++ [.autobind I C]) (ctx.autobind I C) := by
  by_cases hI : I = interfaceUUID
  · subst hI
    have hexp : explicitBinds I (ops ++ [.autobind I C]) = explicitBinds I ops := by
      rw [explicitBinds_append]
      exact List.append_nil _
    have haut : autobinds I (ops ++ [.autobind I C]) = autobinds I ops ++ [C] := by
      rw [autobinds_append, Operation.autobindOf, if_pos rfl, Option.toList_some]
    unfold FactoryContext.autobind
    constructor
    · intro hnone
      rw [hexp] at hnone
      obtain ⟨hdefault, _⟩ := h.auto hnone
      rw [if_neg (by rw [Table.contains, hdefault]; exact Bool.false_ne_true), haut,
        List.getLast?_concat]
      have hnew := Table.insert_self ctx.autoBindings I (autobindInfos C)
      exact ⟨hdefault, congrArg (Option.map FactoryBindInfos.componentUUID) hnew⟩
    · intro C1 hlast
      rw [hexp] at hlast
      have hdefault := h.explicit C1 hlast
      split
      · exact hdefault
      · exact hdefault
  · have hnone : (Operation.autobind I C).autobindOf interfaceUUID = none := if_neg hI
    unfold FactoryContext.autobind
    refine h.other rfl hnone ?_ ?_
    · split
      · rfl
      · rfl
    · split
      · rfl
      · exact Table.insert_ne _ _ (Ne.symm hI)

/-- The invariant of one operation. -/
theorem BoundBy.step {interfaceUUID : Uuid} {ops : List Operation} {ctx : FactoryContext}
    (h : BoundBy interfaceUUID ops ctx) {op : Operation} (hop : op.isUnnamedBinding = true) :
    BoundBy interfaceUUID (ops ++ [op]) (ctx.applyBinding op) := by
  cases op with
  | autobind I C => exact h.autobind I C
  | bind key b =>
    cases key with
    | default I => exact h.bind rfl rfl rfl rfl
    | _ => cases hop
  | bindMethod key factoryFunc b =>
    cases key with
    | default I => exact h.bind rfl rfl rfl rfl
    | _ => cases hop
  | _ => cases hop

/-- The invariant of a sequence, on tables where the interface is unbound. -/
theorem boundBy_foldl {interfaceUUID : Uuid} {ctx : FactoryContext}
    (hdefault : ctx.defaultBindings interfaceUUID = none)
    (hauto : ctx.autoBindings interfaceUUID = none) {ops : List Operation}
    (hops : ∀ op ∈ ops, op.isUnnamedBinding = true) :
    BoundBy interfaceUUID ops (ops.foldl FactoryContext.applyBinding ctx) := by
  suffices key : ∀ rest done ctx1, (∀ op ∈ rest, op.isUnnamedBinding = true) →
      BoundBy interfaceUUID done ctx1 →
      BoundBy interfaceUUID (done ++ rest) (rest.foldl FactoryContext.applyBinding ctx1) by
    refine key ops [] ctx hops ⟨fun _ => ⟨hdefault, ?_⟩, fun C hC => ?_⟩
    · rw [hauto]
      rfl
    · cases hC
  intro rest
  induction rest with
  | nil =>
    intro done ctx1 _ h
    rw [List.append_nil]
    exact h
  | cons op rest ih =>
    intro done ctx1 hrest h
    have hstep := h.step (hrest op List.mem_cons_self)
    have hlater := ih (done ++ [op]) _ (fun op1 hm => hrest op1 (List.mem_cons_of_mem op hm)) hstep
    rw [List.append_assoc] at hlater
    exact hlater

/-! ## What an interface resolves to -/

/-- Outside of any injection the default binding comes before the autobind. -/
theorem resolveBind_nil (ctx : FactoryContext) (coreBindings : Table Uuid FactoryBindInfos)
    (interfaceUUID : Uuid) :
    resolveBind ctx coreBindings interfaceUUID [] =
      match (ctx.defaultBindings interfaceUUID).or
          ((ctx.autoBindings interfaceUUID).or (coreBindings interfaceUUID)) with
      | some b => .ok b
      | none => .error (.injectableNotFound
          ("No [auto|default|named] binding found to resolve component from interface UUID = " ++
            interfaceUUID.toString)) := rfl

/-- The documented binding order: the last explicit bind, else the first
autobind, else an error for an interface without a core binding. -/
structure BindingOrder (f : Factory) (interfaceUUID : Uuid) (ops : List Operation) : Prop where
  explicit : ∀ C, (explicitBinds interfaceUUID ops).getLast? = some C →
    f.getComponentUUID interfaceUUID = .ok C
  auto : explicitBinds interfaceUUID ops = [] → ∀ C, (autobinds interfaceUUID ops).head? = some C →
    f.getComponentUUID interfaceUUID = .ok C
  unbound : explicitBinds interfaceUUID ops = [] → autobinds interfaceUUID ops = [] →
    f.coreBindings interfaceUUID = none →
    ∃ text, f.getComponentUUID interfaceUUID = .error (.injectableNotFound text)

theorem getComponentUUID_of_default {f : Factory} {interfaceUUID C : Uuid}
    (h : (f.context.defaultBindings interfaceUUID).map FactoryBindInfos.componentUUID = some C) :
    f.getComponentUUID interfaceUUID = .ok C := by
  obtain ⟨b, hb, rfl⟩ := Option.map_eq_some_iff.mp h
  rw [Factory.getComponentUUID, resolveBind_nil, hb]
  rfl

theorem getComponentUUID_of_auto {f : Factory} {interfaceUUID C : Uuid}
    (hdefault : f.context.defaultBindings interfaceUUID = none)
    (h : (f.context.autoBindings interfaceUUID).map FactoryBindInfos.componentUUID = some C) :
    f.getComponentUUID interfaceUUID = .ok C := by
  obtain ⟨b, hb, rfl⟩ := Option.map_eq_some_iff.mp h
  rw [Factory.getComponentUUID, resolveBind_nil, hdefault, hb]
  rfl

theorem getComponentUUID_unbound {f : Factory} {interfaceUUID : Uuid}
    (hdefault : f.context.defaultBindings interfaceUUID = none)
    (hauto : f.context.autoBindings interfaceUUID = none)
    (hcore : f.coreBindings interfaceUUID = none) :
    ∃ text, f.getComponentUUID interfaceUUID = .error (.injectableNotFound text) := by
  rw [Factory.getComponentUUID, resolveBind_nil, hdefault, hauto, hcore]
  exact ⟨_, rfl⟩

/-- After a sequence of autobinds and unnamed binds on a factory where the
interface is unbound, the documented order holds if and only if the interface
was bound explicitly or its first and its last autobind name one component. -/
theorem bindingOrder_iff {env : Env} {fuel : Nat} {w : World} {interfaceUUID : Uuid}
    {ops : List Operation}
    (hdefault : w.factory.context.defaultBindings interfaceUUID = none)
    (hauto : w.factory.context.autoBindings interfaceUUID = none)
    (hops : ∀ op ∈ ops, op.isUnnamedBinding = true) :
    BindingOrder (performAll env fuel ops w).2.factory interfaceUUID ops ↔
      (explicitBinds interfaceUUID ops = [] →
        (autobinds interfaceUUID ops).head? = (autobinds interfaceUUID ops).getLast?) := by
  have hbound := boundBy_foldl hdefault hauto hops
  rw [performAll_bindings env fuel hops w]
  constructor
  · intro horder hnone
    obtain ⟨hd, ha⟩ := hbound.auto hnone
    cases hhead : (autobinds interfaceUUID ops).head? with
    | none =>
      rw [List.head?_eq_none_iff] at hhead
      rw [hhead]
      rfl
    | some C =>
      have hfirst := horder.auto hnone C hhead
      obtain ⟨C1, hlast⟩ : ∃ C1, (autobinds interfaceUUID ops).getLast? = some C1 := by
        have hne : autobinds interfaceUUID ops ≠ [] := by
          intro hnil
          rw [hnil] at hhead
          cases hhead
        exact ⟨_, List.getLast?_eq_some_getLast hne⟩
      rw [hlast] at ha
      rw [getComponentUUID_of_auto hd ha] at hfirst
      rw [hlast, Except.ok.inj hfirst]
  · intro hsame
    refine ⟨fun C hC => getComponentUUID_of_default (hbound.explicit C hC), ?_, ?_⟩
    · intro hnone C hC
      obtain ⟨hd, ha⟩ := hbound.auto hnone
      rw [← hsame hnone, hC] at ha
      exact getComponentUUID_of_auto hd ha
    · intro hnone hnoauto hcore
      obtain ⟨hd, ha⟩ := hbound.auto hnone
      rw [hnoauto, List.getLast?_nil] at ha
      exact getComponentUUID_unbound hd (Option.map_eq_none_iff.mp ha) hcore

/-- An autobind after an explicit bind changes nothing. -/
theorem bindingOrder_bind_autobind :
    BindingOrder (performAll (Env.simple []) 0
      [.autobind 1 2, .bind (.default 1) ⟨3, .transient, defaultOrAll, ""⟩, .autobind 1 4]
      World.initial).2.factory 1
      [.autobind 1 2, .bind (.default 1) ⟨3, .transient, defaultOrAll, ""⟩, .autobind 1 4] := by
  refine (bindingOrder_iff rfl rfl ?_).mpr ?_
  · intro op hop
    simp only [List.mem_cons, List.not_mem_nil, or_false] at hop
    rcases hop with rfl | rfl | rfl <;> rfl
  · intro hnone
    cases hnone

/-- Two autobinds of one interface: the second one is what it resolves to. -/
theorem second_autobind_replaces :
    let ops : List Operation := [.autobind 1 2, .autobind 1 3]
    let f := (performAll (Env.simple []) 0 ops World.initial).2.factory
    f.getComponentUUID 1 = .ok 3 ∧ (autobinds 1 ops).head? = some 2 ∧ ¬ BindingOrder f 1 ops := by
  refine ⟨rfl, rfl, fun horder => ?_⟩
  have h := horder.auto rfl 2 rfl
  cases h

end Xpcf
