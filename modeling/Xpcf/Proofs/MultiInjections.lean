import Xpcf.Proofs.Resolving
import Xpcf.Proofs.Construction
import Xpcf.CodeLib.Steps

/-!
# What a multi-injectable holds

`inject` of a single injectable replaces the reference.  `inject` of a
multi-injectable adds to the collection, and does nothing at all when the
collection is larger than the one it is given.  What the collection holds after
an injection therefore depends on every earlier one.

`contentAfter` is what one injection leaves in the collection, and
`injectMulti_run` says that the code does just that.
-/

namespace Xpcf

open CodeLib CodeLib.Exec

/-- What an injectable of a component holds. -/
def World.held (w : World) (component : Instance) (injectable : Injector) : List Instance :=
  (w.process.slots (component, injectable)).getD []

/-- After each injection of the sequence, which all return, the collection is
what that injection was given. -/
def HoldsLastInjected (env : Env) (component : Instance) (injectable : Injector) (w : World)
    (injections : List (List Instance)) : Prop :=
  ∀ before refs after, injections = before ++ refs :: after →
    ∃ w1, forEach (injectMulti env component injectable) (before ++ [refs]) w = (.ok (), w1) ∧
      w1.held component injectable = refs

/-! ## One injection -/

/-- What the collection holds after an injection, by the code. -/
def contentAfter (held refs : List Instance) : List Instance :=
  if held.length > refs.length then held else held ++ refs

/-- An injection leaves its own elements only in a collection that was empty. -/
theorem contentAfter_eq_iff (held refs : List Instance) :
    contentAfter held refs = refs ↔ held = [] := by
  unfold contentAfter
  constructor
  · intro h
    split at h
    · rename_i hlarger
      rw [h] at hlarger
      omega
    · have hlength := congrArg List.length h
      rw [List.length_append] at hlength
      apply List.length_eq_zero_iff.mp
      omega
  · intro h
    rw [h, if_neg (by simp), List.nil_append]

section Injecting

variable {env : Env} {component : Instance} {injectable : Injector}

theorem addToSlot_run {ref : Instance} (himpl : env.implements ref injectable.uuid) (w : World) :
    ∃ w1, addToSlot env component injectable ref w = (.ok (), w1) ∧
      w1.held component injectable = w.held component injectable ++ [ref] := by
  unfold addToSlot
  rw [Env.bindTo, if_pos himpl, ofExcept_ok_bind]
  refine ⟨_, rfl, ?_⟩
  show (Table.insert _ _ _ _).getD [] = _
  rw [Table.insert_self]
  rfl

theorem addToSlots_run {refs : List Instance}
    (himpl : ∀ ref ∈ refs, env.implements ref injectable.uuid) (w : World) :
    ∃ w1, forEach (addToSlot env component injectable) refs w = (.ok (), w1) ∧
      w1.held component injectable = w.held component injectable ++ refs := by
  induction refs generalizing w with
  | nil => exact ⟨w, rfl, (List.append_nil _).symm⟩
  | cons ref refs ih =>
    have hrest : ∀ r ∈ refs, env.implements r injectable.uuid :=
      fun r hr => himpl r (List.mem_cons_of_mem _ hr)
    obtain ⟨w1, hadd, hheld1⟩ := addToSlot_run (himpl ref (List.mem_cons_self ..)) w
    obtain ⟨w2, hadds, hheld2⟩ := ih hrest w1
    refine ⟨w2, ?_, ?_⟩
    · show (addToSlot env component injectable ref >>= fun _ => _) w = _
      rw [bind_run_of_ok hadd]
      exact hadds
    · rw [hheld2, hheld1, List.append_assoc, List.singleton_append]

/-- An injection of components that implement the interface returns. -/
theorem injectMulti_run {refs : List Instance}
    (himpl : ∀ ref ∈ refs, env.implements ref injectable.uuid) (w : World) :
    ∃ w1, injectMulti env component injectable refs w = (.ok (), w1) ∧
      w1.held component injectable = contentAfter (w.held component injectable) refs := by
  unfold injectMulti contentAfter
  rw [gets_bind_run]
  rw [show (w.process.slots (component, injectable)).getD [] = w.held component injectable from rfl]
  by_cases hlarger : (w.held component injectable).length > refs.length
  · rw [if_pos hlarger, if_pos hlarger]
    exact ⟨_, rfl, rfl⟩
  · rw [if_neg hlarger, if_neg hlarger]
    obtain ⟨w1, hadds, hheld⟩ := addToSlots_run himpl w
    exact ⟨_, bind_run_of_ok hadds, hheld⟩

/-! ## Sequences of injections -/

/-- The first injection of a sequence, and the rest in the world it leaves. -/
theorem holdsLastInjected_cons {w w1 : World} {refs : List Instance}
    {injections : List (List Instance)}
    (hrun : injectMulti env component injectable refs w = (.ok (), w1)) :
    HoldsLastInjected env component injectable w (refs :: injections) ↔
      w1.held component injectable = refs ∧
        HoldsLastInjected env component injectable w1 injections := by
  have hcons : ∀ rest, forEach (injectMulti env component injectable) (refs :: rest) w =
      forEach (injectMulti env component injectable) rest w1 := by
    intro rest
    show (injectMulti env component injectable refs >>= fun _ => _) w = _
    exact bind_run_of_ok hrun
  unfold HoldsLastInjected
  rw [forall_splits_cons]
  simp only [List.nil_append, List.cons_append, hcons]
  refine and_congr_left fun _ => ⟨?_, fun hheld => ⟨w1, rfl, hheld⟩⟩
  rintro ⟨w2, hnil, hheld⟩
  cases hnil
  exact hheld

end Injecting

/-- A multi-injectable holds what each injection of a sequence was given exactly
when it starts empty and all injections before the last are of nothing. -/
theorem holdsLastInjected_iff (env : Env) (component : Instance) (injectable : Injector) (w : World)
    (injections : List (List Instance))
    (himpl : ∀ refs ∈ injections, ∀ ref ∈ refs, env.implements ref injectable.uuid) :
    HoldsLastInjected env component injectable w injections ↔
      ∀ refs ∈ (w.held component injectable :: injections).dropLast, refs = [] := by
  induction injections generalizing w with
  | nil => exact iff_of_true forall_splits_nil fun refs h => absurd h List.not_mem_nil
  | cons refs injections ih =>
    have hrest : ∀ r ∈ injections, ∀ ref ∈ r, env.implements ref injectable.uuid :=
      fun r hr => himpl r (List.mem_cons_of_mem _ hr)
    obtain ⟨w1, hrun, hheld⟩ := injectMulti_run (himpl refs (List.mem_cons_self ..)) w
    rw [holdsLastInjected_cons hrun, List.dropLast_cons_of_ne_nil (List.cons_ne_nil _ _),
      List.forall_mem_cons, ih w1 hrest]
    constructor
    · rintro ⟨heq, hbefore⟩
      rw [heq] at hheld hbefore
      exact ⟨(contentAfter_eq_iff _ _).mp hheld.symm, hbefore⟩
    · rintro ⟨hempty, hbefore⟩
      have heq : w1.held component injectable = refs := by
        rw [hheld]
        exact (contentAfter_eq_iff _ _).mpr hempty
      rw [heq]
      exact ⟨rfl, hbefore⟩

/-- An enumerable of nothing, then one with a component twice. -/
theorem holdsLastInjected_iff_empty :
    HoldsLastInjected (Env.simple [4]) (.user 3) ⟨4, none, true, false⟩ World.initial
      [[], [.user 5, .user 5]] := by
  have hiff := holdsLastInjected_iff (Env.simple [4]) (.user 3) ⟨4, none, true, false⟩
    World.initial [[], [.user 5, .user 5]] (by decide)
  exact hiff.mpr (by decide)

/-! ## A component that is resolved twice -/

/-- Factory functions return the object of their number, the same at each call;
object 3 has a multi-injectable for interface 4. -/
def sharedObjectsEnv : Env :=
  { Env.simple [1, 4] with
    factoryFunc := fun factoryFunc _ => .ok factoryFunc
    injectables := fun id _ => if id = 3 then [⟨4, none, true, false⟩] else [] }

def sharedObjectsWorld : World :=
  (performAll sharedObjectsEnv 1
    [.bindMethod (.default 1) 3 ⟨3, .transient, defaultOrAll, ""⟩,
      .bindMethod (.default 4) 5 ⟨5, .transient, defaultOrAll, ""⟩] World.initial).2

/-- The second resolve of interface 1 adds object 5 to the collection again. -/
theorem second_resolve_duplicates :
    let injectable : Injector := ⟨4, none, true, false⟩
    let once := (resolve sharedObjectsEnv 2 1 [] sharedObjectsWorld).2
    let twice := (resolve sharedObjectsEnv 2 1 [] once).2
    once.held (.user 3) injectable = [.user 5] ∧
      twice.held (.user 3) injectable = [.user 5, .user 5] ∧
      ¬ HoldsLastInjected sharedObjectsEnv (.user 3) injectable sharedObjectsWorld
        [[.user 5], [.user 5]] := by
  refine ⟨rfl, rfl, fun h => ?_⟩
  obtain ⟨w1, hrun, hheld⟩ := h [[.user 5]] [.user 5] [] rfl
  cases hrun
  cases hheld

end Xpcf
