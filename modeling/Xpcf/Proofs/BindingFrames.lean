import Xpcf.Model.Bindings

/-!
# What a specific bind changes

`resolveBind` goes down the stack of contexts until a level stops it.  A bind
for the component `T` and the interface `I` changes the answer for `I` on the
stacks on which the search comes to a context of `T`, and no other answer.

* `Passes`: the search goes past a level;
* `Comes`: the search comes to a level;
* `bind_specific_frame`: the frame of the two forms of the specific bind.
-/

namespace Xpcf

open CodeLib

/-! ## The levels that a search comes to -/

section Levels

variable (specific : Uuid → Option FactoryBindInfos)

/-- The search goes past a context of a component when it has no specific binding and
the `WithParents` bit.  The levels that are not of a component are passed over. -/
def Passes (level : BindContext) : Prop :=
  level.1 = .component → specific level.2.componentUUID = none ∧
    hasBits level.2.bindingRangeMask BindingRange.withParents.bits = true

/-- The search comes to a level of this kind: it goes past every nearer one. -/
def Comes (kind : BindContext → Prop) (contextLevels : ContextLevels) : Prop :=
  ∃ nearer level farther, contextLevels = nearer ++ level :: farther ∧
    (∀ near ∈ nearer, Passes specific near) ∧ kind level

end Levels

variable {specific : Uuid → Option FactoryBindInfos}
  {onExplicit : Uuid → Except Exc FactoryBindInfos} {kind : BindContext → Prop}

theorem not_comes_nil : ¬ Comes specific kind [] := by
  rintro ⟨nearer, level, farther, heq, -⟩
  simp at heq

theorem comes_cons (level : BindContext) (rest : ContextLevels) :
    Comes specific kind (level :: rest) ↔
      kind level ∨ Passes specific level ∧ Comes specific kind rest := by
  constructor
  · rintro ⟨nearer, far, farther, heq, hpasses, hkind⟩
    cases nearer with
    | nil =>
      obtain ⟨rfl, rfl⟩ := List.cons.inj heq
      exact .inl hkind
    | cons near nearer =>
      obtain ⟨rfl, rfl⟩ := List.cons.inj heq
      have hnearer : ∀ l ∈ nearer, Passes specific l :=
        fun l hl => hpasses l (List.mem_cons_of_mem _ hl)
      exact .inr ⟨hpasses level List.mem_cons_self, nearer, far, farther, rfl, hnearer, hkind⟩
  · rintro (hkind | ⟨hpasses, nearer, far, farther, rfl, hnearer, hkind⟩)
    · exact ⟨[], level, rest, rfl, nofun, hkind⟩
    · refine ⟨level :: nearer, far, farther, rfl, ?_, hkind⟩
      intro l hl
      cases hl with
      | head => exact hpasses
      | tail _ hl => exact hnearer l hl

/-! ## Masks -/

theorem hasBits_comm (mask bits : BitVec 8) : hasBits mask bits = hasBits bits mask := by
  unfold hasBits
  rw [BitVec.and_comm]

theorem hasBits_added (mask bits which : BitVec 8) :
    hasBits (mask ||| bits) which = (hasBits mask which || hasBits bits which) := by
  unfold hasBits
  rw [BitVec.and_or_distrib_right]
  rw [← Bool.decide_or]
  apply decide_eq_decide.mpr
  rw [← not_and_or]
  exact not_congr BitVec.or_eq_zero_iff

/-- Masks are told apart by a bit that one of them has. -/
theorem ne_of_hasBits {mask mask1 bits : BitVec 8} (h : hasBits mask bits = true)
    (h1 : hasBits mask1 bits = false) : mask ≠ mask1 := by
  rintro rfl
  rw [h] at h1
  cases h1

theorem mask_ne_explicit {mask : BitVec 8}
    (h : hasBits mask BindingRange.withParents.bits = true) :
    mask ≠ BindingRange.explicit.bits := ne_of_hasBits h (by decide)

/-! ## One level of the search -/

theorem searchContexts_cons (level : BindContext) (rest : ContextLevels) :
    searchContexts specific onExplicit (level :: rest) =
      if level.1 = .component then
        match specific level.2.componentUUID with
        | some bindInfos => some (.ok bindInfos)
        | none =>
          if level.2.bindingRangeMask = BindingRange.explicit.bits then
            some (onExplicit level.2.componentUUID)
          else if hasBits level.2.bindingRangeMask BindingRange.withParents.bits then
            searchContexts specific onExplicit rest
          else none
      else searchContexts specific onExplicit rest := rfl

theorem searchContexts_passes {level : BindContext} (h : Passes specific level)
    (rest : ContextLevels) :
    searchContexts specific onExplicit (level :: rest) =
      searchContexts specific onExplicit rest := by
  rw [searchContexts_cons]
  by_cases htype : level.1 = .component
  · obtain ⟨hnone, hparents⟩ := h htype
    simp only [htype, hnone, mask_ne_explicit hparents, hparents, if_true, if_false]
  · rw [if_neg htype]

theorem component_of_not_passes {level : BindContext} (h : ¬ Passes specific level) :
    level.1 = .component := by
  by_contra hne
  exact h fun htype => absurd htype hne

/-- A level that the search does not go past decides alone. -/
theorem searchContexts_stops {level : BindContext} (h : ¬ Passes specific level)
    (rest : ContextLevels) :
    searchContexts specific onExplicit (level :: rest) =
      searchContexts specific onExplicit [level] := by
  rw [searchContexts_cons, searchContexts_cons, if_pos (component_of_not_passes h),
    if_pos (component_of_not_passes h)]
  cases hspecific : specific level.2.componentUUID with
  | some found => rfl
  | none =>
    have hparents : ¬ hasBits level.2.bindingRangeMask BindingRange.withParents.bits = true :=
      fun hparents => h fun _ => ⟨hspecific, hparents⟩
    dsimp only
    rw [if_neg hparents, if_neg hparents]

/-! ## A binding for one component -/

section Update

variable (specific specific1 : Uuid → Option FactoryBindInfos) {T : Uuid} {b : FactoryBindInfos}
  (onExplicit : Uuid → Except Exc FactoryBindInfos)

/-- A context of the component. -/
def ContextOf (T : Uuid) (level : BindContext) : Prop :=
  level.1 = .component ∧ level.2.componentUUID = T

/-- The search with a binding for `T` finds it where the search without it comes to a context
of `T`, and finds elsewhere what the other one finds. -/
theorem searchContexts_update (hself : specific1 T = some b)
    (hother : ∀ target, target ≠ T → specific1 target = specific target)
    (contextLevels : ContextLevels) :
    (Comes specific (ContextOf T) contextLevels →
      searchContexts specific1 onExplicit contextLevels = some (.ok b)) ∧
    (¬ Comes specific (ContextOf T) contextLevels →
      searchContexts specific1 onExplicit contextLevels =
        searchContexts specific onExplicit contextLevels) := by
  induction contextLevels with
  | nil => exact ⟨fun h => absurd h not_comes_nil, fun _ => rfl⟩
  | cons level rest ih =>
    rw [comes_cons]
    by_cases hcontext : ContextOf T level
    · have hfound : searchContexts specific1 onExplicit (level :: rest) = some (.ok b) := by
        obtain ⟨htype, htarget⟩ := hcontext
        rw [searchContexts_cons, if_pos htype, htarget, hself]
      exact ⟨fun _ => hfound, fun h => absurd (.inl hcontext) h⟩
    · -- the level is of another component, so both searches treat it in one way
      have hsame : level.1 = .component →
          specific1 level.2.componentUUID = specific level.2.componentUUID :=
        fun htype => hother _ fun htarget => hcontext ⟨htype, htarget⟩
      by_cases hpasses : Passes specific level
      · have hpasses1 : Passes specific1 level :=
          fun htype => ⟨(hsame htype).trans (hpasses htype).1, (hpasses htype).2⟩
        rw [searchContexts_passes hpasses, searchContexts_passes hpasses1]
        refine ⟨?_, ?_⟩
        · rintro (h | h)
          · exact absurd h hcontext
          · exact ih.1 h.2
        · intro h
          exact ih.2 fun hcomes => h (.inr ⟨hpasses, hcomes⟩)
      · refine ⟨?_, fun _ => ?_⟩
        · rintro (h | h)
          · exact absurd h hcontext
          · exact absurd h.1 hpasses
        · have hpasses1 : ¬ Passes specific1 level :=
            fun h => hpasses fun htype => ⟨(hsame htype).symm.trans (h htype).1, (h htype).2⟩
          rw [searchContexts_stops hpasses, searchContexts_stops hpasses1]
          rw [searchContexts_cons, searchContexts_cons, hsame (component_of_not_passes hpasses)]
          rfl

end Update

/-! ## The tables after a bind -/

namespace FactoryContext

variable (ctx : FactoryContext) (T I : Uuid) (name : String) (b : FactoryBindInfos)

theorem specificBind_bind_self : (ctx.bind (.specific T I) b).specificBind T I = some b := by
  simp [bind, specificBind]

theorem specificBind_bind_ne {target J : Uuid} (h : target ≠ T ∨ J ≠ I) :
    (ctx.bind (.specific T I) b).specificBind target J = ctx.specificBind target J := by
  unfold bind specificBind
  dsimp only
  by_cases htarget : target = T
  · subst htarget
    have hJ : J ≠ I := h.resolve_left fun hne => hne rfl
    rw [Table.insert_self, Option.bind_some, Table.insert_ne _ _ hJ]
    cases ctx.specificBindings target with
    | none => rfl
    | some binds => rfl
  · rw [Table.insert_ne _ _ htarget]

theorem specificNamedBind_bind_self :
    (ctx.bind (.specificNamed T name I) b).specificNamedBind T (I, name) = some b := by
  simp [bind, specificNamedBind]

theorem specificNamedBind_bind_ne {target : Uuid} {key : Uuid × String}
    (h : target ≠ T ∨ key ≠ (I, name)) :
    (ctx.bind (.specificNamed T name I) b).specificNamedBind target key =
      ctx.specificNamedBind target key := by
  unfold bind specificNamedBind
  dsimp only
  by_cases htarget : target = T
  · subst htarget
    have hkey : key ≠ (I, name) := h.resolve_left fun hne => hne rfl
    rw [Table.insert_self, Option.bind_some, Table.insert_ne _ _ hkey]
    cases ctx.specificNamedBindings target with
    | none => rfl
    | some binds => rfl
  · rw [Table.insert_ne _ _ htarget]

end FactoryContext

/-! ## The frame -/

/-- The answer is the new binding where the search comes to it, and unchanged elsewhere. -/
structure BindFrame (reached : Prop) (b : FactoryBindInfos)
    (before after : Except Exc FactoryBindInfos) : Prop where
  bound : reached → after = .ok b
  same : ¬ reached → after = before

section Frame

variable (ctx : FactoryContext) (coreBindings : Table Uuid FactoryBindInfos) (T I : Uuid)
  (b : FactoryBindInfos) (contextLevels : ContextLevels)

theorem frame_bind (J : Uuid) :
    BindFrame
      (J = I ∧ Comes (fun target => ctx.specificBind target I) (ContextOf T) contextLevels) b
      (resolveBind ctx coreBindings J contextLevels)
      (resolveBind (ctx.bind (.specific T I) b) coreBindings J contextLevels) := by
  have htables : defaultBind (ctx.bind (.specific T I) b) coreBindings J contextLevels =
      defaultBind ctx coreBindings J contextLevels := rfl
  by_cases hJ : J = I
  · subst hJ
    have hother : ∀ target, target ≠ T →
        (ctx.bind (.specific T J) b).specificBind target J = ctx.specificBind target J :=
      fun target htarget => ctx.specificBind_bind_ne T J b (.inl htarget)
    obtain ⟨hbound, hsame⟩ := searchContexts_update
      (fun target => ctx.specificBind target J)
      (fun target => (ctx.bind (.specific T J) b).specificBind target J)
      (onlyExplicit coreBindings J)
      (ctx.specificBind_bind_self T J b) hother contextLevels
    refine ⟨fun h => ?_, fun h => ?_⟩
    · unfold resolveBind
      rw [hbound h.2]
    · unfold resolveBind
      rw [hsame fun hcomes => h ⟨rfl, hcomes⟩, htables]
  · have hspecific : (fun target => (ctx.bind (.specific T I) b).specificBind target J) =
        fun target => ctx.specificBind target J :=
      funext fun target => ctx.specificBind_bind_ne T I b (.inr hJ)
    refine ⟨fun h => absurd h.1 hJ, fun _ => ?_⟩
    unfold resolveBind
    rw [hspecific, htables]

theorem frame_bindNamed (name : String) (J : Uuid) (name1 : String) :
    BindFrame (J = I ∧ name1 = name ∧
        Comes (fun target => ctx.specificNamedBind target (I, name)) (ContextOf T) contextLevels) b
      (resolveNamedBind ctx coreBindings J name1 contextLevels)
      (resolveNamedBind (ctx.bind (.specificNamed T name I) b) coreBindings J name1
        contextLevels) := by
  -- what follows the search does not read the bindings for a component and a name
  have htables : (ctx.bind (.specificNamed T name I) b).namedBindings = ctx.namedBindings := rfl
  have hunnamed : resolveBind (ctx.bind (.specificNamed T name I) b) coreBindings J contextLevels =
      resolveBind ctx coreBindings J contextLevels := rfl
  by_cases hkey : (J, name1) = (I, name)
  · obtain ⟨rfl, rfl⟩ := Prod.mk.inj hkey
    have hother : ∀ target, target ≠ T →
        (ctx.bind (.specificNamed T name1 J) b).specificNamedBind target (J, name1) =
          ctx.specificNamedBind target (J, name1) :=
      fun target htarget => ctx.specificNamedBind_bind_ne T J name1 b (.inl htarget)
    obtain ⟨hbound, hsame⟩ := searchContexts_update
      (fun target => ctx.specificNamedBind target (J, name1))
      (fun target => (ctx.bind (.specificNamed T name1 J) b).specificNamedBind target (J, name1))
      (onlyExplicitNamed J name1)
      (ctx.specificNamedBind_bind_self T J name1 b) hother contextLevels
    refine ⟨fun h => ?_, fun h => ?_⟩
    · unfold resolveNamedBind
      rw [hbound h.2.2]
    · unfold resolveNamedBind
      rw [hsame fun hcomes => h ⟨rfl, rfl, hcomes⟩, htables, hunnamed]
  · have hspecific : (fun target =>
          (ctx.bind (.specificNamed T name I) b).specificNamedBind target (J, name1)) =
        fun target => ctx.specificNamedBind target (J, name1) :=
      funext fun target => ctx.specificNamedBind_bind_ne T I name b (.inr hkey)
    refine ⟨fun h => absurd (Prod.ext h.1 h.2.1) hkey, fun _ => ?_⟩
    unfold resolveNamedBind
    rw [hspecific, htables, hunnamed]

/-- A bind for a component changes the answers of its own request where the search comes to
a context of the component, and no others. -/
theorem bind_specific_frame :
    (∀ J, BindFrame
      (J = I ∧ Comes (fun target => ctx.specificBind target I) (ContextOf T) contextLevels) b
      (resolveBind ctx coreBindings J contextLevels)
      (resolveBind (ctx.bind (.specific T I) b) coreBindings J contextLevels)) ∧
    ∀ name J name1, BindFrame
      (J = I ∧ name1 = name ∧
        Comes (fun target => ctx.specificNamedBind target (I, name)) (ContextOf T) contextLevels) b
      (resolveNamedBind ctx coreBindings J name1 contextLevels)
      (resolveNamedBind (ctx.bind (.specificNamed T name I) b) coreBindings J name1
        contextLevels) :=
  ⟨frame_bind ctx coreBindings T I b contextLevels,
    fun name J name1 => frame_bindNamed ctx coreBindings T I b contextLevels name J name1⟩

end Frame

end Xpcf
