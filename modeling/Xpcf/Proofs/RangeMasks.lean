import Xpcf.Proofs.BindingFrames

/-!
# More range bits

A context passes a search on to its parents when its mask has the
`WithParents` bit, and a parent whose mask is `Explicit` ends the search.  So a
mask with more bits may lead to a failure: where the search ended at the
context, it goes on and comes to such a parent.

* `EndsExplicit`: a context that ends the search;
* `OpensExplicit`: the added bits let the search go on to one;
* `raise_fails_iff`: the requests that more bits turn into failures.
-/

namespace Xpcf

open CodeLib

/-! ## Masks -/

/-- `WithParents | Named | Default | All`. -/
def rangeBits : BitVec 8 :=
  BindingRange.withParents.bits ||| BindingRange.named.bits ||| defaultOrAll

/-- A mask with range bits added is `Explicit` only if it was. -/
theorem explicit_of_or {mask bits : BitVec 8} (hbits : bits &&& rangeBits = bits)
    (h : mask ||| bits = BindingRange.explicit.bits) : mask = BindingRange.explicit.bits := by
  have habsorb : bits &&& (mask ||| bits) = bits := by
    ext i hi
    simp only [BitVec.getElem_and, BitVec.getElem_or]
    cases bits[i] with
    | false => rfl
    | true => simp
  have hzero : bits = 0 := by
    calc bits = bits &&& rangeBits &&& BindingRange.explicit.bits := by rw [hbits, ← h, habsorb]
      _ = bits &&& 0 := BitVec.and_assoc ..
      _ = 0 := BitVec.and_zero
  rw [hzero] at h
  simpa using h

/-! ## A context with more bits -/

def raise (bits : BitVec 8) (level : BindContext) : BindContext :=
  (level.1, { level.2 with bindingRangeMask := level.2.bindingRangeMask ||| bits })

/-- Range bits are added to the mask of one level. -/
def raiseAt (contextLevels : ContextLevels) (k : Nat) (bits : BitVec 8) : ContextLevels :=
  contextLevels.modify k (raise bits)

theorem raiseAt_length (nearer : ContextLevels) (level : BindContext) (farther : ContextLevels)
    (bits : BitVec 8) :
    raiseAt (nearer ++ level :: farther) nearer.length bits =
      nearer ++ raise bits level :: farther := by
  unfold raiseAt
  induction nearer with
  | nil => rfl
  | cons near nearer ih =>
    show near :: (nearer ++ level :: farther).modify nearer.length (raise bits) = _
    rw [ih]
    rfl

variable {specific : Uuid → Option FactoryBindInfos}

theorem passes_raise {level : BindContext} (bits : BitVec 8) (h : Passes specific level) :
    Passes specific (raise bits level) := by
  intro htype
  obtain ⟨hspecific, hparents⟩ := h htype
  refine ⟨hspecific, ?_⟩
  show hasBits (level.2.bindingRangeMask ||| bits) _ = true
  rw [hasBits_added, hparents, Bool.true_or]

/-- The guards of the tables look at the last level. -/
theorem rangeAllows_raise {nearer farther : ContextLevels} {level : BindContext}
    {bits which : BitVec 8} (h : rangeAllows (nearer ++ level :: farther) which = true) :
    rangeAllows (nearer ++ raise bits level :: farther) which = true := by
  unfold rangeAllows at h ⊢
  rw [List.getLast?_append_cons] at h ⊢
  cases farther with
  | nil =>
    simp only [List.getLast?_singleton] at h ⊢
    show hasBits (level.2.bindingRangeMask ||| bits) which = true
    rw [hasBits_added, h, Bool.true_or]
  | cons far farther =>
    rw [List.getLast?_cons_cons] at h ⊢
    exact h

/-! ## Searches -/

section Search

variable {onExplicit : Uuid → Except Exc FactoryBindInfos}

theorem searchContexts_append_passes {nearer : ContextLevels}
    (h : ∀ near ∈ nearer, Passes specific near) (rest : ContextLevels) :
    searchContexts specific onExplicit (nearer ++ rest) =
      searchContexts specific onExplicit rest := by
  induction nearer with
  | nil => rfl
  | cons near nearer ih =>
    rw [List.cons_append, searchContexts_passes (h near List.mem_cons_self)]
    exact ih fun l hl => h l (List.mem_cons_of_mem _ hl)

/-- The search ends at a nearer level. -/
theorem searchContexts_append_stops {nearer : ContextLevels}
    (h : ¬ ∀ near ∈ nearer, Passes specific near) (rest : ContextLevels) :
    searchContexts specific onExplicit (nearer ++ rest) =
      searchContexts specific onExplicit nearer := by
  induction nearer with
  | nil => exact absurd nofun h
  | cons near nearer ih =>
    by_cases hpasses : Passes specific near
    · rw [List.cons_append, searchContexts_passes hpasses, searchContexts_passes hpasses]
      apply ih
      intro hall
      apply h
      intro l hl
      cases hl with
      | head => exact hpasses
      | tail _ hl => exact hall l hl
    · rw [List.cons_append, searchContexts_stops hpasses, searchContexts_stops hpasses nearer]

end Search

/-- A context that ends the search: it has no specific binding, and its mask is `Explicit`. -/
def EndsExplicit (specific : Uuid → Option FactoryBindInfos) (level : BindContext) : Prop :=
  level.1 = .component ∧ specific level.2.componentUUID = none ∧
    level.2.bindingRangeMask = BindingRange.explicit.bits

theorem not_passes_of_ends {level : BindContext} (h : EndsExplicit specific level) :
    ¬ Passes specific level :=
  fun hpasses => mask_ne_explicit (hpasses h.1).2 h.2.2

section Failing

variable {coreBindings : Table Uuid FactoryBindInfos} {I : Uuid}

theorem search_of_ends (hcore : coreBindings I = none) {level : BindContext}
    (h : EndsExplicit specific level) :
    ∃ text, searchContexts specific (onlyExplicit coreBindings I) [level] =
      some (.error (.injectableNotFound text)) := by
  obtain ⟨htype, hspecific, hmask⟩ := h
  rw [searchContexts_cons, if_pos htype, hspecific, if_pos hmask]
  unfold onlyExplicit
  rw [hcore]
  exact ⟨_, rfl⟩

/-- The search fails where it comes to a context that ends it. -/
theorem search_of_comes (hcore : coreBindings I = none) {contextLevels : ContextLevels}
    (h : Comes specific (EndsExplicit specific) contextLevels) :
    ∃ text, searchContexts specific (onlyExplicit coreBindings I) contextLevels =
      some (.error (.injectableNotFound text)) := by
  obtain ⟨nearer, level, farther, rfl, hnearer, hends⟩ := h
  rw [searchContexts_append_passes hnearer, searchContexts_stops (not_passes_of_ends hends)]
  exact search_of_ends hcore hends

/-- A search that fails came to a context that ends it, and there is no core binding. -/
theorem comes_of_search {contextLevels : ContextLevels} {e : Exc}
    (h : searchContexts specific (onlyExplicit coreBindings I) contextLevels = some (.error e)) :
    coreBindings I = none ∧ Comes specific (EndsExplicit specific) contextLevels := by
  induction contextLevels with
  | nil => cases h
  | cons level rest ih =>
    rw [comes_cons]
    by_cases hpasses : Passes specific level
    · rw [searchContexts_passes hpasses] at h
      obtain ⟨hcore, hcomes⟩ := ih h
      exact ⟨hcore, .inr ⟨hpasses, hcomes⟩⟩
    · have htype := component_of_not_passes hpasses
      rw [searchContexts_stops hpasses, searchContexts_cons, if_pos htype] at h
      cases hspecific : specific level.2.componentUUID with
      | some found => simp [hspecific] at h
      | none =>
        by_cases hmask : level.2.bindingRangeMask = BindingRange.explicit.bits
        · simp only [hspecific, hmask, if_true, Option.some.injEq] at h
          unfold onlyExplicit at h
          cases hcore : coreBindings I with
          | some found => simp [hcore] at h
          | none => exact ⟨rfl, .inl ⟨htype, hspecific, hmask⟩⟩
        · simp only [hspecific, hmask, if_false] at h
          split at h
          · cases h
          · cases h

end Failing

/-! ## Requests -/

section Requests

variable {ctx : FactoryContext} {coreBindings : Table Uuid FactoryBindInfos} {I : Uuid}
  {nearer farther : ContextLevels} {level : BindContext} {bits : BitVec 8}

theorem resolveBind_of_found {contextLevels : ContextLevels} {result : Except Exc FactoryBindInfos}
    (h : searchContexts (fun target => ctx.specificBind target I) (onlyExplicit coreBindings I)
      contextLevels = some result) :
    resolveBind ctx coreBindings I contextLevels = result := by
  unfold resolveBind
  rw [h]

/-- A search that finds nothing leaves the request to the tables. -/
theorem resolveBind_ok_iff_of_none {contextLevels : ContextLevels}
    (h : searchContexts (fun target => ctx.specificBind target I) (onlyExplicit coreBindings I)
      contextLevels = none) :
    (∃ b, resolveBind ctx coreBindings I contextLevels = .ok b) ↔
      (defaultBind ctx coreBindings I contextLevels).isSome = true := by
  unfold resolveBind
  rw [h]
  cases defaultBind ctx coreBindings I contextLevels with
  | none => simp
  | some b => simp

theorem isSome_whenAllowed_raise {which : BitVec 8} {found : Option FactoryBindInfos}
    (h : (whenAllowed (nearer ++ level :: farther) which found).isSome = true) :
    (whenAllowed (nearer ++ raise bits level :: farther) which found).isSome = true := by
  unfold whenAllowed at h ⊢
  by_cases hallowed : rangeAllows (nearer ++ level :: farther) which = true
  · rw [if_pos hallowed] at h
    rw [if_pos (rangeAllows_raise hallowed)]
    exact h
  · rw [if_neg hallowed] at h
    cases h

/-- More bits open more tables. -/
theorem isSome_defaultBind_raise
    (h : (defaultBind ctx coreBindings I (nearer ++ level :: farther)).isSome = true) :
    (defaultBind ctx coreBindings I (nearer ++ raise bits level :: farther)).isSome = true := by
  unfold defaultBind at h ⊢
  simp only [Option.isSome_or, Bool.or_eq_true] at h ⊢
  rcases h with hdefault | hauto | hcore
  · exact .inl (isSome_whenAllowed_raise hdefault)
  · exact .inr (.inl (isSome_whenAllowed_raise hauto))
  · exact .inr (.inr hcore)

/-- A request stays successful where the added bits leave the search as it is. -/
theorem ok_raise_of_search_eq {b : FactoryBindInfos}
    (h : resolveBind ctx coreBindings I (nearer ++ level :: farther) = .ok b)
    (hsearch : searchContexts (fun target => ctx.specificBind target I)
        (onlyExplicit coreBindings I) (nearer ++ raise bits level :: farther) =
      searchContexts (fun target => ctx.specificBind target I) (onlyExplicit coreBindings I)
        (nearer ++ level :: farther)) :
    ∃ b1, resolveBind ctx coreBindings I (nearer ++ raise bits level :: farther) = .ok b1 := by
  cases hfound : searchContexts (fun target => ctx.specificBind target I)
      (onlyExplicit coreBindings I) (nearer ++ level :: farther) with
  | some result =>
    rw [hfound] at hsearch
    rw [resolveBind_of_found hfound] at h
    exact ⟨b, (resolveBind_of_found hsearch).trans h⟩
  | none =>
    rw [hfound] at hsearch
    have htables := (resolveBind_ok_iff_of_none hfound).mp ⟨b, h⟩
    exact (resolveBind_ok_iff_of_none hsearch).mpr (isSome_defaultBind_raise htables)

/-- An interface with a core binding is always found. -/
theorem core_none_of_fails {contextLevels : ContextLevels} {e : Exc}
    (h : resolveBind ctx coreBindings I contextLevels = .error e) : coreBindings I = none := by
  cases hsearch : searchContexts (fun target => ctx.specificBind target I)
      (onlyExplicit coreBindings I) contextLevels with
  | some result =>
    rw [resolveBind_of_found hsearch] at h
    rw [h] at hsearch
    exact (comes_of_search hsearch).1
  | none =>
    by_contra hcore
    have htables : (defaultBind ctx coreBindings I contextLevels).isSome = true := by
      unfold defaultBind
      simp only [Option.isSome_or, Bool.or_eq_true]
      exact .inr (.inr (Option.isSome_iff_ne_none.mpr hcore))
    obtain ⟨b, hb⟩ := (resolveBind_ok_iff_of_none hsearch).mpr htables
    rw [hb] at h
    cases h

/-! ## The search beyond a context -/

/-- The search ended at this level for want of `WithParents`. -/
structure EndsHere (specific : Uuid → Option FactoryBindInfos) (nearer : ContextLevels)
    (level : BindContext) : Prop where
  passes : ∀ near ∈ nearer, Passes specific near
  component : level.1 = .component
  unbound : specific level.2.componentUUID = none
  noParents : hasBits level.2.bindingRangeMask BindingRange.withParents.bits = false

theorem EndsHere.search {onExplicit : Uuid → Except Exc FactoryBindInfos}
    (h : EndsHere specific nearer level)
    (hmask : level.2.bindingRangeMask ≠ BindingRange.explicit.bits) (farther : ContextLevels) :
    searchContexts specific onExplicit (nearer ++ level :: farther) = none := by
  rw [searchContexts_append_passes h.passes, searchContexts_cons, if_pos h.component, h.unbound]
  dsimp only
  rw [if_neg hmask, h.noParents]
  rfl

/-- With the bit the search goes on. -/
theorem EndsHere.search_raise {onExplicit : Uuid → Except Exc FactoryBindInfos}
    (h : EndsHere specific nearer level)
    (hadds : hasBits bits BindingRange.withParents.bits = true) (farther : ContextLevels) :
    searchContexts specific onExplicit (nearer ++ raise bits level :: farther) =
      searchContexts specific onExplicit farther := by
  have hraised : Passes specific (raise bits level) := by
    refine fun _ => ⟨h.unbound, ?_⟩
    show hasBits (level.2.bindingRangeMask ||| bits) _ = true
    rw [hasBits_added, hadds, Bool.or_true]
  rw [searchContexts_append_passes h.passes, searchContexts_passes hraised]

/-- Without the bit it ends here again. -/
theorem EndsHere.raise (h : EndsHere specific nearer level)
    (hadds : hasBits bits BindingRange.withParents.bits = false) :
    EndsHere specific nearer (raise bits level) := by
  refine ⟨h.passes, h.component, h.unbound, ?_⟩
  show hasBits (level.2.bindingRangeMask ||| bits) _ = false
  rw [hasBits_added, h.noParents, hadds]
  rfl

/-- Where the added bits change the search, it ended at their level. -/
theorem endsHere_of_changed {onExplicit : Uuid → Except Exc FactoryBindInfos}
    (h : searchContexts specific onExplicit (nearer ++ raise bits level :: farther) ≠
      searchContexts specific onExplicit (nearer ++ level :: farther)) :
    EndsHere specific nearer level := by
  have hnearer : ∀ near ∈ nearer, Passes specific near := by
    by_contra hstops
    exact h ((searchContexts_append_stops hstops _).trans
      (searchContexts_append_stops hstops _).symm)
  rw [searchContexts_append_passes hnearer, searchContexts_append_passes hnearer] at h
  have hlevel : ¬ Passes specific level := fun hpasses =>
    h ((searchContexts_passes (passes_raise bits hpasses) _).trans
      (searchContexts_passes hpasses _).symm)
  have htype := component_of_not_passes hlevel
  have hspecific : specific level.2.componentUUID = none := by
    by_contra hbound
    obtain ⟨found, hfound⟩ := Option.ne_none_iff_exists'.mp hbound
    apply h
    rw [searchContexts_cons, searchContexts_cons, if_pos htype, if_pos (show (raise bits level).1 =
      .component from htype), hfound, show specific (raise bits level).2.componentUUID = some found
      from hfound]
  refine ⟨hnearer, htype, hspecific, Bool.eq_false_iff.mpr fun hparents => ?_⟩
  exact hlevel fun _ => ⟨hspecific, hparents⟩

end Requests

/-- The bits that are added to the mask of the k-th level let the search, which ended there,
go on to a context that ends it. -/
def OpensExplicit (specific : Uuid → Option FactoryBindInfos) (contextLevels : ContextLevels)
    (k : Nat) (bits : BitVec 8) : Prop :=
  hasBits bits BindingRange.withParents.bits = true ∧
    ∃ nearer level farther, contextLevels = nearer ++ level :: farther ∧ nearer.length = k ∧
      EndsHere specific nearer level ∧ Comes specific (EndsExplicit specific) farther

section Monotone

variable (ctx : FactoryContext) (coreBindings : Table Uuid FactoryBindInfos) (I : Uuid)
  (contextLevels : ContextLevels) (k : Nat) (bits : BitVec 8) (b : FactoryBindInfos)

theorem opensExplicit_of_fails {nearer farther : ContextLevels} {level : BindContext} {e : Exc}
    (hbits : bits &&& rangeBits = bits)
    (h : resolveBind ctx coreBindings I (nearer ++ level :: farther) = .ok b)
    (hfails : resolveBind ctx coreBindings I (nearer ++ raise bits level :: farther) = .error e) :
    OpensExplicit (fun target => ctx.specificBind target I) (nearer ++ level :: farther)
      nearer.length bits := by
  have hcore := core_none_of_fails hfails
  have hchanged : searchContexts (fun target => ctx.specificBind target I)
        (onlyExplicit coreBindings I) (nearer ++ raise bits level :: farther) ≠
      searchContexts (fun target => ctx.specificBind target I) (onlyExplicit coreBindings I)
        (nearer ++ level :: farther) := by
    intro heq
    obtain ⟨b1, hb1⟩ := ok_raise_of_search_eq h heq
    rw [hb1] at hfails
    cases hfails
  have hends := endsHere_of_changed hchanged
  have hmask : level.2.bindingRangeMask ≠ BindingRange.explicit.bits := by
    intro hmask
    obtain ⟨text, herror⟩ := search_of_comes hcore
      ⟨nearer, level, farther, rfl, hends.passes, hends.component, hends.unbound, hmask⟩
    rw [resolveBind_of_found herror] at h
    cases h
  have hadds : hasBits bits BindingRange.withParents.bits = true := by
    by_contra hadds
    have hends1 := hends.raise (Bool.eq_false_iff.mpr hadds)
    apply hchanged
    rw [hends1.search (fun hraised => hmask (explicit_of_or hbits hraised)), hends.search hmask]
  rw [hends.search_raise hadds, hends.search hmask] at hchanged
  cases hsearch : searchContexts (fun target => ctx.specificBind target I)
      (onlyExplicit coreBindings I) farther with
  | none => exact absurd hsearch hchanged
  | some result =>
    have hraised : searchContexts (fun target => ctx.specificBind target I)
        (onlyExplicit coreBindings I) (nearer ++ raise bits level :: farther) = some result :=
      (hends.search_raise hadds farther).trans hsearch
    rw [resolveBind_of_found hraised] at hfails
    rw [hfails] at hsearch
    exact ⟨hadds, nearer, level, farther, rfl, rfl, hends, (comes_of_search hsearch).2⟩

/-- Whatever the failure is, the search came to a context that ends it. -/
theorem opensExplicit_of_error {e : Exc} (hbits : bits &&& rangeBits = bits)
    (h : resolveBind ctx coreBindings I contextLevels = .ok b)
    (hfails : resolveBind ctx coreBindings I (raiseAt contextLevels k bits) = .error e) :
    coreBindings I = none ∧
      OpensExplicit (fun target => ctx.specificBind target I) contextLevels k bits := by
  refine ⟨core_none_of_fails hfails, ?_⟩
  by_cases hk : k < contextLevels.length
  · obtain ⟨nearer, level, farther, rfl, rfl⟩ : ∃ nearer level farther,
        contextLevels = nearer ++ level :: farther ∧ nearer.length = k :=
      ⟨contextLevels.take k, contextLevels[k], contextLevels.drop (k + 1), by simp,
        by rw [List.length_take]; omega⟩
    rw [raiseAt_length] at hfails
    exact opensExplicit_of_fails ctx coreBindings I bits b hbits h hfails
  · have hsame : raiseAt contextLevels k bits = contextLevels :=
      List.modify_eq_self (Nat.not_lt.mp hk)
    rw [hsame, h] at hfails
    cases hfails

/-- A successful request stays successful with more bits in one mask, except where these let
the search go on to a context that ends it: there it fails. -/
theorem raise_fails_iff (hbits : bits &&& rangeBits = bits)
    (h : resolveBind ctx coreBindings I contextLevels = .ok b) :
    ((∃ text, resolveBind ctx coreBindings I (raiseAt contextLevels k bits) =
      .error (.injectableNotFound text)) ↔
      coreBindings I = none ∧
        OpensExplicit (fun target => ctx.specificBind target I) contextLevels k bits) ∧
    (¬ (coreBindings I = none ∧
        OpensExplicit (fun target => ctx.specificBind target I) contextLevels k bits) →
      ∃ b1, resolveBind ctx coreBindings I (raiseAt contextLevels k bits) = .ok b1) := by
  refine ⟨⟨?_, ?_⟩, fun hother => ?_⟩
  · rintro ⟨text, hfails⟩
    exact opensExplicit_of_error ctx coreBindings I contextLevels k bits b hbits h hfails
  · rintro ⟨hcore, hadds, nearer, level, farther, rfl, rfl, hends, hcomes⟩
    obtain ⟨text, herror⟩ := search_of_comes hcore hcomes
    rw [raiseAt_length]
    exact ⟨text, resolveBind_of_found ((hends.search_raise hadds farther).trans herror)⟩
  · cases hraised : resolveBind ctx coreBindings I (raiseAt contextLevels k bits) with
    | ok b1 => exact ⟨b1, rfl⟩
    | error e =>
      exact absurd
        (opensExplicit_of_error ctx coreBindings I contextLevels k bits b hbits h hraised) hother

end Monotone

/-! ## A planned injection -/

/-- An interface with a default binding, and no other table. -/
def oneDefaultBind : FactoryContext :=
  FactoryContext.empty.bind (.default 1) ⟨5, .transient, BindingRange.all.bits, ""⟩

/-- A context of a component with this range. -/
def contextOf (componentUUID : Uuid) (range : BindingRange) : BindContext :=
  (.component, ⟨componentUUID, .transient, range.bits, ""⟩)

/-- The nearest context does not pass a search on, and the second one ends it. -/
def threeContexts : ContextLevels :=
  [contextOf 10 .default, contextOf 11 .explicit, contextOf 12 .default]

/-- `WithParents` at the nearest level lets the search go on to the second one, which ends
it; at the far level it changes nothing, since no search comes there. -/
theorem raise_fails_iff_threeContexts :
    (∃ text, resolveBind oneDefaultBind Table.empty 1
      (raiseAt threeContexts 0 BindingRange.withParents.bits) =
        .error (.injectableNotFound text)) ∧
    ∃ b1, resolveBind oneDefaultBind Table.empty 1
      (raiseAt threeContexts 2 BindingRange.withParents.bits) = .ok b1 := by
  have hraise := fun k => raise_fails_iff oneDefaultBind Table.empty 1 threeContexts k
    BindingRange.withParents.bits ⟨5, .transient, BindingRange.all.bits, ""⟩ (by decide) rfl
  constructor
  · exact (hraise 0).1.mpr ⟨rfl, by decide, [], contextOf 10 .default,
      [contextOf 11 .explicit, contextOf 12 .default], rfl, rfl,
      ⟨List.forall_mem_nil _, rfl, rfl, by decide⟩,
      [], contextOf 11 .explicit, [contextOf 12 .default], rfl, List.forall_mem_nil _,
      rfl, rfl, rfl⟩
  · refine (hraise 2).2 ?_
    rintro ⟨-, -, nearer, level, farther, heq, hlength, hends, -⟩
    have hnearer : nearer = threeContexts.take 2 := by
      rw [heq, ← hlength, List.take_left]
    have hpasses := hends.passes (contextOf 10 .default) (hnearer ▸ List.mem_cons_self) rfl
    exact absurd hpasses.2 (by decide)

/-- The nearest context does not pass the search on, and the default binding is found.  With
`WithParents` the search comes to the context above, which is `Explicit`. -/
theorem withParents_leads_to_failure :
    resolveBind oneDefaultBind Table.empty 1 threeContexts =
        .ok ⟨5, .transient, BindingRange.all.bits, ""⟩ ∧
      ∃ text, resolveBind oneDefaultBind Table.empty 1
        (raiseAt threeContexts 0 BindingRange.withParents.bits) =
          .error (.injectableNotFound text) :=
  ⟨rfl, _, rfl⟩

end Xpcf
