import Xpcf.Model.ComponentRef

/-!
# Counting the references to a component

`m_usageRefCount` is the number of live control blocks, modulo the range of the
counter, whatever the program does (`Counted`).  While it does not wrap, the
component is unloaded when its last `SRef` is destroyed, and then only; but for
one call, which destroys the last `SRef` before it adds the new one.
-/

namespace Xpcf

open CodeLib

namespace ComponentRefs

variable {I : Type} {s s1 : ComponentRefs I} {block old : Nat}

/-- The counter, which wraps around. -/
def Counted (s : ComponentRefs I) : Prop :=
  s.usageRefCount = UInt32.ofNat s.srefs.live

theorem ofNat_succ_sub_one (n : Nat) : UInt32.ofNat (n + 1) - 1 = UInt32.ofNat n := by
  rw [UInt32.ofNat_add]
  simp

theorem ofNat_eq_zero {n : Nat} (h : n < 2 ^ 32) : UInt32.ofNat n = 0 ↔ n = 0 := by
  rw [← UInt32.toNat_inj, UInt32.toNat_ofNat_of_lt' h]
  rfl

/-- The temporary `SRef` comes and goes. -/
theorem addThroughSRef_eq (h : block ∈ s.srefs.refs) :
    s.addThroughSRef h = s.addComponentRef := by
  have hshared : (s.srefs.copy h).useCount block ≠ 1 := by
    have hpos := List.count_pos_iff.mpr h
    rw [SharedPtrs.counts]
    show (block :: s.srefs.refs).count block ≠ 1
    rw [List.count_cons_self]
    omega
  simp only [addThroughSRef, destroySRef, addComponentRef, copySRef, if_neg hshared,
    SharedPtrs.destroy_copy]

theorem acquireComponentRef_eq (s : ComponentRefs I) :
    s.acquireComponentRef = s.makeSRef.addComponentRef :=
  addThroughSRef_eq _

theorem acquireComponentRefInto_eq (h : old ∈ s.srefs.refs) :
    s.acquireComponentRefInto h = (s.makeSRef.destroySRef old).addComponentRef :=
  addThroughSRef_eq _

/-- The deleter of the last `SRef` of a block releases the component. -/
theorem destroySRef_last (h : s.srefs.useCount block = 1) :
    (s.destroySRef block).usageRefCount = s.usageRefCount - 1 ∧
      (s.destroySRef block).unloads = s.unloads ++
        if s.usageRefCount - 1 = 0 then [(s.srefs.refs.erase block).length] else [] := by
  simp only [destroySRef, if_pos h, releaseComponentRef]
  split
  · exact ⟨rfl, rfl⟩
  · exact ⟨rfl, (List.append_nil _).symm⟩

theorem destroySRef_shared (h : s.srefs.useCount block ≠ 1) :
    (s.destroySRef block).usageRefCount = s.usageRefCount ∧
      (s.destroySRef block).unloads = s.unloads := by
  simp only [destroySRef, if_neg h, and_self]

/-! ## Steps -/

theorem Counted.copySRef (hs : s.Counted) (h : block ∈ s.srefs.refs) : (s.copySRef h).Counted := by
  show s.usageRefCount = UInt32.ofNat (s.srefs.copy h).live
  rw [SharedPtrs.live_copy]
  exact hs

theorem Counted.destroySRef (hs : s.Counted) (block : Nat) : (s.destroySRef block).Counted := by
  rw [Counted, destroySRef_srefs]
  by_cases hlast : s.srefs.useCount block = 1
  · have hlive := s.srefs.live_destroy_last hlast
    rw [(destroySRef_last hlast).1, hs, ← hlive, ofNat_succ_sub_one]
  · rw [(destroySRef_shared hlast).1, SharedPtrs.live_destroy_shared _ hlast]
    exact hs

theorem Counted.acquireComponentRef (hs : s.Counted) : s.acquireComponentRef.Counted := by
  rw [acquireComponentRef_eq]
  show s.usageRefCount + 1 = UInt32.ofNat s.srefs.make.live
  rw [SharedPtrs.live_make, UInt32.ofNat_add, hs]
  rfl

/-- The block made first keeps its number apart. -/
theorem useCount_makeSRef (h : old ∈ s.srefs.refs) :
    s.makeSRef.srefs.useCount old = s.srefs.useCount old := by
  have hne : old ≠ s.srefs.next := Nat.ne_of_lt (s.srefs.fresh old h)
  exact Function.update_of_ne hne 1 s.srefs.useCount

theorem Counted.acquireComponentRefInto (hs : s.Counted) (h : old ∈ s.srefs.refs) :
    (s.acquireComponentRefInto h).Counted := by
  rw [acquireComponentRefInto_eq]
  show (s.makeSRef.destroySRef old).usageRefCount + 1 =
    UInt32.ofNat (s.makeSRef.destroySRef old).srefs.live
  have hmake : s.makeSRef.srefs.live = s.srefs.live + 1 := s.srefs.live_make
  rw [destroySRef_srefs]
  by_cases hlast : s.makeSRef.srefs.useCount old = 1
  · have hlive := s.makeSRef.srefs.live_destroy_last hlast
    have hsame : (s.makeSRef.srefs.destroy old).live = s.srefs.live := by omega
    rw [(destroySRef_last hlast).1, hsame]
    show s.usageRefCount - 1 + 1 = _
    rw [UInt32.sub_add_cancel]
    exact hs
  · rw [(destroySRef_shared hlast).1, SharedPtrs.live_destroy_shared _ hlast, hmake,
      UInt32.ofNat_add]
    show s.usageRefCount + 1 = _
    rw [hs]
    rfl

/-! ## Unloading -/

/-- The step calls `unloadComponent` if it destroys the last `SRef`, once and
with no `SRef` alive, and not otherwise. -/
def Unloads (s s1 : ComponentRefs I) : Prop :=
  s1.unloads = s.unloads ++ if s.srefs.refs ≠ [] ∧ s1.srefs.refs = [] then [0] else []

theorem unloads_of_alive (hunloads : s1.unloads = s.unloads) (halive : s1.srefs.refs ≠ []) :
    Unloads s s1 := by
  rw [Unloads, hunloads, if_neg fun h => halive h.2, List.append_nil]

theorem Counted.unloads_destroySRef (hs : s.Counted) (hlive : s.srefs.live < 2 ^ 32)
    (h : block ∈ s.srefs.refs) : Unloads s (s.destroySRef block) := by
  have hne : s.srefs.refs ≠ [] := List.ne_nil_of_mem h
  rw [Unloads, destroySRef_srefs]
  by_cases hlast : s.srefs.useCount block = 1
  · have hdrop := s.srefs.live_destroy_last hlast
    have hzero : s.usageRefCount - 1 = 0 ↔ s.srefs.refs.erase block = [] := by
      rw [hs, ← hdrop, ofNat_succ_sub_one, ofNat_eq_zero (by omega), SharedPtrs.live_eq_zero]
      rfl
    rw [(destroySRef_last hlast).2]
    by_cases hnil : s.srefs.refs.erase block = []
    · rw [if_pos (hzero.mpr hnil), if_pos ⟨hne, hnil⟩, hnil]
      rfl
    · rw [if_neg fun hcount => hnil (hzero.mp hcount), if_neg fun hboth => hnil hboth.2]
  · have halive : (s.srefs.destroy block).refs ≠ [] := by
      rw [SharedPtrs.counts] at hlast
      have hpos := List.count_pos_iff.mpr h
      have hcount : 0 < (s.srefs.refs.erase block).count block := by
        rw [List.count_erase_self]
        omega
      exact List.ne_nil_of_mem (List.count_pos_iff.mp hcount)
    rw [(destroySRef_shared hlast).2, if_neg fun hboth => halive hboth.2, List.append_nil]

theorem unloads_acquireComponentRef (s : ComponentRefs I) : Unloads s s.acquireComponentRef := by
  rw [acquireComponentRef_eq]
  exact unloads_of_alive rfl (List.cons_ne_nil _ _)

/-- The only block of the component, and its only `SRef`. -/
theorem refs_eq_singleton_iff (h : old ∈ s.srefs.refs) :
    s.srefs.refs = [old] ↔ s.srefs.live = 1 ∧ s.srefs.useCount old = 1 := by
  rw [SharedPtrs.counts]
  constructor
  · intro hrefs
    have hlast : s.srefs.useCount old = 1 := by
      rw [SharedPtrs.counts, hrefs]
      simp
    have hdrop := s.srefs.live_destroy_last hlast
    have hnone : (s.srefs.destroy old).live = 0 := by
      rw [SharedPtrs.live_eq_zero]
      show s.srefs.refs.erase old = []
      rw [hrefs]
      simp
    rw [hrefs]
    exact ⟨by omega, by simp⟩
  · rintro ⟨hlive, hcount⟩
    have hdrop := s.srefs.live_destroy_last ((s.srefs.counts old).trans hcount)
    have hnone : (s.srefs.destroy old).refs = [] := by
      rw [← SharedPtrs.live_eq_zero]
      omega
    have hperm : List.Perm s.srefs.refs (old :: s.srefs.refs.erase old) := List.perm_cons_erase h
    have hnil : s.srefs.refs.erase old = [] := hnone
    rw [hnil] at hperm
    exact List.perm_singleton.mp hperm

theorem Counted.unloads_acquireComponentRefInto (hs : s.Counted) (hlive : s.srefs.live < 2 ^ 32)
    (h : old ∈ s.srefs.refs) (hnotLast : s.srefs.refs ≠ [old]) :
    Unloads s (s.acquireComponentRefInto h) := by
  rw [acquireComponentRefInto_eq]
  refine unloads_of_alive ?_ (List.ne_nil_of_mem (s.next_mem_makeSRef h))
  show (s.makeSRef.destroySRef old).unloads = s.unloads
  by_cases hlast : s.makeSRef.srefs.useCount old = 1
  · have hzero : ¬ s.makeSRef.usageRefCount - 1 = 0 := by
      have hdrop := s.srefs.live_destroy_last ((useCount_makeSRef h).symm.trans hlast)
      show ¬ s.usageRefCount - 1 = 0
      rw [hs, ← hdrop, ofNat_succ_sub_one, ofNat_eq_zero (by omega)]
      intro hnone
      refine hnotLast ((refs_eq_singleton_iff h).mpr ⟨by omega, ?_⟩)
      exact (useCount_makeSRef h).symm.trans hlast
    rw [(destroySRef_last hlast).2, if_neg hzero, List.append_nil]
    rfl
  · rw [(destroySRef_shared hlast).2]
    rfl

/-- The reference is the only one: the component is unloaded while the new
reference is alive. -/
theorem Counted.acquireComponentRefInto_last (hs : s.Counted) (h : old ∈ s.srefs.refs)
    (hrefs : s.srefs.refs = [old]) : (s.acquireComponentRefInto h).unloads = s.unloads ++ [1] := by
  obtain ⟨hlive, hcount⟩ := (refs_eq_singleton_iff h).mp hrefs
  have hzero : s.makeSRef.usageRefCount - 1 = 0 := by
    show s.usageRefCount - 1 = 0
    rw [hs, hlive]
    rfl
  have hlength : (s.makeSRef.srefs.refs.erase old).length = 1 := by
    have hmem : old ∈ s.makeSRef.srefs.refs := List.mem_cons_of_mem _ h
    rw [List.length_erase_of_mem hmem]
    show (s.srefs.next :: s.srefs.refs).length - 1 = 1
    rw [hrefs]
    rfl
  rw [acquireComponentRefInto_eq]
  show (s.makeSRef.destroySRef old).unloads = _
  rw [(destroySRef_last ((useCount_makeSRef h).trans hcount)).2, if_pos hzero, hlength]
  rfl

/-- A step from fewer than 2^32 control blocks, which does not acquire a
reference into the only `SRef` of the component. -/
def meets (s : ComponentRefs I) (op : RefOperation I) : Bool :=
  s.srefs.live < 2 ^ 32 &&
    match op with
    | .acquireComponentRefInto old => s.srefs.refs ≠ [old]
    | _ => true

def Meets (s : ComponentRefs I) (op : RefOperation I) : Prop :=
  meets s op = true

theorem Meets.live {op : RefOperation I} (h : Meets s op) : s.srefs.live < 2 ^ 32 := by
  simpa using (Bool.and_eq_true_iff.mp h).1

theorem Meets.notLast (h : Meets s (.acquireComponentRefInto old)) : s.srefs.refs ≠ [old] := by
  simpa using (Bool.and_eq_true_iff.mp h).2

variable [DecidableEq I] {traits : I → Uuid}

theorem Counted.afterCall (hs : s.Counted) (interface : I) (interfaceUUID : Uuid) :
    (s.afterCall (s.queryInterface interface interfaceUUID)).Counted ∧
      Unloads s (s.afterCall (s.queryInterface interface interfaceUUID)) := by
  have hthrows : Unloads s s := by
    rw [Unloads, if_neg fun h => h.1 h.2, List.append_nil]
  unfold queryInterface
  split
  · exact ⟨hs, hthrows⟩
  · split
    · exact ⟨hs.acquireComponentRef, unloads_acquireComponentRef s⟩
    · exact ⟨hs, hthrows⟩

theorem Counted.step {op : RefOperation I} (hs : s.Counted) (hop : Meets s op)
    (hstep : step traits s op = some s1) : s1.Counted ∧ Unloads s s1 := by
  cases op with
  | acquireComponentRef =>
    cases hstep
    exact ⟨hs.acquireComponentRef, unloads_acquireComponentRef s⟩
  | acquireComponentRefInto old =>
    obtain ⟨h, heq⟩ := Option.dite_none_right_eq_some.mp hstep
    cases heq
    exact ⟨hs.acquireComponentRefInto h,
      hs.unloads_acquireComponentRefInto hop.live h hop.notLast⟩
  | queryInterface interface interfaceUUID =>
    cases hstep
    exact hs.afterCall interface interfaceUUID
  | bindTo interface =>
    cases hstep
    exact hs.afterCall interface (traits interface)
  | copy block =>
    obtain ⟨h, heq⟩ := Option.dite_none_right_eq_some.mp hstep
    cases heq
    exact ⟨hs.copySRef h, unloads_of_alive rfl (List.cons_ne_nil _ _)⟩
  | destroy block =>
    obtain ⟨h, heq⟩ := Option.ite_none_right_eq_some.mp hstep
    cases heq
    exact ⟨hs.destroySRef block, hs.unloads_destroySRef hop.live h⟩
  | assign block old =>
    obtain ⟨⟨h, hold⟩, heq⟩ := Option.dite_none_right_eq_some.mp hstep
    cases heq
    have hcopy := hs.copySRef h
    have hlive : (s.copySRef h).srefs.live < 2 ^ 32 := by
      show (s.srefs.copy h).live < 2 ^ 32
      rw [SharedPtrs.live_copy]
      exact hop.live
    have hdestroy := hcopy.unloads_destroySRef hlive (List.mem_cons_of_mem block hold)
    refine ⟨hcopy.destroySRef old, ?_⟩
    rw [Unloads, hdestroy]
    have hcopied : (s.copySRef h).srefs.refs ≠ [] := List.cons_ne_nil _ _
    show s.unloads ++ _ = _
    simp only [ne_eq, hcopied, List.ne_nil_of_mem h]

/-- The counter is the number of live control blocks, and the component is
unloaded when its last `SRef` is destroyed, once and never before, in the runs
without `acquireComponentRef` into the only `SRef`; which unloads the component
while that `SRef` is alive. -/
theorem usage_count_is_live_blocks (componentUUID : Uuid) (interfaces : Uuid → Option I)
    (h : Runs (ComponentRefs.step traits) Meets (new componentUUID interfaces) s)
    (hlive : s.srefs.live < 2 ^ 32) :
    s.usageRefCount.toNat = s.srefs.live ∧ (∀ alive ∈ s.unloads, alive = 0) ∧
    (∀ op s1, Meets s op → ComponentRefs.step traits s op = some s1 →
      s1.unloads = s.unloads ++ if s.srefs.refs ≠ [] ∧ s1.srefs.refs = [] then [0] else []) ∧
    ∀ old s1, s.srefs.refs = [old] →
      ComponentRefs.step traits s (.acquireComponentRefInto old) = some s1 →
        s1.unloads = s.unloads ++ [1] := by
  have hkept : s.Counted ∧ ∀ alive ∈ s.unloads, alive = 0 := by
    refine h.invariant (P := fun s => s.Counted ∧ ∀ alive ∈ s.unloads, alive = 0) ?_
      ⟨rfl, nofun⟩
    rintro s op s1 ⟨hs, hzero⟩ hop hstep
    obtain ⟨hs1, hunloads⟩ := hs.step hop hstep
    refine ⟨hs1, fun alive hmem => ?_⟩
    rw [hunloads] at hmem
    rcases List.mem_append.mp hmem with hold | hnew
    · exact hzero alive hold
    · split at hnew
      · exact List.mem_singleton.mp hnew
      · cases hnew
  obtain ⟨hs, hzero⟩ := hkept
  refine ⟨?_, hzero, fun op s1 hop hstep => (hs.step hop hstep).2, ?_⟩
  · rw [hs, UInt32.toNat_ofNat_of_lt' hlive]
  · intro old s1 hrefs hstep
    obtain ⟨hold, heq⟩ := Option.dite_none_right_eq_some.mp hstep
    cases heq
    exact hs.acquireComponentRefInto_last hold hrefs

def queriedOperations : List (RefOperation Unit) :=
  [.acquireComponentRef, .bindTo (), .copy 1, .acquireComponentRefInto 0, .destroy 1, .destroy 2,
    .destroy 1]

def oneInterface (interfaceUUID : Uuid) : Option Unit :=
  if interfaceUUID = 1 then some () else none

/-- All the references to a component with one interface have been destroyed. -/
def queried : ComponentRefs Unit :=
  (runs (ComponentRefs.step fun _ => 1) meets (new 0 oneInterface) queriedOperations).getD
    (new 0 oneInterface)

theorem usage_count_is_live_blocks_queried :
    queried.unloads = [0] ∧ queried.usageRefCount.toNat = queried.srefs.live ∧
      ∀ alive ∈ queried.unloads, alive = 0 := by
  have hruns : runs (ComponentRefs.step fun _ => 1) meets (new 0 oneInterface) queriedOperations =
      some queried := rfl
  have hresult := usage_count_is_live_blocks 0 oneInterface (.of_runs hruns) (by decide)
  exact ⟨rfl, hresult.1, hresult.2.1⟩

/-- The only reference to a component is acquired again into its own `SRef`. -/
theorem unloaded_with_live_reference :
    ∃ s : ComponentRefs Unit,
      Runs (ComponentRefs.step fun _ => 1) (fun s _ => s.srefs.live < 2 ^ 32)
        (new 0 oneInterface) s ∧ s.srefs.refs = [1] ∧ s.unloads = [1] := by
  have hruns : ∃ s : ComponentRefs Unit,
      runs (ComponentRefs.step fun _ => 1) (fun s _ => s.srefs.live < 2 ^ 32) (new 0 oneInterface)
        [.acquireComponentRef, .acquireComponentRefInto 0] = some s ∧ s.srefs.refs = [1] ∧
          s.unloads = [1] := ⟨_, rfl, rfl, rfl⟩
  obtain ⟨s, hs, hrefs, hunloads⟩ := hruns
  refine ⟨s, (Runs.of_runs hs).weaken (P := fun _ => True) ?_ trivial, hrefs, hunloads⟩
  intro s op s1 _ hallowed _
  exact ⟨trivial, of_decide_eq_true hallowed⟩

end ComponentRefs

end Xpcf
