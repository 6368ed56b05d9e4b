import Xpcf.Model.PropertyCopies
import Xpcf.Proofs.PropertyItems

/-!
# What `setProperty` does to a property

`copyItems` stores the items of the source one after the other, as long as each can
be read and stored (`copyItems_ok_iff`, `copyItems_throws_iff`).  `setProperty`
returns `_SUCCESS` whenever `copyTo` returns, and `copyTo` has no case for the
64-bit integers and for `double`.

* `setsOrRefuses_iff`: the properties with which `setProperty` either changes
  nothing and throws, or leaves the values of its argument.
-/

namespace Xpcf

open CodeLib CodeLib.Exec

variable {R : Type}

/-! ## Setters and getters of a wrapper -/

/-- The setter takes the index: that of a single text does not look at it. -/
def Wrapped.Takes {α : Type} (text : Prop) (i : Nat) : Wrapped α → Prop
  | .single _ => i = 0 ∨ text
  | .sequence vs => i < vs.length

section Wrapped

variable {t : ItemType} {w : Wrapped (t.Item R)} {i : Nat}

theorem Wrapped.takes_put {α : Type} {text : Prop} {i j : Nat} {v : α} {w : Wrapped α} :
    (w.put j v).Takes text i ↔ w.Takes text i := by
  cases w with
  | single w => rfl
  | sequence vs =>
    show i < (vs.set j v).length ↔ i < vs.length
    rw [List.length_set]

theorem Wrapped.takes_putAll {α : Type} {text : Prop} {i j : Nat} {vs : List α} {w : Wrapped α} :
    (w.putAll j vs).Takes text i ↔ w.Takes text i := by
  induction vs generalizing j w with
  | nil => rfl
  | cons v vs ih =>
    rw [putAll, ih]
    exact takes_put

theorem setValue_of_takes {α : Type} {i : Nat} {w : Wrapped α} (h : w.Takes False i) (v : α) :
    setValue i v w = (.ok (), w.put i v) := by
  apply Wrapped.setValue_inside
  cases w with
  | single w =>
    show i < 1
    simp only [Wrapped.Takes, or_false] at h
    omega
  | sequence vs => exact h

theorem setValue_of_not_takes {α : Type} {i : Nat} {w : Wrapped α} (h : ¬ w.Takes False i)
    (v : α) : ∃ e, setValue i v w = (.throws e, w) := by
  cases w with
  | single w =>
    simp only [Wrapped.Takes, or_false] at h
    exact ⟨_, if_pos (by omega)⟩
  | sequence vs => exact ⟨_, if_neg h⟩

theorem setStringValue_of_takes {i : Nat} {w : Wrapped String} (h : w.Takes True i) (v : String) :
    setStringValue i v w = (.ok (), w.put i v) := by
  cases w with
  | single w => rfl
  | sequence vs => exact setStringValue_inside h v

theorem setStringValue_of_not_takes {i : Nat} {w : Wrapped String} (h : ¬ w.Takes True i)
    (v : String) : ∃ e, setStringValue i v w = (.throws e, w) := by
  cases w with
  | single w => exact absurd (.inr trivial) h
  | sequence vs => exact ⟨_, if_neg h⟩

theorem Wrapped.takes_congr {α : Type} {text text1 : Prop} {w : Wrapped α}
    (h : text ↔ text1) : w.Takes text i ↔ w.Takes text1 i := by
  rw [propext h]

theorem setItemAt_of_takes (h : w.Takes t.IsText i) (v : t.Item R) :
    Wrapped.setItemAt t i v w = (.ok (), w.put i v) := by
  by_cases ht : t.IsText
  · have htrue := (Wrapped.takes_congr (iff_true_intro ht)).mp h
    cases ht with
    | inl ht => subst ht; exact setStringValue_of_takes htrue v
    | inr ht => subst ht; exact setStringValue_of_takes htrue v
  · have hset := setValue_of_takes ((Wrapped.takes_congr (iff_false_intro ht)).mp h) v
    cases t with
    | value type =>
      cases type with
      | charStr => exact absurd (.inl rfl) ht
      | unicodeStr => exact absurd (.inr rfl) ht
      | _ => exact hset
    | struct => exact hset

theorem setItemAt_of_not_takes (h : ¬ w.Takes t.IsText i) (v : t.Item R) :
    ∃ e, Wrapped.setItemAt t i v w = (.throws e, w) := by
  by_cases ht : t.IsText
  · have htrue := (not_congr (Wrapped.takes_congr (iff_true_intro ht))).mp h
    cases ht with
    | inl ht => subst ht; exact setStringValue_of_not_takes htrue v
    | inr ht => subst ht; exact setStringValue_of_not_takes htrue v
  · have hset := setValue_of_not_takes
      ((not_congr (Wrapped.takes_congr (iff_false_intro ht))).mp h) v
    cases t with
    | value type =>
      cases type with
      | charStr => exact absurd (.inl rfl) ht
      | unicodeStr => exact absurd (.inr rfl) ht
      | _ => exact hset
    | struct => exact hset

/-- A pointer that leads to no text is refused with the index, or ends the call without
an outcome. -/
theorem setLost_of_not_takes {α : Type} {i : Nat} {w : Wrapped α} (h : ¬ w.Takes True i) :
    ∃ e, Wrapped.setLost i w = (.throws e, w) := by
  cases w with
  | single w => exact absurd (.inr trivial) h
  | sequence vs => exact ⟨_, if_neg h⟩

theorem setLost_of_takes {α : Type} {i : Nat} {w : Wrapped α} (h : w.Takes True i) :
    Wrapped.setLost i w = (.undefined, w) := by
  cases w with
  | single w => rfl
  | sequence vs => exact if_pos h

end Wrapped

/-! ## The loop over the items -/

namespace Source

variable {p : Source R} {t : ItemType} {w w1 : Wrapped (t.Item R)} {i : Nat}

theorem copyItem_item {v : t.Item R} (h : p.read t i = .ok (.item v)) :
    p.copyItem t i t = Wrapped.setItemAt t i v := by
  unfold copyItem
  rw [h]
  exact dif_pos rfl

theorem copyItem_lost (h : p.read t i = .ok .lost) : p.copyItem t i t = Wrapped.setLost i := by
  unfold copyItem
  rw [h]
  exact if_pos rfl

theorem copyItem_error {e : Exc} (h : p.read t i = .error e) : p.copyItem t i t = throw e := by
  unfold copyItem
  rw [h]

theorem copyItem_ok_iff :
    p.copyItem t i t w = (.ok (), w1) ↔
      ∃ v, p.read t i = .ok (.item v) ∧ w.Takes t.IsText i ∧ w1 = w.put i v := by
  cases hread : p.read t i with
  | error e =>
    rw [copyItem_error hread]
    exact ⟨nofun, nofun⟩
  | ok reading =>
    cases reading with
    | item v =>
      rw [copyItem_item hread]
      by_cases htakes : w.Takes t.IsText i
      · rw [setItemAt_of_takes htakes v]
        constructor
        · intro h
          exact ⟨v, rfl, htakes, (Prod.mk.inj h).2.symm⟩
        · rintro ⟨u, hu, -, rfl⟩
          cases hu
          rfl
      · obtain ⟨e, hset⟩ := setItemAt_of_not_takes htakes v
        rw [hset]
        exact ⟨nofun, fun ⟨_, _, h, _⟩ => absurd h htakes⟩
    | lost =>
      rw [copyItem_lost hread]
      refine ⟨fun h => ?_, nofun⟩
      by_cases htakes : w.Takes True i
      · rw [setLost_of_takes htakes] at h
        cases h
      · obtain ⟨e, hset⟩ := setLost_of_not_takes htakes
        rw [hset] at h
        cases h

/-- The step at the index throws: the getter does, or the setter refuses the index. -/
def StepThrows (p : Source R) (t : ItemType) (i : Nat) (w : Wrapped (t.Item R)) : Prop :=
  match p.read t i with
  | .error _ => True
  | .ok (.item _) => ¬ w.Takes t.IsText i
  | .ok .lost => ¬ w.Takes True i

theorem exists_throws_iff {α : Type} {e : Exc} :
    (∃ e1, ((.throws e, w) : Outcome Exc α × Wrapped (t.Item R)) = (.throws e1, w1)) ↔ w1 = w := by
  constructor
  · rintro ⟨e1, h⟩
    exact (Prod.mk.inj h).2.symm
  · rintro rfl
    exact ⟨e, rfl⟩

theorem copyItem_throws_iff :
    (∃ e, p.copyItem t i t w = (.throws e, w1)) ↔ p.StepThrows t i w ∧ w1 = w := by
  unfold StepThrows
  cases hread : p.read t i with
  | error e =>
    rw [copyItem_error hread]
    exact exists_throws_iff.trans (and_iff_right trivial).symm
  | ok reading =>
    cases reading with
    | item v =>
      rw [copyItem_item hread]
      by_cases htakes : w.Takes t.IsText i
      · rw [setItemAt_of_takes htakes v]
        exact ⟨fun ⟨_, h⟩ => (nomatch h), fun h => absurd htakes h.1⟩
      · obtain ⟨e, hset⟩ := setItemAt_of_not_takes htakes v
        rw [hset, exists_throws_iff]
        exact (and_iff_right htakes).symm
    | lost =>
      rw [copyItem_lost hread]
      by_cases htakes : w.Takes True i
      · rw [setLost_of_takes htakes]
        exact ⟨fun ⟨_, h⟩ => (nomatch h), fun h => absurd htakes h.1⟩
      · obtain ⟨e, hset⟩ := setLost_of_not_takes htakes
        rw [hset, exists_throws_iff]
        exact (and_iff_right htakes).symm

/-- The first items of the source. -/
def Reads (p : Source R) (t : ItemType) (items : List (t.Item R)) : Prop :=
  ∀ i v, items[i]? = some v → p.read t i = .ok (.item v)

theorem Reads.concat {items : List (t.Item R)} {v : t.Item R} (h : p.Reads t items)
    (hv : p.read t items.length = .ok (.item v)) : p.Reads t (items ++ [v]) := by
  intro i u hu
  by_cases hi : i < items.length
  · rw [List.getElem?_append_left hi] at hu
    exact h i u hu
  · have hlast : i = items.length := by
      have hlength := (List.getElem?_eq_some_iff.mp hu).1
      simp at hlength
      omega
    subst hlast
    rw [List.getElem?_concat_length] at hu
    rwa [← Option.some.inj hu]

theorem Reads.front {before after : List (t.Item R)} (h : p.Reads t (before ++ after)) :
    p.Reads t before := by
  intro i v hv
  apply h i v
  rw [List.getElem?_append_left (List.getElem?_eq_some_iff.mp hv).1, hv]

/-- The first `k` steps store the first `k` items. -/
theorem copyPrefix_ok_iff {k : Nat} :
    forEach (fun i => p.copyItem t i t) (List.range k) w = (.ok (), w1) ↔
      ∃ items, items.length = k ∧ p.Reads t items ∧ (∀ i < k, w.Takes t.IsText i) ∧
        w1 = w.putAll 0 items := by
  induction k generalizing w1 with
  | zero =>
    constructor
    · intro h
      exact ⟨[], rfl, nofun, nofun, (Prod.mk.inj h).2.symm⟩
    · rintro ⟨items, hlength, -, -, rfl⟩
      rw [List.length_eq_zero_iff.mp hlength]
      rfl
  | succ k ih =>
    constructor
    · intro h
      have hsplit := h
      rw [List.range_succ, forEach_append] at hsplit
      obtain ⟨_, w2, hfront, -⟩ := bind_ok_iff.mp hsplit
      rw [forEach_range_succ hfront] at h
      obtain ⟨items, hlength, hreads, htakes, rfl⟩ := ih.mp hfront
      obtain ⟨v, hread, hlast, rfl⟩ := copyItem_ok_iff.mp h
      rw [Wrapped.takes_putAll] at hlast
      refine ⟨items ++ [v], by simp [hlength], hreads.concat (hlength ▸ hread), ?_, ?_⟩
      · intro i hi
        by_cases hik : i = k
        · exact hik ▸ hlast
        · exact htakes i (by omega)
      · rw [Wrapped.putAll_concat, hlength, Nat.zero_add]
    · rintro ⟨items, hlength, hreads, htakes, rfl⟩
      have hne : items ≠ [] := by
        intro hnil
        rw [hnil] at hlength
        cases hlength
      obtain ⟨before, v, rfl⟩ := (List.eq_nil_or_concat items).resolve_left hne
      simp only [List.concat_eq_append] at hlength hreads ⊢
      have hbefore : before.length = k := by simpa using hlength
      have hfront := ih.mpr ⟨before, hbefore, hreads.front, fun i hi => htakes i (by omega), rfl⟩
      rw [forEach_range_succ hfront, copyItem_ok_iff]
      refine ⟨v, hreads k v (by simp [← hbefore]), ?_, ?_⟩
      · rw [Wrapped.takes_putAll]
        exact htakes k (by omega)
      · rw [Wrapped.putAll_concat, hbefore, Nat.zero_add]

/-- The loop returns when there are fewer than `2^32` items, and all of them can be read
and stored. -/
theorem copyItems_ok_iff :
    p.copyItems t t w = (.ok (), w1) ↔
      p.count < 2 ^ 32 ∧ ∃ items, items.length = p.count ∧ p.Reads t items ∧
        (∀ i < p.count, w.Takes t.IsText i) ∧ w1 = w.putAll 0 items := by
  unfold copyItems
  rw [bind_ok_iff]
  by_cases hcount : p.count < 2 ^ 32
  · simp only [hcount, if_true, true_and, ← copyPrefix_ok_iff]
    rw [Nat.min_eq_left (by omega)]
    constructor
    · rintro ⟨_, w2, hloop, hend⟩
      cases hend
      exact hloop
    · intro hloop
      exact ⟨(), w1, hloop, rfl⟩
  · simp only [hcount, if_false, false_and, iff_false]
    rintro ⟨_, w2, -, hend⟩
    cases hend

/-- The loop throws at the first item that cannot be read or stored, with the items
before it stored. -/
theorem copyItems_throws_iff :
    (∃ e, p.copyItems t t w = (.throws e, w1)) ↔
      ∃ items, items.length < min p.count (2 ^ 32) ∧ p.Reads t items ∧
        (∀ i < items.length, w.Takes t.IsText i) ∧
        p.StepThrows t items.length (w.putAll 0 items) ∧ w1 = w.putAll 0 items := by
  unfold copyItems
  constructor
  · rintro ⟨e, h⟩
    rcases forEach_range_cases (fun i => p.copyItem t i t) (min p.count (2 ^ 32)) w with
      ⟨w2, hloop⟩ | ⟨k, w2, hk, hfront, hstop⟩
    · rw [bind_run_of_ok hloop] at h
      split at h <;> cases h
    · rw [bind_run, forEach_range_of_stop hk hfront hstop] at h
      obtain ⟨items, rfl, hreads, htakes, rfl⟩ := copyPrefix_ok_iff.mp hfront
      have hthrows : ∃ e, p.copyItem t items.length t (w.putAll 0 items) = (.throws e, w1) := by
        rcases hrun : p.copyItem t items.length t (w.putAll 0 items) with ⟨_ | e1 | _ | _, w3⟩
        · rw [hrun] at hstop
          exact absurd rfl hstop
        · rw [hrun] at h
          cases h
          exact ⟨e, rfl⟩
        · rw [hrun] at h
          cases h
        · rw [hrun] at h
          cases h
      obtain ⟨hstep, hw1⟩ := copyItem_throws_iff.mp hthrows
      exact ⟨items, hk, hreads, htakes, hstep, hw1⟩
  · rintro ⟨items, hk, hreads, htakes, hstep, rfl⟩
    have hfront := copyPrefix_ok_iff.mpr ⟨items, rfl, hreads, htakes, rfl⟩
    obtain ⟨e, hrun⟩ := copyItem_throws_iff.mpr ⟨hstep, rfl⟩
    have hstop : (p.copyItem t items.length t (w.putAll 0 items)).1 ≠ .ok () := by
      rw [hrun]
      exact nofun
    refine ⟨e, ?_⟩
    rw [bind_run, forEach_range_of_stop hk hfront hstop, hrun]

end Source

/-! ## `setProperty` -/

/-- The stored property once `copyTo` called `setProperties`, which refuses an empty
name. -/
def WrapperProperty.renamed (stored : WrapperProperty R) (p : Source R) : WrapperProperty R where
  name := if p.name = "" then stored.name else p.name
  type := stored.type
  wrapped :=
    if p.name = "" then stored.wrapped else stored.wrapped.resize stored.type.default p.size
  access := if p.name = "" then stored.access else p.access

/-- The stored property with other values. -/
def WrapperProperty.withWrapped (stored : WrapperProperty R)
    (wrapped : Wrapped (stored.type.Item R)) : WrapperProperty R :=
  { stored with wrapped := wrapped }

/-- The call throws and the map is what it was, or it returns `_SUCCESS` and the property
of that name has the size and the values of the argument. -/
def SetsOrRefuses (map : WrapperMap R) (p : Source R) : Prop :=
  (∃ e, setProperty (some p) map = (.throws e, map)) ∨
    ∃ map1 stored, setProperty (some p) map = (.ok .success, map1) ∧
      map1 p.name = some stored ∧ stored.size = p.size ∧
      ∀ i < p.size, stored.read stored.type i = p.read stored.type i

/-- Every item of the argument can be read, and the index of the loop counts them. -/
def Source.Complete (p : Source R) (t : ItemType) : Prop :=
  p.count < 2 ^ 32 ∧ ∀ i < p.count, ∃ v, p.read t i = .ok (.item v)

/-- The copy stops after the items, because the next one cannot be read or stored, and
they are what the stored property holds already, with the name and the access specifier
of the argument. -/
structure StopsUnchanged (p : Source R) (stored : WrapperProperty R)
    (items : List (stored.type.Item R)) : Prop where
  length : items.length < min p.count (2 ^ 32)
  reads : p.Reads stored.type items
  takes : ∀ i < items.length, (stored.renamed p).wrapped.Takes stored.type.IsText i
  stops : p.StepThrows stored.type items.length ((stored.renamed p).wrapped.putAll 0 items)
  unchanged : (stored.renamed p).withWrapped ((stored.renamed p).wrapped.putAll 0 items) = stored

/-- What the stored property and the argument have to be once the checks are passed: of a
type that `copyTo` has a case for and readable to the last item, or equal already as far
as they are copied. -/
def CopyAgrees (map : WrapperMap R) (p : Source R) : Prop :=
  ∀ stored, map p.name = some stored → stored.access ≠ .out → stored.size = p.size →
    p.type = some stored.type →
    if Source.isCopied stored.type then
      p.Complete stored.type ∨ ∃ items, StopsUnchanged p stored items
    else ∀ i < p.size, stored.read stored.type i = p.read stored.type i

section Stored

variable {map : WrapperMap R} {p : Source R} {stored : WrapperProperty R}

theorem setProperties_run (hsize : stored.size = p.size) :
    ∃ code, WrapperProperty.setProperties p.name p.size p.access stored =
      (.ok code, stored.renamed p) := by
  rcases stored with ⟨name, type, wrapped, access⟩
  unfold WrapperProperty.setProperties WrapperProperty.renamed
  by_cases hname : p.name = ""
  · simp only [hname, if_true]
    exact ⟨_, rfl⟩
  · simp only [hname, if_false]
    cases wrapped with
    | single v =>
      have hone : p.size = 1 := hsize.symm
      simp only [hone]
      exact ⟨_, rfl⟩
    | sequence vs => exact ⟨_, rfl⟩

theorem copyTo_run_of_copied (hsize : stored.size = p.size) (htype : p.type = some stored.type)
    (hcopied : Source.isCopied stored.type = true) :
    (p.copyTo >>= fun _ => pure XPCFErrorCode.success) stored =
      let run := p.copyItems stored.type stored.type (stored.renamed p).wrapped
      ((match run.1 with
        | .ok _ => .ok .success
        | .throws e => .throws e
        | .diverges => .diverges
        | .undefined => .undefined), (stored.renamed p).withWrapped run.2) := by
  obtain ⟨code, hrename⟩ := setProperties_run hsize
  unfold Source.copyTo
  rw [bind_assoc, bind_run_of_ok hrename, htype]
  simp only [hcopied, if_true, bind_assoc]
  have hloop : WrapperProperty.onWrapped (fun type => p.copyItems stored.type type)
      (stored.renamed p) =
        ((p.copyItems stored.type stored.type (stored.renamed p).wrapped).1,
          (stored.renamed p).withWrapped
            (p.copyItems stored.type stored.type (stored.renamed p).wrapped).2) := rfl
  rw [bind_run, hloop]
  rcases p.copyItems stored.type stored.type (stored.renamed p).wrapped with
    ⟨_ | _ | _ | _, w1⟩ <;> rfl

theorem copyTo_run_of_not_copied (hsize : stored.size = p.size)
    (htype : p.type = some stored.type) (hcopied : Source.isCopied stored.type = false) :
    (p.copyTo >>= fun _ => pure XPCFErrorCode.success) stored =
      (.ok .success, stored.renamed p) := by
  obtain ⟨code, hrename⟩ := setProperties_run hsize
  unfold Source.copyTo
  rw [bind_assoc, bind_run_of_ok hrename, htype]
  simp only [hcopied]
  rfl

theorem checkedProperty_ok_iff :
    checkedProperty map p = .ok stored ↔
      map p.name = some stored ∧ stored.access ≠ .out ∧ stored.size = p.size ∧
        p.type = some stored.type := by
  unfold checkedProperty
  cases map p.name with
  | none => simp
  | some tmp =>
    by_cases haccess : tmp.access = .out
    · simp only [haccess, if_true, reduceCtorEq, Option.some.injEq, false_iff]
      rintro ⟨rfl, h, -⟩
      exact h haccess
    · by_cases hsize : tmp.size = p.size
      · by_cases htype : some tmp.type = p.type
        · simp only [haccess, hsize, htype, if_false, ne_eq, not_true_eq_false, Except.ok.injEq,
            Option.some.injEq]
          constructor
          · rintro rfl
            exact ⟨rfl, haccess, hsize, htype.symm⟩
          · rintro ⟨rfl, -⟩
            rfl
        · simp only [haccess, hsize, htype, if_false, ne_eq, not_true_eq_false, not_false_eq_true,
            if_true, reduceCtorEq, Option.some.injEq, false_iff]
          rintro ⟨rfl, -, -, h⟩
          exact htype h.symm
      · simp only [haccess, hsize, if_false, ne_eq, not_false_eq_true, if_true, reduceCtorEq,
          Option.some.injEq, false_iff]
        rintro ⟨rfl, -, h, -⟩
        exact hsize h

theorem setProperty_of_checked (h : checkedProperty map p = .ok stored) :
    setProperty (some p) map =
      (((p.copyTo >>= fun _ => pure XPCFErrorCode.success) stored).1,
        map.insert p.name ((p.copyTo >>= fun _ => pure XPCFErrorCode.success) stored).2) := by
  unfold setProperty
  simp only [h]

theorem setProperty_of_error {e : Exc} (h : checkedProperty map p = .error e) :
    setProperty (some p) map = (.throws e, map) := by
  unfold setProperty
  simp only [h]

theorem insert_eq_self_iff (hstored : map p.name = some stored) {stored1 : WrapperProperty R} :
    map.insert p.name stored1 = map ↔ stored1 = stored := by
  constructor
  · intro h
    have hname := congrFun h p.name
    rw [Table.insert_self, hstored] at hname
    exact Option.some.inj hname
  · rintro rfl
    funext name
    rw [Table.insert_apply]
    split
    · rename_i hname
      rw [hname, hstored]
    · rfl

/-- A resized wrapper takes the index of every item of the argument. -/
theorem takes_renamed (hsize : stored.size = p.size) (hcount : p.count < 2 ^ 32) {i : Nat}
    (hi : i < p.count) : (stored.renamed p).wrapped.Takes stored.type.IsText i := by
  have hp : p.size = p.count := Nat.mod_eq_of_lt hcount
  rcases stored with ⟨name, type, wrapped, access⟩
  cases wrapped with
  | single v =>
    have hone : p.size = 1 := hsize.symm
    have hsingle : (WrapperProperty.renamed ⟨name, type, .single v, access⟩ p).wrapped =
        .single v := by
      unfold WrapperProperty.renamed
      dsimp only
      split
      · rfl
      · rfl
    rw [hsingle]
    exact .inl (by omega)
  | sequence vs =>
    have hvs : vs.length % 2 ^ 32 = p.size := hsize
    unfold WrapperProperty.renamed
    dsimp only
    split
    · show i < vs.length
      omega
    · show i < (vs.take p.size ++ List.replicate (p.size - vs.length) _).length
      simp
      omega

theorem size_renamed (hsize : stored.size = p.size) : (stored.renamed p).size = p.size := by
  rcases stored with ⟨name, type, wrapped, access⟩
  unfold WrapperProperty.renamed WrapperProperty.size
  dsimp only
  split
  · exact hsize
  · cases wrapped with
    | single v => exact hsize
    | sequence vs =>
      have hvs : vs.length % 2 ^ 32 = p.size := hsize
      show (vs.take p.size ++ List.replicate (p.size - vs.length) _).length % 2 ^ 32 = p.size
      simp
      omega

theorem WrapperProperty.read_self (w : WrapperProperty R) (i : Nat) :
    w.read w.type i = (w.wrapped.getItem w.type i).map .item :=
  dif_pos rfl

/-- The values that a copy leaves are those that were read. -/
theorem item?_putAll {α : Type} {w : Wrapped α} {items : List α}
    (hlength : w.length % 2 ^ 32 = items.length) {i : Nat} (hi : i < items.length) :
    (w.putAll 0 items).item? i = items[i]? := by
  cases w with
  | single v =>
    have hone : 1 = items.length := hlength
    obtain ⟨u, rfl⟩ := List.length_eq_one_iff.mp hone.symm
    have hzero : i = 0 := by simpa using hi
    subst hzero
    rfl
  | sequence vs =>
    have hle : items.length ≤ vs.length := by
      have hvs : vs.length % 2 ^ 32 = items.length := hlength
      omega
    have hput : (Wrapped.sequence vs).putAll 0 items = .sequence (items ++ vs.drop items.length) :=
      @Wrapped.putAll_sequence α items [] vs hle
    rw [hput]
    exact List.getElem?_append_left hi

theorem getItem_of_item? {t : ItemType} {w : Wrapped (t.Item R)} {i : Nat} {v : t.Item R}
    (h : w.item? i = some v) : w.getItem t i = .ok (t.cStr v) := by
  have hvalue : (w.getValue i).map t.cStr = .ok (t.cStr v) := by
    cases w with
    | single u =>
      simp only [Wrapped.item?] at h
      split at h
      · rename_i hzero
        rw [← Option.some.inj h, hzero]
        rfl
      · cases h
    | sequence vs =>
      have hvs : vs[i]? = some v := h
      simp only [Wrapped.getValue, hvs]
      rfl
  cases t with
  | value type => exact hvalue
  | struct =>
    cases w with
    | single u =>
      simp only [Wrapped.item?] at h
      split at h
      · exact congrArg Except.ok (Option.some.inj h)
      · cases h
    | sequence vs => exact hvalue

theorem item?_resize {α : Type} {zero : α} {n i : Nat} {w : Wrapped α} (hn : i < n)
    (hi : i < w.length) : (w.resize zero n).item? i = w.item? i := by
  cases w with
  | single v => rfl
  | sequence vs =>
    have hvs : i < vs.length := hi
    show (vs.take n ++ List.replicate (n - vs.length) zero)[i]? = vs[i]?
    rw [List.getElem?_append_left (by simp; omega), List.getElem?_take_of_lt hn]

/-- The new name and size leave the first values alone. -/
theorem read_renamed {i : Nat} (hstored : i < stored.size) (hi : i < p.size) :
    (stored.renamed p).read stored.type i = stored.read stored.type i := by
  have hlt : i < stored.wrapped.length := lt_of_lt_of_le hstored (Nat.mod_le _ _)
  obtain ⟨v, hv⟩ := Wrapped.item?_of_lt hlt
  have hrenamed : (stored.renamed p).wrapped.item? i = some v := by
    unfold WrapperProperty.renamed
    dsimp only
    split
    · exact hv
    · rw [item?_resize hi hlt, hv]
  refine ((stored.renamed p).read_self i).trans ?_
  refine (congrArg (Except.map _) (getItem_of_item? (t := stored.type) hrenamed)).trans ?_
  rw [stored.read_self, getItem_of_item? hv]
  rfl

/-- A copied property has the values of the argument. -/
theorem read_of_items {w : Wrapped (stored.type.Item R)} {items : List (stored.type.Item R)}
    (hreads : p.Reads stored.type items) (hsize : w.length % 2 ^ 32 = items.length) {i : Nat}
    (hi : i < items.length) :
    (stored.withWrapped (w.putAll 0 items)).read stored.type i = p.read stored.type i := by
  have hv : items[i]? = some items[i] := List.getElem?_eq_getElem hi
  have hread := hreads i _ hv
  have hitem : (w.putAll 0 items).item? i = some items[i] := by
    rw [item?_putAll hsize hi, hv]
  refine ((stored.withWrapped (w.putAll 0 items)).read_self i).trans ?_
  show ((w.putAll 0 items).getItem stored.type i).map _ = _
  rw [getItem_of_item? hitem, hread, p.read_cStr _ _ _ hread]
  rfl

/-- The items of an argument that can be read to the last one. -/
theorem Source.Complete.exists_items {t : ItemType} (h : p.Complete t) :
    ∃ items, items.length = p.count ∧ p.Reads t items := by
  obtain ⟨-, hread⟩ := h
  choose f hf using hread
  refine ⟨List.ofFn fun i : Fin p.count => f i i.isLt, by simp, ?_⟩
  intro i v hv
  obtain ⟨hi, rfl⟩ := List.getElem?_eq_some_iff.mp hv
  simp only [List.getElem_ofFn]
  exact hf i _

theorem copyItems_of_complete (hsize : stored.size = p.size) (h : p.Complete stored.type) :
    ∃ w1, p.copyItems stored.type stored.type (stored.renamed p).wrapped = (.ok (), w1) := by
  obtain ⟨items, hlength, hreads⟩ := h.exists_items
  exact ⟨_, Source.copyItems_ok_iff.mpr
    ⟨h.1, items, hlength, hreads, fun i hi => takes_renamed hsize h.1 hi, rfl⟩⟩

theorem copyItems_of_stops {items : List (stored.type.Item R)}
    (h : StopsUnchanged p stored items) :
    ∃ e, p.copyItems stored.type stored.type (stored.renamed p).wrapped =
      (.throws e, (stored.renamed p).wrapped.putAll 0 items) :=
  Source.copyItems_throws_iff.mpr ⟨items, h.length, h.reads, h.takes, h.stops, rfl⟩

theorem setsOrRefuses_iff_of_copied (hchecked : checkedProperty map p = .ok stored)
    (hcopied : Source.isCopied stored.type = true) :
    SetsOrRefuses map p ↔
      p.Complete stored.type ∨ ∃ items, StopsUnchanged p stored items := by
  obtain ⟨hstored, -, hsize, htype⟩ := checkedProperty_ok_iff.mp hchecked
  unfold SetsOrRefuses
  rw [setProperty_of_checked hchecked, copyTo_run_of_copied hsize htype hcopied]
  rcases hrun : p.copyItems stored.type stored.type (stored.renamed p).wrapped with
    ⟨_ | e | _ | _, w1⟩
  · obtain ⟨hcount, items, hlength, hreads, -, rfl⟩ := Source.copyItems_ok_iff.mp hrun
    have hp : p.size = items.length := by rw [hlength]; exact Nat.mod_eq_of_lt hcount
    have hwrapped : (stored.renamed p).wrapped.length % 2 ^ 32 = items.length :=
      (size_renamed hsize).trans hp
    refine iff_of_true (.inr ⟨_, _, rfl, Table.insert_self _ _ _, ?_, ?_⟩) (.inl ⟨hcount, ?_⟩)
    · have hput := Wrapped.length_putAll (α := stored.type.Item R) 0 items
        (stored.renamed p).wrapped
      exact (congrArg (· % 2 ^ 32) hput).trans (hwrapped.trans hp.symm)
    · intro i hi
      exact read_of_items hreads hwrapped (hp ▸ hi)
    · intro i hi
      exact ⟨_, hreads i _ (List.getElem?_eq_getElem (hlength ▸ hi))⟩
  · obtain ⟨items, hlt, hreads, htakes, hstops, rfl⟩ := Source.copyItems_throws_iff.mp ⟨e, hrun⟩
    constructor
    · rintro (⟨e1, h⟩ | ⟨map1, stored1, h, -⟩)
      · have hmap := (insert_eq_self_iff hstored).mp (Prod.mk.inj h).2
        exact .inr ⟨items, hlt, hreads, htakes, hstops, hmap⟩
      · cases h
    · rintro (hcomplete | ⟨items1, hstop⟩)
      · obtain ⟨w1, hok⟩ := copyItems_of_complete hsize hcomplete
        rw [hrun] at hok
        cases hok
      · obtain ⟨e1, hthrows⟩ := copyItems_of_stops hstop
        rw [hrun] at hthrows
        refine .inl ⟨e, Prod.ext rfl ((insert_eq_self_iff hstored).mpr ?_)⟩
        rw [(Prod.mk.inj hthrows).2]
        exact hstop.unchanged
  · refine iff_of_false ?_ ?_
    · rintro (⟨e1, h⟩ | ⟨map1, stored1, h, -⟩)
      · cases h
      · cases h
    · rintro (hcomplete | ⟨items1, hstop⟩)
      · obtain ⟨w1, hok⟩ := copyItems_of_complete hsize hcomplete
        rw [hrun] at hok
        cases hok
      · obtain ⟨e1, hthrows⟩ := copyItems_of_stops hstop
        rw [hrun] at hthrows
        cases hthrows
  · refine iff_of_false ?_ ?_
    · rintro (⟨e1, h⟩ | ⟨map1, stored1, h, -⟩)
      · cases h
      · cases h
    · rintro (hcomplete | ⟨items1, hstop⟩)
      · obtain ⟨w1, hok⟩ := copyItems_of_complete hsize hcomplete
        rw [hrun] at hok
        cases hok
      · obtain ⟨e1, hthrows⟩ := copyItems_of_stops hstop
        rw [hrun] at hthrows
        cases hthrows

theorem setsOrRefuses_iff_of_not_copied (hchecked : checkedProperty map p = .ok stored)
    (hcopied : Source.isCopied stored.type = false) :
    SetsOrRefuses map p ↔
      ∀ i < p.size, stored.read stored.type i = p.read stored.type i := by
  obtain ⟨hstored, -, hsize, htype⟩ := checkedProperty_ok_iff.mp hchecked
  unfold SetsOrRefuses
  rw [setProperty_of_checked hchecked, copyTo_run_of_not_copied hsize htype hcopied]
  have hread : ∀ i < p.size,
      (stored.renamed p).read stored.type i = stored.read stored.type i := by
    intro i hi
    exact read_renamed (hsize ▸ hi) hi
  constructor
  · rintro (⟨e, h⟩ | ⟨map1, stored1, h, hname, -, hvalues⟩)
    · cases h
    · cases h
      rw [Table.insert_self] at hname
      cases hname
      intro i hi
      rw [← hread i hi]
      exact hvalues i hi
  · intro h
    refine .inr ⟨_, stored.renamed p, rfl, Table.insert_self _ _ _, size_renamed hsize, ?_⟩
    intro i hi
    exact (hread i hi).trans (h i hi)

end Stored

/-- `setProperty` changes nothing and throws, or leaves the size and the values of its
argument, exactly when the stored property and the argument agree. -/
theorem setsOrRefuses_iff (map : WrapperMap R) (p : Source R) :
    SetsOrRefuses map p ↔ CopyAgrees map p := by
  unfold CopyAgrees
  cases hchecked : checkedProperty map p with
  | error e =>
    refine iff_of_true (.inl ⟨e, setProperty_of_error hchecked⟩) ?_
    intro stored hstored haccess hsize htype
    rw [checkedProperty_ok_iff.mpr ⟨hstored, haccess, hsize, htype⟩] at hchecked
    cases hchecked
  | ok stored =>
    obtain ⟨hstored, haccess, hsize, htype⟩ := checkedProperty_ok_iff.mp hchecked
    have honly : ∀ stored1, map p.name = some stored1 → stored1 = stored := by
      intro stored1 h
      exact Option.some.inj (h.symm.trans hstored)
    cases hcopied : Source.isCopied stored.type with
    | true =>
      rw [setsOrRefuses_iff_of_copied hchecked hcopied]
      constructor
      · intro h stored1 hstored1 _ _ _
        obtain rfl := honly stored1 hstored1
        rwa [if_pos hcopied]
      · intro h
        have hagrees := h stored hstored haccess hsize htype
        rwa [if_pos hcopied] at hagrees
    | false =>
      rw [setsOrRefuses_iff_of_not_copied hchecked hcopied]
      constructor
      · intro h stored1 hstored1 _ _ _
        obtain rfl := honly stored1 hstored1
        rwa [if_neg (by rw [hcopied]; exact Bool.false_ne_true)]
      · intro h
        have hagrees := h stored hstored haccess hsize htype
        rwa [if_neg (by rw [hcopied]; exact Bool.false_ne_true)] at hagrees

/-! ## The classes of the argument -/

/-- A wrapper gives all its values, as long as `size()` counts them. -/
theorem complete_of_wrapper (w : WrapperProperty R) (h : w.wrapped.length < 2 ^ 32) :
    w.source.Complete w.type := by
  refine ⟨h, fun i hi => ?_⟩
  obtain ⟨v, hv⟩ := Wrapped.item?_of_lt hi
  refine ⟨w.type.cStr v, ?_⟩
  show w.read w.type i = _
  rw [w.read_self, getItem_of_item? hv]
  rfl

/-- A wrapper of a type that `copyTo` has a case for is copied, or refused. -/
theorem setsOrRefuses_of_wrapper (map : WrapperMap R) (w : WrapperProperty R)
    (hcopied : Source.isCopied w.type = true) (h : w.wrapped.length < 2 ^ 32) :
    SetsOrRefuses map w.source := by
  cases hchecked : checkedProperty map w.source with
  | error e => exact .inl ⟨e, setProperty_of_error hchecked⟩
  | ok stored =>
    obtain ⟨-, -, -, htype⟩ := checkedProperty_ok_iff.mp hchecked
    have hstored : stored.type = w.type := (Option.some.inj htype).symm
    exact (setsOrRefuses_iff_of_copied hchecked (hstored ▸ hcopied)).mpr
      (.inl (hstored ▸ complete_of_wrapper w h))

theorem exists_answer_of_reading {t : ItemType} (ht : t.IsText) {a : t.Answer R} {v : t.Item R}
    (h : t.reading a = .item v) : ∃ u, a = t.answer u := by
  cases ht with
  | inl ht =>
    subst ht
    cases a with
    | text s => exact ⟨s, rfl⟩
    | null => cases h
    | dangling => cases h
  | inr ht =>
    subst ht
    cases a with
    | text s => exact ⟨s, rfl⟩
    | null => cases h
    | dangling => cases h

/-- A `Property` gives none of its texts. -/
theorem not_complete_of_text (p : ConcreteProperty R) {t : ItemType} (ht : t.IsText)
    (hitems : p.queue ≠ []) : ¬ p.source.Complete t := by
  rintro ⟨-, hread⟩
  obtain ⟨v, hv⟩ := hread 0 (List.length_pos_iff.mpr hitems)
  cases hget : p.get t 0 with
  | error e =>
    simp only [ConcreteProperty.source, hget] at hv
    cases hv
  | ok a =>
    simp only [ConcreteProperty.source, hget] at hv
    obtain ⟨u, rfl⟩ := exists_answer_of_reading ht (Except.ok.inj hv)
    exact ConcreteProperty.get_ne_answer ht 0 u hget

/-- A 64-bit integer. -/
def longProperty (v : BitVec 64) : WrapperProperty Unit :=
  ⟨"x", .value .long, .single v, .inOut⟩

/-- Two texts that may not be changed. -/
def twoTexts : WrapperProperty Unit :=
  ⟨"x", .value .charStr, .sequence ["a", "a"], .in⟩

/-- A `Property` of which only the second text was set. -/
def secondText : ConcreteProperty Unit :=
  ConcreteProperty.Operation.run (.set (.value .charStr) (some "b") 1)
    (ConcreteProperty.Operation.run (.setProperties (some "x") ⟨2, by decide⟩ .inOut) .initial)

/-- A 64-bit integer is not copied, and a `Property` without its first text has its access
specifier copied before it throws. -/
theorem setProperty_loses_values :
    ¬ SetsOrRefuses (Table.insert .empty "x" (longProperty 1)) (longProperty 2).source ∧
      ¬ SetsOrRefuses (Table.insert .empty "x" twoTexts) secondText.source := by
  constructor
  · have hchecked : checkedProperty (Table.insert .empty "x" (longProperty 1))
        (longProperty 2).source = .ok (longProperty 1) := by rfl
    rw [setsOrRefuses_iff_of_not_copied hchecked rfl]
    intro h
    have hvalue : (1#64 : BitVec 64) = 2#64 := by
      injection Except.ok.inj (h 0 (by decide))
    exact absurd hvalue (by decide)
  · have hchecked : checkedProperty (Table.insert .empty "x" twoTexts) secondText.source =
        .ok twoTexts := by rfl
    rw [setsOrRefuses_iff_of_copied hchecked rfl]
    rintro (hcomplete | ⟨items, hstop⟩)
    · exact not_complete_of_text secondText (.inl rfl) (by rintro h; cases h) hcomplete
    · have hunchanged := congrArg WrapperProperty.access hstop.unchanged
      have haccess : (twoTexts.renamed secondText.source).access = twoTexts.access := hunchanged
      exact absurd haccess (by decide)

end Xpcf
