import Xpcf.Model.ConcreteProperty

/-!
# What a `Property` gives back

The setters of a `Property` store the items that they are given
(`items_of_calls`).  The getters compare the type of the property with the type
they read, and only the setters of the two string types set it; those two getters
return a pointer into a copy that is gone.  So a value that was set is never read
back.

* `Sound`: the types that a property can have, and its size;
* `storeReadLaw_iff`: the calls after which the getters agree with the setters.
-/

namespace Xpcf

open CodeLib CodeLib.Exec

namespace ConcreteProperty

variable {R : Type} {p : ConcreteProperty R} {t : ItemType}

/-! ## Single calls -/

/-- The property that a setter stores into: those of the text types set its type. -/
def prepared (t : ItemType) (p : ConcreteProperty R) : ConcreteProperty R :=
  if t.IsText then p.checkType (some t) else p

theorem setValue_run {i : Nat} (v : t.Item R) (h : p.access ≠ .out) :
    setValue t i v p = storeAt t i v p := by
  unfold setValue
  rw [gets_bind_run, if_neg h]

theorem setPointer_run {i : Nat} (v : t.Item R) (h : p.access ≠ .out) :
    setPointer t i (some v) p = storeAt t i v (p.checkType (newType t p.type)) := by
  show (gets access >>= _) p = _
  rw [gets_bind_run, if_neg h, modify_bind_run]

/-- A setter that is given an item. -/
theorem set_run {v : t.Argument R} {item : t.Item R} (hv : t.item? v = some item) (i : Nat)
    (h : p.access ≠ .out) : set t v i p = storeAt t i item (p.prepared t) := by
  cases t with
  | value type =>
    cases type with
    | charStr | unicodeStr => cases hv; exact setPointer_run _ h
    | _ => cases hv; exact setValue_run _ h
  | struct =>
    cases v with
    | none => cases hv
    | some r => cases hv; exact setValue_run (t := .struct) (some r) h

/-- A setter that is given a null pointer or an empty reference. -/
theorem set_of_none {v : t.Argument R} (hv : t.item? v = none) (i : Nat) :
    (set t v i p).2 = p := by
  cases t with
  | value type =>
    cases type with
    | charStr | unicodeStr => cases hv; rfl
    | _ => cases hv
  | struct =>
    cases v with
    | none => rfl
    | some r => cases hv

theorem set_of_out {v : t.Argument R} {item : t.Item R} (hv : t.item? v = some item) (i : Nat)
    (h : p.access = .out) : (set t v i p).2 = p := by
  have hvalue : ∀ s (w : s.Item R), (setValue s i w p).2 = p := by
    intro s w
    unfold setValue
    rw [gets_bind_run, if_pos h]
    rfl
  have hpointer : ∀ s (w : s.Item R), (setPointer s i (some w) p).2 = p := by
    intro s w
    show ((gets access >>= _) p).2 = p
    rw [gets_bind_run, if_pos h]
    rfl
  cases t with
  | value type =>
    cases type with
    | charStr | unicodeStr => cases hv; exact hpointer _ _
    | _ => cases hv; exact hvalue _ _
  | struct =>
    cases v with
    | none => cases hv
    | some r => cases hv; exact hvalue .struct (some r)

/-- No getter of a text type leads to a text. -/
theorem getPointer_ne_text (t valueType : ItemType) (i : Nat) (p : ConcreteProperty R)
    (text : String) : getPointer t valueType i p ≠ .ok (.text text) := by
  unfold getPointer
  split
  · exact nofun
  · intro h
    obtain ⟨item, -, hcopy⟩ := bind_eq_ok.mp h
    obtain ⟨v, -, hpointer⟩ := bind_eq_ok.mp hcopy
    cases hpointer

theorem get_ne_answer (ht : t.IsText) (i : Nat) (v : t.Item R) :
    get t i p ≠ .ok (t.answer v) := by
  cases ht with
  | inl ht => subst ht; exact getPointer_ne_text _ _ i p v
  | inr ht => subst ht; exact getPointer_ne_text _ _ i p v

/-- The getter of a text type, past the end. -/
theorem get_of_ge (ht : t.IsText) (htype : p.type = some t) (haccess : p.access = .inOut) {i : Nat}
    (hi : p.queue.length ≤ i) : get t i p = .error .dequeRangeCheck := by
  have hpointer : getPointer t t i p = .error .dequeRangeCheck := by
    unfold getPointer itemAt
    rw [if_neg (by simp [htype, haccess]), List.getElem?_eq_none hi]
    rfl
  cases ht with
  | inl ht => subst ht; exact hpointer
  | inr ht => subst ht; exact hpointer

/-! ## Every property -/

/-- The types that a property can have, and its size. -/
structure Sound (p : ConcreteProperty R) : Prop where
  type : ∀ t, p.type = some t → t.IsText
  size : p.queue.length < 2 ^ 32

theorem sound_initial : Sound (initial : ConcreteProperty R) where
  type _ h := by cases h
  size := Nat.two_pow_pos 32

theorem Sound.clear (h : p.Sound) : p.clear.Sound := by
  unfold ConcreteProperty.clear
  split
  · exact h
  · exact ⟨nofun, Nat.two_pow_pos 32⟩

theorem Sound.prepared (h : p.Sound) : (p.prepared t).Sound := by
  unfold ConcreteProperty.prepared ConcreteProperty.checkType
  split
  · rename_i ht
    split
    · exact ⟨fun s hs => by cases hs; exact ht, h.clear.size⟩
    · exact h
  · exact h

theorem Sound.storeAt (h : p.Sound) (i : Nat) (v : t.Item R) : (storeAt t i v p).2.Sound := by
  unfold ConcreteProperty.storeAt
  split
  · exact ⟨h.type, by simpa using h.size⟩
  · exact h

theorem Sound.set (h : p.Sound) (v : t.Argument R) (i : Nat) : (set t v i p).2.Sound := by
  cases hv : t.item? v with
  | none => rwa [set_of_none hv]
  | some item =>
    by_cases haccess : p.access = .out
    · rwa [set_of_out hv i haccess]
    · rw [set_run hv i haccess]
      exact h.prepared.storeAt i item

theorem Sound.setProperties (h : p.Sound) (name : Option String) (n : Fin (2 ^ 32))
    (iotype : AccessSpecifier) : (setProperties name n iotype p).2.Sound := by
  unfold ConcreteProperty.setProperties
  split
  · exact h
  · split
    · exact h
    · refine ⟨h.clear.type, ?_⟩
      show (resizeQueue n p.clear.queue).length < 2 ^ 32
      have hn := n.isLt
      simp [resizeQueue]
      omega

theorem Sound.run (h : p.Sound) (operation : Operation R) : (operation.run p).Sound := by
  cases operation with
  | set t value itemIndex => exact h.set value itemIndex
  | setProperties name n iotype => exact h.setProperties name n iotype
  | setName name =>
    cases name with
    | none => exact h
    | some name => exact ⟨h.type, h.size⟩
  | setAccessSpecifier iotype => exact ⟨h.type, h.size⟩

theorem Reachable.sound (h : p.Reachable) : p.Sound := by
  obtain ⟨operations, rfl⟩ := h
  have key : ∀ q : ConcreteProperty R, q.Sound →
      (operations.foldl (fun q operation => operation.run q) q).Sound := by
    induction operations with
    | nil => exact fun _ hq => hq
    | cons operation operations ih => exact fun _ hq => ih _ (hq.run operation)
  exact key _ sound_initial

/-! ## Calls of one setter -/

/-- The property after calls of one setter, each with its argument and its index. -/
def afterCalls (t : ItemType) (calls : List (t.Argument R × Nat)) (p : ConcreteProperty R) :
    ConcreteProperty R :=
  calls.foldl (fun p call => (set t call.1 call.2 p).2) p

/-- The last item that the calls set at an index. -/
def lastSet (t : ItemType) (calls : List (t.Argument R × Nat)) (i : Nat) : Option (t.Item R) :=
  (calls.filterMap fun call => if call.2 = i then t.item? call.1 else none).getLast?

section Calls

variable {calls : List (t.Argument R × Nat)}

theorem afterCalls_concat (call : t.Argument R × Nat) :
    p.afterCalls t (calls ++ [call]) = (set t call.1 call.2 (p.afterCalls t calls)).2 := by
  simp [afterCalls]

theorem Sound.afterCalls (h : p.Sound) : (p.afterCalls t calls).Sound := by
  induction calls using List.reverseRecOn with
  | nil => exact h
  | append_singleton calls call ih =>
    rw [afterCalls_concat]
    exact ih.set call.1 call.2

theorem lastSet_concat (call : t.Argument R × Nat) (i : Nat) :
    lastSet t (calls ++ [call]) i =
      ((if call.2 = i then t.item? call.1 else none).or (lastSet t calls i)) := by
  unfold lastSet
  rw [List.filterMap_append, List.getLast?_append]
  congr 1
  cases h : if call.2 = i then t.item? call.1 else none with
  | none => simp [h]
  | some v => simp [h]

/-- The property takes items of the type as they are: its tag is that of the type, or
was never set. -/
def Accepts (t : ItemType) (p : ConcreteProperty R) : Prop :=
  p.access ≠ .out ∧ (t.IsText → p.type = none ∨ p.type = some t)

/-- A setter of the type changes the tag and the one item. -/
theorem Accepts.prepared (h : p.Accepts t) :
    p.prepared t = { p with type := if t.IsText then some t else p.type } := by
  unfold ConcreteProperty.prepared ConcreteProperty.checkType
  by_cases ht : t.IsText
  · rw [if_pos ht]
    cases h.2 ht with
    | inl hnone => simp [hnone, ht, ConcreteProperty.clear]
    | inr hsome =>
      rw [if_neg (not_not.mpr hsome), if_pos ht, ← hsome]
  · simp [ht]

theorem Accepts.set_of_lt (h : p.Accepts t) {v : t.Argument R} {item : t.Item R}
    (hv : t.item? v = some item) {i : Nat} (hi : i < p.queue.length) :
    set t v i p =
      (.ok (), { p with
        type := if t.IsText then some t else p.type
        queue := p.queue.set i (some ⟨t, item⟩) }) := by
  rw [set_run hv i h.1, h.prepared]
  exact if_pos hi

theorem Accepts.set_of_ge (h : p.Accepts t) {v : t.Argument R} {item : t.Item R}
    (hv : t.item? v = some item) {i : Nat} (hi : p.queue.length ≤ i) :
    (set t v i p).1 = .throws .dequeRangeCheck := by
  rw [set_run hv i h.1, h.prepared]
  exact congrArg Prod.fst (if_neg (Nat.not_lt.mpr hi))

/-- What the calls keep. -/
structure Kept (t : ItemType) (p q : ConcreteProperty R) : Prop where
  access : q.access = p.access
  length : q.queue.length = p.queue.length
  accepts : q.Accepts t

theorem kept_afterCalls (h : p.Accepts t) (hcalls : ∀ call ∈ calls, call.2 < p.queue.length) :
    Kept t p (p.afterCalls t calls) ∧
      ∀ i, (p.afterCalls t calls).queue[i]? =
        match lastSet t calls i with
        | some v => some (some ⟨t, v⟩)
        | none => p.queue[i]? := by
  induction calls using List.reverseRecOn with
  | nil => exact ⟨⟨rfl, rfl, h⟩, fun _ => rfl⟩
  | append_singleton calls call ih =>
    obtain ⟨hkept, hitems⟩ := ih fun c hc => hcalls c (List.mem_append_left _ hc)
    have hindex : call.2 < (p.afterCalls t calls).queue.length := by
      rw [hkept.length]
      exact hcalls call (by simp)
    rw [afterCalls_concat]
    simp only [lastSet_concat]
    cases hv : t.item? call.1 with
    | none =>
      rw [set_of_none hv]
      refine ⟨hkept, fun i => ?_⟩
      rw [ite_self, Option.none_or]
      exact hitems i
    | some item =>
      rw [hkept.accepts.set_of_lt hv hindex]
      refine ⟨⟨hkept.access, ?_, hkept.accepts.1, ?_⟩, fun i => ?_⟩
      · rw [← hkept.length]
        exact List.length_set
      · intro ht
        exact .inr (if_pos ht)
      · by_cases hi : call.2 = i
        · subst hi
          rw [if_pos rfl, Option.some_or]
          exact List.getElem?_set_self hindex
        · rw [if_neg hi, Option.none_or, ← hitems i]
          exact List.getElem?_set_ne hi

/-- The queue holds the last item that was set at each index, and what it held before
elsewhere. -/
theorem items_of_calls (h : p.Accepts t) (hcalls : ∀ call ∈ calls, call.2 < p.queue.length)
    (i : Nat) :
    (p.afterCalls t calls).queue[i]? =
      match lastSet t calls i with
      | some v => some (some ⟨t, v⟩)
      | none => p.queue[i]? :=
  (kept_afterCalls h hcalls).2 i

/-- Calls without an item change nothing. -/
theorem afterCalls_of_none (h : ∀ i, lastSet t calls i = none) : p.afterCalls t calls = p := by
  induction calls using List.reverseRecOn with
  | nil => rfl
  | append_singleton calls call ih =>
    have hlast : ∀ i, (if call.2 = i then t.item? call.1 else none) = none ∧
        lastSet t calls i = none := by
      intro i
      have hi := h i
      rw [lastSet_concat, Option.or_eq_none_iff] at hi
      exact hi
    have hv : t.item? call.1 = none := by
      have hcall := (hlast call.2).1
      rwa [if_pos rfl] at hcall
    rw [afterCalls_concat, set_of_none hv, ih fun i => (hlast i).2]

end Calls

/-! ## Reading what was stored -/

/-- What the getters and setters of one type owe each other: the getter returns what
was set last, the other items stay, and the two refuse an index past the end. -/
structure StoreReadLaw (t : ItemType) (calls : List (t.Argument R × Nat))
    (p : ConcreteProperty R) : Prop where
  reads : ∀ i v, lastSet t calls i = some v → get t i (p.afterCalls t calls) = .ok (t.answer v)
  untouched : ∀ i, lastSet t calls i = none → (p.afterCalls t calls).queue[i]? = p.queue[i]?
  size : (p.afterCalls t calls).size = p.size
  type : (p.afterCalls t calls).type = some t
  setterRange : ∀ i < 2 ^ 32, p.size ≤ i → ∀ v item, t.item? v = some item →
    ∃ what, (set t v i (p.afterCalls t calls)).1 = .throws (.std .outOfRange what)
  getterRange : ∀ i < 2 ^ 32, p.size ≤ i →
    ∃ what, get t i (p.afterCalls t calls) = .error (.std .outOfRange what)

/-- The law holds for a property whose type is the text type of the setter, as long as
nothing is set. -/
theorem storeReadLaw_iff (p : ConcreteProperty R) (t : ItemType)
    (calls : List (t.Argument R × Nat)) (hreach : p.Reachable) (haccess : p.access = .inOut) :
    StoreReadLaw t calls p ↔ p.type = some t ∧ ∀ i, lastSet t calls i = none := by
  have hsound := hreach.sound
  have hsize : p.size = p.queue.length := Nat.mod_eq_of_lt hsound.size
  constructor
  · intro h
    have ht : t.IsText := hsound.afterCalls.type t h.type
    have hnone : ∀ i, lastSet t calls i = none := by
      intro i
      cases hlast : lastSet t calls i with
      | none => rfl
      | some v => exact absurd (h.reads i v hlast) (get_ne_answer ht i v)
    have htype := h.type
    rw [afterCalls_of_none hnone] at htype
    exact ⟨htype, hnone⟩
  · rintro ⟨htype, hnone⟩
    have ht : t.IsText := hsound.type t htype
    have hafter : p.afterCalls t calls = p := afterCalls_of_none hnone
    refine ⟨?_, ?_, by rw [hafter], by rw [hafter, htype], ?_, ?_⟩
    · intro i v hlast
      rw [hnone i] at hlast
      cases hlast
    · intro i _
      rw [hafter]
    · intro i _ hi v item hv
      have haccepts : p.Accepts t := ⟨by rw [haccess]; decide, fun _ => .inr htype⟩
      rw [hafter]
      exact ⟨_, haccepts.set_of_ge hv (hsize ▸ hi)⟩
    · intro i _ hi
      rw [hafter, get_of_ge ht htype haccess (hsize ▸ hi)]
      exact ⟨_, rfl⟩

/-- One item, to read and to write. -/
def oneItem : ConcreteProperty Unit :=
  Operation.run (.setProperties (some "x") 1 .inOut) initial

/-- The same property after a text was set. -/
def textItem : ConcreteProperty Unit :=
  Operation.run (.set (.value .charStr) (some "text") 0) oneItem

/-- The law holds of a call that sets nothing, and of no call that sets a text. -/
theorem storeReadLaw_iff_oneItem :
    StoreReadLaw (.value .charStr) [(none, 0)] textItem ∧
      ¬ StoreReadLaw (.value .charStr) [(some "other", 0)] textItem := by
  have hreach : textItem.Reachable :=
    ⟨[.setProperties (some "x") 1 .inOut, .set (.value .charStr) (some "text") 0], rfl⟩
  constructor
  · refine (storeReadLaw_iff textItem _ _ hreach rfl).mpr ⟨rfl, fun i => ?_⟩
    have hnothing : ItemType.item? (R := Unit) (.value .charStr) none = none := rfl
    simp [lastSet, hnothing]
  · intro h
    have hnone := ((storeReadLaw_iff textItem _ _ hreach rfl).mp h).2 0
    cases hnone

/-- An integer leaves the property without a type, and a text that was set is not where
the getter's pointer leads. -/
theorem set_values_are_lost :
    (oneItem.Reachable ∧ oneItem.access = .inOut ∧ oneItem.size = 1) ∧
      ¬ StoreReadLaw (.value .integer) [(5#32, 0)] oneItem ∧
      ¬ StoreReadLaw (.value .charStr) [(some "text", 0)] oneItem := by
  refine ⟨⟨⟨[.setProperties (some "x") 1 .inOut], rfl⟩, rfl, rfl⟩, ?_, ?_⟩
  · intro h
    exact nomatch h.type
  · intro h
    exact nomatch h.reads 0 "text" rfl

end ConcreteProperty

end Xpcf
