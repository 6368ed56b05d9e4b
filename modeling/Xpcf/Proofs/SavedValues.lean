import Xpcf.Proofs.Configuring
import Xpcf.Proofs.PropertyTrees

/-!
# Saving and restoring values

`succeeds_savedValue_iff` says what the node that `serializeParameter` writes
for a property does to a property of the same name and type.  From it,
`RestorableValues` is exactly when the values survive: `putAll_restorable` is
the one direction, and `restorable_of_putAll` the other, by way of a target that
differs in every value.
-/

namespace Xpcf

open CodeLib CodeLib.Exec

/-! ## The text of one value -/

/-- The types whose texts do not depend on the floating point conversions. -/
def ValueType.IsPlain : ValueType → Prop
  | .integer | .uinteger | .long | .ulong | .charStr => True
  | .unicodeStr | .float | .double => False

/-- The value that the text of `v` stands for. -/
def readBack : (type : ValueType) → type.InnerType → type.InnerType
  | .charStr, v => cString v
  | .integer, v => v
  | .uinteger, v => v
  | .long, v => v
  | .ulong, v => v
  | .unicodeStr, v => v
  | .float, v => v
  | .double, v => v

/-- A value that survives: every number, and the strings that are not empty and
hold no null character. -/
def ValueType.Restorable : (type : ValueType) → type.InnerType → Prop
  | .charStr, v => v ≠ "" ∧ '\x00' ∉ v.toList
  | .integer, _ => True
  | .uinteger, _ => True
  | .long, _ => True
  | .ulong, _ => True
  | .unicodeStr, _ => True
  | .float, _ => True
  | .double, _ => True

theorem stol_toString {z : Int} (h : -2 ^ 63 ≤ z ∧ z < 2 ^ 63) :
    stol (toString z) = .read z (toString z).length := by
  obtain ⟨n, hread, rfl, hlength⟩ := readNumeral_toString z
  unfold stol
  rw [hread]
  show (if _ then _ else _) = _
  rw [if_pos h, hlength]

theorem stoul_toString {n : Nat} (h : n < 2 ^ 64) :
    stoul (toString n) = .read n (toString n).length := by
  have hread := readNumeral_toDigits n
  have htext : (toString n).toList = Nat.toDigits 10 n := Nat.toList_repr
  unfold stoul
  rw [htext, hread]
  show (if n < 2 ^ 64 then Conversion.read ((n : Int) % 2 ^ 64) _ else _) = _
  rw [if_pos h, ← String.length_toList, htext, Int.emod_eq_of_lt (by omega) (by omega)]

theorem setConverted_read {α : Type} {v : α} {processed index : Nat} {w : Wrapped α}
    (h : index < w.length) :
    setConverted (.read v processed) index w = (.ok processed, w.put index v) := by
  show (setValue index v >>= fun _ => pure processed) w = _
  rw [bind_run, Wrapped.setValue_inside h]
  rfl

/-- A number that the conversion and the setter of its type read back. -/
theorem setConverted_text {α : Type} {conversion : Conversion Int} {ofInt : Int → α} {z : Int}
    {text : String} {v : α} {index : Nat} {w : Wrapped α}
    (hread : conversion = .read z text.length) (hz : ofInt z = v) (h : index < w.length) :
    setConverted (conversion.map ofInt) index w = (.ok text.length, w.put index v) := by
  rw [hread, Conversion.map, hz]
  exact setConverted_read h

/-- The text of a value sets the item to it. -/
theorem setText_valueText (floats : FloatText) {type : ValueType} (htype : type.IsPlain)
    (v : type.InnerType) {index : Nat} {w : Wrapped type.InnerType} (h : index < w.length) :
    ∃ processed,
      setText floats (valueText floats type v) index type w =
        (.ok processed, w.put index (readBack type v)) ∧
      ((valueText floats type v).length = processed ∨ type = .charStr) := by
  cases type with
  | integer =>
    have hlow : -2 ^ 31 ≤ BitVec.toInt v := BitVec.le_toInt v
    have hhigh : BitVec.toInt v < 2 ^ 31 := BitVec.toInt_lt
    have hread := stol_toString (z := BitVec.toInt v) ⟨by omega, by omega⟩
    exact ⟨_, setConverted_text hread (BitVec.ofInt_toInt) h, .inl rfl⟩
  | uinteger =>
    have hhigh : BitVec.toNat v < 2 ^ 32 := BitVec.isLt v
    have hread := stoul_toString (n := BitVec.toNat v) (by omega)
    have hvalue : BitVec.ofInt 32 (BitVec.toNat v : Nat) = v := by
      rw [BitVec.ofInt_natCast, BitVec.ofNat_toNat, BitVec.setWidth_eq]
    exact ⟨_, setConverted_text hread hvalue h, .inl rfl⟩
  | long =>
    have hlow : -2 ^ 63 ≤ BitVec.toInt v := BitVec.le_toInt v
    have hread := stol_toString (z := BitVec.toInt v) ⟨hlow, BitVec.toInt_lt⟩
    exact ⟨_, setConverted_text hread (BitVec.ofInt_toInt) h, .inl rfl⟩
  | ulong =>
    have hread := stoul_toString (n := BitVec.toNat v) (BitVec.isLt v)
    have hvalue : BitVec.ofInt 64 (BitVec.toNat v : Nat) = v := by
      rw [BitVec.ofInt_natCast, BitVec.ofNat_toNat, BitVec.setWidth_eq]
    exact ⟨_, setConverted_text hread hvalue h, .inl rfl⟩
  | charStr =>
    refine ⟨0, ?_, .inr rfl⟩
    show (setStringValue index (cString (cString v)) >>= fun _ => pure 0) w = _
    rw [cString_cString, bind_run, setStringValue_inside h]
    rfl
  | unicodeStr => exact htype.elim
  | float => exact htype.elim
  | double => exact htype.elim

theorem restorable_iff (floats : FloatText) {type : ValueType} (htype : type.IsPlain)
    (v : type.InnerType) :
    type.Restorable v ↔ valueText floats type v ≠ "" ∧ readBack type v = v := by
  cases type with
  | integer => exact iff_of_true trivial ⟨toString_int_ne_empty _, rfl⟩
  | uinteger => exact iff_of_true trivial ⟨Nat.repr_ne_empty, rfl⟩
  | long => exact iff_of_true trivial ⟨toString_int_ne_empty _, rfl⟩
  | ulong => exact iff_of_true trivial ⟨Nat.repr_ne_empty, rfl⟩
  | charStr =>
    have hsame : cString v = v ↔ '\x00' ∉ String.toList v := by
      unfold cString
      rw [← String.toList_inj, String.toList_ofList, List.takeWhile_eq_self_iff]
      simp only [ne_eq, decide_not, Bool.not_eq_true', decide_eq_false_iff_not]
      exact ⟨fun h hmem => h _ hmem rfl, fun h c hc hnull => h (hnull ▸ hc)⟩
    show v ≠ "" ∧ '\x00' ∉ String.toList v ↔ cString v ≠ "" ∧ cString v = v
    rw [← hsame]
    constructor
    · rintro ⟨hne, heq⟩
      exact ⟨by rwa [heq], heq⟩
    · rintro ⟨hne, heq⟩
      exact ⟨by rwa [heq] at hne, heq⟩
  | unicodeStr => exact htype.elim
  | float => exact htype.elim
  | double => exact htype.elim

/-! ## The values of one property -/

section Values

variable {floats : FloatText} {name : String} {access : AccessSpecifier} {type : ValueType}

theorem succeeds_configureText_iff (htype : type.IsPlain) (v : type.InnerType) {index : Nat}
    {w : Wrapped type.InnerType} (h : index < w.length) {r : Property} :
    Succeeds (configureValue floats (valueText floats type v) index) (.value name access type w) r ↔
      valueText floats type v ≠ "" ∧
        r = .value name access type (w.put index (readBack type v)) := by
  obtain ⟨processed, hset, hwhole⟩ := setText_valueText floats htype v h
  rw [succeeds_configureValue_iff]
  refine and_congr_right fun _ => ⟨?_, ?_⟩
  · rintro ⟨processed1, w1, hset1, -, rfl⟩
    cases hset.symm.trans hset1
    rfl
  · rintro rfl
    exact ⟨processed, _, hset, hwhole, rfl⟩

/-- A `<value>` node. -/
def valueElement (text : String) : XMLElement :=
  .mk "value" [] (some text) []

theorem succeeds_configureTexts_iff (htype : type.IsPlain) {vs : List type.InnerType} {index : Nat}
    {w : Wrapped type.InnerType} (h : index + vs.length ≤ w.length)
    (h32 : index + vs.length < 2 ^ 32) {r : Property} :
    Succeeds (configureValues floats (vs.map fun v => valueElement (valueText floats type v)) index)
        (.value name access type w) r ↔
      (∀ v ∈ vs, valueText floats type v ≠ "") ∧
        r = .value name access type (w.putAll index (vs.map (readBack type))) := by
  induction vs generalizing index w with
  | nil => simp [configureValues, succeeds_success, Wrapped.putAll]
  | cons v vs ih =>
    rw [List.length_cons] at h h32
    have hindex : (index + 1) % 2 ^ 32 = index + 1 := Nat.mod_eq_of_lt (by omega)
    have hstep : ∀ (elts : List XMLElement), configureValues floats
        (valueElement (valueText floats type v) :: elts) index =
        configureValue floats (valueText floats type v) index >>= fun result =>
          if result = .success then configureValues floats elts ((index + 1) % 2 ^ 32)
          else pure result := fun _ => rfl
    have hrest := @ih (index + 1) (w.put index (readBack type v))
      (by rw [Wrapped.length_put]; omega) (by omega)
    rw [List.map_cons, hstep, hindex, succeeds_then_iff, List.forall_mem_cons, and_assoc]
    constructor
    · rintro ⟨q, hfirst, htail⟩
      obtain ⟨htext, rfl⟩ := (succeeds_configureText_iff htype v (by omega)).mp hfirst
      exact ⟨htext, hrest.mp htail⟩
    · rintro ⟨htext, htail⟩
      exact ⟨_, (succeeds_configureText_iff htype v (by omega)).mpr ⟨htext, rfl⟩, hrest.mpr htail⟩

theorem childElements_valueElements (tag : String) (attributes : List (String × String))
    (text : Option String) (texts : List String) :
    (XMLElement.mk tag attributes text (texts.map valueElement)).childElements "value" =
      texts.map valueElement := by
  refine List.filter_eq_self.mpr fun elt helt => ?_
  obtain ⟨t, -, rfl⟩ := List.mem_map.mp helt
  rfl

theorem Wrapped.length_items {α : Type} (w : Wrapped α) : w.items.length < 2 ^ 32 := by
  cases w with
  | single v => exact (by decide : 1 < 2 ^ 32)
  | sequence vs =>
    have hmod : vs.length % 2 ^ 32 < 2 ^ 32 := Nat.mod_lt _ (by decide)
    exact lt_of_le_of_lt (List.length_take_le _ _) hmod

/-- One value is read from the attribute, the others from the nodes: either way
the items are set one after the other. -/
theorem succeeds_savedValue_iff (htype : type.IsPlain) {access1 : AccessSpecifier}
    {wrapped w : Wrapped type.InnerType} (h : wrapped.items.length ≤ w.length)
    {nested : Exec (List Property) Exc XPCFErrorCode} {r : Property} :
    Succeeds (configureFoundProperty floats
        (serializeParameter floats (.value name access type wrapped)) nested)
        (.value name access1 type w) r ↔
      (∀ v ∈ wrapped.items, valueText floats type v ≠ "") ∧
        r = .value name access1 type (w.putAll 0 (wrapped.items.map (readBack type))) := by
  have h32 := wrapped.length_items
  rw [serializeParameter]
  generalize wrapped.items = vs at h h32 ⊢
  have htexts := @succeeds_configureTexts_iff floats name access1 type htype vs 0 w (by omega)
    (by omega) r
  rcases vs with _ | ⟨v, _ | ⟨v1, vs⟩⟩
  · refine (succeeds_valueNode_iff rfl).trans ?_
    exact htexts
  · refine (succeeds_valueNode_iff rfl).trans ?_
    have hone := @succeeds_configureText_iff floats name access1 type htype v 0 w
      (Nat.lt_of_lt_of_le Nat.zero_lt_one h) r
    refine Iff.trans hone ?_
    simp [Wrapped.putAll]
  · have hchildren := (childElements_valueElements "property"
      (propertyAttributes name access type.toStr) none
      ((v :: v1 :: vs).map (valueText floats type))).trans List.map_map
    simp only [List.map_cons] at hchildren ⊢
    refine ((succeeds_valueNode_iff rfl).trans ?_).trans htexts
    exact iff_of_eq (congrArg (fun elts => Succeeds (configureValues floats elts 0) _ r) hchildren)

end Values

/-- The values survive: `size()` counts all of them, and each one survives. -/
def RestorableValues (type : ValueType) : Wrapped type.InnerType → Prop
  | .single v => type.Restorable v
  | .sequence vs => vs.length < 2 ^ 32 ∧ ∀ v ∈ vs, type.Restorable v

section RestorableValues

variable {type : ValueType} {wrapped w : Wrapped type.InnerType}

theorem Wrapped.Rel.length {α : Type} {R : α → α → Prop} {w w1 : Wrapped α}
    (h : Wrapped.Rel R w w1) : w.length = w1.length := by
  cases h with
  | single h => rfl
  | sequence h => exact h.length_eq

theorem Wrapped.length_items_le {α : Type} (w : Wrapped α) : w.items.length ≤ w.length := by
  cases w with
  | single v => exact Nat.le_refl 1
  | sequence vs => exact List.length_take_le' _ _

/-- Where every item is written, nothing of the target is left; where one is
not, the target keeps its own value there. -/
theorem putAll_sequence_items {α : Type} {R : α → α → Prop} {vs ws : List α} (f : α → α)
    (h : List.Forall₂ R vs ws) :
    (Wrapped.sequence ws).putAll 0 ((Wrapped.sequence vs).items.map f) =
      .sequence ((vs.take (vs.length % 2 ^ 32)).map f ++ ws.drop (vs.length % 2 ^ 32)) := by
  have hlength : ((vs.take (vs.length % 2 ^ 32)).map f).length = vs.length % 2 ^ 32 := by
    rw [List.length_map, List.length_take]
    exact Nat.min_eq_left (Nat.mod_le _ _)
  have hle : ((vs.take (vs.length % 2 ^ 32)).map f).length ≤ ws.length := by
    rw [hlength, ← h.length_eq]
    exact Nat.mod_le _ _
  have hput := @Wrapped.putAll_sequence α _ [] ws hle
  rw [hlength, List.nil_append, List.nil_append, List.length_nil] at hput
  exact hput

theorem putAll_restorable (floats : FloatText) (htype : type.IsPlain)
    (hr : RestorableValues type wrapped) (h : Wrapped.Rel (fun _ _ => True) wrapped w) :
    (∀ v ∈ wrapped.items, valueText floats type v ≠ "") ∧
      w.putAll 0 (wrapped.items.map (readBack type)) = wrapped := by
  have hvalue := fun v => restorable_iff floats htype v
  cases h with
  | single h =>
    obtain ⟨htext, hback⟩ := (hvalue _).mp hr
    refine ⟨fun v hv => ?_, ?_⟩
    · rwa [List.mem_singleton.mp hv]
    · show Wrapped.single (readBack type _) = _
      rw [hback]
  | @sequence vs ws h =>
    obtain ⟨hlength, hall⟩ := hr
    have hmod : vs.length % 2 ^ 32 = vs.length := Nat.mod_eq_of_lt hlength
    have hback : vs.map (readBack type) = vs := by
      conv_rhs => rw [← List.map_id vs]
      exact List.map_congr_left fun v hv => ((hvalue v).mp (hall v hv)).2
    refine ⟨fun v hv => ((hvalue v).mp (hall v (List.mem_of_mem_take hv))).1, ?_⟩
    rw [putAll_sequence_items (readBack type) h, hmod, List.take_length, hback,
      List.drop_of_length_le h.length_eq.ge, List.append_nil]

theorem restorable_of_putAll (floats : FloatText) (htype : type.IsPlain)
    (h : Wrapped.Rel (fun v w => w ≠ v) wrapped w)
    (htexts : ∀ v ∈ wrapped.items, valueText floats type v ≠ "")
    (hput : w.putAll 0 (wrapped.items.map (readBack type)) = wrapped) :
    RestorableValues type wrapped := by
  have hvalue := fun v => restorable_iff floats htype v
  cases h with
  | @single v w h =>
    have hback : Wrapped.single (readBack type v) = Wrapped.single v := hput
    exact (hvalue v).mpr ⟨htexts v List.mem_cons_self, Wrapped.single.inj hback⟩
  | @sequence vs ws h =>
    rw [putAll_sequence_items (readBack type) h] at hput
    have hput1 := Wrapped.sequence.inj hput
    have htake : ((vs.take (vs.length % 2 ^ 32)).map (readBack type)).length =
        vs.length % 2 ^ 32 := by
      rw [List.length_map, List.length_take]
      exact Nat.min_eq_left (Nat.mod_le _ _)
    -- what is not written keeps the value of the target, which is another one
    have hdrop := congrArg (List.drop (vs.length % 2 ^ 32)) hput1
    rw [List.drop_left' htake] at hdrop
    have hnone : vs.drop (vs.length % 2 ^ 32) = [] := by
      have hne := List.forall₂_drop (vs.length % 2 ^ 32) h
      rw [hdrop] at hne
      cases hrest : vs.drop (vs.length % 2 ^ 32) with
      | nil => rfl
      | cons v rest =>
        rw [hrest] at hne
        exact absurd rfl (List.forall₂_cons.mp hne).1
    have hmod : vs.length % 2 ^ 32 = vs.length :=
      Nat.le_antisymm (Nat.mod_le _ _) (List.drop_eq_nil_iff.mp hnone)
    have hback : vs.map (readBack type) = vs := by
      rw [hmod, List.take_length, List.drop_of_length_le h.length_eq.ge, List.append_nil] at hput1
      exact hput1
    refine ⟨?_, fun v hv => (hvalue v).mpr ⟨htexts v ?_, ?_⟩⟩
    · rw [← hmod]
      exact Nat.mod_lt _ (by decide)
    · show v ∈ vs.take (vs.length % 2 ^ 32)
      rwa [hmod, List.take_length]
    · conv_rhs at hback => rw [← List.map_id vs]
      exact List.map_inj_left.mp hback v hv

end RestorableValues

end Xpcf
