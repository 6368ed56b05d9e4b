import Mathlib.Data.List.Forall2
import Xpcf.Model.Properties

/-!
# Trees of properties

Two components that declare the same properties have trees of one shape.
`Property.Rel R` lifts a relation between values to the trees: names, types and
numbers of values agree, access specifiers may differ.

* `SameShape`: any values;
* `SameValues`: the same values.

`NoValues` says that a tree holds no value.  It is the case in which every tree
of the same shape has the same values (`noValues_iff`): otherwise
`PropertyMap.exists_differs` gives a tree that differs in every value.
-/

namespace Xpcf

/-! ## Lists related one by one -/

section Forall₂

open List

variable {α β : Type} {R S : α → β → Prop}

theorem forall₂_imp_of_mem {l : List α} {l1 : List β} (h : ∀ a ∈ l, ∀ b, R a b → S a b)
    (hl : Forall₂ R l l1) : Forall₂ S l l1 := by
  induction hl with
  | nil => exact .nil
  | cons hfirst hrest ih =>
    exact .cons (h _ mem_cons_self _ hfirst) (ih fun a ha => h a (mem_cons_of_mem _ ha))

theorem forall_of_forall₂ {P : α → Prop} {l : List α} {l1 : List β}
    (h : ∀ a ∈ l, ∀ b, R a b → P a) (hl : Forall₂ R l l1) : ∀ a ∈ l, P a := by
  induction hl with
  | nil => simp
  | cons hfirst hrest ih =>
    exact forall_mem_cons.mpr ⟨h _ mem_cons_self _ hfirst,
      ih fun a ha => h a (mem_cons_of_mem _ ha)⟩

theorem exists_forall₂ {l : List α} (h : ∀ a ∈ l, ∃ b, R a b) : ∃ l1, Forall₂ R l l1 := by
  induction l with
  | nil => exact ⟨[], .nil⟩
  | cons a l ih =>
    obtain ⟨b, hb⟩ := h a mem_cons_self
    obtain ⟨l1, hl⟩ := ih fun a ha => h a (mem_cons_of_mem _ ha)
    exact ⟨b :: l1, .cons hb hl⟩

end Forall₂

/-! ## Induction -/

/-- Induction over a tree: the properties of a structure come before it. -/
theorem Property.induct {P : Property → Prop}
    (value : ∀ name access type wrapped, P (.value name access type wrapped))
    (struct : ∀ name access map, (∀ p ∈ map.properties, P p) → P (.struct name access map))
    (structs : ∀ name access maps, (∀ map ∈ maps, ∀ p ∈ map.properties, P p) →
      P (.structs name access maps)) (p : Property) : P p := by
  refine @Property.rec P (fun map => ∀ p ∈ map.properties, P p)
    (fun maps => ∀ map ∈ maps, ∀ p ∈ map.properties, P p) (fun ps => ∀ p ∈ ps, P p) value struct
    structs ?_ ?_ ?_ ?_ ?_ ?_ p
  · intro p hp
    cases hp
  · exact fun ps ih => ih
  · intro map hmap
    cases hmap
  · exact fun map maps hmap ih => List.forall_mem_cons.mpr ⟨hmap, ih⟩
  · intro p hp
    cases hp
  · exact fun p ps hp ih => List.forall_mem_cons.mpr ⟨hp, ih⟩

/-! ## Relations between trees -/

/-- As many values on both sides, related one by one. -/
inductive Wrapped.Rel {α β : Type} (R : α → β → Prop) : Wrapped α → Wrapped β → Prop
  | single {v : α} {w : β} (h : R v w) : Rel R (.single v) (.single w)
  | sequence {vs : List α} {ws : List β} (h : List.Forall₂ R vs ws) :
    Rel R (.sequence vs) (.sequence ws)

mutual

/-- The properties have the same name and type, and related values. -/
inductive Property.Rel (R : (type : ValueType) → type.InnerType → type.InnerType → Prop) :
    Property → Property → Prop
  | value {name : String} {access access1 : AccessSpecifier} {type : ValueType}
      {v w : Wrapped type.InnerType} (h : Wrapped.Rel (R type) v w) :
    Property.Rel R (.value name access type v) (.value name access1 type w)
  | struct {name : String} {access access1 : AccessSpecifier} {map map1 : PropertyMap}
      (h : PropertyMap.Rel R map map1) :
    Property.Rel R (.struct name access map) (.struct name access1 map1)
  | structs {name : String} {access access1 : AccessSpecifier} {maps maps1 : List PropertyMap}
      (h : List.Forall₂ (PropertyMap.Rel R) maps maps1) :
    Property.Rel R (.structs name access maps) (.structs name access1 maps1)

inductive PropertyMap.Rel (R : (type : ValueType) → type.InnerType → type.InnerType → Prop) :
    PropertyMap → PropertyMap → Prop
  | null : PropertyMap.Rel R .null .null
  | mk {ps qs : List Property} (h : List.Forall₂ (Property.Rel R) ps qs) :
    PropertyMap.Rel R (.mk ps) (.mk qs)

end

/-- The same declared shape: same names, types and numbers of values. -/
abbrev PropertyMap.SameShape : PropertyMap → PropertyMap → Prop :=
  PropertyMap.Rel fun _ _ _ => True

/-- The same names, types and values. -/
abbrev PropertyMap.SameValues : PropertyMap → PropertyMap → Prop :=
  PropertyMap.Rel fun _ v w => v = w

section Rel

variable {R : (type : ValueType) → type.InnerType → type.InnerType → Prop}

theorem Property.Rel.name {p q : Property} (h : Property.Rel R p q) : p.name = q.name := by
  cases h <;> rfl

theorem names_of_rel {ps qs : List Property} (h : List.Forall₂ (Property.Rel R) ps qs) :
    ps.map Property.name = qs.map Property.name := by
  induction h with
  | nil => rfl
  | cons hfirst hrest ih => simp [hfirst.name, ih]

theorem Wrapped.Rel.refl {α : Type} {R : α → α → Prop} (hR : ∀ v, R v v) (v : Wrapped α) :
    Wrapped.Rel R v v := by
  cases v with
  | single v => exact .single (hR v)
  | sequence vs => exact .sequence (List.forall₂_same.mpr fun v _ => hR v)

theorem PropertyMap.rel_of_properties {m : PropertyMap}
    (h : ∀ p ∈ m.properties, Property.Rel R p p) : PropertyMap.Rel R m m := by
  cases m with
  | null => exact .null
  | mk ps => exact .mk (List.forall₂_same.mpr h)

theorem Property.Rel.refl (hR : ∀ type v, R type v v) (p : Property) : Property.Rel R p p := by
  induction p using Property.induct with
  | value name access type wrapped => exact .value (Wrapped.Rel.refl (hR type) wrapped)
  | struct name access map ih => exact .struct (PropertyMap.rel_of_properties ih)
  | structs name access maps ih =>
    exact .structs (List.forall₂_same.mpr fun map hmap =>
      PropertyMap.rel_of_properties (ih map hmap))

theorem PropertyMap.Rel.refl (hR : ∀ type v, R type v v) (m : PropertyMap) :
    PropertyMap.Rel R m m :=
  PropertyMap.rel_of_properties fun p _ => Property.Rel.refl hR p

/-- A relation that gives every value a partner gives one to every tree. -/
theorem Wrapped.exists_rel {α β : Type} {R : α → β → Prop} (hR : ∀ v, ∃ w, R v w)
    (v : Wrapped α) : ∃ w, Wrapped.Rel R v w := by
  cases v with
  | single v =>
    obtain ⟨w, h⟩ := hR v
    exact ⟨.single w, .single h⟩
  | sequence vs =>
    obtain ⟨ws, h⟩ := exists_forall₂ fun v (_ : v ∈ vs) => hR v
    exact ⟨.sequence ws, .sequence h⟩

theorem PropertyMap.exists_rel_of_properties {m : PropertyMap}
    (h : ∀ p ∈ m.properties, ∃ q, Property.Rel R p q) : ∃ m1, PropertyMap.Rel R m m1 := by
  cases m with
  | null => exact ⟨.null, .null⟩
  | mk ps =>
    obtain ⟨qs, hqs⟩ := exists_forall₂ h
    exact ⟨.mk qs, .mk hqs⟩

theorem Property.exists_rel (hR : ∀ type v, ∃ w, R type v w) (p : Property) :
    ∃ q, Property.Rel R p q := by
  induction p using Property.induct with
  | value name access type wrapped =>
    obtain ⟨w, h⟩ := Wrapped.exists_rel (hR type) wrapped
    exact ⟨.value name access type w, .value h⟩
  | struct name access map ih =>
    obtain ⟨map1, h⟩ := PropertyMap.exists_rel_of_properties ih
    exact ⟨.struct name access map1, .struct h⟩
  | structs name access maps ih =>
    obtain ⟨maps1, h⟩ := exists_forall₂ fun map hmap =>
      PropertyMap.exists_rel_of_properties (ih map hmap)
    exact ⟨.structs name access maps1, .structs h⟩

variable {S : (type : ValueType) → type.InnerType → type.InnerType → Prop}

theorem Wrapped.Rel.mono {α β : Type} {R S : α → β → Prop} (hRS : ∀ v w, R v w → S v w)
    {v : Wrapped α} {w : Wrapped β} (h : Wrapped.Rel R v w) : Wrapped.Rel S v w := by
  cases h with
  | single h => exact .single (hRS _ _ h)
  | sequence h => exact .sequence (h.imp hRS)

theorem PropertyMap.Rel.mono_of_properties {m m1 : PropertyMap}
    (hp : ∀ p ∈ m.properties, ∀ q, Property.Rel R p q → Property.Rel S p q)
    (h : PropertyMap.Rel R m m1) : PropertyMap.Rel S m m1 := by
  cases h with
  | null => exact .null
  | mk h => exact .mk (forall₂_imp_of_mem hp h)

theorem Property.Rel.mono (hRS : ∀ type v w, R type v w → S type v w) {p q : Property}
    (h : Property.Rel R p q) : Property.Rel S p q := by
  induction p using Property.induct generalizing q with
  | value name access type wrapped =>
    cases h with
    | value h => exact .value (h.mono (hRS type))
  | struct name access map ih =>
    cases h with
    | struct h => exact .struct (h.mono_of_properties fun p hp q hq => ih p hp hq)
  | structs name access maps ih =>
    cases h with
    | structs h =>
      exact .structs (forall₂_imp_of_mem
        (fun map hmap map1 h => h.mono_of_properties fun p hp q hq => ih map hmap p hp hq) h)

theorem PropertyMap.Rel.mono (hRS : ∀ type v w, R type v w → S type v w) {m m1 : PropertyMap}
    (h : PropertyMap.Rel R m m1) : PropertyMap.Rel S m m1 :=
  h.mono_of_properties fun _ _ _ hq => hq.mono hRS

/-! ### The other way round -/

theorem Wrapped.Rel.flip {α β : Type} {R : α → β → Prop} {v : Wrapped α} {w : Wrapped β}
    (h : Wrapped.Rel R v w) : Wrapped.Rel (flip R) w v := by
  cases h with
  | single h => exact .single h
  | sequence h => exact .sequence (List.Forall₂.flip h)

theorem PropertyMap.Rel.flip_of_properties {m m1 : PropertyMap}
    (hp : ∀ p ∈ m.properties, ∀ q, Property.Rel R p q →
      Property.Rel (fun type => flip (R type)) q p)
    (h : PropertyMap.Rel R m m1) : PropertyMap.Rel (fun type => flip (R type)) m1 m := by
  cases h with
  | null => exact .null
  | mk h => exact .mk (List.Forall₂.flip (forall₂_imp_of_mem hp h))

theorem Property.Rel.flip {p q : Property} (h : Property.Rel R p q) :
    Property.Rel (fun type => flip (R type)) q p := by
  induction p using Property.induct generalizing q with
  | value name access type wrapped =>
    cases h with
    | value h => exact .value h.flip
  | struct name access map ih =>
    cases h with
    | struct h => exact .struct (h.flip_of_properties fun p hp q hq => ih p hp hq)
  | structs name access maps ih =>
    cases h with
    | structs h =>
      exact .structs (List.Forall₂.flip (forall₂_imp_of_mem
        (fun map hmap map1 h => h.flip_of_properties fun p hp q hq => ih map hmap p hp hq) h))

/-! ### One after the other -/

variable {T : (type : ValueType) → type.InnerType → type.InnerType → Prop}

theorem forall₂_comp {α β γ : Type} {R : α → β → Prop} {S : β → γ → Prop} {T : α → γ → Prop}
    {l : List α} {l1 : List β} {l2 : List γ} (hRST : ∀ a ∈ l, ∀ b c, R a b → S b c → T a c)
    (h : List.Forall₂ R l l1) (h1 : List.Forall₂ S l1 l2) : List.Forall₂ T l l2 := by
  induction h generalizing l2 with
  | nil =>
    cases h1
    exact .nil
  | cons hfirst hrest ih =>
    cases h1 with
    | cons hfirst1 hrest1 =>
      exact .cons (hRST _ List.mem_cons_self _ _ hfirst hfirst1)
        (ih (fun a ha => hRST a (List.mem_cons_of_mem _ ha)) hrest1)

theorem PropertyMap.Rel.comp_of_properties {m m1 m2 : PropertyMap}
    (hp : ∀ p ∈ m.properties, ∀ q r, Property.Rel R p q → Property.Rel S q r → Property.Rel T p r)
    (h : PropertyMap.Rel R m m1) (h1 : PropertyMap.Rel S m1 m2) : PropertyMap.Rel T m m2 := by
  cases h with
  | null =>
    cases h1
    exact .null
  | mk h =>
    cases h1 with
    | mk h1 => exact .mk (forall₂_comp hp h h1)

theorem Property.Rel.comp (hRST : ∀ type u v w, R type u v → S type v w → T type u w)
    {p q r : Property} (h : Property.Rel R p q) (h1 : Property.Rel S q r) :
    Property.Rel T p r := by
  induction p using Property.induct generalizing q r with
  | value name access type wrapped =>
    cases h with
    | value h =>
      cases h1 with
      | value h1 =>
        cases h with
        | single h =>
          cases h1 with
          | single h1 => exact .value (.single (hRST _ _ _ _ h h1))
        | sequence h =>
          cases h1 with
          | sequence h1 =>
            exact .value (.sequence (forall₂_comp (fun u _ v w => hRST type u v w) h h1))
  | struct name access map ih =>
    cases h with
    | struct h =>
      cases h1 with
      | struct h1 => exact .struct (h.comp_of_properties (fun p hp q r => ih p hp) h1)
  | structs name access maps ih =>
    cases h with
    | structs h =>
      cases h1 with
      | structs h1 =>
        exact .structs (forall₂_comp (fun map hmap _ _ hm hm1 =>
          hm.comp_of_properties (fun p hp q r => ih map hmap p hp) hm1) h h1)

theorem PropertyMap.Rel.comp (hRST : ∀ type u v w, R type u v → S type v w → T type u w)
    {m m1 m2 : PropertyMap} (h : PropertyMap.Rel R m m1) (h1 : PropertyMap.Rel S m1 m2) :
    PropertyMap.Rel T m m2 :=
  h.comp_of_properties (fun _ _ _ _ => Property.Rel.comp hRST) h1

theorem PropertyMap.Rel.flip {m m1 : PropertyMap} (h : PropertyMap.Rel R m m1) :
    PropertyMap.Rel (fun type => flip (R type)) m1 m :=
  h.flip_of_properties fun _ _ _ hq => hq.flip

end Rel

theorem PropertyMap.SameShape.trans {m m1 m2 : PropertyMap} (h : m.SameShape m1)
    (h1 : m1.SameShape m2) : m.SameShape m2 :=
  h.comp (fun _ _ _ _ _ _ => trivial) h1

theorem PropertyMap.SameShape.symm {m m1 : PropertyMap} (h : m.SameShape m1) : m1.SameShape m :=
  h.flip.mono fun _ _ _ _ => trivial

theorem PropertyMap.SameValues.trans {m m1 m2 : PropertyMap} (h : m.SameValues m1)
    (h1 : m1.SameValues m2) : m.SameValues m2 :=
  h.comp (fun _ _ _ _ heq heq1 => heq.trans heq1) h1

theorem PropertyMap.SameValues.symm {m m1 : PropertyMap} (h : m.SameValues m1) : m1.SameValues m :=
  h.flip.mono fun _ _ _ heq => heq.symm

theorem PropertyMap.SameValues.sameShape {m m1 : PropertyMap} (h : m.SameValues m1) :
    m.SameShape m1 :=
  h.mono fun _ _ _ _ => trivial

/-! ## Trees without values -/

/-- There is no value in the property or below it. -/
inductive NoValues : Property → Prop
  | value {name : String} {access : AccessSpecifier} {type : ValueType} :
    NoValues (.value name access type (.sequence []))
  | struct {name : String} {access : AccessSpecifier} {map : PropertyMap}
      (h : ∀ p ∈ map.properties, NoValues p) : NoValues (.struct name access map)
  | structs {name : String} {access : AccessSpecifier} {maps : List PropertyMap}
      (h : ∀ map ∈ maps, ∀ p ∈ map.properties, NoValues p) :
    NoValues (.structs name access maps)

def PropertyMap.NoValues (m : PropertyMap) : Prop :=
  ∀ p ∈ m.properties, Xpcf.NoValues p

section NoValues

variable {R S : (type : ValueType) → type.InnerType → type.InnerType → Prop}

/-- Without values, the shape is all there is. -/
theorem NoValues.rel {p q : Property} (hp : NoValues p) (h : Property.Rel R p q) :
    Property.Rel S p q := by
  induction p using Property.induct generalizing q with
  | value name access type wrapped =>
    cases hp
    cases h with
    | value h =>
      cases h with
      | sequence h =>
        cases h
        exact .value (.sequence .nil)
  | struct name access map ih =>
    cases hp with
    | struct hp =>
      cases h with
      | struct h => exact .struct (h.mono_of_properties fun p hmem q hq => ih p hmem (hp p hmem) hq)
  | structs name access maps ih =>
    cases hp with
    | structs hp =>
      cases h with
      | structs h =>
        exact .structs (forall₂_imp_of_mem (fun map hmap map1 h =>
          h.mono_of_properties fun p hmem q hq => ih map hmap p hmem (hp map hmap p hmem) hq) h)

theorem PropertyMap.NoValues.rel {m m1 : PropertyMap} (hm : m.NoValues)
    (h : PropertyMap.Rel R m m1) : PropertyMap.Rel S m m1 :=
  h.mono_of_properties fun p hp _ hq => (hm p hp).rel hq

/-- Two relations that exclude each other hold together only where there is no
value. -/
theorem PropertyMap.Rel.forall_properties {P : Property → Prop} {m m1 : PropertyMap}
    (hp : ∀ p ∈ m.properties, ∀ q, Property.Rel R p q → Property.Rel S p q → P p)
    (h : PropertyMap.Rel R m m1) (h1 : PropertyMap.Rel S m m1) : ∀ p ∈ m.properties, P p := by
  cases h with
  | null => simp
  | mk h =>
    cases h1 with
    | mk h1 =>
      have hboth := List.Forall₂.mp (fun _ _ hq hq1 => And.intro hq hq1) h h1
      exact forall_of_forall₂ (fun p hmem q hq => hp p hmem q hq.1 hq.2) hboth

theorem noValues_of_rel (hRS : ∀ type v w, R type v w → ¬ S type v w) {p q : Property}
    (h : Property.Rel R p q) (h1 : Property.Rel S p q) : NoValues p := by
  induction p using Property.induct generalizing q with
  | value name access type wrapped =>
    cases h with
    | value h =>
      cases h1 with
      | value h1 =>
        cases h with
        | single h =>
          cases h1 with
          | single h1 => exact absurd h1 (hRS _ _ _ h)
        | sequence h =>
          cases h1 with
          | sequence h1 =>
            cases h with
            | nil => exact .value
            | cons hfirst hrest =>
              cases h1 with
              | cons hfirst1 hrest1 => exact absurd hfirst1 (hRS _ _ _ hfirst)
  | struct name access map ih =>
    cases h with
    | struct h =>
      cases h1 with
      | struct h1 => exact .struct (h.forall_properties (fun p hp q hq hq1 => ih p hp hq hq1) h1)
  | structs name access maps ih =>
    cases h with
    | structs h =>
      cases h1 with
      | structs h1 =>
        have hboth := List.Forall₂.mp (fun _ _ hq hq1 => And.intro hq hq1) h h1
        exact .structs (forall_of_forall₂ (fun map hmap map1 hq =>
          hq.1.forall_properties (fun p hp q hq hq1 => ih map hmap p hp hq hq1) hq.2) hboth)

end NoValues

/-! ## Trees that differ in every value -/

theorem ValueType.exists_ne (type : ValueType) (v : type.InnerType) : ∃ w, w ≠ v := by
  have hword : ∀ {n : Nat} (v : BitVec (n + 1)), ∃ w, w ≠ v := fun v =>
    ⟨~~~v, fun h => by simpa using congrArg (BitVec.getLsbD · 0) h⟩
  have hstring : ∀ v : String, ∃ w, w ≠ v := fun v =>
    ⟨v ++ "x", fun h => by simpa using congrArg String.length h⟩
  cases type with
  | integer => exact hword v
  | uinteger => exact hword v
  | long => exact hword v
  | ulong => exact hword v
  | charStr => exact hstring v
  | unicodeStr => exact hstring v
  | float => exact hword v
  | double => exact hword v

/-- The same shape, and no value in common. -/
abbrev PropertyMap.Differs : PropertyMap → PropertyMap → Prop :=
  PropertyMap.Rel fun _ v w => w ≠ v

theorem PropertyMap.exists_differs (m : PropertyMap) : ∃ m1, m.Differs m1 :=
  PropertyMap.exists_rel_of_properties fun p _ => Property.exists_rel ValueType.exists_ne p

theorem PropertyMap.Differs.sameShape {m m1 : PropertyMap} (h : m.Differs m1) : m.SameShape m1 :=
  h.mono fun _ _ _ _ => trivial

theorem noValues_iff {m : PropertyMap} :
    m.NoValues ↔ ∀ m1, m.SameShape m1 → m.SameValues m1 := by
  constructor
  · exact fun hm m1 h => hm.rel h
  · intro h
    obtain ⟨m1, hdiffers⟩ := m.exists_differs
    refine hdiffers.forall_properties (fun p _ q hq hq1 => ?_) (h m1 hdiffers.sameShape)
    exact noValues_of_rel (fun _ v w hne heq => hne heq.symm) hq hq1

end Xpcf
