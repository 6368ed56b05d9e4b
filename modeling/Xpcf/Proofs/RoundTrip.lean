import Xpcf.Proofs.Construction
import Xpcf.Proofs.SavedTrees

/-!
# The round trip of a component

A component is saved into a new file, and a component of the same declared shape
is configured from it.  `Restorable` is exactly when this restores every value
(`roundTrip_iff`).
-/

namespace Xpcf

open CodeLib CodeLib.Exec

/-! ## The trees -/

/-- The map is there, and `addProperty` took each name once. -/
def PropertyMap.WellFormed (map : PropertyMap) : Prop :=
  map ≠ .null ∧ (map.properties.map Property.name).Nodup

/-- A tree of integers, strings and structures. -/
inductive Plain : Property → Prop
  | value {name : String} {access : AccessSpecifier} {type : ValueType}
      {wrapped : Wrapped type.InnerType} (htype : type.IsPlain) :
    Plain (.value name access type wrapped)
  | struct {name : String} {access : AccessSpecifier} {map : PropertyMap} (hmap : map.WellFormed)
      (h : ∀ p ∈ map.properties, Plain p) : Plain (.struct name access map)
  | structs {name : String} {access : AccessSpecifier} {maps : List PropertyMap}
      (hmaps : ∀ map ∈ maps, map.WellFormed) (h : ∀ map ∈ maps, ∀ p ∈ map.properties, Plain p) :
    Plain (.structs name access maps)

def PropertyMap.Plain (map : PropertyMap) : Prop :=
  map.WellFormed ∧ ∀ p ∈ map.properties, Xpcf.Plain p

/-- The values of the property survive being saved.  Of a sequence of
structures only the first is configured: the others may hold no value, and the
first must take the nodes of those that `size()` counts. -/
inductive Restorable : Property → Prop
  | value {name : String} {access : AccessSpecifier} {type : ValueType}
      {wrapped : Wrapped type.InnerType} (hname : name ≠ "")
      (hvalues : RestorableValues type wrapped) : Restorable (.value name access type wrapped)
  | struct {name : String} {access : AccessSpecifier} {map : PropertyMap} (hname : name ≠ "")
      (h : ∀ p ∈ map.properties, Restorable p) : Restorable (.struct name access map)
  | structs {name : String} {access : AccessSpecifier} {first : PropertyMap}
      {maps : List PropertyMap} (hname : name ≠ "")
      (hsize : (maps.length + 1) % 2 ^ 32 ≠ 0) (hfirst : ∀ p ∈ first.properties, Restorable p)
      (hothers : ∀ map ∈ maps, ∀ p ∈ map.properties, NoValues p)
      (haccepts : ∀ map ∈ maps.take ((maps.length + 1) % 2 ^ 32 - 1), ∀ p ∈ map.properties,
        Accepts first.properties p) : Restorable (.structs name access (first :: maps))
  | unwritten {name : String} {access : AccessSpecifier} {first : PropertyMap}
      {maps : List PropertyMap} (hname : name ≠ "") (hsize : (maps.length + 1) % 2 ^ 32 = 0)
      (h : ∀ map ∈ first :: maps, ∀ p ∈ map.properties, NoValues p) :
    Restorable (.structs name access (first :: maps))

theorem Restorable.name_ne {p : Property} (h : Restorable p) : p.name ≠ "" := by
  cases h with
  | value hname => exact hname
  | struct hname => exact hname
  | structs hname => exact hname
  | unwritten hname => exact hname

/-! ## The properties of one structure -/

section Siblings

variable {floats : FloatText}

theorem name_configureSaved {p q r : Property} (h : Succeeds (configureSaved floats p) q r) :
    r.name = q.name :=
  (keepsName_configureFoundProperty floats _ _).of_run trivial h

/-- Each node configures the property of its own name. -/
inductive Siblings (floats : FloatText) : List Property → List Property → List Property → Prop
  | nil : Siblings floats [] [] []
  | cons {p q r : Property} {ps qs rs : List Property} (hname : p.name ≠ "")
      (hfirst : Succeeds (configureSaved floats p) q r) (hrest : Siblings floats ps qs rs) :
    Siblings floats (p :: ps) (q :: qs) (r :: rs)

theorem succeeds_siblings_iff {ps qs : List Property}
    (hnames : ps.map Property.name = qs.map Property.name)
    (hnodup : (ps.map Property.name).Nodup) {before : List Property}
    (hbefore : ∀ q ∈ before, q.name ∉ ps.map Property.name) {rs : List Property} :
    Succeeds (configureAllSaved floats ps) (before ++ qs) rs ↔
      ∃ rs1, rs = before ++ rs1 ∧ Siblings floats ps qs rs1 := by
  induction ps generalizing qs before rs with
  | nil =>
    obtain rfl : qs = [] := List.map_eq_nil_iff.mp hnames.symm
    rw [succeeds_allSaved_nil]
    constructor
    · rintro rfl
      exact ⟨[], rfl, .nil⟩
    · rintro ⟨rs1, rfl, hsiblings⟩
      cases hsiblings
      rfl
  | cons p ps ih =>
    cases qs with
    | nil => cases hnames
    | cons q qs =>
      simp only [List.map_cons, List.cons.injEq] at hnames
      simp only [List.map_cons, List.nodup_cons] at hnodup
      simp only [List.map_cons, List.mem_cons, not_or] at hbefore
      rw [succeeds_allSaved_append_cons (fun q1 hq1 => (hbefore q1 hq1).1) hnames.1.symm]
      have hrest : ∀ r, r.name = q.name → (Succeeds (configureAllSaved floats ps)
          (before ++ r :: qs) rs ↔
          ∃ rs1, rs = before ++ [r] ++ rs1 ∧ Siblings floats ps qs rs1) := by
        intro r hr
        rw [List.append_cons]
        refine ih hnames.2 hnodup.2 fun q1 hq1 => ?_
        rcases List.mem_append.mp hq1 with hmem | hmem
        · exact (hbefore q1 hmem).2
        · rw [List.mem_singleton.mp hmem, hr, ← hnames.1]
          exact hnodup.1
      constructor
      · rintro ⟨hname, r, hfirst, hsaved⟩
        obtain ⟨rs1, rfl, hsiblings⟩ := (hrest r (name_configureSaved hfirst)).mp hsaved
        exact ⟨r :: rs1, by simp, .cons hname hfirst hsiblings⟩
      · rintro ⟨_, rfl, hsiblings⟩
        cases hsiblings with
        | @cons _ _ r _ _ rs1 hname hfirst hsiblings =>
          refine ⟨hname, r, hfirst, ?_⟩
          exact (hrest r (name_configureSaved hfirst)).mpr ⟨rs1, by simp, hsiblings⟩

theorem exists_siblings {A B : Property → Property → Prop} {ps qs : List Property}
    (h : ∀ p ∈ ps, p.name ≠ "" ∧
      ∀ q, A p q → ∃ r, Succeeds (configureSaved floats p) q r ∧ B p r)
    (hps : List.Forall₂ A ps qs) : ∃ rs, Siblings floats ps qs rs ∧ List.Forall₂ B ps rs := by
  induction hps with
  | nil => exact ⟨[], .nil, .nil⟩
  | cons hfirst hrest ih =>
    obtain ⟨hname, hsaved⟩ := h _ List.mem_cons_self
    obtain ⟨r, hr, hb⟩ := hsaved _ hfirst
    obtain ⟨rs, hrs, hbs⟩ := ih fun p hp => h p (List.mem_cons_of_mem _ hp)
    exact ⟨r :: rs, .cons hname hr hrs, .cons hb hbs⟩

theorem Siblings.forall {A B : Property → Property → Prop} {P : Property → Prop}
    {ps qs rs : List Property} (hsiblings : Siblings floats ps qs rs)
    (h : ∀ p ∈ ps, ∀ q r, A p q → p.name ≠ "" → Succeeds (configureSaved floats p) q r →
      B p r → P p)
    (ha : List.Forall₂ A ps qs) (hb : List.Forall₂ B ps rs) : ∀ p ∈ ps, P p := by
  induction hsiblings with
  | nil => simp
  | cons hname hfirst hrest ih =>
    cases ha with
    | cons ha has =>
      cases hb with
      | cons hb hbs =>
        refine List.forall_mem_cons.mpr ⟨h _ List.mem_cons_self _ _ ha hname hfirst hb, ?_⟩
        exact ih (fun p hp => h p (List.mem_cons_of_mem _ hp)) has hbs

theorem succeeds_map_iff {R : (type : ValueType) → type.InnerType → type.InnerType → Prop}
    {map : PropertyMap} (hmap : map.WellFormed) {qs rs : List Property}
    (h : List.Forall₂ (Property.Rel R) map.properties qs) :
    Succeeds (configureAllSaved floats map.properties) qs rs ↔
      Siblings floats map.properties qs rs := by
  have hsiblings := @succeeds_siblings_iff floats map.properties qs (names_of_rel h) hmap.2 []
    (by simp) rs
  simpa using hsiblings

end Siblings

/-! ## Every value is restored -/

section Restored

variable {floats : FloatText}

/-- The target of a structure that is there. -/
theorem PropertyMap.Rel.eq_mk {R : (type : ValueType) → type.InnerType → type.InnerType → Prop}
    {map map1 : PropertyMap} (hmap : map.WellFormed) (h : PropertyMap.Rel R map map1) :
    ∃ qs, map1 = .mk qs ∧ List.Forall₂ (Property.Rel R) map.properties qs := by
  cases h with
  | null => exact absurd rfl hmap.1
  | mk h => exact ⟨_, rfl, h⟩

theorem PropertyMap.rel_mk {R : (type : ValueType) → type.InnerType → type.InnerType → Prop}
    {map : PropertyMap} (hmap : map.WellFormed) {qs : List Property}
    (h : List.Forall₂ (Property.Rel R) map.properties qs) : PropertyMap.Rel R map (.mk qs) := by
  cases map with
  | null => exact absurd rfl hmap.1
  | mk ps => exact .mk h

/-- The same names, types and values. -/
abbrev Property.SameValues : Property → Property → Prop :=
  Property.Rel fun _ v w => v = w

theorem map_restored {map : PropertyMap} (hmap : map.WellFormed)
    (h : ∀ p ∈ map.properties, p.name ≠ "" ∧ ∀ q, Property.Rel (fun _ _ _ => True) p q →
      ∃ r, Succeeds (configureSaved floats p) q r ∧ p.SameValues r) {qs : List Property}
    (hqs : List.Forall₂ (Property.Rel fun _ _ _ => True) map.properties qs) :
    ∃ rs, Succeeds (configureAllSaved floats map.properties) qs rs ∧
      List.Forall₂ Property.SameValues map.properties rs := by
  obtain ⟨rs, hsiblings, hsame⟩ := exists_siblings h hqs
  exact ⟨rs, (succeeds_map_iff hmap hqs).mpr hsiblings, hsame⟩

/-- The first structure of a sequence, and the others that are written. -/
theorem written_cons {name : String} {access : AccessSpecifier} {first : PropertyMap}
    {maps : List PropertyMap} (hsize : (maps.length + 1) % 2 ^ 32 ≠ 0) :
    (Property.structs name access (first :: maps)).written =
      first.properties ++
        (maps.take ((maps.length + 1) % 2 ^ 32 - 1)).flatMap PropertyMap.properties := by
  obtain ⟨n, hn⟩ := Nat.exists_eq_succ_of_ne_zero hsize
  show ((first :: maps).take ((maps.length + 1) % 2 ^ 32)).flatMap _ = _
  rw [hn, List.take_succ_cons, List.flatMap_cons]
  rfl

theorem written_none {name : String} {access : AccessSpecifier} {first : PropertyMap}
    {maps : List PropertyMap} (hsize : (maps.length + 1) % 2 ^ 32 = 0) :
    (Property.structs name access (first :: maps)).written = [] := by
  show ((first :: maps).take ((maps.length + 1) % 2 ^ 32)).flatMap _ = _
  rw [hsize]
  rfl

theorem noValues_of_written {maps : List PropertyMap}
    (h : ∀ map ∈ maps, ∀ p ∈ map.properties, NoValues p) (n : Nat) :
    ∀ p ∈ (maps.take n).flatMap PropertyMap.properties, NoValues p := by
  intro p hp
  obtain ⟨map, hmap, hmem⟩ := List.mem_flatMap.mp hp
  exact h map (List.mem_of_mem_take hmap) p hmem

theorem accepts_of_written {maps : List PropertyMap} {ps qs : List Property}
    {R : (type : ValueType) → type.InnerType → type.InnerType → Prop}
    (h : ∀ map ∈ maps, ∀ p ∈ map.properties, Accepts ps p)
    (hrel : List.Forall₂ (Property.Rel R) ps qs) :
    ∀ p ∈ maps.flatMap PropertyMap.properties, Accepts qs p := by
  intro p hp
  obtain ⟨map, hmap, hmem⟩ := List.mem_flatMap.mp hp
  exact (h map hmap p hmem).of_rel hrel

theorem restored {p : Property} (hp : Plain p) (hr : Restorable p) {q : Property}
    (h : Property.Rel (fun _ _ _ => True) p q) :
    ∃ r, Succeeds (configureSaved floats p) q r ∧ p.SameValues r := by
  induction p using Property.induct generalizing q with
  | value name access type wrapped =>
    cases hp with
    | value htype =>
      cases hr with
      | value hname hvalues =>
        cases h with
        | @value _ _ access1 _ _ w h =>
          obtain ⟨htexts, hput⟩ := putAll_restorable floats htype hvalues h
          have hlength : wrapped.items.length ≤ w.length := h.length ▸ wrapped.length_items_le
          refine ⟨.value name access1 type wrapped, ?_, .value (Wrapped.Rel.refl (fun _ => rfl) _)⟩
          exact (succeeds_savedValue_iff htype hlength).mpr ⟨htexts, by rw [hput]⟩
  | struct name access map ih =>
    cases hp with
    | struct hmap hp =>
      cases hr with
      | struct hname hr =>
        cases h with
        | @struct _ _ access1 _ _ h =>
          obtain ⟨qs, rfl, hqs⟩ := h.eq_mk hmap
          obtain ⟨rs, hrs, hsame⟩ := map_restored hmap
            (fun p hmem =>
              ⟨(hr p hmem).name_ne, fun q hq => ih p hmem (hp p hmem) (hr p hmem) hq⟩) hqs
          refine ⟨.struct name access1 (.mk rs), ?_, .struct (PropertyMap.rel_mk hmap hsame)⟩
          exact (succeeds_savedStructure_iff rfl).mpr ⟨qs, _, rs, .struct, hrs, rfl⟩
  | structs name access maps ih =>
    cases hp with
    | structs hmaps hp =>
      cases h with
      | @structs _ _ access1 _ _ h =>
        cases hr with
        | @structs _ _ first maps hname hsize hfirst hothers haccepts =>
          cases h with
          | @cons _ first1 _ maps1 hrel hrels =>
            obtain ⟨qs, rfl, hqs⟩ := hrel.eq_mk (hmaps first List.mem_cons_self)
            obtain ⟨rs, hrs, hsame⟩ := map_restored (hmaps first List.mem_cons_self)
              (fun p hmem => ⟨(hfirst p hmem).name_ne, fun q hq =>
                ih first List.mem_cons_self p hmem (hp first List.mem_cons_self p hmem)
                  (hfirst p hmem) hq⟩) hqs
            have hnone := noValues_of_written hothers ((maps.length + 1) % 2 ^ 32 - 1)
            have hrest := (@succeeds_allNoValues_iff floats _ hnone rs rs).mpr
              ⟨accepts_of_written haccepts hsame, rfl⟩
            refine ⟨.structs name access1 (.mk rs :: maps1), ?_, .structs (.cons
              (PropertyMap.rel_mk (hmaps first List.mem_cons_self) hsame) ?_)⟩
            · refine (succeeds_savedStructure_iff rfl).mpr ⟨qs, _, rs, .structs, ?_, rfl⟩
              rw [written_cons hsize, succeeds_allSaved_append]
              exact ⟨rs, hrs, hrest⟩
            · exact forall₂_imp_of_mem (fun map hmap _ hmaprel =>
                PropertyMap.NoValues.rel (hothers map hmap) hmaprel) hrels
        | @unwritten _ _ first maps hname hsize hnone =>
          cases h with
          | @cons _ first1 _ maps1 hrel hrels =>
            obtain ⟨qs, rfl, hqs⟩ := hrel.eq_mk (hmaps first List.mem_cons_self)
            refine ⟨.structs name access1 (.mk qs :: maps1), ?_, .structs ?_⟩
            · refine (succeeds_savedStructure_iff rfl).mpr ⟨qs, _, qs, .structs, ?_, rfl⟩
              rw [written_none hsize]
              exact succeeds_allSaved_nil.mpr rfl
            · exact forall₂_imp_of_mem (fun map hmap _ hmaprel =>
                PropertyMap.NoValues.rel (hnone map hmap) hmaprel) (.cons hrel hrels)

end Restored

/-! ## Nothing else is restored -/

section Restorable

variable {floats : FloatText}

theorem map_restorable {map : PropertyMap} (hmap : map.WellFormed)
    (h : ∀ p ∈ map.properties, ∀ q r, Property.Rel (fun _ v w => w ≠ v) p q → p.name ≠ "" →
      Succeeds (configureSaved floats p) q r → p.SameValues r → Restorable p)
    {qs rs : List Property} (hdiffers : PropertyMap.Differs map (.mk qs))
    (hsame : PropertyMap.SameValues map (.mk rs))
    (hs : Succeeds (configureAllSaved floats map.properties) qs rs) :
    ∀ p ∈ map.properties, Restorable p := by
  obtain ⟨_, heq, hqs⟩ := hdiffers.eq_mk hmap
  obtain rfl := PropertyMap.mk.inj heq
  obtain ⟨_, heq1, hrs⟩ := hsame.eq_mk hmap
  obtain rfl := PropertyMap.mk.inj heq1
  exact ((succeeds_map_iff hmap hqs).mp hs).forall h hqs hrs

/-- Where the values of a target that differs are the saved ones afterwards,
there were none. -/
theorem noValues_of_unchanged {maps maps1 : List PropertyMap}
    (hdiffers : List.Forall₂ PropertyMap.Differs maps maps1)
    (hsame : List.Forall₂ PropertyMap.SameValues maps maps1) :
    ∀ map ∈ maps, ∀ p ∈ map.properties, NoValues p := by
  have hboth := List.Forall₂.mp (fun _ _ h h1 => And.intro h h1) hdiffers hsame
  refine forall_of_forall₂ (fun map _ map1 h => h.1.forall_properties (fun p _ q hq hq1 => ?_) h.2)
    hboth
  exact noValues_of_rel (fun _ v w hne heq => hne heq.symm) hq hq1

theorem Wrapped.Rel.eq {α : Type} {w w1 : Wrapped α} (h : Wrapped.Rel (fun v v1 => v = v1) w w1) :
    w = w1 := by
  cases h with
  | single h => rw [h]
  | sequence h =>
    rw [List.forall₂_eq_eq_eq] at h
    rw [h]

theorem restorable_of_restored {p : Property} (hp : Plain p) (hname : p.name ≠ "")
    {q r : Property} (hdiffers : Property.Rel (fun _ v w => w ≠ v) p q)
    (hs : Succeeds (configureSaved floats p) q r) (hsame : p.SameValues r) : Restorable p := by
  induction p using Property.induct generalizing q r with
  | value name access type wrapped =>
    cases hp with
    | value htype =>
      cases hdiffers with
      | @value _ _ access1 _ _ w h =>
        have hlength : wrapped.items.length ≤ w.length := h.length ▸ wrapped.length_items_le
        obtain ⟨htexts, rfl⟩ := (succeeds_savedValue_iff htype hlength).mp hs
        cases hsame with
        | value hsame =>
          exact .value hname (restorable_of_putAll floats htype h htexts hsame.eq.symm)
  | struct name access map ih =>
    cases hp with
    | struct hmap hp =>
      obtain ⟨qs, put, rs, hinner, hrun, rfl⟩ := (succeeds_savedStructure_iff rfl).mp hs
      cases hdiffers with
      | struct hdiffers =>
        cases hinner with
        | struct =>
          cases hsame with
          | struct hsame =>
            exact .struct hname (map_restorable hmap
              (fun p hmem q r hq hne hs hsame => ih p hmem (hp p hmem) hne hq hs hsame)
              hdiffers hsame hrun)
  | structs name access maps ih =>
    cases hp with
    | structs hmaps hp =>
      obtain ⟨qs, put, rs, hinner, hrun, rfl⟩ := (succeeds_savedStructure_iff rfl).mp hs
      cases hdiffers with
      | structs hdiffers =>
        cases hinner with
        | @structs _ _ _ maps1 =>
          cases hsame with
          | structs hsame =>
            cases hdiffers with
            | @cons first _ maps _ hfirst hothers =>
              cases hsame with
              | cons hfirst1 hothers1 =>
                have hnone := noValues_of_unchanged hothers hothers1
                by_cases hsize : (maps.length + 1) % 2 ^ 32 = 0
                · rw [written_none hsize, succeeds_allSaved_nil] at hrun
                  rw [hrun] at hfirst1
                  exact .unwritten hname hsize (noValues_of_unchanged (.cons hfirst hothers)
                    (.cons hfirst1 hothers1))
                · rw [written_cons hsize, succeeds_allSaved_append] at hrun
                  obtain ⟨qs1, hrun1, hrun2⟩ := hrun
                  obtain ⟨haccepts, rfl⟩ := (succeeds_allNoValues_iff
                    (noValues_of_written hnone _)).mp hrun2
                  have hwf := hmaps first List.mem_cons_self
                  obtain ⟨_, heq, hrel⟩ := hfirst1.eq_mk hwf
                  obtain rfl := PropertyMap.mk.inj heq
                  refine .structs hname hsize ?_ hnone fun map hmap p hmem => ?_
                  · exact map_restorable hwf (fun p hmem q r hq hne hs hsame =>
                      ih first List.mem_cons_self p hmem (hp first List.mem_cons_self p hmem) hne hq
                        hs hsame) hfirst hfirst1 hrun1
                  · have hq := haccepts p (List.mem_flatMap.mpr ⟨map, hmap, hmem⟩)
                    exact hq.of_rel (List.Forall₂.flip (hrel.imp fun _ _ h => h.flip))

end Restorable

/-! ## Documents -/

section Documents

variable {env : Env} {floats : FloatText} {aliases : AliasContext} {uuid : Uuid}

/-- Saving adds one `<properties>` node, behind the others. -/
theorem childElements_serialize (saved : Uuid) (values : PropertyMap) (file : Option XMLElement) :
    (serialize floats saved values file).childElements "configuration" =
        (file.elim [] fun root => root.childElements "configuration") ∧
      (serialize floats saved values file).childElements "properties" =
        (file.elim [] fun root => root.childElements "properties") ++
          [serializedProperties floats saved values] := by
  have hinsert : ∀ (root child : XMLElement) (name : String),
      (root.insertEndChild child).childElements name =
        root.childElements name ++ [child].filter fun child => child.value = name := by
    rintro ⟨tag, attributes, text, children⟩ child name
    exact List.filter_append children [child]
  have hvalue : (serializedProperties floats saved values).value = "properties" := rfl
  have hnew : ∀ name, (XMLElement.mk "xpcf-configuration" [] none []).childElements name = [] :=
    fun _ => rfl
  unfold serialize
  cases file with
  | none => simp [hinsert, hvalue, hnew]
  | some root => simp [hinsert, hvalue]

/-- The component that a `<configure>` node names which was saved for `uuid`. -/
def namedBy (env : Env) (aliases : AliasContext) (uuid : Uuid) : Except Exc Uuid :=
  uuidOrAlias env aliases .component uuid.toString invalidUuid

theorem exists_namedBy (h : env.toUUID uuid.toString = some uuid) :
    ∃ u, namedBy env aliases uuid = .ok u := by
  unfold namedBy uuidOrAlias
  split
  · rename_i halias
    obtain ⟨u, hu⟩ := Table.contains_iff.mp halias
    exact ⟨u, by rw [resolveAlias, hu]⟩
  · rw [h]
    exact ⟨uuid, rfl⟩

/-- What `configure` does with a document whose first `<properties>` node was
saved for the component `saved` with these values. -/
theorem succeeds_savedDocument_iff {root : XMLElement} {saved : Uuid} {values : PropertyMap}
    (hconfig : root.childElements "configuration" = [])
    (hprops : (root.childElements "properties").head? =
      some (serializedProperties floats saved values)) {target r : PropertyMap} :
    Succeeds (configure env floats unnamedPredicate uuid aliases (some root)) target r ↔
      ∃ u, namedBy env aliases saved = .ok u ∧
        ((u = uuid ∧ ∃ qs rs, target = .mk qs ∧
            Succeeds (configureAllSaved floats values.properties) qs rs ∧ r = .mk rs) ∨
          (u ≠ uuid ∧ r = target)) := by
  have hnodes : (serializedProperties floats saved values).childElements "configure" =
      [.mk "configure" [("component", saved.toString)] none (serializeMap floats values)] := rfl
  rw [succeeds_configure_iff hconfig hprops, hnodes, succeeds_whileSuccess_cons]
  simp only [whileSuccess, succeeds_success, exists_eq_right']
  refine (succeeds_configureNode_iff rfl).trans ?_
  refine exists_congr fun u => and_congr_right fun _ => ?_
  by_cases hu : u = uuid
  · rw [if_pos ⟨rfl, hu⟩]
    unfold configureElement
    rw [succeeds_onProperties_iff]
    simp only [hu, true_and, ne_eq, not_true_eq_false, false_and, or_false, XMLElement.children,
      serializeMap_eq]
    exact Iff.rfl
  · rw [if_neg fun h => hu h.2, succeeds_success]
    simp [hu]

/-- Configuring from the document succeeds on every component of the shape of
`values`, and the component has these values then. -/
def Restores (env : Env) (floats : FloatText) (aliases : AliasContext) (uuid : Uuid)
    (document : XMLElement) (values : PropertyMap) : Prop :=
  ∀ target, values.SameShape target → ∃ restored,
    configure env floats unnamedPredicate uuid aliases (some document) target =
      (.ok .success, restored) ∧ values.SameValues restored

/-- The node names another component: the target stays as it is. -/
theorem restores_other_iff {root : XMLElement} {saved u : Uuid} {values values1 : PropertyMap}
    (hconfig : root.childElements "configuration" = [])
    (hprops : (root.childElements "properties").head? =
      some (serializedProperties floats saved values))
    (hnamed : namedBy env aliases saved = .ok u) (hu : u ≠ uuid) :
    Restores env floats aliases uuid root values1 ↔ values1.NoValues := by
  have hrun : ∀ target r, Succeeds (configure env floats unnamedPredicate uuid aliases (some root))
      target r ↔ r = target := by
    intro target r
    rw [succeeds_savedDocument_iff hconfig hprops]
    simp only [hnamed, Except.ok.injEq, exists_eq_left']
    simp [hu]
  rw [noValues_iff]
  refine forall_congr' fun target => forall_congr' fun _ => ?_
  constructor
  · rintro ⟨restored, hconfigure, hsame⟩
    rwa [(hrun target restored).mp hconfigure] at hsame
  · exact fun hsame => ⟨target, (hrun target target).mpr rfl, hsame⟩

/-- The node names the component itself. -/
theorem restores_itself_iff {root : XMLElement} {values : PropertyMap} (hplain : values.Plain)
    (hconfig : root.childElements "configuration" = [])
    (hprops : (root.childElements "properties").head? =
      some (serializedProperties floats uuid values))
    (hnamed : namedBy env aliases uuid = .ok uuid) :
    Restores env floats aliases uuid root values ↔ ∀ p ∈ values.properties, Restorable p := by
  have hrun : ∀ target r, Succeeds (configure env floats unnamedPredicate uuid aliases (some root))
      target r ↔ ∃ qs rs, target = .mk qs ∧
        Succeeds (configureAllSaved floats values.properties) qs rs ∧ r = .mk rs := by
    intro target r
    rw [succeeds_savedDocument_iff hconfig hprops]
    simp only [hnamed, Except.ok.injEq, exists_eq_left', true_and, ne_eq, not_true_eq_false,
      false_and, or_false]
  obtain ⟨hmap, hp⟩ := hplain
  constructor
  · intro h
    obtain ⟨target, hdiffers⟩ := values.exists_differs
    obtain ⟨restored, hconfigure, hsame⟩ := h target hdiffers.sameShape
    obtain ⟨qs, rs, rfl, hsaved, rfl⟩ := (hrun target restored).mp hconfigure
    exact map_restorable hmap (fun p hmem q r hq hname hs hsame =>
      restorable_of_restored (hp p hmem) hname hq hs hsame) hdiffers hsame hsaved
  · intro h target hshape
    obtain ⟨qs, rfl, hqs⟩ := hshape.eq_mk hmap
    obtain ⟨rs, hsaved, hsame⟩ := map_restored hmap
      (fun p hmem => ⟨(h p hmem).name_ne, fun q hq => restored (hp p hmem) (h p hmem) hq⟩) hqs
    exact ⟨.mk rs, (hrun _ _).mpr ⟨qs, rs, rfl, hsaved, rfl⟩, PropertyMap.rel_mk hmap hsame⟩

end Documents

/-! ## The round trip -/

/-- A component that is saved into a new file and configured from it gets every
value back exactly when every property is restorable.  (If an alias of another
component has the text of the UUID as its name, nothing is configured.) -/
theorem roundTrip_iff (env : Env) (floats : FloatText) (aliases : AliasContext) (uuid : Uuid)
    {values : PropertyMap} (hplain : values.Plain)
    (htext : env.toUUID uuid.toString = some uuid) :
    Restores env floats aliases uuid (serialize floats uuid values none) values ↔
      if namedBy env aliases uuid = .ok uuid then ∀ p ∈ values.properties, Restorable p
      else values.NoValues := by
  obtain ⟨u, hnamed⟩ := @exists_namedBy env aliases uuid htext
  obtain ⟨hconfig, hprops⟩ := @childElements_serialize floats uuid values none
  have hfirst := congrArg List.head? hprops
  split
  · rename_i hitself
    exact restores_itself_iff hplain hconfig hfirst hitself
  · rename_i hother
    refine restores_other_iff hconfig hfirst hnamed fun hu => hother ?_
    rw [hnamed, hu]

def countAndLabels : PropertyMap :=
  .mk [.value "count" .inOut .integer (.single (-5)),
    .struct "inner" .inOut (.mk [.value "labels" .inOut .charStr (.sequence ["on", "off"])])]

theorem plain_countAndLabels : countAndLabels.Plain := by
  refine ⟨⟨by simp [countAndLabels], by decide⟩, List.forall_mem_cons.mpr ⟨.value trivial, ?_⟩⟩
  refine List.forall_mem_singleton.mpr (.struct ⟨by simp, by decide⟩ ?_)
  exact List.forall_mem_singleton.mpr (.value trivial)

theorem restorable_countAndLabels : ∀ p ∈ countAndLabels.properties, Restorable p := by
  refine List.forall_mem_cons.mpr ⟨.value (by decide) trivial, ?_⟩
  refine List.forall_mem_singleton.mpr (.struct (by decide) ?_)
  refine List.forall_mem_singleton.mpr (.value (by decide) ⟨by decide, ?_⟩)
  simp [ValueType.Restorable]

theorem roundTrip_countAndLabels :
    Restores (Env.simple []) .none AliasContext.empty 1
      (serialize .none 1 countAndLabels none) countAndLabels := by
  refine (roundTrip_iff (Env.simple []) .none AliasContext.empty 1 plain_countAndLabels
    (by rfl)).mpr ?_
  rw [if_pos (by rfl)]
  exact restorable_countAndLabels

def emptyLabel : PropertyMap := .mk [.value "label" .inOut .charStr (.single "")]

def twoItems (first second : BitVec 32) : PropertyMap :=
  .mk [.structs "items" .inOut
    [.mk [.value "x" .inOut .uinteger (.single first)],
      .mk [.value "x" .inOut .uinteger (.single second)]]]

/-- An empty string is refused, and the second structure of a sequence is read
into the first. -/
theorem values_not_restored :
    (emptyLabel.Plain ∧ ¬ Restores (Env.simple []) .none AliasContext.empty 1
      (serialize .none 1 emptyLabel none) emptyLabel) ∧
    ((twoItems 7 8).Plain ∧
      configure (Env.simple []) .none unnamedPredicate 1 AliasContext.empty
        (some (serialize .none 1 (twoItems 7 8) none)) (twoItems 0 0) =
          (.ok .success, twoItems 8 0)) := by
  have hitem : ∀ x : BitVec 32,
      (PropertyMap.mk [.value "x" .inOut .uinteger (.single x)]).Plain := fun x =>
    ⟨⟨by simp, List.nodup_singleton _⟩, List.forall_mem_singleton.mpr (.value trivial)⟩
  refine ⟨⟨⟨⟨by simp [emptyLabel], by decide⟩, List.forall_mem_singleton.mpr (.value trivial)⟩, ?_⟩,
    ⟨⟨by simp [twoItems], by decide⟩, List.forall_mem_singleton.mpr ?_⟩, by rfl⟩
  · intro h
    obtain ⟨restored, hrun, -⟩ := h emptyLabel (PropertyMap.Rel.refl (fun _ _ => trivial) _)
    cases hrun
  · refine .structs ?_ ?_
    · exact List.forall_mem_cons.mpr ⟨(hitem 7).1, List.forall_mem_singleton.mpr (hitem 8).1⟩
    · exact List.forall_mem_cons.mpr ⟨(hitem 7).2, List.forall_mem_singleton.mpr (hitem 8).2⟩

end Xpcf
