import Xpcf.Proofs.SavedValues

/-!
# The nodes that are saved for a tree

`configureSaved floats p` is what the node that `serializeParameter` writes for
`p` does to a property, and `configureAllSaved` what the nodes of a structure do
to a structure.  The node of a property without values changes nothing, and it
succeeds exactly when the properties accept it (`succeeds_noValues_iff`).
-/

namespace Xpcf

open CodeLib CodeLib.Exec

/-! ## The nodes of a tree -/

section Nodes

variable (floats : FloatText)

theorem serializeProperties_eq (ps : List Property) :
    serializeProperties floats ps = ps.map (serializeParameter floats) := by
  induction ps with
  | nil => rw [serializeProperties, List.map_nil]
  | cons p ps ih => rw [serializeProperties, ih, List.map_cons]

theorem serializeMap_eq (map : PropertyMap) :
    serializeMap floats map = map.properties.map (serializeParameter floats) := by
  cases map with
  | null => rw [serializeMap, PropertyMap.properties_null, List.map_nil]
  | mk ps => rw [serializeMap, serializeProperties_eq, PropertyMap.properties_mk]

def Property.isStructure : Property → Bool
  | .value _ _ _ _ => false
  | .struct _ _ _ => true
  | .structs _ _ _ => true

/-- The properties whose nodes stand under the node of this one: those of every
structure that `size()` counts. -/
def Property.written : Property → List Property
  | .value _ _ _ _ => []
  | .struct _ _ map => map.properties
  | .structs _ _ maps => (maps.take (maps.length % 2 ^ 32)).flatMap PropertyMap.properties

theorem serializeParameter_structure {p : Property} (h : p.isStructure = true) :
    ∃ access, serializeParameter floats p =
      .mk "property" (propertyAttributes p.name access "structure") none
        (p.written.map (serializeParameter floats)) := by
  cases p with
  | value => cases h
  | struct name access map =>
    refine ⟨access, ?_⟩
    rw [serializeParameter, serializeMap_eq]
    rfl
  | structs name access maps =>
    have hmap : serializeMap floats = fun map =>
        map.properties.map (serializeParameter floats) := funext (serializeMap_eq floats)
    have hmaps : serializeMaps floats maps = maps.map (serializeMap floats) := by
      induction maps with
      | nil => rw [serializeMaps, List.map_nil]
      | cons map maps ih => rw [serializeMaps, ih rfl, List.map_cons]
    refine ⟨access, ?_⟩
    rw [serializeParameter, hmaps, ← List.map_take, ← List.flatMap_def, Property.written,
      List.map_flatMap, hmap]
    rfl

theorem mem_written {p : Property} {name : String} {access : AccessSpecifier}
    {maps : List PropertyMap} (h : p ∈ (Property.structs name access maps).written) :
    ∃ map ∈ maps, p ∈ map.properties := by
  obtain ⟨map, hmap, hp⟩ := List.mem_flatMap.mp h
  exact ⟨map, List.mem_of_mem_take hmap, hp⟩

theorem value_serializeParameter (p : Property) :
    (serializeParameter floats p).value = "property" := by
  cases h : p.isStructure with
  | true =>
    obtain ⟨access, heq⟩ := serializeParameter_structure floats h
    rw [heq]
    rfl
  | false =>
    cases p with
    | value name access type wrapped =>
      rw [serializeParameter]
      rcases wrapped.items.map (valueText floats type) with _ | ⟨v, _ | ⟨v1, vs⟩⟩ <;> rfl
    | struct => cases h
    | structs => cases h

theorem name_serializeParameter (p : Property) :
    (serializeParameter floats p).attributeOrEmpty "name" = p.name := by
  cases h : p.isStructure with
  | true =>
    obtain ⟨access, heq⟩ := serializeParameter_structure floats h
    rw [heq]
    rfl
  | false =>
    cases p with
    | value name access type wrapped =>
      rw [serializeParameter]
      rcases wrapped.items.map (valueText floats type) with _ | ⟨v, _ | ⟨v1, vs⟩⟩ <;> rfl
    | struct => cases h
    | structs => cases h

/-- Configure a property with the node that was saved for `p`. -/
def configureSaved (p : Property) : Exec Property Exc XPCFErrorCode :=
  configureFoundProperty floats (serializeParameter floats p)
    (configureChildren floats (serializeParameter floats p).children)

/-- Configure a map with the nodes that were saved for `ps`. -/
def configureAllSaved (ps : List Property) : Exec (List Property) Exc XPCFErrorCode :=
  configureChildren floats (ps.map (serializeParameter floats))

variable {floats}

theorem succeeds_allSaved_nil {qs rs : List Property} :
    Succeeds (configureAllSaved floats []) qs rs ↔ rs = qs := by
  rw [configureAllSaved, List.map_nil, configureChildren_nil, succeeds_success]

theorem succeeds_allSaved_cons {p : Property} {ps qs rs : List Property} :
    Succeeds (configureAllSaved floats (p :: ps)) qs rs ↔
      p.name ≠ "" ∧ ∃ qs1,
        Succeeds (onProperty p.name (configureSaved floats p)
          (.configuration ("Property unknown: " ++ p.name))) qs qs1 ∧
        Succeeds (configureAllSaved floats ps) qs1 rs := by
  unfold configureAllSaved
  rw [List.map_cons, configureChildren_property (value_serializeParameter floats p),
    succeeds_then_iff]
  simp only [succeeds_configureProperty_iff, name_serializeParameter, and_assoc,
    exists_and_left]
  exact Iff.rfl

/-- The first node, where it is known which property it is for. -/
theorem succeeds_allSaved_append_cons {p q : Property} {ps before after rs : List Property}
    (hbefore : ∀ q ∈ before, q.name ≠ p.name) (hq : q.name = p.name) :
    Succeeds (configureAllSaved floats (p :: ps)) (before ++ q :: after) rs ↔
      p.name ≠ "" ∧ ∃ r, Succeeds (configureSaved floats p) q r ∧
        Succeeds (configureAllSaved floats ps) (before ++ r :: after) rs := by
  rw [succeeds_allSaved_cons]
  simp only [succeeds_onProperty_append_iff hbefore hq]
  refine and_congr_right fun _ => ⟨?_, ?_⟩
  · rintro ⟨_, ⟨r, hr, rfl⟩, hrest⟩
    exact ⟨r, hr, hrest⟩
  · rintro ⟨r, hr, hrest⟩
    exact ⟨_, ⟨r, hr, rfl⟩, hrest⟩

theorem succeeds_allSaved_append {ps ps1 qs rs : List Property} :
    Succeeds (configureAllSaved floats (ps ++ ps1)) qs rs ↔
      ∃ qs1, Succeeds (configureAllSaved floats ps) qs qs1 ∧
        Succeeds (configureAllSaved floats ps1) qs1 rs := by
  unfold configureAllSaved
  rw [List.map_append]
  exact succeeds_configureChildren_append

theorem succeeds_savedStructure_iff {p : Property} (h : p.isStructure = true) {q r : Property} :
    Succeeds (configureSaved floats p) q r ↔
      ∃ qs put rs, Inner q qs put ∧ Succeeds (configureAllSaved floats p.written) qs rs ∧
        r = put rs := by
  obtain ⟨access, heq⟩ := serializeParameter_structure floats h
  unfold configureSaved
  rw [heq]
  exact succeeds_structureNode_iff rfl

end Nodes

/-! ## Nodes without values -/

/-- `PropertyMap::at`. -/
def propertyAt (ps : List Property) (name : String) : Option Property :=
  ps.find? fun q => q.name = name

/-- The properties take the node of `p`, which holds no value, without an error:
there is a property of its name, and where `p` is a structure so is that one. -/
inductive Accepts : List Property → Property → Prop
  | value {ps : List Property} {name : String} {access : AccessSpecifier} {type : ValueType}
      {wrapped : Wrapped type.InnerType} {q : Property} (hname : name ≠ "")
      (hat : propertyAt ps name = some q) : Accepts ps (.value name access type wrapped)
  | node {ps : List Property} {p q : Property} {qs : List Property}
      {put : List Property → Property} (hstructure : p.isStructure = true) (hname : p.name ≠ "")
      (hat : propertyAt ps p.name = some q) (hinner : Inner q qs put)
      (h : ∀ p1 ∈ p.written, Accepts qs p1) : Accepts ps p

theorem propertyAt_eq_some_iff {ps : List Property} {name : String} {q : Property} :
    propertyAt ps name = some q ↔
      ∃ before after, ps = before ++ q :: after ∧ (∀ q1 ∈ before, q1.name ≠ name) ∧
        q.name = name := by
  unfold propertyAt
  rw [List.find?_eq_some_iff_append]
  simp only [decide_eq_true_eq, Bool.not_eq_eq_eq_not, Bool.not_true, decide_eq_false_iff_not]
  constructor
  · rintro ⟨hname, before, after, hps, hbefore⟩
    exact ⟨before, after, hps, hbefore, hname⟩
  · rintro ⟨before, after, hps, hbefore, hname⟩
    exact ⟨hname, before, after, hps, hbefore⟩

theorem Inner.put_self {p : Property} {ps : List Property} {put : List Property → Property}
    (h : Inner p ps put) : put ps = p := by
  cases h <;> rfl

section Accepts

variable {floats : FloatText}

/-- A list of nodes that change nothing. -/
theorem succeeds_allSaved_iff_of_keeps {A : List Property → Property → Prop} {ps : List Property}
    (h : ∀ p ∈ ps, ∀ qs rs, Succeeds (configureAllSaved floats [p]) qs rs ↔ A qs p ∧ rs = qs)
    {qs rs : List Property} :
    Succeeds (configureAllSaved floats ps) qs rs ↔ (∀ p ∈ ps, A qs p) ∧ rs = qs := by
  induction ps with
  | nil => simp [succeeds_allSaved_nil]
  | cons p ps ih =>
    have hrest := @ih fun p hp => h p (List.mem_cons_of_mem _ hp)
    have hfirst := h p List.mem_cons_self
    rw [← List.singleton_append, succeeds_allSaved_append, List.singleton_append,
      List.forall_mem_cons]
    constructor
    · rintro ⟨_, hp, hps⟩
      obtain ⟨ha, rfl⟩ := (hfirst _ _).mp hp
      rw [hrest] at hps
      exact ⟨⟨ha, hps.1⟩, hps.2⟩
    · rintro ⟨⟨ha, hall⟩, rfl⟩
      exact ⟨_, (hfirst _ _).mpr ⟨ha, rfl⟩, hrest.mpr ⟨hall, rfl⟩⟩

theorem succeeds_allSaved_one {p : Property} {qs rs : List Property} :
    Succeeds (configureAllSaved floats [p]) qs rs ↔
      p.name ≠ "" ∧ ∃ before q r after, qs = before ++ q :: after ∧
        (∀ q1 ∈ before, q1.name ≠ p.name) ∧ q.name = p.name ∧
        Succeeds (configureSaved floats p) q r ∧ rs = before ++ r :: after := by
  simp only [succeeds_allSaved_cons, succeeds_allSaved_nil, succeeds_onProperty_iff,
    exists_eq_right']

theorem succeeds_savedEmpty_iff {name : String} {access : AccessSpecifier} {type : ValueType}
    {q r : Property} :
    Succeeds (configureSaved floats (.value name access type (.sequence []))) q r ↔ r = q := by
  unfold configureSaved
  rw [serializeParameter]
  exact (succeeds_valueNode_iff rfl).trans succeeds_success

/-- The node of a structure without values, when this is known of what it holds. -/
theorem succeeds_savedNoValues_iff {p : Property} (hstructure : p.isStructure = true)
    (h : ∀ p1 ∈ p.written, ∀ qs rs,
      Succeeds (configureAllSaved floats [p1]) qs rs ↔ Accepts qs p1 ∧ rs = qs)
    {qs rs : List Property} :
    Succeeds (configureAllSaved floats [p]) qs rs ↔ Accepts qs p ∧ rs = qs := by
  have hwritten : ∀ ps rs, Succeeds (configureAllSaved floats p.written) ps rs ↔
      (∀ p1 ∈ p.written, Accepts ps p1) ∧ rs = ps :=
    fun ps rs => succeeds_allSaved_iff_of_keeps h
  simp only [succeeds_allSaved_one, succeeds_savedStructure_iff hstructure]
  constructor
  · rintro ⟨hname, before, q, _, after, rfl, hbefore, hq, ⟨ps, put, rs, hinner, hps, rfl⟩, rfl⟩
    obtain ⟨hall, rfl⟩ := (hwritten ps rs).mp hps
    have hat := propertyAt_eq_some_iff.mpr ⟨before, after, rfl, hbefore, hq⟩
    exact ⟨.node hstructure hname hat hinner hall, by rw [hinner.put_self]⟩
  · rintro ⟨haccepts, rfl⟩
    cases haccepts with
    | value => cases hstructure
    | @node _ _ q ps put _ hname hat hinner hall =>
      obtain ⟨before, after, rfl, hbefore, hq⟩ := propertyAt_eq_some_iff.mp hat
      have hps := (hwritten ps ps).mpr ⟨hall, rfl⟩
      refine ⟨hname, before, q, put ps, after, rfl, hbefore, hq,
        ⟨ps, put, ps, hinner, hps, rfl⟩, ?_⟩
      rw [hinner.put_self]

/-- The node of a property without values changes nothing, and succeeds exactly
when it is accepted. -/
theorem succeeds_noValues_iff {p : Property} (hp : NoValues p) {qs rs : List Property} :
    Succeeds (configureAllSaved floats [p]) qs rs ↔ Accepts qs p ∧ rs = qs := by
  induction p using Property.induct generalizing qs rs with
  | value name access type wrapped =>
    cases hp
    simp only [succeeds_allSaved_one, succeeds_savedEmpty_iff]
    constructor
    · rintro ⟨hname, before, q, _, after, rfl, hbefore, hq, rfl, rfl⟩
      exact ⟨.value hname (propertyAt_eq_some_iff.mpr ⟨before, after, rfl, hbefore, hq⟩), rfl⟩
    · rintro ⟨haccepts, rfl⟩
      cases haccepts with
      | value hname hat =>
        obtain ⟨before, after, rfl, hbefore, hq⟩ := propertyAt_eq_some_iff.mp hat
        exact ⟨hname, before, _, _, after, rfl, hbefore, hq, rfl, rfl⟩
      | node hstructure => cases hstructure
  | struct name access map ih =>
    cases hp with
    | struct hp =>
      refine succeeds_savedNoValues_iff rfl fun p hmem _ _ => ?_
      exact ih p hmem (hp p hmem)
  | structs name access maps ih =>
    cases hp with
    | structs hp =>
      refine succeeds_savedNoValues_iff rfl fun p hmem _ _ => ?_
      obtain ⟨map, hmap, hpmap⟩ := mem_written hmem
      exact ih map hmap p hpmap (hp map hmap p hpmap)

theorem succeeds_allNoValues_iff {ps : List Property} (hps : ∀ p ∈ ps, NoValues p)
    {qs rs : List Property} :
    Succeeds (configureAllSaved floats ps) qs rs ↔ (∀ p ∈ ps, Accepts qs p) ∧ rs = qs :=
  succeeds_allSaved_iff_of_keeps fun p hp _ _ => succeeds_noValues_iff (hps p hp)

end Accepts

section AcceptsRel

variable {R : (type : ValueType) → type.InnerType → type.InnerType → Prop}

theorem propertyAt_rel {ps qs : List Property} (h : List.Forall₂ (Property.Rel R) ps qs)
    {name : String} {p : Property} (hat : propertyAt ps name = some p) :
    ∃ q, propertyAt qs name = some q ∧ Property.Rel R p q := by
  induction h with
  | nil => cases hat
  | @cons p1 q1 ps qs hfirst hrest ih =>
    unfold propertyAt at hat ih ⊢
    rw [List.find?_cons] at hat ⊢
    rw [← hfirst.name]
    split at hat
    · cases hat
      exact ⟨q1, rfl, hfirst⟩
    · exact ih hat

theorem inner_rel {p q : Property} (h : Property.Rel R p q) {ps : List Property}
    {put : List Property → Property} (hinner : Inner p ps put) :
    ∃ qs put1, Inner q qs put1 ∧ List.Forall₂ (Property.Rel R) ps qs := by
  cases hinner with
  | struct =>
    cases h with
    | struct h =>
      cases h with
      | mk h => exact ⟨_, _, .struct, h⟩
  | structs =>
    cases h with
    | structs h =>
      cases h with
      | cons hfirst hrest =>
        cases hfirst with
        | mk h => exact ⟨_, _, .structs, h⟩

/-- Whether a node is accepted depends on the shape of the properties only. -/
theorem Accepts.of_rel {ps qs : List Property} {p : Property} (haccepts : Accepts ps p)
    (h : List.Forall₂ (Property.Rel R) ps qs) : Accepts qs p := by
  induction haccepts generalizing qs with
  | value hname hat =>
    obtain ⟨q, hat1, -⟩ := propertyAt_rel h hat
    exact .value hname hat1
  | node hstructure hname hat hinner hall ih =>
    obtain ⟨q, hat1, hrel⟩ := propertyAt_rel h hat
    obtain ⟨qs1, put1, hinner1, hrel1⟩ := inner_rel hrel hinner
    exact .node hstructure hname hat1 hinner1 fun p hp => ih p hp hrel1

end AcceptsRel

end Xpcf
