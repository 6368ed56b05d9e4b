import Xpcf.CodeLib.Passes
import Xpcf.Model.Serialize

/-!
# What a successful configuration does

One lemma per function of `Model.Configure`: exactly when it returns
`_SUCCESS`, and what the properties are then.  The later modules use these and
do not unfold the functions.
-/

namespace Xpcf

open CodeLib CodeLib.Exec

/-- The computation returns `_SUCCESS`. -/
def Succeeds {σ : Type} (m : Exec σ Exc XPCFErrorCode) (s s1 : σ) : Prop :=
  m s = (.ok .success, s1)

section Succeeds

variable {σ : Type} {s s1 s2 : σ}

theorem succeeds_success : Succeeds (pure .success) s s1 ↔ s1 = s := by
  show (Outcome.ok XPCFErrorCode.success, s) = (.ok .success, s1) ↔ _
  rw [Prod.mk.injEq, eq_comm (a := s)]
  exact and_iff_right rfl

theorem not_succeeds_pure {code : XPCFErrorCode} (h : code ≠ .success) :
    ¬ Succeeds (pure code) s s1 := by
  intro hs
  injection hs with hcode
  exact h (Outcome.ok.inj hcode)

theorem not_succeeds_throw {e : Exc} : ¬ Succeeds (throw e) s s1 := by
  intro hs
  cases hs

/-- The step of every loop: go on while the result is `_SUCCESS`. -/
theorem succeeds_then_iff {m k : Exec σ Exc XPCFErrorCode} :
    Succeeds (m >>= fun result => if result = .success then k else pure result) s s2 ↔
      ∃ s1, Succeeds m s s1 ∧ Succeeds k s1 s2 := by
  unfold Succeeds
  rw [bind_ok_iff]
  constructor
  · rintro ⟨result, s1, hfirst, hrest⟩
    by_cases hresult : result = .success
    · rw [if_pos hresult] at hrest
      exact ⟨s1, hresult ▸ hfirst, hrest⟩
    · rw [if_neg hresult] at hrest
      exact absurd hrest (not_succeeds_pure hresult)
  · rintro ⟨s1, hfirst, hrest⟩
    exact ⟨.success, s1, hfirst, by rwa [if_pos rfl]⟩

theorem succeeds_ofExcept_bind_iff {α : Type} {x : Except Exc α}
    {k : α → Exec σ Exc XPCFErrorCode} :
    Succeeds (ofExcept x >>= k) s s1 ↔ ∃ a, x = .ok a ∧ Succeeds (k a) s s1 := by
  unfold Succeeds
  rw [bind_ok_iff]
  simp only [ofExcept_ok_iff]
  constructor
  · rintro ⟨a, _, ⟨hx, rfl⟩, hk⟩
    exact ⟨a, hx, hk⟩
  · rintro ⟨a, hx, hk⟩
    exact ⟨a, s, ⟨hx, rfl⟩, hk⟩

theorem succeeds_whileSuccess_cons {f : XMLElement → Exec σ Exc XPCFErrorCode} {elt : XMLElement}
    {elts : List XMLElement} :
    Succeeds (whileSuccess f (elt :: elts)) s s2 ↔
      ∃ s1, Succeeds (f elt) s s1 ∧ Succeeds (whileSuccess f elts) s1 s2 :=
  succeeds_then_iff

end Succeeds

/-! ## Parts of the tree -/

section Parts

theorem succeeds_onValues_iff
    {m : (type : ValueType) → Exec (Wrapped type.InnerType) Exc XPCFErrorCode}
    {otherwise : XPCFErrorCode} {name : String} {access : AccessSpecifier} {type : ValueType}
    {wrapped : Wrapped type.InnerType} {r : Property} :
    Succeeds (onValues m otherwise) (.value name access type wrapped) r ↔
      ∃ wrapped1, m type wrapped = (.ok .success, wrapped1) ∧
        r = .value name access type wrapped1 := by
  show ((m type wrapped).1, Property.value name access type (m type wrapped).2) = _ ↔ _
  rcases m type wrapped with ⟨out, wrapped1⟩
  simp only [Prod.mk.injEq]
  constructor
  · rintro ⟨rfl, rfl⟩
    exact ⟨wrapped1, ⟨rfl, rfl⟩, rfl⟩
  · rintro ⟨_, ⟨rfl, rfl⟩, rfl⟩
    exact ⟨rfl, rfl⟩

theorem succeeds_onProperties_iff {m : Exec (List Property) Exc XPCFErrorCode}
    {map map1 : PropertyMap} :
    Succeeds (onProperties m .errorNullPointer) map map1 ↔
      ∃ ps ps1, map = .mk ps ∧ Succeeds m ps ps1 ∧ map1 = .mk ps1 := by
  cases map with
  | null =>
    constructor
    · intro h
      cases h
    · rintro ⟨_, _, h, -⟩
      cases h
  | mk ps =>
    show ((m ps).1, PropertyMap.mk (m ps).2) = _ ↔ _
    unfold Succeeds
    simp only [Prod.mk.injEq, PropertyMap.mk.injEq]
    constructor
    · rintro ⟨hout, rfl⟩
      exact ⟨ps, _, rfl, Prod.ext hout rfl, rfl⟩
    · rintro ⟨_, ps1, rfl, hrun, rfl⟩
      rw [hrun]
      exact ⟨rfl, rfl⟩

/-- The properties that `getStructureValue()` leads to, and the property with
others in their place. -/
inductive Inner : Property → List Property → (List Property → Property) → Prop
  | struct {name : String} {access : AccessSpecifier} {ps : List Property} :
    Inner (.struct name access (.mk ps)) ps fun qs => .struct name access (.mk qs)
  | structs {name : String} {access : AccessSpecifier} {ps : List Property}
      {maps : List PropertyMap} :
    Inner (.structs name access (.mk ps :: maps)) ps fun qs => .structs name access (.mk qs :: maps)

theorem succeeds_onStructureValue_iff {m : Exec (List Property) Exc XPCFErrorCode} {e : Exc}
    {p r : Property} :
    Succeeds (onStructureValue (onProperties m .errorNullPointer) e) p r ↔
      ∃ ps put qs, Inner p ps put ∧ Succeeds m ps qs ∧ r = put qs := by
  have hmap : ∀ (map : PropertyMap) (f : PropertyMap → Property),
      (((onProperties m .errorNullPointer) map).1, f ((onProperties m .errorNullPointer) map).2) =
        (.ok .success, r) ↔
      ∃ ps qs, map = .mk ps ∧ Succeeds m ps qs ∧ r = f (.mk qs) := by
    intro map f
    constructor
    · intro h
      rw [Prod.mk.injEq] at h
      obtain ⟨ps, qs, hps, hm, hqs⟩ := succeeds_onProperties_iff.mp (Prod.ext h.1 rfl)
      exact ⟨ps, qs, hps, hm, by rw [← h.2]; exact congrArg f hqs⟩
    · rintro ⟨ps, qs, rfl, hm, rfl⟩
      have hrun := succeeds_onProperties_iff.mpr ⟨ps, qs, rfl, hm, rfl⟩
      unfold Succeeds at hrun
      rw [hrun]
  constructor
  · intro h
    cases p with
    | value => cases h
    | struct name access map =>
      obtain ⟨ps, qs, rfl, hm, rfl⟩ := (hmap map (.struct name access)).mp h
      exact ⟨ps, _, qs, .struct, hm, rfl⟩
    | structs name access maps =>
      cases maps with
      | nil => cases h
      | cons map maps =>
        obtain ⟨ps, qs, rfl, hm, rfl⟩ := (hmap map fun m => .structs name access (m :: maps)).mp h
        exact ⟨ps, _, qs, .structs, hm, rfl⟩
  · rintro ⟨ps, put, qs, hinner, hm, rfl⟩
    cases hinner with
    | struct => exact (hmap _ (.struct _ _)).mpr ⟨ps, qs, rfl, hm, rfl⟩
    | structs => exact (hmap _ fun m => .structs _ _ (m :: _)).mpr ⟨ps, qs, rfl, hm, rfl⟩

section Lookup

variable {β : Type} {name : String} {m : Exec Property Exc β} {unknown : Exc} {p : Property}

theorem onProperty_found (hp : p.name = name) (ps : List Property) :
    onProperty name m unknown (p :: ps) = ((m p).1, (m p).2 :: ps) :=
  if_pos hp

theorem onProperty_other (hp : p.name ≠ name) (ps : List Property) :
    onProperty name m unknown (p :: ps) =
      ((onProperty name m unknown ps).1, p :: (onProperty name m unknown ps).2) :=
  if_neg hp

/-- The property is looked up behind those of other names. -/
theorem onProperty_append {before : List Property} (hbefore : ∀ q ∈ before, q.name ≠ name)
    (hp : p.name = name) (after : List Property) :
    onProperty name m unknown (before ++ p :: after) = ((m p).1, before ++ (m p).2 :: after) := by
  induction before with
  | nil => exact onProperty_found hp after
  | cons q before ih =>
    have hrest := ih fun q hq => hbefore q (List.mem_cons_of_mem _ hq)
    refine (onProperty_other (hbefore q List.mem_cons_self) (before ++ p :: after)).trans ?_
    rw [hrest]
    rfl

/-- The property found is the first of that name. -/
theorem onProperty_cases (name : String) (m : Exec Property Exc β) (unknown : Exc)
    (ps : List Property) :
    (∀ q ∈ ps, q.name ≠ name) ∧ onProperty name m unknown ps = (.throws unknown, ps) ∨
      ∃ before p after, ps = before ++ p :: after ∧ (∀ q ∈ before, q.name ≠ name) ∧
        p.name = name := by
  induction ps with
  | nil => exact .inl ⟨by simp, rfl⟩
  | cons q ps ih =>
    by_cases hq : q.name = name
    · exact .inr ⟨[], q, ps, rfl, by simp, hq⟩
    · rcases ih with ⟨hnone, hrun⟩ | ⟨before, p, after, rfl, hbefore, hp⟩
      · refine .inl ⟨List.forall_mem_cons.mpr ⟨hq, hnone⟩, ?_⟩
        rw [onProperty_other hq, hrun]
      · exact .inr ⟨q :: before, p, after, rfl, List.forall_mem_cons.mpr ⟨hq, hbefore⟩, hp⟩

end Lookup

theorem succeeds_onProperty_append_iff {name : String} {m : Exec Property Exc XPCFErrorCode}
    {unknown : Exc} {before after qs : List Property} {p : Property}
    (hbefore : ∀ q ∈ before, q.name ≠ name) (hp : p.name = name) :
    Succeeds (onProperty name m unknown) (before ++ p :: after) qs ↔
      ∃ q, Succeeds m p q ∧ qs = before ++ q :: after := by
  unfold Succeeds
  rw [onProperty_append hbefore hp]
  rcases m p with ⟨out, q⟩
  simp only [Prod.mk.injEq]
  constructor
  · rintro ⟨rfl, rfl⟩
    exact ⟨q, ⟨rfl, rfl⟩, rfl⟩
  · rintro ⟨_, ⟨rfl, rfl⟩, rfl⟩
    exact ⟨rfl, rfl⟩

theorem succeeds_onProperty_iff {name : String} {m : Exec Property Exc XPCFErrorCode}
    {unknown : Exc} {ps qs : List Property} :
    Succeeds (onProperty name m unknown) ps qs ↔
      ∃ before p q after, ps = before ++ p :: after ∧ (∀ q ∈ before, q.name ≠ name) ∧
        p.name = name ∧ Succeeds m p q ∧ qs = before ++ q :: after := by
  constructor
  · intro h
    rcases onProperty_cases name m unknown ps with ⟨-, hrun⟩ | ⟨before, p, after, rfl, hbefore, hp⟩
    · cases hrun.symm.trans h
    · obtain ⟨q, hm, hqs⟩ := (succeeds_onProperty_append_iff hbefore hp).mp h
      exact ⟨before, p, q, after, rfl, hbefore, hp, hm, hqs⟩
  · rintro ⟨before, p, q, after, rfl, hbefore, hp, hm, hqs⟩
    exact (succeeds_onProperty_append_iff hbefore hp).mpr ⟨q, hm, hqs⟩

end Parts

/-! ## Values -/

/-- What `configureValue` needs: a text, and a conversion that reads the whole
of it into an item that the setter takes. -/
theorem succeeds_configureValue_iff {floats : FloatText} {text : String} {index : Nat}
    {name : String} {access : AccessSpecifier} {type : ValueType}
    {wrapped : Wrapped type.InnerType} {r : Property} :
    Succeeds (configureValue floats text index) (.value name access type wrapped) r ↔
      text ≠ "" ∧ ∃ processed wrapped1,
        setText floats text index type wrapped = (.ok processed, wrapped1) ∧
        (text.length = processed ∨ type = .charStr) ∧ r = .value name access type wrapped1 := by
  unfold configureValue
  split
  · rename_i hempty
    refine ⟨fun h => absurd h not_succeeds_throw, fun h => absurd ?_ h.1⟩
    exact String.isEmpty_iff.mp hempty
  · rename_i hempty
    rw [String.isEmpty_iff] at hempty
    rw [and_iff_right hempty, succeeds_onValues_iff]
    have hrethrow : ∀ e (w : Wrapped type.InnerType) w1,
        (if e.isInvalidArgument = true then throw (unexpectedValueType text type) else throw e :
          Exec (Wrapped type.InnerType) Exc XPCFErrorCode) w ≠ (.ok .success, w1) := by
      intro e w w1
      split
      · exact nofun
      · exact nofun
    simp only [tryCatch_ok_iff hrethrow, bind_ok_iff]
    constructor
    · rintro ⟨wrapped1, ⟨processed, wrapped2, hset, hcheck⟩, rfl⟩
      split at hcheck
      · cases hcheck
      · rename_i hwhole
        obtain rfl := succeeds_success.mp hcheck
        refine ⟨processed, _, hset, ?_, rfl⟩
        rwa [not_and_or, not_not, not_not] at hwhole
    · rintro ⟨processed, wrapped1, hset, hwhole, rfl⟩
      refine ⟨wrapped1, ⟨processed, wrapped1, hset, ?_⟩, rfl⟩
      rw [if_neg (by rwa [not_and_or, not_not, not_not])]
      rfl

/-! ## Properties -/

section Properties

variable {floats : FloatText} {elt : XMLElement} {nested : Exec (List Property) Exc XPCFErrorCode}

theorem succeeds_structureNode_iff {p r : Property} (htype : elt.attr "type" = some "structure") :
    Succeeds (configureFoundProperty floats elt nested) p r ↔
      ∃ ps put qs, Inner p ps put ∧ Succeeds nested ps qs ∧ r = put qs := by
  unfold configureFoundProperty
  rw [succeeds_ofExcept_bind_iff]
  simp only [XMLElement.attributeString_ok_iff, htype, Option.some.injEq, exists_eq_left']
  exact succeeds_onStructureValue_iff

theorem succeeds_valueNode_iff {type : ValueType} {p r : Property}
    (htype : elt.attr "type" = some type.toStr) :
    Succeeds (configureFoundProperty floats elt nested) p r ↔
      Succeeds (match elt.attr "value" with
        | some propertyValue => configureValue floats propertyValue 0
        | none => configureValues floats (elt.childElements "value") 0) p r := by
  have hempty : ¬ type.toStr.isEmpty = true := by cases type <;> exact Bool.false_ne_true
  have hstructure : type.toStr ≠ "structure" := by cases type <;> decide
  have hrun : configureFoundProperty floats elt nested =
      match elt.attr "value" with
      | some propertyValue => configureValue floats propertyValue 0
      | none => configureValues floats (elt.childElements "value") 0 := by
    unfold configureFoundProperty
    rw [XMLElement.attributeString_ok_iff.mpr htype, ofExcept_ok_bind]
    exact (if_neg hempty).trans (if_neg hstructure)
  rw [hrun]

theorem configureProperty_eq (floats : FloatText) (elt : XMLElement) :
    configureProperty floats elt =
      if (elt.attributeOrEmpty "name").isEmpty then pure .errorInvalidArgument
      else
        rethrowXpcf
          (fun what => XmlErrorMessage.addAttribute ⟨"property", what, false, []⟩ "name"
            (elt.attributeOrEmpty "name"))
          (onProperty (elt.attributeOrEmpty "name")
            (configureFoundProperty floats elt (configureChildren floats elt.children))
            (.configuration ("Property unknown: " ++ elt.attributeOrEmpty "name"))) := by
  cases elt
  rw [configureProperty]
  rfl

theorem succeeds_configureProperty_iff {ps qs : List Property} :
    Succeeds (configureProperty floats elt) ps qs ↔
      elt.attributeOrEmpty "name" ≠ "" ∧
        Succeeds (onProperty (elt.attributeOrEmpty "name")
          (configureFoundProperty floats elt (configureChildren floats elt.children))
          (.configuration ("Property unknown: " ++ elt.attributeOrEmpty "name"))) ps qs := by
  rw [configureProperty_eq, Ne, ← String.isEmpty_iff]
  split
  · rename_i hempty
    exact ⟨fun h => absurd h (not_succeeds_pure (by decide)), fun h => absurd hempty h.1⟩
  · rename_i hname
    rw [and_iff_right hname]
    exact rethrowXpcf_ok_iff

theorem configureChildren_nil : configureChildren floats [] = pure .success := by
  rw [configureChildren]

theorem configureChildren_property {elts : List XMLElement} (h : elt.value = "property") :
    configureChildren floats (elt :: elts) =
      configureProperty floats elt >>= fun result =>
        if result = .success then configureChildren floats elts else pure result := by
  rw [configureChildren, if_pos h]

theorem configureChildren_skip {elts : List XMLElement} (h : elt.value ≠ "property") :
    configureChildren floats (elt :: elts) = configureChildren floats elts := by
  rw [configureChildren, if_neg h]

theorem succeeds_configureChildren_append {xs ys : List XMLElement} {ps rs : List Property} :
    Succeeds (configureChildren floats (xs ++ ys)) ps rs ↔
      ∃ qs, Succeeds (configureChildren floats xs) ps qs ∧
        Succeeds (configureChildren floats ys) qs rs := by
  induction xs generalizing ps with
  | nil =>
    simp only [List.nil_append, configureChildren_nil, succeeds_success, exists_eq_left]
  | cons elt xs ih =>
    by_cases helt : elt.value = "property"
    · simp only [List.cons_append, configureChildren_property helt, succeeds_then_iff, ih]
      constructor
      · rintro ⟨qs1, hfirst, qs, hxs, hys⟩
        exact ⟨qs, ⟨qs1, hfirst, hxs⟩, hys⟩
      · rintro ⟨qs, ⟨qs1, hfirst, hxs⟩, hys⟩
        exact ⟨qs1, hfirst, qs, hxs, hys⟩
    · simp only [List.cons_append, configureChildren_skip helt, ih]

end Properties

/-! ## Documents -/

section Documents

variable {env : Env} {floats : FloatText} {predicate : XMLElement → Bool} {uuid : Uuid}
  {aliases : AliasContext}

theorem succeeds_rethrowRuntimeError_iff {σ : Type} {msg : String → XmlErrorMessage}
    {m : Exec σ Exc XPCFErrorCode} {s s1 : σ} :
    Succeeds (rethrowRuntimeError msg m) s s1 ↔ Succeeds m s s1 := by
  refine tryCatch_ok_iff fun e s2 s3 => ?_
  split
  · exact nofun
  · exact nofun

/-- A `<configure>` node configures the component that its text names, if the
predicate takes the node. -/
theorem succeeds_configureNode_iff {elt : XMLElement} {text : String}
    (htext : elt.attr "component" = some text) {target r : PropertyMap} :
    Succeeds (configureConfigureNode env floats predicate uuid aliases elt) target r ↔
      ∃ u, uuidOrAlias env aliases .component text invalidUuid = .ok u ∧
        Succeeds (if predicate elt ∧ u = uuid then configureElement floats elt else pure .success)
          target r := by
  have hrethrow : ∀ (m : Exec PropertyMap Exc XPCFErrorCode),
      Succeeds (Exec.tryCatch m fun e =>
        let componentAttrValue := elt.attributeOrEmpty "component"
        if e.isXpcf then
          throw (.configuration (XmlErrorMessage.addAttribute ⟨"configure", e.what, true, []⟩
            "component" componentAttrValue).write)
        else if e.isRuntimeError then
          let what := "UUID format invalid in \"component\":" ++ componentAttrValue
          throw (.configuration (XmlErrorMessage.write ⟨"configure", what, false, []⟩))
        else throw e) target r ↔ Succeeds m target r := by
    intro m
    refine tryCatch_ok_iff fun e s2 s3 => ?_
    dsimp only
    split
    · exact nofun
    · split
      · exact nofun
      · exact nofun
  refine (hrethrow _).trans ?_
  simp only [succeeds_ofExcept_bind_iff, XMLElement.attributeString_ok_iff, htext,
    Option.some.injEq, exists_eq_left']

/-- A document without `<configuration>`: its first `<properties>` node says what
is done. -/
theorem succeeds_configure_iff {root propsElt : XMLElement}
    (hconfig : root.childElements "configuration" = [])
    (hprops : (root.childElements "properties").head? = some propsElt) {target r : PropertyMap} :
    Succeeds (configure env floats predicate uuid aliases (some root)) target r ↔
      Succeeds (whileSuccess (configureConfigureNode env floats predicate uuid aliases)
        (propsElt.childElements "configure")) target r := by
  have hfirst : configureFromConfiguration env floats predicate uuid root = pure .success := by
    unfold configureFromConfiguration
    rw [hconfig]
    rfl
  have hsecond : configureFromProperties env floats predicate uuid aliases root =
      rethrowRuntimeError (fun what => ⟨"properties", what, true, []⟩)
        (whileSuccess (configureConfigureNode env floats predicate uuid aliases)
          (propsElt.childElements "configure")) := by
    unfold configureFromProperties
    rw [hprops]
  show Succeeds (_ >>= fun result => if result = .success then _ else pure result) _ _ ↔ _
  rw [succeeds_then_iff, hfirst, hsecond]
  simp only [succeeds_success, exists_eq_left]
  exact succeeds_rethrowRuntimeError_iff

end Documents

/-! ## A concrete conversion -/

/-- No text is a floating point number here. -/
def FloatText.none : FloatText :=
  ⟨fun _ => .invalidArgument, fun _ => .invalidArgument, fun _ => "", fun _ => ""⟩

/-! ## Names stay -/

section Names

/-- The frame of a property: its name. -/
abbrev keepsName : Frame Property := Frame.ofView Property.name

theorem keepsName_onValues {β : Type}
    (m : (type : ValueType) → Exec (Wrapped type.InnerType) Exc β) (otherwise : β) :
    Keeps keepsName (onValues m otherwise) := by
  intro p _
  cases p <;> rfl

theorem keepsName_onStructureValue {β : Type} (m : Exec PropertyMap Exc β) (e : Exc) :
    Keeps keepsName (onStructureValue m e) := by
  intro p _
  cases p with
  | value => rfl
  | struct => rfl
  | structs name access maps => cases maps <;> rfl

theorem keepsName_configureValue (floats : FloatText) (text : String) (index : Nat) :
    Keeps keepsName (configureValue floats text index) := by
  unfold configureValue
  split
  · exact Keeps.throw _
  · exact keepsName_onValues _ _

theorem keepsName_configureValues (floats : FloatText) (elts : List XMLElement) (index : Nat) :
    Keeps keepsName (configureValues floats elts index) := by
  induction elts generalizing index with
  | nil => exact Keeps.pure _
  | cons elt elts ih =>
    refine Keeps.bind (Keeps.ofExcept _) fun text => ?_
    refine Keeps.bind (keepsName_configureValue floats text index) fun result => ?_
    split
    · exact ih _
    · exact Keeps.pure _

theorem keepsName_configureFoundProperty (floats : FloatText) (elt : XMLElement)
    (nested : Exec (List Property) Exc XPCFErrorCode) :
    Keeps keepsName (configureFoundProperty floats elt nested) := by
  refine Keeps.bind (Keeps.ofExcept _) fun type => ?_
  split
  · exact Keeps.throw _
  · split
    · exact keepsName_onStructureValue _ _
    · split
      · exact keepsName_configureValue _ _ _
      · exact keepsName_configureValues _ _ _

end Names

end Xpcf
