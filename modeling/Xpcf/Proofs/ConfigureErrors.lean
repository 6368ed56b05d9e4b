import Xpcf.CodeLib.Decides
import Xpcf.Proofs.Construction
import Xpcf.Proofs.LoadErrors
import Xpcf.Proofs.SavedTrees

/-!
# The exceptions that leave `configure`

The catch clauses of `configure` take the framework's exceptions, the
`std::runtime_error` of a malformed UUID and the `std::invalid_argument` of a
malformed number.  A number out of range, an index that a setter does not take,
a missing text or attribute throw a `std::logic_error` or one of its subclasses,
and pass through.

* `ConfigStep`: the steps of a configuration that can end it;
* `documentSteps`: the steps for a document and a tree of properties, in order;
* `configure_reported_iff`: the call ends as it should exactly when the first
  step that is not accepted, if there is one, is not refused.
-/

namespace Xpcf

open CodeLib CodeLib.Exec

/-! ## Steps -/

/-- What the conversion for the type makes of a text.  A string is taken as it
is; there is no conversion for a unicode string. -/
def conversionOf (floats : FloatText) (text : String) : ValueType → Conversion Unit
  | .integer => (stol text).map fun _ => ()
  | .uinteger => (stoul text).map fun _ => ()
  | .long => (stol text).map fun _ => ()
  | .ulong => (stoul text).map fun _ => ()
  | .float => (floats.stof text).map fun _ => ()
  | .double => (floats.stod text).map fun _ => ()
  | .charStr => .read () text.length
  | .unicodeStr => .invalidArgument

/-- The setter takes the index. -/
def Wrapped.TakesIndex {α : Type} (type : ValueType) (index : Nat) : Wrapped α → Prop
  | .single _ => index = 0 ∨ type = .charStr
  | .sequence vs => index < vs.length

/-- The conversion reads the whole text, and the setter takes the index. -/
def Wrapped.Fits {α : Type} (type : ValueType) (index length : Nat) (conversion : Conversion Unit)
    (wrapped : Wrapped α) : Prop :=
  conversion = .read () length ∧ wrapped.TakesIndex type index

/-- The number is out of range, or there is no item at the index. -/
def Wrapped.Exceeds {α : Type} (type : ValueType) (index : Nat) (conversion : Conversion Unit)
    (wrapped : Wrapped α) : Prop :=
  conversion = .outOfRange ∨
    (∃ processed, conversion = .read () processed) ∧ ¬ wrapped.TakesIndex type index

/-- The text is written into the property. -/
def ValueAccepted (floats : FloatText) (text : String) (index : Nat) : Property → Prop
  | .value _ _ type wrapped =>
    text ≠ "" ∧ wrapped.Fits type index text.length (conversionOf floats text type)
  | _ => False

/-- Writing the text into the property throws `std::out_of_range`. -/
def ValueRefused (floats : FloatText) (text : String) (index : Nat) : Property → Prop
  | .value _ _ type wrapped =>
    text ≠ "" ∧ wrapped.Exceeds type index (conversionOf floats text type)
  | _ => False

/-- `getStructureValue()`. -/
def Property.structureMap : Property → Option PropertyMap
  | .struct _ _ map => some map
  | .structs _ _ (map :: _) => some map
  | _ => none

def PropertyMap.deref : PropertyMap → Option (List Property)
  | .null => none
  | .mk ps => some ps

/-- A step of a configuration that can end it. -/
inductive ConfigStep where
  /-- Read an attribute that is not checked beforehand. -/
  | attribute (elt : XMLElement) (name : String)
  /-- Read the UUID of a `<component>` node. -/
  | uuid (elt : XMLElement)
  /-- Read the text of a `<value>` node. -/
  | valueText (elt : XMLElement)
  /-- Write a text into a property. -/
  | value (text : String) (index : Nat) (p : Property)
  /-- Find a property. -/
  | property (ps : List Property) (name : String)
  /-- Go to a structure. -/
  | structureValue (p : Property)
  | properties (map : PropertyMap)
  /-- End with an error code or a `ConfigurationException`. -/
  | report

section Steps

variable (env : Env) (floats : FloatText)

/-- The configuration goes on after the step. -/
def ConfigStep.Accepted : ConfigStep → Prop
  | .attribute elt name => (elt.attr name).isSome = true
  | .uuid elt => (env.toUUID (elt.attributeOrEmpty "uuid")).isSome = true
  | .valueText elt => ∃ text, elt.textString = .ok text
  | .value text index p => ValueAccepted floats text index p
  | .property ps name => (propertyAt ps name).isSome = true
  | .structureValue p => p.structureMap.isSome = true
  | .properties map => map.deref.isSome = true
  | .report => False

/-- The step throws what `configure` does not handle.  The handler of a malformed
UUID reads the attribute `name` without a check. -/
def ConfigStep.Refused : ConfigStep → Prop
  | .attribute elt name => elt.attr name = none
  | .uuid elt => env.toUUID (elt.attributeOrEmpty "uuid") = none ∧ elt.attr "name" = none
  | .valueText elt => ¬ ∃ text, elt.textString = .ok text
  | .value text index p => ValueRefused floats text index p
  | .property _ _ => False
  | .structureValue p => ∃ name access, p = .structs name access []
  | .properties _ => False
  | .report => False

/-- The steps of the `<value>` nodes of a property. -/
def valueSteps : List XMLElement → Nat → Property → List ConfigStep
  | [], _, _ => []
  | valueElt :: valueElts, index, p =>
    .valueText valueElt ::
      match valueElt.textString with
      | .ok text => .value text index p :: valueSteps valueElts ((index + 1) % 2 ^ 32) p
      | .error _ => []

def mapSteps (nested : List Property → List ConfigStep) (map : PropertyMap) : List ConfigStep :=
  .properties map :: map.deref.elim [] nested

/-- The steps of a `<property>` node whose property is found. -/
def foundSteps (elt : XMLElement) (nested : List Property → List ConfigStep) (p : Property) :
    List ConfigStep :=
  .attribute elt "type" ::
    match elt.attr "type" with
    | none => []
    | some type =>
      if type.isEmpty then [.report]
      else if type = "structure" then
        .structureValue p :: p.structureMap.elim [] (mapSteps nested)
      else
        match elt.attr "value" with
        | some text => [.value text 0 p]
        | none => valueSteps (elt.childElements "value") 0 p

mutual

/-- The steps of a `<property>` node. -/
def propertySteps : XMLElement → List Property → List ConfigStep
  | .mk tag attributes text children, ps =>
    let elt := XMLElement.mk tag attributes text children
    if (elt.attributeOrEmpty "name").isEmpty then [.report]
    else
      .property ps (elt.attributeOrEmpty "name") ::
        (propertyAt ps (elt.attributeOrEmpty "name")).elim []
          (foundSteps elt (childSteps children))

def childSteps : List XMLElement → List Property → List ConfigStep
  | [], _ => []
  | elt :: siblings, ps =>
    if elt.value = "property" then propertySteps elt ps ++ childSteps siblings ps
    else childSteps siblings ps

end

def elementSteps (elt : XMLElement) : PropertyMap → List ConfigStep :=
  mapSteps (childSteps elt.children)

variable (xmlNodePredicate : XMLElement → Bool) (componentUUID : Uuid) (aliases : AliasContext)

/-- The steps of a `<component>` node. -/
def componentSteps (elt : XMLElement) (map : PropertyMap) : List ConfigStep :=
  .attribute elt "uuid" ::
    if xmlNodePredicate elt then
      .uuid elt ::
        if env.toUUID (elt.attributeOrEmpty "uuid") = some componentUUID then elementSteps elt map
        else []
    else []

/-- The steps of a `<configure>` node.  A malformed UUID is reported. -/
def configureSteps (elt : XMLElement) (map : PropertyMap) : List ConfigStep :=
  .attribute elt "component" ::
    match uuidOrAlias env aliases .component (elt.attributeOrEmpty "component") invalidUuid with
    | .ok uuid =>
      if xmlNodePredicate elt ∧ uuid = componentUUID then elementSteps elt map else []
    | .error _ => [.report]

/-- The steps of a configuration, in their order: the first `<configuration>`
node and the first `<properties>` node. -/
def documentSteps (document : Option XMLElement) (map : PropertyMap) : List ConfigStep :=
  match document with
  | none => []
  | some rootElt =>
    ((rootElt.childElements "configuration").take 1).flatMap (fun elt =>
        (elt.childElements "component").flatMap fun elt =>
          componentSteps env xmlNodePredicate componentUUID elt map) ++
      ((rootElt.childElements "properties").take 1).flatMap fun elt =>
        (elt.childElements "configure").flatMap fun elt =>
          configureSteps env xmlNodePredicate componentUUID aliases elt map

end Steps

/-! ## Shapes -/

/-- The same name and type, and as many values. -/
abbrev Property.SameShape : Property → Property → Prop :=
  Property.Rel fun _ _ _ => True

theorem Property.SameShape.symm {p q : Property} (h : p.SameShape q) : q.SameShape p :=
  h.flip.mono fun _ _ _ _ => trivial

theorem Property.SameShape.trans {p q r : Property} (h : p.SameShape q) (h1 : q.SameShape r) :
    p.SameShape r :=
  h.comp (fun _ _ _ _ _ _ => trivial) h1

def propertyShape : Setoid Property where
  r := Property.SameShape
  iseqv :=
    { refl := Property.Rel.refl fun _ _ => trivial
      symm := Property.SameShape.symm
      trans := Property.SameShape.trans }

def propertiesShape : Setoid (List Property) where
  r := List.Forall₂ Property.SameShape
  iseqv :=
    { refl := fun _ => List.forall₂_same.mpr fun p _ => propertyShape.refl p
      symm := fun h => List.Forall₂.flip (h.imp fun _ _ hp => hp.symm)
      trans := fun h h1 => forall₂_comp (fun _ _ _ _ hp hp1 => hp.trans hp1) h h1 }

def mapShape : Setoid PropertyMap where
  r := PropertyMap.SameShape
  iseqv :=
    { refl := PropertyMap.Rel.refl fun _ _ => trivial
      symm := PropertyMap.SameShape.symm
      trans := PropertyMap.SameShape.trans }

/-- A computation that the steps decide: it returns `_SUCCESS`, throws what
`configure` does not handle, or else returns another code or throws a
`ConfigurationException`. -/
abbrev DecidedBySteps {σ : Type} (env : Env) (floats : FloatText) (S : Setoid σ)
    (m : Exec σ Exc XPCFErrorCode) (steps : σ → List ConfigStep) : Prop :=
  DecidedBy S .success (fun e => Reported (.throws e)) Unhandled (ConfigStep.Accepted env floats)
    (ConfigStep.Refused env floats) m steps

/-! ## Values -/

section Values

variable {floats : FloatText} {text : String} {index : Nat} {type : ValueType}

theorem setValue_sequence_run {α : Type} (vs : List α) (v : α) :
    (index < vs.length ∧ ∃ wrapped1, setValue index v (.sequence vs) = (.ok (), wrapped1) ∧
        Wrapped.Rel (fun _ _ => True) (.sequence vs) wrapped1) ∨
      ¬ index < vs.length ∧ ∃ e,
        setValue index v (.sequence vs) = (.throws e, .sequence vs) ∧
          e.isInvalidArgument = false ∧ Unhandled e := by
  by_cases hindex : index < vs.length
  · refine .inl ⟨hindex, .sequence (vs.set index v), if_pos hindex, .sequence ?_⟩
    rw [List.forall₂_iff_get]
    exact ⟨by simp, fun _ _ _ => trivial⟩
  · exact .inr ⟨hindex, .rangeCheck, if_neg hindex, rfl, rfl⟩

/-- The setter, by whether it takes the index. -/
theorem setValue_run {α : Type} (htype : type ≠ .charStr) (v : α) (wrapped : Wrapped α) :
    (wrapped.TakesIndex type index ∧ ∃ wrapped1,
        setValue index v wrapped = (.ok (), wrapped1) ∧
          Wrapped.Rel (fun _ _ => True) wrapped wrapped1) ∨
      ¬ wrapped.TakesIndex type index ∧ ∃ e,
        setValue index v wrapped = (.throws e, wrapped) ∧ e.isInvalidArgument = false ∧
          Unhandled e := by
  cases wrapped with
  | single w =>
    by_cases hindex : index = 0
    · subst hindex
      exact .inl ⟨.inl rfl, .single v, rfl, .single trivial⟩
    · refine .inr ⟨fun h => h.elim hindex htype, .itemIndex, ?_, rfl, rfl⟩
      exact if_pos (Nat.one_le_iff_ne_zero.mpr hindex)
  | sequence vs => exact setValue_sequence_run vs v

theorem setStringValue_run (v : String) (wrapped : Wrapped String) :
    (wrapped.TakesIndex .charStr index ∧ ∃ wrapped1,
        setStringValue index v wrapped = (.ok (), wrapped1) ∧
          Wrapped.Rel (fun _ _ => True) wrapped wrapped1) ∨
      ¬ wrapped.TakesIndex .charStr index ∧ ∃ e,
        setStringValue index v wrapped = (.throws e, wrapped) ∧ e.isInvalidArgument = false ∧
          Unhandled e := by
  cases wrapped with
  | single w => exact .inl ⟨.inr rfl, .single v, rfl, .single trivial⟩
  | sequence vs => exact setValue_sequence_run vs v

/-- The `try` block of `configureValue` around the switch. -/
def checkProcessed (text : String) (type : ValueType)
    (m : Exec (Wrapped type.InnerType) Exc Nat) :
    Exec (Wrapped type.InnerType) Exc XPCFErrorCode :=
  Exec.tryCatch
    (do
      let processedValue ← m
      if text.length ≠ processedValue ∧ type ≠ .charStr then
        throw (unexpectedValueType text type)
      else pure .success)
    fun e => if e.isInvalidArgument then throw (unexpectedValueType text type) else throw e

theorem configureValue_eq (h : text ≠ "") :
    configureValue floats text index =
      onValues (fun type => checkProcessed text type (setText floats text index type))
        .errorType :=
  if_neg fun hempty => h (String.isEmpty_iff.mp hempty)

theorem checkProcessed_of_ok {m : Exec (Wrapped type.InnerType) Exc Nat} {processed : Nat}
    {wrapped wrapped1 : Wrapped type.InnerType} (h : m wrapped = (.ok processed, wrapped1)) :
    checkProcessed text type m wrapped =
      if text.length ≠ processed ∧ type ≠ .charStr then
        (.throws (unexpectedValueType text type), wrapped1)
      else (.ok .success, wrapped1) := by
  unfold checkProcessed
  rw [tryCatch_run, bind_run_of_ok h]
  by_cases hpart : text.length ≠ processed ∧ type ≠ .charStr
  · rw [if_pos hpart, if_pos hpart]
    rfl
  · rw [if_neg hpart, if_neg hpart]
    rfl

theorem checkProcessed_of_throws {m : Exec (Wrapped type.InnerType) Exc Nat} {e : Exc}
    {wrapped wrapped1 : Wrapped type.InnerType} (h : m wrapped = (.throws e, wrapped1)) :
    checkProcessed text type m wrapped =
      (.throws (if e.isInvalidArgument then unexpectedValueType text type else e), wrapped1) := by
  unfold checkProcessed
  rw [tryCatch_run, bind_run, h]
  dsimp only
  split
  · rfl
  · rfl

/-- How the `try` block ends: by what the conversion makes of the text and by
whether the setter takes the index. -/
def EndsBy (text : String) (index : Nat) (type : ValueType) (conversion : Conversion Unit)
    (wrapped : Wrapped type.InnerType)
    (result : Outcome Exc XPCFErrorCode × Wrapped type.InnerType) : Prop :=
  (wrapped.Fits type index text.length conversion ∧ result.1 = .ok .success ∧
      Wrapped.Rel (fun _ _ => True) wrapped result.2) ∨
    (wrapped.Exceeds type index conversion ∧ ∃ e, result.1 = .throws e ∧ Unhandled e) ∨
    ¬ wrapped.Fits type index text.length conversion ∧ ¬ wrapped.Exceeds type index conversion ∧
      ∃ e, result.1 = .throws e ∧ Reported (.throws e)

theorem endsBy_of_throws {m : Exec (Wrapped type.InnerType) Exc Nat} {e : Exc}
    {conversion : Conversion Unit} {wrapped wrapped1 : Wrapped type.InnerType}
    (hm : m wrapped = (.throws e, wrapped1)) (he : e.isInvalidArgument = false ∧ Unhandled e)
    (hexceeds : wrapped.Exceeds type index conversion) :
    EndsBy text index type conversion wrapped (checkProcessed text type m wrapped) := by
  rw [checkProcessed_of_throws hm, he.1]
  exact .inr (.inl ⟨hexceeds, e, rfl, he.2⟩)

/-- Without a conversion the text is unexpected. -/
theorem endsBy_unexpected {wrapped wrapped1 : Wrapped type.InnerType} :
    EndsBy text index type .invalidArgument wrapped
      (.throws (unexpectedValueType text type), wrapped1) := by
  have hexceeds : ¬ wrapped.Exceeds type index .invalidArgument := by
    rintro (h | ⟨⟨_, h⟩, -⟩)
    · cases h
    · cases h
  exact .inr (.inr ⟨(fun h => nomatch h.1), hexceeds, _, rfl, rfl⟩)

theorem endsBy_of_invalid {m : Exec (Wrapped type.InnerType) Exc Nat} {e : Exc}
    {wrapped wrapped1 : Wrapped type.InnerType} (hm : m wrapped = (.throws e, wrapped1))
    (he : e.isInvalidArgument = true) :
    EndsBy text index type .invalidArgument wrapped (checkProcessed text type m wrapped) := by
  rw [checkProcessed_of_throws hm, if_pos he]
  exact endsBy_unexpected

theorem endsBy_of_ok {m : Exec (Wrapped type.InnerType) Exc Nat} {processed length : Nat}
    {wrapped wrapped1 : Wrapped type.InnerType} (hm : m wrapped = (.ok processed, wrapped1))
    (hrel : Wrapped.Rel (fun _ _ => True) wrapped wrapped1)
    (htakes : wrapped.TakesIndex type index)
    (hwhole : (text.length = processed ∨ type = .charStr) ↔ length = text.length) :
    EndsBy text index type (.read () length) wrapped (checkProcessed text type m wrapped) := by
  rw [checkProcessed_of_ok hm]
  by_cases hlength : length = text.length
  · rw [if_neg fun h => (hwhole.mpr hlength).elim h.1 h.2, hlength]
    exact .inl ⟨⟨rfl, htakes⟩, rfl, hrel⟩
  · rw [if_pos (not_or.mp fun h => hlength (hwhole.mp h))]
    refine .inr (.inr ⟨fun h => hlength (Conversion.read.inj h.1).2, ?_, _, rfl, rfl⟩)
    rintro (h | ⟨-, h⟩)
    · cases h
    · exact h htakes

theorem endsBy_converted (type : ValueType) (htype : type ≠ .charStr)
    (conversion : Conversion type.InnerType) (wrapped : Wrapped type.InnerType) :
    EndsBy text index type (conversion.map fun _ => ()) wrapped
      (checkProcessed text type (setConverted conversion index) wrapped) := by
  cases conversion with
  | invalidArgument =>
    have hrun : setConverted (α := type.InnerType) .invalidArgument index wrapped =
        (.throws (.std .invalidArgument "stol"), wrapped) := rfl
    exact endsBy_of_invalid hrun rfl
  | outOfRange =>
    have hrun : setConverted (α := type.InnerType) .outOfRange index wrapped =
        (.throws (.std .outOfRange "stol"), wrapped) := rfl
    exact endsBy_of_throws hrun ⟨rfl, rfl⟩ (.inl rfl)
  | read v processed =>
    rcases setValue_run htype v wrapped with ⟨htakes, wrapped1, hset, hrel⟩ | ⟨htakes, e, hset, he⟩
    · have hrun : setConverted (.read v processed) index wrapped = (.ok processed, wrapped1) :=
        bind_run_of_ok hset
      refine endsBy_of_ok hrun hrel htakes ?_
      rw [or_iff_left htype, eq_comm]
    · have hrun : setConverted (.read v processed) index wrapped = (.throws e, wrapped) := by
        show (setValue index v >>= fun _ => pure processed) wrapped = _
        rw [bind_run, hset]
      exact endsBy_of_throws hrun he (.inr ⟨⟨processed, rfl⟩, htakes⟩)

theorem Conversion.map_map {α β γ : Type} (f : α → β) (g : β → γ) (conversion : Conversion α) :
    (conversion.map f).map g = conversion.map (g ∘ f) := by
  cases conversion with
  | invalidArgument => rfl
  | outOfRange => rfl
  | read v processed => rfl

theorem endsBy_integer (type : ValueType) (htype : type ≠ .charStr) (f : Int → type.InnerType)
    (conversion : Conversion Int) (wrapped : Wrapped type.InnerType) :
    EndsBy text index type (conversion.map fun _ => ()) wrapped
      (checkProcessed text type (setConverted (conversion.map f) index) wrapped) := by
  have h : EndsBy text index type ((conversion.map f).map fun _ => ()) wrapped _ :=
    endsBy_converted type htype (conversion.map f) wrapped
  rw [Conversion.map_map] at h
  exact h

/-- How the switch of `configureValue` ends. -/
theorem endsBy_setText (htext : text ≠ "") (wrapped : Wrapped type.InnerType) :
    EndsBy text index type (conversionOf floats text type) wrapped
      (checkProcessed text type (setText floats text index type) wrapped) := by
  cases type with
  | integer => exact endsBy_integer .integer (by decide) (BitVec.ofInt 32) (stol text) wrapped
  | uinteger => exact endsBy_integer .uinteger (by decide) (BitVec.ofInt 32) (stoul text) wrapped
  | long => exact endsBy_integer .long (by decide) (BitVec.ofInt 64) (stol text) wrapped
  | ulong => exact endsBy_integer .ulong (by decide) (BitVec.ofInt 64) (stoul text) wrapped
  | float => exact endsBy_converted .float (by decide) (floats.stof text) wrapped
  | double => exact endsBy_converted .double (by decide) (floats.stod text) wrapped
  | charStr =>
    rcases setStringValue_run (cString text) wrapped with
      ⟨htakes, wrapped1, hset, hrel⟩ | ⟨htakes, e, hset, he⟩
    · have hrun : setText floats text index .charStr wrapped = (.ok 0, wrapped1) :=
        bind_run_of_ok hset
      exact endsBy_of_ok hrun hrel htakes (iff_of_true (.inr rfl) rfl)
    · have hrun : setText floats text index .charStr wrapped = (.throws e, wrapped) := by
        show (setStringValue index (cString text) >>= fun _ => pure 0) wrapped = _
        rw [bind_run, hset]
      exact endsBy_of_throws hrun he (.inr ⟨⟨_, rfl⟩, htakes⟩)
  | unicodeStr =>
    -- nothing is processed, so a text is always unexpected
    have hrun : setText floats text index .unicodeStr wrapped = (.ok 0, wrapped) := rfl
    have hlength : text.length ≠ 0 := fun h => htext (String.length_eq_zero_iff.mp h)
    rw [checkProcessed_of_ok hrun, if_pos ⟨hlength, by decide⟩]
    exact endsBy_unexpected

theorem takesIndex_iff_of_rel {α : Type} {R : α → α → Prop} {wrapped wrapped1 : Wrapped α}
    (h : Wrapped.Rel R wrapped wrapped1) :
    wrapped.TakesIndex type index ↔ wrapped1.TakesIndex type index := by
  cases h with
  | single => exact Iff.rfl
  | sequence h => exact iff_of_eq (congrArg (index < ·) h.length_eq)

theorem valueAccepted_of_shape {p q : Property} (h : p.SameShape q)
    (haccepted : ValueAccepted floats text index p) : ValueAccepted floats text index q := by
  cases h with
  | value h =>
    obtain ⟨htext, hwhole, htakes⟩ := haccepted
    exact ⟨htext, hwhole, (takesIndex_iff_of_rel h).mp htakes⟩
  | struct => exact haccepted
  | structs => exact haccepted

theorem valueRefused_of_shape {p q : Property} (h : p.SameShape q)
    (hrefused : ValueRefused floats text index p) : ValueRefused floats text index q := by
  cases h with
  | value h =>
    obtain ⟨htext, hexceeds⟩ := hrefused
    exact ⟨htext, hexceeds.imp_right fun hindex =>
      ⟨hindex.1, fun htakes => hindex.2 ((takesIndex_iff_of_rel h).mpr htakes)⟩⟩
  | struct => exact hrefused
  | structs => exact hrefused

theorem not_exceeds_of_fits {length : Nat} {conversion : Conversion Unit}
    {wrapped : Wrapped type.InnerType} (hfits : wrapped.Fits type index length conversion) :
    ¬ wrapped.Exceeds type index conversion := by
  obtain ⟨rfl, htakes⟩ := hfits
  rintro (h | ⟨-, h⟩)
  · cases h
  · exact h htakes

theorem decides_configureValue (floats : FloatText) (text : String) (index : Nat) :
    Decides propertyShape .success (fun e => Reported (.throws e)) Unhandled
      (configureValue floats text index) (ValueAccepted floats text index)
      (ValueRefused floats text index) where
  accepts p haccepted := by
    cases p with
    | value name access type wrapped =>
      obtain ⟨htext, hfits⟩ := haccepted
      rw [configureValue_eq htext]
      rcases endsBy_setText htext wrapped with
        ⟨-, hout, hrel⟩ | ⟨hexceeds, -⟩ | ⟨hother, -⟩
      · exact ⟨_, Prod.ext hout rfl, .value hrel⟩
      · exact absurd hexceeds (not_exceeds_of_fits hfits)
      · exact absurd hfits hother
    | struct => exact haccepted.elim
    | structs => exact haccepted.elim
  fails p hrefused := by
    cases p with
    | value name access type wrapped =>
      obtain ⟨htext, hexceeds⟩ := hrefused
      rw [configureValue_eq htext]
      rcases endsBy_setText htext wrapped with
        ⟨hfits, -⟩ | ⟨-, e, hout, he⟩ | ⟨-, hother, -⟩
      · exact absurd hexceeds (not_exceeds_of_fits hfits)
      · exact escapes_of_throws hout he
      · exact absurd hexceeds hother
    | struct => exact hrefused.elim
    | structs => exact hrefused.elim
  gives_up p haccepted hrefused := by
    by_cases htext : text = ""
    · subst htext
      exact rfl
    · rw [configureValue_eq htext]
      cases p with
      | value name access type wrapped =>
        rcases endsBy_setText htext wrapped with
          ⟨hfits, -⟩ | ⟨hexceeds, -⟩ | ⟨-, -, e, hout, he⟩
        · exact absurd ⟨htext, hfits⟩ haccepted
        · exact absurd ⟨htext, hexceeds⟩ hrefused
        · exact givesUp_of_throws hout he
      | struct => exact fun h => nomatch h
      | structs => exact fun h => nomatch h
  stable_accepts _ _ := valueAccepted_of_shape
  stable_fails _ _ := valueRefused_of_shape

end Values

/-! ## Property nodes -/

section Nodes

variable {env : Env} {floats : FloatText}

theorem decidedBy_configureValue (text : String) (index : Nat) :
    DecidedBySteps env floats propertyShape (configureValue floats text index) fun p =>
      [.value text index p] :=
  (decides_configureValue floats text index).congr (fun p => by simp [ConfigStep.Accepted])
    fun p => by simp [ConfigStep.Refused]

theorem decidedBy_configureValues (elts : List XMLElement) (index : Nat) :
    DecidedBySteps env floats propertyShape (configureValues floats elts index)
      (valueSteps elts index) := by
  induction elts generalizing index with
  | nil => exact DecidedBy.nil
  | cons elt elts ih =>
    cases htext : elt.textString with
    | ok text =>
      have hrun : configureValues floats (elt :: elts) index =
          configureValue floats text index >>= fun result =>
            if result = .success then configureValues floats elts ((index + 1) % 2 ^ 32)
            else pure result := by
        rw [configureValues, htext]
        rfl
      have hsteps : valueSteps (elt :: elts) index = fun p =>
          .valueText elt ::
            ([.value text index p] ++ valueSteps elts ((index + 1) % 2 ^ 32) p) := by
        funext p
        rw [valueSteps, htext]
        rfl
      rw [hrun, hsteps]
      exact DecidedBy.cons ⟨text, htext⟩ (not_not.mpr ⟨text, htext⟩)
        ((decidedBy_configureValue text index).andThen (ih _))
    | error e =>
      have hrun : configureValues floats (elt :: elts) index = throw e := by
        rw [configureValues, htext]
        rfl
      have hsteps : valueSteps (elt :: elts) index = fun _ => [.valueText elt] := by
        funext p
        rw [valueSteps, htext]
      have hmissing : ¬ ∃ text, elt.textString = .ok text := by
        rw [htext]
        rintro ⟨text, h⟩
        cases h
      have he : Unhandled e := by
        obtain ⟨tag, attributes, _ | text, children⟩ := elt
        · cases htext
          rfl
        · cases htext
      rw [hrun, hsteps]
      exact DecidedBy.of_refused hmissing hmissing he

/-- A computation that begins by reading an attribute. -/
theorem decidedBy_attribute {σ : Type} {S : Setoid σ} {elt : XMLElement} {name : String}
    {m : Exec σ Exc XPCFErrorCode} {steps : σ → List ConfigStep}
    (hnone : elt.attr name = none → m = Exec.throw Exc.logicError)
    (hsome : ∀ text, elt.attr name = some text → DecidedBySteps env floats S m steps) :
    DecidedBySteps env floats S m fun s => .attribute elt name :: steps s := by
  cases hattr : elt.attr name with
  | none =>
    rw [hnone hattr]
    refine DecidedBy.of_refused ?_ hattr rfl
    show ¬ (elt.attr name).isSome = true
    rw [hattr]
    exact Bool.false_ne_true
  | some text =>
    refine DecidedBy.cons (Option.isSome_iff_exists.mpr ⟨text, hattr⟩) ?_ (hsome text hattr)
    show ¬ elt.attr name = none
    rw [hattr]
    exact nofun

theorem decidedBy_onProperties {m : Exec (List Property) Exc XPCFErrorCode}
    {steps : List Property → List ConfigStep}
    (hm : DecidedBySteps env floats propertiesShape m steps) :
    DecidedBySteps env floats mapShape (onProperties m .errorNullPointer) (mapSteps steps) := by
  refine hm.focus ?_ ?_ (fun _ => Iff.rfl) (fun _ h => h.elim) ?_ (fun _ _ _ h => h)
  · intro map ps hps
    cases map with
    | null => cases hps
    | mk qs =>
      cases hps
      exact ⟨.mk, rfl, fun qs hqs => .mk hqs⟩
  · intro map hnull
    cases map with
    | null => exact ⟨fun h => h.elim, fun _ => nofun⟩
    | mk qs => cases hnull
  · intro map map1 ps hshape hps
    cases hshape with
    | null => cases hps
    | mk hqs =>
      cases hps
      exact ⟨_, rfl, hqs⟩

theorem decidedBy_onStructureValue {m : Exec PropertyMap Exc XPCFErrorCode} {what : String}
    {steps : PropertyMap → List ConfigStep} (hm : DecidedBySteps env floats mapShape m steps) :
    DecidedBySteps env floats propertyShape (onStructureValue m (.configuration what)) fun p =>
      .structureValue p :: p.structureMap.elim [] steps := by
  refine hm.focus ?_ ?_ (fun _ => Iff.rfl) ?_ ?_ ?_
  · intro p map hmap
    cases p with
    | value => cases hmap
    | struct name access map1 =>
      cases hmap
      exact ⟨.struct name access, rfl, fun map1 h => .struct h⟩
    | structs name access maps =>
      cases maps with
      | nil => cases hmap
      | cons map1 maps =>
        cases hmap
        refine ⟨fun map1 => .structs name access (map1 :: maps), rfl, fun map1 h => .structs ?_⟩
        exact .cons h (List.forall₂_same.mpr fun map _ => mapShape.refl map)
  · intro p hnone
    cases p with
    | value => exact ⟨(fun ⟨_, _, h⟩ => nomatch h), fun _ => rfl⟩
    | struct => cases hnone
    | structs name access maps =>
      cases maps with
      | nil => exact ⟨fun _ => rfl, fun h => absurd ⟨name, access, rfl⟩ h⟩
      | cons => cases hnone
  · rintro p ⟨name, access, rfl⟩
    rfl
  · intro p q map hshape hmap
    cases hshape with
    | value => cases hmap
    | struct h =>
      cases hmap
      exact ⟨_, rfl, h⟩
    | structs h =>
      cases h with
      | nil => cases hmap
      | cons hfirst hrest =>
        cases hmap
        exact ⟨_, rfl, hfirst⟩
  · rintro p q hshape ⟨name, access, rfl⟩
    cases hshape with
    | structs h =>
      cases h
      exact ⟨name, _, rfl⟩

theorem decidedBy_onProperty {m : Exec Property Exc XPCFErrorCode} {name what : String}
    {steps : Property → List ConfigStep} (hm : DecidedBySteps env floats propertyShape m steps) :
    DecidedBySteps env floats propertiesShape (onProperty name m (.configuration what)) fun ps =>
      .property ps name :: (propertyAt ps name).elim [] steps := by
  refine hm.focus ?_ ?_ (fun _ => Iff.rfl) (fun _ h => h.elim) ?_ (fun _ _ _ h => h)
  · intro ps p hp
    obtain ⟨before, after, rfl, hbefore, hname⟩ := propertyAt_eq_some_iff.mp hp
    refine ⟨fun q => before ++ q :: after, onProperty_append hbefore hname after, fun q hq => ?_⟩
    exact List.rel_append (propertiesShape.refl before) (.cons hq (propertiesShape.refl after))
  · intro ps hnone
    rcases onProperty_cases name m (.configuration what) ps with
      ⟨-, hrun⟩ | ⟨before, p, after, rfl, hbefore, hp⟩
    · exact ⟨fun h => h.elim, fun _ => givesUp_of_throws (congrArg Prod.fst hrun) rfl⟩
    · rw [propertyAt_eq_some_iff.mpr ⟨before, after, rfl, hbefore, hp⟩] at hnone
      cases hnone
  · exact fun ps qs p hshape hp => propertyAt_rel hshape hp

theorem decidedBy_configureFoundProperty {elt : XMLElement}
    {nested : Exec (List Property) Exc XPCFErrorCode} {steps : List Property → List ConfigStep}
    (hnested : DecidedBySteps env floats propertiesShape nested steps) :
    DecidedBySteps env floats propertyShape (configureFoundProperty floats elt nested)
      (foundSteps elt steps) := by
  unfold configureFoundProperty
  refine decidedBy_attribute (fun htype => ?_) fun type htype => ?_
  · rw [XMLElement.attributeString_of_none htype]
    rfl
  · rw [XMLElement.attributeString_ok_iff.mpr htype, htype]
    show DecidedBySteps env floats propertyShape (if type.isEmpty then _ else _) fun p =>
      if type.isEmpty then _ else _
    split
    · exact DecidedBy.of_givesUp id id fun _ => rfl
    · split
      · exact decidedBy_onStructureValue (decidedBy_onProperties hnested)
      · cases elt.attr "value" with
        | some text => exact decidedBy_configureValue text 0
        | none => exact decidedBy_configureValues _ 0

/-- A catch clause that reports what is reported, and passes on what nothing
handles. -/
def KeepsFamily {σ : Type} (handler : Exc → Exec σ Exc XPCFErrorCode) : Prop :=
  ∀ e, (Reported (.throws e) → ∃ e1, handler e = Exec.throw e1 ∧ Reported (.throws e1)) ∧
    (Unhandled e → handler e = Exec.throw e)

theorem decidedBy_tryCatch {σ : Type} {S : Setoid σ} {m : Exec σ Exc XPCFErrorCode}
    {handler : Exc → Exec σ Exc XPCFErrorCode} {steps : σ → List ConfigStep}
    (hhandler : KeepsFamily handler) (hm : DecidedBySteps env floats S m steps) :
    DecidedBySteps env floats S (Exec.tryCatch m handler) steps := by
  refine Decides.tryCatch hm (fun e s he => ?_) fun e s he => ?_
  · obtain ⟨e1, hthrow, he1⟩ := (hhandler e).1 he
    rw [hthrow]
    exact ⟨e1, rfl, he1⟩
  · rw [(hhandler e).2 he]
    exact ⟨e, rfl, he⟩

theorem decidedBy_rethrowXpcf {σ : Type} {S : Setoid σ} {msg : String → XmlErrorMessage}
    {m : Exec σ Exc XPCFErrorCode} {steps : σ → List ConfigStep}
    (hm : DecidedBySteps env floats S m steps) :
    DecidedBySteps env floats S (rethrowXpcf msg m) steps := by
  refine decidedBy_tryCatch (fun e => ?_) hm
  cases e with
  | xpcf cls text code =>
    exact ⟨fun _ => ⟨_, rfl, rfl⟩, fun h => absurd h (not_unhandled_xpcf _ _ _)⟩
  | std cls text => exact ⟨fun h => h.elim, fun _ => rfl⟩

theorem decidedBy_rethrowRuntimeError {σ : Type} {S : Setoid σ} {msg : String → XmlErrorMessage}
    {m : Exec σ Exc XPCFErrorCode} {steps : σ → List ConfigStep}
    (hm : DecidedBySteps env floats S m steps) :
    DecidedBySteps env floats S (rethrowRuntimeError msg m) steps := by
  refine decidedBy_tryCatch (fun e => ?_) hm
  cases e with
  | xpcf cls text code =>
    exact ⟨fun _ => ⟨_, rfl, rfl⟩, fun h => absurd h (not_unhandled_xpcf _ _ _)⟩
  | std cls text => exact ⟨fun h => h.elim, fun h => if_neg (Bool.eq_false_iff.mp h)⟩

theorem propertySteps_eq (elt : XMLElement) (ps : List Property) :
    propertySteps elt ps =
      if (elt.attributeOrEmpty "name").isEmpty then [.report]
      else
        .property ps (elt.attributeOrEmpty "name") ::
          (propertyAt ps (elt.attributeOrEmpty "name")).elim []
            (foundSteps elt (childSteps elt.children)) := by
  cases elt
  rw [propertySteps]
  rfl

/-- One node, when this is known of the nodes below it. -/
theorem decidedBy_propertyNode {elt : XMLElement}
    (hchildren : DecidedBySteps env floats propertiesShape (configureChildren floats elt.children)
      (childSteps elt.children)) :
    DecidedBySteps env floats propertiesShape (configureProperty floats elt)
      (propertySteps elt) := by
  rw [configureProperty_eq, funext (propertySteps_eq elt)]
  split
  · exact DecidedBy.of_givesUp id id fun _ => nofun
  · exact decidedBy_rethrowXpcf (decidedBy_onProperty (decidedBy_configureFoundProperty hchildren))

mutual

theorem decidedBy_configureProperty : (elt : XMLElement) →
    DecidedBySteps env floats propertiesShape (configureProperty floats elt) (propertySteps elt)
  | .mk _ _ _ children => decidedBy_propertyNode (decidedBy_configureChildren children)

theorem decidedBy_configureChildren : (elts : List XMLElement) →
    DecidedBySteps env floats propertiesShape (configureChildren floats elts) (childSteps elts)
  | [] => by
    have hsteps : childSteps [] = fun _ => [] := by
      funext ps
      rw [childSteps]
    rw [configureChildren_nil, hsteps]
    exact DecidedBy.nil
  | elt :: siblings => by
    by_cases helt : elt.value = "property"
    · have hsteps : childSteps (elt :: siblings) = fun ps =>
          propertySteps elt ps ++ childSteps siblings ps := by
        funext ps
        rw [childSteps, if_pos helt]
      rw [configureChildren_property helt, hsteps]
      exact (decidedBy_configureProperty elt).andThen (decidedBy_configureChildren siblings)
    · have hsteps : childSteps (elt :: siblings) = childSteps siblings := by
        funext ps
        rw [childSteps, if_neg helt]
      rw [configureChildren_skip helt, hsteps]
      exact decidedBy_configureChildren siblings

end

theorem decidedBy_configureElement (elt : XMLElement) :
    DecidedBySteps env floats mapShape (configureElement floats elt) (elementSteps elt) :=
  decidedBy_onProperties (decidedBy_configureChildren elt.children)

theorem decidedBy_whileSuccess {σ : Type} {S : Setoid σ}
    {f : XMLElement → Exec σ Exc XPCFErrorCode} {steps : XMLElement → σ → List ConfigStep}
    (hf : ∀ elt, DecidedBySteps env floats S (f elt) (steps elt)) (elts : List XMLElement) :
    DecidedBySteps env floats S (whileSuccess f elts) fun s =>
      elts.flatMap fun elt => steps elt s := by
  induction elts with
  | nil => exact DecidedBy.nil
  | cons elt elts ih =>
    simp only [List.flatMap_cons]
    exact (hf elt).andThen ih

end Nodes

/-! ## Documents -/

section Documents

variable (env : Env) (floats : FloatText) (predicate : XMLElement → Bool) (uuid : Uuid)
  (aliases : AliasContext)

/-- The catch clauses of a `<component>` node.  Only for a malformed UUID it
matters whether the node has a name. -/
theorem configureComponentNode_eq (elt : XMLElement) :
    ∃ handler : Exc → Exec PropertyMap Exc XPCFErrorCode, KeepsFamily handler ∧
      (∀ name, elt.attr "name" = some name →
        ∃ what, handler invalidUuid = Exec.throw (Exc.configuration what)) ∧
      (elt.attr "name" = none → handler invalidUuid = Exec.throw Exc.logicError) ∧
      configureComponentNode env floats predicate uuid elt =
        Exec.tryCatch
          (do
            let uuidText ← ofExcept (elt.attributeString "uuid")
            if predicate elt then
              let uuid1 ← ofExcept (toUUID env uuidText)
              if uuid1 = uuid then configureElement floats elt else pure .success
            else pure .success)
          handler := by
  refine ⟨_, fun e => ?_, fun name hname => ?_, fun hname => ?_, rfl⟩
  · cases e with
    | xpcf cls text code =>
      exact ⟨fun _ => ⟨_, rfl, rfl⟩, fun h => absurd h (not_unhandled_xpcf _ _ _)⟩
    | std cls text =>
      exact ⟨fun h => h.elim, fun h => if_neg (Bool.eq_false_iff.mp h)⟩
  · rw [hname]
    exact ⟨_, rfl⟩
  · rw [hname]
    rfl

theorem decidedBy_configureComponentNode (elt : XMLElement) :
    DecidedBySteps env floats mapShape (configureComponentNode env floats predicate uuid elt)
      (componentSteps env predicate uuid elt) := by
  obtain ⟨handler, hfamily, hnamed, hunnamed, hrun⟩ :=
    configureComponentNode_eq env floats predicate uuid elt
  rw [hrun]
  refine decidedBy_attribute (fun huuid => ?_) fun text huuid => ?_
  · rw [XMLElement.attributeString_of_none huuid, ofExcept_error_bind, tryCatch_throw]
    exact (hfamily .logicError).2 rfl
  have htext := XMLElement.attributeOrEmpty_of_some huuid
  rw [XMLElement.attributeString_ok_iff.mpr huuid, htext, ofExcept_ok_bind]
  have haccepted : ConfigStep.Accepted env floats (.uuid elt) ↔
      (env.toUUID text).isSome = true := by
    rw [← htext]
    exact Iff.rfl
  have hrefused : ConfigStep.Refused env floats (.uuid elt) ↔
      env.toUUID text = none ∧ elt.attr "name" = none := by
    rw [← htext]
    exact Iff.rfl
  split
  · unfold toUUID
    cases hparse : env.toUUID text with
    | some uuid1 =>
      rw [hparse] at haccepted hrefused
      refine DecidedBy.cons (haccepted.mpr rfl) (fun h => nomatch (hrefused.mp h).1) ?_
      simp only [ofExcept_ok_bind, Option.some.injEq]
      refine decidedBy_tryCatch hfamily ?_
      split
      · exact decidedBy_configureElement elt
      · exact DecidedBy.nil
    | none =>
      rw [hparse] at haccepted hrefused
      have hnot : ¬ ConfigStep.Accepted env floats (.uuid elt) := fun h => nomatch haccepted.mp h
      rw [ofExcept_error_bind, tryCatch_throw]
      cases hname : elt.attr "name" with
      | some name =>
        obtain ⟨what, hthrow⟩ := hnamed name hname
        rw [hthrow]
        refine DecidedBy.of_givesUp hnot (fun h => ?_) fun _ => rfl
        rw [hname] at hrefused
        cases (hrefused.mp h).2
      | none =>
        rw [hunnamed hname]
        exact DecidedBy.of_refused hnot (hrefused.mpr ⟨rfl, hname⟩) rfl
  · exact decidedBy_tryCatch hfamily DecidedBy.nil

/-- The catch clauses of a `<configure>` node. -/
theorem configureConfigureNode_eq (elt : XMLElement) :
    ∃ handler : Exc → Exec PropertyMap Exc XPCFErrorCode, KeepsFamily handler ∧
      (∃ what, handler invalidUuid = Exec.throw (Exc.configuration what)) ∧
      configureConfigureNode env floats predicate uuid aliases elt =
        Exec.tryCatch
          (do
            let componentAttrValue ← ofExcept (elt.attributeString "component")
            let uuid1 ← ofExcept (uuidOrAlias env aliases .component componentAttrValue
              invalidUuid)
            if predicate elt ∧ uuid1 = uuid then configureElement floats elt else pure .success)
          handler := by
  refine ⟨_, fun e => ?_, ⟨_, rfl⟩, rfl⟩
  cases e with
  | xpcf cls text code =>
    exact ⟨fun _ => ⟨_, rfl, rfl⟩, fun h => absurd h (not_unhandled_xpcf _ _ _)⟩
  | std cls text =>
    exact ⟨fun h => h.elim, fun h => if_neg (Bool.eq_false_iff.mp h)⟩

theorem decidedBy_configureConfigureNode (elt : XMLElement) :
    DecidedBySteps env floats mapShape
      (configureConfigureNode env floats predicate uuid aliases elt)
      (configureSteps env predicate uuid aliases elt) := by
  obtain ⟨handler, hfamily, ⟨what, hmalformed⟩, hrun⟩ :=
    configureConfigureNode_eq env floats predicate uuid aliases elt
  rw [hrun]
  refine decidedBy_attribute (fun hnone => ?_) fun text htext => ?_
  · rw [XMLElement.attributeString_of_none hnone, ofExcept_error_bind, tryCatch_throw]
    exact (hfamily .logicError).2 rfl
  have hdefault := XMLElement.attributeOrEmpty_of_some htext
  rw [XMLElement.attributeString_ok_iff.mpr htext, hdefault, ofExcept_ok_bind]
  rcases uuidOrAlias_cases env aliases .component text invalidUuid with
    ⟨-, uuid1, huuid⟩ | ⟨-, hmissing⟩
  · rw [huuid, ofExcept_ok_bind]
    dsimp only
    refine decidedBy_tryCatch hfamily ?_
    split
    · exact decidedBy_configureElement elt
    · exact DecidedBy.nil
  · rw [hmissing, ofExcept_error_bind, tryCatch_throw, hmalformed]
    exact DecidedBy.of_givesUp id id fun _ => rfl

theorem decidedBy_configure (document : Option XMLElement) :
    DecidedBySteps env floats mapShape (configure env floats predicate uuid aliases document)
      (documentSteps env predicate uuid aliases document) := by
  cases document with
  | none => exact DecidedBy.nil
  | some rootElt =>
    refine DecidedBy.andThen ?_ ?_
    · unfold configureFromConfiguration
      cases rootElt.childElements "configuration" with
      | nil => exact DecidedBy.nil
      | cons elt elts =>
        simp only [List.head?_cons, List.take_succ_cons, List.take_zero, List.flatMap_cons,
          List.flatMap_nil, List.append_nil]
        refine decidedBy_rethrowXpcf (decidedBy_whileSuccess (fun elt => ?_) _)
        exact decidedBy_configureComponentNode env floats predicate uuid elt
    · unfold configureFromProperties
      cases rootElt.childElements "properties" with
      | nil => exact DecidedBy.nil
      | cons elt elts =>
        simp only [List.head?_cons, List.take_succ_cons, List.take_zero, List.flatMap_cons,
          List.flatMap_nil, List.append_nil]
        refine decidedBy_rethrowRuntimeError (decidedBy_whileSuccess (fun elt => ?_) _)
        exact decidedBy_configureConfigureNode env floats predicate uuid aliases elt

theorem not_reported_of_escapes {σ : Type} {m : Exec σ Exc XPCFErrorCode} {s : σ}
    (h : Escapes Unhandled m s) : ¬ Reported (m s).1 := by
  unfold Escapes at h
  intro hreported
  cases hout : (m s).1 with
  | ok code =>
    rw [hout] at h
    exact h
  | throws e =>
    rw [hout] at h hreported
    cases e with
    | xpcf cls text code => exact not_unhandled_xpcf _ _ _ h
    | std cls text => exact hreported
  | diverges =>
    rw [hout] at hreported
    exact hreported
  | undefined =>
    rw [hout] at hreported
    exact hreported

/-- The call returns a code or throws a `ConfigurationException` exactly when the
first step that is not accepted, if there is one, is not refused. -/
theorem configure_reported_iff (document : Option XMLElement) (target : PropertyMap) :
    Reported (configure env floats predicate uuid aliases document target).1 ↔
      ∀ before step after,
        documentSteps env predicate uuid aliases document target = before ++ step :: after →
        (∀ s ∈ before, s.Accepted env floats) → ¬ step.Refused env floats := by
  have hdecided := decidedBy_configure env floats predicate uuid aliases document
  have hstops : Reported (configure env floats predicate uuid aliases document target).1 ↔
      ¬ Stops (ConfigStep.Accepted env floats) (ConfigStep.Refused env floats)
        (documentSteps env predicate uuid aliases document target) := by
    constructor
    · intro hreported hstops
      exact not_reported_of_escapes (hdecided.fails target hstops) hreported
    · intro hstops
      rcases hdecided.handled hstops with ⟨code, hout⟩ | ⟨e, hout, he⟩
      · rw [hout]
        trivial
      · rw [hout]
        exact he
  rw [hstops]
  simp only [Stops, not_exists, not_and]

end Documents

/-! ## Values that are too large, and too many -/

/-- A document with one node for a property of component 1. -/
def configuresProperty (propertyElt : XMLElement) : XMLElement :=
  .mk "xpcf-configuration" [] none
    [.mk "properties" [] none
      [.mk "configure" [("component", Uuid.toString 1)] none [propertyElt]]]

/-- A number above 64 bits, and two values for a vector of one.  All attributes
that are read are present. -/
theorem out_of_range_escapes :
    let large := configuresProperty
      (.mk "property" [("name", "x"), ("type", "int"), ("value", "99999999999999999999")] none [])
    let twoValues := configuresProperty
      (.mk "property" [("name", "x"), ("type", "int")] none
        [.mk "value" [] (some "1") [], .mk "value" [] (some "2") []])
    let run := fun document (wrapped : Wrapped (BitVec 32)) =>
      (configure (Env.simple []) .none unnamedPredicate 1 AliasContext.empty (some document)
        (.mk [.value "x" .inOut .integer wrapped])).1
    (run large (.single 0) = .throws (.std .outOfRange "stol") ∧
        ¬ Reported (run large (.single 0))) ∧
      run twoValues (.sequence [0]) = .throws .rangeCheck ∧
        ¬ Reported (run twoValues (.sequence [0])) := by
  intro large twoValues run
  have hlarge : run large (.single 0) = .throws (.std .outOfRange "stol") := by rfl
  have htwo : run twoValues (.sequence [0]) = .throws .rangeCheck := by rfl
  rw [hlarge, htwo]
  exact ⟨⟨rfl, id⟩, rfl, id⟩

end Xpcf
