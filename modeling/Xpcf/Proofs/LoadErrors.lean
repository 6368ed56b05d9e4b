import Xpcf.Proofs.Reading
import Xpcf.Proofs.Reloading

/-!
# The exceptions that leave `loadLibrary`

`loadLibrary` turns the framework's exceptions into a `ConfigurationException`
and any other `std::runtime_error` into a return code.  The readers below it also
build strings from attributes that may be missing and look texts up with
`map::at`; what these throw is neither, and passes through.  And they append to
an error text from an attribute that may be missing, which is no behaviour at all.

* `Read`: the reads that can do so;
* `DocumentReads`: the reads a document comes to, in its order;
* `loadLibrary_reported_iff`: the call ends as it should exactly when no read that
  it comes to is refused.
-/

namespace Xpcf

open CodeLib CodeLib.Exec

/-- No catch clause of `loadLibrary` takes the exception, and none of
`PropertyManager::configure`. -/
def Unhandled (e : Exc) : Prop := e.isRuntimeError = false

@[simp] theorem unhandled_logicError : Unhandled .logicError := rfl

@[simp] theorem unhandled_outOfRange : Unhandled .outOfRange := rfl

@[simp] theorem not_unhandled_xpcf (cls : XpcfExceptionClass) (text : String)
    (code : XPCFErrorCode) : ¬ Unhandled (.xpcf cls text code) :=
  fun h => nomatch h

@[simp] theorem not_unhandled_configuration (text : String) : ¬ Unhandled (.configuration text) :=
  not_unhandled_xpcf _ _ _

@[simp] theorem not_unhandled_exception (text : String) : ¬ Unhandled (.exception text) :=
  not_unhandled_xpcf _ _ _

/-! ## Reads -/

/-- A read of attributes that are not checked beforehand. -/
inductive Read where
  | uuid (elt : XMLElement)
  | description (elt : XMLElement)
  | bindInfos (elt : XMLElement)

/-- The text is an alias or a UUID. -/
def Resolvable (env : Env) (aliases : AliasContext) (type : AliasType) (text : String) : Prop :=
  aliases.aliasExists type text = true ∨ (env.toUUID text).isSome = true

def UnknownScope (elt : XMLElement) : Prop :=
  ∃ text, elt.attr "scope" = some text ∧ scopeConvertMap text = none

def UnknownRange (elt : XMLElement) : Prop :=
  ∃ text, elt.attr "range" = some text ∧
    ∃ range ∈ (text.toList.splitOn '|').map String.ofList, bindingRangeConvertMap range = none

/-- What the read of `getComponentBindingInfos` comes to is a null pointer or not
in a table. -/
def BindInfosRefused (env : Env) (aliases : AliasContext) (elt : XMLElement) : Prop :=
  match elt.attr "to" with
  | none => True
  | some text =>
    Resolvable env aliases .component text ∧ (UnknownScope elt ∨ UnknownRange elt)

/-- The read throws what `loadLibrary` does not handle, since a description or the
component of a binding is missing or a scope or a range is unknown, or it appends
from a UUID attribute that is missing. -/
def Read.Refused (env : Env) : Read → World → Prop
  | .uuid elt, _ => elt.attr "uuid" = none ∧ env.toUUID "" = none
  | .description elt, _ => elt.attr "description" = none
  | .bindInfos elt, w => BindInfosRefused env w.factory.aliases elt

/-- A computation lets an exception escape exactly when one of its reads is
refused.  `R w read w1`: started in `w`, it comes to the read in `w1`. -/
abbrev FailsAt {α : Type} (env : Env) (m : XpcfM α) (R : World → Read → World → Prop) : Prop :=
  EscapesAt Unhandled (Read.Refused env) m R

/-- The only read, made at once. -/
def ReadsAtOnce (read : Read) (w : World) (read1 : Read) (w1 : World) : Prop :=
  read1 = read ∧ w1 = w

theorem readsAtOnce_iff {env : Env} {read : Read} {w : World} :
    (∃ read1 w1, ReadsAtOnce read w read1 w1 ∧ read1.Refused env w1) ↔ read.Refused env w := by
  constructor
  · rintro ⟨_, _, ⟨rfl, rfl⟩, hrefused⟩
    exact hrefused
  · exact fun hrefused => ⟨read, w, ⟨rfl, rfl⟩, hrefused⟩

theorem failsAt_once {α : Type} {env : Env} {m : XpcfM α} {read : Read}
    (h : ∀ w, Escapes Unhandled m w ↔ read.Refused env w) : FailsAt env m (ReadsAtOnce read) :=
  fun w => (h w).trans readsAtOnce_iff.symm

/-- The only read, made at once in the worlds that satisfy `guard`. -/
theorem failsAt_when {α : Type} {env : Env} {m : XpcfM α} {guard : World → Prop} {read : Read}
    (h : ∀ w, Escapes Unhandled m w ↔ guard w ∧ read.Refused env w) :
    FailsAt env m fun w read1 w1 => guard w ∧ ReadsAtOnce read w read1 w1 := by
  intro w
  rw [h w, ← @readsAtOnce_iff env read w]
  simp only [and_assoc, exists_and_left]

/-- The clause around a reader changes no exception into another family. -/
theorem escapes_rethrowXpcf_iff {α : Type} {msg : String → XmlErrorMessage} {m : XpcfM α}
    {w : World} : Escapes Unhandled (rethrowXpcf msg m) w ↔ Escapes Unhandled m w := by
  refine escapes_tryCatch_iff fun e w => ?_
  cases e with
  | xpcf cls text code =>
    exact iff_of_false (not_unhandled_configuration _) (not_unhandled_xpcf _ _ _)
  | std cls text => exact Iff.rfl

theorem failsAt_rethrowXpcf {α : Type} {env : Env} {msg : String → XmlErrorMessage} {m : XpcfM α}
    {R : World → Read → World → Prop} (hm : FailsAt env m R) :
    FailsAt env (rethrowXpcf msg m) R :=
  fun w => escapes_rethrowXpcf_iff.trans (hm w)

/-! ### Attributes -/

theorem failsAt_uuid (env : Env) (elt : XMLElement) (what : String) :
    FailsAt env (uuidOfAttribute env elt "uuid" what) (ReadsAtOnce (.uuid elt)) := by
  refine failsAt_once fun w => ?_
  show _ ↔ elt.attr "uuid" = none ∧ env.toUUID "" = none
  unfold uuidOfAttribute XMLElement.attributeOrEmpty
  cases elt.attr "uuid" with
  | none =>
    cases hempty : env.toUUID "" with
    | none => exact iff_of_true (by simp [hempty, Escapes, undefined]) ⟨rfl, rfl⟩
    | some uuid => exact iff_of_false (by simp [hempty]; exact id) fun h => by cases h.2
  | some text =>
    refine iff_of_false ?_ fun h => by cases h.1
    cases hparse : env.toUUID text with
    | none => simp [hparse, Escapes, Exec.throw]
    | some uuid => simp [hparse]; exact id

theorem failsAt_description (env : Env) (elt : XMLElement) :
    FailsAt env (ofExcept (elt.attributeString "description"))
      (ReadsAtOnce (.description elt)) := by
  refine failsAt_once fun w => ?_
  rw [escapes_ofExcept_iff]
  show _ ↔ elt.attr "description" = none
  unfold XMLElement.attributeString
  cases elt.attr "description" <;> simp

/-- A text that is neither an alias nor a UUID is reported with `onError`. -/
theorem uuidOrAlias_cases (env : Env) (aliases : AliasContext) (type : AliasType) (text : String)
    (onError : Exc) :
    (Resolvable env aliases type text ∧
        ∃ uuid, uuidOrAlias env aliases type text onError = .ok uuid) ∨
      (¬ Resolvable env aliases type text ∧
        uuidOrAlias env aliases type text onError = .error onError) := by
  unfold Resolvable uuidOrAlias resolveAlias
  by_cases halias : aliases.aliasExists type text = true
  · obtain ⟨uuid, huuid⟩ := Table.contains_iff.mp halias
    rw [if_pos halias, huuid]
    exact .inl ⟨.inl halias, uuid, rfl⟩
  · rw [if_neg halias]
    cases hparse : env.toUUID text with
    | some uuid => exact .inl ⟨.inr rfl, uuid, rfl⟩
    | none => exact .inr ⟨fun h => h.elim halias (fun h => nomatch h), rfl⟩

theorem readScope_error_iff (elt : XMLElement) :
    (∃ e, readScope elt = .error e ∧ Unhandled e) ↔ UnknownScope elt := by
  unfold readScope UnknownScope
  cases elt.attr "scope" with
  | none => simp
  | some text =>
    cases hscope : scopeConvertMap text <;>
      simp [hscope]

theorem readRanges_error_iff (ranges : List String) :
    (∃ e, readRanges ranges = .error e ∧ Unhandled e) ↔
      ∃ range ∈ ranges, bindingRangeConvertMap range = none := by
  induction ranges with
  | nil => simp [readRanges]
  | cons range rest ih =>
    unfold readRanges
    cases hrange : bindingRangeConvertMap range with
    | none => simp [hrange]
    | some bits =>
      have hrest : (∃ e, (readRanges rest).map (fun mask => bits.bits ||| mask) = .error e ∧
          Unhandled e) ↔ ∃ e, readRanges rest = .error e ∧ Unhandled e := by
        cases readRanges rest <;> simp [Except.map]
      simp [hrest, ih, hrange]

theorem readRange_error_iff (elt : XMLElement) :
    (∃ e, readRange elt = .error e ∧ Unhandled e) ↔ UnknownRange elt := by
  unfold readRange UnknownRange
  cases elt.attr "range" with
  | none => simp
  | some text =>
    simp only [Option.some.injEq]
    rw [readRanges_error_iff]
    simp

/-- Reading the scope and the range fails exactly when one of them is unknown. -/
theorem readScope_ok_of_known {elt : XMLElement} (h : ¬ UnknownScope elt) :
    ∃ scope, readScope elt = .ok scope := by
  unfold readScope
  cases hattr : elt.attr "scope" with
  | none => exact ⟨_, rfl⟩
  | some text =>
    cases hscope : scopeConvertMap text with
    | some scope => exact ⟨scope, by simp [hscope]⟩
    | none => exact absurd ⟨text, hattr, hscope⟩ h

theorem failsAt_bindInfos (env : Env) (elt : XMLElement) :
    FailsAt env (readBindInfos env elt) (ReadsAtOnce (.bindInfos elt)) := by
  refine failsAt_once fun w => ?_
  show Escapes Unhandled (ofExcept (getComponentBindingInfos env w.factory.aliases elt)) w ↔ _
  rw [escapes_ofExcept_iff]
  show _ ↔ BindInfosRefused env w.factory.aliases elt
  have hmask : ∀ componentUUID scope, (∃ e, (readRange elt >>= fun mask =>
      (.ok ⟨componentUUID, scope, mask, elt.attributeOrEmpty "properties"⟩ :
        Except Exc FactoryBindInfos)) = .error e ∧ Unhandled e) ↔ UnknownRange elt := by
    intro componentUUID scope
    rw [exists_error_bind_iff, readRange_error_iff]
    simp
  have hscope : ∀ componentUUID, (∃ e, (readScope elt >>= fun scope => readRange elt >>= fun mask =>
      (.ok ⟨componentUUID, scope, mask, elt.attributeOrEmpty "properties"⟩ :
        Except Exc FactoryBindInfos)) = .error e ∧ Unhandled e) ↔
          UnknownScope elt ∨ UnknownRange elt := by
    intro componentUUID
    rw [exists_error_bind_iff, readScope_error_iff]
    simp only [hmask]
    by_cases hunknown : UnknownScope elt
    · simp [hunknown]
    · obtain ⟨scope, hread⟩ := readScope_ok_of_known hunknown
      simp [hunknown, hread]
  show (∃ e, (elt.attributeString "to" >>= fun text => _) = .error e ∧ Unhandled e) ↔ _
  rw [exists_error_bind_iff]
  unfold BindInfosRefused XMLElement.attributeString
  cases elt.attr "to" with
  | none => simp
  | some text =>
    simp only [reduceCtorEq, false_and, exists_false, false_or, Except.ok.injEq, exists_eq_left']
    rw [exists_error_bind_iff]
    rcases uuidOrAlias_cases env w.factory.aliases .component text
      (.configuration ("UUID format invalid in \"to\" attribute" ++ text)) with
      ⟨hresolvable, uuid, huuid⟩ | ⟨hmalformed, herror⟩
    · rw [huuid]
      simp only [reduceCtorEq, false_and, exists_false, false_or, Except.ok.injEq, exists_eq_left']
      rw [and_iff_right hresolvable]
      exact hscope uuid
    · rw [herror]
      simp [hmalformed]

/-! ### Modules -/

/-- Writes and automatic aliases never fail. -/
theorem not_escapes_declareAutoAlias (type : AliasType) (name : String) (uuid : Uuid) (w : World) :
    ¬ Escapes Unhandled (declareAutoAlias type name uuid) w := by
  obtain ⟨aliases, halias⟩ := declareAutoAlias_run type name uuid w
  unfold Escapes
  rw [halias]
  exact id

/-- The reads of an interface node. -/
def InterfaceReads (env : Env) (elt : XMLElement) (w : World) (read : Read) (w1 : World) : Prop :=
  ReadsAtOnce (.uuid elt) w read w1 ∨
    ∃ I, env.toUUID (elt.attributeOrEmpty "uuid") = some I ∧
      w.factory.registry.interfacesMap.contains I = false ∧ ReadsAtOnce (.description elt) w read w1

theorem failsAt_declareNewInterface (env : Env) (elt : XMLElement) (I : Uuid) :
    FailsAt env (declareNewInterface elt I) (ReadsAtOnce (.description elt)) := by
  refine (failsAt_description env elt).then_never fun description w h => ?_
  rcases escapes_bind_iff.mp h with halias | ⟨_, _, _, hadd⟩
  · exact not_escapes_declareAutoAlias _ _ _ w halias
  · exact hadd

theorem failsAt_declareInterfaceNode (env : Env) (c : ComponentRef) (elt : XMLElement) :
    FailsAt env (declareInterfaceNode env c elt) (InterfaceReads env elt) := by
  have hbody : ∀ I, FailsAt env (do
      modifyProcess fun p => p.addInterface c I
      let w ← gets id
      autobind I (w.process.component c).uuid
      if w.factory.registry.interfacesMap.contains I then pure ()
      else declareNewInterface elt I) fun w read w1 =>
        w.factory.registry.interfacesMap.contains I = false ∧
          ReadsAtOnce (.description elt) w read w1 := by
    refine fun I => failsAt_when fun w => ?_
    show Escapes Unhandled (if w.factory.registry.interfacesMap.contains I = true then pure ()
      else declareNewInterface elt I) _ ↔ _
    cases hknown : w.factory.registry.interfacesMap.contains I with
    | true => exact iff_of_false id fun h => nomatch h.1
    | false =>
      -- the description does not depend on the world
      have hnew : ∀ w1, Escapes Unhandled (declareNewInterface elt I) w1 ↔
          Read.Refused env (.description elt) w :=
        fun w1 => (failsAt_declareNewInterface env elt I w1).trans readsAtOnce_iff
      exact (hnew _).trans (and_iff_right rfl).symm
  refine failsAt_rethrowXpcf (((failsAt_uuid env elt _).bind hbody).congr fun w read w1 => ?_)
  simp only [uuidOfAttribute_ok_iff]
  refine or_congr_right ⟨?_, ?_⟩
  · rintro ⟨I, _, ⟨hI, rfl⟩, hnew, hread⟩
    exact ⟨I, hI, hnew, hread⟩
  · rintro ⟨I, hI, hnew, hread⟩
    exact ⟨I, w, ⟨hI, rfl⟩, hnew, hread⟩

/-- The node declares a component that is not known yet. -/
def NewComponent (env : Env) (componentElt : XMLElement) (w : World) : Prop :=
  ∃ C, env.toUUID (componentElt.attributeOrEmpty "uuid") = some C ∧ ¬ w.KnowsComponent C

/-- The reads of a component node. -/
def ComponentReads (env : Env) (moduleInfo : ModuleRef) (elt : XMLElement) (w : World)
    (read : Read) (w1 : World) : Prop :=
  ReadsAtOnce (.uuid elt) w read w1 ∨
    (NewComponent env elt w ∧ ReadsAtOnce (.description elt) w read w1) ∨
    ∃ interfaceElt w2, ReachesInterface env moduleInfo elt w interfaceElt w2 ∧
      InterfaceReads env interfaceElt w2 read w1

theorem failsAt_openComponent (env : Env) (moduleInfo : ModuleRef) (elt : XMLElement) (C : Uuid) :
    FailsAt env (openComponent moduleInfo elt C) (ReadsAtOnce (.description elt)) := by
  refine failsAt_once fun w => ?_
  have hread : FailsAt env (do
      let description ← ofExcept (elt.attributeString "description")
      let componentInfo ← newComponent ⟨elt.attributeOrEmpty "name", C, description, []⟩
      declareAutoAlias .component (elt.attributeOrEmpty "name") C
      modifyProcess fun p => p.addComponent moduleInfo componentInfo
      pure componentInfo) (ReadsAtOnce (.description elt)) := by
    refine (failsAt_description env elt).then_never fun description w h => ?_
    rcases escapes_bind_iff.mp h with hnew | ⟨c, w1, _, hrest⟩
    · exact hnew
    · rcases escapes_bind_iff.mp hrest with halias | ⟨_, _, _, hadd⟩
      · exact not_escapes_declareAutoAlias _ _ _ w1 halias
      · exact hadd
  exact (hread (w.withRegistry (w.factory.registry.setModuleUUID C
    (w.process.module moduleInfo).uuid))).trans readsAtOnce_iff

theorem failsAt_declareComponent (env : Env) (moduleInfo : ModuleRef) (elt : XMLElement) :
    FailsAt env (declareComponent env moduleInfo elt) (ComponentReads env moduleInfo elt) := by
  have hnew : ∀ C, FailsAt env (declareNewComponent env moduleInfo elt C) fun w read w1 =>
      ReadsAtOnce (.description elt) w read w1 ∨
        ∃ c w0, openComponent moduleInfo elt C w = (.ok c, w0) ∧ ∃ interfaceElt w2,
          Pass (declareInterfaceNode env c) (elt.childElements "interface") w0 interfaceElt w2 ∧
            InterfaceReads env interfaceElt w2 read w1 := by
    intro C
    rw [declareNewComponent_eq]
    exact (failsAt_openComponent env moduleInfo elt C).bind fun c =>
      EscapesAt.forEach (fun child => failsAt_declareInterfaceNode env c child) _
  have hbody : ∀ C, FailsAt env (do
      let known ← gets fun w : World => w.factory.registry.componentModuleUUIDMap.contains C
      if known then pure () else declareNewComponent env moduleInfo elt C) fun w read w1 =>
        ¬ w.KnowsComponent C ∧ (ReadsAtOnce (.description elt) w read w1 ∨
          ∃ c w0, openComponent moduleInfo elt C w = (.ok c, w0) ∧ ∃ interfaceElt w2,
            Pass (declareInterfaceNode env c) (elt.childElements "interface") w0 interfaceElt w2 ∧
              InterfaceReads env interfaceElt w2 read w1) := by
    intro C w
    show Escapes Unhandled (if w.factory.registry.componentModuleUUIDMap.contains C = true
      then pure () else declareNewComponent env moduleInfo elt C) w ↔ _
    by_cases hknown : w.factory.registry.componentModuleUUIDMap.contains C = true
    · rw [if_pos hknown]
      exact iff_of_false id fun ⟨_, _, ⟨hunknown, _⟩, _⟩ => hunknown hknown
    · rw [if_neg hknown, hnew C w]
      refine exists_congr fun read => exists_congr fun w1 => and_congr_left fun _ => ?_
      exact (and_iff_right hknown).symm
  refine ((failsAt_rethrowXpcf (failsAt_uuid env elt _)).bind fun C =>
    failsAt_rethrowXpcf (hbody C)).congr fun w read w1 => ?_
  simp only [rethrowXpcf_ok_iff, uuidOfAttribute_ok_iff]
  refine or_congr_right ⟨?_, ?_⟩
  · rintro ⟨C, _, ⟨hC, rfl⟩, hunknown, hread | ⟨c, w0, hopen, child, w2, hpass, hread⟩⟩
    · exact .inl ⟨⟨C, hC, hunknown⟩, hread⟩
    · exact .inr ⟨child, w2, ⟨C, c, w0, hC, hunknown, hopen, hpass⟩, hread⟩
  · rintro (⟨⟨C, hC, hunknown⟩, hread⟩ | ⟨child, w2, ⟨C, c, w0, hC, hunknown, hopen, hpass⟩, hread⟩)
    · exact ⟨C, w, ⟨hC, rfl⟩, hunknown, .inl hread⟩
    · exact ⟨C, w, ⟨hC, rfl⟩, hunknown, .inr ⟨c, w0, hopen, child, w2, hpass, hread⟩⟩

/-- The reads of a module node. -/
def ModuleReads (env : Env) (elt : XMLElement) (w : World) (read : Read) (w1 : World) : Prop :=
  ReadsAtOnce (.uuid elt) w read w1 ∨
    ∃ r componentElt w2, ReachesComponent env elt w r componentElt w2 ∧
      ComponentReads env r componentElt w2 read w1

theorem failsAt_declareModule (env : Env) (elt : XMLElement) :
    FailsAt env (declareModule env elt) (ModuleReads env elt) := by
  have hbody : ∀ moduleUuid, FailsAt env (do
      let r ← openModule env elt moduleUuid
      processXmlNode elt "component" (declareComponent env r)) fun w read w1 =>
        ∃ r w0, openModule env elt moduleUuid w = (.ok r, w0) ∧ ∃ componentElt w2,
          Pass (declareComponent env r) (elt.childElements "component") w0 componentElt w2 ∧
            ComponentReads env r componentElt w2 read w1 :=
    fun moduleUuid => EscapesAt.bind_of_never (fun _ => id) fun r =>
      EscapesAt.forEach (fun child => failsAt_declareComponent env r child) _
  rw [declareModule_eq]
  refine ((failsAt_rethrowXpcf (failsAt_uuid env elt _)).bind fun u =>
    failsAt_rethrowXpcf (hbody u)).congr fun w read w1 => ?_
  simp only [rethrowXpcf_ok_iff, uuidOfAttribute_ok_iff]
  refine or_congr_right ⟨?_, ?_⟩
  · rintro ⟨u, _, ⟨hu, rfl⟩, r, w0, hopen, child, w2, hpass, hread⟩
    exact ⟨r, child, w2, ⟨u, w0, hu, hopen, hpass⟩, hread⟩
  · rintro ⟨r, child, w2, ⟨u, w0, hu, hopen, hpass⟩, hread⟩
    exact ⟨u, w, ⟨hu, rfl⟩, r, w0, hopen, child, w2, hpass, hread⟩

/-! ### Bindings -/

/-- The reads of the child nodes with this tag. -/
def ChildReads (elt : XMLElement) (tag : String) (f : XMLElement → XpcfM Unit)
    (R : XMLElement → World → Read → World → Prop) (w : World) (read : Read) (w1 : World) : Prop :=
  ∃ child w2, Pass f (elt.childElements tag) w child w2 ∧ R child w2 read w1

theorem failsAt_processXmlNode {env : Env} {f : XMLElement → XpcfM Unit}
    {R : XMLElement → World → Read → World → Prop} (hf : ∀ child, FailsAt env (f child) (R child))
    (elt : XMLElement) (tag : String) :
    FailsAt env (processXmlNode elt tag f) (ChildReads elt tag f R) :=
  EscapesAt.forEach hf _

/-- A mandatory attribute that names an alias or a UUID. -/
def ReadsTarget (env : Env) (type : AliasType) (elt : XMLElement) (attrName : String) (w : World)
    (uuid : Uuid) : Prop :=
  ∃ text onError, elt.attr attrName = some text ∧
    uuidOrAlias env w.factory.aliases type text onError = .ok uuid

theorem uuidOrAlias_ok_congr {env : Env} {aliases : AliasContext} {type : AliasType} {text : String}
    {onError onError1 : Exc} {uuid : Uuid}
    (h : uuidOrAlias env aliases type text onError = .ok uuid) :
    uuidOrAlias env aliases type text onError1 = .ok uuid := by
  unfold uuidOrAlias at h ⊢
  split
  · rename_i halias
    rw [if_pos halias] at h
    exact h
  · rename_i halias
    rw [if_neg halias] at h
    split at h
    · exact h
    · cases h

theorem readTarget_ok_iff {env : Env} {type : AliasType} {elt : XMLElement}
    {attrName missing malformed : String} {w w1 : World} {uuid : Uuid} :
    readTarget env type elt attrName missing malformed w = (.ok uuid, w1) ↔
      ReadsTarget env type elt attrName w uuid ∧ w1 = w := by
  unfold readTarget ReadsTarget
  rw [gets_bind_run]
  cases elt.attr attrName with
  | none =>
    refine iff_of_false (fun h => ?_) fun ⟨⟨_, _, h, _⟩, _⟩ => nomatch h
    cases h
  | some text =>
    constructor
    · intro h
      obtain ⟨huuid, rfl⟩ := ofExcept_ok_iff.mp h
      exact ⟨⟨text, _, rfl, huuid⟩, rfl⟩
    · rintro ⟨⟨_, onError, htext, huuid⟩, rfl⟩
      cases htext
      exact ofExcept_ok_iff.mpr ⟨uuidOrAlias_ok_congr huuid, rfl⟩

theorem not_escapes_uuidOrAlias (env : Env) (aliases : AliasContext) (type : AliasType)
    (text malformed : String) (w : World) :
    ¬ Escapes Unhandled (ofExcept (uuidOrAlias env aliases type text (.configuration malformed)) :
      XpcfM Uuid) w := by
  rw [escapes_ofExcept_iff]
  rintro ⟨e, herror, hunhandled⟩
  rcases uuidOrAlias_cases env aliases type text (.configuration malformed) with
    ⟨_, uuid, huuid⟩ | ⟨_, hmalformed⟩
  · cases huuid.symm.trans herror
  · cases hmalformed.symm.trans herror
    exact not_unhandled_configuration _ hunhandled

theorem not_escapes_readTarget (env : Env) (type : AliasType) (elt : XMLElement)
    (attrName missing malformed : String) (w : World) :
    ¬ Escapes Unhandled (readTarget env type elt attrName missing malformed) w := by
  show ¬ Escapes Unhandled (match elt.attr attrName with
    | none => throw (.exception missing)
    | some text => ofExcept (uuidOrAlias env w.factory.aliases type text
        (.configuration (malformed ++ text))) : XpcfM Uuid) w
  cases elt.attr attrName with
  | none => exact not_unhandled_exception missing
  | some text => exact not_escapes_uuidOrAlias env _ type text _ w

/-- A declaration that begins with a mandatory attribute. -/
theorem failsAt_afterTarget {env : Env} {type : AliasType} {elt : XMLElement}
    {attrName missing malformed : String} {msg : String → XmlErrorMessage} {k : Uuid → XpcfM Unit}
    {R : Uuid → World → Read → World → Prop} (hk : ∀ uuid, FailsAt env (k uuid) (R uuid)) :
    FailsAt env (rethrowXpcf msg (readTarget env type elt attrName missing malformed) >>= k)
      fun w read w1 => ∃ uuid, ReadsTarget env type elt attrName w uuid ∧ R uuid w read w1 := by
  have hread : FailsAt env (readTarget env type elt attrName missing malformed)
      fun _ _ _ => False :=
    EscapesAt.never (not_escapes_readTarget env type elt attrName missing malformed)
  have htarget := @failsAt_rethrowXpcf _ _ msg _ _ hread
  refine (htarget.bind hk).congr fun w read w1 => ?_
  simp only [false_or, rethrowXpcf_ok_iff, readTarget_ok_iff]
  refine exists_congr fun uuid => ⟨?_, ?_⟩
  · rintro ⟨_, ⟨hreads, rfl⟩, hread⟩
    exact ⟨hreads, hread⟩
  · rintro ⟨hreads, hread⟩
    exact ⟨w, ⟨hreads, rfl⟩, hread⟩

theorem failsAt_declareSingleBind (env : Env) (I : Uuid) (elt : XMLElement) :
    FailsAt env (declareSingleBind env I elt) (ReadsAtOnce (.bindInfos elt)) := by
  refine (failsAt_bindInfos env elt).then_never fun infos w => ?_
  cases elt.attr "name" <;> exact id

/-- The part of `declareBind` for the attribute `to`. -/
def declareBindTo (env : Env) (I : Uuid) (elt : XMLElement) : XpcfM Unit :=
  if (elt.attr "to").isSome then declareSingleBind env I elt else pure ()

/-- The body of the loop of `declareMultiBind`. -/
def declareMultiComponent (env : Env) (I : Uuid) (element : XMLElement) : XpcfM Unit := do
  let infos ← readBindInfos env element
  modifyContext fun ctx => ctx.addMultiBind I (infos.addRange .default)

/-- The reads of a `bind` node below `bindings`, once its interface is known. -/
def BindPartReads (env : Env) (elt : XMLElement) (I : Uuid) (w : World) (read : Read)
    (w1 : World) : Prop :=
  ((elt.attr "to").isSome = true ∧ ReadsAtOnce (.bindInfos elt) w read w1) ∨
    ∃ w2, declareBindTo env I elt w = (.ok (), w2) ∧
      ChildReads elt "component" (declareMultiComponent env I)
        (fun child => ReadsAtOnce (.bindInfos child))
        { w2 with factory := { w2.factory with context := w2.factory.context.openMultiBind I } }
        read w1

/-- The reads of a `bind` node below `bindings`. -/
def BindReads (env : Env) (elt : XMLElement) (w : World) (read : Read) (w1 : World) : Prop :=
  ∃ I, ReadsTarget env .interface elt "interface" w I ∧ BindPartReads env elt I w read w1

theorem failsAt_declareBindTo (env : Env) (I : Uuid) (elt : XMLElement) :
    FailsAt env (declareBindTo env I elt) fun w read w1 =>
      (elt.attr "to").isSome = true ∧ ReadsAtOnce (.bindInfos elt) w read w1 := by
  refine failsAt_when fun w => ?_
  unfold declareBindTo
  split
  · rename_i hto
    rw [and_iff_right hto]
    exact (failsAt_declareSingleBind env I elt w).trans readsAtOnce_iff
  · rename_i hto
    exact iff_of_false id fun h => hto h.1

/-- Without a child node `component` there is no pass. -/
theorem not_childReads_of_empty {elt : XMLElement} {tag : String} {f : XMLElement → XpcfM Unit}
    {R : XMLElement → World → Read → World → Prop} {w w1 : World} {read : Read}
    (hempty : elt.childElements tag = []) : ¬ ChildReads elt tag f R w read w1 := by
  rintro ⟨child, _, hpass, _⟩
  have hmem := hpass.mem
  rw [hempty] at hmem
  cases hmem

/-- The two parts of `declareBind`. -/
theorem failsAt_bindParts (env : Env) (I : Uuid) (elt : XMLElement) :
    FailsAt env (do
      declareBindTo env I elt
      if (elt.childElements "component").isEmpty = false then declareMultiBind env I elt
      else pure ()) (BindPartReads env elt I) := by
  have hmulti : FailsAt env
      (if (elt.childElements "component").isEmpty = false then declareMultiBind env I elt
        else pure ()) fun w => ChildReads elt "component" (declareMultiComponent env I)
          (fun child => ReadsAtOnce (.bindInfos child))
          { w with factory := { w.factory with
            context := w.factory.context.openMultiBind I } } := by
    intro w
    split
    · exact failsAt_processXmlNode (fun child =>
        (failsAt_bindInfos env child).then_never fun _ _ => id) elt "component"
        { w with factory := { w.factory with context := w.factory.context.openMultiBind I } }
    · rename_i hnone
      have hempty : elt.childElements "component" = [] := by
        simpa using hnone
      exact iff_of_false id fun ⟨_, _, hread, _⟩ => not_childReads_of_empty hempty hread
  exact ((failsAt_declareBindTo env I elt).bind fun _ => hmulti).congr fun w read w1 =>
    or_congr_right ⟨fun ⟨_, h⟩ => h, fun h => ⟨(), h⟩⟩

theorem failsAt_declareBind (env : Env) (elt : XMLElement) :
    FailsAt env (declareBind env elt) (BindReads env elt) := by
  -- the guard throws only when there is nothing to read
  have hguard : ∀ (nothing : Prop) [Decidable nothing] (I : Uuid),
      (nothing → (elt.attr "to").isSome = false ∧ elt.childElements "component" = []) →
      FailsAt env (do
        (if nothing then throw (.exception
            "node incomplete : attributes 'to' or 'component' inner node are mandatory.")
          else pure ())
        declareBindTo env I elt
        if (elt.childElements "component").isEmpty = false then declareMultiBind env I elt
        else pure ()) (BindPartReads env elt I) := by
    intro nothing _ I hnothing w
    by_cases h : nothing
    · obtain ⟨hto, hempty⟩ := hnothing h
      rw [if_pos h]
      refine iff_of_false (not_unhandled_exception _) ?_
      rintro ⟨_, _, ⟨hsome, _⟩ | ⟨_, _, hread⟩, _⟩
      · exact Bool.false_ne_true (hto.symm.trans hsome)
      · exact not_childReads_of_empty hempty hread
    · rw [if_neg h]
      exact failsAt_bindParts env I elt w
  refine failsAt_afterTarget fun I => failsAt_rethrowXpcf (hguard _ I fun h => ⟨h.1, ?_⟩)
  have hempty := h.2
  simpa using hempty

/-- The reads of a `bind` node below `inject`. -/
def SpecificBindReads (env : Env) (elt : XMLElement) (w : World) (read : Read) (w1 : World) :
    Prop :=
  ((elt.attr "to").isSome = true ∧ ∃ I, ReadsTarget env .interface elt "interface" w I) ∧
    ReadsAtOnce (.bindInfos elt) w read w1

theorem failsAt_declareSpecificBind (env : Env) (target : Uuid) (elt : XMLElement) :
    FailsAt env (declareSpecificBind env target elt) (SpecificBindReads env elt) := by
  refine failsAt_rethrowXpcf (failsAt_when fun w => ?_)
  by_cases hto : (elt.attr "to").isSome = true
  · rw [if_pos hto]
    have hwrite : ∀ I, FailsAt env (do
        let infos ← readBindInfos env elt
        let infos := infos.addRange .explicit
        match elt.attr "name" with
        | none => modifyContext fun ctx => ctx.bind (.specific target I) infos
        | some name =>
          modifyContext fun ctx => ctx.bind (.specificNamed target name I) infos)
        (ReadsAtOnce (.bindInfos elt)) := by
      refine fun I => (failsAt_bindInfos env elt).then_never fun infos w => ?_
      cases elt.attr "name" <;> exact id
    refine (EscapesAt.bind_of_never (not_escapes_readTarget env _ elt _ _ _) hwrite w).trans ?_
    simp only [readTarget_ok_iff]
    constructor
    · rintro ⟨_, _, ⟨I, _, ⟨htarget, rfl⟩, rfl, rfl⟩, hrefused⟩
      exact ⟨⟨hto, I, htarget⟩, hrefused⟩
    · rintro ⟨⟨_, I, htarget⟩, hrefused⟩
      exact ⟨.bindInfos elt, w, ⟨I, w, ⟨htarget, rfl⟩, rfl, rfl⟩, hrefused⟩
  · rw [if_neg hto]
    exact iff_of_false (not_unhandled_exception _) fun h => hto h.1.1

/-- The reads of an `inject` node. -/
def InjectReads (env : Env) (elt : XMLElement) (w : World) (read : Read) (w1 : World) : Prop :=
  ∃ target, ReadsTarget env .component elt "to" w target ∧
    ChildReads elt "bind" (declareSpecificBind env target) (SpecificBindReads env) w read w1

theorem failsAt_declareInject (env : Env) (elt : XMLElement) :
    FailsAt env (declareInject env elt) (InjectReads env elt) :=
  failsAt_afterTarget fun target => failsAt_rethrowXpcf
    (failsAt_processXmlNode (fun child => failsAt_declareSpecificBind env target child) elt "bind")

def BindingsReads (env : Env) (elt : XMLElement) : World → Read → World → Prop :=
  ChildReads elt "bind" (declareBind env) (BindReads env)

def InjectsReads (env : Env) (elt : XMLElement) : World → Read → World → Prop :=
  ChildReads elt "inject" (declareInject env) (InjectReads env)

/-- The reads of a `factory` node: its bindings, then its injects. -/
def FactoryReads (env : Env) (elt : XMLElement) (w : World) (read : Read) (w1 : World) : Prop :=
  ChildReads elt "bindings" (declareBindings env) (BindingsReads env) w read w1 ∨
    ∃ w2, processXmlNode elt "bindings" (declareBindings env) w = (.ok (), w2) ∧
      ChildReads elt "injects" (declareInjects env) (InjectsReads env) w2 read w1

theorem failsAt_declareFactory (env : Env) (elt : XMLElement) :
    FailsAt env (declareFactory env elt) (FactoryReads env elt) := by
  have hbindings : ∀ child, FailsAt env (declareBindings env child) (BindingsReads env child) :=
    fun child => failsAt_rethrowXpcf
      (failsAt_processXmlNode (failsAt_declareBind env) child "bind")
  have hinjects : ∀ child, FailsAt env (declareInjects env child) (InjectsReads env child) :=
    fun child => failsAt_rethrowXpcf
      (failsAt_processXmlNode (failsAt_declareInject env) child "inject")
  refine failsAt_rethrowXpcf (((failsAt_processXmlNode hbindings elt "bindings").bind fun _ =>
    failsAt_processXmlNode hinjects elt "injects").congr fun w read w1 => ?_)
  exact or_congr_right ⟨fun ⟨_, h⟩ => h, fun h => ⟨(), h⟩⟩

/-! ### Aliases and configuration paths -/

/-- A loop over children that make no read. -/
theorem failsAt_noReads {env : Env} {f : XMLElement → XpcfM Unit} {msg : String → XmlErrorMessage}
    (hf : ∀ child w, ¬ Escapes Unhandled (f child) w) (elt : XMLElement) (tag : String) :
    FailsAt env (rethrowXpcf msg (processXmlNode elt tag f)) fun _ _ _ => False := by
  refine failsAt_rethrowXpcf ((failsAt_processXmlNode (fun child =>
    EscapesAt.never (hf child)) elt tag).congr fun w read w1 => ?_)
  exact iff_of_false (fun ⟨_, _, _, h⟩ => h) id

theorem failsAt_declareAliases (env : Env) (elt : XMLElement) :
    FailsAt env (declareAliases env elt) fun _ _ _ => False := by
  refine failsAt_noReads (fun child w h => ?_) elt "alias"
  rcases escapes_bind_iff.mp (escapes_rethrowXpcf_iff.mp h) with hread | ⟨entry, w1, -, hdeclare⟩
  · obtain ⟨e, herror, hunhandled⟩ := escapes_ofExcept_iff.mp hread
    unfold readAlias at herror
    split at herror
    · split at herror
      · cases herror
        exact not_unhandled_exception _ hunhandled
      · split at herror
        · cases herror
        · cases herror
          exact not_unhandled_configuration _ hunhandled
    · cases herror
      exact not_unhandled_exception _ hunhandled
  · -- an explicit alias replaces the one before
    have hrun : ∃ w2, declareExplicitAlias entry.1 entry.2.1 entry.2.2 w1 = (.ok (), w2) :=
      ⟨_, addAliasFunction_ok_iff.mpr ⟨.inl rfl, rfl⟩⟩
    obtain ⟨w2, hrun⟩ := hrun
    unfold Escapes at hdeclare
    rw [hrun] at hdeclare
    exact hdeclare

theorem not_escapes_declareConfigure (env : Env) (path : String) (elt : XMLElement) (w : World) :
    ¬ Escapes Unhandled (declareConfigure env path elt) w := by
  unfold declareConfigure
  rw [escapes_rethrowXpcf_iff, escapes_bind_iff]
  rintro (h | ⟨aliases, w1, -, h⟩)
  · exact h
  · rcases escapes_bind_iff.mp h with htarget | ⟨_, _, -, hadd⟩
    · exact not_escapes_uuidOrAlias env _ _ _ _ w1 htarget
    · exact hadd

theorem failsAt_declareProperties (env : Env) (path : String) (elt : XMLElement) :
    FailsAt env (declareProperties env path elt) fun _ _ _ => False :=
  failsAt_noReads (not_escapes_declareConfigure env path) elt "configure"

def ConfigurationReads (env : Env) (path : String) (elt : XMLElement) :
    World → Read → World → Prop :=
  ChildReads elt "component" (declareConfigComponent env path) fun child =>
    ReadsAtOnce (.uuid child)

theorem failsAt_declareConfiguration (env : Env) (path : String) (elt : XMLElement) :
    FailsAt env (declareConfiguration env path elt) (ConfigurationReads env path elt) := by
  have hcomponent : ∀ child, FailsAt env (declareConfigComponent env path child)
      (ReadsAtOnce (.uuid child)) :=
    fun child => failsAt_rethrowXpcf ((failsAt_uuid env child _).then_never fun _ _ => id)
  exact failsAt_rethrowXpcf (failsAt_processXmlNode hcomponent elt "component")

/-! ## Documents -/

/-- The nodes below the root, in the order of `loadLibrary`. -/
inductive Section where
  | modules
  | aliases
  | factory
  | configuration
  | properties

namespace Section

def tag : Section → String
  | modules => "module"
  | aliases => "aliases"
  | factory => "factory"
  | configuration => "configuration"
  | properties => "properties"

def declare (env : Env) (path : String) : Section → XMLElement → XpcfM Unit
  | modules => declareModule env
  | aliases => declareAliases env
  | factory => declareFactory env
  | configuration => declareConfiguration env path
  | properties => declareProperties env path

/-- The reads of one node. -/
def Reads (env : Env) (path : String) : Section → XMLElement → World → Read → World → Prop
  | modules => ModuleReads env
  | aliases => fun _ _ _ _ => False
  | factory => FactoryReads env
  | configuration => ConfigurationReads env path
  | properties => fun _ _ _ _ => False

theorem failsAt (env : Env) (path : String) (part : Section) (elt : XMLElement) :
    FailsAt env (part.declare env path elt) (part.Reads env path elt) := by
  cases part with
  | modules => exact failsAt_declareModule env elt
  | aliases => exact failsAt_declareAliases env elt
  | factory => exact failsAt_declareFactory env elt
  | configuration => exact failsAt_declareConfiguration env path elt
  | properties => exact failsAt_declareProperties env path elt

def order : List Section := [modules, aliases, factory, configuration, properties]

/-- All nodes of one kind. -/
def run (env : Env) (path : String) (rootElt : XMLElement) (part : Section) : XpcfM Unit :=
  processXmlNode rootElt part.tag (part.declare env path)

end Section

theorem loadDocument_eq (env : Env) (path : String) (rootElt : XMLElement) :
    loadDocument env path rootElt = (do
      (if rootNames.contains rootElt.value then pure ()
        else throw (.xpcf .configurationException
          "missing root element \"xpcf-registry\" or \"xpcf-configuration\"" .errorRange))
      modifyFactory fun f => { f with autoAlias := autoAliasOf rootElt }
      forEach (Section.run env path rootElt) Section.order
      pure .success) := by
  unfold loadDocument Section.order
  simp only [forEach, Exec.bind_assoc]
  rfl

/-- The reads that a document comes to, in its order. -/
def DocumentReads (env : Env) (path : String) (rootElt : XMLElement) (w : World) (read : Read)
    (w1 : World) : Prop :=
  rootNames.contains rootElt.value = true ∧
    ∃ part w2, Pass (Section.run env path rootElt) Section.order
        { w with factory := { w.factory with autoAlias := autoAliasOf rootElt } } part w2 ∧
      ChildReads rootElt part.tag (part.declare env path) (part.Reads env path) w2 read w1

/-- Past the check of the root element. -/
theorem loadDocument_run {env : Env} {path : String} {rootElt : XMLElement}
    (hroot : rootNames.contains rootElt.value = true) (w : World) :
    loadDocument env path rootElt w =
      (forEach (Section.run env path rootElt) Section.order >>= fun _ => pure .success)
        { w with factory := { w.factory with autoAlias := autoAliasOf rootElt } } := by
  rw [loadDocument_eq, if_pos hroot]
  rfl

theorem failsAt_loadDocument (env : Env) (path : String) (rootElt : XMLElement) :
    FailsAt env (loadDocument env path rootElt) (DocumentReads env path rootElt) := by
  intro w
  have hsections := (EscapesAt.forEach
    (fun part => failsAt_processXmlNode (part.failsAt env path) rootElt part.tag)
    Section.order).then_never
      (f := fun _ => (pure .success : XpcfM XPCFErrorCode)) fun _ _ => id
  by_cases hroot : rootNames.contains rootElt.value = true
  · unfold Escapes
    rw [loadDocument_run hroot]
    refine (hsections _).trans ?_
    refine exists_congr fun read => exists_congr fun w1 => and_congr_left fun _ => ?_
    exact (and_iff_right hroot).symm
  · rw [loadDocument_eq, if_neg hroot]
    exact iff_of_false (not_unhandled_xpcf _ _ _) fun ⟨_, _, ⟨h, _⟩, _⟩ => hroot h

/-- The call returns a code or throws a `ConfigurationException`. -/
def Reported (outcome : Outcome Exc XPCFErrorCode) : Prop :=
  match outcome with
  | .ok _ => True
  | .throws (.xpcf cls _ _) => cls = .configurationException
  | .throws (.std _ _) => False
  | .diverges => False
  | .undefined => False

theorem reported_handleLoadError_iff (e : Exc) (w : World) :
    Reported (handleLoadError e w).1 ↔ ¬ Unhandled e := by
  cases e with
  | xpcf cls text code => exact iff_of_true rfl (not_unhandled_xpcf _ _ _)
  | std cls text =>
    by_cases hruntime : cls = .runtimeError
    · subst hruntime
      exact iff_of_true trivial fun h => nomatch h
    · have hthrows : (handleLoadError (.std cls text) w).1 = .throws (.std cls text) := by
        simp [handleLoadError, Exc.isXpcf, Exc.isRuntimeError, hruntime, Exec.throw]
      rw [hthrows]
      exact iff_of_false id fun h => h (decide_eq_false hruntime)

/-- A document is loaded, or refused as it should be, exactly when no read that it
comes to is refused. -/
theorem loadLibrary_reported_iff (env : Env) (path : String) (rootElt : XMLElement) (w : World) :
    Reported (loadLibrary env path (.document rootElt) w).1 ↔
      ∀ read w1, DocumentReads env path rootElt w read w1 → ¬ read.Refused env w1 := by
  have hreported : Reported (loadLibrary env path (.document rootElt) w).1 ↔
      ¬ Escapes Unhandled (loadDocument env path rootElt) w := by
    show Reported (tryCatch (loadDocument env path rootElt) handleLoadError w).1 ↔ _
    unfold Escapes
    rw [tryCatch_run]
    rcases loadDocument env path rootElt w with ⟨code | e | _ | _, w1⟩
    · exact iff_of_true trivial id
    · exact reported_handleLoadError_iff e w1
    · exact iff_of_false id fun h => h trivial
    · exact iff_of_false id fun h => h trivial
  rw [hreported, failsAt_loadDocument env path rootElt w]
  simp only [not_exists, not_and]

/-! ## Missing attributes -/

/-- A document with one module, whose only component has no description: the load
throws `std::logic_error`. -/
theorem component_without_description_escapes :
    let rootElt := XMLElement.mk "xpcf-registry" [] none
      [.mk "module" [("uuid", uuidText1), ("name", "m")] none
        [.mk "component" [("uuid", uuidText2), ("name", "c")] none []]]
    (loadLibrary (Env.simple []) "f" (.document rootElt) World.initial).1 = .throws .logicError ∧
      ¬ Reported (loadLibrary (Env.simple []) "f" (.document rootElt) World.initial).1 := by
  intro rootElt
  have hthrows : (loadLibrary (Env.simple []) "f" (.document rootElt) World.initial).1 =
      .throws .logicError := rfl
  rw [hthrows]
  exact ⟨rfl, id⟩

end Xpcf
