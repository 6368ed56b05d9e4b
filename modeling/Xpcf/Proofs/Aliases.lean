import Mathlib.Data.List.Induction
import Mathlib.Logic.Function.Basic
import Mathlib.Tactic.Tauto
import Xpcf.Proofs.RegistryCoherence

/-!
# The names a sequence of files gives

An `<alias>` node always sets its name.  A component or an interface element of
a file with `autoAlias` gives its name only when the name is free, and only when
the element itself adds something to the registry.

* `NameState`: what decides the aliases, and the step of each element on it;
* `nameState_of_loaded`: a file that was loaded made the steps of its elements;
* `aliases_resolve_iff`: every name of a sequence of files resolves as documented
  exactly when no element that comes first for its name was passed over.
-/

namespace Xpcf

open CodeLib CodeLib.Exec

/-! ## Elements -/

/-- The name and the UUID of an element. -/
def namedUuid (env : Env) (elt : XMLElement) : Option (String × Uuid) :=
  (env.toUUID (elt.attributeOrEmpty "uuid")).map fun uuid => (elt.attributeOrEmpty "name", uuid)

/-- A `<component>` element: its name, its UUID and those of its interfaces. -/
structure ComponentEntry where
  name : String
  uuid : Uuid
  interfaces : List (String × Uuid)

def readComponentEntry (env : Env) (elt : XMLElement) : Option ComponentEntry :=
  (env.toUUID (elt.attributeOrEmpty "uuid")).map fun uuid =>
    ⟨elt.attributeOrEmpty "name", uuid,
      (elt.childElements "interface").filterMap (namedUuid env)⟩

/-- The component elements of a file, in the order in which they are met. -/
def componentEntries (env : Env) (rootElt : XMLElement) : List ComponentEntry :=
  (rootElt.childElements "module").flatMap fun moduleElt =>
    (moduleElt.childElements "component").filterMap (readComponentEntry env)

/-- The elements with a name of the kind. -/
def namedElements (components : List ComponentEntry) : AliasType → List (String × Uuid)
  | .component => components.map fun c => (c.name, c.uuid)
  | .interface => components.flatMap (·.interfaces)
  | .module => []

/-- What the `<alias>` nodes of a file declare, in the order of the file. -/
def explicitAliases (env : Env) (rootElt : XMLElement) : List (AliasType × String × Uuid) :=
  (rootElt.childElements "aliases").flatMap fun aliasesElt =>
    (aliasesElt.childElements "alias").filterMap fun elt => (readAlias env elt).toOption

/-- The names of one kind among them. -/
def explicitOf (type : AliasType) (aliases : List (AliasType × String × Uuid)) :
    List (String × Uuid) :=
  (aliases.filter fun entry => entry.1 = type).map Prod.snd

/-! ## Elements that add to the registry -/

/-- The UUIDs the registry knows: an element with one of them adds nothing. -/
structure KnownUuids where
  components : Uuid → Bool
  interfaces : Uuid → Bool

def RegistryContext.knownUuids (ctx : RegistryContext) : KnownUuids :=
  ⟨ctx.componentModuleUUIDMap.contains, ctx.interfacesMap.contains⟩

/-- The component elements with a new UUID. -/
def KnownUuids.newComponents (known : KnownUuids) (components : List ComponentEntry) :
    List ComponentEntry :=
  firstSeen ComponentEntry.uuid known.components components

/-- The elements that add to the registry: a component with a new UUID, and an
interface with a new UUID of such a component. -/
def KnownUuids.newElements (known : KnownUuids) (components : List ComponentEntry) :
    AliasType → List (String × Uuid)
  | .component => namedElements (known.newComponents components) .component
  | .interface => firstSeen Prod.snd known.interfaces
      (namedElements (known.newComponents components) .interface)
  | .module => []

/-! ## The steps of the elements -/

/-- What decides the aliases. -/
structure NameState where
  autoAlias : Bool
  known : KnownUuids
  names : AliasType → Table String Uuid

def World.nameState (w : World) : NameState :=
  ⟨w.factory.autoAlias, w.factory.registry.knownUuids, w.factory.aliases.resolverMap⟩

namespace NameState

/-- An element gives its name, unless the name is taken. -/
def giveName (v : NameState) (type : AliasType) (entry : String × Uuid) : NameState :=
  if v.autoAlias then
    { v with names := Function.update v.names type ((v.names type).addFirst entry.1 entry.2) }
  else v

def knowInterface (v : NameState) (uuid : Uuid) : NameState :=
  { v with known := { v.known with interfaces := see v.known.interfaces uuid } }

def knowComponent (v : NameState) (uuid : Uuid) : NameState :=
  { v with known := { v.known with components := see v.known.components uuid } }

def meetInterface (v : NameState) (entry : String × Uuid) : NameState :=
  if v.known.interfaces entry.2 then v else (v.giveName .interface entry).knowInterface entry.2

def meetComponent (v : NameState) (c : ComponentEntry) : NameState :=
  if v.known.components c.uuid then v
  else c.interfaces.foldl meetInterface
    ((v.knowComponent c.uuid).giveName .component (c.name, c.uuid))

/-- An `<alias>` node replaces the name. -/
def replaceName (v : NameState) (entry : AliasType × String × Uuid) : NameState :=
  { v with names :=
      Function.update v.names entry.1 ((v.names entry.1).insert entry.2.1 entry.2.2) }

/-- The steps of a file. -/
def load (v : NameState) (env : Env) (rootElt : XMLElement) : NameState :=
  (explicitAliases env rootElt).foldl replaceName
    ((componentEntries env rootElt).foldl meetComponent
      { v with autoAlias := autoAliasOf rootElt })

/-! ### What the steps come to -/

theorem giveName_on {v : NameState} (h : v.autoAlias = true) (type : AliasType)
    (entry : String × Uuid) :
    v.giveName type entry =
      ⟨true, v.known,
        Function.update v.names type ((v.names type).addFirst entry.1 entry.2)⟩ := by
  unfold giveName
  rw [if_pos h, h]

/-- Without `autoAlias` no element gives a name. -/
theorem giveName_off {v : NameState} (h : v.autoAlias = false) (type : AliasType)
    (entry : String × Uuid) : v.giveName type entry = v := by
  unfold giveName
  rw [if_neg (Bool.eq_false_iff.mp h)]

theorem meetInterface_known {v : NameState} {entry : String × Uuid}
    (h : v.known.interfaces entry.2 = true) : v.meetInterface entry = v :=
  if_pos h

theorem meetInterface_new {v : NameState} {entry : String × Uuid}
    (h : v.known.interfaces entry.2 = false) :
    v.meetInterface entry = (v.giveName .interface entry).knowInterface entry.2 :=
  if_neg (Bool.eq_false_iff.mp h)

theorem meetComponent_known {v : NameState} {c : ComponentEntry}
    (h : v.known.components c.uuid = true) : v.meetComponent c = v :=
  if_pos h

theorem meetComponent_new {v : NameState} {c : ComponentEntry}
    (h : v.known.components c.uuid = false) :
    v.meetComponent c = c.interfaces.foldl meetInterface
      ((v.knowComponent c.uuid).giveName .component (c.name, c.uuid)) :=
  if_neg (Bool.eq_false_iff.mp h)

theorem foldl_meetInterface_off (l : List (String × Uuid)) {v : NameState}
    (h : v.autoAlias = false) :
    (l.foldl meetInterface v).autoAlias = false ∧ (l.foldl meetInterface v).names = v.names := by
  induction l generalizing v with
  | nil => exact ⟨h, rfl⟩
  | cons entry l ih =>
    rw [List.foldl_cons]
    cases hknown : v.known.interfaces entry.2 with
    | true =>
      rw [meetInterface_known hknown]
      exact ih h
    | false =>
      rw [meetInterface_new hknown, giveName_off h]
      exact ih (v := v.knowInterface entry.2) h

theorem foldl_meetComponent_off (l : List ComponentEntry) {v : NameState}
    (h : v.autoAlias = false) : (l.foldl meetComponent v).names = v.names := by
  induction l generalizing v with
  | nil => rfl
  | cons c l ih =>
    rw [List.foldl_cons]
    cases hknown : v.known.components c.uuid with
    | true =>
      rw [meetComponent_known hknown]
      exact ih h
    | false =>
      have hoff : (v.knowComponent c.uuid).autoAlias = false := h
      obtain ⟨hstill, hnames⟩ := foldl_meetInterface_off c.interfaces hoff
      rw [meetComponent_new hknown, giveName_off hoff, ih hstill, hnames]
      rfl

/-- The interfaces of a component: the new ones give their names, all are known. -/
theorem foldl_meetInterface_on (l : List (String × Uuid)) {v : NameState}
    (hon : v.autoAlias = true) :
    l.foldl meetInterface v =
      ⟨true, ⟨v.known.components, seeAll Prod.snd v.known.interfaces l⟩,
        Function.update v.names .interface
          ((v.names .interface).addAllFirst (firstSeen Prod.snd v.known.interfaces l))⟩ := by
  induction l generalizing v with
  | nil =>
    have hnames : Function.update v.names .interface (v.names .interface) = v.names :=
      Function.update_eq_self _ _
    show v = ⟨true, v.known, Function.update v.names .interface (v.names .interface)⟩
    rw [hnames, ← hon]
  | cons entry l ih =>
    have hsee : seeAll Prod.snd v.known.interfaces (entry :: l) =
        seeAll Prod.snd (see v.known.interfaces entry.2) l := rfl
    rw [List.foldl_cons, firstSeen, hsee]
    cases hknown : v.known.interfaces entry.2 with
    | true =>
      rw [meetInterface_known hknown, ih hon, see_of_known hknown]
      rfl
    | false =>
      rw [meetInterface_new hknown, giveName_on hon, ih rfl]
      simp only [knowInterface, Function.update_self, Function.update_idem]
      rfl

/-- The components of a file: the new elements give their names, in their order. -/
theorem foldl_meetComponent_on (l : List ComponentEntry) {v : NameState}
    (hon : v.autoAlias = true) (type : AliasType) :
    (l.foldl meetComponent v).names type =
      (v.names type).addAllFirst (v.known.newElements l type) := by
  induction l generalizing v with
  | nil => cases type <;> rfl
  | cons c l ih =>
    rw [List.foldl_cons]
    cases hknown : v.known.components c.uuid with
    | true =>
      have hsame : v.known.newComponents (c :: l) = v.known.newComponents l := by
        unfold KnownUuids.newComponents
        rw [firstSeen, if_pos hknown]
      rw [meetComponent_known hknown, ih hon]
      cases type with
      | component => simp only [KnownUuids.newElements, hsame]
      | interface => simp only [KnownUuids.newElements, hsame]
      | module => rfl
    | false =>
      let known : KnownUuids := ⟨see v.known.components c.uuid,
        seeAll Prod.snd v.known.interfaces c.interfaces⟩
      have hnew : v.known.newComponents (c :: l) = c :: known.newComponents l := by
        unfold KnownUuids.newComponents
        rw [firstSeen, hknown]
        rfl
      -- the names after the component and its interfaces
      have hstep : v.meetComponent c =
          ⟨true, known, Function.update
            (Function.update v.names .component ((v.names .component).addFirst c.name c.uuid))
            .interface ((v.names .interface).addAllFirst
              (firstSeen Prod.snd v.known.interfaces c.interfaces))⟩ := by
        have hon1 : (v.knowComponent c.uuid).autoAlias = true := hon
        rw [meetComponent_new hknown, giveName_on hon1, foldl_meetInterface_on c.interfaces rfl]
        rfl
      rw [hstep, ih rfl]
      cases type with
      | component =>
        simp only [KnownUuids.newElements, hnew]
        rfl
      | interface =>
        simp only [KnownUuids.newElements, hnew]
        have hsplit : namedElements (c :: known.newComponents l) .interface =
            c.interfaces ++ namedElements (known.newComponents l) .interface := rfl
        rw [hsplit, firstSeen_append, Table.addAllFirst_append]
        rfl
      | module => rfl

/-- The `<alias>` nodes: each kind has its own names. -/
theorem foldl_replaceName (l : List (AliasType × String × Uuid)) (v : NameState)
    (type : AliasType) :
    (l.foldl replaceName v).names type = (v.names type).insertAll (explicitOf type l) := by
  induction l generalizing v with
  | nil => rfl
  | cons entry l ih =>
    have hnames : (v.replaceName entry).names = Function.update v.names entry.1
        ((v.names entry.1).insert entry.2.1 entry.2.2) := rfl
    rw [List.foldl_cons, ih, hnames]
    unfold explicitOf
    by_cases h : entry.1 = type
    · subst h
      rw [List.filter_cons_of_pos (by simp), Function.update_self]
      rfl
    · rw [List.filter_cons_of_neg (by simpa using h), Function.update_of_ne (Ne.symm h)]

end NameState

/-! ## The reader makes these steps -/

theorem AliasContext.resolverMap_setResolverMap (ctx : AliasContext) (map : Table String Uuid)
    (type : AliasType) :
    (ctx.setResolverMap map type).resolverMap = Function.update ctx.resolverMap type map := by
  funext t
  by_cases h : t = type
  · subst h
    rw [Function.update_self, resolverMap_setResolverMap_self]
  · rw [Function.update_of_ne h, resolverMap_setResolverMap_ne ctx map h]

/-- What every write outside the registry and the aliases keeps. -/
abbrev nameFrame : Frame World := Frame.ofView World.nameState

theorem names_modifyProcess (g : Process → Process) : Keeps nameFrame (modifyProcess g) :=
  Keeps.modify fun _ _ => rfl

theorem names_modifyContext (g : FactoryContext → FactoryContext) :
    Keeps nameFrame (modifyContext g) :=
  Keeps.modify fun _ _ => rfl

theorem names_addConfigPath (env : Env) (componentUuid : Uuid) (path : String) :
    Keeps nameFrame (addConfigPath env componentUuid path) :=
  Keeps.modify fun _ _ => rfl

theorem simulates_declareAutoAlias (type : AliasType) (name : String) (uuid : Uuid) :
    Simulates World.nameState (declareAutoAlias type name uuid)
      (fun v => v.giveName type (name, uuid)) := by
  intro w u w1 h
  unfold declareAutoAlias at h
  rw [gets_bind_run] at h
  cases hauto : w.factory.autoAlias with
  | false =>
    rw [if_neg (by simp [hauto])] at h
    cases h
    exact (NameState.giveName_off hauto type (name, uuid)).symm
  | true =>
    show w1.nameState = w.nameState.giveName type (name, uuid)
    rw [NameState.giveName_on hauto]
    cases htaken : w.factory.aliases.aliasExists type name with
    | true =>
      rw [if_neg (by simp [htaken])] at h
      cases h
      have hadd : (w.factory.aliases.resolverMap type).addFirst name uuid =
          w.factory.aliases.resolverMap type := if_pos htaken
      show NameState.mk _ _ _ = ⟨true, _, Function.update w.factory.aliases.resolverMap type
        ((w.factory.aliases.resolverMap type).addFirst name uuid)⟩
      rw [hadd, Function.update_eq_self, hauto]
      rfl
    | false =>
      rw [if_pos ⟨hauto, htaken⟩] at h
      obtain ⟨_, rfl⟩ := addAliasFunction_ok_iff.mp h
      have hadd : (w.factory.aliases.resolverMap type).addFirst name uuid =
          (w.factory.aliases.resolverMap type).insert name uuid :=
        if_neg (Bool.eq_false_iff.mp htaken)
      show NameState.mk w.factory.autoAlias _ _ =
        ⟨true, _, Function.update w.factory.aliases.resolverMap type
          ((w.factory.aliases.resolverMap type).addFirst name uuid)⟩
      rw [hadd, AliasContext.resolverMap_setResolverMap, hauto]
      rfl

theorem simulates_addInterfaceMetadata (metadata : InterfaceMetadata) :
    Simulates World.nameState (modifyRegistry fun ctx => ctx.addInterfaceMetadata metadata)
      (fun v => v.knowInterface metadata.uuid) := by
  refine Simulates.modify fun w => ?_
  have hknown : (w.factory.registry.addInterfaceMetadata metadata).knownUuids =
      { w.factory.registry.knownUuids with
        interfaces := see w.factory.registry.interfacesMap.contains metadata.uuid } := by
    unfold RegistryContext.addInterfaceMetadata
    split
    · rename_i hcontains
      rw [see_of_known hcontains]
      rfl
    · unfold RegistryContext.knownUuids
      rw [Table.contains_insert]
  show NameState.mk _ (RegistryContext.knownUuids _) _ = _
  rw [hknown]
  rfl

theorem simulates_setModuleUUID (componentUUID moduleUUID : Uuid) :
    Simulates World.nameState (modifyRegistry fun ctx => ctx.setModuleUUID componentUUID moduleUUID)
      (fun v => v.knowComponent componentUUID) := by
  refine Simulates.modify fun w => ?_
  have hknown : (w.factory.registry.setModuleUUID componentUUID moduleUUID).knownUuids =
      { w.factory.registry.knownUuids with
        components := see w.factory.registry.componentModuleUUIDMap.contains componentUUID } := by
    unfold RegistryContext.setModuleUUID RegistryContext.knownUuids
    rw [Table.contains_insert]
  show NameState.mk _ (RegistryContext.knownUuids _) _ = _
  rw [hknown]
  rfl

theorem simulates_rethrowXpcf {α : Type} {msg : String → XmlErrorMessage} {m : XpcfM α}
    {step : NameState → NameState} (hm : Simulates World.nameState m step) :
    Simulates World.nameState (rethrowXpcf msg m) step :=
  fun w a w1 h => hm w a w1 (rethrowXpcf_ok_iff.mp h)

/-- An interface element that was read has a UUID, and made its step. -/
theorem declareInterfaceNode_ok {env : Env} {c : ComponentRef} {elt : XMLElement} {w w1 : World}
    {u : Unit} (h : declareInterfaceNode env c elt w = (.ok u, w1)) :
    ∃ entry, namedUuid env elt = some entry ∧
      w1.nameState = w.nameState.meetInterface entry := by
  obtain ⟨uuid, w2, hparse, hrest⟩ := bind_ok_iff.mp (rethrowXpcf_ok_iff.mp h)
  obtain ⟨huuid, rfl⟩ := uuidOfAttribute_ok_iff.mp hparse
  refine ⟨(elt.attributeOrEmpty "name", uuid), ?_, ?_⟩
  · unfold namedUuid
    rw [huuid]
    rfl
  · obtain ⟨_, w3, hadd, hrest3⟩ := bind_ok_iff.mp hrest
    have hsame3 : w3.nameState = w2.nameState := (names_modifyProcess _).of_run trivial hadd
    rw [gets_bind_run] at hrest3
    obtain ⟨_, w4, hbind, hrest4⟩ := bind_ok_iff.mp hrest3
    have hsame4 : w4.nameState = w3.nameState := (names_modifyContext _).of_run trivial hbind
    rw [← hsame3]
    cases hknown : w3.factory.registry.interfacesMap.contains uuid with
    | true =>
      rw [id, hknown, if_pos rfl] at hrest4
      cases hrest4
      rw [NameState.meetInterface_known hknown, hsame4]
    | false =>
      rw [id, hknown, if_neg Bool.false_ne_true] at hrest4
      have hnew : Simulates World.nameState (declareNewInterface elt uuid) fun v =>
          (v.giveName .interface (elt.attributeOrEmpty "name", uuid)).knowInterface uuid :=
        Simulates.bind_of (Keeps.ofExcept _) fun _ description _ _ =>
          Simulates.bind (fun v => v.knowInterface uuid) (simulates_declareAutoAlias _ _ _)
            fun _ => simulates_addInterfaceMetadata _
      rw [NameState.meetInterface_new hknown, hnew w4 u w1 hrest4, hsame4]

theorem simulates_declareNewComponent (env : Env) (r : ModuleRef) (elt : XMLElement)
    (uuid : Uuid) :
    Simulates World.nameState (declareNewComponent env r elt uuid) (fun v =>
      ((elt.childElements "interface").filterMap (namedUuid env)).foldl NameState.meetInterface
        ((v.knowComponent uuid).giveName .component (elt.attributeOrEmpty "name", uuid))) := by
  let interfaces := (elt.childElements "interface").filterMap (namedUuid env)
  refine Simulates.bind_of (Keeps.gets _) fun _ p _ _ => ?_
  refine Simulates.bind (fun v => interfaces.foldl NameState.meetInterface
    (v.giveName .component (elt.attributeOrEmpty "name", uuid))) (simulates_setModuleUUID _ _)
    fun _ => ?_
  refine Simulates.bind_of (Keeps.ofExcept _) fun _ description _ _ => ?_
  refine Simulates.bind_of (fun _ _ => rfl) fun _ c _ _ => ?_
  refine Simulates.bind (interfaces.foldl NameState.meetInterface)
    (simulates_declareAutoAlias _ _ _) fun _ => ?_
  refine Simulates.bind_of (names_modifyProcess _) fun _ _ _ _ => ?_
  exact Simulates.forEach_read fun child _ w u w1 h => declareInterfaceNode_ok h

theorem declareComponent_ok {env : Env} {r : ModuleRef} {elt : XMLElement} {w w1 : World}
    {u : Unit} (h : declareComponent env r elt w = (.ok u, w1)) :
    ∃ c, readComponentEntry env elt = some c ∧ w1.nameState = w.nameState.meetComponent c := by
  obtain ⟨uuid, w2, hparse, hrest⟩ := bind_ok_iff.mp h
  obtain ⟨huuid, rfl⟩ := uuidOfAttribute_ok_iff.mp (rethrowXpcf_ok_iff.mp hparse)
  refine ⟨⟨elt.attributeOrEmpty "name", uuid,
    (elt.childElements "interface").filterMap (namedUuid env)⟩, ?_, ?_⟩
  · unfold readComponentEntry
    rw [huuid]
    rfl
  · have hrun := rethrowXpcf_ok_iff.mp hrest
    rw [gets_bind_run] at hrun
    cases hknown : w2.factory.registry.componentModuleUUIDMap.contains uuid with
    | true =>
      rw [hknown, if_pos rfl] at hrun
      cases hrun
      exact (NameState.meetComponent_known hknown).symm
    | false =>
      rw [hknown, if_neg Bool.false_ne_true] at hrun
      rw [NameState.meetComponent_new hknown]
      exact simulates_declareNewComponent env r elt uuid w2 u w1 hrun

theorem simulates_declareModule (env : Env) (elt : XMLElement) :
    Simulates World.nameState (declareModule env elt)
      (((elt.childElements "component").filterMap (readComponentEntry env)).foldl
        NameState.meetComponent) := by
  refine Simulates.bind_of (keeps_rethrowXpcf (keeps_uuidOfAttribute env _ _ _))
    fun _ uuid _ _ => ?_
  refine simulates_rethrowXpcf (Simulates.bind_of (fun _ _ => rfl) fun _ r _ _ => ?_)
  have hregister : Keeps nameFrame (modifyRegistry fun ctx =>
      if ctx.modulesMap.contains uuid then ctx else ctx.addModuleMetadata uuid r) := by
    refine Keeps.modify fun w _ => ?_
    have hknown : ∀ ctx : RegistryContext, (if ctx.modulesMap.contains uuid then ctx
        else ctx.addModuleMetadata uuid r).knownUuids = ctx.knownUuids := by
      intro ctx
      unfold RegistryContext.addModuleMetadata
      split
      · rfl
      · rfl
    show NameState.mk _ (RegistryContext.knownUuids _) _ = _
    rw [hknown]
    rfl
  refine Simulates.bind_of hregister fun _ _ _ _ => ?_
  exact Simulates.forEach_read fun child _ w u w1 h => declareComponent_ok h

theorem declareAliasNode_ok {env : Env} {elt : XMLElement} {w w1 : World} {u : Unit}
    (h : declareAliasNode env elt w = (.ok u, w1)) :
    ∃ entry, (readAlias env elt).toOption = some entry ∧
      w1.nameState = w.nameState.replaceName entry := by
  obtain ⟨entry, w2, hread, hdeclare⟩ := bind_ok_iff.mp (rethrowXpcf_ok_iff.mp h)
  obtain ⟨hentry, rfl⟩ := ofExcept_ok_iff.mp hread
  obtain ⟨_, rfl⟩ := addAliasFunction_ok_iff.mp hdeclare
  refine ⟨entry, ?_, ?_⟩
  · rw [hentry]
    rfl
  · show NameState.mk _ _ (AliasContext.resolverMap _) = _
    rw [AliasContext.resolverMap_setResolverMap]
    rfl

theorem simulates_declareAliases (env : Env) (elt : XMLElement) :
    Simulates World.nameState (declareAliases env elt)
      (((elt.childElements "alias").filterMap fun elt => (readAlias env elt).toOption).foldl
        NameState.replaceName) :=
  simulates_rethrowXpcf (Simulates.forEach_read fun _ _ _ _ _ h => declareAliasNode_ok h)

theorem simulates_loadDocument (env : Env) (path : String) (rootElt : XMLElement) :
    Simulates World.nameState (loadDocument env path rootElt) (fun v => v.load env rootElt) := by
  have hroot : Keeps nameFrame (if rootNames.contains rootElt.value then pure ()
      else throw (.xpcf .configurationException
        "missing root element \"xpcf-registry\" or \"xpcf-configuration\"" .errorRange) :
      XpcfM Unit) := by
    split
    · exact Keeps.pure ()
    · exact Keeps.throw _
  have hflag : Simulates World.nameState
      (modifyFactory fun f => { f with autoAlias := autoAliasOf rootElt })
      (fun v => { v with autoAlias := autoAliasOf rootElt }) := Simulates.modify fun _ => rfl
  have hmodules : Simulates World.nameState (processXmlNode rootElt "module" (declareModule env))
      ((componentEntries env rootElt).foldl NameState.meetComponent) := by
    unfold componentEntries
    rw [funext fun v => List.foldl_flatMap]
    exact Simulates.forEach fun elt _ => simulates_declareModule env elt
  have haliases : Simulates World.nameState (processXmlNode rootElt "aliases" (declareAliases env))
      ((explicitAliases env rootElt).foldl NameState.replaceName) := by
    unfold explicitAliases
    rw [funext fun v => List.foldl_flatMap]
    exact Simulates.forEach fun elt _ => simulates_declareAliases env elt
  -- the other nodes give no names
  have hrest : Keeps nameFrame (do
      processXmlNode rootElt "factory" (declareFactory env)
      processXmlNode rootElt "configuration" (declareConfiguration env path)
      processXmlNode rootElt "properties" (declareProperties env path)
      pure .success : XpcfM XPCFErrorCode) := by
    refine Keeps.bind (keeps_processXmlNode
      (keeps_declareFactory names_modifyContext env)) fun _ => ?_
    refine Keeps.bind (keeps_processXmlNode
      (keeps_declareConfiguration names_addConfigPath env path)) fun _ => ?_
    exact Keeps.bind (keeps_processXmlNode
      (keeps_declareProperties names_addConfigPath env path)) fun _ => Keeps.pure _
  refine Simulates.bind_of hroot fun _ _ _ _ => ?_
  refine Simulates.bind (fun v => (explicitAliases env rootElt).foldl NameState.replaceName
    ((componentEntries env rootElt).foldl NameState.meetComponent v)) hflag fun _ => ?_
  refine Simulates.bind ((explicitAliases env rootElt).foldl NameState.replaceName) hmodules
    fun _ => ?_
  exact Simulates.bind id haliases fun _ => Simulates.of_keeps hrest

/-- A file that was loaded has made the steps of its elements. -/
theorem nameState_of_loaded {env : Env} {path : String} {rootElt : XMLElement} {w w1 : World}
    (h : loadLibrary env path (.document rootElt) w = (.ok .success, w1)) :
    w1.nameState = w.nameState.load env rootElt := by
  exact simulates_loadDocument env path rootElt w _ w1 (loadLibrary_success_iff.mp h)

/-! ## What the names resolve to -/

/-- The elements that may give a name: none without `autoAlias`. -/
def autoElements (env : Env) (rootElt : XMLElement) (type : AliasType) : List (String × Uuid) :=
  if autoAliasOf rootElt then namedElements (componentEntries env rootElt) type else []

/-- The documented meaning of a name after these files: the last `<alias>` node,
else the first element with the name in a file with `autoAlias`. -/
def documentedAlias (env : Env) (rootElts : List XMLElement) (type : AliasType)
    (name : String) : Option Uuid :=
  ((rootElts.flatMap fun rootElt => explicitOf type (explicitAliases env rootElt)).reverse.lookup
    name).or ((rootElts.flatMap fun rootElt => autoElements env rootElt type).lookup name)

/-- The names of components and interfaces have their documented meaning. -/
structure NamesResolve (env : Env) (rootElts : List XMLElement) (w : World) : Prop where
  component : ∀ name uuid, documentedAlias env rootElts .component name = some uuid →
    resolveComponentAlias w.factory.aliases name = .ok uuid
  interface : ∀ name uuid, documentedAlias env rootElts .interface name = some uuid →
    resolveInterfaceAlias w.factory.aliases name = .ok uuid
  missing : ∀ type name, type = .component ∨ type = .interface →
    (w.factory.aliases.aliasExists type name = false ↔
      documentedAlias env rootElts type name = none)

/-- For each name that is free and that no `<alias>` node of the file declares:
the first element of the file with the name and the first such element that adds
to the registry have one UUID, or there is none. -/
def FirstIsNew (env : Env) (w : World) (rootElt : XMLElement) : Prop :=
  autoAliasOf rootElt = true → ∀ type name,
    w.factory.aliases.aliasExists type name = false →
    (explicitOf type (explicitAliases env rootElt)).lookup name = none →
    (w.factory.registry.knownUuids.newElements (componentEntries env rootElt) type).lookup name =
      (namedElements (componentEntries env rootElt) type).lookup name

theorem resolveAlias_ok_iff {name : String} {map : Table String Uuid} {uuid : Uuid} :
    resolveAlias name map = .ok uuid ↔ map name = some uuid := by
  unfold resolveAlias
  cases map name with
  | some u => simp
  | none => simp

/-- The names as table entries. -/
theorem namesResolve_iff {env : Env} {rootElts : List XMLElement} {w : World} :
    NamesResolve env rootElts w ↔ ∀ type name, type = .component ∨ type = .interface →
      w.factory.aliases.resolverMap type name = documentedAlias env rootElts type name := by
  constructor
  · intro h type name htype
    cases hdoc : documentedAlias env rootElts type name with
    | none => exact Table.not_contains_iff.mp ((h.missing type name htype).mpr hdoc)
    | some uuid =>
      rcases htype with rfl | rfl
      · exact resolveAlias_ok_iff.mp (h.component name uuid hdoc)
      · exact resolveAlias_ok_iff.mp (h.interface name uuid hdoc)
  · intro h
    refine ⟨fun name uuid hdoc => ?_, fun name uuid hdoc => ?_, fun type name htype => ?_⟩
    · exact resolveAlias_ok_iff.mpr ((h .component name (.inl rfl)).trans hdoc)
    · exact resolveAlias_ok_iff.mpr ((h .interface name (.inr rfl)).trans hdoc)
    · rw [← h type name htype]
      exact Table.not_contains_iff

/-- The last alias of the file, else the old one, else the first new element. -/
theorem resolverMap_of_loaded {env : Env} {path : String} {rootElt : XMLElement} {w w1 : World}
    (h : loadLibrary env path (.document rootElt) w = (.ok .success, w1)) (type : AliasType)
    (name : String) :
    w1.factory.aliases.resolverMap type name =
      ((explicitOf type (explicitAliases env rootElt)).reverse.lookup name).or
        ((w.factory.aliases.resolverMap type name).or
          (if autoAliasOf rootElt then
            (w.factory.registry.knownUuids.newElements (componentEntries env rootElt)
              type).lookup name
          else none)) := by
  have hnames : w1.factory.aliases.resolverMap = (w.nameState.load env rootElt).names :=
    congrArg NameState.names (nameState_of_loaded h)
  rw [hnames, NameState.load, NameState.foldl_replaceName, Table.insertAll_apply]
  congr 1
  cases hauto : autoAliasOf rootElt with
  | true =>
    rw [NameState.foldl_meetComponent_on _ rfl, Table.addAllFirst_apply]
    rfl
  | false =>
    rw [NameState.foldl_meetComponent_off _ rfl]
    exact (Option.or_none).symm

theorem documentedAlias_append (env : Env) (rootElts : List XMLElement) (rootElt : XMLElement)
    (type : AliasType) (name : String) :
    documentedAlias env (rootElts ++ [rootElt]) type name =
      ((explicitOf type (explicitAliases env rootElt)).reverse.lookup name).or
        ((documentedAlias env rootElts type name).or
          ((autoElements env rootElt type).lookup name)) := by
  unfold documentedAlias
  simp only [List.flatMap_append, List.flatMap_singleton, List.reverse_append, List.lookup_append,
    Option.or_assoc]

theorem or_congr_iff {α : Type} {x a b : Option α} : x.or a = x.or b ↔ (x = none → a = b) := by
  cases x with
  | none => simp
  | some v => simp

theorem lookup_reverse_eq_none {l : List (String × Uuid)} {name : String} :
    l.reverse.lookup name = none ↔ l.lookup name = none := by
  simp [List.lookup_eq_none_iff]

/-- One file: the names keep their documented meaning exactly when no first
element is passed over. -/
theorem namesResolve_step {env : Env} {rootElts : List XMLElement} {path : String}
    {rootElt : XMLElement} {w w1 : World} (hw : NamesResolve env rootElts w)
    (h : loadLibrary env path (.document rootElt) w = (.ok .success, w1)) :
    NamesResolve env (rootElts ++ [rootElt]) w1 ↔ FirstIsNew env w rootElt := by
  have hold := namesResolve_iff.mp hw
  have hname : ∀ type name, type = .component ∨ type = .interface →
      (w1.factory.aliases.resolverMap type name =
          documentedAlias env (rootElts ++ [rootElt]) type name ↔
        (autoAliasOf rootElt = true → w.factory.aliases.aliasExists type name = false →
          (explicitOf type (explicitAliases env rootElt)).lookup name = none →
          (w.factory.registry.knownUuids.newElements (componentEntries env rootElt)
              type).lookup name =
            (namedElements (componentEntries env rootElt) type).lookup name)) := by
    intro type name htype
    rw [resolverMap_of_loaded h, documentedAlias_append, or_congr_iff, hold type name htype,
      or_congr_iff, lookup_reverse_eq_none, ← hold type name htype]
    unfold autoElements
    have hfree : w.factory.aliases.aliasExists type name = false ↔
        w.factory.aliases.resolverMap type name = none := Table.not_contains_iff
    rw [hfree]
    cases autoAliasOf rootElt with
    | true => simp only [if_true, forall_const]; tauto
    | false => simp
  rw [namesResolve_iff]
  constructor
  · intro hall hauto type name hfree hexplicit
    cases type with
    | component => exact (hname _ name (.inl rfl)).mp (hall _ name (.inl rfl)) hauto hfree hexplicit
    | interface => exact (hname _ name (.inr rfl)).mp (hall _ name (.inr rfl)) hauto hfree hexplicit
    | module => rfl
  · intro hfirst type name htype
    exact (hname type name htype).mpr fun hauto => hfirst hauto type name

/-! ## Sequences of files -/

/-- The world after the files have been loaded one after another. -/
def afterLoads (env : Env) (w : World) (files : List (String × XMLElement)) : World :=
  files.foldl (fun w file => (loadLibrary env file.1 (.document file.2) w).2) w

/-- Every file is loaded with success. -/
def AllLoaded (env : Env) (w : World) (files : List (String × XMLElement)) : Prop :=
  ∀ before file after, before ++ file :: after = files →
    (loadLibrary env file.1 (.document file.2) (afterLoads env w before)).1 = .ok .success

theorem namesResolve_constructed (env : Env) (p : Process) :
    NamesResolve env [] (World.constructed p) := by
  refine namesResolve_iff.mpr fun type name _ => ?_
  cases type with
  | component => rfl
  | interface => rfl
  | module => rfl

/-- From a new factory, the names have their documented meaning after each file
of a sequence exactly when no file passes over a first element. -/
theorem namesResolve_always_iff {env : Env} {p : Process} {files : List (String × XMLElement)}
    (hloaded : AllLoaded env (World.constructed p) files) :
    (∀ before, before <+: files →
        NamesResolve env (before.map Prod.snd) (afterLoads env (World.constructed p) before)) ↔
      ∀ before file after, before ++ file :: after = files →
        FirstIsNew env (afterLoads env (World.constructed p) before) file.2 := by
  have hstep : ∀ before file after, before ++ file :: after = files →
      NamesResolve env (before.map Prod.snd) (afterLoads env (World.constructed p) before) →
      (NamesResolve env ((before ++ [file]).map Prod.snd)
          (afterLoads env (World.constructed p) (before ++ [file])) ↔
        FirstIsNew env (afterLoads env (World.constructed p) before) file.2) := by
    intro before file after heq hbefore
    have hok := hloaded before file after heq
    have hlast : afterLoads env (World.constructed p) (before ++ [file]) =
        (loadLibrary env file.1 (.document file.2)
          (afterLoads env (World.constructed p) before)).2 := List.foldl_concat ..
    rw [List.map_append, hlast]
    exact namesResolve_step hbefore (Prod.ext hok rfl)
  constructor
  · intro hall before file after heq
    refine (hstep before file after heq (hall before ⟨_, heq⟩)).mp (hall _ ⟨after, ?_⟩)
    rw [← heq, List.append_assoc]
    rfl
  · intro hfirst before
    induction before using List.reverseRecOn with
    | nil => exact fun _ => namesResolve_constructed env p
    | append_singleton before file ih =>
      rintro ⟨after, hafter⟩
      have heq : before ++ file :: after = files := by
        rw [← hafter, List.append_assoc]
        rfl
      exact (hstep before file after heq (ih ⟨_, heq⟩)).mpr (hfirst before file after heq)

/-- A file with component 2, called "c", of module 1. -/
def componentFile (rootAttributes : List (String × String)) : String × XMLElement :=
  ("p", .mk "xpcf-registry" rootAttributes none [moduleElement uuidText2])

/-- A file that gives the name "c" to component 3. -/
def aliasFile : String × XMLElement :=
  ("q", .mk "xpcf-registry" [] none
    [.mk "aliases" [] none
      [.mk "alias" [("name", "c"), ("type", "component"), ("uuid", uuidText3)] none []]])

/-- The two ways to split a list of two files. -/
theorem split_pair {α : Type} {x y file : α} {before after : List α}
    (h : before ++ file :: after = [x, y]) :
    before = [] ∧ file = x ∨ before = [x] ∧ file = y := by
  match before, h with
  | [], h => exact .inl ⟨rfl, (List.cons.inj h).1⟩
  | [_], h =>
    obtain ⟨rfl, htail⟩ := List.cons.inj h
    exact .inr ⟨rfl, (List.cons.inj htail).1⟩
  | _ :: _ :: before, h =>
    obtain ⟨_, htail⟩ := List.cons.inj h
    obtain ⟨_, hnil⟩ := List.cons.inj htail
    exact absurd hnil (List.append_ne_nil_of_right_ne_nil before (List.cons_ne_nil _ _))

/-- An element of a file with `autoAlias`, then an `<alias>` node for its name. -/
theorem namesResolve_alias_after_autoAlias :
    let files := [componentFile [("autoAlias", "true")], aliasFile]
    let w := afterLoads (Env.simple []) World.initial files
    NamesResolve (Env.simple []) (files.map Prod.snd) w ∧
      resolveComponentAlias w.factory.aliases "c" = .ok 3 := by
  have hloaded : AllLoaded (Env.simple []) World.initial
      [componentFile [("autoAlias", "true")], aliasFile] := by
    intro before file after heq
    rcases split_pair heq with ⟨rfl, rfl⟩ | ⟨rfl, rfl⟩
    · rfl
    · rfl
  refine ⟨(namesResolve_always_iff hloaded).mpr ?_ _ (List.prefix_refl _), rfl⟩
  intro before file after heq
  rcases split_pair heq with ⟨rfl, rfl⟩ | ⟨rfl, rfl⟩
  · -- nothing is known yet
    intro _ type name _ _
    cases type with
    | component => rfl
    | interface => rfl
    | module => rfl
  · intro hauto
    cases hauto

/-- A component that an earlier file without `autoAlias` declared: in the file
with `autoAlias` its element gives no name, although the name is free. -/
theorem known_component_gets_no_alias :
    let files := [componentFile [], componentFile [("autoAlias", "true")]]
    let w := afterLoads (Env.simple []) World.initial files
    AllLoaded (Env.simple []) World.initial files ∧
      documentedAlias (Env.simple []) (files.map Prod.snd) .component "c" = some 2 ∧
      w.factory.aliases.aliasExists .component "c" = false ∧
      ¬ NamesResolve (Env.simple []) (files.map Prod.snd) w := by
  refine ⟨fun before file after heq => ?_, rfl, rfl, fun hnames => ?_⟩
  · rcases split_pair heq with ⟨rfl, rfl⟩ | ⟨rfl, rfl⟩
    · rfl
    · rfl
  · have hresolves := hnames.component "c" 2 rfl
    cases hresolves

end Xpcf
