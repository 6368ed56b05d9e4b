import Xpcf.Proofs.Construction
import Xpcf.Proofs.GeneratedFiles
import Xpcf.Proofs.LoadErrors
import Xpcf.Proofs.RpcNames

/-!
# Loading the generated files

The files that the generator writes name interfaces and components by their
names, and none of them has an `<aliases>` node.  So they rely on `autoAlias`,
which their roots do not carry.

* `unnamedFrame`: without `autoAlias` and `<aliases>` a file gives no names;
* `NamesUsed`: a file that loads uses names that can be resolved;
* `generated_files_refused`: from a factory without names, none of the four loads
  with what it needs.
-/

namespace Xpcf

open CodeLib CodeLib.Exec

/-! ## Files that give no names -/

/-- What every step keeps while the registry does not give names by itself. -/
def unnamedFrame : Frame World where
  pre w := w.factory.autoAlias = false
  rel w w1 := w1.factory.autoAlias = w.factory.autoAlias ∧ w1.factory.aliases = w.factory.aliases
  refl _ := ⟨rfl, rfl⟩
  trans h h1 := ⟨h1.1.trans h.1, h1.2.trans h.2⟩
  stable h h1 := h1.1.trans h

theorem unnamed_modifyProcess (g : Process → Process) : Keeps unnamedFrame (modifyProcess g) :=
  Keeps.modify fun _ _ => ⟨rfl, rfl⟩

theorem unnamed_modifyContext (g : FactoryContext → FactoryContext) :
    Keeps unnamedFrame (modifyContext g) :=
  Keeps.modify fun _ _ => ⟨rfl, rfl⟩

theorem unnamed_modifyRegistry (g : RegistryContext → RegistryContext) :
    Keeps unnamedFrame (modifyRegistry g) :=
  Keeps.modify fun _ _ => ⟨rfl, rfl⟩

theorem unnamed_addConfigPath (env : Env) (componentUuid : Uuid) (path : String) :
    Keeps unnamedFrame (addConfigPath env componentUuid path) :=
  Keeps.modify fun _ _ => ⟨rfl, rfl⟩

theorem unnamed_declareAutoAlias (type : AliasType) (name : String) (uuid : Uuid) :
    Keeps unnamedFrame (declareAutoAlias type name uuid) := by
  refine Keeps.gets_bind fun w hw => ?_
  have hoff : ¬ (w.factory.autoAlias = true ∧ w.factory.aliases.aliasExists type name = false) :=
    fun h => Bool.false_ne_true (hw.symm.trans h.1)
  rw [if_neg hoff]
  exact ⟨rfl, rfl⟩

theorem unnamed_declareInterfaceNode (env : Env) (c : ComponentRef) (elt : XMLElement) :
    Keeps unnamedFrame (declareInterfaceNode env c elt) := by
  refine keeps_rethrowXpcf (Keeps.bind (keeps_uuidOfAttribute env _ _ _) fun uuid => ?_)
  refine Keeps.bind (unnamed_modifyProcess _) fun _ => Keeps.bind (Keeps.gets _) fun w => ?_
  refine Keeps.bind (unnamed_modifyContext _) fun _ => ?_
  split
  · exact Keeps.pure ()
  · refine Keeps.bind (Keeps.ofExcept _) fun description => ?_
    exact Keeps.bind (unnamed_declareAutoAlias _ _ _) fun _ => unnamed_modifyRegistry _

theorem unnamed_declareComponent (env : Env) (r : ModuleRef) (elt : XMLElement) :
    Keeps unnamedFrame (declareComponent env r elt) := by
  refine Keeps.bind (keeps_rethrowXpcf (keeps_uuidOfAttribute env _ _ _)) fun uuid =>
    keeps_rethrowXpcf ?_
  refine Keeps.bind (Keeps.gets _) fun known => ?_
  split
  · exact Keeps.pure ()
  · refine Keeps.bind (Keeps.gets _) fun p => Keeps.bind (unnamed_modifyRegistry _) fun _ => ?_
    refine Keeps.bind (Keeps.ofExcept _) fun description => ?_
    refine Keeps.bind (fun _ _ => ⟨rfl, rfl⟩) fun c => ?_
    refine Keeps.bind (unnamed_declareAutoAlias _ _ _) fun _ => ?_
    refine Keeps.bind (unnamed_modifyProcess _) fun _ => ?_
    exact keeps_processXmlNode fun child => unnamed_declareInterfaceNode env c child

theorem unnamed_declareModule (env : Env) (elt : XMLElement) :
    Keeps unnamedFrame (declareModule env elt) := by
  refine Keeps.bind (keeps_rethrowXpcf (keeps_uuidOfAttribute env _ _ _)) fun uuid =>
    keeps_rethrowXpcf ?_
  refine Keeps.bind (fun _ _ => ⟨rfl, rfl⟩) fun r => ?_
  refine Keeps.bind (unnamed_modifyRegistry _) fun _ => ?_
  exact keeps_processXmlNode fun child => unnamed_declareComponent env r child

/-- A file that gives no names: `autoAlias` is not set and no name is declared. -/
structure Unnamed (rootElt : XMLElement) : Prop where
  autoAlias : autoAliasOf rootElt = false
  aliases : rootElt.childElements "aliases" = []

section Load

variable {env : Env} {path : String} {rootElt : XMLElement}

theorem unnamed_processAliases (h : Unnamed rootElt) :
    Keeps unnamedFrame (processXmlNode rootElt "aliases" (declareAliases env)) := by
  unfold processXmlNode
  rw [h.aliases]
  exact Keeps.pure ()

/-- Whether the file loads or not, the names stay. -/
theorem aliases_loadLibrary (h : Unnamed rootElt) (w : World) :
    (loadLibrary env path (.document rootElt) w).2.factory.aliases = w.factory.aliases := by
  have hsections : Keeps unnamedFrame (do
      processXmlNode rootElt "module" (declareModule env)
      processXmlNode rootElt "aliases" (declareAliases env)
      processXmlNode rootElt "factory" (declareFactory env)
      processXmlNode rootElt "configuration" (declareConfiguration env path)
      processXmlNode rootElt "properties" (declareProperties env path)
      pure .success : XpcfM XPCFErrorCode) := by
    refine Keeps.bind (keeps_processXmlNode (unnamed_declareModule env)) fun _ => ?_
    refine Keeps.bind (unnamed_processAliases h) fun _ => ?_
    refine Keeps.bind (keeps_processXmlNode
      (keeps_declareFactory unnamed_modifyContext env)) fun _ => ?_
    refine Keeps.bind (keeps_processXmlNode
      (keeps_declareConfiguration unnamed_addConfigPath env path)) fun _ => ?_
    exact Keeps.bind (keeps_processXmlNode
      (keeps_declareProperties unnamed_addConfigPath env path)) fun _ => Keeps.pure _
  have hkeeps : Keeps (Frame.ofView fun w : World => w.factory.aliases)
      (loadLibrary env path (.document rootElt)) := by
    refine Keeps.tryCatch (Keeps.bind ?_ fun _ => fun w _ => ?_) keeps_handleLoadError
    · split
      · exact Keeps.pure ()
      · exact Keeps.throw _
    · exact (hsections { w with factory := { w.factory with autoAlias := autoAliasOf rootElt } }
        h.autoAlias).2
  exact hkeeps w trivial

/-- In a file that loads, its factory and its properties are read with the names
that were there before. -/
theorem sections_of_success (hnames : Unnamed rootElt) {w : World}
    (h : (loadLibrary env path (.document rootElt) w).1 = .ok .success) :
    ∃ w1 w2, unnamedFrame.pre w1 ∧ w1.factory.aliases = w.factory.aliases ∧
      processXmlNode rootElt "factory" (declareFactory env) w1 = (.ok (), w2) ∧
      ∃ w3 w4, unnamedFrame.pre w3 ∧ w3.factory.aliases = w.factory.aliases ∧
        processXmlNode rootElt "properties" (declareProperties env path) w3 = (.ok (), w4) := by
  have hdocument : loadDocument env path rootElt w =
      (.ok .success, (loadLibrary env path (.document rootElt) w).2) :=
    loadLibrary_success_iff.mp (Prod.ext h rfl)
  obtain ⟨_, v, hroot, hflag⟩ := bind_ok_iff.mp hdocument
  have hv : v = w := by
    split at hroot
    · cases hroot
      rfl
    · cases hroot
  subst hv
  obtain ⟨_, v0, hset, hrest0⟩ := bind_ok_iff.mp hflag
  cases hset
  have hpre : unnamedFrame.pre
      { v with factory := { v.factory with autoAlias := autoAliasOf rootElt } } := hnames.autoAlias
  obtain ⟨_, v1, hmodules, hrest1⟩ := bind_ok_iff.mp hrest0
  have hrel1 := (keeps_processXmlNode (unnamed_declareModule env)).of_run hpre hmodules
  have hpre1 := unnamedFrame.stable hpre hrel1
  obtain ⟨_, v2, haliases, hrest2⟩ := bind_ok_iff.mp hrest1
  have hrel2 := (unnamed_processAliases hnames).of_run hpre1 haliases
  have hpre2 := unnamedFrame.stable hpre1 hrel2
  obtain ⟨_, v3, hfactory, hrest3⟩ := bind_ok_iff.mp hrest2
  have hrel3 := (keeps_processXmlNode
    (keeps_declareFactory unnamed_modifyContext env)).of_run hpre2 hfactory
  have hpre3 := unnamedFrame.stable hpre2 hrel3
  obtain ⟨_, v4, hconfiguration, hrest4⟩ := bind_ok_iff.mp hrest3
  have hrel4 := (keeps_processXmlNode
    (keeps_declareConfiguration unnamed_addConfigPath env path)).of_run hpre3 hconfiguration
  obtain ⟨_, v5, hproperties, _⟩ := bind_ok_iff.mp hrest4
  have hsame2 : v2.factory.aliases = v.factory.aliases := hrel2.2.trans hrel1.2
  exact ⟨v2, v3, hpre2, hsame2, hfactory, v4, v5, unnamedFrame.stable hpre3 hrel4,
    hrel4.2.trans (hrel3.2.trans hsame2), hproperties⟩

end Load

/-! ## Names that are used -/

section Names

variable {env : Env} {path : String} {elt : XMLElement} {w w1 : World}

theorem resolvable_of_ok {aliases : AliasContext} {type : AliasType} {text : String} {onError : Exc}
    {uuid : Uuid} (h : uuidOrAlias env aliases type text onError = .ok uuid) :
    Resolvable env aliases type text := by
  rcases uuidOrAlias_cases env aliases type text onError with ⟨hresolvable, _⟩ | ⟨_, herror⟩
  · exact hresolvable
  · rw [herror] at h
    cases h

/-- A bind node that was declared has an interface that can be resolved. -/
theorem resolvable_of_declareBind (h : declareBind env elt w = (.ok (), w1)) :
    ∃ text, elt.attr "interface" = some text ∧
      Resolvable env w.factory.aliases .interface text := by
  obtain ⟨uuid, v, htarget, _⟩ := bind_ok_iff.mp h
  have hread := rethrowXpcf_ok_iff.mp htarget
  unfold readTarget at hread
  rw [gets_bind_run] at hread
  cases hattr : elt.attr "interface" with
  | none =>
    rw [hattr] at hread
    cases hread
  | some text =>
    rw [hattr] at hread
    exact ⟨text, rfl, resolvable_of_ok (ofExcept_ok_iff.mp hread).1⟩

theorem resolvable_of_declareConfigure (h : declareConfigure env path elt w = (.ok (), w1)) :
    Resolvable env w.factory.aliases .component (elt.attributeOrEmpty "component") := by
  simp only [declareConfigure, rethrowXpcf_ok_iff, gets_bind_run] at h
  obtain ⟨uuid, v, hparse, _⟩ := bind_ok_iff.mp h
  exact resolvable_of_ok (ofExcept_ok_iff.mp hparse).1

/-- In a factory node that was declared, every interface can be resolved. -/
theorem resolvable_of_declareFactory (h : declareFactory env elt w = (.ok (), w1))
    (hpre : unnamedFrame.pre w) {bindingsElt bindElt : XMLElement}
    (hbindings : bindingsElt ∈ elt.childElements "bindings")
    (hbind : bindElt ∈ bindingsElt.childElements "bind") :
    ∃ text, bindElt.attr "interface" = some text ∧
      Resolvable env w.factory.aliases .interface text := by
  have hbinds : ∀ child, Keeps unnamedFrame (declareBind env child) :=
    keeps_declareBind unnamed_modifyContext env
  obtain ⟨_, v, hnodes, _⟩ := bind_ok_iff.mp (rethrowXpcf_ok_iff.mp h)
  obtain ⟨v1, v2, hrel1, hnode, _⟩ := Keeps.forEach_ok
    (fun child _ => keeps_rethrowXpcf (keeps_processXmlNode hbinds)) hpre hnodes hbindings
  obtain ⟨v3, v4, hrel3, hdeclared, _⟩ := Keeps.forEach_ok (fun child _ => hbinds child)
    (unnamedFrame.stable hpre hrel1) (rethrowXpcf_ok_iff.mp hnode) hbind
  have hsame : v3.factory.aliases = w.factory.aliases := hrel3.2.trans hrel1.2
  rw [← hsame]
  exact resolvable_of_declareBind hdeclared

theorem resolvable_of_declareProperties (h : declareProperties env path elt w = (.ok (), w1))
    (hpre : unnamedFrame.pre w) {configureElt : XMLElement}
    (hconfigure : configureElt ∈ elt.childElements "configure") :
    Resolvable env w.factory.aliases .component (configureElt.attributeOrEmpty "component") := by
  have hkeeps : ∀ child, Keeps unnamedFrame (declareConfigure env path child) := by
    refine fun child => keeps_rethrowXpcf (Keeps.bind (Keeps.gets _) fun aliases => ?_)
    exact Keeps.bind (Keeps.ofExcept _) fun uuid => unnamed_addConfigPath env uuid path
  obtain ⟨v1, v2, hrel, hdeclared, _⟩ := Keeps.forEach_ok (fun child _ => hkeeps child) hpre
    (rethrowXpcf_ok_iff.mp h) hconfigure
  rw [← hrel.2]
  exact resolvable_of_declareConfigure hdeclared

end Names

/-- The names that the nodes of a file use can be resolved: those of the interfaces
of its bind nodes and those of the components of its configure nodes. -/
structure NamesUsed (env : Env) (aliases : AliasContext) (rootElt : XMLElement) : Prop where
  binds : ∀ factoryElt ∈ rootElt.childElements "factory",
    ∀ bindingsElt ∈ factoryElt.childElements "bindings",
    ∀ bindElt ∈ bindingsElt.childElements "bind", ∃ text, bindElt.attr "interface" = some text ∧
      Resolvable env aliases .interface text
  configures : ∀ propertiesElt ∈ rootElt.childElements "properties",
    ∀ configureElt ∈ propertiesElt.childElements "configure",
      Resolvable env aliases .component (configureElt.attributeOrEmpty "component")

/-- A file that gives no names only loads with names that are there before. -/
theorem namesUsed_of_success {env : Env} {path : String} {rootElt : XMLElement} {w : World}
    (hnames : Unnamed rootElt)
    (h : (loadLibrary env path (.document rootElt) w).1 = .ok .success) :
    NamesUsed env w.factory.aliases rootElt := by
  obtain ⟨w1, w2, hpre1, hsame1, hfactory, w3, w4, hpre3, hsame3, hproperties⟩ :=
    sections_of_success hnames h
  refine ⟨fun factoryElt hmem bindingsElt hbindings bindElt hbind => ?_,
    fun propertiesElt hmem configureElt hconfigure => ?_⟩
  · obtain ⟨v1, v2, hrel, hdeclared, _⟩ := Keeps.forEach_ok
      (fun child _ => keeps_declareFactory unnamed_modifyContext env child) hpre1 hfactory hmem
    rw [← hsame1, ← hrel.2]
    exact resolvable_of_declareFactory hdeclared (unnamedFrame.stable hpre1 hrel) hbindings hbind
  · obtain ⟨v1, v2, hrel, hdeclared, _⟩ := Keeps.forEach_ok
      (fun child _ => keeps_declareProperties unnamed_addConfigPath env path child) hpre3
      hproperties hmem
    rw [← hsame3, ← hrel.2]
    exact resolvable_of_declareProperties hdeclared (unnamedFrame.stable hpre3 hrel) hconfigure

namespace GrpcGen

/-! ## The input of the generator -/

/-- A character that stands for itself between the quotes of an attribute. -/
def isPlainChar (c : Char) : Bool := 32 ≤ c.toNat && c != '<' && c != '&' && c != '\x22'

def XmlSafe (text : String) : Prop := text.toList.all isPlainChar = true

/-- The texts that end up in the files: names and descriptions without markup, and
UUIDs. -/
structure ValidInput (env : Env) (metadata : Metadata) (interfaces : List ClassDescriptor) :
    Prop where
  nonempty : interfaces ≠ []
  moduleUUID : (env.toUUID metadata.moduleUUID).isSome = true
  moduleName : XmlSafe metadata.moduleName
  moduleDescription : XmlSafe metadata.moduleDescription
  name : ∀ c ∈ interfaces, XmlSafe c.name
  traitUUID : ∀ c ∈ interfaces, (env.toUUID c.xpcfTrait.uuid).isSome = true
  traitName : ∀ c ∈ interfaces, XmlSafe c.xpcfTrait.name
  traitDescription : ∀ c ∈ interfaces, XmlSafe c.xpcfTrait.description

/-- A character of the forms that the string generator of `boost::uuids` takes. -/
def isUuidChar (c : Char) : Bool :=
  c.isDigit || "abcdefABCDEF-\x7b\x7d".toList.contains c

/-- The string generator refuses every other character; `toUUID` gives it the
characters up to the first null. -/
def ReadsUuids (env : Env) : Prop :=
  ∀ text, (∀ c ∈ text.toList, c.toNat ≠ 0) → text.toList.all isUuidChar = false →
    env.toUUID text = none

/-- A factory without names, such as one that was just made or cleared. -/
def NoNames (w : World) : Prop :=
  ∀ type name, w.factory.aliases.aliasExists type name = false

theorem XmlSafe.ne_null {text : String} (h : XmlSafe text) : ∀ c ∈ text.toList, c.toNat ≠ 0 := by
  intro c hc
  have hplain := List.all_eq_true.mp h c hc
  simp only [isPlainChar, Bool.and_eq_true, decide_eq_true_eq] at hplain
  omega

theorem XmlSafe.append {text text1 : String} (h : XmlSafe text) (h1 : XmlSafe text1) :
    XmlSafe (text ++ text1) := by
  unfold XmlSafe at h h1 ⊢
  rw [String.toList_append, List.all_append, h, h1]
  rfl

theorem not_resolvable {env : Env} {aliases : AliasContext} {type : AliasType} {text : String}
    (henv : ReadsUuids env) (hfree : aliases.aliasExists type text = false) (hsafe : XmlSafe text)
    (hchar : text.toList.all isUuidChar = false) : ¬ Resolvable env aliases type text := by
  rintro (halias | hparse)
  · rw [hfree] at halias
    cases halias
  · rw [henv text hsafe.ne_null hchar] at hparse
    cases hparse

/-- The name of a generated component is no UUID. -/
theorem not_resolvable_component {env : Env} {w : World} {name suffix : String}
    (henv : ReadsUuids env) (hempty : NoNames w) (hname : XmlSafe name)
    (hsuffix : XmlSafe suffix) (hchar : suffix.toList.all isUuidChar = false) :
    ¬ Resolvable env w.factory.aliases .component (name ++ suffix) := by
  refine not_resolvable henv (hempty _ _) (hname.append hsuffix) ?_
  rw [String.toList_append, List.all_append, hchar, Bool.and_false]

/-! ## Loading the four files -/

/-- What `loadLibrary` finds in a file that was written. -/
def XmlBlockManager.file (m : XmlBlockManager) : LibraryFile :=
  match readDocument m.lines with
  | some rootElt => .document rootElt
  | none => .unparsable

/-- The registry file loads. -/
def RegistryLoads (env : Env) (path : String) (registry : XmlBlockManager) (w : World) : Prop :=
  (loadLibrary env path registry.file w).1 = .ok .success

/-- The properties file loads after the registry file. -/
def PropertiesLoad (env : Env) (path path1 : String) (registry properties : XmlBlockManager)
    (w : World) : Prop :=
  (loadLibrary env path1 properties.file (loadLibrary env path registry.file w).2).1 =
    .ok .success

/-- The files of the interfaces, read from `path` and `path1`, load in the world. -/
structure FilesLoad (env : Env) (path path1 : String) (g : ConfigGenerator) (w : World) :
    Prop where
  serverRegistry : RegistryLoads env path g.xmlServerMgr w
  clientProperties : PropertiesLoad env path path1 g.xmlClientMgr g.xmlClientPropsMgr w
  serverProperties : PropertiesLoad env path path1 g.xmlServerMgr g.xmlServerPropsMgr w

theorem unnamed_clientRegistry (metadata : Metadata) (interfaces : List ClassDescriptor) :
    Unnamed (clientRegistry metadata interfaces) := ⟨rfl, rfl⟩

theorem unnamed_serverRegistry (metadata : Metadata) (interfaces : List ClassDescriptor) :
    Unnamed (serverRegistry metadata interfaces) := ⟨rfl, rfl⟩

theorem unnamed_propertiesFile (configures : List XMLElement) :
    Unnamed (propertiesFile configures) := ⟨rfl, rfl⟩

section Refused

variable {env : Env} {metadata : Metadata} {interfaces : List ClassDescriptor} {w : World}

/-- The bind node of the server registry names its interface, and no file declares
that name. -/
theorem not_registryLoads (henv : ReadsUuids env) (hempty : NoNames w) (path : String) :
    ¬ RegistryLoads env path (generateConfigs metadata interfaces).xmlServerMgr w := by
  intro h
  unfold RegistryLoads XmlBlockManager.file at h
  rw [readDocument_server] at h
  obtain ⟨text, hattr, hresolvable⟩ :=
    (namesUsed_of_success (unnamed_serverRegistry metadata interfaces) h).binds
      (.mk "factory" [] none [.mk "bindings" [] none [bindTree interfaces]]) List.mem_cons_self
      (.mk "bindings" [] none [bindTree interfaces]) List.mem_cons_self
      (bindTree interfaces) List.mem_cons_self
  have htext : text = "org::bcom::xpcf::IGrpcService" := (Option.some.inj hattr).symm
  subst htext
  have hsafe : XmlSafe "org::bcom::xpcf::IGrpcService" := rfl
  exact not_resolvable henv (hempty _ _) hsafe rfl hresolvable

/-- The configure nodes name components that no name leads to. -/
theorem not_load_propertiesFile (henv : ReadsUuids env) (hempty : NoNames w)
    (hvalid : ValidInput env metadata interfaces) (configure : ClassDescriptor → XMLElement)
    (suffix : String) (hconfigure : ∀ c, (configure c).value = "configure" ∧
      (configure c).attributeOrEmpty "component" = c.name ++ suffix)
    (hsuffix : XmlSafe suffix) (hchar : suffix.toList.all isUuidChar = false) (path : String) :
    (loadLibrary env path (.document (propertiesFile (interfaces.map configure))) w).1 ≠
      .ok .success := by
  intro h
  obtain ⟨c, hc⟩ := List.exists_mem_of_ne_nil interfaces hvalid.nonempty
  have hnode : configure c ∈ (XMLElement.mk "properties" [] none
      (interfaces.map configure)).childElements "configure" := by
    refine List.mem_filter.mpr ⟨List.mem_map_of_mem hc, ?_⟩
    simp [(hconfigure c).1]
  have hresolvable := (namesUsed_of_success (unnamed_propertiesFile _) h).configures
    (.mk "properties" [] none (interfaces.map configure)) List.mem_cons_self (configure c) hnode
  rw [(hconfigure c).2] at hresolvable
  exact not_resolvable_component henv hempty (hvalid.name c hc) hsuffix hchar hresolvable

/-- The registry file gives no names, so the properties file has none to use. -/
theorem not_propertiesLoad (henv : ReadsUuids env) (hempty : NoNames w)
    (hvalid : ValidInput env metadata interfaces) (configure : ClassDescriptor → XMLElement)
    (suffix : String) (hconfigure : ∀ c, (configure c).value = "configure" ∧
      (configure c).attributeOrEmpty "component" = c.name ++ suffix)
    (hsuffix : XmlSafe suffix) (hchar : suffix.toList.all isUuidChar = false)
    {registry properties : XmlBlockManager} {rootElt : XMLElement} (hnames : Unnamed rootElt)
    (hregistry : readDocument registry.lines = some rootElt)
    (hproperties : readDocument properties.lines =
      some (propertiesFile (interfaces.map configure))) (path path1 : String) :
    ¬ PropertiesLoad env path path1 registry properties w := by
  intro h
  unfold PropertiesLoad XmlBlockManager.file at h
  rw [hregistry, hproperties] at h
  refine not_load_propertiesFile henv (fun type name => ?_) hvalid configure suffix hconfigure
    hsuffix hchar path1 h
  rw [aliases_loadLibrary hnames]
  exact hempty type name

/-- No input makes files that load: their roots do not have the `autoAlias` that
their names rely on. -/
theorem generated_files_refused (henv : ReadsUuids env) (hempty : NoNames w)
    (hvalid : ValidInput env metadata interfaces) (path path1 : String) :
    let g := generateConfigs metadata interfaces
    ¬ RegistryLoads env path g.xmlServerMgr w ∧
      ¬ PropertiesLoad env path path1 g.xmlClientMgr g.xmlClientPropsMgr w ∧
      ¬ PropertiesLoad env path path1 g.xmlServerMgr g.xmlServerPropsMgr w := by
  refine ⟨not_registryLoads henv hempty path, ?_, ?_⟩
  · exact not_propertiesLoad henv hempty hvalid proxyConfigure "_grpcProxy"
      (fun c => ⟨rfl, rfl⟩) rfl rfl
      (unnamed_clientRegistry metadata interfaces) (readDocument_client metadata interfaces)
      (readDocument_clientProps metadata interfaces) path path1
  · exact not_propertiesLoad henv hempty hvalid serverConfigure "_grpcServer"
      (fun c => ⟨rfl, rfl⟩) rfl rfl
      (unnamed_serverRegistry metadata interfaces) (readDocument_server metadata interfaces)
      (readDocument_serverProps metadata interfaces) path path1

end Refused

/-! ## One interface -/

def pingMetadata : Metadata := ⟨"demo", uuidText1, "demo", "a module", "", ""⟩

def pingInterface : ClassDescriptor :=
  { smallDescriptor [] [voidMethod "ping" []] with
    clientUUID := 2
    serverUUID := 3
    xpcfTrait := ⟨uuidText4, "ns::I", "pings"⟩ }

/-- A digit to base sixteen is one of these characters. -/
theorem mem_of_digitValue {c : Char} (h : digitValue c < 16) :
    c ∈ "0123456789abcdefABCDEF".toList := by
  have hnat : c.toNat ∈ "0123456789abcdefABCDEF".toList.map Char.toNat := by
    unfold digitValue at h
    simp only [Char.le_def, UInt32.le_iff_toNat_le] at h
    change (if 48 ≤ c.toNat ∧ c.toNat ≤ 57 then c.toNat - 48
      else if 97 ≤ c.toNat ∧ c.toNat ≤ 122 then c.toNat - 97 + 10
      else if 65 ≤ c.toNat ∧ c.toNat ≤ 90 then c.toNat - 65 + 10 else 36) < 16 at h
    simp
    split_ifs at h <;> omega
  obtain ⟨d, hd, heq⟩ := List.mem_map.mp hnat
  rw [← Char.ofNat_toNat c, ← heq, Char.ofNat_toNat]
  exact hd

theorem isUuidChar_of_digit {c : Char} (h : isDigitOf 16 c = true) : isUuidChar c = true :=
  List.all_eq_true.mp (rfl : "0123456789abcdefABCDEF".toList.all isUuidChar = true) c
    (mem_of_digitValue (of_decide_eq_true h))

theorem readsUuids_printing : ReadsUuids (Env.printing []) := by
  intro text _ hother
  refine if_neg fun hdigits => ?_
  have hall : text.toList.all isUuidChar = true := by
    refine List.all_eq_true.mpr fun c hc => ?_
    by_cases hdash : c = '-'
    · subst hdash
      rfl
    · exact isUuidChar_of_digit (List.all_eq_true.mp hdigits.2 c
        (List.mem_filter.mpr ⟨hc, decide_eq_true hdash⟩))
  rw [hall] at hother
  cases hother

theorem validInput_ping : ValidInput (Env.printing []) pingMetadata [pingInterface] := by
  refine ⟨List.cons_ne_nil _ _, rfl, rfl, rfl, ?_, ?_, ?_, ?_⟩
  all_goals
    intro c hc
    rw [List.mem_singleton.mp hc]
    rfl

theorem noNames_initial : NoNames World.initial := by
  intro type name
  cases type with
  | component => rfl
  | interface => rfl
  | module => rfl

theorem generated_files_refused_ping :
    let g := generateConfigs pingMetadata [pingInterface]
    ¬ RegistryLoads (Env.printing []) "s.xml" g.xmlServerMgr World.initial ∧
      ¬ PropertiesLoad (Env.printing []) "s.xml" "p.xml" g.xmlClientMgr g.xmlClientPropsMgr
        World.initial ∧
      ¬ PropertiesLoad (Env.printing []) "s.xml" "p.xml" g.xmlServerMgr g.xmlServerPropsMgr
        World.initial :=
  generated_files_refused readsUuids_printing noNames_initial validInput_ping "s.xml" "p.xml"

/-- What the generator writes for the interface. -/
def pingFiles : ConfigGenerator := generateConfigs pingMetadata [pingInterface]

/-- The root of the server registry has no `autoAlias`, so the interface that its
bind node names is unknown. -/
theorem ping_files_refused :
    ValidInput (Env.printing []) pingMetadata [pingInterface] ∧
      (readDocument pingFiles.xmlServerMgr.lines).map (·.attr "autoAlias") = some none ∧
      (loadLibrary (Env.printing []) "s.xml" pingFiles.xmlServerMgr.file World.initial).1 =
        .throws (.xpcf .configurationException
          ("configuration loading failed: <factory><bindings>" ++
            "<bind interface=\"org::bcom::xpcf::IGrpcService\" " ++
            "error=\"UUID format invalid in \"interface\" :org::bcom::xpcf::IGrpcService\">")
          .fail) ∧
      ¬ FilesLoad (Env.printing []) "s.xml" "p.xml" pingFiles World.initial := by
  refine ⟨validInput_ping, ?_, by decide +kernel, fun hfiles => ?_⟩
  · unfold pingFiles
    rw [readDocument_server]
    rfl
  · exact not_registryLoads readsUuids_printing noNames_initial "s.xml" hfiles.serverRegistry

end GrpcGen

end Xpcf
