import Xpcf.Proofs.Resolving

/-!
# What a declaration changes

Loading a file, introspecting a module and declaring a bind or an alias write
the tables of the factory and the metadata.  They create no component for the
factory: the singleton caches and the core bindings stay as they are.
-/

namespace Xpcf

open CodeLib CodeLib.Exec

/-- The part of a factory that no declaration writes. -/
def Factory.runtime (f : Factory) : Factory :=
  { f with
    context := FactoryContext.empty
    aliases := AliasContext.empty
    registry := RegistryContext.empty
    autoAlias := false
    properties := PropertyContext.empty }

/-- Only what declarations write changes in the factory, and the log grows. -/
def declarationFrame : Frame World where
  pre _ := True
  rel w w1 := w1.factory.runtime = w.factory.runtime ∧ w.process.log <+: w1.process.log
  refl _ := ⟨rfl, List.prefix_refl _⟩
  trans h h1 := ⟨h1.1.trans h.1, h.2.trans h1.2⟩
  stable h _ := h

theorem Factory.cached_eq_of_runtime {f f1 : Factory} (h : f.runtime = f1.runtime)
    (key : SingletonKey) : f.cached key = f1.cached key := by
  have h1 := congrArg (fun f : Factory => f.cached key) h
  cases key <;> exact h1

/-! ## Aliases -/

section Aliases

variable {F : Frame World}
  (hfactory : ∀ {g : Factory → Factory}, (∀ f, (g f).runtime = f.runtime) →
    Keeps F (modifyFactory g))
include hfactory

theorem keeps_addAliasFunction (type : AliasType) (name : String) (uuid : Uuid)
    (forceReplace : Bool) : Keeps F (addAliasFunction type name uuid forceReplace) := by
  refine Keeps.bind (Keeps.gets _) fun ctx => Keeps.bind (Keeps.ofExcept _) fun map => ?_
  exact hfactory fun _ => rfl

theorem keeps_declareAliases (env : Env) (elt : XMLElement) : Keeps F (declareAliases env elt) := by
  refine keeps_rethrowXpcf (keeps_processXmlNode fun child => keeps_rethrowXpcf ?_)
  exact Keeps.bind (Keeps.ofExcept _) fun entry => keeps_addAliasFunction hfactory _ _ _ _

theorem keeps_declareAutoAlias (type : AliasType) (name : String) (uuid : Uuid) :
    Keeps F (declareAutoAlias type name uuid) := by
  refine Keeps.bind (Keeps.gets _) fun f => ?_
  split
  · exact keeps_addAliasFunction hfactory _ _ _ _
  · exact Keeps.pure ()

end Aliases

/-! ## Frames for declarations -/

/-- The frames that hold of every declaration: they admit the writes to the
tables of the factory and to the metadata objects. -/
structure AdmitsDeclarations (F : Frame World) : Prop where
  factory : ∀ {g : Factory → Factory}, (∀ f, (g f).runtime = f.runtime) → Keeps F (modifyFactory g)
  process : ∀ {α : Type} {m : XpcfM α}, Keeps processFrame m → Keeps F m
  newModule : ∀ env name uuid description path,
    Keeps F (Xpcf.newModule (makeModuleMetadata env name uuid description path))
  /-- A new component is added to a module, after work that leaves the metadata
  alone. -/
  newComponent : ∀ m r (before : XpcfM Unit) (after : ComponentRef → XpcfM Unit), Keeps F before →
    Keeps (Frame.ofView World.process) before → (∀ c, Keeps F (after c)) →
    Keeps F (do
      let c ← Xpcf.newComponent m
      before
      modifyProcess fun p => p.addComponent r c
      after c)
  addInterface : ∀ c uuid, Keeps F (modifyProcess fun p => p.addInterface c uuid)
  moduleMap : ∀ moduleUUID r, Keeps F (modifyProcess fun p =>
    { p with moduleMap := p.moduleMap.insert moduleUUID r })

theorem declares_modifyProcess {g : Process → Process} (h : ∀ p, (g p).log = p.log) :
    Keeps declarationFrame (modifyProcess g) := by
  refine Keeps.modify fun w _ => ⟨rfl, ?_⟩
  show w.process.log <+: (g w.process).log
  rw [h]

theorem declarationFrame_admits : AdmitsDeclarations declarationFrame where
  factory h := Keeps.modify fun w _ => ⟨h w.factory, List.prefix_refl _⟩
  process hm := hm.weaken fun _ _ _ => ⟨trivial, fun h => ⟨congrArg Factory.runtime h.1, h.2.log⟩⟩
  newModule _ _ _ _ _ := fun _ _ => ⟨rfl, List.prefix_refl _⟩
  newComponent m r before after hbefore _ hafter := by
    have hnew : Keeps declarationFrame (Xpcf.newComponent m) := fun _ _ => ⟨rfl, List.prefix_refl _⟩
    refine Keeps.bind hnew fun c => Keeps.bind hbefore fun _ => ?_
    exact Keeps.bind (declares_modifyProcess fun p => p.log_addComponent r c) fun _ => hafter c
  addInterface _ _ := declares_modifyProcess fun _ => rfl
  moduleMap _ _ := declares_modifyProcess fun _ => rfl

namespace AdmitsDeclarations

variable {F : Frame World} (hF : AdmitsDeclarations F)
include hF

theorem modifyContext (g : FactoryContext → FactoryContext) : Keeps F (modifyContext g) :=
  hF.factory fun _ => rfl

theorem modifyRegistry (g : RegistryContext → RegistryContext) : Keeps F (modifyRegistry g) :=
  hF.factory fun _ => rfl

/-! ## Introspected modules -/

theorem introspectModule (env : Env) (library : Except Exc ModuleLibrary) :
    Keeps F (introspectModule env library) := by
  refine Keeps.bind (Keeps.ofExcept _) fun lib => Keeps.bind (Keeps.ofExcept _) fun uuid => ?_
  refine Keeps.bind (Keeps.gets _) fun known => ?_
  split
  · exact Keeps.pure _
  · refine Keeps.bind (hF.newModule _ _ _ _ _) fun r => ?_
    refine Keeps.bind (Keeps.forEach fun entry _ => ?_) fun _ => ?_
    · refine Keeps.bind (Keeps.ofExcept _) fun u => ?_
      exact hF.newComponent _ r (pure ()) (fun _ => pure ()) (Keeps.pure ()) (Keeps.pure ())
        fun _ => Keeps.pure ()
    · exact Keeps.bind (hF.moduleMap _ _) fun _ => Keeps.pure r

theorem declareComponentMetadata (env : Env) (r : ModuleRef) (c : ComponentRef) :
    Keeps F (declareComponentMetadata env r c) := by
  refine Keeps.bind (Keeps.gets _) fun p => ?_
  refine Keeps.bind (hF.modifyRegistry _) fun _ => ?_
  refine Keeps.bind (keeps_declareAutoAlias hF.factory _ _ _) fun _ => ?_
  refine Keeps.bind (hF.process (keeps_createModuleComponent env r _)) fun ref => ?_
  refine Keeps.forEach fun info _ => ?_
  refine Keeps.bind (hF.modifyContext _) fun _ => ?_
  refine Keeps.bind (keeps_declareAutoAlias hF.factory _ _ _) fun _ => ?_
  exact Keeps.bind (hF.addInterface _ _) fun _ => hF.modifyRegistry _

theorem loadModuleMetadata (env : Env) (library : Except Exc ModuleLibrary) :
    Keeps F (loadModuleMetadata env library) := by
  refine Keeps.bind (hF.introspectModule env library) fun r => ?_
  refine Keeps.bind (Keeps.bind (Keeps.gets _) fun p => ?_) fun _ => Keeps.pure _
  refine Keeps.bind (hF.modifyRegistry _) fun _ => ?_
  exact Keeps.forEach fun c _ => hF.declareComponentMetadata env r c

theorem loadModuleLibraries (env : Env) (result : XPCFErrorCode)
    (files : List (Except Exc ModuleLibrary)) :
    Keeps F (loadModuleLibraries env result files) := by
  induction files generalizing result with
  | nil => exact Keeps.pure result
  | cons library rest ih => exact Keeps.bind (hF.loadModuleMetadata env library) ih

theorem loadModules (env : Env) (folder : ModuleFolder) :
    Keeps F (loadModules env folder) := by
  cases folder with
  | nullPath => exact Keeps.pure _
  | missing => exact Keeps.pure _
  | notDirectory => exact Keeps.pure _
  | libraries files => exact hF.loadModuleLibraries env _ files

/-! ## XML modules -/

theorem declareInterfaceNode (env : Env) (c : ComponentRef) (elt : XMLElement) :
    Keeps F (declareInterfaceNode env c elt) := by
  refine keeps_rethrowXpcf (Keeps.bind (keeps_uuidOfAttribute env _ _ _) fun uuid => ?_)
  refine Keeps.bind (hF.addInterface _ _) fun _ => ?_
  refine Keeps.bind (Keeps.gets _) fun w => ?_
  refine Keeps.bind (hF.modifyContext _) fun _ => ?_
  split
  · exact Keeps.pure ()
  · refine Keeps.bind (Keeps.ofExcept _) fun description => ?_
    exact Keeps.bind (keeps_declareAutoAlias hF.factory _ _ _) fun _ => hF.modifyRegistry _

theorem declareComponent (env : Env) (moduleInfo : ModuleRef) (elt : XMLElement) :
    Keeps F (declareComponent env moduleInfo elt) := by
  refine Keeps.bind (keeps_rethrowXpcf (keeps_uuidOfAttribute env _ _ _)) fun uuid =>
    keeps_rethrowXpcf ?_
  refine Keeps.bind (Keeps.gets _) fun known => ?_
  split
  · exact Keeps.pure ()
  · refine Keeps.bind (Keeps.gets _) fun p => Keeps.bind (hF.modifyRegistry _) fun _ => ?_
    refine Keeps.bind (Keeps.ofExcept _) fun description => ?_
    refine hF.newComponent _ moduleInfo _ _ (keeps_declareAutoAlias hF.factory _ _ _) ?_ fun c => ?_
    · exact keeps_declareAutoAlias (fun _ => Keeps.modify fun _ _ => rfl) _ _ _
    · exact keeps_processXmlNode fun child => hF.declareInterfaceNode env c child

theorem declareModule (env : Env) (elt : XMLElement) :
    Keeps F (declareModule env elt) := by
  refine Keeps.bind (keeps_rethrowXpcf (keeps_uuidOfAttribute env _ _ _)) fun uuid =>
    keeps_rethrowXpcf ?_
  refine Keeps.bind (hF.newModule _ _ _ _ _) fun r => ?_
  refine Keeps.bind (hF.modifyRegistry _) fun _ => ?_
  exact keeps_processXmlNode fun child => hF.declareComponent env r child

end AdmitsDeclarations

/-! ## Bindings and configuration paths

The factory node writes the context only, the other nodes write configuration
paths only, so any frame that allows these writes holds of them. -/

section Nodes

variable {F : Frame World} (hcontext : ∀ g, Keeps F (modifyContext g))
  (hpath : ∀ env componentUuid path, Keeps F (addConfigPath env componentUuid path))

theorem keeps_readBindInfos (env : Env) (elt : XMLElement) : Keeps F (readBindInfos env elt) :=
  Keeps.bind (Keeps.gets _) fun _ => Keeps.ofExcept _

theorem keeps_readTarget (env : Env) (type : AliasType) (elt : XMLElement)
    (attrName missing malformed : String) :
    Keeps F (readTarget env type elt attrName missing malformed) := by
  refine Keeps.bind (Keeps.gets _) fun aliases => ?_
  split
  · exact Keeps.throw _
  · exact Keeps.ofExcept _

include hcontext in
theorem keeps_declareBind (env : Env) (elt : XMLElement) : Keeps F (declareBind env elt) := by
  refine Keeps.bind (keeps_rethrowXpcf (keeps_readTarget env _ _ _ _ _)) fun uuid => ?_
  refine keeps_rethrowXpcf (Keeps.bind ?_ fun _ => Keeps.bind ?_ fun _ => ?_)
  · split
    · exact Keeps.throw _
    · exact Keeps.pure ()
  · split
    · refine Keeps.bind (keeps_readBindInfos env elt) fun infos => ?_
      split
      · exact hcontext _
      · exact hcontext _
    · exact Keeps.pure ()
  · split
    · refine Keeps.bind (hcontext _) fun _ => keeps_processXmlNode fun child => ?_
      exact Keeps.bind (keeps_readBindInfos env child) fun infos => hcontext _
    · exact Keeps.pure ()

include hcontext in
theorem keeps_declareSpecificBind (env : Env) (target : Uuid) (elt : XMLElement) :
    Keeps F (declareSpecificBind env target elt) := by
  refine keeps_rethrowXpcf (Keeps.bind ?_ fun _ => ?_)
  · split
    · exact Keeps.pure ()
    · exact Keeps.throw _
  · refine Keeps.bind (keeps_readTarget env _ _ _ _ _) fun uuid => ?_
    refine Keeps.bind (keeps_readBindInfos env elt) fun infos => ?_
    split
    · exact hcontext _
    · exact hcontext _

include hcontext in
theorem keeps_declareFactory (env : Env) (elt : XMLElement) :
    Keeps F (declareFactory env elt) := by
  refine keeps_rethrowXpcf (Keeps.bind (keeps_processXmlNode fun bindings => ?_) fun _ =>
    keeps_processXmlNode fun injects => ?_)
  · exact keeps_rethrowXpcf (keeps_processXmlNode fun child => keeps_declareBind hcontext env child)
  · refine keeps_rethrowXpcf (keeps_processXmlNode fun child => ?_)
    refine Keeps.bind (keeps_rethrowXpcf (keeps_readTarget env _ _ _ _ _)) fun target => ?_
    exact keeps_rethrowXpcf (keeps_processXmlNode fun bindElt =>
      keeps_declareSpecificBind hcontext env target bindElt)

include hpath in
theorem keeps_declareConfiguration (env : Env) (path : String) (elt : XMLElement) :
    Keeps F (declareConfiguration env path elt) := by
  refine keeps_rethrowXpcf (keeps_processXmlNode fun child => keeps_rethrowXpcf ?_)
  exact Keeps.bind (keeps_uuidOfAttribute env _ _ _) fun uuid => hpath env uuid path

include hpath in
theorem keeps_declareProperties (env : Env) (path : String) (elt : XMLElement) :
    Keeps F (declareProperties env path elt) := by
  refine keeps_rethrowXpcf (keeps_processXmlNode fun child => keeps_rethrowXpcf ?_)
  refine Keeps.bind (Keeps.gets _) fun aliases => ?_
  exact Keeps.bind (Keeps.ofExcept _) fun uuid => hpath env uuid path

end Nodes

namespace AdmitsDeclarations

variable {F : Frame World} (hF : AdmitsDeclarations F)
include hF

theorem addConfigPath (env : Env) (componentUuid : Uuid) (path : String) :
    Keeps F (addConfigPath env componentUuid path) :=
  hF.factory fun _ => rfl

/-! ## Files -/

end AdmitsDeclarations

section Catching

variable {env : Env} {path : String}

theorem keeps_handleLoadError {F : Frame World} (e : Exc) : Keeps F (handleLoadError e) := by
  unfold handleLoadError
  split
  · exact Keeps.throw _
  · split
    · exact Keeps.pure _
    · exact Keeps.throw _

/-- The catch clauses never answer with success. -/
theorem handleLoadError_ne_success (e : Exc) (w w1 : World) :
    handleLoadError e w ≠ (.ok .success, w1) := by
  intro h
  unfold handleLoadError at h
  split at h
  · cases h
  · split at h
    · cases h
    · cases h

theorem loadLibrary_success_iff {rootElt : XMLElement} {w w1 : World} :
    loadLibrary env path (.document rootElt) w = (.ok .success, w1) ↔
      loadDocument env path rootElt w = (.ok .success, w1) :=
  tryCatch_ok_iff handleLoadError_ne_success

end Catching

namespace AdmitsDeclarations

variable {F : Frame World} (hF : AdmitsDeclarations F)
include hF

theorem loadLibrary (env : Env) (path : String) (file : LibraryFile) :
    Keeps F (loadLibrary env path file) := by
  cases file with
  | missing => exact Keeps.pure _
  | notXml => exact Keeps.pure _
  | unparsable => exact Keeps.throw _
  | document rootElt =>
    refine Keeps.tryCatch (Keeps.bind ?_ fun _ => ?_) keeps_handleLoadError
    · split
      · exact Keeps.pure ()
      · exact Keeps.throw _
    · refine Keeps.bind (hF.factory fun _ => rfl) fun _ => ?_
      refine Keeps.bind (keeps_processXmlNode (hF.declareModule env)) fun _ => ?_
      refine Keeps.bind (keeps_processXmlNode (keeps_declareAliases hF.factory env)) fun _ => ?_
      refine Keeps.bind (keeps_processXmlNode
        (keeps_declareFactory hF.modifyContext env)) fun _ => ?_
      refine Keeps.bind (keeps_processXmlNode
        (keeps_declareConfiguration hF.addConfigPath env path)) fun _ => ?_
      exact Keeps.bind (keeps_processXmlNode
        (keeps_declareProperties hF.addConfigPath env path)) fun _ => Keeps.pure _

theorem loadFolder (env : Env) (files : List (String × LibraryFile)) :
    Keeps F (loadFolder env files) := by
  refine Keeps.bind (Keeps.forEach fun file _ => ?_) fun _ => Keeps.pure _
  exact Keeps.bind (hF.loadLibrary env file.1 file.2) fun _ => Keeps.pure _

end AdmitsDeclarations

end Xpcf
