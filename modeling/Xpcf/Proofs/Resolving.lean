import Xpcf.Proofs.Evolution

/-!
# One induction for the mutual recursion

`resolve`, `resolveAll`, `inject` and `resolveComponent` call one another, so
every invariant of a resolution needs the same induction on the fuel.  It is
done once here.  `Governs` lists what a frame must satisfy: calls into user code
stay in it, storing a component under a free key stays in it, and the bindings
it allows are closed under injection.  `resolveComponent_sound` concludes that
every resolution of an allowed binding stays in the frame, and that a component
it returns was completely built (`Built`).
-/

namespace Xpcf

open CodeLib CodeLib.Exec

/-! ## Calls into user code -/

theorem keeps_modifyProcess {g : Process → Process} (h : ∀ p : Process, p.Evolves (g p)) :
    Keeps processFrame (modifyProcess g) :=
  Keeps.modify fun w _ => ⟨rfl, h w.process⟩

theorem keeps_logEvent (e : Event) : Keeps processFrame (logEvent e) :=
  keeps_modifyProcess fun p => ⟨rfl, rfl, rfl, List.prefix_append p.log [e]⟩

theorem Process.evolves_setSlot (p : Process) (component : Instance) (injectable : Injector)
    (refs : List Instance) : p.Evolves (p.setSlot component injectable refs) :=
  ⟨rfl, rfl, rfl, List.prefix_refl _⟩

theorem keeps_recordCreated (componentUUID : Uuid) (result : Except Exc Instance) :
    Keeps processFrame (recordCreated componentUUID result) :=
  Keeps.bind (keeps_modifyProcess fun p => ⟨rfl, rfl, rfl, List.prefix_append p.log _⟩)
    fun _ => Keeps.ofExcept result

theorem keeps_createModuleComponent (env : Env) (r : ModuleRef) (componentUUID : Uuid) :
    Keeps processFrame (createModuleComponent env r componentUUID) := by
  refine Keeps.bind (Keeps.gets _) fun p => ?_
  split
  · exact keeps_recordCreated _ _
  · refine Keeps.bind (keeps_modifyProcess fun p => ?_) fun _ => keeps_recordCreated _ _
    exact ⟨rfl, rfl, rfl, List.prefix_refl _⟩

theorem keeps_resolveFromModule (env : Env) (componentUUID : Uuid) :
    Keeps processFrame (resolveFromModule env componentUUID) := by
  refine Keeps.bind (Keeps.gets _) fun registry => ?_
  refine Keeps.bind (Keeps.ofExcept _) fun moduleInfos => ?_
  exact keeps_createModuleComponent env moduleInfos componentUUID

theorem keeps_createCore (componentUUID : Uuid) :
    Keeps processFrame (createCore componentUUID) := by
  refine Keeps.bind (Keeps.gets _) fun w => ?_
  split
  · exact Keeps.throw _
  · exact keeps_recordCreated _ _

theorem keeps_createInstance (env : Env) (bindInfos : FactoryBindInfos) :
    Keeps processFrame (createInstance env bindInfos) := by
  refine Keeps.bind (Keeps.gets _) fun ctx => ?_
  split
  · exact keeps_createCore _
  · split
    · exact Keeps.bind (Keeps.gets _) fun tick => keeps_recordCreated _ _
    · exact keeps_resolveFromModule env _

theorem keeps_injectSingle (env : Env) (component : Instance) (injectable : Injector)
    (ref : Instance) : Keeps processFrame (injectSingle env component injectable ref) := by
  refine Keeps.bind (Keeps.ofExcept _) fun _ => ?_
  exact Keeps.bind (keeps_modifyProcess fun p => p.evolves_setSlot _ _ _) fun _ => keeps_logEvent _

theorem keeps_addToSlots (env : Env) (component : Instance) (injectable : Injector)
    (refs : List Instance) :
    Keeps processFrame (forEach (addToSlot env component injectable) refs) := by
  refine Keeps.forEach fun ref _ => Keeps.bind (Keeps.ofExcept _) fun _ => ?_
  exact keeps_modifyProcess fun p => p.evolves_setSlot _ _ _

theorem keeps_injectMulti (env : Env) (component : Instance) (injectable : Injector)
    (refs : List Instance) : Keeps processFrame (injectMulti env component injectable refs) := by
  refine Keeps.bind (Keeps.gets _) fun held => Keeps.bind ?_ fun _ => keeps_logEvent _
  split
  · exact Keeps.pure ()
  · exact keeps_addToSlots env component injectable refs

theorem keeps_callOnInjected (env : Env) (component : Instance) :
    Keeps processFrame (callOnInjected env component) := by
  refine Keeps.bind (Keeps.gets _) fun tick => ?_
  exact Keeps.bind (keeps_logEvent _) fun _ => Keeps.ofExcept _

theorem keeps_callConfigure (env : Env) (component : Instance) (path : String)
    (properties : Option String) :
    Keeps processFrame (callConfigure env component path properties) := by
  refine Keeps.bind (Keeps.gets _) fun tick => ?_
  exact Keeps.bind (keeps_logEvent _) fun _ => Keeps.ofExcept _

theorem keeps_configureResolved (env : Env) (component : Instance) (bindInfos : FactoryBindInfos) :
    Keeps processFrame (configureResolved env component bindInfos) := by
  refine Keeps.bind (Keeps.gets _) fun path => ?_
  split
  · refine Keeps.bind (keeps_callConfigure env _ _ _) fun code => ?_
    unfold checkConfigured
    split
    · exact Keeps.throw _
    · exact Keeps.pure ()
  · exact Keeps.pure ()

theorem keeps_configureCreated (env : Env) (instanceName : Option String) (componentUUID : Uuid)
    (component : Instance) :
    Keeps processFrame (configureCreated env instanceName componentUUID component) := by
  refine Keeps.bind (Keeps.gets _) fun path => ?_
  split
  · exact Keeps.bind (keeps_callConfigure env _ _ _) fun code => Keeps.pure _
  · exact Keeps.pure ()

/-! ## What creating returns -/

/-- The objects that may come out of creating a component UUID. -/
inductive Creates (env : Env) (f : Factory) (componentUUID : Uuid) : Instance → Prop where
  | module (file : String) (tick : Nat) (ref : Instance)
      (h : callEntryPoint env file componentUUID tick = .ok ref) : Creates env f componentUUID ref
  | method (factoryFunc : FactoryFunc) (tick id : Nat)
      (hmethod : f.context.factoryMethods componentUUID = some factoryFunc)
      (h : env.factoryFunc factoryFunc tick = .ok id) : Creates env f componentUUID (.user id)
  | core (c : CoreComponent) (ref : Instance) (hcore : f.coreFactoryMethods componentUUID = some c)
      (h : ref = .core c ∨ ∃ id, ref = .framework c id) : Creates env f componentUUID ref

theorem recordCreated_ok {componentUUID : Uuid} {result : Except Exc Instance} {w w1 : World}
    {ref : Instance} (h : recordCreated componentUUID result w = (.ok ref, w1)) :
    result = .ok ref ∧ w1.process.log = w.process.log ++ [.created componentUUID (.ok ref)] := by
  obtain ⟨_, w2, hlog, hresult⟩ := bind_ok_iff.mp h
  obtain ⟨rfl, rfl⟩ := ofExcept_ok_iff.mp hresult
  cases hlog
  exact ⟨rfl, rfl⟩

/-- A module that creates a component lets its entry point do it. -/
theorem createModuleComponent_ok {env : Env} {r : ModuleRef} {componentUUID : Uuid} {w w1 : World}
    {ref : Instance} (h : createModuleComponent env r componentUUID w = (.ok ref, w1)) :
    (∃ file tick, callEntryPoint env file componentUUID tick = .ok ref) ∧
      w1.process.log = w.process.log ++ [.created componentUUID (.ok ref)] := by
  unfold createModuleComponent at h
  rw [gets_bind_run] at h
  cases hentry : entryPoint env w.process (w.process.module r) with
  | error e =>
    rw [hentry] at h
    obtain ⟨hcontra, _⟩ := recordCreated_ok h
    cases hcontra
  | ok file =>
    rw [hentry] at h
    obtain ⟨hresult, hlog⟩ := recordCreated_ok h
    exact ⟨⟨file, _, hresult⟩, hlog⟩

theorem resolveFromModule_ok {env : Env} {componentUUID : Uuid} {w w1 : World} {ref : Instance}
    (h : resolveFromModule env componentUUID w = (.ok ref, w1)) :
    (∃ file tick, callEntryPoint env file componentUUID tick = .ok ref) ∧
      w1.process.log = w.process.log ++ [.created componentUUID (.ok ref)] := by
  unfold resolveFromModule at h
  rw [gets_bind_run] at h
  obtain ⟨moduleInfos, w2, hfind, hcreate⟩ := bind_ok_iff.mp h
  obtain ⟨_, rfl⟩ := ofExcept_ok_iff.mp hfind
  exact createModuleComponent_ok hcreate

theorem createCore_ok {componentUUID : Uuid} {w w1 : World} {ref : Instance}
    (h : createCore componentUUID w = (.ok ref, w1)) :
    (∃ c, w.factory.coreFactoryMethods componentUUID = some c ∧
      (ref = .core c ∨ ∃ id, ref = .framework c id)) ∧
      w1.process.log = w.process.log ++ [.created componentUUID (.ok ref)] := by
  unfold createCore at h
  rw [gets_bind_run, id] at h
  cases hc : w.factory.coreFactoryMethods componentUUID with
  | none =>
    rw [hc] at h
    cases h
  | some c =>
    rw [hc] at h
    obtain ⟨hresult, hlog⟩ := recordCreated_ok h
    refine ⟨⟨c, rfl, ?_⟩, hlog⟩
    rw [Except.ok.injEq] at hresult
    split at hresult
    · exact Or.inr ⟨_, hresult.symm⟩
    · exact Or.inl hresult.symm

/-- What `createInstance` returns, and the event it leaves. -/
theorem createInstance_ok {env : Env} {bindInfos : FactoryBindInfos} {w w1 : World}
    {ref : Instance} (h : createInstance env bindInfos w = (.ok ref, w1)) :
    Creates env w.factory bindInfos.componentUUID ref ∧
      (bindInfos.bindingRangeMask = bindingRangeCore →
        ∃ c, w.factory.coreFactoryMethods bindInfos.componentUUID = some c) ∧
      w1.process.log = w.process.log ++ [.created bindInfos.componentUUID (.ok ref)] := by
  unfold createInstance at h
  rw [gets_bind_run] at h
  by_cases hmask : bindInfos.bindingRangeMask = bindingRangeCore
  · rw [if_pos hmask] at h
    obtain ⟨⟨c, hc, href⟩, hlog⟩ := createCore_ok h
    exact ⟨.core c ref hc href, fun _ => ⟨c, hc⟩, hlog⟩
  · rw [if_neg hmask] at h
    cases hmethod : w.factory.context.factoryMethods bindInfos.componentUUID with
    | some factoryFunc =>
      simp only [hmethod] at h
      unfold createFromMethod at h
      rw [gets_bind_run] at h
      obtain ⟨hresult, hlog⟩ := recordCreated_ok h
      cases hf : env.factoryFunc factoryFunc w.process.tick with
      | error e =>
        rw [hf] at hresult
        cases hresult
      | ok id =>
        rw [hf] at hresult
        cases hresult
        exact ⟨.method factoryFunc _ id hmethod hf, fun hcore => absurd hcore hmask, hlog⟩
    | none =>
      rw [hmethod] at h
      obtain ⟨⟨file, tick, hcall⟩, hlog⟩ := resolveFromModule_ok h
      exact ⟨.module file tick ref hcall, fun hcore => absurd hcore hmask, hlog⟩

/-! ## Frames that resolution respects -/

/-- Between the two worlds the component was created for the binding, all its
mandatory injectables were injected, `onInjected` returned and, when it is
configurable and has a configuration file, `configure` succeeded. -/
structure Built (env : Env) (w : World) (bindInfos : FactoryBindInfos) (ref : Instance)
    (w1 : World) : Prop where
  creates : Creates env w.factory bindInfos.componentUUID ref
  core : bindInfos.bindingRangeMask = bindingRangeCore →
    ∃ c, w.factory.coreFactoryMethods bindInfos.componentUUID = some c
  created : Event.created bindInfos.componentUUID (.ok ref) ∈ w.newEvents w1
  injected : ∃ tick, ∀ injectable ∈ env.injectablesOf ref tick, injectable.optional = false →
    ∃ refs, Event.injected ref injectable refs ∈ w.newEvents w1
  onInjected : Event.onInjected ref (.ok ()) ∈ w.newEvents w1
  configured : env.implements ref uuidIConfigurable = true →
    w.factory.configPath bindInfos.componentUUID ≠ "" →
    Event.configured ref (w.factory.configPath bindInfos.componentUUID)
      bindInfos.configureProperties (.ok .success) ∈ w.newEvents w1

/-- The cache keys a singleton binding may be stored under. -/
inductive KeyOf (bindInfos : FactoryBindInfos) : SingletonKey → Prop where
  | component : KeyOf bindInfos (.component bindInfos.componentUUID)
  | named (name : String) : KeyOf bindInfos (.named bindInfos.componentUUID name)
  | core (h : bindInfos.bindingRangeMask = bindingRangeCore) :
      KeyOf bindInfos (.core bindInfos.componentUUID)

theorem keyOf_unnamedKey (bindInfos : FactoryBindInfos) :
    KeyOf bindInfos (unnamedKey bindInfos) := by
  unfold unnamedKey
  split
  · exact .component
  · rename_i h
    exact .core (not_not.mp h)

theorem KeyOf.componentUUID_eq {b : FactoryBindInfos} {key : SingletonKey} (h : KeyOf b key) :
    key.componentUUID = b.componentUUID := by
  cases h <;> rfl

def World.store (w : World) (key : SingletonKey) (ref : Instance) : World :=
  { w with factory := w.factory.store key ref }

/-- `F` is a frame for the resolutions of the bindings in `allowed`, on the
tables of `f0`. -/
structure Governs (env : Env) (f0 : Factory) (F : Frame World)
    (allowed : FactoryBindInfos → Prop) : Prop where
  tables : ∀ w, F.pre w → w.factory.withoutCaches = f0.withoutCaches
  weaker : ∀ w w1, F.rel w w1 → resolutionFrame.rel w w1
  process : ∀ w w1, F.pre w → processFrame.rel w w1 → F.rel w w1
  store : ∀ w w1 bindInfos key ref, F.pre w → F.rel w w1 → allowed bindInfos →
    KeyOf bindInfos key → w.factory.cached key = none → Built env w bindInfos ref w1 →
    F.rel w (w1.store key ref)
  closed : ∀ bindInfos ref, allowed bindInfos → Creates env f0 bindInfos.componentUUID ref →
    ∀ tick, ∀ injectable ∈ env.injectablesOf ref tick, ∀ bindInfos1,
      Candidate f0 injectable.uuid bindInfos1 → allowed bindInfos1

/-- What the recursion assumes of `resolveComponent`, and proves of it. -/
def Sound (env : Env) (F : Frame World) (allowed : FactoryBindInfos → Prop)
    (rc : FactoryBindInfos → ContextLevels → XpcfM Instance) : Prop :=
  ∀ bindInfos contextLevels, allowed bindInfos → ∀ w, F.pre w →
    F.rel w (rc bindInfos contextLevels w).2 ∧
      ∀ ref w1, rc bindInfos contextLevels w = (.ok ref, w1) → Built env w bindInfos ref w1

/-- Two factories with the same tables have the same candidates. -/
theorem Candidate.congr {f f1 : Factory} (h : f.withoutCaches = f1.withoutCaches)
    {interfaceUUID : Uuid} {bindInfos : FactoryBindInfos}
    (hc : Candidate f interfaceUUID bindInfos) : Candidate f1 interfaceUUID bindInfos := by
  have hctx := Factory.context_eq_of_withoutCaches h
  have hcore := Factory.coreBindings_eq_of_withoutCaches h
  cases hc with
  | core hb => exact .core (hcore ▸ hb)
  | auto hb => exact .auto (hctx ▸ hb)
  | default hb => exact .default (hctx ▸ hb)
  | named name hb => exact .named name (hctx ▸ hb)
  | specific target hb => exact .specific target (hctx ▸ hb)
  | specificNamed target name hb => exact .specificNamed target name (hctx ▸ hb)
  | multi binds hb hmem => exact .multi binds (hctx ▸ hb) hmem

theorem Creates.congr {env : Env} {f f1 : Factory} (h : f.withoutCaches = f1.withoutCaches)
    {componentUUID : Uuid} {ref : Instance} (hc : Creates env f componentUUID ref) :
    Creates env f1 componentUUID ref := by
  have hctx := Factory.context_eq_of_withoutCaches h
  have hcore := Factory.coreFactoryMethods_eq_of_withoutCaches h
  cases hc with
  | module file tick _ hcall => exact .module file tick ref hcall
  | method factoryFunc tick id hmethod hfunc =>
    exact .method factoryFunc tick id (hctx ▸ hmethod) hfunc
  | core c _ hc href => exact .core c ref (hcore ▸ hc) href

/-! ## The functions of the recursion -/

section Recursion

variable {env : Env} {f0 : Factory} {F : Frame World} {allowed : FactoryBindInfos → Prop}
  {rc : FactoryBindInfos → ContextLevels → XpcfM Instance}

theorem Governs.keeps {α : Type} {m : XpcfM α} (hF : Governs env f0 F allowed)
    (hm : Keeps processFrame m) : Keeps F m :=
  fun w hw => hF.process w _ hw (hm w trivial)

theorem Sound.keeps (hrc : Sound env F allowed rc) {bindInfos : FactoryBindInfos}
    (hb : allowed bindInfos) (contextLevels : ContextLevels) :
    Keeps F (rc bindInfos contextLevels) :=
  fun w hw => (hrc bindInfos contextLevels hb w hw).1

/-- A cached instance comes from the cache as it stands afterwards. -/
theorem cachedInstance_ok {key : SingletonKey} {create : XpcfM Instance} {w w1 : World}
    {ref : Instance} (h : cachedInstance key create w = (.ok ref, w1)) :
    w1.factory.cached key = some ref ∧
      (w.factory.cached key = some ref ∧ w1 = w ∨
        w.factory.cached key = none ∧ ∃ w2, create w = (.ok ref, w2) ∧ w1 = w2.store key ref) := by
  unfold cachedInstance at h
  rw [gets_bind_run] at h
  cases hfound : w.factory.cached key with
  | some found =>
    rw [hfound] at h
    cases h
    exact ⟨hfound, Or.inl ⟨rfl, rfl⟩⟩
  | none =>
    simp only [hfound] at h
    obtain ⟨made, w2, hcreate, hstore⟩ := bind_ok_iff.mp h
    unfold modifyFactory at hstore
    rw [modify_bind_run, gets_bind_run] at hstore
    simp only [Factory.cached_store_self] at hstore
    cases hstore
    exact ⟨Factory.cached_store_self _ _ _, Or.inr ⟨rfl, w2, hcreate, rfl⟩⟩

theorem keeps_cachedInstance (hF : Governs env f0 F allowed) (hrc : Sound env F allowed rc)
    {bindInfos : FactoryBindInfos} (hb : allowed bindInfos) {key : SingletonKey}
    (hkey : KeyOf bindInfos key) (contextLevels : ContextLevels) :
    Keeps F (cachedInstance key (rc bindInfos contextLevels)) := by
  intro w hw
  unfold cachedInstance
  rw [gets_bind_run]
  cases hfound : w.factory.cached key with
  | some found => exact F.refl w
  | none =>
    obtain ⟨hrel, hbuilt⟩ := hrc bindInfos contextLevels hb w hw
    dsimp only
    rw [bind_run]
    rcases hr : rc bindInfos contextLevels w with ⟨ref | e | _ | _, w1⟩
    · rw [hr] at hrel
      have hstore : F.rel w (w1.store key ref) :=
        hF.store w w1 bindInfos key ref hw hrel hb hkey hfound (hbuilt ref w1 hr)
      unfold modifyFactory
      simp only [modify_bind_run, gets_bind_run, Factory.cached_store_self]
      exact hstore
    · rw [hr] at hrel
      exact hrel
    · rw [hr] at hrel
      exact hrel
    · rw [hr] at hrel
      exact hrel

theorem keeps_resolveWith (hF : Governs env f0 F allowed) (hrc : Sound env F allowed rc)
    {interfaceUUID : Uuid} (hI : ∀ b, Candidate f0 interfaceUUID b → allowed b)
    (contextLevels : ContextLevels) : Keeps F (resolveWith rc interfaceUUID contextLevels) := by
  refine Keeps.gets_bind fun w hw => ?_
  cases hsel : resolveBind w.factory.context w.factory.coreBindings interfaceUUID contextLevels with
  | error e => exact F.refl w
  | ok bindInfos =>
    have hb : allowed bindInfos :=
      hI bindInfos ((resolveBind_candidate hsel).congr (hF.tables w hw))
    rw [ofExcept_ok_bind_run]
    split
    · exact keeps_cachedInstance hF hrc hb (keyOf_unnamedKey bindInfos) _ w hw
    · exact hrc.keeps hb _ w hw

theorem keeps_resolveNamedWith (hF : Governs env f0 F allowed) (hrc : Sound env F allowed rc)
    {interfaceUUID : Uuid} (hI : ∀ b, Candidate f0 interfaceUUID b → allowed b) (name : String)
    (contextLevels : ContextLevels) :
    Keeps F (resolveNamedWith rc interfaceUUID name contextLevels) := by
  refine Keeps.gets_bind fun w hw => ?_
  cases hsel : resolveNamedBind w.factory.context w.factory.coreBindings interfaceUUID name
      contextLevels with
  | error e => exact F.refl w
  | ok bindInfos =>
    have hb : allowed bindInfos :=
      hI bindInfos ((resolveNamedBind_candidate hsel).congr (hF.tables w hw))
    rw [ofExcept_ok_bind_run]
    split
    · exact keeps_cachedInstance hF hrc hb (.named name) _ w hw
    · exact hrc.keeps hb _ w hw

theorem keeps_resolveInjectableWith (hF : Governs env f0 F allowed)
    (hrc : Sound env F allowed rc) {injectable : Injector}
    (hI : ∀ b, Candidate f0 injectable.uuid b → allowed b) (contextLevels : ContextLevels) :
    Keeps F (resolveInjectableWith rc injectable contextLevels) := by
  unfold resolveInjectableWith
  split
  · exact keeps_resolveNamedWith hF hrc hI _ contextLevels
  · exact keeps_resolveWith hF hrc hI contextLevels

theorem keeps_resolveShared (hF : Governs env f0 F allowed) (hrc : Sound env F allowed rc)
    {bindInfos : FactoryBindInfos} (hb : allowed bindInfos) (contextLevels : ContextLevels) :
    Keeps F (resolveShared rc bindInfos contextLevels) := by
  unfold resolveShared
  split
  · exact Keeps.bind (keeps_cachedInstance hF hrc hb .component _) fun _ => Keeps.pure _
  · exact Keeps.pure []

theorem keeps_resolveBinds (hF : Governs env f0 F allowed) (hrc : Sound env F allowed rc)
    {binds : List FactoryBindInfos} (hbinds : ∀ b ∈ binds, allowed b)
    (contextLevels : ContextLevels) : Keeps F (resolveBinds rc binds contextLevels) := by
  induction binds generalizing contextLevels with
  | nil => exact Keeps.pure []
  | cons bindInfos rest ih =>
    have hb : allowed bindInfos := hbinds bindInfos List.mem_cons_self
    have hrest : ∀ b ∈ rest, allowed b := fun b hm => hbinds b (List.mem_cons_of_mem _ hm)
    refine Keeps.bind (keeps_resolveShared hF hrc hb _) fun shared => ?_
    refine Keeps.bind (hrc.keeps hb _) fun component => ?_
    exact Keeps.bind (ih hrest _) fun others => Keeps.pure _

theorem keeps_resolveAllWith (hF : Governs env f0 F allowed) (hrc : Sound env F allowed rc)
    {interfaceUUID : Uuid} (hI : ∀ b, Candidate f0 interfaceUUID b → allowed b)
    (contextLevels : ContextLevels) : Keeps F (resolveAllWith rc interfaceUUID contextLevels) := by
  refine Keeps.gets_bind fun w hw => ?_
  cases hmulti : w.factory.context.multiBindings interfaceUUID with
  | none =>
    exact Keeps.bind (keeps_resolveWith hF hrc hI contextLevels) (fun _ => Keeps.pure _) w hw
  | some binds =>
    refine keeps_resolveBinds hF hrc (fun b hm => ?_) contextLevels w hw
    exact hI b ((Candidate.multi binds hmulti hm).congr (hF.tables w hw))

/-- One pass of the injection loop: what is resolved, then what is injected. -/
theorem keeps_injectOneWith (hF : Governs env f0 F allowed) (hrc : Sound env F allowed rc)
    {injectable : Injector} (hI : ∀ b, Candidate f0 injectable.uuid b → allowed b)
    (component : Instance) (contextLevels : ContextLevels) :
    Keeps F (injectOneWith env rc component contextLevels injectable) := by
  refine Keeps.tryCatch ?_ fun e => ?_
  · split
    · exact Keeps.bind (keeps_resolveAllWith hF hrc hI contextLevels) fun refs =>
        hF.keeps (keeps_injectMulti env component injectable refs)
    · exact Keeps.bind (keeps_resolveInjectableWith hF hrc hI contextLevels) fun ref =>
        hF.keeps (keeps_injectSingle env component injectable ref)
  · unfold handleInjectionError
    split
    · split
      · exact Keeps.pure ()
      · split
        · exact Keeps.throw _
        · exact Keeps.throw _
    · exact Keeps.throw _

theorem keeps_injectWith (hF : Governs env f0 F allowed) (hrc : Sound env F allowed rc)
    {component : Instance}
    (hI : ∀ tick, ∀ i ∈ env.injectablesOf component tick, ∀ b, Candidate f0 i.uuid b → allowed b)
    (contextLevels : ContextLevels) : Keeps F (injectWith env rc component contextLevels) := by
  refine Keeps.gets_bind fun w hw => ?_
  refine Keeps.bind (Keeps.forEach fun i hi => ?_) (fun _ => hF.keeps (keeps_callOnInjected env _))
    w hw
  exact keeps_injectOneWith hF hrc (hI _ i hi) component contextLevels

theorem keeps_createComponentWith (hF : Governs env f0 F allowed) (hrc : Sound env F allowed rc)
    {componentUUID : Uuid}
    (hI : ∀ ref file tick0, callEntryPoint env file componentUUID tick0 = .ok ref →
      ∀ tick, ∀ i ∈ env.injectablesOf ref tick, ∀ b, Candidate f0 i.uuid b → allowed b)
    (instanceName : Option String) :
    Keeps F (createComponentWith env rc instanceName componentUUID) := by
  refine Keeps.bind_of (hF.keeps (keeps_resolveFromModule env componentUUID)) ?_
  intro w ref w1 hw hcreate
  obtain ⟨⟨file, tick0, hcall⟩, _⟩ := resolveFromModule_ok hcreate
  refine Keeps.bind (Keeps.ofExcept _) fun _ => ?_
  refine Keeps.bind (keeps_injectWith hF hrc (hI ref file tick0 hcall) []) fun _ => ?_
  exact Keeps.bind (hF.keeps (keeps_configureCreated env _ _ _)) fun _ => Keeps.pure ref

/-! ## A component that was returned is built -/

/-- An event that is logged last is new. -/
theorem mem_newEvents_of_logEvent {w w1 w2 : World} {e : Event} (h : resolutionFrame.rel w w1)
    (hlog : logEvent e w1 = (.ok (), w2)) : e ∈ w.newEvents w2 := by
  obtain ⟨before, hbefore⟩ := h.2.log
  cases hlog
  exact World.mem_newEvents_append before (by rw [hbefore])

theorem injectSingle_ok {component ref : Instance} {injectable : Injector} {w w1 w2 : World}
    (h : resolutionFrame.rel w w1)
    (hr : injectSingle env component injectable ref w1 = (.ok (), w2)) :
    Event.injected component injectable [ref] ∈ w.newEvents w2 := by
  obtain ⟨_, w3, hbind, hrest⟩ := bind_ok_iff.mp hr
  obtain ⟨_, rfl⟩ := ofExcept_ok_iff.mp hbind
  obtain ⟨_, w4, hslot, hlog⟩ := bind_ok_iff.mp hrest
  have hkeep : processFrame.rel w3 w4 :=
    (keeps_modifyProcess fun p => p.evolves_setSlot _ _ _).of_run trivial hslot
  exact mem_newEvents_of_logEvent
    (resolutionFrame.trans h (resolutionFrame_of_processFrame hkeep)) hlog

theorem injectMulti_ok {component : Instance} {refs : List Instance} {injectable : Injector}
    {w w1 w2 : World} (h : resolutionFrame.rel w w1)
    (hr : injectMulti env component injectable refs w1 = (.ok (), w2)) :
    Event.injected component injectable refs ∈ w.newEvents w2 := by
  unfold injectMulti at hr
  rw [gets_bind_run] at hr
  obtain ⟨_, w3, hadd, hlog⟩ := bind_ok_iff.mp hr
  have hkeep : processFrame.rel w1 w3 := by
    refine Keeps.of_run (F := processFrame) ?_ trivial hadd
    split
    · exact Keeps.pure ()
    · exact keeps_addToSlots env component injectable refs
  exact mem_newEvents_of_logEvent
    (resolutionFrame.trans h (resolutionFrame_of_processFrame hkeep)) hlog

/-- The handler rethrows for a mandatory injectable. -/
theorem handleInjectionError_mandatory (e : Exc) (w w1 : World) :
    handleInjectionError false e w ≠ (.ok (), w1) := by
  unfold handleInjectionError
  intro h
  split at h
  · simp only [Bool.false_eq_true, if_false] at h
    split at h
    · cases h
    · cases h
  · cases h

/-- A pass of the injection loop that ended without an exception injected its
injectable, unless that is optional. -/
theorem injectOneWith_ok (hF : Governs env f0 F allowed) (hrc : Sound env F allowed rc)
    {injectable : Injector} (hI : ∀ b, Candidate f0 injectable.uuid b → allowed b)
    {component : Instance} {contextLevels : ContextLevels} {w w1 : World} (hw : F.pre w)
    (hmandatory : injectable.optional = false)
    (h : injectOneWith env rc component contextLevels injectable w = (.ok (), w1)) :
    ∃ refs, Event.injected component injectable refs ∈ w.newEvents w1 := by
  unfold injectOneWith at h
  rw [hmandatory] at h
  rw [tryCatch_ok_iff handleInjectionError_mandatory] at h
  split at h
  · obtain ⟨refs, w2, hresolve, hinject⟩ := bind_ok_iff.mp h
    have hrel := (keeps_resolveAllWith hF hrc hI contextLevels).of_run hw hresolve
    exact ⟨refs, injectMulti_ok (hF.weaker _ _ hrel) hinject⟩
  · obtain ⟨ref, w2, hresolve, hinject⟩ := bind_ok_iff.mp h
    have hrel := (keeps_resolveInjectableWith hF hrc hI contextLevels).of_run hw hresolve
    exact ⟨[ref], injectSingle_ok (hF.weaker _ _ hrel) hinject⟩

theorem callOnInjected_ok {component : Instance} {w w1 w2 : World}
    (h : resolutionFrame.rel w w1) (hr : callOnInjected env component w1 = (.ok (), w2)) :
    Event.onInjected component (.ok ()) ∈ w.newEvents w2 := by
  unfold callOnInjected at hr
  rw [gets_bind_run] at hr
  obtain ⟨_, w3, hlog, hresult⟩ := bind_ok_iff.mp hr
  obtain ⟨hok, rfl⟩ := ofExcept_ok_iff.mp hresult
  rw [hok] at hlog
  exact mem_newEvents_of_logEvent h hlog

/-- An injection that returned injected every mandatory injectable and called
`onInjected`. -/
theorem injectWith_ok (hF : Governs env f0 F allowed) (hrc : Sound env F allowed rc)
    {component : Instance}
    (hI : ∀ tick, ∀ i ∈ env.injectablesOf component tick, ∀ b, Candidate f0 i.uuid b → allowed b)
    {contextLevels : ContextLevels} {w w1 : World} (hw : F.pre w)
    (h : injectWith env rc component contextLevels w = (.ok (), w1)) :
    (∃ tick, ∀ injectable ∈ env.injectablesOf component tick, injectable.optional = false →
      ∃ refs, Event.injected component injectable refs ∈ w.newEvents w1) ∧
      Event.onInjected component (.ok ()) ∈ w.newEvents w1 := by
  unfold injectWith at h
  rw [gets_bind_run] at h
  obtain ⟨_, w2, hloop, hcall⟩ := bind_ok_iff.mp h
  have hpass : ∀ i ∈ env.injectablesOf component w.process.tick,
      Keeps F (injectOneWith env rc component contextLevels i) := fun i hi =>
    keeps_injectOneWith hF hrc (hI _ i hi) component contextLevels
  have hrel : resolutionFrame.rel w w2 :=
    hF.weaker _ _ ((Keeps.forEach hpass).of_run hw hloop)
  have hlast : processFrame.rel w2 w1 :=
    (keeps_callOnInjected env component).of_run trivial hcall
  refine ⟨⟨w.process.tick, fun i hi hmandatory => ?_⟩, callOnInjected_ok hrel hcall⟩
  obtain ⟨wa, wb, h1, h2, h3⟩ := Keeps.forEach_ok hpass hw hloop hi
  obtain ⟨refs, hrefs⟩ :=
    injectOneWith_ok hF hrc (hI _ i hi) (F.stable hw h1) hmandatory h2
  have hlate : resolutionFrame.rel wb w1 :=
    resolutionFrame.trans (hF.weaker _ _ h3) (resolutionFrame_of_processFrame hlast)
  exact ⟨refs, World.newEvents_mono (hF.weaker _ _ h1).2.log hlate.2.log hrefs⟩

/-- `configureResolved` returns only after a successful `configure`, where one
is due. -/
theorem configureResolved_ok {component : Instance} {bindInfos : FactoryBindInfos}
    {w w1 : World} (h : configureResolved env component bindInfos w = (.ok (), w1))
    (himpl : env.implements component uuidIConfigurable = true)
    (hpath : w.factory.configPath bindInfos.componentUUID ≠ "") :
    Event.configured component (w.factory.configPath bindInfos.componentUUID)
      bindInfos.configureProperties (.ok .success) ∈ w.newEvents w1 := by
  unfold configureResolved at h
  rw [gets_bind_run, if_pos ⟨himpl, hpath⟩] at h
  obtain ⟨confErrCode, w2, hconf, hcheck⟩ := bind_ok_iff.mp h
  unfold callConfigure at hconf
  rw [gets_bind_run] at hconf
  obtain ⟨_, w3, hlog, hresult⟩ := bind_ok_iff.mp hconf
  obtain ⟨hok, rfl⟩ := ofExcept_ok_iff.mp hresult
  rw [hok] at hlog
  unfold checkConfigured at hcheck
  split at hcheck
  · cases hcheck
  · rename_i hsuccess
    cases hcheck
    rw [not_not.mp hsuccess] at hlog
    exact mem_newEvents_of_logEvent (resolutionFrame.refl w) hlog

/-- The frame of `resolveComponent`, step by step. -/
theorem keeps_resolveComponentWith (hF : Governs env f0 F allowed) (hrc : Sound env F allowed rc)
    {bindInfos : FactoryBindInfos}
    (hI : ∀ ref, Creates env f0 bindInfos.componentUUID ref →
      ∀ tick, ∀ i ∈ env.injectablesOf ref tick, ∀ b, Candidate f0 i.uuid b → allowed b)
    (contextLevels : ContextLevels) :
    Keeps F (resolveComponentWith env rc bindInfos contextLevels) := by
  refine Keeps.bind_of (hF.keeps (keeps_createInstance env bindInfos)) ?_
  intro w ref w1 hw hcreate
  have hcreates := (createInstance_ok hcreate).1.congr (hF.tables w hw)
  refine Keeps.bind (Keeps.ofExcept _) fun _ => ?_
  refine Keeps.bind (keeps_injectWith hF hrc (hI ref hcreates) contextLevels) fun _ => ?_
  exact Keeps.bind (hF.keeps (keeps_configureResolved env ref bindInfos)) fun _ => Keeps.pure ref

theorem sound_resolveComponentWith (hF : Governs env f0 F allowed) (hrc : Sound env F allowed rc) :
    Sound env F allowed (resolveComponentWith env rc) := by
  intro bindInfos contextLevels hb w hw
  have hclosed := fun ref (hc : Creates env w.factory bindInfos.componentUUID ref) =>
    hF.closed bindInfos ref hb (hc.congr (hF.tables w hw))
  constructor
  · have hI := fun ref => hF.closed bindInfos ref hb
    exact keeps_resolveComponentWith hF hrc hI contextLevels w hw
  · intro ref w1 h
    obtain ⟨made, w2, hcreate, hrest2⟩ := bind_ok_iff.mp h
    obtain ⟨_, w3, hbind, hrest3⟩ := bind_ok_iff.mp hrest2
    obtain ⟨_, rfl⟩ := ofExcept_ok_iff.mp hbind
    obtain ⟨_, w4, hinject, hrest4⟩ := bind_ok_iff.mp hrest3
    obtain ⟨_, w5, hconf, hret⟩ := bind_ok_iff.mp hrest4
    cases hret
    obtain ⟨hcreates, hcore, hlog⟩ := createInstance_ok hcreate
    have hw3 : F.rel w w3 :=
      hF.process w w3 hw ((keeps_createInstance env bindInfos).of_run trivial hcreate)
    have hpre3 : F.pre w3 := F.stable hw hw3
    have hw4 : F.rel w3 w4 :=
      (keeps_injectWith hF hrc (hclosed ref hcreates) contextLevels).of_run hpre3 hinject
    have hw5 : processFrame.rel w4 w1 :=
      (keeps_configureResolved env ref bindInfos).of_run trivial hconf
    have h03 := (hF.weaker _ _ hw3).2.log
    have h34 := (hF.weaker _ _ hw4).2.log
    have h45 := hw5.2.log
    obtain ⟨⟨tick, hinjected⟩, honInjected⟩ :=
      injectWith_ok hF hrc (hclosed ref hcreates) hpre3 hinject
    have hfactory := (hF.weaker _ _ (F.trans hw3 hw4)).1
    refine ⟨hcreates, hcore, ?_, ⟨tick, fun i hi hm => ?_⟩, ?_, fun himpl hpath => ?_⟩
    · have hnew : Event.created bindInfos.componentUUID (.ok ref) ∈ w.newEvents w3 :=
        World.mem_newEvents_append [] (by rw [hlog, List.append_nil])
      exact World.newEvents_mono (List.prefix_refl _) (h34.trans h45) hnew
    · obtain ⟨refs, hrefs⟩ := hinjected i hi hm
      exact ⟨refs, World.newEvents_mono h03 h45 hrefs⟩
    · exact World.newEvents_mono h03 h45 honInjected
    · have hsame := Factory.configPath_eq_of_withoutCaches hfactory bindInfos.componentUUID
      rw [← hsame] at hpath ⊢
      exact World.newEvents_mono (h03.trans h34) (List.prefix_refl _)
        (configureResolved_ok hconf himpl hpath)

end Recursion

/-- Every resolution of an allowed binding, with any fuel and in any context. -/
theorem resolveComponent_sound {env : Env} {f0 : Factory} {F : Frame World}
    {allowed : FactoryBindInfos → Prop} (hF : Governs env f0 F allowed) (fuel : Nat) :
    Sound env F allowed (resolveComponent env fuel) := by
  induction fuel with
  | zero =>
    intro bindInfos contextLevels hb w hw
    refine ⟨F.refl w, fun ref w1 h => ?_⟩
    cases h
  | succ n ih => exact sound_resolveComponentWith hF ih

end Xpcf
