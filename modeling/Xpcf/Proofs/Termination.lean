import Mathlib.Data.Fintype.EquivFin
import Xpcf.CodeLib.Acyclic
import Xpcf.Proofs.CreateComponent

/-!
# Resolution ends when the needs are acyclic

There is no cycle detection in the code and the context stack grows at every
step, so what bounds a resolution is the graph of what components need
(`Needs`): a component is only created for the injection of one that needs it.

* `extends_resolveComponent`: more fuel changes no result;
* `halts_resolveComponent`: on an acyclic graph one amount of fuel is enough for
  all bindings, all contexts and all processes;
* `resolutions_complete`: every resolution returns or throws.
-/

namespace Xpcf

open CodeLib CodeLib.Exec

/-! ## More fuel -/

section MoreFuel

variable {env : Env} {rc rc1 : FactoryBindInfos → ContextLevels → XpcfM Instance}
  (hrc : ∀ b contextLevels, Extends (rc b contextLevels) (rc1 b contextLevels))
include hrc

theorem extends_cachedInstance (key : SingletonKey) (b : FactoryBindInfos)
    (contextLevels : ContextLevels) :
    Extends (cachedInstance key (rc b contextLevels))
      (cachedInstance key (rc1 b contextLevels)) := by
  refine Extends.bind (Extends.refl _) fun found => ?_
  cases found with
  | some ref => exact Extends.refl _
  | none => exact Extends.bind (hrc b contextLevels) fun ref => Extends.refl _

theorem extends_byScope (key : SingletonKey) (b : FactoryBindInfos)
    (contextLevels : ContextLevels) :
    Extends
      (if b.scope = .singleton then cachedInstance key (rc b contextLevels) else rc b contextLevels)
      (if b.scope = .singleton then cachedInstance key (rc1 b contextLevels)
        else rc1 b contextLevels) := by
  split
  · exact extends_cachedInstance hrc key b contextLevels
  · exact hrc b contextLevels

theorem extends_resolveWith (interfaceUUID : Uuid) (contextLevels : ContextLevels) :
    Extends (resolveWith rc interfaceUUID contextLevels)
      (resolveWith rc1 interfaceUUID contextLevels) := by
  refine Extends.bind (Extends.refl _) fun f => ?_
  exact Extends.bind (Extends.refl _) fun b => extends_byScope hrc _ b _

theorem extends_resolveNamedWith (interfaceUUID : Uuid) (name : String)
    (contextLevels : ContextLevels) :
    Extends (resolveNamedWith rc interfaceUUID name contextLevels)
      (resolveNamedWith rc1 interfaceUUID name contextLevels) := by
  refine Extends.bind (Extends.refl _) fun f => ?_
  exact Extends.bind (Extends.refl _) fun b => extends_byScope hrc _ b _

theorem extends_resolveInjectableWith (injectable : Injector) (contextLevels : ContextLevels) :
    Extends (resolveInjectableWith rc injectable contextLevels)
      (resolveInjectableWith rc1 injectable contextLevels) := by
  unfold resolveInjectableWith
  split
  · exact extends_resolveNamedWith hrc _ _ contextLevels
  · exact extends_resolveWith hrc _ contextLevels

theorem extends_resolveBinds (binds : List FactoryBindInfos) (contextLevels : ContextLevels) :
    Extends (resolveBinds rc binds contextLevels) (resolveBinds rc1 binds contextLevels) := by
  induction binds generalizing contextLevels with
  | nil => exact Extends.refl _
  | cons b rest ih =>
    refine Extends.bind ?_ fun shared => ?_
    · unfold resolveShared
      split
      · exact Extends.bind (extends_cachedInstance hrc _ b _) fun ref => Extends.refl _
      · exact Extends.refl _
    · refine Extends.bind (hrc b _) fun component => ?_
      exact Extends.bind (ih _) fun others => Extends.refl _

theorem extends_resolveAllWith (interfaceUUID : Uuid) (contextLevels : ContextLevels) :
    Extends (resolveAllWith rc interfaceUUID contextLevels)
      (resolveAllWith rc1 interfaceUUID contextLevels) := by
  refine Extends.bind (Extends.refl _) fun f => ?_
  cases f.context.multiBindings interfaceUUID with
  | none => exact Extends.bind (extends_resolveWith hrc _ _) fun ref => Extends.refl _
  | some binds => exact extends_resolveBinds hrc binds contextLevels

theorem extends_injectWith (component : Instance) (contextLevels : ContextLevels) :
    Extends (injectWith env rc component contextLevels)
      (injectWith env rc1 component contextLevels) := by
  refine Extends.bind (Extends.refl _) fun injectables => ?_
  refine Extends.bind (Extends.forEach (fun i => Extends.tryCatch ?_) _) fun _ => Extends.refl _
  split
  · exact Extends.bind (extends_resolveAllWith hrc _ _) fun refs => Extends.refl _
  · exact Extends.bind (extends_resolveInjectableWith hrc i _) fun ref => Extends.refl _

theorem extends_resolveComponentWith (b : FactoryBindInfos) (contextLevels : ContextLevels) :
    Extends (resolveComponentWith env rc b contextLevels)
      (resolveComponentWith env rc1 b contextLevels) := by
  refine Extends.bind (Extends.refl _) fun ref => Extends.bind (Extends.refl _) fun _ => ?_
  exact Extends.bind (extends_injectWith hrc ref contextLevels) fun _ => Extends.refl _

theorem extends_createComponentWith (instanceName : Option String) (componentUUID : Uuid) :
    Extends (createComponentWith env rc instanceName componentUUID)
      (createComponentWith env rc1 instanceName componentUUID) := by
  refine Extends.bind (Extends.refl _) fun ref => Extends.bind (Extends.refl _) fun _ => ?_
  exact Extends.bind (extends_injectWith hrc ref []) fun _ => Extends.refl _

end MoreFuel

/-- More fuel gives a more defined resolution. -/
theorem extends_resolveComponent (env : Env) {n fuel : Nat} (h : n ≤ fuel) (b : FactoryBindInfos)
    (contextLevels : ContextLevels) :
    Extends (resolveComponent env n b contextLevels)
      (resolveComponent env fuel b contextLevels) := by
  induction n generalizing fuel b contextLevels with
  | zero => exact Extends.diverge _
  | succ n ih =>
    obtain ⟨k, rfl⟩ : ∃ k, fuel = k + 1 := ⟨fuel - 1, by omega⟩
    have hnk : n ≤ k := by omega
    exact extends_resolveComponentWith (fun b1 ctx => ih hnk b1 ctx) b contextLevels

/-! ## Calls into user code return -/

/-- The computation ends from every state. -/
abbrev AlwaysHalts {α : Type} (m : XpcfM α) : Prop := Halts (fun _ => True) m

theorem halts_recordCreated (componentUUID : Uuid) (result : Except Exc Instance) :
    AlwaysHalts (recordCreated componentUUID result) :=
  Halts.bind (Halts.modify _) (fun _ _ => trivial) fun _ => Halts.ofExcept _

theorem halts_createModuleComponent (env : Env) (r : ModuleRef) (componentUUID : Uuid) :
    AlwaysHalts (createModuleComponent env r componentUUID) := by
  refine Halts.bind (Halts.gets _) (fun _ _ => trivial) fun p => ?_
  split
  · exact halts_recordCreated _ _
  · exact Halts.bind (Halts.modify _) (fun _ _ => trivial) fun _ => halts_recordCreated _ _

theorem halts_resolveFromModule (env : Env) (componentUUID : Uuid) :
    AlwaysHalts (resolveFromModule env componentUUID) := by
  refine Halts.bind (Halts.gets _) (fun _ _ => trivial) fun registry => ?_
  refine Halts.bind (Halts.ofExcept _) (fun _ _ => trivial) fun moduleInfos => ?_
  exact halts_createModuleComponent env moduleInfos componentUUID

theorem halts_createInstance (env : Env) (b : FactoryBindInfos) :
    AlwaysHalts (createInstance env b) := by
  refine Halts.bind (Halts.gets _) (fun _ _ => trivial) fun ctx => ?_
  split
  · refine Halts.bind (Halts.gets _) (fun _ _ => trivial) fun w => ?_
    split
    · exact Halts.throw _
    · exact halts_recordCreated _ _
  · split
    · exact Halts.bind (Halts.gets _) (fun _ _ => trivial) fun tick => halts_recordCreated _ _
    · exact halts_resolveFromModule env _

theorem halts_injectSingle (env : Env) (component : Instance) (injectable : Injector)
    (ref : Instance) : AlwaysHalts (injectSingle env component injectable ref) := by
  refine Halts.bind (Halts.ofExcept _) (fun _ _ => trivial) fun _ => ?_
  exact Halts.bind (Halts.modify _) (fun _ _ => trivial) fun _ => Halts.modify _

theorem halts_injectMulti (env : Env) (component : Instance) (injectable : Injector)
    (refs : List Instance) : AlwaysHalts (injectMulti env component injectable refs) := by
  refine Halts.bind (Halts.gets _) (fun _ _ => trivial) fun held => ?_
  refine Halts.bind ?_ (fun _ _ => trivial) fun _ => Halts.modify _
  split
  · exact Halts.pure ()
  · refine Halts.forEach (fun ref _ => ?_) fun _ _ _ _ => trivial
    exact Halts.bind (Halts.ofExcept _) (fun _ _ => trivial) fun _ => Halts.modify _

theorem halts_callOnInjected (env : Env) (component : Instance) :
    AlwaysHalts (callOnInjected env component) := by
  refine Halts.bind (Halts.gets _) (fun _ _ => trivial) fun tick => ?_
  exact Halts.bind (Halts.modify _) (fun _ _ => trivial) fun _ => Halts.ofExcept _

theorem halts_callConfigure (env : Env) (component : Instance) (path : String)
    (properties : Option String) : AlwaysHalts (callConfigure env component path properties) := by
  refine Halts.bind (Halts.gets _) (fun _ _ => trivial) fun tick => ?_
  exact Halts.bind (Halts.modify _) (fun _ _ => trivial) fun _ => Halts.ofExcept _

theorem halts_configureResolved (env : Env) (component : Instance) (b : FactoryBindInfos) :
    AlwaysHalts (configureResolved env component b) := by
  refine Halts.bind (Halts.gets _) (fun _ _ => trivial) fun path => ?_
  split
  · refine Halts.bind (halts_callConfigure env _ _ _) (fun _ _ => trivial) fun code => ?_
    unfold checkConfigured
    split
    · exact Halts.throw _
    · exact Halts.pure ()
  · exact Halts.pure ()

theorem halts_configureCreated (env : Env) (instanceName : Option String) (componentUUID : Uuid)
    (component : Instance) :
    AlwaysHalts (configureCreated env instanceName componentUUID component) := by
  refine Halts.bind (Halts.gets _) (fun _ _ => trivial) fun path => ?_
  split
  · exact Halts.bind (halts_callConfigure env _ _ _) (fun _ _ => trivial) fun _ => Halts.pure _
  · exact Halts.pure ()

theorem halts_handleInjectionError (optional : Bool) (e : Exc) :
    AlwaysHalts (handleInjectionError optional e) := by
  unfold handleInjectionError
  split
  · split
    · exact Halts.pure ()
    · split
      · exact Halts.throw _
      · exact Halts.throw _
  · exact Halts.throw _

/-! ## Enough fuel for the components that are needed -/

section Enough

variable {env : Env} {f0 : Factory} {rc : FactoryBindInfos → ContextLevels → XpcfM Instance}
  {allowed : FactoryBindInfos → Prop}
  (hsound : Sound env (cacheFrame f0) (fun _ => True) rc)
  (hrc : ∀ b contextLevels, allowed b → Halts (SameTables f0) (rc b contextLevels))
include hsound hrc

theorem halts_cachedInstance (key : SingletonKey) {b : FactoryBindInfos} (hb : allowed b)
    (contextLevels : ContextLevels) :
    Halts (SameTables f0) (cachedInstance key (rc b contextLevels)) := by
  refine Halts.bind (Halts.gets _) (Keeps.gets _).pre fun found => ?_
  cases found with
  | some ref => exact Halts.pure ref
  | none =>
    refine Halts.bind (hrc b contextLevels hb) (hsound.keeps trivial _).pre fun ref => ?_
    intro w _
    unfold modifyFactory
    simp only [modify_bind_run, gets_bind_run, Factory.cached_store_self]
    intro h
    cases h

theorem halts_byScope (key : SingletonKey) {b : FactoryBindInfos} (hb : allowed b)
    (contextLevels : ContextLevels) :
    Halts (SameTables f0)
      (if b.scope = .singleton then cachedInstance key (rc b contextLevels)
        else rc b contextLevels) := by
  split
  · exact halts_cachedInstance hsound hrc key hb contextLevels
  · exact hrc b contextLevels hb

theorem halts_resolveWith {interfaceUUID : Uuid}
    (hI : ∀ b, Candidate f0 interfaceUUID b → allowed b)
    (contextLevels : ContextLevels) :
    Halts (SameTables f0) (resolveWith rc interfaceUUID contextLevels) := by
  refine Halts.gets_bind fun w hw => ?_
  cases hsel : resolveBind w.factory.context w.factory.coreBindings interfaceUUID contextLevels with
  | error e =>
    intro h
    cases h
  | ok b =>
    rw [ofExcept_ok_bind_run]
    exact halts_byScope hsound hrc _ (hI b ((resolveBind_candidate hsel).congr hw)) _ w hw

theorem halts_resolveNamedWith {interfaceUUID : Uuid}
    (hI : ∀ b, Candidate f0 interfaceUUID b → allowed b) (name : String)
    (contextLevels : ContextLevels) :
    Halts (SameTables f0) (resolveNamedWith rc interfaceUUID name contextLevels) := by
  refine Halts.gets_bind fun w hw => ?_
  cases hsel : resolveNamedBind w.factory.context w.factory.coreBindings interfaceUUID name
      contextLevels with
  | error e =>
    intro h
    cases h
  | ok b =>
    rw [ofExcept_ok_bind_run]
    exact halts_byScope hsound hrc _ (hI b ((resolveNamedBind_candidate hsel).congr hw)) _ w hw

theorem halts_resolveInjectableWith {injectable : Injector}
    (hI : ∀ b, Candidate f0 injectable.uuid b → allowed b) (contextLevels : ContextLevels) :
    Halts (SameTables f0) (resolveInjectableWith rc injectable contextLevels) := by
  unfold resolveInjectableWith
  split
  · exact halts_resolveNamedWith hsound hrc hI _ contextLevels
  · exact halts_resolveWith hsound hrc hI contextLevels

theorem halts_resolveBinds {binds : List FactoryBindInfos} (hbinds : ∀ b ∈ binds, allowed b)
    (contextLevels : ContextLevels) :
    Halts (SameTables f0) (resolveBinds rc binds contextLevels) := by
  have hF := governs_cacheFrame env f0
  induction binds generalizing contextLevels with
  | nil => exact Halts.pure []
  | cons b rest ih =>
    have hb : allowed b := hbinds b List.mem_cons_self
    have hrest : ∀ b1 ∈ rest, allowed b1 := fun b1 h1 => hbinds b1 (List.mem_cons_of_mem b h1)
    refine Halts.bind ?_ (keeps_resolveShared hF hsound trivial _).pre fun shared => ?_
    · unfold resolveShared
      split
      · refine Halts.bind (halts_cachedInstance hsound hrc _ hb _) ?_ fun ref => Halts.pure _
        exact (keeps_cachedInstance hF hsound trivial .component _).pre
      · exact Halts.pure []
    · refine Halts.bind (hrc b _ hb) (hsound.keeps trivial _).pre fun component => ?_
      refine Halts.bind (ih hrest _) ?_ fun others => Halts.pure _
      exact (keeps_resolveBinds hF hsound (fun _ _ => trivial) _).pre

theorem halts_resolveAllWith {interfaceUUID : Uuid}
    (hI : ∀ b, Candidate f0 interfaceUUID b → allowed b) (contextLevels : ContextLevels) :
    Halts (SameTables f0) (resolveAllWith rc interfaceUUID contextLevels) := by
  have hF := governs_cacheFrame env f0
  refine Halts.gets_bind fun w hw => ?_
  cases hmulti : w.factory.context.multiBindings interfaceUUID with
  | none =>
    refine Halts.bind (halts_resolveWith hsound hrc hI contextLevels) ?_ (fun _ => Halts.pure _)
      w hw
    exact (keeps_resolveWith hF hsound (fun _ _ => trivial) _).pre
  | some binds =>
    refine halts_resolveBinds hsound hrc (fun b hb => ?_) contextLevels w hw
    exact hI b ((Candidate.multi binds hmulti hb).congr hw)

theorem halts_injectOneWith {injectable : Injector}
    (hI : ∀ b, Candidate f0 injectable.uuid b → allowed b) (component : Instance)
    (contextLevels : ContextLevels) :
    Halts (SameTables f0) (injectOneWith env rc component contextLevels injectable) := by
  have hF := governs_cacheFrame env f0
  have hkeepAll : Keeps (cacheFrame f0) (resolveAllWith rc injectable.uuid contextLevels) :=
    keeps_resolveAllWith hF hsound (fun _ _ => trivial) contextLevels
  have hkeepOne : Keeps (cacheFrame f0) (resolveInjectableWith rc injectable contextLevels) :=
    keeps_resolveInjectableWith hF hsound (fun _ _ => trivial) contextLevels
  refine Halts.tryCatch ?_ ?_ fun e => (halts_handleInjectionError _ e).weaken fun _ _ => trivial
  · split
    · refine Halts.bind (halts_resolveAllWith hsound hrc hI contextLevels) hkeepAll.pre
        fun refs => ?_
      exact (halts_injectMulti env _ _ refs).weaken fun _ _ => trivial
    · refine Halts.bind (halts_resolveInjectableWith hsound hrc hI contextLevels) hkeepOne.pre
        fun ref => ?_
      exact (halts_injectSingle env _ _ ref).weaken fun _ _ => trivial
  · split
    · exact (Keeps.bind hkeepAll fun refs => hF.keeps (keeps_injectMulti env _ _ refs)).pre
    · exact (Keeps.bind hkeepOne fun ref => hF.keeps (keeps_injectSingle env _ _ ref)).pre

theorem halts_injectWith {component : Instance}
    (hI : ∀ tick, ∀ i ∈ env.injectablesOf component tick, ∀ b, Candidate f0 i.uuid b → allowed b)
    (contextLevels : ContextLevels) :
    Halts (SameTables f0) (injectWith env rc component contextLevels) := by
  have hF := governs_cacheFrame env f0
  have hkeep : ∀ i, Keeps (cacheFrame f0) (injectOneWith env rc component contextLevels i) :=
    fun i => keeps_injectOneWith hF hsound (fun _ _ => trivial) component contextLevels
  refine Halts.gets_bind fun w hw => ?_
  refine Halts.bind (Halts.forEach (fun i hi => ?_) fun i _ => (hkeep i).pre)
    (Keeps.forEach fun i _ => hkeep i).pre
    (fun _ => (halts_callOnInjected env component).weaken fun _ _ => trivial) w hw
  exact halts_injectOneWith hsound hrc (hI _ i hi) component contextLevels

/-- Injecting and configuring a component that was created ends. -/
theorem halts_afterCreation {ref : Instance} {contextLevels : ContextLevels}
    (hI : ∀ tick, ∀ i ∈ env.injectablesOf ref tick, ∀ b, Candidate f0 i.uuid b → allowed b)
    {configure : XpcfM Unit} (hconf : AlwaysHalts configure)
    (hkeep : Keeps processFrame configure) :
    Halts (SameTables f0) (do
      ofExcept (env.bindTo ref uuidIInjectable)
      injectWith env rc ref contextLevels
      configure
      pure ref) := by
  have hF := governs_cacheFrame env f0
  refine Halts.bind (Halts.ofExcept _) (Keeps.ofExcept _).pre fun _ => ?_
  refine Halts.bind (halts_injectWith hsound hrc hI contextLevels) ?_ fun _ => ?_
  · exact (keeps_injectWith hF hsound (fun _ _ _ _ _ => trivial) contextLevels).pre
  · exact Halts.bind (hconf.weaken fun _ _ => trivial) (hF.keeps hkeep).pre fun _ => Halts.pure ref

theorem halts_resolveComponentWith {b : FactoryBindInfos}
    (hb : ∀ i, Declares env f0 b.componentUUID i → ∀ b1, Candidate f0 i.uuid b1 → allowed b1)
    (contextLevels : ContextLevels) :
    Halts (SameTables f0) (resolveComponentWith env rc b contextLevels) := by
  have hF := governs_cacheFrame env f0
  refine Halts.bind_of ((halts_createInstance env b).weaken fun _ _ => trivial)
    (hF.keeps (keeps_createInstance env b)).pre ?_
  intro w ref w1 hw hcreate
  have hcreates : Creates env f0 b.componentUUID ref := (createInstance_ok hcreate).1.congr hw
  exact halts_afterCreation hsound hrc (fun tick i hi => hb i (hcreates.declares hi))
    (halts_configureResolved env ref b) (keeps_configureResolved env ref b)

theorem halts_createComponentWith {componentUUID : Uuid}
    (hI : ∀ i, Declares env f0 componentUUID i → ∀ b, Candidate f0 i.uuid b → allowed b)
    (instanceName : Option String) :
    Halts (SameTables f0) (createComponentWith env rc instanceName componentUUID) := by
  have hF := governs_cacheFrame env f0
  refine Halts.bind_of ((halts_resolveFromModule env _).weaken fun _ _ => trivial)
    (hF.keeps (keeps_resolveFromModule env _)).pre ?_
  intro w ref w1 _ hcreate
  obtain ⟨⟨file, tick0, hcall⟩, _⟩ := resolveFromModule_ok hcreate
  have hcreates : Creates env f0 componentUUID ref := .module file tick0 ref hcall
  exact halts_afterCreation hsound hrc (fun tick i hi => hI i (hcreates.declares hi))
    (halts_configureCreated env _ _ _) (keeps_configureCreated env _ _ _)

end Enough

/-! ## Acyclic needs -/

/-- On an acyclic graph one amount of fuel is enough to build every component. -/
theorem halts_resolveComponent {env : Env} {f0 : Factory} (hacyclic : Acyclic (Needs env f0)) :
    ∃ n, ∀ b contextLevels, Halts (SameTables f0) (resolveComponent env n b contextLevels) := by
  have hfinite : Finite Uuid := Finite.of_injective _ (BitVec.equivFin (m := 128)).injective
  let enough : Nat → Uuid → Prop := fun n C => ∀ b : FactoryBindInfos, b.componentUUID = C →
    ∀ contextLevels, Halts (SameTables f0) (resolveComponent env n b contextLevels)
  have hmono : ∀ {n k C}, n ≤ k → enough n C → enough k C := by
    intro n k C hle hC b hb contextLevels w hw
    rw [extends_resolveComponent env hle b contextLevels w (hC b hb contextLevels w hw)]
    exact hC b hb contextLevels w hw
  have hstep : ∀ n C, (∀ C1, Needs env f0 C C1 → enough n C1) → enough (n + 1) C := by
    rintro n C hneeds b rfl contextLevels
    have hrc : ∀ b1 ctx, Needs env f0 b.componentUUID b1.componentUUID →
        Halts (SameTables f0) (resolveComponent env n b1 ctx) :=
      fun b1 ctx hb1 => hneeds b1.componentUUID hb1 b1 rfl ctx
    have hsound := resolveComponent_sound (governs_cacheFrame env f0) n
    exact halts_resolveComponentWith hsound hrc (fun i hi b1 hcand => hi.needs hcand) contextLevels
  obtain ⟨n, hn⟩ := hacyclic.bound (P := enough) hmono hstep
  exact ⟨n, fun b => hn b.componentUUID b rfl⟩

/-- When no component needs itself through others, every resolution completes:
by interface, by interface and name, of all bindings of an interface, and of a
component UUID. -/
theorem resolutions_complete {env : Env} {w : World} (hacyclic : Acyclic (Needs env w.factory)) :
    (∀ interfaceUUID contextLevels, ∃ out w1,
      Completes (fun fuel => resolve env fuel interfaceUUID contextLevels) w out w1) ∧
    (∀ interfaceUUID name contextLevels, ∃ out w1,
      Completes (fun fuel => resolveNamed env fuel interfaceUUID name contextLevels) w out w1) ∧
    (∀ interfaceUUID contextLevels, ∃ out w1,
      Completes (fun fuel => resolveAll env fuel interfaceUUID contextLevels) w out w1) ∧
    (∀ instanceName componentUUID, ∃ out w1,
      Completes (fun fuel => createComponent env fuel instanceName componentUUID) w out w1) := by
  obtain ⟨n, hn⟩ := halts_resolveComponent hacyclic
  have hsound := resolveComponent_sound (governs_cacheFrame env w.factory) n
  have hrc : ∀ b contextLevels, True →
      Halts (SameTables w.factory) (resolveComponent env n b contextLevels) :=
    fun b contextLevels _ => hn b contextLevels
  have hmore : ∀ fuel, n ≤ fuel → ∀ b contextLevels,
      Extends (resolveComponent env n b contextLevels)
        (resolveComponent env fuel b contextLevels) :=
    fun fuel hle b contextLevels => extends_resolveComponent env hle b contextLevels
  have hw : SameTables w.factory w := rfl
  refine ⟨fun I ctx => ?_, fun I name ctx => ?_, fun I ctx => ?_, fun name C => ?_⟩
  · have hhalt : Halts (SameTables w.factory) (resolve env n I ctx) :=
      halts_resolveWith hsound hrc (fun _ _ => trivial) ctx
    exact hhalt.completes (fun fuel hle => extends_resolveWith (hmore fuel hle) I ctx) hw
  · have hhalt : Halts (SameTables w.factory) (resolveNamed env n I name ctx) :=
      halts_resolveNamedWith hsound hrc (fun _ _ => trivial) name ctx
    exact hhalt.completes (fun fuel hle => extends_resolveNamedWith (hmore fuel hle) I name ctx) hw
  · have hhalt : Halts (SameTables w.factory) (resolveAll env n I ctx) :=
      halts_resolveAllWith hsound hrc (fun _ _ => trivial) ctx
    exact hhalt.completes (fun fuel hle => extends_resolveAllWith (hmore fuel hle) I ctx) hw
  · have hhalt : Halts (SameTables w.factory) (createComponent env n name C) :=
      halts_createComponentWith hsound hrc (fun _ _ _ _ => trivial) name
    exact hhalt.completes
      (fun fuel hle => extends_createComponentWith (hmore fuel hle) name C) hw

/-! ## A graph with one user component -/

/-- The framework's own bindings, and the default binding of interface 3. -/
def oneBindWorld : World :=
  (perform (Env.wired [1, 3] oneNeed) 0
    (.bind (.default 3) ⟨4, .transient, defaultOrAll, ""⟩) World.initial).2

theorem candidate_oneBind {interfaceUUID : Uuid} {b : FactoryBindInfos}
    (h : Candidate oneBindWorld.factory interfaceUUID b) :
    Factory.freshCoreBindings interfaceUUID = some b ∨ interfaceUUID = 3 ∧ b.componentUUID = 4 := by
  cases h with
  | core hb => exact .inl hb
  | default hb =>
    by_cases hI : interfaceUUID = 3
    · subst hI
      cases hb
      exact .inr ⟨rfl, rfl⟩
    · have hnone : oneBindWorld.factory.context.defaultBindings interfaceUUID = none :=
        Table.insert_ne Table.empty _ hI
      rw [hnone] at hb
      cases hb
  | auto hb =>
    have hnone : oneBindWorld.factory.context.autoBindings interfaceUUID = none := by
      show Table.erase Table.empty 3 interfaceUUID = none
      rw [Table.erase_apply]
      split
      · rfl
      · rfl
    rw [hnone] at hb
    cases hb
  | named name hb => cases hb
  | specific target hb => cases hb
  | specificNamed target name hb => cases hb
  | multi binds hb _ => cases hb

/-- How far a component is from the ones that need nothing. -/
def oneBindRank (C : Uuid) : Nat :=
  if C = CoreComponent.propertyManager.uuid then 2
  else if C = CoreComponent.registry.uuid ∨ C = 2 then 1
  else 0

theorem acyclic_oneBind : Acyclic (Needs (Env.wired [1, 3] oneNeed) oneBindWorld.factory) := by
  refine Acyclic.of_rank oneBindRank ?_
  rintro C C1 ⟨i, ⟨ref, hcreates, tick, hi⟩, b, hcand, rfl⟩
  have hcand1 := candidate_oneBind hcand
  cases hcreates with
  | module file tick0 _ hcall =>
    cases hcall
    have hmem : i ∈ oneNeed C.toNat := hi
    unfold oneNeed at hmem
    split at hmem
    · rename_i hC
      obtain rfl : C = 2 := BitVec.eq_of_toNat_eq hC
      obtain rfl := List.mem_singleton.mp hmem
      rcases hcand1 with hcore | ⟨_, hb⟩
      · cases hcore
      · rw [hb]
        decide
    · cases hmem
  | method factoryFunc tick0 id hmethod _ => cases hmethod
  | core c _ hc href =>
    obtain rfl := freshCoreFactoryMethods_some hc
    have hmem : i ∈ c.injectables := by
      rcases href with rfl | ⟨id, rfl⟩
      · exact hi
      · exact hi
    cases c with
    | aliasManager => cases hmem
    | registry =>
      obtain rfl := List.mem_singleton.mp hmem
      rcases hcand1 with hcore | ⟨hI, _⟩
      · cases hcore
        decide
      · cases hI
    | propertyManager =>
      rcases List.mem_cons.mp hmem with rfl | hmem
      · rcases hcand1 with hcore | ⟨hI, _⟩
        · cases hcore
          decide
        · cases hI
      · obtain rfl := List.mem_singleton.mp hmem
        rcases hcand1 with hcore | ⟨hI, _⟩
        · cases hcore
          decide
        · cases hI

/-- In this world every resolution completes. -/
theorem resolutions_complete_oneBind :
    (∀ interfaceUUID contextLevels, ∃ out w1,
      Completes (fun fuel => resolve (Env.wired [1, 3] oneNeed) fuel interfaceUUID contextLevels)
        oneBindWorld out w1) ∧
    (∀ interfaceUUID name contextLevels, ∃ out w1,
      Completes
        (fun fuel => resolveNamed (Env.wired [1, 3] oneNeed) fuel interfaceUUID name contextLevels)
        oneBindWorld out w1) ∧
    (∀ interfaceUUID contextLevels, ∃ out w1,
      Completes (fun fuel => resolveAll (Env.wired [1, 3] oneNeed) fuel interfaceUUID contextLevels)
        oneBindWorld out w1) ∧
    (∀ instanceName componentUUID, ∃ out w1,
      Completes
        (fun fuel => createComponent (Env.wired [1, 3] oneNeed) fuel instanceName componentUUID)
        oneBindWorld out w1) :=
  resolutions_complete acyclic_oneBind

end Xpcf
