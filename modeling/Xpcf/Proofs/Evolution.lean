import Xpcf.Model.Factory

/-!
# What a resolution changes

Resolving writes the singleton caches of the factory and, in the process, the
injected references, the entry points of modules and the record of calls.  It
never writes a table that decides what is resolved.

* `Factory.withoutCaches`: the part of a factory that resolution reads only;
* `Process.Evolves`: what it leaves alone in the process;
* `processFrame`, `resolutionFrame`: the two frames of `Exec.Keeps` that say so;
* `Candidate`: the bindings an interface may be resolved to.
-/

namespace Xpcf

open CodeLib CodeLib.Exec

/-! ## The two frames -/

/-- A factory less its singleton caches. -/
def Factory.withoutCaches (f : Factory) : Factory :=
  { f with
    singletonInstances := Table.empty
    namedSingletonInstances := Table.empty
    coreInstances := Table.empty }

@[simp] theorem Factory.withoutCaches_store (f : Factory) (key : SingletonKey) (ref : Instance) :
    (f.store key ref).withoutCaches = f.withoutCaches := by
  cases key <;> rfl

section SameTables

variable {f f1 : Factory} (h : f.withoutCaches = f1.withoutCaches)
include h

theorem Factory.context_eq_of_withoutCaches : f.context = f1.context := by
  have h1 := congrArg Factory.context h
  exact h1

theorem Factory.coreBindings_eq_of_withoutCaches : f.coreBindings = f1.coreBindings := by
  have h1 := congrArg Factory.coreBindings h
  exact h1

theorem Factory.coreFactoryMethods_eq_of_withoutCaches :
    f.coreFactoryMethods = f1.coreFactoryMethods := by
  have h1 := congrArg Factory.coreFactoryMethods h
  exact h1

theorem Factory.configPath_eq_of_withoutCaches (componentUUID : Uuid) :
    f.configPath componentUUID = f1.configPath componentUUID := by
  have h1 := congrArg (fun f : Factory => f.configPath componentUUID) h
  exact h1

end SameTables

/-- The metadata stays as it is and the log only grows. -/
structure Process.Evolves (p p1 : Process) : Prop where
  modules : p1.modules = p.modules
  components : p1.components = p.components
  moduleMap : p1.moduleMap = p.moduleMap
  log : p.log <+: p1.log

namespace Process.Evolves

theorem refl (p : Process) : p.Evolves p := ⟨rfl, rfl, rfl, List.prefix_refl _⟩

theorem trans {p p1 p2 : Process} (h : p.Evolves p1) (h1 : p1.Evolves p2) : p.Evolves p2 :=
  ⟨h1.modules.trans h.modules, h1.components.trans h.components, h1.moduleMap.trans h.moduleMap,
    h.log.trans h1.log⟩

end Process.Evolves

/-- The factory is untouched. -/
def processFrame : Frame World where
  pre _ := True
  rel w w1 := w1.factory = w.factory ∧ w.process.Evolves w1.process
  refl _ := ⟨rfl, .refl _⟩
  trans h h1 := ⟨h1.1.trans h.1, h.2.trans h1.2⟩
  stable h _ := h

/-- The factory is untouched up to its caches. -/
def resolutionFrame : Frame World where
  pre _ := True
  rel w w1 := w1.factory.withoutCaches = w.factory.withoutCaches ∧ w.process.Evolves w1.process
  refl _ := ⟨rfl, .refl _⟩
  trans h h1 := ⟨h1.1.trans h.1, h.2.trans h1.2⟩
  stable h _ := h

theorem resolutionFrame_of_processFrame {w w1 : World} (h : processFrame.rel w w1) :
    resolutionFrame.rel w w1 :=
  ⟨congrArg Factory.withoutCaches h.1, h.2⟩

/-! ## New events -/

/-- The events between two worlds. -/
def World.newEvents (w w1 : World) : List Event := w1.process.log.drop w.process.log.length

/-- What is new between two worlds is new between an earlier and a later one. -/
theorem World.newEvents_mono {w w1 w2 w3 : World} (h : w.process.log <+: w1.process.log)
    (h1 : w2.process.log <+: w3.process.log) {e : Event} (he : e ∈ w1.newEvents w2) :
    e ∈ w.newEvents w3 := by
  obtain ⟨late, hlate⟩ := h1
  unfold World.newEvents at he ⊢
  rw [← hlate, List.drop_append]
  exact List.mem_append_left _ (List.drop_subset_drop_left _ h.length_le he)

/-- An event that was appended is new. -/
theorem World.mem_newEvents_append {w w1 : World} {e : Event} (before : List Event)
    (h : w1.process.log = w.process.log ++ before ++ [e]) : e ∈ w.newEvents w1 := by
  unfold World.newEvents
  rw [h, List.append_assoc, List.drop_left]
  exact List.mem_append_right _ List.mem_cons_self

/-! ## Candidates -/

/-- The bindings some table holds for an interface. -/
inductive Candidate (f : Factory) (interfaceUUID : Uuid) (bindInfos : FactoryBindInfos) : Prop where
  | core (h : f.coreBindings interfaceUUID = some bindInfos)
  | auto (h : f.context.autoBindings interfaceUUID = some bindInfos)
  | default (h : f.context.defaultBindings interfaceUUID = some bindInfos)
  | named (name : String) (h : f.context.namedBindings (interfaceUUID, name) = some bindInfos)
  | specific (target : Uuid) (h : f.context.specificBind target interfaceUUID = some bindInfos)
  | specificNamed (target : Uuid) (name : String)
      (h : f.context.specificNamedBind target (interfaceUUID, name) = some bindInfos)
  | multi (binds : List FactoryBindInfos)
      (h : f.context.multiBindings interfaceUUID = some binds) (hb : bindInfos ∈ binds)

/-- A search that found a binding found it for a target, or at an `Explicit`
level. -/
theorem searchContexts_ok {specific : Uuid → Option FactoryBindInfos}
    {onExplicit : Uuid → Except Exc FactoryBindInfos} {contextLevels : ContextLevels}
    {bindInfos : FactoryBindInfos}
    (h : searchContexts specific onExplicit contextLevels = some (.ok bindInfos)) :
    ∃ target, specific target = some bindInfos ∨ onExplicit target = .ok bindInfos := by
  induction contextLevels with
  | nil => cases h
  | cons level rest ih =>
    obtain ⟨contextType, contextValue⟩ := level
    unfold searchContexts at h
    split at h
    · split at h
      · rename_i found hfound
        cases h
        exact ⟨_, Or.inl hfound⟩
      · split at h
        · exact ⟨_, Or.inr (Option.some.inj h)⟩
        · split at h
          · exact ih h
          · cases h
    · exact ih h

theorem whenAllowed_some {contextLevels : ContextLevels} {bits : BitVec 8}
    {found : Option FactoryBindInfos} {bindInfos : FactoryBindInfos}
    (h : whenAllowed contextLevels bits found = some bindInfos) : found = some bindInfos := by
  unfold whenAllowed at h
  split at h
  · exact h
  · cases h

theorem defaultBind_candidate {f : Factory} {interfaceUUID : Uuid} {contextLevels : ContextLevels}
    {bindInfos : FactoryBindInfos}
    (h : defaultBind f.context f.coreBindings interfaceUUID contextLevels = some bindInfos) :
    Candidate f interfaceUUID bindInfos := by
  unfold defaultBind at h
  rcases Option.or_eq_some_iff.mp h with hdef | ⟨_, hrest⟩
  · exact .default (whenAllowed_some hdef)
  · rcases Option.or_eq_some_iff.mp hrest with hauto | ⟨_, hcore⟩
    · exact .auto (whenAllowed_some hauto)
    · exact .core hcore

/-- What `resolveBind` selects is a candidate. -/
theorem resolveBind_candidate {f : Factory} {interfaceUUID : Uuid} {contextLevels : ContextLevels}
    {bindInfos : FactoryBindInfos}
    (h : resolveBind f.context f.coreBindings interfaceUUID contextLevels = .ok bindInfos) :
    Candidate f interfaceUUID bindInfos := by
  unfold resolveBind at h
  split at h
  · rename_i result hsearch
    subst h
    obtain ⟨target, hspecific | hexplicit⟩ := searchContexts_ok hsearch
    · exact .specific target hspecific
    · unfold onlyExplicit at hexplicit
      split at hexplicit
      · rename_i core hcore
        cases hexplicit
        exact .core hcore
      · cases hexplicit
  · split at h
    · rename_i found hfound
      cases h
      exact defaultBind_candidate hfound
    · cases h

/-- What the named `resolveBind` selects is a candidate. -/
theorem resolveNamedBind_candidate {f : Factory} {interfaceUUID : Uuid} {name : String}
    {contextLevels : ContextLevels} {bindInfos : FactoryBindInfos}
    (h : resolveNamedBind f.context f.coreBindings interfaceUUID name contextLevels
      = .ok bindInfos) : Candidate f interfaceUUID bindInfos := by
  unfold resolveNamedBind at h
  split at h
  · rename_i result hsearch
    subst h
    obtain ⟨target, hspecific | hexplicit⟩ := searchContexts_ok hsearch
    · exact .specificNamed target name hspecific
    · cases hexplicit
  · split at h
    · rename_i found hfound
      cases h
      exact .named name (whenAllowed_some hfound)
    · split at h
      · exact resolveBind_candidate h
      · cases h

end Xpcf
