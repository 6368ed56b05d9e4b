import Xpcf.Proofs.BindingFrames
import Xpcf.Proofs.Needs

/-!
# What decides one request

`resolveBind` walks through the levels of the injection that is going on, the
nearest first.  A level stops the walk when it has a binding of its own for the
request, or when its range does not include the parents; what no level decides is
left to the tables, whose guards look at the far end of the stack.

* `Search.choice`, `requestChoice`: the binding a request gets, as the answer of
  the first level that stops it;
* `Undisturbed`: levels in the middle of a stack make no difference to a request;
* `selectBind_eq_iff`: that is when the code selects the same without them.
-/

namespace Xpcf

open CodeLib CodeLib.Exec

/-! ## One search -/

theorem searchContexts_component (specific : Uuid → Option FactoryBindInfos)
    (onExplicit : Uuid → Except Exc FactoryBindInfos) (b : FactoryBindInfos)
    (rest : ContextLevels) :
    searchContexts specific onExplicit ((.component, b) :: rest) =
      match specific b.componentUUID with
      | some bindInfos => some (.ok bindInfos)
      | none =>
        if b.bindingRangeMask = BindingRange.explicit.bits then some (onExplicit b.componentUUID)
        else if hasBits b.bindingRangeMask BindingRange.withParents.bits then
          searchContexts specific onExplicit rest
        else none := rfl

/-- What a search over the levels looks for: the binding of a component as the
target, and what is left at a level that is `Explicit` only. -/
structure Search where
  specific : Uuid → Option FactoryBindInfos
  onExplicit : Uuid → Except Exc FactoryBindInfos

namespace Search

/-- The level has a binding, or does not pass the search on to its parents. -/
def stops (s : Search) (b : FactoryBindInfos) : Bool :=
  (s.specific b.componentUUID).isSome ||
    !hasBits b.bindingRangeMask BindingRange.withParents.bits

/-- What the level leads to; `none` leaves it to the tables. -/
def answer (s : Search) (b : FactoryBindInfos) : Option (Option FactoryBindInfos) :=
  match s.specific b.componentUUID with
  | some found => some (some found)
  | none =>
    if b.bindingRangeMask = BindingRange.explicit.bits then
      some (s.onExplicit b.componentUUID).toOption
    else none

/-- What a whole stack leads to. -/
def through (s : Search) (contextLevels : ContextLevels) : Option (Option FactoryBindInfos) :=
  (searchContexts s.specific s.onExplicit contextLevels).map Except.toOption

/-- The first level that stops the search decides. -/
theorem through_append (s : Search) (binds : List FactoryBindInfos)
    (contextLevels : ContextLevels) :
    s.through (levelsOf binds ++ contextLevels) =
      match binds.find? s.stops with
      | some b => s.answer b
      | none => s.through contextLevels := by
  induction binds with
  | nil => rfl
  | cons b binds ih =>
    have hlevels : levelsOf (b :: binds) ++ contextLevels =
        (.component, b) :: (levelsOf binds ++ contextLevels) := rfl
    unfold through at ih ⊢
    rw [hlevels, searchContexts_component, List.find?_cons]
    cases hspecific : s.specific b.componentUUID with
    | some found =>
      have hstops : s.stops b = true := by simp [stops, hspecific]
      simp [hstops, answer, hspecific, Except.toOption]
    | none =>
      by_cases hparents : hasBits b.bindingRangeMask BindingRange.withParents.bits = true
      · have hstops : s.stops b = false := by simp [stops, hspecific, hparents]
        have hexplicit : b.bindingRangeMask ≠ BindingRange.explicit.bits := by
          intro heq
          rw [heq] at hparents
          revert hparents
          decide
        simp [hstops, hexplicit, hparents, ih]
      · have hstops : s.stops b = true := by simp [stops, hspecific, hparents]
        by_cases hexplicit : b.bindingRangeMask = BindingRange.explicit.bits
        · simp [hstops, answer, hspecific, hexplicit]
        · simp [hstops, answer, hspecific, hexplicit, hparents]

/-- What a request gets: what the search leads to, else what the tables have. -/
def choice (s : Search) (tables : Option FactoryBindInfos) (binds : List FactoryBindInfos)
    (contextLevels : ContextLevels) : Option FactoryBindInfos :=
  (match binds.find? s.stops with
    | some b => s.answer b
    | none => s.through contextLevels).getD tables

/-- The earlier bindings make no difference: the search ends before it reaches
them, or the one that stops it leads to what there is without them.  Where the
tables decide they have to have the same. -/
def Agrees (s : Search) (tables tables1 : Option FactoryBindInfos)
    (own earlier : List FactoryBindInfos) (contextLevels : ContextLevels) : Prop :=
  match own.find? s.stops with
  | some b => s.answer b = none → tables1 = tables
  | none =>
    match earlier.find? s.stops with
    | some b => (s.answer b).getD tables1 = (s.through contextLevels).getD tables
    | none => s.through contextLevels = none → tables1 = tables

theorem getD_eq_getD_iff {α : Type} {x : Option α} {a b : α} :
    x.getD a = x.getD b ↔ (x = none → a = b) := by
  cases x with
  | none => simp
  | some c => simp

theorem choice_eq_iff {s : Search} {tables tables1 : Option FactoryBindInfos}
    {own earlier : List FactoryBindInfos} {contextLevels : ContextLevels} :
    s.choice tables1 (own ++ earlier) contextLevels = s.choice tables own contextLevels ↔
      s.Agrees tables tables1 own earlier contextLevels := by
  unfold choice Agrees
  rw [List.find?_append]
  cases own.find? s.stops with
  | some b =>
    rw [Option.some_or]
    exact getD_eq_getD_iff
  | none =>
    rw [Option.none_or]
    cases earlier.find? s.stops with
    | some b => exact Iff.rfl
    | none => exact getD_eq_getD_iff

end Search

/-! ## One request -/

section Request

variable (f : Factory)

/-- The search for a binding without a name. -/
def unnamedSearch (I : Uuid) : Search :=
  ⟨fun target => f.context.specificBind target I, onlyExplicit f.coreBindings I⟩

/-- The search for a binding with a name. -/
def namedSearch (I : Uuid) (name : String) : Search :=
  ⟨fun target => f.context.specificNamedBind target (I, name), onlyExplicitNamed I name⟩

/-- The binding without a name, with the levels of these bindings on top of the
incoming context. -/
def unnamedChoice (I : Uuid) (binds : List FactoryBindInfos) (contextLevels : ContextLevels) :
    Option FactoryBindInfos :=
  (unnamedSearch f I).choice
    (defaultBind f.context f.coreBindings I (levelsOf binds ++ contextLevels)) binds contextLevels

/-- What the tables have for a name: the named binding, else the one without a
name, both behind their guards. -/
def namedTables (I : Uuid) (name : String) (binds : List FactoryBindInfos)
    (contextLevels : ContextLevels) : Option FactoryBindInfos :=
  (whenAllowed (levelsOf binds ++ contextLevels) (BindingRange.named.bits ||| defaultOrAll)
    (f.context.namedBindings (I, name))).or
      (if rangeAllows (levelsOf binds ++ contextLevels) defaultOrAll then
        unnamedChoice f I binds contextLevels
      else none)

theorem resolveBind_toOption (I : Uuid) (binds : List FactoryBindInfos)
    (contextLevels : ContextLevels) :
    (resolveBind f.context f.coreBindings I (levelsOf binds ++ contextLevels)).toOption =
      unnamedChoice f I binds contextLevels := by
  have happend := (unnamedSearch f I).through_append binds contextLevels
  unfold unnamedChoice Search.choice
  rw [← happend]
  unfold resolveBind Search.through unnamedSearch
  cases searchContexts (fun target => f.context.specificBind target I)
      (onlyExplicit f.coreBindings I) (levelsOf binds ++ contextLevels) with
  | some result => rfl
  | none =>
    cases defaultBind f.context f.coreBindings I (levelsOf binds ++ contextLevels) with
    | some b => rfl
    | none => rfl

theorem resolveNamedBind_toOption (I : Uuid) (name : String) (binds : List FactoryBindInfos)
    (contextLevels : ContextLevels) :
    (resolveNamedBind f.context f.coreBindings I name
        (levelsOf binds ++ contextLevels)).toOption =
      (namedSearch f I name).choice (namedTables f I name binds contextLevels) binds
        contextLevels := by
  have happend := (namedSearch f I name).through_append binds contextLevels
  unfold Search.choice
  rw [← happend]
  unfold resolveNamedBind Search.through namedSearch namedTables
  rw [← resolveBind_toOption]
  cases searchContexts (fun target => f.context.specificNamedBind target (I, name))
      (onlyExplicitNamed I name) (levelsOf binds ++ contextLevels) with
  | some result => rfl
  | none =>
    cases whenAllowed (levelsOf binds ++ contextLevels) (BindingRange.named.bits ||| defaultOrAll)
        (f.context.namedBindings (I, name)) with
    | some b => rfl
    | none =>
      dsimp only
      split
      · rfl
      · rfl

/-- The binding an injectable gets: what the first of these levels that stops the
search leads to, else what the incoming context leads to, else what the tables
have. -/
def requestChoice (injectable : Injector) (binds : List FactoryBindInfos)
    (contextLevels : ContextLevels) : Option FactoryBindInfos :=
  match injectable.request with
  | none => unnamedChoice f injectable.uuid binds contextLevels
  | some name => (namedSearch f injectable.uuid name).choice
      (namedTables f injectable.uuid name binds contextLevels) binds contextLevels

theorem selectBind_toOption (injectable : Injector) (binds : List FactoryBindInfos)
    (contextLevels : ContextLevels) :
    (f.selectBind injectable (levelsOf binds ++ contextLevels)).toOption =
      requestChoice f injectable binds contextLevels := by
  unfold Factory.selectBind requestChoice
  cases injectable.request with
  | none => exact resolveBind_toOption f injectable.uuid binds contextLevels
  | some name => exact resolveNamedBind_toOption f injectable.uuid name binds contextLevels

/-- The levels of the earlier bindings make no difference to the request. -/
def Undisturbed (injectable : Injector) (own earlier : List FactoryBindInfos)
    (contextLevels : ContextLevels) : Prop :=
  let I := injectable.uuid
  match injectable.request with
  | none => (unnamedSearch f I).Agrees
      (defaultBind f.context f.coreBindings I (levelsOf own ++ contextLevels))
      (defaultBind f.context f.coreBindings I (levelsOf (own ++ earlier) ++ contextLevels))
      own earlier contextLevels
  | some name => (namedSearch f I name).Agrees (namedTables f I name own contextLevels)
      (namedTables f I name (own ++ earlier) contextLevels) own earlier contextLevels

variable {f}

/-- The bindings chosen with and without the levels of the earlier bindings. -/
theorem selectBind_eq_iff {injectable : Injector} {own earlier : List FactoryBindInfos}
    {contextLevels : ContextLevels} :
    (f.selectBind injectable (levelsOf own ++ (levelsOf earlier ++ contextLevels))).toOption =
        (f.selectBind injectable (levelsOf own ++ contextLevels)).toOption ↔
      Undisturbed f injectable own earlier contextLevels := by
  rw [← List.append_assoc, ← levelsOf_append, selectBind_toOption, selectBind_toOption]
  unfold requestChoice Undisturbed
  cases injectable.request with
  | none => exact Search.choice_eq_iff
  | some name => exact Search.choice_eq_iff

end Request

end Xpcf
