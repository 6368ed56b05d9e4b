import Xpcf.Proofs.ModuleNodes

/-!
# Declaring a module again after an error

A module node with a malformed UUID is reported, but what was declared before
the malformed text stays.  The declaration of the corrected node passes over
the components that stayed, complete or not, and adds the others to a metadata
object that is not the registered one.  `RetryKeeps` is when none of this shows.
-/

namespace Xpcf

open CodeLib CodeLib.Exec

/-! ## Reading more or less -/

section Reading

variable {env : Env}

/-- Only new components are read. -/
theorem readComponents_unknown {known : Uuid → Bool} (elts : List XMLElement) :
    ∀ n ∈ (readComponents env known elts).1, known n.uuid = false := by
  induction elts generalizing known with
  | nil =>
    intro n hn
    cases hn
  | cons elt rest ih =>
    intro n hn
    unfold readComponents at hn
    split at hn
    · cases hn
    · rename_i C hC
      cases hknown : known C with
      | true =>
        rw [hknown] at hn
        exact ih n hn
      | false =>
        simp only [hknown, Bool.false_eq_true, if_false] at hn
        split at hn
        · rcases List.mem_cons.mp hn with rfl | htail
          · exact hknown
          · have hsee := ih n htail
            unfold see at hsee
            exact (Bool.or_eq_false_iff.mp hsee).2
        · rw [List.mem_singleton.mp hn]
          exact hknown

theorem firstComponent_known {known : Uuid → Bool} {elts : List XMLElement} {C : Uuid}
    (hC : known C = true) : firstComponent (readComponents env known elts).1 C = none := by
  refine List.find?_eq_none.mpr fun n hn heq => ?_
  have huuid : n.uuid = C := of_decide_eq_true heq
  have hunknown := readComponents_unknown elts n hn
  rw [huuid, hC] at hunknown
  cases hunknown

/-- Knowing more components, one reads fewer nodes, and not past an error. -/
theorem readComponents_mono {known known1 : Uuid → Bool} (elts : List XMLElement)
    (hle : ∀ C, known C = true → known1 C = true)
    (hcomplete : (readComponents env known elts).2 = true) :
    (readComponents env known1 elts).2 = true ∧
      ∀ n ∈ (readComponents env known1 elts).1, n ∈ (readComponents env known elts).1 := by
  induction elts generalizing known known1 with
  | nil => exact ⟨rfl, fun n hn => hn⟩
  | cons elt rest ih =>
    unfold readComponents at hcomplete ⊢
    cases hC : env.toUUID (elt.attributeOrEmpty "uuid") with
    | none =>
      rw [hC] at hcomplete
      cases hcomplete
    | some C =>
      simp only [hC] at hcomplete ⊢
      cases hknown : known C with
      | true =>
        simp only [hknown, hle C hknown, if_true] at hcomplete ⊢
        exact ih hle hcomplete
      | false =>
        simp only [hknown, Bool.false_eq_true, if_false] at hcomplete ⊢
        split at hcomplete
        · rename_i hread
          simp only [hread, if_true]
          cases hknown1 : known1 C with
          | true =>
            have hle1 : ∀ C1, see known C C1 = true → known1 C1 = true := by
              intro C1 h1
              rcases Bool.or_eq_true_iff.mp h1 with heq | hold
              · rw [of_decide_eq_true heq]
                exact hknown1
              · exact hle C1 hold
            obtain ⟨hrest, hsub⟩ := ih hle1 hcomplete
            simp only [if_true]
            exact ⟨hrest, fun n hn => List.mem_cons_of_mem _ (hsub n hn)⟩
          | false =>
            have hle1 : ∀ C1, see known C C1 = true → see known1 C C1 = true := by
              intro C1 h1
              rcases Bool.or_eq_true_iff.mp h1 with heq | hold
              · exact Bool.or_eq_true_iff.mpr (.inl heq)
              · exact Bool.or_eq_true_iff.mpr (.inr (hle C1 hold))
            obtain ⟨hrest, hsub⟩ := ih hle1 hcomplete
            simp only [Bool.false_eq_true, if_false]
            refine ⟨hrest, fun n hn => ?_⟩
            rcases List.mem_cons.mp hn with rfl | htail
            · exact List.mem_cons_self
            · exact List.mem_cons_of_mem _ (hsub n htail)
        · cases hcomplete

/-- A complete reading has every component that was not known. -/
theorem firstComponent_of_complete {known : Uuid → Bool} {elts : List XMLElement}
    (hcomplete : (readComponents env known elts).2 = true) {elt : XMLElement} (helt : elt ∈ elts)
    {C : Uuid} (hC : env.toUUID (elt.attributeOrEmpty "uuid") = some C) (hnew : known C = false) :
    (firstComponent (readComponents env known elts).1 C).isSome = true := by
  induction elts generalizing known with
  | nil => cases helt
  | cons elt1 rest ih =>
    unfold readComponents at hcomplete ⊢
    cases hC1 : env.toUUID (elt1.attributeOrEmpty "uuid") with
    | none =>
      rw [hC1] at hcomplete
      cases hcomplete
    | some C1 =>
      simp only [hC1] at hcomplete ⊢
      have hmem := List.mem_cons.mp helt
      cases hknown : known C1 with
      | true =>
        simp only [hknown, if_true] at hcomplete ⊢
        refine ih hcomplete (hmem.resolve_left ?_) hnew
        rintro rfl
        obtain rfl : C1 = C := Option.some.inj (hC1.symm.trans hC)
        rw [hnew] at hknown
        cases hknown
      | false =>
        simp only [hknown, Bool.false_eq_true, if_false] at hcomplete ⊢
        split at hcomplete
        · rename_i hread
          simp only [hread, if_true]
          by_cases heq : C1 = C
          · simp [firstComponent, readNewComponent, heq]
          · have hrest : elt ∈ rest := by
              refine hmem.resolve_left ?_
              rintro rfl
              exact heq (Option.some.inj (hC1.symm.trans hC))
            have hnew1 : see known C1 C = false :=
              Bool.or_eq_false_iff.mpr ⟨decide_eq_false fun h => heq h.symm, hnew⟩
            simpa [firstComponent, readNewComponent, heq] using ih hcomplete hrest hnew1
        · cases hcomplete

/-- The node is an interface node of a component of the module. -/
def ListsInterface (env : Env) (moduleElt : XMLElement) (I : Uuid) : Prop :=
  ∃ elt ∈ moduleElt.childElements "component", ∃ interfaceElt ∈ elt.childElements "interface",
    env.toUUID (interfaceElt.attributeOrEmpty "uuid") = some I

theorem mem_readInterfaces {elts : List XMLElement} {n : InterfaceNode}
    (hn : n ∈ (readInterfaces env elts).1) :
    ∃ elt ∈ elts, env.toUUID (elt.attributeOrEmpty "uuid") = some n.uuid := by
  induction elts with
  | nil => cases hn
  | cons elt rest ih =>
    unfold readInterfaces at hn
    split at hn
    · cases hn
    · rename_i I hI
      rcases List.mem_cons.mp hn with rfl | htail
      · exact ⟨elt, List.mem_cons_self, hI⟩
      · obtain ⟨elt1, h1, huuid⟩ := ih htail
        exact ⟨elt1, List.mem_cons_of_mem elt h1, huuid⟩

theorem mem_readComponents {known : Uuid → Bool} {elts : List XMLElement} {n : ComponentNode}
    (hn : n ∈ (readComponents env known elts).1) :
    ∃ elt ∈ elts, ∃ C, env.toUUID (elt.attributeOrEmpty "uuid") = some C ∧
      n = readNewComponent env elt C := by
  induction elts generalizing known with
  | nil => cases hn
  | cons elt rest ih =>
    have hlater : ∀ {known1 : Uuid → Bool}, n ∈ (readComponents env known1 rest).1 →
        ∃ elt1 ∈ elt :: rest, ∃ C, env.toUUID (elt1.attributeOrEmpty "uuid") = some C ∧
          n = readNewComponent env elt1 C := by
      intro known1 h
      obtain ⟨elt1, h1, hread⟩ := ih h
      exact ⟨elt1, List.mem_cons_of_mem elt h1, hread⟩
    unfold readComponents at hn
    split at hn
    · cases hn
    · rename_i C hC
      split at hn
      · exact hlater hn
      · split at hn
        · rcases List.mem_cons.mp hn with heq | htail
          · exact ⟨elt, List.mem_cons_self, C, hC, heq⟩
          · exact hlater htail
        · exact ⟨elt, List.mem_cons_self, C, hC, List.mem_singleton.mp hn⟩

/-- What is read are interface nodes of the module. -/
theorem listsInterface_of_read {known : Uuid → Bool} {moduleElt : XMLElement} {I : Uuid}
    {i : InterfaceNode} (hi : firstInterface (listedInterfaces
      (readComponents env known (moduleElt.childElements "component")).1) I = some i) :
    ListsInterface env moduleElt I := by
  obtain ⟨hmem, huuid⟩ := firstInterface_some hi
  obtain ⟨n, hn, hin⟩ := List.mem_flatMap.mp hmem
  obtain ⟨elt, helt, C, -, rfl⟩ := mem_readComponents hn
  obtain ⟨interfaceElt, hchild, hI⟩ := mem_readInterfaces hin
  exact ⟨elt, helt, interfaceElt, hchild, huuid ▸ hI⟩

end Reading

/-! ## The answers of the registry -/

/-- `findComponentMetadata`, with the metadata itself. -/
def World.componentMetadata (w : World) (C : Uuid) : Except Exc (Option ComponentMetadata) := do
  let c ← findComponentMetadata w.factory.registry w.process C
  pure (c.map w.process.component)

/-- The registry answers the same for the components of the module and for their
interfaces. -/
structure SameAnswers (env : Env) (moduleElt : XMLElement) (w w1 : World) : Prop where
  components : ∀ elt ∈ moduleElt.childElements "component", ∀ C,
    env.toUUID (elt.attributeOrEmpty "uuid") = some C →
      w1.componentMetadata C = w.componentMetadata C
  interfaces : ∀ I, ListsInterface env moduleElt I →
    findInterfaceMetadata w1.factory.registry I = findInterfaceMetadata w.factory.registry I

/-- A component with a module UUID is looked up in the object of the module. -/
theorem componentMetadata_of_known {w : World} {C M : Uuid}
    (hM : w.factory.registry.componentModuleUUIDMap C = some M) :
    w.componentMetadata C = (findModuleMetadata w.factory.registry M).map (w.metadataIn · C) := by
  have hmodule : getModuleUUID w.factory.registry C = .ok M := by
    unfold getModuleUUID
    rw [hM]
  unfold World.componentMetadata findComponentMetadata
  rw [hmodule]
  show ((findModuleMetadata w.factory.registry M >>= fun r =>
    pure (w.process.getComponentMetadata r C)) >>= fun c =>
      pure (c.map w.process.component) : Except Exc _) = _
  cases findModuleMetadata w.factory.registry M with
  | ok r => rfl
  | error e => rfl

theorem findModuleMetadata_of_some {ctx : RegistryContext} {M : Uuid} {r : ModuleRef}
    (h : ctx.modulesMap M = some r) : findModuleMetadata ctx M = .ok r := by
  unfold findModuleMetadata
  rw [h]

theorem metadataIn_of_ge {w : World} {r : ModuleRef} (h : w.process.modules.length ≤ r) (C : Uuid) :
    w.metadataIn r C = none := by
  unfold World.metadataIn Process.getComponentMetadata
  rw [(Process.module_of_ge h).1]
  rfl

namespace ModuleDeclared

variable {M : Uuid} {nodes : List ComponentNode} {w w1 : World}

theorem moduleUUIDs_apply (h : ModuleDeclared M nodes w w1) (C : Uuid) :
    w1.factory.registry.componentModuleUUIDMap C =
      (w.factory.registry.componentModuleUUIDMap C).or
        ((firstComponent nodes C).map fun _ => M) := by
  rw [h.moduleUUIDs, Table.addAllFirst_apply, Table.lookup_map ComponentNode.uuid fun _ => M]
  rfl

theorem contains_eq (h : ModuleDeclared M nodes w w1) :
    w1.factory.registry.componentModuleUUIDMap.contains = fun C =>
      w.factory.registry.componentModuleUUIDMap.contains C ||
        (firstComponent nodes C).isSome := by
  funext C
  unfold Table.contains
  rw [h.moduleUUIDs_apply, Option.isSome_or, Option.isSome_map]

theorem modulesMap_apply (h : ModuleDeclared M nodes w w1) (M1 : Uuid) :
    w1.factory.registry.modulesMap M1 = (w.factory.registry.modulesMap M1).or
      (if M1 = M then some w.process.modules.length else none) := by
  rw [h.modulesMap, Table.addFirst_apply]

theorem interface_apply (h : ModuleDeclared M nodes w w1) (I : Uuid) :
    findInterfaceMetadata w1.factory.registry I = (w.factory.registry.interfacesMap I).or
      ((firstInterface (listedInterfaces nodes) I).map (·.metadata)) := by
  unfold findInterfaceMetadata
  rw [h.interfacesMap, addInterfaceNodes_apply]

/-- The objects that were there stay as they are. -/
theorem metadataIn_old (h : ModuleDeclared M nodes w w1) {r : ModuleRef}
    (hr : r < w.process.modules.length) (C : Uuid) : w1.metadataIn r C = w.metadataIn r C := by
  rw [h.metadata, if_neg (Nat.ne_of_lt hr), Option.or_none]

/-- The new object has what was read. -/
theorem metadataIn_new (h : ModuleDeclared M nodes w w1) (C : Uuid) :
    w1.metadataIn w.process.modules.length C =
      (firstComponent nodes C).map (·.metadata) := by
  rw [h.metadata, if_pos rfl, metadataIn_of_ge (Nat.le_refl _), Option.none_or]

end ModuleDeclared

/-! ## The retry -/

section Retry

variable {w w1 w2 w3 : World} {M C : Uuid} {partly whole rest : List ComponentNode}

/-- A component that was known before is found as before. -/
theorem componentMetadata_of_old (hw : w.Allocated) (h : ModuleDeclared M partly w w1)
    (h1 : ModuleDeclared M rest w1 w3) (h2 : ModuleDeclared M whole w w2)
    (hknown : w.factory.registry.componentModuleUUIDMap.contains C = true)
    (hpartly : firstComponent partly C = none) (hwhole : firstComponent whole C = none) :
    w3.componentMetadata C = w2.componentMetadata C := by
  obtain ⟨M1, hM1⟩ := Table.contains_iff.mp hknown
  have hold : w1.factory.registry.componentModuleUUIDMap C = some M1 := by
    rw [h.moduleUUIDs_apply, hM1]
    rfl
  have huuid3 : w3.factory.registry.componentModuleUUIDMap C = some M1 := by
    rw [h1.moduleUUIDs_apply, hold]
    rfl
  have huuid2 : w2.factory.registry.componentModuleUUIDMap C = some M1 := by
    rw [h2.moduleUUIDs_apply, hM1]
    rfl
  rw [componentMetadata_of_known huuid3, componentMetadata_of_known huuid2]
  have hmodules : w3.factory.registry.modulesMap M1 = w2.factory.registry.modulesMap M1 := by
    rw [h1.modulesMap_apply, h.modulesMap_apply, h2.modulesMap_apply, Option.or_assoc]
    split
    · rfl
    · rfl
  unfold findModuleMetadata
  rw [hmodules]
  cases hr : w2.factory.registry.modulesMap M1 with
  | none => rfl
  | some r =>
    rw [h2.modulesMap_apply, Option.or_eq_some_iff] at hr
    show Except.ok (w3.metadataIn r C) = Except.ok (w2.metadataIn r C)
    rcases hr with hreg | ⟨-, hnew⟩
    · have hlt := hw.modules M1 r hreg
      rw [h1.metadataIn_old (by rw [h.length]; exact Nat.lt_succ_of_lt hlt), h.metadataIn_old hlt,
        h2.metadataIn_old hlt]
    · split at hnew
      · cases hnew
        rw [h1.metadataIn_old (by rw [h.length]; exact Nat.lt_succ_self _), h.metadataIn_new,
          h2.metadataIn_new, hpartly, hwhole]
      · cases hnew

/-- A new component is found as after the direct declaration, when the module
was registered before, or when the failed declaration has read the component and
all of it. -/
theorem componentMetadata_of_new (hw : w.Allocated) (h : ModuleDeclared M partly w w1)
    (h1 : ModuleDeclared M rest w1 w3) (h2 : ModuleDeclared M whole w w2)
    (hknown : w.factory.registry.componentModuleUUIDMap.contains C = false)
    (hretry : (firstComponent partly C).isSome = true ∨ (firstComponent rest C).isSome = true)
    (hwhole : (firstComponent whole C).isSome = true) :
    w3.componentMetadata C = w2.componentMetadata C ↔
      w.factory.registry.modulesMap.contains M = true ∨
        (firstComponent partly C).map (·.metadata) =
          (firstComponent whole C).map (·.metadata) := by
  have hnone := Table.not_contains_iff.mp hknown
  have huuid2 : w2.factory.registry.componentModuleUUIDMap C = some M := by
    obtain ⟨n, hn⟩ := Option.isSome_iff_exists.mp hwhole
    rw [h2.moduleUUIDs_apply, hnone, hn]
    rfl
  have huuid3 : w3.factory.registry.componentModuleUUIDMap C = some M := by
    rw [h1.moduleUUIDs_apply, h.moduleUUIDs_apply, hnone]
    rcases hretry with hsome | hsome
    · obtain ⟨n, hn⟩ := Option.isSome_iff_exists.mp hsome
      rw [hn]
      rfl
    · obtain ⟨n, hn⟩ := Option.isSome_iff_exists.mp hsome
      rw [hn]
      cases firstComponent partly C <;> rfl
  rw [componentMetadata_of_known huuid3, componentMetadata_of_known huuid2]
  have hmodules3 := h1.modulesMap_apply M
  rw [h.modulesMap_apply] at hmodules3
  have hmodules2 := h2.modulesMap_apply M
  cases hr : w.factory.registry.modulesMap M with
  | some r =>
    rw [hr, Option.some_or] at hmodules2
    rw [hr, Option.some_or, Option.some_or] at hmodules3
    rw [findModuleMetadata_of_some hmodules3, findModuleMetadata_of_some hmodules2]
    have hlt := hw.modules M r hr
    have hsame : w3.metadataIn r C = w2.metadataIn r C := by
      rw [h1.metadataIn_old (by rw [h.length]; exact Nat.lt_succ_of_lt hlt), h.metadataIn_old hlt,
        h2.metadataIn_old hlt]
    simp [Except.map, hsame, Table.contains_of_some hr]
  | none =>
    rw [hr, if_pos rfl, Option.none_or] at hmodules2
    rw [hr, if_pos rfl, Option.none_or, Option.some_or] at hmodules3
    rw [findModuleMetadata_of_some hmodules3, findModuleMetadata_of_some hmodules2]
    have hsame : w3.metadataIn w.process.modules.length C =
        (firstComponent partly C).map (·.metadata) := by
      rw [h1.metadataIn_old (by rw [h.length]; exact Nat.lt_succ_self _), h.metadataIn_new]
    simp [Except.map, hsame, h2.metadataIn_new, Table.not_contains_iff.mpr hr]

/-- The component nodes of `elt1` that are read after the declaration of `elt`. -/
def World.readAgain (env : Env) (w : World) (elt elt1 : XMLElement) : List ComponentNode × Bool :=
  readComponents env (fun C => w.factory.registry.componentModuleUUIDMap.contains C ||
    (firstComponent (w.readModule env elt).1 C).isSome) (elt1.childElements "component")

/-- The failed declaration of `elt` does not show after that of `elt1`: the text
that was malformed is the module's own, or

* the module was registered before, or the nodes that the failed declaration has
  read are those of all the new components, each of them read whole;
* for each new interface, the first node among those read before the error and
  those that the second declaration does not pass over is the first one of
  `elt1`. -/
def RetryKeeps (env : Env) (w : World) (elt elt1 : XMLElement) : Prop :=
  env.toUUID (elt.attributeOrEmpty "uuid") = none ∨
    ((∃ M, env.toUUID (elt1.attributeOrEmpty "uuid") = some M ∧
        w.factory.registry.modulesMap.contains M = true) ∨
      ∀ C, (firstComponent (w.readModule env elt1).1 C).isSome = true →
        (firstComponent (w.readModule env elt).1 C).map (·.metadata) =
          (firstComponent (w.readModule env elt1).1 C).map (·.metadata)) ∧
    ∀ I, ListsInterface env elt1 I → w.factory.registry.interfacesMap.contains I = false →
      firstInterface
          (listedInterfaces ((w.readModule env elt).1 ++ (w.readAgain env elt elt1).1)) I =
        firstInterface (listedInterfaces (w.readModule env elt1).1) I

/-- Nodes with the same metadata are the same where both have a description. -/
theorem interfaceNode_eq {n n1 : InterfaceNode} (hn : n.description.isSome = true)
    (hn1 : n1.description.isSome = true) (h : n.metadata = n1.metadata) : n = n1 := by
  obtain ⟨uuid, name, description⟩ := n
  obtain ⟨uuid1, name1, description1⟩ := n1
  obtain ⟨text, rfl⟩ := Option.isSome_iff_exists.mp hn
  obtain ⟨text1, rfl⟩ := Option.isSome_iff_exists.mp hn1
  cases h
  rfl

/-- Two lists of nodes with descriptions give a new interface the same metadata
when its first node is the same. -/
theorem firstInterface_eq_iff {t : Table Uuid InterfaceMetadata} {l l1 : List InterfaceNode}
    {I : Uuid} (hl : Described t l) (hl1 : Described t l1) (hnew : t I = none) :
    (firstInterface l I).map (·.metadata) = (firstInterface l1 I).map (·.metadata) ↔
      firstInterface l I = firstInterface l1 I := by
  refine ⟨fun h => ?_, fun h => by rw [h]⟩
  cases hn : firstInterface l I with
  | none =>
    cases hn1 : firstInterface l1 I with
    | none => rfl
    | some n1 =>
      rw [hn, hn1] at h
      cases h
  | some n =>
    cases hn1 : firstInterface l1 I with
    | none =>
      rw [hn, hn1] at h
      cases h
    | some n1 =>
      rw [hn, hn1] at h
      exact congrArg some
        (interfaceNode_eq (hl I n hnew hn) (hl1 I n1 hnew hn1) (Option.some.inj h))

/-- The interface metadata after both declarations. -/
theorem ModuleDeclared.interface_retry (h : ModuleDeclared M partly w w1)
    (h1 : ModuleDeclared M rest w1 w3) (I : Uuid) :
    findInterfaceMetadata w3.factory.registry I = (w.factory.registry.interfacesMap I).or
      ((firstInterface (listedInterfaces (partly ++ rest)) I).map (·.metadata)) := by
  rw [h1.interface_apply, h.interfacesMap, addInterfaceNodes_apply, Option.or_assoc,
    ← Option.map_or, ← firstInterface_append, ← listedInterfaces_append]

/-- What the second declaration reads. -/
theorem ModuleDeclared.readModule_retry {env : Env} {elt : XMLElement}
    (h : ModuleDeclared M (w.readModule env elt).1 w w1) (elt1 : XMLElement) :
    w1.readModule env elt1 = w.readAgain env elt elt1 := by
  unfold World.readAgain
  rw [World.readModule, h.contains_eq]

/-- A module node is declared after a declaration of the module that reported a
malformed UUID.  It is declared like that, and the registry answers as if the
failed declaration had not been made, exactly when `RetryKeeps` holds. -/
theorem retry_keeps_iff {env : Env} (hw : w.Allocated) {elt elt1 : XMLElement}
    (hsame : ∀ M, env.toUUID (elt.attributeOrEmpty "uuid") = some M →
      env.toUUID (elt1.attributeOrEmpty "uuid") = some M)
    {what : String} (hfail : declareModule env elt w = (.throws (.configuration what), w1))
    (hdirect : declareModule env elt1 w = (.ok (), w2)) :
    (∃ w3, declareModule env elt1 w1 = (.ok (), w3) ∧ SameAnswers env elt1 w2 w3) ↔
      RetryKeeps env w elt elt1 := by
  cases hM : env.toUUID (elt.attributeOrEmpty "uuid") with
  | none =>
    obtain ⟨-, rfl⟩ := (readsNodes_malformedModule w hM).of_xpcf hfail rfl
    exact ⟨fun _ => .inl hM, fun _ => ⟨w2, hdirect, fun _ _ _ _ => rfl, fun _ _ => rfl⟩⟩
  | some M =>
    obtain ⟨hdescribed, h⟩ := (readsNodes_declareModule hw hM).of_xpcf hfail rfl
    obtain ⟨hcomplete, hdescribed2, h2⟩ :=
      (readsNodes_declareModule hw (hsame M hM)).of_ok hdirect
    have hretry := readsNodes_declareModule h.allocated (hsame M hM)
    rw [h.readModule_retry, h.interfacesMap] at hretry
    have hmono : (w.readAgain env elt elt1).2 = true ∧
        ∀ n ∈ (w.readAgain env elt elt1).1, n ∈ (w.readModule env elt1).1 := by
      refine readComponents_mono (elt1.childElements "component") (fun C hC => ?_) hcomplete
      rw [hC, Bool.true_or]
    have hreached : ∀ child ∈ elt1.childElements "component", ∀ C,
        env.toUUID (child.attributeOrEmpty "uuid") = some C →
        w.factory.registry.componentModuleUUIDMap.contains C = false →
        (firstComponent (w.readModule env elt).1 C).isSome = true ∨
          (firstComponent (w.readAgain env elt elt1).1 C).isSome = true := by
      intro child hchild C hC hnew
      refine or_iff_not_imp_left.mpr fun hpartly => ?_
      refine firstComponent_of_complete hmono.1 hchild hC ?_
      rw [hnew, Bool.false_or]
      exact Bool.eq_false_iff.mpr hpartly
    constructor
    · rintro ⟨w3, hok, hanswers⟩
      obtain ⟨-, hdescribed3, h3⟩ := hretry.of_ok hok
      refine .inr ⟨?_, fun I hI hnew => ?_⟩
      · by_cases hregistered : w.factory.registry.modulesMap.contains M = true
        · exact .inl ⟨M, hsame M hM, hregistered⟩
        · refine .inr fun C hC => ?_
          obtain ⟨n, hn⟩ := Option.isSome_iff_exists.mp hC
          obtain ⟨hmem, rfl⟩ := firstComponent_some hn
          obtain ⟨child, hchild, C1, hC1, rfl⟩ := mem_readComponents hmem
          have hnew := readComponents_unknown _ _ hmem
          have hiff :=
            componentMetadata_of_new hw h h3 h2 hnew (hreached child hchild C1 hC1 hnew) hC
          exact (hiff.mp (hanswers.components child hchild C1 hC1)).resolve_left hregistered
      · have hnone := Table.not_contains_iff.mp hnew
        have heq := hanswers.interfaces I hI
        rw [h.interface_retry h3, h2.interface_apply, hnone, Option.none_or, Option.none_or] at heq
        have hboth := (moduleDescribed_append _ _ _).mpr ⟨hdescribed, hdescribed3⟩
        exact (firstInterface_eq_iff hboth.2 hdescribed2.2 hnone).mp heq
    · rintro (hnone | ⟨hcomponents, hinterfaces⟩)
      · rw [hM] at hnone
        cases hnone
      · -- the nodes that are read again have descriptions
        have hdescribed3 : ModuleDescribed (addInterfaceNodes w.factory.registry.interfacesMap
            (listedInterfaces (w.readModule env elt).1)) (w.readAgain env elt elt1).1 := by
          refine ⟨fun n hn => hdescribed2.1 n (hmono.2 n hn), fun I n hnew hn => ?_⟩
          rw [addInterfaceNodes_apply, Option.or_eq_none_iff, Option.map_eq_none_iff] at hnew
          have hlisted : ListsInterface env elt1 I := listsInterface_of_read hn
          have hsame1 := hinterfaces I hlisted (Table.not_contains_iff.mpr hnew.1)
          rw [listedInterfaces_append, firstInterface_append, hnew.2, Option.none_or, hn] at hsame1
          exact hdescribed2.2 I n hnew.1 hsame1.symm
        obtain ⟨w3, hok⟩ := hretry.returns_iff.mpr ⟨hmono.1, hdescribed3⟩
        obtain ⟨-, -, h3⟩ := hretry.of_ok hok
        refine ⟨w3, hok, fun child hchild C hC => ?_, fun I hI => ?_⟩
        · cases hknown : w.factory.registry.componentModuleUUIDMap.contains C with
          | true =>
            exact componentMetadata_of_old hw h h3 h2 hknown (firstComponent_known hknown)
              (firstComponent_known hknown)
          | false =>
            have hwhole := firstComponent_of_complete hcomplete hchild hC hknown
            refine (componentMetadata_of_new hw h h3 h2 hknown (hreached child hchild C hC hknown)
              hwhole).mpr ?_
            rcases hcomponents with ⟨M1, hM1, hregistered⟩ | hsame1
            · obtain rfl : M = M1 := Option.some.inj ((hsame M hM).symm.trans hM1)
              exact .inl hregistered
            · exact .inr (hsame1 C hwhole)
        · rw [h.interface_retry h3, h2.interface_apply]
          cases hI0 : w.factory.registry.interfacesMap I with
          | some metadata => rw [Option.some_or, Option.some_or]
          | none => rw [hinterfaces I hI (Table.not_contains_iff.mpr hI0)]

end Retry

/-- A coherent registry leads to objects only. -/
theorem Registered.allocated {pending : Uuid → Prop} {w : World} (h : Registered pending w) :
    w.Allocated :=
  ⟨fun r C c hc => (h.process.carried r C c hc).1, h.modules⟩

theorem allocated_initial : World.initial.Allocated := by
  refine ⟨fun r C c h => ?_, fun M r h => ?_⟩
  · cases h
  · cases h

/-- Component 2, which has interface 3 and another one. -/
def componentWithInterfaces (interfaceText : String) : XMLElement :=
  .mk "component" [("uuid", uuidText2), ("name", "c"), ("description", "")] none
    [.mk "interface" [("uuid", uuidText3), ("name", "i"), ("description", "")] none [],
     .mk "interface" [("uuid", interfaceText), ("name", "j"), ("description", "")] none []]

/-- Module 1 with these components. -/
def moduleWith (components : List XMLElement) : XMLElement :=
  .mk "module" [("uuid", uuidText1), ("name", "m"), ("path", "p"), ("description", "")] none
    components

/-- A component that says nothing but its UUID. -/
def bareComponent (componentText : String) : XMLElement :=
  .mk "component" [("uuid", componentText), ("name", "d"), ("description", "")] none []

/-- A malformed UUID comes after component 2 was read.  It is corrected to that of
component 2, which the first declaration knows too. -/
theorem retry_keeps_read_component :
    let env := Env.simple []
    let elt := moduleWith [componentWithInterfaces uuidText4, bareComponent "x"]
    let elt1 := moduleWith [componentWithInterfaces uuidText4, bareComponent uuidText2]
    let w1 := (declareModule env elt World.initial).2
    w1.componentMetadata 2 = .ok (some ⟨"c", 2, "", [3, 4]⟩) ∧
      ∃ w3, declareModule env elt1 w1 = (.ok (), w3) ∧
        SameAnswers env elt1 (declareModule env elt1 World.initial).2 w3 := by
  intro env elt elt1 w1
  have hread : (World.initial.readModule env elt).1 = (World.initial.readModule env elt1).1 := rfl
  have hagain : (World.initial.readAgain env elt elt1).1 = [] := rfl
  have hsame : ∀ M, env.toUUID (elt.attributeOrEmpty "uuid") = some M →
      env.toUUID (elt1.attributeOrEmpty "uuid") = some M := fun M hM => hM
  obtain ⟨what, hfail⟩ : ∃ what, declareModule env elt World.initial =
      (.throws (.configuration what), w1) := ⟨_, rfl⟩
  refine ⟨rfl, (retry_keeps_iff allocated_initial hsame hfail rfl).mpr (.inr ⟨.inr ?_, ?_⟩)⟩
  · intro C _
    rw [hread]
  · intro I _ _
    rw [hread, hagain, List.append_nil]

/-- The UUID of the second interface of component 2 is malformed, and corrected:
the component keeps the list that stops before it, and interface 4 has no
metadata. -/
theorem retry_leaves_list_incomplete :
    let env := Env.simple []
    let elt := moduleWith [componentWithInterfaces "x"]
    let elt1 := moduleWith [componentWithInterfaces uuidText4]
    let w1 := (declareModule env elt World.initial).2
    let w2 := (declareModule env elt1 World.initial).2
    let w3 := (declareModule env elt1 w1).2
    (∃ what, declareModule env elt World.initial = (.throws (.configuration what), w1)) ∧
      declareModule env elt1 World.initial = (.ok (), w2) ∧
      declareModule env elt1 w1 = (.ok (), w3) ∧
      w2.componentMetadata 2 = .ok (some ⟨"c", 2, "", [3, 4]⟩) ∧
      w3.componentMetadata 2 = .ok (some ⟨"c", 2, "", [3]⟩) ∧
      findInterfaceMetadata w3.factory.registry 4 = none ∧
      ¬ SameAnswers env elt1 w2 w3 := by
  refine ⟨⟨_, rfl⟩, rfl, rfl, rfl, rfl, rfl, fun h => ?_⟩
  have hsame := h.components _ List.mem_cons_self 2 rfl
  cases hsame

end Xpcf
