import Xpcf.Proofs.Reading
import Xpcf.Proofs.Reloading

/-!
# What a `<module>` node declares

`readInterfaces` and `readComponents` read the nodes of a module without a
registry: they stop at the first malformed UUID and pass over the components
that are known.  The declaration of the module leaves behind exactly what was
read, whether it returns or reports the malformed UUID.

* `ReadsNodes`: a declaration and the reading of its nodes;
* `InterfacesDeclared`, `ComponentsDeclared`: the metadata before and after;
* `ModuleDeclared`: the same for a whole module.
-/

namespace Xpcf

open CodeLib CodeLib.Exec

/-! ## Reading the nodes -/

/-- What an `<interface>` node says. -/
structure InterfaceNode where
  uuid : Uuid
  name : String
  description : Option String

def InterfaceNode.metadata (n : InterfaceNode) : InterfaceMetadata :=
  ⟨n.name, n.uuid, n.description.getD ""⟩

/-- The interface nodes up to the first malformed UUID, and whether there is
none. -/
def readInterfaces (env : Env) : List XMLElement → List InterfaceNode × Bool
  | [] => ([], true)
  | elt :: rest =>
    match env.toUUID (elt.attributeOrEmpty "uuid") with
    | none => ([], false)
    | some uuid =>
      let read := readInterfaces env rest
      (⟨uuid, elt.attributeOrEmpty "name", elt.attr "description"⟩ :: read.1, read.2)

/-- What a `<component>` node says. -/
structure ComponentNode where
  uuid : Uuid
  name : String
  description : Option String
  interfaces : List InterfaceNode

def ComponentNode.metadata (n : ComponentNode) : ComponentMetadata :=
  ⟨n.name, n.uuid, n.description.getD "", n.interfaces.map (·.uuid)⟩

/-- What the node of a new component says. -/
def readNewComponent (env : Env) (elt : XMLElement) (C : Uuid) : ComponentNode :=
  ⟨C, elt.attributeOrEmpty "name", elt.attr "description",
    (readInterfaces env (elt.childElements "interface")).1⟩

/-- The nodes of new components up to the first malformed UUID, which may be one
of an interface, and whether there is none. -/
def readComponents (env : Env) (known : Uuid → Bool) : List XMLElement → List ComponentNode × Bool
  | [] => ([], true)
  | elt :: rest =>
    match env.toUUID (elt.attributeOrEmpty "uuid") with
    | none => ([], false)
    | some uuid =>
      if known uuid then readComponents env known rest
      else if (readInterfaces env (elt.childElements "interface")).2 then
        let read := readComponents env (see known uuid) rest
        (readNewComponent env elt uuid :: read.1, read.2)
      else ([readNewComponent env elt uuid], false)

/-- The first interface node with the UUID. -/
def firstInterface (nodes : List InterfaceNode) (I : Uuid) : Option InterfaceNode :=
  nodes.find? fun n => n.uuid = I

def firstComponent (nodes : List ComponentNode) (C : Uuid) : Option ComponentNode :=
  nodes.find? fun n => n.uuid = C

theorem firstInterface_some {nodes : List InterfaceNode} {I : Uuid} {n : InterfaceNode}
    (h : firstInterface nodes I = some n) : n ∈ nodes ∧ n.uuid = I := by
  have hfound := List.find?_some h
  exact ⟨List.mem_of_find?_eq_some h, of_decide_eq_true hfound⟩

theorem firstComponent_some {nodes : List ComponentNode} {C : Uuid} {n : ComponentNode}
    (h : firstComponent nodes C = some n) : n ∈ nodes ∧ n.uuid = C := by
  have hfound := List.find?_some h
  exact ⟨List.mem_of_find?_eq_some h, of_decide_eq_true hfound⟩

theorem firstInterface_append (l l1 : List InterfaceNode) (I : Uuid) :
    firstInterface (l ++ l1) I = (firstInterface l I).or (firstInterface l1 I) := List.find?_append

theorem firstComponent_append (l l1 : List ComponentNode) (C : Uuid) :
    firstComponent (l ++ l1) C = (firstComponent l C).or (firstComponent l1 C) := List.find?_append

/-- The metadata of interface nodes, the first one of each UUID that is new. -/
def addInterfaceNodes (t : Table Uuid InterfaceMetadata) (nodes : List InterfaceNode) :
    Table Uuid InterfaceMetadata :=
  t.addAllFirst (nodes.map fun n => (n.uuid, n.metadata))

theorem addInterfaceNodes_apply (t : Table Uuid InterfaceMetadata) (nodes : List InterfaceNode)
    (I : Uuid) :
    addInterfaceNodes t nodes I = (t I).or ((firstInterface nodes I).map (·.metadata)) := by
  unfold addInterfaceNodes firstInterface
  rw [Table.addAllFirst_apply, Table.lookup_map]

theorem addInterfaceNodes_append (t : Table Uuid InterfaceMetadata) (l l1 : List InterfaceNode) :
    addInterfaceNodes t (l ++ l1) = addInterfaceNodes (addInterfaceNodes t l) l1 := by
  unfold addInterfaceNodes
  rw [List.map_append, Table.addAllFirst_append]

/-- Every node that adds interface metadata has a description. -/
def Described (t : Table Uuid InterfaceMetadata) (nodes : List InterfaceNode) : Prop :=
  ∀ I n, t I = none → firstInterface nodes I = some n → n.description.isSome = true

theorem described_nil (t : Table Uuid InterfaceMetadata) : Described t [] := by
  intro I n _ h
  cases h

theorem described_append (t : Table Uuid InterfaceMetadata) (l l1 : List InterfaceNode) :
    Described t (l ++ l1) ↔ Described t l ∧ Described (addInterfaceNodes t l) l1 := by
  unfold Described
  simp only [addInterfaceNodes_apply, firstInterface_append, Option.or_eq_none_iff,
    Option.map_eq_none_iff, Option.or_eq_some_iff]
  constructor
  · intro h
    exact ⟨fun I n ht hn => h I n ht (.inl hn), fun I n ht hn => h I n ht.1 (.inr ⟨ht.2, hn⟩)⟩
  · rintro ⟨h, h1⟩ I n ht (hn | ⟨hnone, hn⟩)
    · exact h I n ht hn
    · exact h1 I n ⟨ht, hnone⟩ hn

theorem described_singleton (t : Table Uuid InterfaceMetadata) (n : InterfaceNode) :
    Described t [n] ↔ (t n.uuid = none → n.description.isSome = true) := by
  constructor
  · intro h ht
    exact h n.uuid n ht (by simp [firstInterface])
  · intro h I m ht hm
    obtain ⟨rfl, rfl⟩ : n.uuid = I ∧ n = m := by simpa [firstInterface] using hm
    exact h ht

/-! ## A declaration and its reading -/

/-- The declaration returns when the reading is complete and the descriptions are
there, and reports a malformed UUID when only the reading is not complete; both
times `done` holds.  It throws something else, or comes to no defined end, only
when one of the two is missing. -/
def ReadsNodes (m : XpcfM Unit) (w : World) (complete : Bool) (described : Prop)
    (done : World → Prop) : Prop :=
  Ends m w (fun _ w1 => complete = true ∧ described ∧ done w1)
    (fun e w1 => if e.isXpcf = true then complete = false ∧ described ∧ done w1
      else ¬ (complete = true ∧ described))
    (¬ (complete = true ∧ described))

namespace ReadsNodes

variable {m : XpcfM Unit} {w w1 : World} {complete : Bool} {described : Prop} {done : World → Prop}

theorem rethrow (msg : String → XmlErrorMessage) (h : ReadsNodes m w complete described done) :
    ReadsNodes (rethrowXpcf msg m) w complete described done := by
  refine Ends.tryCatch (Ends.conseq h (fun _ _ h => h) (fun e w1 h => ?_) id)
  cases he : e.isXpcf with
  | true =>
    rw [he] at h
    exact h
  | false =>
    rw [he] at h
    show if e.isXpcf = true then _ else _
    rw [he]
    exact h

/-- It returns exactly when everything was read and described. -/
theorem returns_iff (h : ReadsNodes m w complete described done) :
    (∃ w1, m w = (.ok (), w1)) ↔ complete = true ∧ described := by
  unfold ReadsNodes Ends at h
  rcases hr : m w with ⟨_ | e | _ | _, w1⟩
  · rw [hr] at h
    exact ⟨fun _ => ⟨h.1, h.2.1⟩, fun _ => ⟨w1, rfl⟩⟩
  · rw [hr] at h
    refine ⟨fun h1 => ?_, fun h1 => ?_⟩
    · obtain ⟨_, heq⟩ := h1
      cases heq
    cases he : e.isXpcf with
    | true =>
      simp only [he, if_true] at h
      rw [h.1] at h1
      cases h1.1
    | false =>
      simp only [he] at h
      exact absurd h1 h
  · rw [hr] at h
    exact h.elim
  · rw [hr] at h
    refine ⟨fun h1 => ?_, fun h1 => absurd h1 h⟩
    obtain ⟨_, heq⟩ := h1
    cases heq

theorem of_ok (h : ReadsNodes m w complete described done) (hr : m w = (.ok (), w1)) :
    complete = true ∧ described ∧ done w1 :=
  (Ends.of_ok hr).mp h

theorem of_xpcf {e : Exc} (h : ReadsNodes m w complete described done)
    (hr : m w = (.throws e, w1)) (he : e.isXpcf = true) : described ∧ done w1 := by
  have h1 := (Ends.of_throws hr).mp h
  rw [if_pos he] at h1
  exact h1.2

theorem congr {described1 : Prop} {done1 : World → Prop}
    (h : ReadsNodes m w complete described done) (hdescribed : described ↔ described1)
    (hdone : ∀ w1, done w1 → done1 w1) :
    ReadsNodes m w complete described1 done1 := by
  obtain rfl : described = described1 := propext hdescribed
  refine Ends.conseq h (fun _ w1 h1 => ⟨h1.1, h1.2.1, hdone w1 h1.2.2⟩) (fun e w1 h1 => ?_) id
  split
  · rename_i he
    rw [if_pos he] at h1
    exact ⟨h1.1, h1.2.1, hdone w1 h1.2.2⟩
  · rename_i he
    rw [if_neg he] at h1
    exact h1

/-- After a malformed UUID nothing is read. -/
theorem stop (h : ReadsNodes m w false described done) (k : XpcfM Unit) :
    ReadsNodes (m >>= fun _ => k) w false described done := by
  refine Ends.bind (Ends.conseq h ?_ (fun _ _ h => h) id)
  rintro _ w1 ⟨hc, _⟩
  cases hc

/-- The first nodes are well formed, and the rest decides. -/
theorem seq {k : XpcfM Unit} {described1 : Prop} {done1 : World → Prop}
    (h : ReadsNodes m w true described done)
    (hk : ∀ w1, done w1 → ReadsNodes k w1 complete described1 done1) :
    ReadsNodes (m >>= fun _ => k) w complete (described ∧ described1) done1 := by
  refine Ends.bind (Ends.conseq h ?_ ?_ fun h1 h2 => h1 ⟨rfl, h2.2.1⟩)
  · rintro _ w1 ⟨_, hd, hdone⟩
    exact (hk w1 hdone).congr (by simp [hd]) fun _ h => h
  · intro e w1 h1
    split
    · rename_i he
      rw [if_pos he] at h1
      cases h1.1
    · rename_i he
      rw [if_neg he] at h1
      exact fun h2 => h1 ⟨rfl, h2.2.1⟩

end ReadsNodes

/-! ## Interfaces -/

def ComponentMetadata.listing (m : ComponentMetadata) (l : List Uuid) : ComponentMetadata :=
  { m with interfaceUUIDs := m.interfaceUUIDs ++ l }

/-- The component object lists the interfaces, and those that are new have
metadata. -/
structure InterfacesDeclared (c : ComponentRef) (nodes : List InterfaceNode) (w w1 : World) :
    Prop where
  modulesMap : w1.factory.registry.modulesMap = w.factory.registry.modulesMap
  moduleUUIDs : w1.factory.registry.componentModuleUUIDMap =
    w.factory.registry.componentModuleUUIDMap
  interfacesMap : w1.factory.registry.interfacesMap =
    addInterfaceNodes w.factory.registry.interfacesMap nodes
  modules : w1.process.modules = w.process.modules
  length : w1.process.components.length = w.process.components.length
  component : ∀ c1, w1.process.component c1 =
    if c1 = c then (w.process.component c).listing (nodes.map (·.uuid)) else w.process.component c1

namespace InterfacesDeclared

variable {c : ComponentRef} {w w1 w2 : World} {l l1 : List InterfaceNode}

theorem refl (c : ComponentRef) (w : World) : InterfacesDeclared c [] w w := by
  refine ⟨rfl, rfl, rfl, rfl, rfl, fun c1 => ?_⟩
  split
  · rename_i heq
    subst heq
    simp [ComponentMetadata.listing]
  · rfl

theorem trans (h : InterfacesDeclared c l w w1) (h1 : InterfacesDeclared c l1 w1 w2) :
    InterfacesDeclared c (l ++ l1) w w2 := by
  refine ⟨h1.modulesMap.trans h.modulesMap, h1.moduleUUIDs.trans h.moduleUUIDs, ?_,
    h1.modules.trans h.modules, h1.length.trans h.length, fun c1 => ?_⟩
  · rw [h1.interfacesMap, h.interfacesMap, addInterfaceNodes_append]
  · rw [h1.component, h.component, h.component]
    split
    · rw [if_pos rfl, List.map_append]
      unfold ComponentMetadata.listing
      rw [List.append_assoc]
    · rfl

end InterfacesDeclared

/-- The list of one component object grows. -/
theorem Process.component_addInterface {p : Process} {c : ComponentRef}
    (hc : c < p.components.length) (I : Uuid) (c1 : ComponentRef) :
    (p.addInterface c I).component c1 =
      if c1 = c then (p.component c).listing [I] else p.component c1 := by
  unfold addInterface component
  simp only [List.getD_eq_getElem?_getD, List.getElem?_modify]
  by_cases heq : c1 = c
  · subst heq
    simp [hc, ComponentMetadata.listing]
  · simp [heq, Ne.symm heq]

theorem readsNodes_throw (e : Exc) (w : World) :
    ReadsNodes (Exec.throw e) w false True (fun w1 => w1 = w) := by
  show if e.isXpcf = true then _ else _
  split
  · exact ⟨rfl, trivial, rfl⟩
  · exact fun h => Bool.false_ne_true h.1

/-- The read of a malformed UUID. -/
theorem readsNodes_malformedUuid {env : Env} {elt : XMLElement}
    (hnone : env.toUUID (elt.attributeOrEmpty "uuid") = none) (what : String) (w : World)
    (k : Uuid → XpcfM Unit) :
    ReadsNodes (uuidOfAttribute env elt "uuid" what >>= k) w false True (fun w1 => w1 = w) := by
  unfold uuidOfAttribute
  rw [hnone]
  cases elt.attr "uuid" with
  | some text => exact readsNodes_throw _ w
  | none => exact fun h => Bool.false_ne_true h.1

/-- A declaration that begins with the UUID of its node, when it is malformed. -/
theorem readsNodes_malformed {env : Env} {elt : XMLElement} {what : String}
    {msg : String → XmlErrorMessage} (hnone : env.toUUID (elt.attributeOrEmpty "uuid") = none)
    (w : World) (k : Uuid → XpcfM Unit) :
    ReadsNodes (rethrowXpcf msg (uuidOfAttribute env elt "uuid" what) >>= k) w false True
      (fun w1 => w1 = w) := by
  unfold uuidOfAttribute
  rw [hnone]
  cases elt.attr "uuid" with
  | some text => exact readsNodes_throw _ w
  | none => exact fun h => Bool.false_ne_true h.1

/-- An interface node with a well-formed UUID. -/
theorem readsNodes_declareInterfaceNode {env : Env} {c : ComponentRef} {elt : XMLElement} {I : Uuid}
    (hI : env.toUUID (elt.attributeOrEmpty "uuid") = some I) {w : World}
    (hc : c < w.process.components.length) :
    let node : InterfaceNode := ⟨I, elt.attributeOrEmpty "name", elt.attr "description"⟩
    ReadsNodes (declareInterfaceNode env c elt) w true
      (Described w.factory.registry.interfacesMap [node]) (InterfacesDeclared c [node] w) := by
  intro node
  unfold declareInterfaceNode
  refine ReadsNodes.rethrow _ ?_
  rw [uuidOfAttribute_of_some hI, pure_bind_eq]
  let w1 : World := ⟨{ w.factory with
    context := w.factory.context.autobind I ((w.process.addInterface c I).component c).uuid },
    w.process.addInterface c I⟩
  have hdone : ∀ f : Factory, f.registry.modulesMap = w.factory.registry.modulesMap →
      f.registry.componentModuleUUIDMap = w.factory.registry.componentModuleUUIDMap →
      f.registry.interfacesMap = addInterfaceNodes w.factory.registry.interfacesMap [node] →
      InterfacesDeclared c [node] w ⟨f, w.process.addInterface c I⟩ := by
    intro f hmodules huuids hmap
    exact ⟨hmodules, huuids, hmap, rfl, List.length_modify .., Process.component_addInterface hc I⟩
  show ReadsNodes (if w.factory.registry.interfacesMap.contains I then pure ()
    else declareNewInterface elt I) w1 _ _ _
  have hattr : node.description = elt.attr "description" := rfl
  have hmap : addInterfaceNodes w.factory.registry.interfacesMap [node] =
      w.factory.registry.interfacesMap.addFirst I node.metadata := rfl
  rw [described_singleton]
  cases hknown : w.factory.registry.interfacesMap I with
  | some info =>
    have hcontains := Table.contains_of_some hknown
    rw [if_pos hcontains]
    refine ⟨rfl, fun hnone => ?_, hdone w1.factory rfl rfl ?_⟩
    · cases hnone
    · rw [hmap, Table.addFirst, if_pos hcontains]
  | none =>
    have hcontains : ¬ w.factory.registry.interfacesMap.contains I = true := by
      rw [Table.not_contains_iff.mpr hknown]
      exact Bool.false_ne_true
    rw [if_neg hcontains]
    unfold declareNewInterface
    cases hdescription : elt.attr "description" with
    | none =>
      rw [XMLElement.attributeString_of_none hdescription, ofExcept_error_bind]
      intro h
      have hsome := h.2 rfl
      rw [hattr, hdescription] at hsome
      cases hsome
    | some text =>
      rw [XMLElement.attributeString_ok_iff.mpr hdescription, ofExcept_ok_bind]
      obtain ⟨aliases, halias⟩ :=
        declareAutoAlias_run .interface (elt.attributeOrEmpty "name") I w1
      have hmetadata : node.metadata = ⟨elt.attributeOrEmpty "name", I, text⟩ := by
        unfold InterfaceNode.metadata
        rw [hattr, hdescription]
        rfl
      have hadd : w.factory.registry.addInterfaceMetadata node.metadata =
          { w.factory.registry with
            interfacesVector := w.factory.registry.interfacesVector ++ [node.metadata]
            interfacesMap := w.factory.registry.interfacesMap.insert I node.metadata } :=
        if_neg hcontains
      refine (Ends.bind_of_ok halias).mpr ⟨rfl, fun _ => ?_, ?_⟩
      · rw [hattr, hdescription]
        rfl
      · rw [← hmetadata]
        refine hdone { w1.factory with
          aliases := aliases
          registry := w.factory.registry.addInterfaceMetadata node.metadata } ?_ ?_ ?_
        · rw [hadd]
        · rw [hadd]
        · rw [hadd, hmap, Table.addFirst, if_neg hcontains]

/-- The interface nodes of a component. -/
theorem readsNodes_interfaces {env : Env} {c : ComponentRef} (elts : List XMLElement) {w : World}
    (hc : c < w.process.components.length) :
    ReadsNodes (forEach (declareInterfaceNode env c) elts) w (readInterfaces env elts).2
      (Described w.factory.registry.interfacesMap (readInterfaces env elts).1)
      (InterfacesDeclared c (readInterfaces env elts).1 w) := by
  induction elts generalizing w with
  | nil => exact ⟨rfl, described_nil _, InterfacesDeclared.refl c w⟩
  | cons elt rest ih =>
    unfold readInterfaces
    cases hI : env.toUUID (elt.attributeOrEmpty "uuid") with
    | none =>
      have hfirst : ReadsNodes (declareInterfaceNode env c elt) w false True
          (fun w1 => w1 = w) :=
        (readsNodes_malformedUuid hI _ w _).rethrow _
      refine (hfirst.stop _).congr ?_ ?_
      · exact ⟨fun _ => described_nil _, fun _ => trivial⟩
      · intro w1 heq
        rw [heq]
        exact InterfacesDeclared.refl c w
    | some I =>
      let node : InterfaceNode := ⟨I, elt.attributeOrEmpty "name", elt.attr "description"⟩
      have hrest : ∀ w1, InterfacesDeclared c [node] w w1 →
          ReadsNodes (forEach (declareInterfaceNode env c) rest) w1 (readInterfaces env rest).2
            (Described (addInterfaceNodes w.factory.registry.interfacesMap [node])
              (readInterfaces env rest).1)
            (InterfacesDeclared c (node :: (readInterfaces env rest).1) w) := by
        intro w1 hw1
        rw [← hw1.interfacesMap]
        refine (ih ?_).congr Iff.rfl fun w2 hw2 => hw1.trans hw2
        rw [hw1.length]
        exact hc
      exact ((readsNodes_declareInterfaceNode hI hc).seq hrest).congr
        (described_append _ [node] _).symm fun _ h => h

/-! ## Components -/

/-- Shared pointers lead to objects. -/
structure World.Allocated (w : World) : Prop where
  components : ∀ r C c, (w.process.module r).moduleComponentMap C = some c →
    c < w.process.components.length
  modules : ∀ M r, w.factory.registry.modulesMap M = some r → r < w.process.modules.length

/-- The metadata that a module object has of a component. -/
def World.metadataIn (w : World) (r : ModuleRef) (C : Uuid) : Option ComponentMetadata :=
  (w.process.getComponentMetadata r C).map w.process.component

/-- The interface nodes of all the components. -/
def listedInterfaces (nodes : List ComponentNode) : List InterfaceNode :=
  nodes.flatMap (·.interfaces)

theorem listedInterfaces_append (l l1 : List ComponentNode) :
    listedInterfaces (l ++ l1) = listedInterfaces l ++ listedInterfaces l1 := List.flatMap_append

/-- The components have been declared for a module object. -/
structure ComponentsDeclared (r : ModuleRef) (nodes : List ComponentNode) (w w1 : World) :
    Prop where
  modulesMap : w1.factory.registry.modulesMap = w.factory.registry.modulesMap
  moduleUUIDs : w1.factory.registry.componentModuleUUIDMap =
    w.factory.registry.componentModuleUUIDMap.addAllFirst
      (nodes.map fun n => (n.uuid, (w.process.module r).uuid))
  interfacesMap : w1.factory.registry.interfacesMap =
    addInterfaceNodes w.factory.registry.interfacesMap (listedInterfaces nodes)
  length : w1.process.modules.length = w.process.modules.length
  uuid : (w1.process.module r).uuid = (w.process.module r).uuid
  metadata : ∀ r1 C, w1.metadataIn r1 C = (w.metadataIn r1 C).or
    (if r1 = r then (firstComponent nodes C).map (·.metadata) else none)
  allocated : w1.Allocated

namespace ComponentsDeclared

variable {r : ModuleRef} {w w1 w2 : World} {l l1 : List ComponentNode}

theorem refl (r : ModuleRef) {w : World} (hw : w.Allocated) : ComponentsDeclared r [] w w := by
  refine ⟨rfl, rfl, rfl, rfl, rfl, fun r1 C => ?_, hw⟩
  show _ = (w.metadataIn r1 C).or (if r1 = r then none else none)
  rw [ite_self, Option.or_none]

theorem trans (h : ComponentsDeclared r l w w1) (h1 : ComponentsDeclared r l1 w1 w2) :
    ComponentsDeclared r (l ++ l1) w w2 := by
  refine ⟨h1.modulesMap.trans h.modulesMap, ?_, ?_, h1.length.trans h.length,
    h1.uuid.trans h.uuid, fun r1 C => ?_, h1.allocated⟩
  · rw [h1.moduleUUIDs, h.moduleUUIDs, h.uuid, List.map_append, Table.addAllFirst_append]
  · rw [h1.interfacesMap, h.interfacesMap, listedInterfaces_append, addInterfaceNodes_append]
  · rw [h1.metadata, h.metadata, Option.or_assoc, firstComponent_append]
    split
    · rw [Option.map_or]
    · rw [Option.or_none]

end ComponentsDeclared

/-- Adding a component writes one entry, unless the object has one. -/
theorem Process.getComponentMetadata_addComponent {p : Process} {r : ModuleRef} {c : ComponentRef}
    (hr : r < p.modules.length) (r1 : ModuleRef) (C : Uuid) :
    (p.addComponent r c).getComponentMetadata r1 C = (p.getComponentMetadata r1 C).or
      (if r1 = r ∧ C = (p.component c).uuid then some c else none) := by
  unfold getComponentMetadata
  by_cases heq : r1 = r
  · subst heq
    rw [module_addComponent_self hr]
    have hadd := Table.addFirst_apply (p.module r1).moduleComponentMap (p.component c).uuid c C
    simp only [true_and]
    rw [← hadd, Table.addFirst]
    split
    · rfl
    · rfl
  · rw [module_addComponent_ne heq, if_neg (fun h => heq h.1), Option.or_none]

/-- The world after `openComponent`. -/
def World.opened (w : World) (r : ModuleRef) (m : ComponentMetadata) (aliases : AliasContext) :
    World :=
  ⟨{ w.factory with
      registry := w.factory.registry.setModuleUUID m.uuid (w.process.module r).uuid
      aliases := aliases },
    (w.process.newComponentObject m).addComponent r w.process.components.length⟩

/-- Opening a new component, when it has a description. -/
theorem openComponent_run {r : ModuleRef} {elt : XMLElement} {C : Uuid} {text : String} {w : World}
    (htext : elt.attr "description" = some text) :
    ∃ aliases, openComponent r elt C w = (.ok w.process.components.length,
      w.opened r ⟨elt.attributeOrEmpty "name", C, text, []⟩ aliases) := by
  unfold openComponent
  rw [gets_bind_run, XMLElement.attributeString_ok_iff.mpr htext]
  let w1 : World := ⟨{ w.factory with
      registry := w.factory.registry.setModuleUUID C (w.process.module r).uuid },
    w.process.newComponentObject ⟨elt.attributeOrEmpty "name", C, text, []⟩⟩
  obtain ⟨aliases, halias⟩ := declareAutoAlias_run .component (elt.attributeOrEmpty "name") C w1
  refine ⟨aliases, ?_⟩
  show (declareAutoAlias .component (elt.attributeOrEmpty "name") C >>= _) w1 = _
  rw [bind_run_of_ok halias]
  rfl

theorem getComponentMetadata_opened {w : World} {r : ModuleRef} (hr : r < w.process.modules.length)
    (m : ComponentMetadata) (aliases : AliasContext) (r1 : ModuleRef) (C : Uuid) :
    (w.opened r m aliases).process.getComponentMetadata r1 C =
      (w.process.getComponentMetadata r1 C).or
        (if r1 = r ∧ C = m.uuid then some w.process.components.length else none) := by
  have hadd := Process.getComponentMetadata_addComponent (p := w.process.newComponentObject m)
    (c := w.process.components.length) hr r1 C
  rw [Process.component_new] at hadd
  exact hadd

/-- After its interfaces a new component is declared. -/
theorem ComponentsDeclared.of_opened {w w1 : World} {r : ModuleRef} {node : ComponentNode}
    {text : String} {aliases : AliasContext} (hw : w.Allocated)
    (hr : r < w.process.modules.length)
    (hnew : w.factory.registry.componentModuleUUIDMap node.uuid = none)
    (htext : node.description = some text)
    (h : InterfacesDeclared w.process.components.length node.interfaces
      (w.opened r ⟨node.name, node.uuid, text, []⟩ aliases) w1) :
    ComponentsDeclared r [node] w w1 := by
  let m : ComponentMetadata := ⟨node.name, node.uuid, text, []⟩
  let c := w.process.components.length
  obtain ⟨hcomponents, -, hlen⟩ :=
    Process.addComponent_components (w.process.newComponentObject m) r c
  have hlength : w1.process.components.length = c + 1 := by
    rw [h.length]
    show ((w.process.newComponentObject m).addComponent r c).components.length = c + 1
    rw [hcomponents]
    simp [Process.newComponentObject, c]
  have hentry : ∀ r1 C, w1.process.getComponentMetadata r1 C =
      (w.process.getComponentMetadata r1 C).or
        (if r1 = r ∧ C = node.uuid then some c else none) := by
    intro r1 C
    rw [← getComponentMetadata_opened hr m aliases]
    unfold Process.getComponentMetadata Process.module
    rw [h.modules]
  have hold : ∀ c1, c1 < c → w1.process.component c1 = w.process.component c1 := by
    intro c1 hc1
    rw [h.component, if_neg (Nat.ne_of_lt hc1)]
    show ((w.process.newComponentObject m).addComponent r c).component c1 = _
    rw [Process.component_addComponent, Process.component_new_old hc1]
  have hown : w1.process.component c = node.metadata := by
    rw [h.component, if_pos rfl]
    have hmade : (w.opened r m aliases).process.component c = m := by
      show ((w.process.newComponentObject m).addComponent r c).component c = m
      rw [Process.component_addComponent, Process.component_new]
    show ((w.opened r m aliases).process.component c).listing _ = node.metadata
    rw [hmade]
    unfold ComponentNode.metadata
    rw [htext]
    rfl
  have huuid : (w1.process.module r).uuid = (w.process.module r).uuid := by
    have hsame : w1.process.module r = (w.opened r m aliases).process.module r := by
      unfold Process.module
      rw [h.modules]
    rw [hsame]
    exact Process.uuid_addComponent hr
  refine ⟨h.modulesMap, ?_, ?_, ?_, huuid, fun r1 C => ?_,
    ⟨fun r1 C c1 h1 => ?_, fun M r1 h1 => ?_⟩⟩
  · rw [h.moduleUUIDs]
    refine (if_neg ?_).symm
    rw [Table.not_contains_iff.mpr hnew]
    exact Bool.false_ne_true
  · rw [h.interfacesMap]
    show addInterfaceNodes _ _ = addInterfaceNodes _ (node.interfaces ++ [])
    rw [List.append_nil]
    rfl
  · rw [h.modules]
    exact hlen
  · unfold World.metadataIn
    rw [hentry]
    cases hfound : w.process.getComponentMetadata r1 C with
    | some c1 =>
      simp [hold c1 (hw.components r1 C c1 hfound)]
    | none =>
      by_cases hC : r1 = r ∧ C = node.uuid
      · obtain ⟨rfl, rfl⟩ := hC
        simp [firstComponent, hown]
      · rw [if_neg hC]
        by_cases hr1 : r1 = r
        · have hne : ¬ node.uuid = C := fun heq => hC ⟨hr1, heq.symm⟩
          simp [firstComponent, hne]
        · simp [hr1]
  · rw [hlength]
    have h2 : w1.process.getComponentMetadata r1 C = some c1 := h1
    rw [hentry, Option.or_eq_some_iff] at h2
    rcases h2 with hfound | ⟨-, hfound⟩
    · exact Nat.lt_succ_of_lt (hw.components r1 C c1 hfound)
    · split at hfound
      · cases hfound
        exact Nat.lt_succ_self c
      · cases hfound
  · rw [h.modulesMap] at h1
    rw [h.modules]
    show r1 < ((w.process.newComponentObject m).addComponent r c).modules.length
    rw [hlen]
    exact hw.modules M r1 h1

/-- Every new component and every new interface has a description. -/
def ModuleDescribed (t : Table Uuid InterfaceMetadata) (nodes : List ComponentNode) : Prop :=
  (∀ n ∈ nodes, n.description.isSome = true) ∧ Described t (listedInterfaces nodes)

theorem moduleDescribed_append (t : Table Uuid InterfaceMetadata) (l l1 : List ComponentNode) :
    ModuleDescribed t (l ++ l1) ↔
      ModuleDescribed t l ∧ ModuleDescribed (addInterfaceNodes t (listedInterfaces l)) l1 := by
  unfold ModuleDescribed
  rw [List.forall_mem_append, listedInterfaces_append, described_append]
  exact ⟨fun h => ⟨⟨h.1.1, h.2.1⟩, h.1.2, h.2.2⟩, fun h => ⟨⟨h.1.1, h.2.1⟩, h.1.2, h.2.2⟩⟩

theorem moduleDescribed_nil (t : Table Uuid InterfaceMetadata) : ModuleDescribed t [] :=
  ⟨fun _ h => absurd h List.not_mem_nil, described_nil t⟩

theorem moduleDescribed_singleton (t : Table Uuid InterfaceMetadata) (n : ComponentNode) :
    ModuleDescribed t [n] ↔ n.description.isSome = true ∧ Described t n.interfaces := by
  have hlisted : listedInterfaces [n] = n.interfaces := List.append_nil _
  unfold ModuleDescribed
  rw [hlisted, List.forall_mem_singleton]

/-- The node of a component that is not known. -/
theorem readsNodes_newComponent {env : Env} {r : ModuleRef} {elt : XMLElement} {C : Uuid}
    {w : World} (hw : w.Allocated) (hr : r < w.process.modules.length)
    (hnew : w.factory.registry.componentModuleUUIDMap C = none) :
    ReadsNodes (declareNewComponent env r elt C) w
      (readInterfaces env (elt.childElements "interface")).2
      (ModuleDescribed w.factory.registry.interfacesMap [readNewComponent env elt C])
      (ComponentsDeclared r [readNewComponent env elt C] w) := by
  rw [declareNewComponent_eq, moduleDescribed_singleton]
  cases htext : elt.attr "description" with
  | none =>
    unfold openComponent
    rw [XMLElement.attributeString_of_none htext]
    show ¬ _
    rintro ⟨-, hsome, -⟩
    have hnone : (readNewComponent env elt C).description = none := htext
    rw [hnone] at hsome
    cases hsome
  | some text =>
    have hsome : (readNewComponent env elt C).description = some text := htext
    obtain ⟨aliases, hopen⟩ := openComponent_run (r := r) (C := C) (w := w) htext
    refine (Ends.bind_of_ok hopen).mpr ?_
    have hc : w.process.components.length < (w.opened r
        ⟨elt.attributeOrEmpty "name", C, text, []⟩ aliases).process.components.length := by
      show _ < ((w.process.newComponentObject _).addComponent r _).components.length
      rw [(Process.addComponent_components ..).1]
      simp [Process.newComponentObject]
    refine (readsNodes_interfaces (elt.childElements "interface") hc).congr ?_ fun w1 h => ?_
    · rw [hsome]
      exact ⟨fun h => ⟨rfl, h⟩, fun h => h.2⟩
    · exact ComponentsDeclared.of_opened hw hr hnew hsome h

theorem declareComponent_eq {env : Env} (r : ModuleRef) {elt : XMLElement} {C : Uuid}
    (hC : env.toUUID (elt.attributeOrEmpty "uuid") = some C) :
    declareComponent env r elt = rethrowXpcf (namedErrorMessage "component" elt true) (do
      let known ← gets fun w => w.factory.registry.componentModuleUUIDMap.contains C
      if known then pure () else declareNewComponent env r elt C) := by
  unfold declareComponent
  rw [uuidOfAttribute_of_some hC]
  rfl

/-- The node of a component that is known is passed over. -/
theorem readsNodes_knownComponent {env : Env} (r : ModuleRef) {elt : XMLElement} {C : Uuid}
    {w : World} (hC : env.toUUID (elt.attributeOrEmpty "uuid") = some C)
    (hknown : w.factory.registry.componentModuleUUIDMap.contains C = true) :
    ReadsNodes (declareComponent env r elt) w true True (fun w1 => w1 = w) := by
  rw [declareComponent_eq r hC]
  refine ReadsNodes.rethrow _ ?_
  show ReadsNodes (if w.factory.registry.componentModuleUUIDMap.contains C then _ else _) w _ _ _
  rw [if_pos hknown]
  exact ⟨rfl, trivial, rfl⟩

theorem readsNodes_declareComponent {env : Env} {r : ModuleRef} {elt : XMLElement} {C : Uuid}
    {w : World} (hw : w.Allocated) (hr : r < w.process.modules.length)
    (hC : env.toUUID (elt.attributeOrEmpty "uuid") = some C)
    (hnew : w.factory.registry.componentModuleUUIDMap.contains C = false) :
    ReadsNodes (declareComponent env r elt) w
      (readInterfaces env (elt.childElements "interface")).2
      (ModuleDescribed w.factory.registry.interfacesMap [readNewComponent env elt C])
      (ComponentsDeclared r [readNewComponent env elt C] w) := by
  rw [declareComponent_eq r hC]
  refine ReadsNodes.rethrow _ ?_
  show ReadsNodes (if w.factory.registry.componentModuleUUIDMap.contains C then _ else _) w _ _ _
  rw [if_neg (Bool.eq_false_iff.mp hnew)]
  exact readsNodes_newComponent hw hr (Table.not_contains_iff.mp hnew)

/-- The component nodes of a module. -/
theorem readsNodes_components {env : Env} {r : ModuleRef} (elts : List XMLElement) {w : World}
    (hw : w.Allocated) (hr : r < w.process.modules.length) :
    let read := readComponents env w.factory.registry.componentModuleUUIDMap.contains elts
    ReadsNodes (forEach (declareComponent env r) elts) w read.2
      (ModuleDescribed w.factory.registry.interfacesMap read.1)
      (ComponentsDeclared r read.1 w) := by
  induction elts generalizing w with
  | nil => exact ⟨rfl, moduleDescribed_nil _, ComponentsDeclared.refl r hw⟩
  | cons elt rest ih =>
    cases hC : env.toUUID (elt.attributeOrEmpty "uuid") with
    | none =>
      simp only [readComponents, hC]
      refine ((readsNodes_malformed hC w _).stop _).congr ?_ ?_
      · exact ⟨fun _ => moduleDescribed_nil _, fun _ => trivial⟩
      · intro w1 heq
        rw [heq]
        exact ComponentsDeclared.refl r hw
    | some C =>
      cases hknown : w.factory.registry.componentModuleUUIDMap.contains C with
      | true =>
        simp only [readComponents, hC, hknown, if_true]
        refine ((readsNodes_knownComponent r hC hknown).seq fun w1 heq => ?_).congr
          (iff_of_eq (true_and _)) fun _ h => h
        rw [heq]
        exact ih hw hr
      | false =>
        have hfirst := readsNodes_declareComponent hw hr hC hknown
        cases hread : (readInterfaces env (elt.childElements "interface")).2 with
        | false =>
          simp only [readComponents, hC, hknown, hread, Bool.false_eq_true, if_false]
          rw [hread] at hfirst
          exact hfirst.stop _
        | true =>
          simp only [readComponents, hC, hknown, hread, Bool.false_eq_true, if_false, if_true]
          rw [hread] at hfirst
          let node := readNewComponent env elt C
          have hrest : ∀ w1, ComponentsDeclared r [node] w w1 →
              let read := readComponents env
                (see w.factory.registry.componentModuleUUIDMap.contains C) rest
              ReadsNodes (forEach (declareComponent env r) rest) w1 read.2
                (ModuleDescribed (addInterfaceNodes w.factory.registry.interfacesMap
                  (listedInterfaces [node])) read.1)
                (ComponentsDeclared r (node :: read.1) w) := by
            intro w1 h1
            have hsee : w1.factory.registry.componentModuleUUIDMap.contains =
                see w.factory.registry.componentModuleUUIDMap.contains C := by
              rw [h1.moduleUUIDs, ← Table.contains_insert]
              refine congrArg Table.contains (if_neg ?_)
              exact Bool.eq_false_iff.mp hknown
            rw [← hsee, ← h1.interfacesMap]
            refine (ih h1.allocated ?_).congr Iff.rfl fun w2 h2 => h1.trans h2
            rw [h1.length]
            exact hr
          exact (hfirst.seq hrest).congr (moduleDescribed_append _ [node] _).symm fun _ h => h

/-! ## Modules -/

/-- The module has been declared: its components are in a new object, which is
registered unless the UUID of the module was. -/
structure ModuleDeclared (M : Uuid) (nodes : List ComponentNode) (w w1 : World) : Prop where
  modulesMap : w1.factory.registry.modulesMap =
    w.factory.registry.modulesMap.addFirst M w.process.modules.length
  moduleUUIDs : w1.factory.registry.componentModuleUUIDMap =
    w.factory.registry.componentModuleUUIDMap.addAllFirst (nodes.map fun n => (n.uuid, M))
  interfacesMap : w1.factory.registry.interfacesMap =
    addInterfaceNodes w.factory.registry.interfacesMap (listedInterfaces nodes)
  length : w1.process.modules.length = w.process.modules.length + 1
  metadata : ∀ r C, w1.metadataIn r C = (w.metadataIn r C).or
    (if r = w.process.modules.length then (firstComponent nodes C).map (·.metadata) else none)
  allocated : w1.Allocated

/-- The component nodes of a module that is declared in the world. -/
def World.readModule (env : Env) (w : World) (elt : XMLElement) : List ComponentNode × Bool :=
  readComponents env w.factory.registry.componentModuleUUIDMap.contains
    (elt.childElements "component")

/-- A module node with a malformed UUID. -/
theorem readsNodes_malformedModule {env : Env} {elt : XMLElement} (w : World)
    (hnone : env.toUUID (elt.attributeOrEmpty "uuid") = none) :
    ReadsNodes (declareModule env elt) w false True (fun w1 => w1 = w) :=
  readsNodes_malformed hnone w _

/-- A module node with a well-formed UUID. -/
theorem readsNodes_declareModule {env : Env} {elt : XMLElement} {M : Uuid} {w : World}
    (hw : w.Allocated) (hM : env.toUUID (elt.attributeOrEmpty "uuid") = some M) :
    ReadsNodes (declareModule env elt) w (w.readModule env elt).2
      (ModuleDescribed w.factory.registry.interfacesMap (w.readModule env elt).1)
      (ModuleDeclared M (w.readModule env elt).1 w) := by
  unfold World.readModule
  let m := makeModuleMetadata env (elt.attributeOrEmpty "name") M
    (elt.attributeOrEmpty "description") (elt.attr "path")
  let r := w.process.modules.length
  let ctx := w.factory.registry
  let w1 : World := ⟨{ w.factory with
    registry := if ctx.modulesMap.contains M then ctx else ctx.addModuleMetadata M r },
    w.process.addModule m⟩
  have hopen : openModule env elt M w = (.ok r, w1) := rfl
  have hrun : declareModule env elt = rethrowXpcf (namedErrorMessage "module" elt true) (do
      let moduleInfo ← openModule env elt M
      processXmlNode elt "component" (declareComponent env moduleInfo)) := by
    rw [declareModule_eq, uuidOfAttribute_of_some hM]
    rfl
  rw [hrun]
  refine ReadsNodes.rethrow _ ((Ends.bind_of_ok hopen).mpr ?_)
  have hregistry : w1.factory.registry.modulesMap = ctx.modulesMap.addFirst M r ∧
      w1.factory.registry.componentModuleUUIDMap = ctx.componentModuleUUIDMap ∧
      w1.factory.registry.interfacesMap = ctx.interfacesMap := by
    show (ite _ ctx (ctx.addModuleMetadata M r)).modulesMap = _ ∧
      (ite _ ctx (ctx.addModuleMetadata M r)).componentModuleUUIDMap = _ ∧
      (ite _ ctx (ctx.addModuleMetadata M r)).interfacesMap = _
    unfold RegistryContext.addModuleMetadata Table.addFirst
    split
    · exact ⟨rfl, rfl, rfl⟩
    · exact ⟨rfl, rfl, rfl⟩
  obtain ⟨hmodules, huuids, hinterfaces⟩ := hregistry
  have hmap : ∀ r1, (w1.process.module r1).moduleComponentMap =
      (w.process.module r1).moduleComponentMap := fun r1 =>
    (Process.module_addModule ⟨rfl, rfl⟩ r1).1
  have hlength : w1.process.modules.length = w.process.modules.length + 1 := by
    simp [w1, Process.addModule]
  have hallocated : w1.Allocated := by
    refine ⟨fun r1 C c h => ?_, fun M1 r1 h => ?_⟩
    · rw [hmap] at h
      exact hw.components r1 C c h
    · rw [hlength]
      rw [hmodules, Table.addFirst_apply, Option.or_eq_some_iff] at h
      rcases h with hold | ⟨-, hnew⟩
      · exact Nat.lt_succ_of_lt (hw.modules M1 r1 hold)
      · split at hnew
        · cases hnew
          exact Nat.lt_succ_self r
        · cases hnew
  have hmodule : (w1.process.module r).uuid = M := by
    show ((w.process.addModule m).module w.process.modules.length).uuid = M
    rw [Process.module_addModule_new]
    rfl
  have hr : r < w1.process.modules.length := by
    rw [hlength]
    exact Nat.lt_succ_self r
  have hcomponents : ReadsNodes
      (forEach (declareComponent env r) (elt.childElements "component")) w1 _ _ _ :=
    readsNodes_components _ hallocated hr
  rw [huuids] at hcomponents
  refine hcomponents.congr (by rw [hinterfaces]) fun w2 h2 =>
    ⟨?_, ?_, ?_, ?_, fun r1 C => ?_, h2.allocated⟩
  · rw [h2.modulesMap, hmodules]
  · rw [h2.moduleUUIDs, huuids, hmodule]
  · rw [h2.interfacesMap, hinterfaces]
  · rw [h2.length, hlength]
  · have hsame : w1.metadataIn r1 C = w.metadataIn r1 C := by
      unfold World.metadataIn Process.getComponentMetadata
      rw [hmap]
      rfl
    rw [h2.metadata, hsame]

end Xpcf
