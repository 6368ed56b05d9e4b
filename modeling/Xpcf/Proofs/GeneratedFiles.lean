import Xpcf.Model.ConfigGenerator

/-!
# The documents that the generator writes

What is written between the start and the end of a block reads back as the
children of an element.  So each of the four files is one document, and its
tree is known.
-/

namespace Xpcf.GrpcGen

/-! ## Reading what was written -/

namespace ReaderState

theorem add_nil (s : ReaderState) : s.add [] = s := by
  unfold add
  split
  · rw [List.append_nil]
  · rename_i e rest h
    rw [List.append_nil, ← h]

theorem add_add (s : ReaderState) (elts elts1 : List XMLElement) :
    (s.add elts).add elts1 = s.add (elts ++ elts1) := by
  obtain ⟨opened, top⟩ := s
  cases opened with
  | nil => simp [add]
  | cons e rest => simp [add]

theorem readAll_append (lines lines1 : List XmlLine) (s : ReaderState) :
    readAll (lines ++ lines1) s = (readAll lines s).bind (readAll lines1) := by
  induction lines generalizing s with
  | nil => rfl
  | cons line rest ih =>
    rw [List.cons_append, readAll, readAll]
    cases s.read line with
    | none => rfl
    | some s1 => exact ih s1

/-- The lines of a block are read as one element. -/
theorem readAll_block {name : String} {attributes : List (String × String)}
    {lines : List XmlLine} {elts : List XMLElement}
    (h : ∀ s, readAll lines s = some (s.add elts)) (s : ReaderState) :
    readAll (.start name attributes :: lines ++ [.finish name]) s =
      some (s.add [.mk name attributes none elts]) := by
  rw [List.cons_append, readAll, read, Option.bind_some, readAll_append, h, Option.bind_some]
  simp [readAll, read, add]

end ReaderState

/-- `write` adds lines that read back as `elts`, and closes what it opens. -/
def Emits (write : XmlBlockManager → XmlBlockManager) (elts : List XMLElement) : Prop :=
  ∃ lines, (∀ m, (write m).lines = m.lines ++ lines ∧
      (write m).blockNameStack = m.blockNameStack) ∧
    ∀ s, ReaderState.readAll lines s = some (s.add elts)

namespace XmlBlockManager

@[simp] theorem lines_write (m : XmlBlockManager) (line : XmlLine) :
    (m.write line).lines = m.lines ++ [line] := by
  simp [lines, write]

@[simp] theorem lines_enter (m : XmlBlockManager) (name : String)
    (attributes : List (String × String)) :
    (m.enter name attributes).lines = m.lines ++ [.start name attributes] := by
  simp [lines, enter, write]

@[simp] theorem blockNameStack_enter (m : XmlBlockManager) (name : String)
    (attributes : List (String × String)) :
    (m.enter name attributes).blockNameStack = name :: m.blockNameStack := rfl

theorem leave_of_stack {m : XmlBlockManager} {name : String} {rest : List String}
    (h : m.blockNameStack = name :: rest) :
    m.leave.lines = m.lines ++ [.finish name] ∧ m.leave.blockNameStack = rest := by
  unfold leave
  rw [h]
  simp [leaveNode, write, lines]

end XmlBlockManager

namespace Emits

open XmlBlockManager

theorem id : Emits id [] :=
  ⟨[], fun m => ⟨(List.append_nil _).symm, rfl⟩, fun s => by rw [s.add_nil]; rfl⟩

theorem node (name : String) (attributes : List (String × String)) :
    Emits (fun m => m.node name attributes) [.mk name attributes none []] :=
  ⟨[.node name attributes], fun m => ⟨m.lines_write _, rfl⟩, fun _ => rfl⟩

theorem addValue (text : String) :
    Emits (fun m => m.addValue text) [.mk "value" [] (some text) []] :=
  ⟨[.value text], fun m => ⟨m.lines_write _, rfl⟩, fun _ => rfl⟩

theorem comp {f g : XmlBlockManager → XmlBlockManager} {elts elts1 : List XMLElement}
    (hf : Emits f elts) (hg : Emits g elts1) : Emits (fun m => g (f m)) (elts ++ elts1) := by
  obtain ⟨lines, hwrite, hread⟩ := hf
  obtain ⟨lines1, hwrite1, hread1⟩ := hg
  refine ⟨lines ++ lines1, fun m => ⟨?_, ?_⟩, fun s => ?_⟩
  · rw [(hwrite1 (f m)).1, (hwrite m).1, List.append_assoc]
  · rw [(hwrite1 (f m)).2, (hwrite m).2]
  · rw [ReaderState.readAll_append, hread, Option.bind_some, hread1, s.add_add]

theorem foldl {α : Type} {f : XmlBlockManager → α → XmlBlockManager} {elt : α → XMLElement}
    (hf : ∀ a, Emits (fun m => f m a) [elt a]) (l : List α) :
    Emits (fun m => l.foldl f m) (l.map elt) := by
  induction l with
  | nil => exact id
  | cons a rest ih => exact (hf a).comp ih

theorem block {body : XmlBlockManager → XmlBlockManager} {elts : List XMLElement}
    (h : Emits body elts) (name : String) (attributes : List (String × String)) :
    Emits (XmlBlockManager.block name attributes body) [.mk name attributes none elts] := by
  obtain ⟨lines, hwrite, hread⟩ := h
  refine ⟨.start name attributes :: lines ++ [.finish name], fun m => ?_,
    ReaderState.readAll_block hread⟩
  have hbody := hwrite (m.enter name attributes)
  have hleave := leave_of_stack (hbody.2.trans (m.blockNameStack_enter name attributes))
  refine ⟨?_, hleave.2⟩
  unfold XmlBlockManager.block
  rw [hleave.1, hbody.1, lines_enter]
  simp

end Emits

/-! ## Whole documents -/

/-- The root is open and nothing else, and what it holds reads as `elts`. -/
def OpenDocument (root : String) (elts : List XMLElement) (m : XmlBlockManager) : Prop :=
  m.blockNameStack = [root] ∧ ∃ lines, m.lines = .declaration :: .start root [] :: lines ∧
    ∀ s, ReaderState.readAll lines s = some (s.add elts)

namespace OpenDocument

open XmlBlockManager

/-- The root is opened without its attributes. -/
theorem xmlOpenRootNode (root : String) (attributes : List (String × String)) :
    OpenDocument root [] (XmlBlockManager.new.xmlOpenRootNode root attributes) :=
  ⟨rfl, [], rfl, fun s => by rw [s.add_nil]; rfl⟩

theorem emit {root : String} {elts elts1 : List XMLElement} {m : XmlBlockManager}
    {write : XmlBlockManager → XmlBlockManager} (h : OpenDocument root elts m)
    (hwrite : Emits write elts1) : OpenDocument root (elts ++ elts1) (write m) := by
  obtain ⟨hstack, lines, hlines, hread⟩ := h
  obtain ⟨lines1, hwrite1, hread1⟩ := hwrite
  refine ⟨(hwrite1 m).2.trans hstack, lines ++ lines1, ?_, fun s => ?_⟩
  · rw [(hwrite1 m).1, hlines]
    rfl
  · rw [ReaderState.readAll_append, hread, Option.bind_some, hread1, s.add_add]

theorem readDocument_release {root : String} {elts : List XMLElement} {m : XmlBlockManager}
    (h : OpenDocument root elts m) :
    readDocument m.release.lines = some (.mk root [] none elts) := by
  obtain ⟨hstack, lines, hlines, hread⟩ := h
  have hrelease : m.release.lines = m.lines ++ [.finish root] := by
    unfold release
    rw [hstack]
    exact (leave_of_stack hstack).1
  have hall : ReaderState.readAll m.release.lines ⟨[], []⟩ =
      some (ReaderState.add ⟨[], []⟩ [.mk root [] none elts]) := by
    rw [hrelease, hlines]
    exact ReaderState.readAll_block hread ⟨[], []⟩
  unfold readDocument
  rw [hall]
  rfl

end OpenDocument

/-! ## The four trees -/

/-- The names of the components made for an interface. -/
def proxyName (c : ClassDescriptor) : String := c.name ++ "_grpcProxy"

def serverName (c : ClassDescriptor) : String := c.name ++ "_grpcServer"

def componentTree (uuid : Uuid) (name : String) (interfaceAttributes : List (String × String)) :
    XMLElement :=
  .mk "component" [("uuid", uuid.toString), ("name", name), ("description", name)] none
    [.mk "interface" introspectAttributes none [], .mk "interface" interfaceAttributes none []]

def configureTree (component property : String) (values : List String) : XMLElement :=
  .mk "configure" [("component", component)] none
    [.mk "property" [("name", property), ("type", "string")] none
      (values.map fun text => .mk "value" [] (some text) [])]

def proxyConfigure (c : ClassDescriptor) : XMLElement :=
  configureTree (proxyName c) "grpc_compress_proxy" (proxyCompressionValues c)

def serverConfigure (c : ClassDescriptor) : XMLElement :=
  configureTree (serverName c) "grpc_compress_server" (serverCompressionValues c)

def bindTree (interfaces : List ClassDescriptor) : XMLElement :=
  .mk "bind" [("interface", "org::bcom::xpcf::IGrpcService")] none
    (interfaces.map fun c => .mk "component" [("to", serverName c)] none [])

def clientRegistry (metadata : Metadata) (interfaces : List ClassDescriptor) : XMLElement :=
  .mk "xpcf-registry" [] none
    [.mk "module" (moduleAttributes metadata) none (interfaces.map fun c =>
      componentTree c.clientUUID (proxyName c) (traitAttributes c.xpcfTrait))]

def serverRegistry (metadata : Metadata) (interfaces : List ClassDescriptor) : XMLElement :=
  .mk "xpcf-registry" [] none
    [.mk "module" (moduleAttributes metadata) none (interfaces.map fun c =>
      componentTree c.serverUUID (serverName c) grpcServiceAttributes),
      .mk "factory" [] none [.mk "bindings" [] none [bindTree interfaces]]]

def propertiesFile (configures : List XMLElement) : XMLElement :=
  .mk "xpcf-configuration" [] none [.mk "properties" [] none configures]

theorem emits_writeComponent (uuid : Uuid) (name : String)
    (interfaceAttributes : List (String × String)) :
    Emits (writeComponent uuid name interfaceAttributes)
      [componentTree uuid name interfaceAttributes] :=
  ((Emits.node "interface" introspectAttributes).comp
    (Emits.node "interface" interfaceAttributes)).block "component" _

theorem emits_writeConfigure (component property : String) (values : List String) :
    Emits (writeConfigure component property values)
      [configureTree component property values] :=
  ((Emits.foldl Emits.addValue values).block "property" _).block "configure" _

theorem emits_writeBindings (interfaces : List ClassDescriptor) :
    Emits (writeBindings (interfaces.map serverName))
      [.mk "factory" [] none [.mk "bindings" [] none [bindTree interfaces]]] := by
  have hnodes := Emits.foldl (fun bind => Emits.node "component" [("to", bind)])
    (interfaces.map serverName)
  rw [List.map_map] at hnodes
  exact ((hnodes.block "bind" _).block "bindings" []).block "factory" []

/-- What the loop over the interfaces does to each file. -/
theorem foldl_process (interfaces : List ClassDescriptor) (g : ConfigGenerator)
    (metadata : Metadata) :
    (interfaces.foldl ConfigGenerator.process (g, metadata)).1 =
      { xmlClientMgr := interfaces.foldl (fun m c => writeComponent c.clientUUID (proxyName c)
          (traitAttributes c.xpcfTrait) m) g.xmlClientMgr
        xmlServerMgr := interfaces.foldl (fun m c => writeComponent c.serverUUID (serverName c)
          grpcServiceAttributes m) g.xmlServerMgr
        xmlClientPropsMgr := interfaces.foldl (fun m c => writeConfigure (proxyName c)
          "grpc_compress_proxy" (proxyCompressionValues c) m) g.xmlClientPropsMgr
        xmlServerPropsMgr := interfaces.foldl (fun m c => writeConfigure (serverName c)
          "grpc_compress_server" (serverCompressionValues c) m) g.xmlServerPropsMgr
        grpcComponentBinds := g.grpcComponentBinds ++ interfaces.map serverName } := by
  induction interfaces generalizing g metadata with
  | nil => simp
  | cons c rest ih =>
    rw [List.foldl_cons, ConfigGenerator.process, ih, ConfigGenerator.generateImpl]
    simp [List.append_assoc, serverName, proxyName, serverMetadata, proxyMetadata]

theorem release_of_stack {m : XmlBlockManager} {name : String} {rest : List String}
    (h : m.blockNameStack = name :: rest) : m.release = m.leave.release := by
  unfold XmlBlockManager.release
  rw [h, (XmlBlockManager.leave_of_stack h).2]
  rfl

/-- A properties file is the block of its configurations. -/
theorem readDocument_properties {write : XmlBlockManager → ClassDescriptor → XmlBlockManager}
    {configure : ClassDescriptor → XMLElement} (h : ∀ c, Emits (fun m => write m c) [configure c])
    (interfaces : List ClassDescriptor) :
    readDocument (interfaces.foldl write openProperties).release.lines =
      some (propertiesFile (interfaces.map configure)) := by
  have hfold := Emits.foldl h interfaces
  have hstack : (interfaces.foldl write openProperties).blockNameStack =
      ["properties", "xpcf-configuration"] := by
    obtain ⟨_, hwrite, _⟩ := hfold
    exact (hwrite openProperties).2
  rw [release_of_stack hstack]
  exact ((OpenDocument.xmlOpenRootNode "xpcf-configuration" _).emit
    (hfold.block "properties" [])).readDocument_release

section Files

variable (metadata : Metadata) (interfaces : List ClassDescriptor)

theorem readDocument_client :
    readDocument (generateConfigs metadata interfaces).xmlClientMgr.lines =
      some (clientRegistry metadata interfaces) := by
  unfold generateConfigs ConfigGenerator.finalizeImpl
  rw [foldl_process]
  have hfold := Emits.foldl (fun c : ClassDescriptor =>
    emits_writeComponent c.clientUUID (proxyName c) (traitAttributes c.xpcfTrait)) interfaces
  exact ((OpenDocument.xmlOpenRootNode "xpcf-registry" _).emit
    (hfold.block "module" (moduleAttributes metadata))).readDocument_release

theorem readDocument_server :
    readDocument (generateConfigs metadata interfaces).xmlServerMgr.lines =
      some (serverRegistry metadata interfaces) := by
  unfold generateConfigs ConfigGenerator.finalizeImpl
  rw [foldl_process]
  have hfold := Emits.foldl (fun c : ClassDescriptor =>
    emits_writeComponent c.serverUUID (serverName c) grpcServiceAttributes) interfaces
  exact (((OpenDocument.xmlOpenRootNode "xpcf-registry" _).emit
    (hfold.block "module" (moduleAttributes metadata))).emit
      (emits_writeBindings interfaces)).readDocument_release

theorem readDocument_clientProps :
    readDocument (generateConfigs metadata interfaces).xmlClientPropsMgr.lines =
      some (propertiesFile (interfaces.map proxyConfigure)) := by
  unfold generateConfigs ConfigGenerator.finalizeImpl
  rw [foldl_process]
  exact readDocument_properties (fun c => emits_writeConfigure (proxyName c) _ _) interfaces

theorem readDocument_serverProps :
    readDocument (generateConfigs metadata interfaces).xmlServerPropsMgr.lines =
      some (propertiesFile (interfaces.map serverConfigure)) := by
  unfold generateConfigs ConfigGenerator.finalizeImpl
  rw [foldl_process]
  exact readDocument_properties (fun c => emits_writeConfigure (serverName c) _ _) interfaces

end Files

end Xpcf.GrpcGen
