import Xpcf.Model.RemoteComponents
import Xpcf.Proofs.Configuring
import Xpcf.Proofs.GeneratedFiles
import Xpcf.Proofs.RpcNames

/-!
# The properties of the generated components

The properties file of an interface always has values for the compression of its
component, one for the service and one for each method.  The component declares
a sequence of that length, unless the class has `[[grpc::noCompression]]`: then
it does not declare the property at all.

* `NodeFits`: what a configure node may name and how many values it may carry;
* `configure_nodes_fit_iff`: the nodes of an interface fit its components exactly
  when its class has no such attribute.
-/

namespace Xpcf

open CodeLib CodeLib.Exec

/-- The number of values that a property takes. -/
def Property.capacity : Property → Nat
  | .value _ _ _ (.single _) => 1
  | .value _ _ _ (.sequence vs) => vs.length
  | .struct _ _ _ => 0
  | .structs _ _ _ => 0

/-- The node names properties of the component, with no more values than they
take, and the component can be configured with it. -/
structure NodeFits (floats : FloatText) (configureElt : XMLElement) (component : PropertyMap) :
    Prop where
  declared : ∀ propertyElt ∈ configureElt.childElements "property", ∃ p ∈ component.properties,
    p.name = propertyElt.attributeOrEmpty "name" ∧
      (propertyElt.childElements "value").length ≤ p.capacity
  configured : ∃ component1, Succeeds (configureElement floats configureElt) component component1

/-! ## Values for a sequence of strings -/

theorem setText_charStr (floats : FloatText) (text : String) {index : Nat} {vs : List String}
    (h : index < vs.length) :
    setText floats text index .charStr (.sequence vs) =
      (.ok 0, .sequence (vs.set index (cString text))) := by
  have hset : setStringValue index (cString text) (.sequence vs) =
      (.ok (), .sequence (vs.set index (cString text))) := if_pos h
  exact bind_run_of_ok hset

/-- Texts that are not empty fill a sequence that is long enough.  The index has
32 bits, so it never exceeds the position. -/
theorem succeeds_configureStrings {floats : FloatText} {name : String} {access : AccessSpecifier}
    {texts : List String} (htexts : ∀ text ∈ texts, text ≠ "") (position : Nat) {index : Nat}
    (hindex : index ≤ position) {vs : List String} (h : position + texts.length ≤ vs.length) :
    ∃ r, Succeeds (configureValues floats
        (texts.map fun text => .mk "value" [] (some text) []) index)
      (.value name access .charStr (.sequence vs)) r := by
  induction texts generalizing position index vs with
  | nil => exact ⟨_, succeeds_success.mpr rfl⟩
  | cons text texts ih =>
    rw [List.length_cons] at h
    have hset := setText_charStr floats text (show index < vs.length by omega)
    have hfirst : Succeeds (configureValue floats text index)
        (.value name access .charStr (.sequence vs))
        (.value name access .charStr (.sequence (vs.set index (cString text)))) :=
      succeeds_configureValue_iff.mpr
        ⟨htexts text List.mem_cons_self, 0, _, hset, .inr rfl, rfl⟩
    have hnext : (index + 1) % 2 ^ 32 ≤ position + 1 :=
      (Nat.mod_le _ _).trans (Nat.succ_le_succ hindex)
    have hlength : position + 1 + texts.length ≤ (vs.set index (cString text)).length := by
      rw [List.length_set]
      omega
    obtain ⟨r, hrest⟩ := ih (fun t ht => htexts t (List.mem_cons_of_mem _ ht)) (position + 1) hnext
      hlength
    exact ⟨r, succeeds_then_iff.mpr ⟨_, hfirst, hrest⟩⟩

namespace GrpcGen

/-! ## The nodes of an interface -/

/-- The configure nodes of a properties file. -/
def configureNodes (file : XmlBlockManager) : List XMLElement :=
  match readDocument file.lines with
  | some rootElt =>
    (rootElt.childElements "properties").flatMap fun propsElt => propsElt.childElements "configure"
  | none => []

theorem configureNodes_of_readDocument {file : XmlBlockManager} {configures : List XMLElement}
    (h : readDocument file.lines = some (propertiesFile configures))
    (hconfigures : ∀ elt ∈ configures, elt.value = "configure") :
    configureNodes file = configures := by
  unfold configureNodes
  rw [h]
  show (XMLElement.mk "properties" [] none configures).childElements "configure" ++ [] = configures
  rw [List.append_nil]
  exact List.filter_eq_self.mpr fun elt helt => decide_eq_true (hconfigures elt helt)

section Nodes

variable (metadata : Metadata) (interfaces : List ClassDescriptor)

theorem configureNodes_client :
    configureNodes (generateConfigs metadata interfaces).xmlClientPropsMgr =
      interfaces.map proxyConfigure := by
  refine configureNodes_of_readDocument (readDocument_clientProps metadata interfaces) ?_
  intro elt helt
  obtain ⟨c, _, rfl⟩ := List.mem_map.mp helt
  rfl

theorem configureNodes_server :
    configureNodes (generateConfigs metadata interfaces).xmlServerPropsMgr =
      interfaces.map serverConfigure := by
  refine configureNodes_of_readDocument (readDocument_serverProps metadata interfaces) ?_
  intro elt helt
  obtain ⟨c, _, rfl⟩ := List.mem_map.mp helt
  rfl

end Nodes

/-- The nodes that a run of the generator writes for interface number `i` fit the
components that are generated for it. -/
structure ConfigureNodesFit (floats : FloatText) (channelCredentials : BitVec 32)
    (files : ConfigGenerator) (i : Nat) (c : ClassDescriptor) : Prop where
  proxy : ∃ node, (configureNodes files.xmlClientPropsMgr)[i]? = some node ∧
    NodeFits floats node (ProxyGenerator.properties c channelCredentials)
  server : ∃ node, (configureNodes files.xmlServerPropsMgr)[i]? = some node ∧
    NodeFits floats node (ServerGenerator.properties c)

theorem childElements_configureTree (component property : String) (values : List String) :
    (configureTree component property values).childElements "property" =
      [.mk "property" [("name", property), ("type", "string")] none
        (values.map fun text => .mk "value" [] (some text) [])] := rfl

theorem childElements_values (attributes : List (String × String)) (values : List String) :
    (XMLElement.mk "property" attributes none
      (values.map fun text => .mk "value" [] (some text) [])).childElements "value" =
        values.map fun text => .mk "value" [] (some text) [] := by
  refine List.filter_eq_self.mpr fun elt helt => ?_
  obtain ⟨text, _, rfl⟩ := List.mem_map.mp helt
  rfl

/-- A node whose property the component does not declare. -/
theorem not_nodeFits {floats : FloatText} {component property : String} {values : List String}
    {ps : List Property} (h : ∀ p ∈ ps, p.name ≠ property) :
    ¬ NodeFits floats (configureTree component property values) (.mk ps) := by
  intro hfits
  obtain ⟨p, hp, hname, _⟩ := hfits.declared _ List.mem_cons_self
  exact h p hp hname

/-- A node whose property is a sequence of strings with room for its values. -/
theorem nodeFits_of_sequence {floats : FloatText} {component property : String}
    {values : List String} (before : List Property) {access : AccessSpecifier} {vs : List String}
    (hname : property ≠ "") (hbefore : ∀ p ∈ before, p.name ≠ property)
    (hvalues : ∀ text ∈ values, text ≠ "") (hlength : values.length ≤ vs.length) :
    NodeFits floats (configureTree component property values)
      (.mk (before ++ [.value property access .charStr (.sequence vs)])) := by
  let propertyElt := XMLElement.mk "property" [("name", property), ("type", "string")] none
    (values.map fun text => .mk "value" [] (some text) [])
  refine ⟨fun elt helt => ?_, ?_⟩
  · rw [childElements_configureTree] at helt
    obtain rfl := List.mem_singleton.mp helt
    refine ⟨_, List.mem_append_right _ List.mem_cons_self, rfl, ?_⟩
    rw [childElements_values, List.length_map]
    exact hlength
  · have htype : propertyElt.attr "type" = some ValueType.charStr.toStr := rfl
    have hnode : propertyElt.childElements "value" =
        values.map fun text => .mk "value" [] (some text) [] := childElements_values _ values
    have hroom : 0 + values.length ≤ vs.length := by omega
    have hfound : ∃ r, Succeeds (configureFoundProperty floats propertyElt
        (configureChildren floats propertyElt.children))
        (.value property access .charStr (.sequence vs)) r := by
      simp only [succeeds_valueNode_iff htype]
      rw [hnode]
      exact succeeds_configureStrings hvalues 0 (Nat.le_refl 0) hroom
    obtain ⟨r, hfound⟩ := hfound
    have hproperty : Succeeds (configureProperty floats propertyElt)
        (before ++ [.value property access .charStr (.sequence vs)]) (before ++ [r]) :=
      succeeds_configureProperty_iff.mpr
        ⟨hname, (succeeds_onProperty_append_iff hbefore rfl).mpr ⟨r, hfound, rfl⟩⟩
    refine ⟨.mk (before ++ [r]), succeeds_onProperties_iff.mpr ⟨_, _, rfl, ?_, rfl⟩⟩
    show Succeeds (configureChildren floats [propertyElt]) _ _
    rw [configureChildren_property rfl, succeeds_then_iff]
    refine ⟨_, hproperty, ?_⟩
    rw [configureChildren_nil]
    exact succeeds_success.mpr rfl

/-! ## The attribute -/

/-- `[[grpc::noCompression]]`. -/
def isNoCompression (attrib : CppAttribute) : Bool :=
  attrib.scope == some "grpc" && attrib.name == "noCompression"

theorem readAttribute_compressionDisabled {env : Env} {c c1 : ClassDescriptor}
    {attrib : CppAttribute} (h : ClassDescriptor.readAttribute env c attrib = .ok c1) :
    c1.compressionDisabled = (c.compressionDisabled || isNoCompression attrib) := by
  unfold ClassDescriptor.readAttribute at h
  unfold isNoCompression
  split at h
  · rename_i hscope _ _
    obtain ⟨uuid, -, hc1⟩ := bind_eq_ok.mp h
    cases hc1
    simp [hscope]
  · rename_i hscope _ _
    obtain ⟨uuid, -, hc1⟩ := bind_eq_ok.mp h
    cases hc1
    simp [hscope]
  · rename_i hscope hname
    cases h
    simp [hscope, hname]
  · rename_i hother _ _
    cases h
    have hno : ¬ (attrib.scope = some "grpc" ∧ attrib.name = "noCompression") :=
      fun hboth => hother hboth.1 hboth.2
    simp only [Bool.eq_self_or, Bool.and_eq_true, beq_iff_eq]
    exact fun hboth => absurd hboth hno

theorem readAttributes_compressionDisabled {env : Env} {attributes : List CppAttribute}
    {c c1 : ClassDescriptor} (h : ClassDescriptor.readAttributes env attributes c = .ok c1)
    (hread : c1.ignored = false) :
    c1.compressionDisabled = (c.compressionDisabled || attributes.any isNoCompression) := by
  induction attributes generalizing c with
  | nil =>
    cases h
    exact (Bool.or_false _).symm
  | cons attrib rest ih =>
    unfold ClassDescriptor.readAttributes at h
    split at h
    · cases h
      cases hread
    · obtain ⟨c2, hstep, hrest⟩ := bind_eq_ok.mp h
      rw [ih hrest, readAttribute_compressionDisabled hstep, List.any_cons, Bool.or_assoc]

section Interface

variable {env : Env} {c : CppClass} {nameSpace : String} {d : ClassDescriptor}

theorem compressionDisabled_eq (hparse : ClassDescriptor.parse env (.new c nameSpace) = .ok d)
    (hinterface : d.isInterface = true) :
    d.compressionDisabled = c.entity.attributes.any isNoCompression := by
  obtain ⟨c1, hread, hkept, rfl⟩ := ClassDescriptor.parse_of_isInterface hparse hinterface
  exact readAttributes_compressionDisabled hread hkept

/-- The two nodes of an interface fit its two components exactly when its class
does not switch the compression off. -/
theorem configure_nodes_fit_iff (floats : FloatText) (channelCredentials : BitVec 32)
    (metadata : Metadata) {interfaces : List ClassDescriptor} {i : Nat}
    (hparse : ClassDescriptor.parse env (.new c nameSpace) = .ok d)
    (hinterface : d.isInterface = true) (hi : interfaces[i]? = some d) :
    ConfigureNodesFit floats channelCredentials (generateConfigs metadata interfaces) i d ↔
      ∀ attrib ∈ c.entity.attributes,
        ¬ (attrib.scope = some "grpc" ∧ attrib.name = "noCompression") := by
  have hcompression := compressionDisabled_eq hparse hinterface
  have hclient : (configureNodes (generateConfigs metadata interfaces).xmlClientPropsMgr)[i]? =
      some (proxyConfigure d) := by
    rw [configureNodes_client, List.getElem?_map, hi]
    rfl
  have hserver : (configureNodes (generateConfigs metadata interfaces).xmlServerPropsMgr)[i]? =
      some (serverConfigure d) := by
    rw [configureNodes_server, List.getElem?_map, hi]
    rfl
  constructor
  · intro hfits attrib hattrib hno
    obtain ⟨node, hnode, hserverFits⟩ := hfits.server
    obtain rfl := Option.some.inj (hserver.symm.trans hnode)
    have hdisabled : d.compressionDisabled = true := by
      rw [hcompression, List.any_eq_true]
      exact ⟨attrib, hattrib, by simp [isNoCompression, hno.1, hno.2]⟩
    unfold ServerGenerator.properties at hserverFits
    rw [if_pos hdisabled] at hserverFits
    exact not_nodeFits (List.forall_mem_nil _) hserverFits
  · intro hattributes
    have henabled : ¬ d.compressionDisabled = true := by
      rw [hcompression, List.any_eq_true]
      rintro ⟨attrib, hattrib, hno⟩
      simp only [isNoCompression, Bool.and_eq_true, beq_iff_eq] at hno
      exact hattributes attrib hattrib hno
    -- one value for the service and one for each method
    have hproxyLength : (proxyCompressionValues d).length ≤
        (List.replicate (d.methods.length + 1) "").length := by
      simp [proxyCompressionValues]
    have hserverLength : (serverCompressionValues d).length ≤
        (List.replicate (d.methods.length + 1) "").length := by
      simp [serverCompressionValues]
    refine ⟨⟨_, hclient, ?_⟩, ⟨_, hserver, ?_⟩⟩
    · unfold ProxyGenerator.properties
      rw [if_neg henabled]
      refine nodeFits_of_sequence _ (by decide) ?_ ?_ hproxyLength
      · intro p hp
        simp only [List.mem_cons, List.not_mem_nil, or_false] at hp
        rcases hp with rfl | rfl
        · decide
        · show "channelCredentials" ≠ "grpc_compress_proxy"
          decide
      · simp [proxyCompressionValues, String.append_eq_empty_iff]
    · unfold ServerGenerator.properties
      rw [if_neg henabled]
      refine nodeFits_of_sequence [] (by decide) (List.forall_mem_nil _) ?_ hserverLength
      simp [serverCompressionValues, String.append_eq_empty_iff]

end Interface

/-- An interface with one method, whose class has the attributes. -/
def pingClass (attributes : List CppAttribute) : CppClass :=
  .mk ⟨"ns", "I", attributes, false, [voidMethod "ping" []]⟩
    (.unknown "org::bcom::xpcf::IComponentIntrospect" .nil)

/-- Its descriptor when the class has no attribute. -/
def pingDescriptor : ClassDescriptor := (ClassDescriptor.new (pingClass []) "ns").parseInterface

theorem configure_nodes_fit_ping :
    ConfigureNodesFit FloatText.none 0
      (generateConfigs ⟨"demo", "", "demo", "", "", ""⟩ [pingDescriptor]) 0 pingDescriptor := by
  have hparse : ClassDescriptor.parse (Env.simple []) (.new (pingClass []) "ns") =
      .ok pingDescriptor := rfl
  have hattributes : ∀ attrib ∈ (pingClass []).entity.attributes,
      ¬ (attrib.scope = some "grpc" ∧ attrib.name = "noCompression") := List.forall_mem_nil _
  exact (configure_nodes_fit_iff FloatText.none 0 _ hparse rfl rfl).mpr hattributes

def noCompressionClass : CppClass := pingClass [⟨some "grpc", "noCompression", none⟩]

/-- Its descriptor when the class has `[[grpc::noCompression]]`. -/
def noCompressionDescriptor : ClassDescriptor :=
  { ClassDescriptor.new noCompressionClass "ns" with compressionDisabled := true }.parseInterface

def noCompressionFiles : ConfigGenerator :=
  generateConfigs ⟨"demo", "", "demo", "", "", ""⟩ [noCompressionDescriptor]

/-- With the attribute the nodes name properties that the components do not have, and
neither component can be configured. -/
theorem noCompression_nodes_misfit :
    ClassDescriptor.parse (Env.simple []) (.new noCompressionClass "ns") =
        .ok noCompressionDescriptor ∧
      (configureNodes noCompressionFiles.xmlClientPropsMgr).map (fun node =>
        (configureElement FloatText.none node
          (ProxyGenerator.properties noCompressionDescriptor 0)).1) =
        [.throws (.configuration ("<property name=\"grpc_compress_proxy\" " ++
          "error=\"Property unknown: grpc_compress_proxy\">"))] ∧
      (configureNodes noCompressionFiles.xmlServerPropsMgr).map (fun node =>
        (configureElement FloatText.none node
          (ServerGenerator.properties noCompressionDescriptor)).1) =
        [.throws (.configuration ("<property name=\"grpc_compress_server\" " ++
          "error=\"Property unknown: grpc_compress_server\">"))] ∧
      ¬ ConfigureNodesFit FloatText.none 0 noCompressionFiles 0 noCompressionDescriptor := by
  refine ⟨rfl, by decide +kernel, by decide +kernel, fun hfits => ?_⟩
  obtain ⟨node, hnode, hproxy⟩ := hfits.proxy
  unfold noCompressionFiles at hnode
  rw [configureNodes_client] at hnode
  obtain rfl := Option.some.inj hnode
  refine not_nodeFits (fun p hp => ?_) hproxy
  have hp1 : p = .value "channelUrl" .inOut .charStr (.single "") ∨
      p = .value "channelCredentials" .inOut .uinteger (.single 0) := by
    simpa [noCompressionDescriptor, ClassDescriptor.parseInterface] using hp
  rcases hp1 with rfl | rfl
  · decide
  · decide

end GrpcGen

end Xpcf
