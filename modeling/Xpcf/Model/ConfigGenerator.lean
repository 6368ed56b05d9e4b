import Xpcf.Model.Descriptors
import Xpcf.Model.XmlWriter

/-!
# The configuration files of a remoting module

`XpcfConfigGenerator` writes four files beside one another: the registries of
the client and the server, which declare the generated components, and a
properties file for each.  The names of the components are metadata that the
proxy generator and the server generator leave for it.  By then these two have
given a component without a UUID a random one.
-/

namespace Xpcf.GrpcGen

/-- The metadata that the generators exchange, less what no XML file shows. -/
structure Metadata where
  projectName : String
  moduleUUID : String
  moduleName : String
  moduleDescription : String
  /-- `PROXY_XPCFGRPCCOMPONENTNAME`. -/
  proxyComponentName : String
  /-- `SERVER_XPCFGRPCCOMPONENTNAME`. -/
  serverComponentName : String

/-! ## The components -/

/-- The part of `ProxyGenerator::generateImpl` that names the component. -/
def proxyMetadata (c : ClassDescriptor) (metadata : Metadata) : Metadata :=
  { metadata with proxyComponentName := c.name ++ "_grpcProxy" }

/-- The part of `ServerGenerator::generateImpl` that names the component. -/
def serverMetadata (c : ClassDescriptor) (metadata : Metadata) : Metadata :=
  { metadata with serverComponentName := c.name ++ "_grpcServer" }

/-! ## The four files -/

structure ConfigGenerator where
  xmlClientMgr : XmlBlockManager
  xmlServerMgr : XmlBlockManager
  xmlClientPropsMgr : XmlBlockManager
  xmlServerPropsMgr : XmlBlockManager
  grpcComponentBinds : List String

/-- The attributes of the module, in both registries. -/
def moduleAttributes (metadata : Metadata) : List (String × String) :=
  [("uuid", metadata.moduleUUID), ("name", metadata.moduleName),
    ("description", metadata.moduleDescription), ("path", "$REMAKENROOT/modules")]

/-- The start of a registry file. -/
def openRegistry (metadata : Metadata) : XmlBlockManager :=
  (XmlBlockManager.new.xmlOpenRootNode "xpcf-registry" XmlBlockManager.rootAttributes).enter
    "module" (moduleAttributes metadata)

/-- The start of a properties file. -/
def openProperties : XmlBlockManager :=
  (XmlBlockManager.new.xmlOpenRootNode "xpcf-configuration" XmlBlockManager.rootAttributes).enter
    "properties" []

/-- `XpcfConfigGenerator::initializeImpl`. -/
def ConfigGenerator.initializeImpl (metadata : Metadata) : ConfigGenerator where
  xmlClientMgr := openRegistry metadata
  xmlServerMgr := openRegistry metadata
  xmlClientPropsMgr := openProperties
  xmlServerPropsMgr := openProperties
  grpcComponentBinds := []

/-- The interface that every component has. -/
def introspectAttributes : List (String × String) :=
  [("uuid", "125f2007-1bf9-421d-9367-fbdc1210d006"), ("name", "XPCF::IComponentIntrospect"),
    ("description", "Component introspection interface")]

def grpcServiceAttributes : List (String × String) :=
  [("uuid", "baab5e42-2c24-48de-953b-07237af419e4"), ("name", "org::bcom::xpcf::IGrpcService"),
    ("description", "xpcf GrpcService interface")]

def traitAttributes (trait : InterfaceTraits) : List (String × String) :=
  [("uuid", trait.uuid), ("name", trait.name), ("description", trait.description)]

/-- A component block of a registry. -/
def writeComponent (uuid : Uuid) (name : String) (interfaceAttributes : List (String × String)) :
    XmlBlockManager → XmlBlockManager :=
  XmlBlockManager.block "component" [("uuid", uuid.toString), ("name", name), ("description", name)]
    fun m => (m.node "interface" introspectAttributes).node "interface" interfaceAttributes

/-- A configure block of a properties file: one property with its values. -/
def writeConfigure (component property : String) (values : List String) :
    XmlBlockManager → XmlBlockManager :=
  XmlBlockManager.block "configure" [("component", component)] fun m =>
    (values.foldl XmlBlockManager.addValue
      (m.enter "property" [("name", property), ("type", "string")])).leave

/-- The values of `grpc_compress_proxy`. -/
def proxyCompressionValues (c : ClassDescriptor) : List String :=
  "service|none|none" :: c.methods.map fun m => "method|" ++ m.name ++ "|none|none"

/-- The values of `grpc_compress_server`. -/
def serverCompressionValues (c : ClassDescriptor) : List String :=
  "service|none|0" :: c.methods.map fun m => "method|" ++ m.name ++ "|none|0"

/-- `XpcfConfigGenerator::generateImpl`. -/
def ConfigGenerator.generateImpl (g : ConfigGenerator) (c : ClassDescriptor) (metadata : Metadata) :
    ConfigGenerator where
  xmlClientMgr := writeComponent c.clientUUID metadata.proxyComponentName
    (traitAttributes c.xpcfTrait) g.xmlClientMgr
  xmlServerMgr := writeComponent c.serverUUID metadata.serverComponentName
    grpcServiceAttributes g.xmlServerMgr
  xmlClientPropsMgr := writeConfigure metadata.proxyComponentName "grpc_compress_proxy"
    (proxyCompressionValues c) g.xmlClientPropsMgr
  xmlServerPropsMgr := writeConfigure metadata.serverComponentName "grpc_compress_server"
    (serverCompressionValues c) g.xmlServerPropsMgr
  grpcComponentBinds := g.grpcComponentBinds ++ [metadata.serverComponentName]

/-- The factory block of the server registry. -/
def writeBindings (binds : List String) : XmlBlockManager → XmlBlockManager :=
  XmlBlockManager.block "factory" [] (XmlBlockManager.block "bindings" []
    (XmlBlockManager.block "bind" [("interface", "org::bcom::xpcf::IGrpcService")]
      fun m => binds.foldl (fun m bind => m.node "component" [("to", bind)]) m))

/-- `XpcfConfigGenerator::finalizeImpl`. -/
def ConfigGenerator.finalizeImpl (g : ConfigGenerator) : ConfigGenerator :=
  { g with
    xmlClientMgr := g.xmlClientMgr.leave.release
    xmlServerMgr := (writeBindings g.grpcComponentBinds g.xmlServerMgr.leave).release
    xmlClientPropsMgr := g.xmlClientPropsMgr.release
    xmlServerPropsMgr := g.xmlServerPropsMgr.release }

/-- One interface through the chain of generators. -/
def ConfigGenerator.process (state : ConfigGenerator × Metadata) (c : ClassDescriptor) :
    ConfigGenerator × Metadata :=
  let metadata := serverMetadata c (proxyMetadata c state.2)
  (state.1.generateImpl c metadata, metadata)

/-- `initialize`, `generate` for every interface, `finalize`, which call these. -/
def generateConfigs (metadata : Metadata) (interfaces : List ClassDescriptor) : ConfigGenerator :=
  (interfaces.foldl ConfigGenerator.process
    (ConfigGenerator.initializeImpl metadata, metadata)).1.finalizeImpl

end Xpcf.GrpcGen
