import Xpcf.Model.Resolution

/-!
# Loading an XML file

The `<factory>` node declares bindings (`<bindings>`) and the injections that
are specific to a component (`<injects>`).  `loadLibrary` reads a whole file:
modules, aliases, factory, configuration and properties, in this order whatever
their order in the file.
-/

namespace Xpcf

open CodeLib CodeLib.Exec

/-! ## Bindings -/

/-- `scopeConvertMap`. -/
def scopeConvertMap : Table String BindingScope
  | "Transient" => some .transient
  | "Singleton" => some .singleton
  | _ => none

/-- `bindingRangeConvertMap`. -/
def bindingRangeConvertMap : Table String BindingRange
  | "all" => some .all
  | "default" => some .default
  | "explicit" => some .explicit
  | "named" => some .named
  | "withparents" => some .withParents
  | _ => none

/-- The `scope` attribute; `Transient` when it is missing. -/
def readScope (elt : XMLElement) : Except Exc BindingScope :=
  match elt.attr "scope" with
  | none => .ok .transient
  | some text =>
    match scopeConvertMap text with
    | some scope => .ok scope
    | none => .error .outOfRange

/-- The mask of a list of range names. -/
def readRanges : List String → Except Exc (BitVec 8)
  | [] => .ok 0
  | range :: rest =>
    match bindingRangeConvertMap range with
    | none => .error .outOfRange
    | some bits => (readRanges rest).map fun mask => bits.bits ||| mask

/-- The `range` attribute, split at the bars; no bit when it is missing. -/
def readRange (elt : XMLElement) : Except Exc (BitVec 8) :=
  match elt.attr "range" with
  | none => .ok 0
  | some text => readRanges ((text.toList.splitOn '|').map String.ofList)

/-- `Factory::getComponentBindingInfos`. -/
def getComponentBindingInfos (env : Env) (aliases : AliasContext) (xmlBindElt : XMLElement) :
    Except Exc FactoryBindInfos := do
  let componentAttrValue ← xmlBindElt.attributeString "to"
  let componentUUID ← uuidOrAlias env aliases .component componentAttrValue
    (.configuration ("UUID format invalid in \"to\" attribute" ++ componentAttrValue))
  let scope ← readScope xmlBindElt
  let mask ← readRange xmlBindElt
  pure ⟨componentUUID, scope, mask, xmlBindElt.attributeOrEmpty "properties"⟩

def FactoryBindInfos.addRange (bindInfos : FactoryBindInfos) (range : BindingRange) :
    FactoryBindInfos :=
  { bindInfos with bindingRangeMask := bindInfos.bindingRangeMask ||| range.bits }

/-- `getComponentBindingInfos` with the aliases of the state. -/
def readBindInfos (env : Env) (xmlBindElt : XMLElement) : XpcfM FactoryBindInfos := do
  let aliases ← gets fun w => w.factory.aliases
  ofExcept (getComponentBindingInfos env aliases xmlBindElt)

/-- `Factory::declareSingleBind`. -/
def declareSingleBind (env : Env) (interfaceUUID : Uuid) (xmlBindElt : XMLElement) :
    XpcfM Unit := do
  let infos ← readBindInfos env xmlBindElt
  match xmlBindElt.attr "name" with
  | none => modifyContext fun ctx => ctx.bind (.default interfaceUUID) (infos.addRange .default)
  | some name =>
    modifyContext fun ctx => ctx.bind (.named name interfaceUUID) (infos.addRange .named)

/-- `Factory::declareMultiBind`. -/
def declareMultiBind (env : Env) (interfaceUUID : Uuid) (xmlBindElt : XMLElement) :
    XpcfM Unit := do
  modifyContext fun ctx => ctx.openMultiBind interfaceUUID
  processXmlNode xmlBindElt "component" fun element => do
    let infos ← readBindInfos env element
    modifyContext fun ctx => ctx.addMultiBind interfaceUUID (infos.addRange .default)

def tagErrorMessage (tag attrName : String) (elt : XMLElement) (subElementError : Bool)
    (what : String) : XmlErrorMessage :=
  XmlErrorMessage.addAttributeIfSet ⟨tag, what, subElementError, []⟩ attrName
    (elt.attributeOrEmpty attrName)

/-- An attribute that is mandatory and names an interface or a component. -/
def readTarget (env : Env) (type : AliasType) (elt : XMLElement)
    (attrName missing malformed : String) : XpcfM Uuid := do
  let aliases ← gets fun w => w.factory.aliases
  match elt.attr attrName with
  | none => throw (.exception missing)
  | some text =>
    ofExcept (uuidOrAlias env aliases type text (.configuration (malformed ++ text)))

/-- `Factory::declareBind`. -/
def declareBind (env : Env) (xmlBindElt : XMLElement) : XpcfM Unit := do
  let interfaceUUID ← rethrowXpcf (tagErrorMessage "bind" "interface" xmlBindElt false)
    (readTarget env .interface xmlBindElt "interface"
      "node incomplete : attribute 'interface' is mandatory."
      "UUID format invalid in \"interface\" :")
  rethrowXpcf (tagErrorMessage "bind" "interface" xmlBindElt true) do
    let single := (xmlBindElt.attr "to").isSome
    let multi := (xmlBindElt.childElements "component").isEmpty = false
    (if single = false ∧ multi = false then
        throw (.exception
          "node incomplete : attributes 'to' or 'component' inner node are mandatory.")
      else pure ())
    (if single then declareSingleBind env interfaceUUID xmlBindElt else pure ())
    (if multi then declareMultiBind env interfaceUUID xmlBindElt else pure ())

/-- `Factory::declareSpecificBind`. -/
def declareSpecificBind (env : Env) (targetComponentUUID : Uuid) (xmlBindElt : XMLElement) :
    XpcfM Unit :=
  let missing := "node incomplete : attributes 'interface' and 'to' are mandatory."
  -- the message names the interface only when both attributes are there
  let msg := fun what =>
    match xmlBindElt.attr "to" with
    | some _ => tagErrorMessage "bind" "interface" xmlBindElt false what
    | none => ⟨"bind", what, false, []⟩
  rethrowXpcf msg do
    (if (xmlBindElt.attr "to").isSome then pure () else throw (.exception missing))
    let interfaceUUID ← readTarget env .interface xmlBindElt "interface" missing
      "UUID format invalid in \"interface\": "
    let infos ← readBindInfos env xmlBindElt
    let infos := infos.addRange .explicit
    match xmlBindElt.attr "name" with
    | none => modifyContext fun ctx => ctx.bind (.specific targetComponentUUID interfaceUUID) infos
    | some name =>
      modifyContext fun ctx =>
        ctx.bind (.specificNamed targetComponentUUID name interfaceUUID) infos

/-- `Factory::declareBindings`. -/
def declareBindings (env : Env) (xmlBindingsElt : XMLElement) : XpcfM Unit :=
  rethrowXpcf (fun what => ⟨"bindings", what, true, []⟩)
    (processXmlNode xmlBindingsElt "bind" (declareBind env))

/-- `Factory::declareInject`. -/
def declareInject (env : Env) (xmlInjectElt : XMLElement) : XpcfM Unit := do
  let componentUUID ← rethrowXpcf (tagErrorMessage "inject" "to" xmlInjectElt false)
    (readTarget env .component xmlInjectElt "to" "node incomplete : attribute 'to' is mandatory."
      "UUID format invalid in \"to\": ")
  rethrowXpcf (tagErrorMessage "inject" "to" xmlInjectElt true)
    (processXmlNode xmlInjectElt "bind" (declareSpecificBind env componentUUID))

/-- `Factory::declareInjects`. -/
def declareInjects (env : Env) (xmlInjectsElt : XMLElement) : XpcfM Unit :=
  rethrowXpcf (fun what => ⟨"injects", what, true, []⟩)
    (processXmlNode xmlInjectsElt "inject" (declareInject env))

/-- `Factory::declareFactory`. -/
def declareFactory (env : Env) (xmlFactoryElt : XMLElement) : XpcfM Unit :=
  rethrowXpcf (fun what => ⟨"factory", what, true, []⟩) do
    processXmlNode xmlFactoryElt "bindings" (declareBindings env)
    processXmlNode xmlFactoryElt "injects" (declareInjects env)

/-! ## Files -/

/-- What `loadLibrary` finds at its path. -/
inductive LibraryFile where
  | missing
  | notXml
  | unparsable
  | document (rootElt : XMLElement)

def rootNames : List String := ["xpcf-registry", "xpcf-configuration"]

/-- The flag the root element sets on the registry. -/
def autoAliasOf (rootElt : XMLElement) : Bool := rootElt.attr "autoAlias" = some "true"

/-- The body of the `try` block of `loadLibrary`. -/
def loadDocument (env : Env) (configurationFilePath : String) (rootElt : XMLElement) :
    XpcfM XPCFErrorCode := do
  (if rootNames.contains rootElt.value then pure ()
    else throw (.xpcf .configurationException
      "missing root element \"xpcf-registry\" or \"xpcf-configuration\"" .errorRange))
  modifyFactory fun f => { f with autoAlias := autoAliasOf rootElt }
  processXmlNode rootElt "module" (declareModule env)
  processXmlNode rootElt "aliases" (declareAliases env)
  processXmlNode rootElt "factory" (declareFactory env)
  processXmlNode rootElt "configuration" (declareConfiguration env configurationFilePath)
  processXmlNode rootElt "properties" (declareProperties env configurationFilePath)
  pure .success

/-- The catch clauses of `loadLibrary`. -/
def handleLoadError (e : Exc) : XpcfM XPCFErrorCode :=
  if e.isXpcf then throw (.configuration ("configuration loading failed: " ++ e.what))
  else if e.isRuntimeError then pure .fail
  else throw e

/-- `Factory::loadLibrary`. -/
def loadLibrary (env : Env) (configurationFilePath : String) : LibraryFile → XpcfM XPCFErrorCode
  | .missing => pure .fail
  | .notXml => pure .fail
  | .unparsable => throw (.xpcf .configurationException
      "Configuration failed, missing end tag: " .fail)
  | .document rootElt =>
    tryCatch (loadDocument env configurationFilePath rootElt) handleLoadError

/-- The loop of `Factory::load(folderPath)`, which drops the return codes. -/
def loadFolder (env : Env) (files : List (String × LibraryFile)) : XpcfM XPCFErrorCode := do
  forEach (fun file => do let _ ← loadLibrary env file.1 file.2) files
  pure .success

end Xpcf
