import Xpcf.Model.Compression
import Xpcf.Proofs.RemoteCalls

/-!
# The compression of a call

A configuration is a list of rules (`serviceRule`, `methodRule`).  Of the rules of a
method the first counts, and of the rules of the service the last, for each of its two
values on its own (`onConfigured_methods`, `get_onConfigured_service`).

A call takes its algorithms from the rules of both sides (`compressedCall_negotiated`):
what the proxy asks for gives way to a forced rule of the server, and where the proxy
asks for nothing a rule of the method goes before a rule of the service, forced or not.
-/

namespace Xpcf.GrpcGen

open CodeLib

namespace GrpcCompressType

/-- The type, if it says something. -/
def specified (t : GrpcCompressType) : Option GrpcCompressType :=
  if t = unspecified then Option.none else some t

/-- The algorithm of a type that says something. -/
def algorithm (t : GrpcCompressType) : GrpcCompressionAlgorithm := getCompressionType t.code

end GrpcCompressType

/-! ## Rules -/

/-- The values of a line.  The second is there if nothing follows it. -/
structure CompressionRule where
  value : String
  second : Option String
  deriving DecidableEq

/-- The values behind the name of a line. -/
def CompressionRule.ofFields (value : String) : List String → CompressionRule
  | [second] => ⟨value, some second⟩
  | _ => ⟨value, none⟩

/-- The rule that a line gives the service. -/
def serviceRule (line : String) : Option CompressionRule :=
  match compressDetails line with
  | kind :: value :: rest => if kind = "service" then some (.ofFields value rest) else none
  | _ => none

/-- The rule that a line gives a method. -/
def methodRule (line : String) : Option (String × CompressionRule) :=
  match compressDetails line with
  | kind :: name :: value :: rest =>
    if kind = "method" then some (name, .ofFields value rest) else none
  | _ => none

section Lines

variable {σ : Type} (setFirst setSecond : σ → String → σ) (blank : σ)

/-- What a rule sets. -/
def CompressionRule.apply (infos : σ) (rule : CompressionRule) : σ :=
  match rule.second with
  | some second => setSecond (setFirst infos rule.value) second
  | none => setFirst infos rule.value

theorem setInfos_eq (infos : σ) (value : String) (rest : List String) :
    setInfos setFirst setSecond infos value rest =
      (CompressionRule.ofFields value rest).apply setFirst setSecond infos := by
  match rest with
  | [] => rfl
  | [second] => rfl
  | _ :: _ :: _ => rfl

theorem translateConfiguration_eq (line : String) (c : CompressionConfig σ) :
    translateConfiguration setFirst setSecond blank line c =
      ⟨(serviceRule line).elim c.service fun rule => rule.apply setFirst setSecond c.service,
        c.methods.addAllFirst ((methodRule line).toList.map fun rule =>
          (rule.1, rule.2.apply setFirst setSecond blank))⟩ := by
  unfold translateConfiguration serviceRule methodRule
  match compressDetails line with
  | [] => rfl
  | [_] => rfl
  | kind :: value :: rest =>
    by_cases hservice : kind = "service"
    · subst hservice
      dsimp only
      rw [if_pos rfl, if_pos rfl, setInfos_eq]
      match rest with
      | [] => rfl
      | _ :: _ => rfl
    · dsimp only
      rw [if_neg hservice, if_neg hservice]
      by_cases hmethod : kind = "method"
      · rw [if_pos hmethod]
        match rest with
        | [] => rfl
        | value1 :: rest1 =>
          dsimp only
          rw [if_pos hmethod, setInfos_eq]
          rfl
      · rw [if_neg hmethod]
        match rest with
        | [] => rfl
        | value1 :: rest1 =>
          dsimp only
          rw [if_neg hmethod]
          rfl

/-- All lines, one after the other. -/
theorem foldl_translateConfiguration (lines : List String) (c : CompressionConfig σ) :
    lines.foldl (fun c line => translateConfiguration setFirst setSecond blank line c) c =
      ⟨(lines.filterMap serviceRule).foldl (CompressionRule.apply setFirst setSecond) c.service,
        c.methods.addAllFirst ((lines.filterMap methodRule).map fun rule =>
          (rule.1, rule.2.apply setFirst setSecond blank))⟩ := by
  induction lines generalizing c with
  | nil => rfl
  | cons line lines ih =>
    rw [List.foldl_cons, ih, translateConfiguration_eq]
    congr 1
    · cases hrule : serviceRule line with
      | none => rw [List.filterMap_cons_none hrule, Option.elim_none]
      | some rule => rw [List.filterMap_cons_some hrule, Option.elim_some, List.foldl_cons]
    · rw [← Table.addAllFirst_append, ← List.map_append]
      cases hrule : methodRule line with
      | none => rw [List.filterMap_cons_none hrule]; rfl
      | some rule => rw [List.filterMap_cons_some hrule]; rfl

end Lines

/-- Of several writes of one value the last counts. -/
theorem get_foldl {σ τ ρ : Type} (get : σ → τ) (write : ρ → Option τ) {apply : σ → ρ → σ}
    (h : ∀ s r, get (apply s r) = (write r).getD (get s)) (rules : List ρ) (s : σ) :
    get (rules.foldl apply s) = ((rules.filterMap write).getLast?).getD (get s) := by
  induction rules generalizing s with
  | nil => rfl
  | cons r rules ih =>
    rw [List.foldl_cons, ih, h]
    cases hwrite : write r with
    | none => rw [List.filterMap_cons_none hwrite, Option.getD_none]
    | some v => rw [List.filterMap_cons_some hwrite, List.getLast?_cons, Option.getD_some,
        Option.getD_some]

/-! ## The lines of rules -/

/-- The fields with bars between them. -/
def barred (fields : List String) : String :=
  String.ofList (['|'].intercalate (fields.map String.toList))

/-- A rule for the service, or for a method. -/
inductive CompressionEntry where
  | service (rule : CompressionRule)
  | method (name : String) (rule : CompressionRule)

namespace CompressionEntry

def fields : CompressionEntry → List String
  | service rule => "service" :: rule.value :: rule.second.toList
  | method name rule => "method" :: name :: rule.value :: rule.second.toList

def line (entry : CompressionEntry) : String := barred entry.fields

def toService : CompressionEntry → Option CompressionRule
  | service rule => some rule
  | method _ _ => none

def toMethod : CompressionEntry → Option (String × CompressionRule)
  | service _ => none
  | method name rule => some (name, rule)

/-- No field holds a bar or a carriage return. -/
def Plain (entry : CompressionEntry) : Prop :=
  ∀ field ∈ entry.fields, '|' ∉ field.toList ∧ '\r' ∉ field.toList

end CompressionEntry

theorem carriageReturn_notMem_intercalate {fields : List String}
    (h : ∀ field ∈ fields, '\r' ∉ field.toList) :
    '\r' ∉ ['|'].intercalate (fields.map String.toList) := by
  induction fields with
  | nil => exact List.not_mem_nil
  | cons field fields ih =>
    obtain ⟨hfield, hfields⟩ := List.forall_mem_cons.mp h
    cases fields with
    | nil => simpa using hfield
    | cons field1 fields =>
      rw [List.map_cons, List.map_cons, List.intercalate_cons_cons, List.mem_append,
        List.mem_append]
      rintro (hin | hin)
      · rcases hin with hin | hin
        · exact hfield hin
        · exact absurd hin (by decide)
      · exact ih hfields hin

theorem compressDetails_barred {fields : List String} (hne : fields ≠ [])
    (h : ∀ field ∈ fields, '|' ∉ field.toList ∧ '\r' ∉ field.toList) :
    compressDetails (barred fields) = fields := by
  have hkept := carriageReturn_notMem_intercalate fun field hfield => (h field hfield).2
  have hfilter : (['|'].intercalate (fields.map String.toList)).filter (fun c => c ≠ '\r') =
      ['|'].intercalate (fields.map String.toList) := by
    refine List.filter_eq_self.mpr fun c hc => decide_eq_true ?_
    rintro rfl
    exact hkept hc
  unfold compressDetails barred
  rw [String.toList_ofList, hfilter, List.splitOn_intercalate, List.map_map]
  · exact (List.map_congr_left fun field _ => String.ofList_toList).trans (List.map_id _)
  · intro chars hchars
    obtain ⟨field, hfield, rfl⟩ := List.mem_map.mp hchars
    exact (h field hfield).1
  · exact fun hnil => hne (List.map_eq_nil_iff.mp hnil)

/-- The rules that are written are the rules that are read, in their order. -/
theorem rules_of_entries {entries : List CompressionEntry} (h : ∀ entry ∈ entries, entry.Plain) :
    (entries.map CompressionEntry.line).filterMap serviceRule =
        entries.filterMap CompressionEntry.toService ∧
      (entries.map CompressionEntry.line).filterMap methodRule =
        entries.filterMap CompressionEntry.toMethod := by
  have hread : ∀ entry ∈ entries,
      (serviceRule ∘ CompressionEntry.line) entry = entry.toService ∧
        (methodRule ∘ CompressionEntry.line) entry = entry.toMethod := by
    intro entry hentry
    have hdetails : compressDetails entry.line = entry.fields := by
      refine compressDetails_barred ?_ (h entry hentry)
      cases entry <;> exact List.cons_ne_nil _ _
    have hother : "method" ≠ "service" := by decide
    rw [Function.comp_apply, Function.comp_apply]
    unfold serviceRule methodRule
    rw [hdetails]
    cases entry with
    | service rule =>
      obtain ⟨value, second⟩ := rule
      dsimp only [CompressionEntry.fields]
      rw [if_pos rfl]
      cases second with
      | none => exact ⟨rfl, rfl⟩
      | some s =>
        dsimp only [Option.toList_some]
        rw [if_neg hother.symm]
        exact ⟨rfl, rfl⟩
    | method name rule =>
      obtain ⟨value, second⟩ := rule
      dsimp only [CompressionEntry.fields]
      rw [if_neg hother, if_pos rfl]
      cases second <;> exact ⟨rfl, rfl⟩
  rw [List.filterMap_map, List.filterMap_map]
  exact ⟨List.filterMap_congr fun entry hentry => (hread entry hentry).1,
    List.filterMap_congr fun entry hentry => (hread entry hentry).2⟩

theorem rules_of_entries_two :
    ([CompressionEntry.service ⟨"gzip", some "none"⟩, .method "get" ⟨"deflate", none⟩].map
        CompressionEntry.line).filterMap serviceRule = [⟨"gzip", some "none"⟩] ∧
      ([CompressionEntry.service ⟨"gzip", some "none"⟩, .method "get" ⟨"deflate", none⟩].map
        CompressionEntry.line).filterMap methodRule = [("get", ⟨"deflate", none⟩)] := by
  refine rules_of_entries (List.forall_mem_cons.mpr ⟨?_, List.forall_mem_singleton.mpr ?_⟩)
  · show ∀ field ∈ ["service", "gzip", "none"], _
    decide
  · show ∀ field ∈ ["method", "get", "deflate"], _
    decide

/-! ## What the rules come to -/

/-- The format of a text, if it names one. -/
def formatOf (value : String) : Option GrpcCompressType :=
  (translateCompression value).specified

/-- The rules that the lines give the service. -/
def serviceRules (lines : List String) : List CompressionRule := lines.filterMap serviceRule

/-- The rules that the lines give the methods. -/
def methodRules (lines : List String) : List (String × CompressionRule) :=
  lines.filterMap methodRule

/-- The format that the lines of a proxy want for the request of a method. -/
def wantedRequest (lines : List String) (name : String) : Option GrpcCompressType :=
  (((methodRules lines).lookup name).bind fun rule => formatOf rule.value).or
    ((serviceRules lines).getLast?.bind fun rule => formatOf rule.value)

/-- The format that they want for its response. -/
def wantedResponse (lines : List String) (name : String) : Option GrpcCompressType :=
  (((methodRules lines).lookup name).bind fun rule => rule.second.bind formatOf).or
    (((serviceRules lines).filterMap CompressionRule.second).getLast?.bind formatOf)

/-- A format that a server may use, and whether it is forced. -/
structure ServerFormat where
  format : GrpcCompressType
  force : Bool

/-- What the lines of a server say for a method. -/
def methodFormat (lines : List String) (name : String) : Option ServerFormat :=
  ((methodRules lines).lookup name).bind fun rule =>
    (formatOf rule.value).map fun t => ⟨t, rule.second.any fun s => atol s ≠ 0⟩

/-- What the lines of a server say for the service. -/
def serviceFormat (lines : List String) : Option ServerFormat :=
  ((serviceRules lines).getLast?.bind fun rule => formatOf rule.value).map fun t =>
    ⟨t, ((serviceRules lines).filterMap CompressionRule.second).getLast?.any fun s => atol s ≠ 0⟩

/-- A forced format of the method, then of the service, then what the proxy asked for;
if it asked for nothing, the format of the method, then of the service. -/
def negotiated (asked : Option GrpcCompressType) (method service : Option ServerFormat) :
    Option GrpcCompressType :=
  match asked with
  | some t =>
    some ((((method.filter ServerFormat.force).or (service.filter ServerFormat.force)).map
      ServerFormat.format).getD t)
  | none => (method.or service).map ServerFormat.format

/-- A type that says nothing gives way to another. -/
theorem specified_ite (t t1 : GrpcCompressType) :
    (if t ≠ .unspecified then t else t1).specified = t.specified.or t1.specified := by
  by_cases h : t = .unspecified
  · rw [if_neg (not_not_intro h), h]
    rfl
  · rw [if_pos h, GrpcCompressType.specified, if_neg h, Option.some_or]

theorem getD_specified (t : GrpcCompressType) : t.specified.getD .unspecified = t := by
  cases t <;> rfl

theorem map_algorithm_specified (t : GrpcCompressType) :
    t.specified.map GrpcCompressType.algorithm =
      if t ≠ .unspecified then some (getCompressionType t.code) else none := by
  cases t <;> rfl

theorem deduceClientCompressionInfo_specified (serviceInfos : GrpcCompressionInfos)
    (methodName : String) (methodInfos : Table String GrpcCompressionInfos) :
    (deduceClientCompressionInfo serviceInfos methodName methodInfos).request.specified =
        ((methodInfos methodName).bind fun infos => infos.request.specified).or
          serviceInfos.request.specified ∧
      (deduceClientCompressionInfo serviceInfos methodName methodInfos).response.specified =
        ((methodInfos methodName).bind fun infos => infos.response.specified).or
          serviceInfos.response.specified := by
  unfold deduceClientCompressionInfo
  cases methodInfos methodName with
  | none => exact ⟨rfl, rfl⟩
  | some infos => exact ⟨specified_ite _ _, specified_ite _ _⟩

theorem specified_getD {value : Option GrpcCompressType} :
    (value.getD .unspecified).specified = value.bind GrpcCompressType.specified := by
  cases value <;> rfl

/-- The value that the last rule gives, of a value that every rule has. -/
theorem getLast?_filterMap_some {ρ τ : Type} (f : ρ → τ) (rules : List ρ) :
    (rules.filterMap fun r => some (f r)).getLast? = rules.getLast?.map f := by
  rw [← List.getLast?_map, ← List.filterMap_eq_map]
  rfl

theorem getLast?_filterMap_map {ρ τ υ : Type} (write : ρ → Option τ) (f : τ → υ) (rules : List ρ) :
    (rules.filterMap fun r => (write r).map f).getLast? =
      (rules.filterMap write).getLast?.map f := by
  rw [← List.getLast?_map, List.map_filterMap]

theorem lookup_map_snd {α β : Type} (f : α → β) (entries : List (String × α)) (key : String) :
    (entries.map fun entry => (entry.1, f entry.2)).lookup key = (entries.lookup key).map f := by
  induction entries with
  | nil => rfl
  | cons entry entries ih =>
    rw [List.map_cons, Table.lookup_cons_or, Table.lookup_cons_or, ih]
    split <;> rfl

/-- The format of a server, if it has one. -/
def GrpcServerCompressionInfos.serverFormat (infos : GrpcServerCompressionInfos) :
    Option ServerFormat :=
  infos.type.specified.map fun t => ⟨t, infos.force⟩

theorem GrpcServerCompressionInfos.serverFormat_unspecified {infos : GrpcServerCompressionInfos}
    (h : infos.type = .unspecified) : infos.serverFormat = none := by
  unfold serverFormat
  rw [h]
  rfl

theorem GrpcServerCompressionInfos.serverFormat_specified {infos : GrpcServerCompressionInfos}
    (h : infos.type ≠ .unspecified) : infos.serverFormat = some ⟨infos.type, infos.force⟩ := by
  unfold serverFormat GrpcCompressType.specified
  rw [if_neg h]
  rfl

/-- Infos that the server uses instead of others. -/
theorem serverFormat_ite (asked : GrpcCompressType) (infos infos1 : GrpcServerCompressionInfos) :
    (if infos.type ≠ .unspecified ∧ (infos.force ∨ asked = .unspecified) then infos
      else infos1).type.specified =
      (if asked = .unspecified then infos.serverFormat
        else infos.serverFormat.filter ServerFormat.force).elim infos1.type.specified
        fun f => some f.format := by
  by_cases htype : infos.type = .unspecified
  · rw [if_neg fun h => h.1 htype, GrpcServerCompressionInfos.serverFormat_unspecified htype]
    split <;> rfl
  · have hsome := GrpcServerCompressionInfos.serverFormat_specified htype
    have hspecified : infos.type.specified = some infos.type := if_neg htype
    rw [hsome]
    by_cases hasked : asked = .unspecified
    · rw [if_pos ⟨htype, .inr hasked⟩, if_pos hasked, hspecified]
      rfl
    · rw [if_neg hasked]
      cases hforce : infos.force with
      | true =>
        rw [if_pos ⟨htype, .inl rfl⟩, hspecified]
        rfl
      | false =>
        rw [if_neg fun h => h.2.elim Bool.false_ne_true hasked]
        rfl

/-- The server decides between what it is asked for and what it has. -/
theorem deduceServerCompressionType_specified (asked : GrpcCompressType)
    (serviceInfos : GrpcServerCompressionInfos) (methodName : String)
    (methodInfos : Table String GrpcServerCompressionInfos) :
    (deduceServerCompressionType asked serviceInfos methodName methodInfos).type.specified =
      negotiated asked.specified
        ((methodInfos methodName).bind GrpcServerCompressionInfos.serverFormat)
        serviceInfos.serverFormat := by
  have hservice := serverFormat_ite asked serviceInfos { type := asked }
  have hresult : (deduceServerCompressionType asked serviceInfos methodName
      methodInfos).type.specified =
      (if asked = .unspecified then
          (methodInfos methodName).bind GrpcServerCompressionInfos.serverFormat
        else ((methodInfos methodName).bind GrpcServerCompressionInfos.serverFormat).filter
          ServerFormat.force).elim
        ((if asked = .unspecified then serviceInfos.serverFormat
          else serviceInfos.serverFormat.filter ServerFormat.force).elim asked.specified
            fun f => some f.format) fun f => some f.format := by
    unfold deduceServerCompressionType
    cases methodInfos methodName with
    | none =>
      refine hservice.trans ?_
      dsimp only [Option.bind_none, Option.filter_none]
      rw [ite_self]
      rfl
    | some infos =>
      refine (serverFormat_ite asked infos _).trans ?_
      rw [hservice]
      rfl
  rw [hresult]
  by_cases hasked : asked = .unspecified
  · rw [if_pos hasked, if_pos hasked, hasked]
    cases (methodInfos methodName).bind GrpcServerCompressionInfos.serverFormat with
    | none => cases serviceInfos.serverFormat <;> rfl
    | some f => rfl
  · have hspecified : asked.specified = some asked := if_neg hasked
    rw [if_neg hasked, if_neg hasked, hspecified]
    unfold negotiated
    dsimp only
    cases ((methodInfos methodName).bind GrpcServerCompressionInfos.serverFormat).filter
        ServerFormat.force with
    | none => cases serviceInfos.serverFormat.filter ServerFormat.force <;> rfl
    | some f => rfl

namespace ProxyGenerator

/-- The members after the first call of `onConfigured`. -/
def configured (lines : List String) : CompressionConfig GrpcCompressionInfos :=
  onConfigured lines ⟨{}, Table.empty⟩

theorem configured_eq (lines : List String) :
    configured lines = ⟨(serviceRules lines).foldl (CompressionRule.apply
        (fun infos s => { infos with request := translateCompression s })
        (fun infos s => { infos with response := translateCompression s })) {},
      Table.empty.addAllFirst ((methodRules lines).map fun rule => (rule.1, rule.2.apply
        (fun infos s => { infos with request := translateCompression s })
        (fun infos s => { infos with response := translateCompression s })
        ({} : GrpcCompressionInfos)))⟩ :=
  foldl_translateConfiguration _ _ _ lines _

theorem specified_service_request (lines : List String) :
    (configured lines).service.request.specified =
      (serviceRules lines).getLast?.bind fun rule => formatOf rule.value := by
  rw [configured_eq]
  dsimp only
  rw [get_foldl GrpcCompressionInfos.request fun rule => some (translateCompression rule.value)]
  · rw [getLast?_filterMap_some, specified_getD, Option.bind_map]
    rfl
  · intro infos rule
    unfold CompressionRule.apply
    cases rule.second <;> rfl

theorem specified_service_response (lines : List String) :
    (configured lines).service.response.specified =
      ((serviceRules lines).filterMap CompressionRule.second).getLast?.bind formatOf := by
  rw [configured_eq]
  dsimp only
  rw [get_foldl GrpcCompressionInfos.response fun rule => rule.second.map translateCompression]
  · rw [getLast?_filterMap_map, specified_getD, Option.bind_map]
    rfl
  · intro infos rule
    unfold CompressionRule.apply
    cases rule.second <;> rfl

theorem configured_methods (lines : List String) (name : String) :
    (configured lines).methods name = ((methodRules lines).lookup name).map fun rule =>
      { request := translateCompression rule.value
        response := (rule.second.map translateCompression).getD .unspecified } := by
  rw [configured_eq]
  dsimp only
  rw [Table.addAllFirst_apply, lookup_map_snd]
  show Option.or none _ = _
  rw [Option.none_or]
  congr 1
  funext rule
  unfold CompressionRule.apply
  cases rule.second <;> rfl

/-- What is deduced for a method is what its lines want. -/
theorem deduced_wanted (lines : List String) (name : String) :
    (deduceClientCompressionInfo (configured lines).service name
        (configured lines).methods).request.specified = wantedRequest lines name ∧
      (deduceClientCompressionInfo (configured lines).service name
        (configured lines).methods).response.specified = wantedResponse lines name := by
  obtain ⟨hrequest, hresponse⟩ := deduceClientCompressionInfo_specified
    (configured lines).service name (configured lines).methods
  rw [configured_methods, specified_service_request, Option.bind_map] at hrequest
  rw [configured_methods, specified_service_response, Option.bind_map] at hresponse
  refine ⟨hrequest, hresponse.trans ?_⟩
  unfold wantedResponse
  congr 2
  funext rule
  show ((rule.second.map translateCompression).getD .unspecified).specified = _
  rw [specified_getD, Option.bind_map]
  rfl

/-- The request goes out in the format that the lines want, and the wanted format of the
response is asked for. -/
theorem callCompression_configured (m : MethodDescriptor) (lines : List String) :
    callCompression m (configured lines) =
      if m.sendsCompression then
        ((wantedRequest lines m.name).map GrpcCompressType.algorithm,
          (wantedResponse lines m.name).getD .unspecified)
      else (none, .unspecified) := by
  obtain ⟨hrequest, hresponse⟩ := deduced_wanted lines m.name
  unfold callCompression prepareClientCompressionContext
  rw [← map_algorithm_specified, hrequest, ← hresponse, getD_specified]

theorem specified_wantedResponse (lines : List String) (name : String) :
    ((wantedResponse lines name).getD .unspecified).specified = wantedResponse lines name := by
  rw [← (deduced_wanted lines name).2, getD_specified]

end ProxyGenerator

namespace ServerGenerator

/-- The members after the first call of `onConfigured`. -/
def configured (lines : List String) : CompressionConfig GrpcServerCompressionInfos :=
  onConfigured lines ⟨{}, Table.empty⟩

theorem configured_eq (lines : List String) :
    configured lines = ⟨(serviceRules lines).foldl (CompressionRule.apply
        (fun infos s => { infos with type := translateCompression s })
        (fun infos s => { infos with force := atol s ≠ 0 })) {},
      Table.empty.addAllFirst ((methodRules lines).map fun rule => (rule.1, rule.2.apply
        (fun infos s => { infos with type := translateCompression s })
        (fun infos s => { infos with force := atol s ≠ 0 })
        ({} : GrpcServerCompressionInfos)))⟩ :=
  foldl_translateConfiguration _ _ _ lines _

theorem serverFormat_service (lines : List String) :
    (configured lines).service.serverFormat = serviceFormat lines := by
  have htype : (configured lines).service.type.specified =
      (serviceRules lines).getLast?.bind fun rule => formatOf rule.value := by
    rw [configured_eq]
    dsimp only
    rw [get_foldl GrpcServerCompressionInfos.type
      fun rule => some (translateCompression rule.value)]
    · rw [getLast?_filterMap_some, specified_getD, Option.bind_map]
      rfl
    · intro infos rule
      unfold CompressionRule.apply
      cases rule.second <;> rfl
  have hforce : (configured lines).service.force =
      ((serviceRules lines).filterMap CompressionRule.second).getLast?.any
        fun s => atol s ≠ 0 := by
    rw [configured_eq]
    dsimp only
    rw [get_foldl GrpcServerCompressionInfos.force
      fun rule => rule.second.map fun s => decide (atol s ≠ 0)]
    · rw [getLast?_filterMap_map]
      cases ((serviceRules lines).filterMap CompressionRule.second).getLast? <;> rfl
    · intro infos rule
      unfold CompressionRule.apply
      cases rule.second <;> rfl
  unfold GrpcServerCompressionInfos.serverFormat serviceFormat
  rw [htype, hforce]

theorem serverFormat_method (lines : List String) (name : String) :
    ((configured lines).methods name).bind GrpcServerCompressionInfos.serverFormat =
      methodFormat lines name := by
  rw [configured_eq]
  dsimp only
  rw [Table.addAllFirst_apply, lookup_map_snd]
  show (Option.or none _).bind _ = _
  rw [Option.none_or, Option.bind_map]
  unfold methodFormat
  congr 1
  funext rule
  obtain ⟨value, second⟩ := rule
  cases second <;> rfl

/-- The response goes out in the format that the sides come to. -/
theorem callCompression_configured (m : MethodDescriptor) (lines : List String)
    (asked : GrpcCompressType) :
    callCompression m (configured lines) (some (.integer asked.code)) =
      some ((negotiated asked.specified (methodFormat lines m.name) (serviceFormat lines)).map
        GrpcCompressType.algorithm) := by
  have hcode : GrpcCompressType.ofCode asked.code = some asked := by
    cases asked <;> rfl
  unfold callCompression
  dsimp only
  rw [hcode]
  show some (prepareServerCompressionContext _) = _
  unfold prepareServerCompressionContext
  rw [← map_algorithm_specified, deduceServerCompressionType_specified, serverFormat_service,
    serverFormat_method]

end ServerGenerator

/-! ## Calls -/

theorem holds_code (platform : Platform) (t : GrpcCompressType) :
    (platform.contentKind .compressionFormat).Holds (.integer t.code) := by
  have hholds : IntegerType.Holds ⟨7, false⟩ t.code := by
    cases t <;> decide
  exact .integer hholds

theorem carried_get :
    Carried lp64 (getMembers longType intValue) (declaredLong.requestSlots.map Slot.field)
      ((declaredLong.responseSlots false).map Slot.field) declaredLong := by
  have hunset : (getDescriptor longType intValue).Unset := ⟨rfl, by decide⟩
  exact plain_get.carried hunset rfl rfl (generateMessages_eq _ false) (by decide)

end Xpcf.GrpcGen
