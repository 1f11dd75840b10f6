import CapabilityRegistry.Lib.OrdMap
import CapabilityRegistry.PublicationCodec
import CapabilityRegistry.Queries

/-! The codecs of the environments and the query requests a client sends. -/
namespace CapabilityRegistry
open ByteReader (round_u64 round_boolean round_str round_list round_optional round_enum)

instance : CodeEnum EffectiveSupport where
  members := [.supported, .supportedConditionalUnmet, .supportedConditionalUnknown,
    .supportedWithCaveat, .blockedByQuirk, .disabled, .unsupported, .unknown,
    .revalidationRequired]
  mem_members := by rintro ⟨⟩ <;> decide

section Environments

def writeFact (limits : RegistryLimits) (fact : Text × Text) : ByteWriter :=
  .str fact.1 limits.maxNameLength ++ .str fact.2 limits.maxMetadataBytes

/-- The facts in key order. -/
def writeEnvironment (limits : RegistryLimits) (environment : EnvironmentContext) : ByteWriter :=
  .list limits.maxQueryResults (writeFact limits) environment.facts.toList

def EnvironmentContext.setAll (facts : List (Text × Text)) : EnvironmentContext :=
  facts.foldl (fun environment fact => environment.set fact.1 fact.2) {}

def readEnvironment (limits : RegistryLimits) : ByteReader EnvironmentContext :=
  EnvironmentContext.setAll <$> ByteReader.list limits.maxQueryResults
    ⟨.limitExceeded, "environment fact count exceeds the bound"⟩
    (Wire.both (ByteReader.str limits.maxNameLength) (ByteReader.str limits.maxMetadataBytes))

/-- Every environment that is built with `set` has lower-case keys and values. -/
def EnvironmentContext.Folded (environment : EnvironmentContext) : Prop :=
  ∀ fact ∈ environment.facts.toList, asciiLower fact.1 = fact.1 ∧ asciiLower fact.2 = fact.2

def FitsFact (limits : RegistryLimits) (fact : Text × Text) : Prop :=
  FitsText limits.maxNameLength fact.1 ∧ FitsText limits.maxMetadataBytes fact.2

def EnvironmentContext.FitsWire (limits : RegistryLimits) (environment : EnvironmentContext) :
    Prop :=
  environment.Folded ∧
    FitsList limits.maxQueryResults (FitsFact limits) environment.facts.toList

def foldFact (fact : Text × Text) : Text × Text := (asciiLower fact.1, asciiLower fact.2)

theorem asciiLowerByte_lower (c : UInt8) :
    asciiLowerByte (asciiLowerByte c) = asciiLowerByte c := by
  revert c
  decide +kernel

theorem asciiLower_lower (text : Text) : asciiLower (asciiLower text) = asciiLower text := by
  simp [asciiLower, asciiLowerByte_lower]

@[simp] theorem length_asciiLower (text : Text) : (asciiLower text).length = text.length := by
  simp [asciiLower]

theorem foldFact_fits {limits : RegistryLimits} {fact : Text × Text} :
    FitsFact limits (foldFact fact) ↔ FitsFact limits fact := by
  simp [FitsFact, FitsText, foldFact]

theorem setAll_facts (facts : List (Text × Text)) :
    (EnvironmentContext.setAll facts).facts = OrdMap.enterAll ∅ (facts.map foldFact) := by
  have hall : ∀ environment : EnvironmentContext,
      (facts.foldl (fun environment fact => environment.set fact.1 fact.2) environment).facts =
        OrdMap.enterAll environment.facts (facts.map foldFact) := by
    induction facts with
    | nil => exact fun _ => rfl
    | cons fact facts ih => exact fun environment => ih (environment.set fact.1 fact.2)
  exact hall {}

theorem EnvironmentContext.Folded.set {environment : EnvironmentContext}
    (h : environment.Folded) (key value : Text) : (environment.set key value).Folded := by
  intro fact hfact
  have hentered : fact ∈ (OrdMap.enterAll environment.facts
      [(asciiLower key, asciiLower value)]).toList := hfact
  rcases OrdMap.mem_toList_enterAll hentered with hnew | hold
  · obtain rfl := List.mem_singleton.mp hnew
    exact ⟨asciiLower_lower key, asciiLower_lower value⟩
  · exact h fact hold

theorem setAll_folded (facts : List (Text × Text)) : (EnvironmentContext.setAll facts).Folded := by
  intro fact hfact
  rw [setAll_facts] at hfact
  obtain ⟨given, -, rfl⟩ := List.mem_map.mp (OrdMap.mem_of_mem_toList_enterAll hfact)
  exact ⟨asciiLower_lower _, asciiLower_lower _⟩

/-- An environment set again from its own facts. -/
theorem setAll_toList {environment : EnvironmentContext} (h : environment.Folded) :
    EnvironmentContext.setAll environment.facts.toList = environment := by
  have hsame : environment.facts.toList.map foldFact = environment.facts.toList := by
    refine (List.map_congr_left fun fact hfact => ?_).trans (List.map_id _)
    exact Prod.ext (h fact hfact).1 (h fact hfact).2
  have hfacts := setAll_facts environment.facts.toList
  rw [hsame, OrdMap.enterAll_toList] at hfacts
  cases hset : EnvironmentContext.setAll environment.facts.toList
  cases environment
  simp_all

theorem setAll_fits {limits : RegistryLimits} {facts : List (Text × Text)}
    (h : FitsList limits.maxQueryResults (FitsFact limits) facts) :
    (EnvironmentContext.setAll facts).FitsWire limits := by
  obtain ⟨hcount, hsmall, hfits⟩ := h
  have hlen := OrdMap.length_toList_enterAll ∅ (facts.map foldFact)
  simp only [← setAll_facts, List.length_map, Std.ExtTreeMap.length_toList,
    Std.ExtTreeMap.size_empty, Nat.zero_add] at hlen
  rw [← Std.ExtTreeMap.length_toList] at hlen
  refine ⟨setAll_folded facts, hlen.trans hcount, hlen.trans_lt hsmall, fun fact hfact => ?_⟩
  rw [setAll_facts] at hfact
  obtain ⟨given, hgiven, rfl⟩ := List.mem_map.mp (OrdMap.mem_of_mem_toList_enterAll hfact)
  exact foldFact_fits.mpr (hfits given hgiven)

theorem round_environment (limits : RegistryLimits) :
    Wire.Round (fun environment => (writeEnvironment limits environment).out)
      (readEnvironment limits) (EnvironmentContext.FitsWire limits) := by
  have hfact : Wire.Round (fun fact => (writeFact limits fact).out)
      (Wire.both (ByteReader.str limits.maxNameLength) (ByteReader.str limits.maxMetadataBytes))
      (FitsFact limits) := by
    simp only [writeFact, ByteWriter.append_out]
    exact (round_str limits.maxNameLength).both (round_str limits.maxMetadataBytes)
  exact (round_list limits.maxQueryResults _ hfact fun fact => by simp [writeFact, str_ne_nil]).through
    (fun environment h => setAll_toList h.1) (fun environment h => h.2) fun _ h => setAll_fits h

end Environments

section Requests

/-- A `std::size_t` on the wire. -/
def writeCount (count : Nat) : ByteWriter := .u64 (UInt64.ofNat count)
def readCount : ByteReader Nat := UInt64.toNat <$> ByteReader.u64

theorem round_count : Wire.Round (fun n => (writeCount n).out) readCount (· < 2 ^ 64) :=
  round_u64.through (fun _ h => UInt64.toNat_ofNat_of_lt h) (fun _ _ => trivial)
    fun n _ => n.toNat_lt

/-- An optional filter of a query. -/
def writeFilter {α : Type} [DecidableEq α] [CodeEnum α] (filter : Option α) : ByteWriter :=
  .optional .enum filter

def readFilter {α : Type} [DecidableEq α] [CodeEnum α] (e : Error) : ByteReader (Option α) :=
  ByteReader.optional (ByteReader.enum e)

theorem round_filter (α : Type) [DecidableEq α] [CodeEnum α] (e : Error)
    (hsize : (CodeEnum.members : List α).length ≤ 65536 := by decide) :
    Wire.Round (fun filter : Option α => (writeFilter filter).out) (readFilter e) fun _ => True where
  reads filter _ := (round_optional (round_enum α e hsize)).reads filter fun _ _ => trivial
  yields := Wire.yields_true

def writeCapabilityQuery (limits : RegistryLimits) (query : CapabilityQuery) : ByteWriter :=
  writeId query.device ++ writeGen query.deviceGeneration ++ writeId query.capability ++
    writeEnvironment limits query.environment ++ .boolean query.includeEvidence

def readCapabilityQuery (limits : RegistryLimits) : ByteReader CapabilityQuery := do
  let device ← readId
  let deviceGeneration ← readGen
  let capability ← readId
  let environment ← readEnvironment limits
  let includeEvidence ← ByteReader.boolean
  pure { device, deviceGeneration, capability, environment, includeEvidence }

def CapabilityQuery.FitsWire (limits : RegistryLimits) (query : CapabilityQuery) : Prop :=
  query.environment.FitsWire limits

theorem round_capabilityQuery (limits : RegistryLimits) :
    Wire.Round (fun query => (writeCapabilityQuery limits query).out)
      (readCapabilityQuery limits) (CapabilityQuery.FitsWire limits) :=
  ((round_id.both <| round_gen.both <| round_id.both <| (round_environment limits).both
      round_boolean).record
    (fun query => (query.device, query.deviceGeneration, query.capability, query.environment,
      query.includeEvidence))
    (fun (device, deviceGeneration, capability, environment, includeEvidence) =>
      { device, deviceGeneration, capability, environment, includeEvidence })
    (by simp [readCapabilityQuery, Wire.both]) (fun _ => by simp [writeCapabilityQuery])
    (fun _ => rfl) fun _ => rfl).congr fun _ => by simp [CapabilityQuery.FitsWire]

def writeDeviceCapabilityQuery (limits : RegistryLimits) (query : DeviceCapabilityQuery) :
    ByteWriter :=
  writeId query.device ++ writeGen query.deviceGeneration ++
    writeEnvironment limits query.environment ++
    .str query.capabilityPrefix limits.maxNameLength ++ writeFilter query.domain ++
    writeFilter query.declaredFilter ++ writeFilter query.effectiveFilter ++
    writeFilter query.truthFilter ++ .boolean query.onlyConditional ++
    .boolean query.onlyUnknown ++ .boolean query.onlyUnsupported ++ .boolean query.onlyStale ++
    .boolean query.onlyCurrent ++ writeCount query.maxResults

def readDeviceCapabilityQuery (limits : RegistryLimits) : ByteReader DeviceCapabilityQuery := do
  let device ← readId
  let deviceGeneration ← readGen
  let environment ← readEnvironment limits
  let capabilityPrefix ← ByteReader.str limits.maxNameLength
  let domain ← readFilter ⟨.invalidCapability, "unknown capability domain on the wire"⟩
  let declaredFilter ← readFilter ⟨.invalidSupportState, "unknown support state on the wire"⟩
  let effectiveFilter ← readFilter
    ⟨.invalidSupportState, "unknown effective support on the wire"⟩
  let truthFilter ← readFilter ⟨.corruptData, "unknown truth class on the wire"⟩
  let onlyConditional ← ByteReader.boolean
  let onlyUnknown ← ByteReader.boolean
  let onlyUnsupported ← ByteReader.boolean
  let onlyStale ← ByteReader.boolean
  let onlyCurrent ← ByteReader.boolean
  let maxResults ← readCount
  pure { device, deviceGeneration, environment, capabilityPrefix, domain, declaredFilter,
         effectiveFilter, truthFilter, onlyConditional, onlyUnknown, onlyUnsupported, onlyStale,
         onlyCurrent, maxResults }

def DeviceCapabilityQuery.FitsWire (limits : RegistryLimits) (query : DeviceCapabilityQuery) :
    Prop :=
  query.environment.FitsWire limits ∧ FitsText limits.maxNameLength query.capabilityPrefix ∧
    query.maxResults < 2 ^ 64

theorem round_deviceCapabilityQuery (limits : RegistryLimits) :
    Wire.Round (fun query => (writeDeviceCapabilityQuery limits query).out)
      (readDeviceCapabilityQuery limits) (DeviceCapabilityQuery.FitsWire limits) :=
  ((round_id.both <| round_gen.both <| (round_environment limits).both <|
      (round_str limits.maxNameLength).both <|
      (round_filter CapabilityDomain
        ⟨.invalidCapability, "unknown capability domain on the wire"⟩).both <|
      (round_filter SupportState
        ⟨.invalidSupportState, "unknown support state on the wire"⟩).both <|
      (round_filter EffectiveSupport
        ⟨.invalidSupportState, "unknown effective support on the wire"⟩).both <|
      (round_filter TruthClass ⟨.corruptData, "unknown truth class on the wire"⟩).both <|
      round_boolean.both <| round_boolean.both <| round_boolean.both <| round_boolean.both <|
      round_boolean.both round_count).record
    (fun query => (query.device, query.deviceGeneration, query.environment,
      query.capabilityPrefix, query.domain, query.declaredFilter, query.effectiveFilter,
      query.truthFilter, query.onlyConditional, query.onlyUnknown, query.onlyUnsupported,
      query.onlyStale, query.onlyCurrent, query.maxResults))
    (fun (device, deviceGeneration, environment, capabilityPrefix, domain, declaredFilter,
        effectiveFilter, truthFilter, onlyConditional, onlyUnknown, onlyUnsupported, onlyStale,
        onlyCurrent, maxResults) =>
      { device, deviceGeneration, environment, capabilityPrefix, domain, declaredFilter,
        effectiveFilter, truthFilter, onlyConditional, onlyUnknown, onlyUnsupported, onlyStale,
        onlyCurrent, maxResults })
    (by simp [readDeviceCapabilityQuery, Wire.both])
    (fun _ => by simp [writeDeviceCapabilityQuery])
    (fun _ => rfl) fun _ => rfl).congr fun _ => by simp [DeviceCapabilityQuery.FitsWire]

def writeFleetQuery (limits : RegistryLimits) (query : FleetCapabilityQuery) : ByteWriter :=
  writeId query.capability ++ writeEnvironment limits query.environment ++
    writeFilter query.effectiveFilter ++ writeFilter query.truthFilter ++
    writeFilter query.hardwareClass ++ .boolean query.onlyCurrent ++ writeCount query.maxResults

def readFleetQuery (limits : RegistryLimits) : ByteReader FleetCapabilityQuery := do
  let capability ← readId
  let environment ← readEnvironment limits
  let effectiveFilter ← readFilter
    ⟨.invalidSupportState, "unknown effective support on the wire"⟩
  let truthFilter ← readFilter ⟨.corruptData, "unknown truth class on the wire"⟩
  let hardwareClass ← readFilter ⟨.invalidIdentity, "unknown hardware class on the wire"⟩
  let onlyCurrent ← ByteReader.boolean
  let maxResults ← readCount
  pure { capability, environment, effectiveFilter, truthFilter, hardwareClass, onlyCurrent,
         maxResults }

def FleetCapabilityQuery.FitsWire (limits : RegistryLimits) (query : FleetCapabilityQuery) :
    Prop :=
  query.environment.FitsWire limits ∧ query.maxResults < 2 ^ 64

theorem round_fleetQuery (limits : RegistryLimits) :
    Wire.Round (fun query => (writeFleetQuery limits query).out) (readFleetQuery limits)
      (FleetCapabilityQuery.FitsWire limits) :=
  ((round_id.both <| (round_environment limits).both <|
      (round_filter EffectiveSupport
        ⟨.invalidSupportState, "unknown effective support on the wire"⟩).both <|
      (round_filter TruthClass ⟨.corruptData, "unknown truth class on the wire"⟩).both <|
      (round_filter HardwareClass
        ⟨.invalidIdentity, "unknown hardware class on the wire"⟩).both <|
      round_boolean.both round_count).record
    (fun query => (query.capability, query.environment, query.effectiveFilter, query.truthFilter,
      query.hardwareClass, query.onlyCurrent, query.maxResults))
    (fun (capability, environment, effectiveFilter, truthFilter, hardwareClass, onlyCurrent,
        maxResults) =>
      { capability, environment, effectiveFilter, truthFilter, hardwareClass, onlyCurrent,
        maxResults })
    (by simp [readFleetQuery, Wire.both]) (fun _ => by simp [writeFleetQuery])
    (fun _ => rfl) fun _ => rfl).congr fun _ => by simp [FleetCapabilityQuery.FitsWire]

def writeStaleQuery (limits : RegistryLimits) (query : StaleCapabilityQuery) : ByteWriter :=
  writeId query.device ++ writeGen query.deviceGeneration ++
    writeEnvironment limits query.environment ++ writeCount query.maxResults

def readStaleQuery (limits : RegistryLimits) : ByteReader StaleCapabilityQuery := do
  let device ← readId
  let deviceGeneration ← readGen
  let environment ← readEnvironment limits
  let maxResults ← readCount
  pure { device, deviceGeneration, environment, maxResults }

def StaleCapabilityQuery.FitsWire (limits : RegistryLimits) (query : StaleCapabilityQuery) :
    Prop :=
  query.environment.FitsWire limits ∧ query.maxResults < 2 ^ 64

theorem round_staleQuery (limits : RegistryLimits) :
    Wire.Round (fun query => (writeStaleQuery limits query).out) (readStaleQuery limits)
      (StaleCapabilityQuery.FitsWire limits) :=
  ((round_id.both <| round_gen.both <| (round_environment limits).both round_count).record
    (fun query => (query.device, query.deviceGeneration, query.environment, query.maxResults))
    (fun (device, deviceGeneration, environment, maxResults) =>
      { device, deviceGeneration, environment, maxResults })
    (by simp [readStaleQuery, Wire.both]) (fun _ => by simp [writeStaleQuery])
    (fun _ => rfl) fun _ => rfl).congr fun _ => by simp [StaleCapabilityQuery.FitsWire]

def writeQuirkQuery (limits : RegistryLimits) (query : QuirkQuery) : ByteWriter :=
  .optional writeId query.device ++ writeEnvironment limits query.environment ++
    .optional writeId query.capability ++ .boolean query.onlyApplicable ++
    writeCount query.maxResults

def readQuirkQuery (limits : RegistryLimits) : ByteReader QuirkQuery := do
  let device ← ByteReader.optional readId
  let environment ← readEnvironment limits
  let capability ← ByteReader.optional readId
  let onlyApplicable ← ByteReader.boolean
  let maxResults ← readCount
  pure { device, environment, capability, onlyApplicable, maxResults }

def QuirkQuery.FitsWire (limits : RegistryLimits) (query : QuirkQuery) : Prop :=
  query.environment.FitsWire limits ∧ query.maxResults < 2 ^ 64

theorem round_quirkQuery (limits : RegistryLimits) :
    Wire.Round (fun query => (writeQuirkQuery limits query).out) (readQuirkQuery limits)
      (QuirkQuery.FitsWire limits) :=
  (((round_optional round_id).both <| (round_environment limits).both <|
      (round_optional round_id).both <| round_boolean.both round_count).record
    (fun query => (query.device, query.environment, query.capability, query.onlyApplicable,
      query.maxResults))
    (fun (device, environment, capability, onlyApplicable, maxResults) =>
      { device, environment, capability, onlyApplicable, maxResults })
    (by simp [readQuirkQuery, Wire.both]) (fun _ => by simp [writeQuirkQuery])
    (fun _ => rfl) fun _ => rfl).congr fun _ => by simp [QuirkQuery.FitsWire, FitsOptional]

def writeCompatibilityQuery (limits : RegistryLimits) (query : CompatibilityQuery) : ByteWriter :=
  .optional (writeHardwareReference limits) query.reference ++ writeFilter query.kind ++
    .boolean query.includeWithdrawn ++ writeCount query.maxResults

def readCompatibilityQuery (limits : RegistryLimits) : ByteReader CompatibilityQuery := do
  let reference ← ByteReader.optional (readHardwareReference limits)
  let kind ← readFilter ⟨.corruptData, "unknown compatibility subject kind on the wire"⟩
  let includeWithdrawn ← ByteReader.boolean
  let maxResults ← readCount
  pure { reference, kind, includeWithdrawn, maxResults }

def CompatibilityQuery.FitsWire (limits : RegistryLimits) (query : CompatibilityQuery) : Prop :=
  FitsOptional (HardwareReference.FitsWire limits) query.reference ∧ query.maxResults < 2 ^ 64

theorem round_compatibilityQuery (limits : RegistryLimits) :
    Wire.Round (fun query => (writeCompatibilityQuery limits query).out)
      (readCompatibilityQuery limits) (CompatibilityQuery.FitsWire limits) :=
  (((round_optional (round_hardwareReference limits)).both <|
      (round_filter CompatibilitySubjectKind
        ⟨.corruptData, "unknown compatibility subject kind on the wire"⟩).both <|
      round_boolean.both round_count).record
    (fun query => (query.reference, query.kind, query.includeWithdrawn, query.maxResults))
    (fun (reference, kind, includeWithdrawn, maxResults) =>
      { reference, kind, includeWithdrawn, maxResults })
    (by simp [readCompatibilityQuery, Wire.both]) (fun _ => by simp [writeCompatibilityQuery])
    (fun _ => rfl) fun _ => rfl).congr fun _ => by simp [CompatibilityQuery.FitsWire]

def writeComparisonRequest (limits : RegistryLimits) (request : ComparisonRequest) : ByteWriter :=
  writeId request.left ++ writeId request.right ++ writeGen request.leftGeneration ++
    writeGen request.rightGeneration ++ writeEnvironment limits request.environment

def readComparisonRequest (limits : RegistryLimits) : ByteReader ComparisonRequest := do
  let left ← readId
  let right ← readId
  let leftGeneration ← readGen
  let rightGeneration ← readGen
  let environment ← readEnvironment limits
  pure { left, right, leftGeneration, rightGeneration, environment }

def ComparisonRequest.FitsWire (limits : RegistryLimits) (request : ComparisonRequest) : Prop :=
  request.environment.FitsWire limits

theorem round_comparisonRequest (limits : RegistryLimits) :
    Wire.Round (fun request => (writeComparisonRequest limits request).out)
      (readComparisonRequest limits) (ComparisonRequest.FitsWire limits) :=
  ((round_id.both <| round_id.both <| round_gen.both <| round_gen.both <|
      round_environment limits).record
    (fun request => (request.left, request.right, request.leftGeneration,
      request.rightGeneration, request.environment))
    (fun (left, right, leftGeneration, rightGeneration, environment) =>
      { left, right, leftGeneration, rightGeneration, environment })
    (by simp [readComparisonRequest, Wire.both]) (fun _ => by simp [writeComparisonRequest])
    (fun _ => rfl) fun _ => rfl).congr fun _ => by simp [ComparisonRequest.FitsWire]

def writePublisherQuery (query : PublisherQuery) : ByteWriter :=
  writeFilter query.state ++ writeCount query.maxResults

def readPublisherQuery : ByteReader PublisherQuery := do
  let state ← readFilter ⟨.corruptData, "unknown publisher state on the wire"⟩
  let maxResults ← readCount
  pure { state, maxResults }

def PublisherQuery.FitsWire (query : PublisherQuery) : Prop := query.maxResults < 2 ^ 64

theorem round_publisherQuery :
    Wire.Round (fun query => (writePublisherQuery query).out) readPublisherQuery
      PublisherQuery.FitsWire :=
  (((round_filter PublisherState
        ⟨.corruptData, "unknown publisher state on the wire"⟩).both round_count).record
    (fun query => (query.state, query.maxResults)) (fun (state, maxResults) => { state, maxResults })
    (by simp [readPublisherQuery, Wire.both]) (fun _ => by simp [writePublisherQuery])
    (fun _ => rfl) fun _ => rfl).congr fun _ => by simp [PublisherQuery.FitsWire]

end Requests

end CapabilityRegistry
