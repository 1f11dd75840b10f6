import CapabilityRegistry.Resolution

/-! The read-only queries of the registry: single answers, listings and comparisons. -/
namespace CapabilityRegistry

section Texts

def stalenessNames : List (StalenessFlag × Text) :=
  [(.deviceGenerationSuperseded, "device-generation-superseded"),
    (.deviceBootChanged, "device-boot-changed"),
    (.driverGenerationChanged, "driver-generation-changed"),
    (.firmwareGenerationChanged, "firmware-generation-changed"),
    (.runtimeGenerationChanged, "runtime-generation-changed"),
    (.platformGenerationChanged, "platform-generation-changed"),
    (.publisherFenced, "publisher-fenced"),
    (.epochSuperseded, "epoch-superseded"),
    (.supersededByNewerEvidence, "superseded-by-newer-evidence"),
    (.withdrawn, "withdrawn"),
    (.requiresRevalidation, "requires-revalidation")]

def describeStaleness (flags : StalenessFlag) : Text :=
  if flags == .none then "current"
  else joinTexts ","
    ((stalenessNames.filter fun e => flags.bits &&& e.1.bits != 0).map Prod.snd)

/-- A part of an explanation that is there only under a condition. -/
def partIf (condition : Bool) (text : Text) : Text := if condition then text else []

def explainQuirk (application : QuirkApplication) : Text :=
  "\n  quirk " ++ application.id.str ++ " [" ++ application.severity.toText ++ "/" ++
    application.result.toText ++ "]: " ++ application.reason

def explainEvidence (view : EvidenceView) : Text :=
  "\n  evidence " ++ view.source.adapter ++
    partIf (!view.source.nativeReference.isEmpty)
      (" reference=" ++ view.source.nativeReference) ++
    " source=" ++ view.source.sourceClass.toText ++
    " provenance=" ++ view.source.provenance.toText ++
    " support=" ++ view.support.toText ++
    " publisher=" ++ view.source.publisher.id.str ++
    " boot=" ++ view.source.publisher.boot.str ++
    " evidence-generation=" ++ view.source.evidenceGeneration.str ++
    (if view.winner then " [selected]" else " [not-selected]" : Text) ++
    partIf (isStale view.staleness) (" stale=" ++ describeStaleness view.staleness)

def buildExplanation (resolved : ResolvedCapability) (targetIsCurrent : Bool) : Text :=
  "capability " ++ resolved.capability.str ++ " on device " ++ resolved.device.str ++
    " (generation " ++ resolved.deviceGeneration.str ++
    (if targetIsCurrent then ", current)" else ", historical)" : Text) ++
    "\n  declared: " ++ resolved.declaredSupport.toText ++
    "\n  effective: " ++ resolved.effectiveSupport.toText ++
    partIf (!resolved.value.empty) ("\n  value: " ++ resolved.value.describe) ++
    "\n  truth: " ++ resolved.truth.toText ++
    "\n  precision: " ++ resolved.precision.toText ++
    "\n  contradiction: " ++ resolved.contradiction.toText ++
    "\n  staleness: " ++ describeStaleness resolved.staleness ++
    partIf (!resolved.conditions.isNull)
      ("\n  conditions: " ++ describeCondition resolved.conditions ++ " => " ++
        resolved.conditionOutcome.toText) ++
    resolved.quirks.flatMap explainQuirk ++ resolved.evidence.flatMap explainEvidence

/-- The explanation of an answer. Only an answer without current evidence carries the
contradiction state that asks for revalidation. -/
def explain (resolved : ResolvedCapability) (targetIsCurrent : Bool) : Text :=
  let subject : Text :=
    "capability " ++ resolved.capability.str ++ " on device " ++ resolved.device.str
  if !resolved.known then
    subject ++ ": no capability knowledge recorded; state UNKNOWN " ++
      "(absence of evidence is not evidence of absence)"
  else if resolved.contradiction == .revalidationRequired then
    subject ++ ": no current evidence (" ++ describeStaleness resolved.staleness ++
      "); declared knowledge is retained for audit but is not authoritative"
  else buildExplanation resolved targetIsCurrent

end Texts

/-- An answer with its explanation. The leaves the condition evaluation lists are a function of
the conditions and the environment of the query, and are left out. -/
structure CapabilityAnswer extends ResolvedCapability where
  explanation : Text := []
deriving Inhabited

structure CapabilityQuery where
  device : DeviceId := default
  deviceGeneration : DeviceGeneration := default
  capability : CapabilityId := default
  environment : EnvironmentContext := {}
  includeEvidence : Bool := true

structure DeviceCapabilityQuery where
  device : DeviceId := default
  deviceGeneration : DeviceGeneration := default
  environment : EnvironmentContext := {}
  capabilityPrefix : Text := []
  domain : Option CapabilityDomain := none
  declaredFilter : Option SupportState := none
  effectiveFilter : Option EffectiveSupport := none
  truthFilter : Option TruthClass := none
  onlyConditional : Bool := false
  onlyUnknown : Bool := false
  onlyUnsupported : Bool := false
  onlyStale : Bool := false
  onlyCurrent : Bool := true
  maxResults : Nat := 0

structure FleetCapabilityQuery where
  capability : CapabilityId := default
  environment : EnvironmentContext := {}
  effectiveFilter : Option EffectiveSupport := none
  truthFilter : Option TruthClass := none
  hardwareClass : Option HardwareClass := none
  onlyCurrent : Bool := true
  maxResults : Nat := 0

structure StaleCapabilityQuery where
  device : DeviceId := default
  deviceGeneration : DeviceGeneration := default
  environment : EnvironmentContext := {}
  maxResults : Nat := 0

structure QuirkQuery where
  device : Option DeviceId := none
  environment : EnvironmentContext := {}
  capability : Option CapabilityId := none
  onlyApplicable : Bool := false
  maxResults : Nat := 0

structure CompatibilityQuery where
  reference : Option HardwareReference := none
  kind : Option CompatibilitySubjectKind := none
  includeWithdrawn : Bool := false
  maxResults : Nat := 0

structure ComparisonRequest where
  left : DeviceId := default
  right : DeviceId := default
  leftGeneration : DeviceGeneration := default
  rightGeneration : DeviceGeneration := default
  environment : EnvironmentContext := {}

structure PublisherQuery where
  state : Option PublisherState := none
  maxResults : Nat := 0

inductive CapabilityDifferenceKind
  | equivalent | onlyInLeft | onlyInRight | supportStateDiffers | effectiveSupportDiffers
  | valueDiffers | conditionsDiffer | precisionDiffers | stalenessDiffers | truthClassDiffers
  | contradictionDiffers | driverDependentDifference | firmwareDependentDifference
  | runtimeDependentDifference | architectureMismatch | shapeDiffers
deriving DecidableEq, Inhabited

instance : CodeEnum CapabilityDifferenceKind where
  members := [.equivalent, .onlyInLeft, .onlyInRight, .supportStateDiffers,
    .effectiveSupportDiffers, .valueDiffers, .conditionsDiffer, .precisionDiffers,
    .stalenessDiffers, .truthClassDiffers, .contradictionDiffers, .driverDependentDifference,
    .firmwareDependentDifference, .runtimeDependentDifference, .architectureMismatch,
    .shapeDiffers]
  mem_members := by rintro ⟨⟩ <;> decide

structure CapabilityDifference where
  capability : CapabilityId
  kind : CapabilityDifferenceKind := .equivalent
  leftEffective : EffectiveSupport := .unknown
  rightEffective : EffectiveSupport := .unknown
  detail : Text := []
deriving Inhabited

structure DeviceComparison where
  left : DeviceId := default
  right : DeviceId := default
  leftGeneration : DeviceGeneration := default
  rightGeneration : DeviceGeneration := default
  leftSoftware : Text := []
  rightSoftware : Text := []
  differences : List CapabilityDifference := []
  equivalent : List CapabilityId := []
  explanation : Text := []
deriving Inhabited

/-- A loop over a container that keeps some results and stops once their bound is reached. -/
def collect {α β : Type} (limit : Nat) (keep : α → Option β) : List α → List β → List β
  | [], out => out
  | x :: xs, out =>
    match keep x with
    | none => collect limit keep xs out
    | some y => if out.length + 1 ≥ limit then out ++ [y] else collect limit keep xs (out ++ [y])

section Comparison

def viewGateAxis (view : ResolvedCapability) (axis : ConditionKind) : Bool :=
  conditionTreeContains axis view.conditions

/-- The first respect in which two answers differ, and its text. -/
def firstDifference (left right : ResolvedCapability) : CapabilityDifferenceKind × Text :=
  let versus (a b : Text) : Text := a ++ " vs " ++ b
  if left.effectiveSupport != right.effectiveSupport then
    (.effectiveSupportDiffers,
      versus left.effectiveSupport.toText right.effectiveSupport.toText)
  else if left.declaredSupport != right.declaredSupport then
    (.supportStateDiffers, versus left.declaredSupport.toText right.declaredSupport.toText)
  else if !left.value.beq right.value then
    (.valueDiffers, versus left.value.describe right.value.describe)
  else if describeCondition left.conditions != describeCondition right.conditions then
    (.conditionsDiffer,
      versus (describeCondition left.conditions) (describeCondition right.conditions))
  else if left.truth != right.truth then
    (.truthClassDiffers, versus left.truth.toText right.truth.toText)
  else if left.contradiction != right.contradiction then
    (.contradictionDiffers, versus left.contradiction.toText right.contradiction.toText)
  else if left.precision != right.precision then
    (.precisionDiffers, versus left.precision.toText right.precision.toText)
  else if isStale left.staleness || isStale right.staleness then
    (.stalenessDiffers,
      versus (describeStaleness left.staleness) (describeStaleness right.staleness))
  else (.equivalent, "equivalent under the queried environment")

/-- A difference of the declared support is attributed to the axis that qualifies a side. -/
def attributeDifference (left right : ResolvedCapability)
    (difference : CapabilityDifferenceKind × Text) : CapabilityDifferenceKind × Text :=
  let gated (axis : ConditionKind) : Bool := viewGateAxis left axis || viewGateAxis right axis
  if difference.1 != .equivalent && left.declaredSupport != right.declaredSupport then
    if gated .minDriverVersion then
      (.driverDependentDifference, difference.2 ++ " (driver-qualified)")
    else if gated .minFirmwareVersion then
      (.firmwareDependentDifference, difference.2 ++ " (firmware-qualified)")
    else if gated .minRuntimeVersion then
      (.runtimeDependentDifference, difference.2 ++ " (runtime-qualified)")
    else difference
  else difference

def differenceOrder (a b : CapabilityDifference) : Ordering :=
  (compare a.capability b.capability).then (compare (CodeEnum.code a.kind) (CodeEnum.code b.kind))

def describeDriver (software : DeviceSoftwareState) : Text :=
  software.driver.id.str ++ "@" ++ software.driver.version

end Comparison

namespace Impl
variable [StdLib] (r : Impl)

/-- `resolve_locked` with the explanation it ends with. -/
def answer (device : DeviceState) (capability : CapabilityId) (pinned : DeviceGeneration)
    (environment : EnvironmentContext) : CapabilityAnswer :=
  let resolved := r.resolve device capability pinned environment
  { toResolvedCapability := resolved
    explanation := explain resolved
      ((if pinned.valid then pinned else device.generation) == device.generation) }

def findDevice (id : DeviceId) : Except Error DeviceState :=
  match r.devices[id]? with
  | none => .error ⟨.notFound, "device " ++ id.str ++ " is not registered"⟩
  | some device => .ok device

/-- The index entry of a device, in key order; an absent entry lists nothing. -/
def ownedCapabilities (device : DeviceId) : List CapabilityId :=
  match r.deviceKeys[device]? with
  | none => []
  | some owned => owned.toList

/-- Zero asks for the bound of the registry. -/
def resultLimit (maxResults : Nat) : Nat :=
  if maxResults = 0 then r.limits.maxQueryResults else maxResults

def queryCapability (query : CapabilityQuery) : Except Error CapabilityAnswer := do
  require (query.device.valid && query.capability.valid) .invalidArgument
    "capability query requires a device and a capability"
  let device ← r.findDevice query.device
  let answer := r.answer device query.capability query.deviceGeneration query.environment
  pure (if query.includeEvidence then answer else { answer with evidence := [] })

/-- What a capability listing keeps of one key of the device. -/
def listedCapability (query : DeviceCapabilityQuery) (device : DeviceState)
    (capability : CapabilityId) : Option CapabilityAnswer :=
  if capability.str.take query.capabilityPrefix.length != query.capabilityPrefix then none
  else match r.keys[KeyId.mk query.device capability]? with
  | none => none
  | some key =>
    if query.domain.isSome && (r.schemas[key.schema]?).map CapabilitySchema.domain != query.domain
    then none
    else
      let answer := r.answer device capability query.deviceGeneration query.environment
      if query.onlyCurrent && !answer.current then none
      else if query.onlyStale && !isStale answer.staleness then none
      else if query.onlyConditional && answer.conditions.isNull then none
      else if query.onlyUnknown && answer.effectiveSupport != .unknown &&
          answer.declaredSupport != .unknown then none
      else if query.onlyUnsupported && answer.effectiveSupport != .unsupported &&
          answer.declaredSupport != .unsupported then none
      else if query.declaredFilter.any fun s => answer.declaredSupport != s then none
      else if query.effectiveFilter.any fun s => answer.effectiveSupport != s then none
      else if query.truthFilter.any fun t => answer.truth != t then none
      else some answer

def queryCapabilities (query : DeviceCapabilityQuery) : Except Error (List CapabilityAnswer) := do
  require query.device.valid .invalidArgument "device capability query requires a device"
  let device ← r.findDevice query.device
  pure (collect (r.resultLimit query.maxResults) (r.listedCapability query device)
    (r.ownedCapabilities query.device) [])

/-- What a stale listing keeps of one key of the device. -/
def listedStale (query : StaleCapabilityQuery) (device : DeviceState) (capability : CapabilityId) :
    Option CapabilityAnswer :=
  let answer := r.answer device capability query.deviceGeneration query.environment
  if answer.current && !isStale answer.staleness then none else some answer

def queryStale (query : StaleCapabilityQuery) : Except Error (List CapabilityAnswer) := do
  require query.device.valid .invalidArgument "stale query requires a device"
  let device ← r.findDevice query.device
  pure (collect (r.resultLimit query.maxResults) (r.listedStale query device)
    (r.ownedCapabilities query.device) [])

/-- The application of a quirk that is asked for without a device. -/
def unappliedQuirk (quirk : QuirkRecord) : QuirkApplication :=
  { id := quirk.id
    quirkGeneration := quirk.quirkGeneration
    severity := quirk.severity
    mitigation := quirk.mitigation
    title := quirk.title
    result := .unknown
    reason := "no device supplied for applicability evaluation" }

/-- What a quirk query keeps of one quirk. -/
def listedQuirk (query : QuirkQuery) (device : Option DeviceState) (quirk : QuirkRecord) :
    Option QuirkApplication :=
  if quirk.withdrawn then none
  else if query.capability.any fun c => !quirk.impactedCapabilities.contains c then none
  else match device with
  | none => if query.onlyApplicable then none else some (unappliedQuirk quirk)
  | some device =>
    let application := evaluateQuirk quirk device.identity device.software query.environment
    if query.onlyApplicable && application.result != .applies then none else some application

def queryQuirks (query : QuirkQuery) : Except Error (List QuirkApplication) := do
  let device ← query.device.mapM r.findDevice
  pure (collect (r.resultLimit query.maxResults) (listedQuirk query device)
    (r.quirks.toList.map Prod.snd) [])

/-- What a compatibility query keeps of one fact. -/
def listedFact (query : CompatibilityQuery) (fact : CompatibilityFact) : Option CompatibilityFact :=
  let matched (side reference : HardwareReference) : Bool :=
    side.kind == reference.kind && side.token == reference.token
  if !query.includeWithdrawn && fact.withdrawn then none
  else if query.kind.any fun k => fact.kind != k then none
  else if query.reference.any fun x => !(matched fact.lhs x || matched fact.rhs x) then none
  else some fact

def queryCompatibility (query : CompatibilityQuery) : List CompatibilityFact :=
  collect (r.resultLimit query.maxResults) (listedFact query)
    (r.compatibility.toList.map Prod.snd) []

/-- How one capability compares between two devices. -/
def compareCapability (request : ComparisonRequest) (left right : DeviceState)
    (capability : CapabilityId) : CapabilityDifference :=
  let inLeft := r.keys.contains (KeyId.mk request.left capability)
  let inRight := r.keys.contains (KeyId.mk request.right capability)
  if inLeft && !inRight then
    { capability
      kind := .onlyInLeft
      detail := "capability knowledge recorded only for " ++ request.left.str }
  else if !inLeft && inRight then
    { capability
      kind := .onlyInRight
      detail := "capability knowledge recorded only for " ++ request.right.str }
  else
    let leftView := r.resolve left capability request.leftGeneration request.environment
    let rightView := r.resolve right capability request.rightGeneration request.environment
    let difference :=
      attributeDifference leftView rightView (firstDifference leftView rightView)
    { capability
      kind := difference.1
      leftEffective := leftView.effectiveSupport
      rightEffective := rightView.effectiveSupport
      detail := difference.2 }

/-- The capabilities recorded for either side, in order. -/
def comparedCapabilities (request : ComparisonRequest) : Std.ExtTreeSet CapabilityId :=
  (r.ownedCapabilities request.left ++ r.ownedCapabilities request.right).foldl
    (fun compared capability => compared.insert capability) ∅

def compareDevices (request : ComparisonRequest) : Except Error DeviceComparison := do
  require (request.left.valid && request.right.valid) .invalidArgument
    "comparison requires two device identities"
  let left ← r.findDevice request.left
  let right ← r.findDevice request.right
  let differences := collect r.limits.maxComparisonEntries
    (fun capability => some (r.compareCapability request left right capability))
    (r.comparedCapabilities request).toList []
  pure
    { left := request.left
      right := request.right
      leftGeneration := left.generation
      rightGeneration := right.generation
      leftSoftware := describeDriver left.software
      rightSoftware := describeDriver right.software
      differences := SortLib.sortWith differenceOrder differences
      equivalent := SortLib.sortWith compare
        ((differences.filter fun d => d.kind == .equivalent).map CapabilityDifference.capability)
      explanation := "comparison is factual: the registry reports differences, never an ordering" }

end Impl

end CapabilityRegistry
