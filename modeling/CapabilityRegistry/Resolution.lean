import CapabilityRegistry.Lib.Sort
import CapabilityRegistry.Staleness

/-! Resolution of one capability key and the summary of one subject. -/
namespace CapabilityRegistry

structure EvidenceView where
  capabilityGeneration : CapabilityGeneration := default
  support : SupportState := .unknown
  value : CapabilityValue := .none
  precision : PrecisionClass := .unknown
  source : EvidenceSource := {}
  staleness : StalenessFlag := .none
  winner : Bool := false
  withdrawn : Bool := false
deriving Inhabited

structure ResolvedCapability where
  device : DeviceId := default
  deviceGeneration : DeviceGeneration := default
  deviceBoot : DeviceBootId := default
  capability : CapabilityId := default
  schema : CapabilitySchemaId := default
  capabilityGeneration : CapabilityGeneration := default
  declaredSupport : SupportState := .unknown
  effectiveSupport : EffectiveSupport := .unknown
  value : CapabilityValue := .none
  precision : PrecisionClass := .unknown
  truth : TruthClass := .unknown
  contradiction : ContradictionState := .consistent
  staleness : StalenessFlag := .none
  conditions : ConditionPtr := .null
  conditionOutcome : ConditionOutcome := .notApplicable
  quirks : List QuirkApplication := []
  evidence : List EvidenceView := []
  firmwareGeneration : FirmwareGeneration := default
  driverGeneration : DriverGeneration := default
  runtimeGeneration : RuntimeGeneration := default
  current : Bool := false
  known : Bool := false
deriving Inhabited

/-- The comparator `export_durable_state` sorts the evidence history with. -/
def historyOrder : CapabilityRecord → CapabilityRecord → Ordering :=
  compareLex (compareOn CapabilityRecord.device) <|
    compareLex (compareOn CapabilityRecord.capability) <|
      compareLex (compareOn CapabilityRecord.capabilityGeneration) <|
        compareLex (compareOn fun record => record.source.publisher.id) <|
          compareOn fun record => record.source.observationSequence

instance : Std.TransCmp historyOrder :=
  inferInstanceAs (Std.TransCmp (compareLex _ (compareLex _ (compareLex _ (compareLex _ _)))))

/-- The comparator evidence views are sorted with. -/
def evidenceOrdering (left right : EvidenceView) : Bool :=
  if left.staleness != right.staleness then !isStale left.staleness && isStale right.staleness
  else if left.winner != right.winner then left.winner
  else if left.capabilityGeneration != right.capabilityGeneration then
    right.capabilityGeneration < left.capabilityGeneration
  else if left.source.authority != right.source.authority then
    right.source.authority < left.source.authority
  else if left.source.publisher.id != right.source.publisher.id then
    compare left.source.publisher.id right.source.publisher.id == .lt
  else right.source.observationSequence < left.source.observationSequence

/-- What the C++ standard leaves to its implementation: the value of `std::hash`, and the order
in which `std::sort` leaves elements that its comparator does not separate. -/
class StdLib where
  hash : Text → UInt64
  sortHistory : List CapabilityRecord → List CapabilityRecord
  sortHistory_perm : ∀ records, (sortHistory records).Perm records
  sortHistory_sorted : ∀ records, (sortHistory records).Pairwise fun a b => historyOrder a b ≠ .gt
  sortEvidence : List EvidenceView → List EvidenceView
  sortEvidence_perm : ∀ views, (sortEvidence views).Perm views

/-- One standard library: FNV-1a as the hash, a stable merge sort as the sort. -/
@[reducible] def StdLib.reference : StdLib where
  hash text := fnv1a64 text kFnvOffsetBasis
  sortHistory := SortLib.sortWith historyOrder
  sortHistory_perm := SortLib.sortWith_perm historyOrder
  sortHistory_sorted := SortLib.sortWith_pairwise historyOrder
  sortEvidence views := views.mergeSort fun a b => !evidenceOrdering b a
  sortEvidence_perm views := List.mergeSort_perm views _

/-- `by_authority`: what makes one current record win over another. -/
def authorityOrder (left right : CapabilityRecord) : Ordering :=
  (compare right.source.authority left.source.authority).then <|
    (compare (precisionClassRank right.precision) (precisionClassRank left.precision)).then <|
      (compare right.source.evidenceGeneration left.source.evidenceGeneration).then <|
        (compare left.source.publisher.id right.source.publisher.id).then <|
          compare right.source.observationSequence left.source.observationSequence

/-- The rendered statement that resolution groups candidates by. -/
def assertion (record : CapabilityRecord) : Text :=
  record.support.toText ++ "|" ++ record.value.describe ++ "|" ++
    describeCondition record.conditions

/-- The scan of the candidates for the winner. -/
def selectWinner (first : StoredRecord) (rest : List StoredRecord) : StoredRecord :=
  rest.foldl (fun winner candidate =>
    if authorityOrder candidate.record winner.record == .lt then candidate else winner) first

def classifyContradiction (winner : StoredRecord) (candidates : List StoredRecord) :
    ContradictionState :=
  let agree (xs : List StoredRecord) : Bool :=
    xs.all fun c => some (assertion c.record) == xs.head?.map fun h => assertion h.record
  if agree candidates then .consistent
  else if !agree (candidates.filter fun c =>
      c.record.source.authority == winner.record.source.authority) then .ambiguous
  else
    let winnerLive := provenanceIsReal winner.record.source.provenance
    let dissentAllNonLive := candidates.all fun c =>
      assertion c.record == assertion winner.record || !provenanceIsReal c.record.source.provenance
    if winnerLive && dissentAllNonLive then .preferredLiveEvidence
    else .preferredHigherAuthoritySource

def quirkBlocks (application : QuirkApplication) : Bool :=
  application.result == .applies &&
    (application.severity == .unusable || application.severity == .fatal)

def quirkCaveats (application : QuirkApplication) : Bool :=
  application.result == .applies &&
    (application.severity == .caveat || application.severity == .degraded)

def computeEffectiveSupport (declared : SupportState) (outcome : ConditionOutcome)
    (quirks : List QuirkApplication) : EffectiveSupport :=
  match declared with
  | .unknown => .unknown
  | .revalidationRequired => .revalidationRequired
  | .unsupported => .unsupported
  | .disabled => .disabled
  | _ =>
    match outcome with
    | .unsatisfied => .supportedConditionalUnmet
    | .unknown => .supportedConditionalUnknown
    | _ =>
      if quirks.any quirkBlocks then .blockedByQuirk
      else if quirks.any quirkCaveats then .supportedWithCaveat else .supported

def classifyTruth (declared : SupportState) (effective : EffectiveSupport)
    (evidence : List EvidenceView) : TruthClass :=
  if declared == .unsupported || effective == .unsupported then .unsupported
  else if effective == .unknown && declared == .unknown then .unknown
  else match evidence.find? EvidenceView.winner with
    | none => .unknown
    | some view =>
      match view.source.provenance with
      | .synthetic => .synthetic
      | .unknownSource => .unknown
      | _ => .real

def quirkOrder (a b : QuirkApplication) : Ordering :=
  (compare (CodeEnum.code b.severity) (CodeEnum.code a.severity)).then <|
    (compare a.id b.id).then (compare a.quirkGeneration b.quirkGeneration)

namespace Impl
variable [StdLib] (r : Impl)

/-- The scan of the quirk map, which stops once the query bound is reached. -/
def gatherQuirksLoop (device : DeviceState) (capability : CapabilityId)
    (environment : EnvironmentContext) (limit : Nat) :
    List QuirkRecord → List QuirkApplication → List QuirkApplication →
      List QuirkApplication × List QuirkApplication
  | [], applications, deferred => (applications, deferred)
  | quirk :: rest, applications, deferred =>
    if quirk.withdrawn || !quirk.impactedCapabilities.contains capability then
      gatherQuirksLoop device capability environment limit rest applications deferred
    else
      let application := evaluateQuirk quirk device.identity device.software environment
      if application.result == .doesNotApply then
        gatherQuirksLoop device capability environment limit rest applications deferred
      else
        let (applications, deferred) :=
          if application.result == .unknown then (applications, deferred ++ [application])
          else (applications ++ [application], deferred)
        if applications.length + deferred.length ≥ limit then (applications, deferred)
        else gatherQuirksLoop device capability environment limit rest applications deferred

def gatherQuirks (device : DeviceState) (capability : CapabilityId)
    (environment : EnvironmentContext) : List QuirkApplication :=
  let gathered := gatherQuirksLoop device capability environment r.limits.maxQueryResults
    (r.quirks.toList.map Prod.snd) [] []
  SortLib.sortWith quirkOrder gathered.1 ++ SortLib.sortWith quirkOrder gathered.2

/-- The newest retained assertion, reported as declared knowledge when nothing is current. -/
def newestRetained (records : List StoredRecord) : Option StoredRecord :=
  records.foldl (fun newest stored =>
    if stored.record.withdrawn then newest
    else match newest with
      | none => some stored
      | some n =>
        if n.record.capabilityGeneration < stored.record.capabilityGeneration ||
            (stored.record.capabilityGeneration == n.record.capabilityGeneration &&
              n.serial < stored.serial) then some stored else some n) none

def evidenceView (stored : StoredRecord) (flags : StalenessFlag) : EvidenceView :=
  { capabilityGeneration := stored.record.capabilityGeneration
    support := stored.record.support
    value := stored.record.value
    precision := stored.record.precision
    source := stored.record.source
    staleness := flags
    withdrawn := stored.record.withdrawn }

def markWinner (winner : StoredRecord) (view : EvidenceView) : EvidenceView :=
  { view with
    winner := view.source.publisher.id == winner.record.source.publisher.id &&
      view.capabilityGeneration == winner.record.capabilityGeneration &&
      view.source.nativeReference == winner.record.source.nativeReference &&
      view.source.observationSequence == winner.record.source.observationSequence }

/-- The records of a key with their staleness against a target generation. -/
def flagged (key : KeyState) (device : DeviceState) (target : DeviceGeneration)
    (targetIsCurrent : Bool) : List (StoredRecord × StalenessFlag) :=
  key.records.map fun stored => (stored, r.computeStaleness stored device target targetIsCurrent)

/-- The answer when no record of the key is current. -/
def resolveStale (base : ResolvedCapability) (key : KeyState) (device : DeviceState)
    (records : List (StoredRecord × StalenessFlag)) (environment : EnvironmentContext) :
    ResolvedCapability :=
  let anyFlags : StalenessFlag := ⟨records.foldl (fun bits e => bits ||| e.2.bits) 0⟩
  let newest := newestRetained key.records
  { base with
    current := false
    contradiction := .revalidationRequired
    staleness := if anyFlags == .none then .requiresRevalidation else anyFlags
    declaredSupport := (newest.map fun n => n.record.support).getD .unknown
    value := (newest.map fun n => n.record.value).getD .none
    precision := (newest.map fun n => n.record.precision).getD .unknown
    conditions := (newest.map fun n => n.record.conditions).getD .null
    conditionOutcome :=
      (newest.map fun n => evaluateCondition environment n.record.conditions).getD .notApplicable
    effectiveSupport := .revalidationRequired
    truth := if key.hasEvidence then .real else .unknown
    capabilityGeneration := key.generation
    evidence := StdLib.sortEvidence (records.map fun e => evidenceView e.1 e.2)
    quirks := r.gatherQuirks device base.capability environment }

/-- The answer when some record of the key is current. -/
def resolveCurrent (base : ResolvedCapability) (key : KeyState) (device : DeviceState)
    (records : List (StoredRecord × StalenessFlag)) (environment : EnvironmentContext)
    (first : StoredRecord) (rest : List StoredRecord) : ResolvedCapability :=
  let winner := selectWinner first rest
  let outcome := evaluateCondition environment winner.record.conditions
  let quirks := r.gatherQuirks device base.capability environment
  let evidence :=
    StdLib.sortEvidence (records.map fun e => markWinner winner (evidenceView e.1 e.2))
  let effective := computeEffectiveSupport winner.record.support outcome quirks
  { base with
    contradiction := classifyContradiction winner (first :: rest)
    capabilityGeneration := key.generation
    declaredSupport := winner.record.support
    value := winner.record.value
    precision := winner.record.precision
    conditions := winner.record.conditions
    conditionOutcome := outcome
    staleness := .none
    evidence := evidence
    quirks := quirks
    effectiveSupport := effective
    truth := classifyTruth winner.record.support effective evidence }

def resolve (device : DeviceState) (capability : CapabilityId) (pinned : DeviceGeneration)
    (environment : EnvironmentContext) : ResolvedCapability :=
  let target := if pinned.valid then pinned else device.generation
  let targetIsCurrent := target == device.generation
  let base : ResolvedCapability :=
    { device := device.identity.id
      deviceGeneration := device.generation
      deviceBoot := device.boot
      capability := capability
      firmwareGeneration := device.software.firmwareGeneration
      driverGeneration := device.software.driverGeneration
      runtimeGeneration := device.software.runtimeGeneration
      current := targetIsCurrent }
  match r.keys[KeyId.mk device.identity.id capability]? with
  | none => { base with current := false }
  | some key =>
    let base := { base with known := true, schema := key.schema }
    let records := r.flagged key device target targetIsCurrent
    match (records.filter fun e => e.2 == .none).map Prod.fst with
    | [] => r.resolveStale base key device records environment
    | first :: rest => r.resolveCurrent base key device records environment first rest

/-- `std::size_t` number of list members with a property. -/
def sizeCount {α : Type} (p : α → Bool) (xs : List α) : UInt64 := UInt64.ofNat (xs.countP p)

def classifySubject (views : List ResolvedCapability) : TruthClass :=
  if views.isEmpty then .unknown
  else if views.any fun v => v.truth == .real then .real
  else if views.any fun v => v.truth == .synthetic then .synthetic
  else if views.any fun v => v.truth == .unsupported then .unsupported
  else .unknown

def buildSubject (device : DeviceState) (environment : EnvironmentContext) : SubjectSnapshot :=
  let base : SubjectSnapshot :=
    { identity := device.identity
      software := device.software
      generation := device.generation
      boot := device.boot
      platformGeneration := device.platformGeneration }
  match r.deviceKeys[device.identity.id]? with
  | none => base
  | some owned =>
    let views := owned.toList.map fun capability =>
      r.resolve device capability default environment
    let isCurrent (v : ResolvedCapability) : Bool := v.current && !isStale v.staleness
    { base with
      capabilityCount := sizeCount (fun _ => true) views
      currentCount := sizeCount isCurrent views
      staleCount := sizeCount (fun v => !isCurrent v) views
      unknownCount := sizeCount (fun v =>
        v.effectiveSupport == .unknown || v.declaredSupport == .unknown) views
      unsupportedCount := sizeCount (fun v =>
        v.effectiveSupport == .unsupported || v.declaredSupport == .unsupported) views
      applicableQuirkCount :=
        sizeCount (fun a => a.result == .applies) (views.flatMap ResolvedCapability.quirks)
      classification := classifySubject views }

end Impl

end CapabilityRegistry
