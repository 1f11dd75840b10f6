import CapabilityRegistry.Capability

/-! Quirk records, their validation and their evaluation against one device. -/
namespace CapabilityRegistry

inductive QuirkCategory
  | capabilityMisreport | driverDefect | firmwareDefect | revisionLimitation | requiredWorkaround
  | brokenFeatureCombination | performanceCaveat | resetRequirement | unsupportedCombination
  | versionIncompatibility | other
deriving DecidableEq, Inhabited

instance : CodeEnum QuirkCategory where
  members := [.capabilityMisreport, .driverDefect, .firmwareDefect, .revisionLimitation,
    .requiredWorkaround, .brokenFeatureCombination, .performanceCaveat, .resetRequirement,
    .unsupportedCombination, .versionIncompatibility, .other]
  mem_members := by rintro ⟨⟩ <;> decide

inductive QuirkSeverity
  | informational | caveat | degraded | unusable | fatal
deriving DecidableEq, Inhabited

instance : CodeEnum QuirkSeverity where
  members := [.informational, .caveat, .degraded, .unusable, .fatal]
  mem_members := by rintro ⟨⟩ <;> decide

def QuirkSeverity.toText : QuirkSeverity → Text
  | .informational => "informational"
  | .caveat => "caveat"
  | .degraded => "degraded"
  | .unusable => "unusable"
  | .fatal => "fatal"

inductive MitigationKind
  | none | upgradeDriver | upgradeFirmware | upgradeRuntime | changeDeviceMode
  | changePlatformSetting | disableFeature | useAlternateCapability | resetDevice | contactVendor
deriving DecidableEq, Inhabited

instance : CodeEnum MitigationKind where
  members := [.none, .upgradeDriver, .upgradeFirmware, .upgradeRuntime, .changeDeviceMode,
    .changePlatformSetting, .disableFeature, .useAlternateCapability, .resetDevice, .contactVendor]
  mem_members := by rintro ⟨⟩ <;> decide

structure RevisionRange where
  minimum : Text
  maximum : Text
deriving DecidableEq

structure QuirkApplicability where
  vendors : List VendorId := []
  families : List HardwareFamilyId := []
  models : List HardwareModelId := []
  devices : List DeviceId := []
  revisions : List HardwareRevisionId := []
  revisionRanges : List RevisionRange := []
  architectures : List ArchitectureId := []
  driverRanges : List VersionRange := []
  firmwareRanges : List VersionRange := []
  runtimeRanges : List VersionRange := []
  platformConditions : ConditionPtr := .null
deriving Inhabited

/-- Numeric precedence when both tokens parse as versions, text order otherwise. -/
def compareRevisionToken (a b : Text) : Int :=
  let left := SoftwareVersion.parse a
  let right := SoftwareVersion.parse b
  if left.valid && right.valid then SoftwareVersion.compare left right
  else match compare a b with
    | .lt => -1
    | .gt => 1
    | .eq => 0

/-- The `check_ids` helper of one selector, named by `what`. -/
def checkIds {Tag : Type} (values : List (Id Tag)) (what : Text) : Status := do
  require (values.length ≤ 1024) .limitExceeded ("quirk " ++ what ++ " selector too large" : Text)
  checkAll (fun id : Id Tag => require id.valid .invalidIdentity
    ("quirk " ++ what ++ " selector invalid" : Text)) values

def checkRevisionRange (limits : RegistryLimits) (range : RevisionRange) : Status := do
  require (!range.minimum.isEmpty && !range.maximum.isEmpty) .invalidRange
    "revision range requires both bounds"
  require (range.minimum.length ≤ limits.maxMetadataBytes &&
    range.maximum.length ≤ limits.maxMetadataBytes) .limitExceeded
    "revision bound exceeds length limit"
  require (!(compareRevisionToken range.minimum range.maximum > 0)) .invalidRange
    "revision range minimum exceeds maximum"

def checkRange (range : VersionRange) : Status := do
  require range.valid .invalidRange "quirk version range is inverted"
  require (range.minimum.valid || range.maximum.valid) .invalidRange
    "quirk version range has no bound"

def validateQuirkApplicability (applicability : QuirkApplicability) (limits : RegistryLimits) :
    Status := do
  checkIds applicability.vendors "vendor"
  checkIds applicability.families "family"
  checkIds applicability.models "model"
  checkIds applicability.devices "device"
  checkIds applicability.revisions "revision"
  checkIds applicability.architectures "architecture"
  require (applicability.revisionRanges.length ≤ 64 && applicability.driverRanges.length ≤ 64 &&
    applicability.firmwareRanges.length ≤ 64 && applicability.runtimeRanges.length ≤ 64)
    .limitExceeded "quirk range selector too large"
  checkAll (checkRevisionRange limits) applicability.revisionRanges
  checkAll checkRange applicability.driverRanges
  checkAll checkRange applicability.firmwareRanges
  checkAll checkRange applicability.runtimeRanges
  validateConditions applicability.platformConditions limits

structure QuirkRecord where
  id : QuirkId := default
  quirkGeneration : QuirkGeneration := default
  title : Text := []
  description : Text := []
  category : QuirkCategory := .other
  severity : QuirkSeverity := .informational
  mitigation : MitigationKind := .none
  applicability : QuirkApplicability := {}
  impactedCapabilities : List CapabilityId := []
  source : EvidenceSource := {}
  withdrawn : Bool := false
deriving Inhabited

def validateQuirkRecord (record : QuirkRecord) (limits : RegistryLimits) : Status := do
  require record.id.valid .invalidIdentity "quirk requires a canonical identity"
  require record.quirkGeneration.valid .invalidIdentity "quirk requires a generation"
  require (!record.title.isEmpty && record.title.length ≤ limits.maxNameLength) .invalidArgument
    "quirk requires a bounded title"
  require (record.description.length ≤ limits.maxMetadataBytes) .limitExceeded
    "quirk description exceeds length limit"
  require (!record.impactedCapabilities.isEmpty) .invalidCapability
    "quirk must impact at least one capability"
  require (record.impactedCapabilities.length ≤ 64) .limitExceeded
    "quirk impacts too many capabilities"
  require (record.impactedCapabilities.all Id.valid) .invalidCapability
    "quirk impacts an invalid capability identity"
  require record.source.publisher.id.valid .invalidProvenance "quirk requires a publisher identity"
  require (!record.source.adapter.isEmpty && record.source.adapter.length ≤ limits.maxMetadataBytes)
    .invalidProvenance "quirk requires a bounded source adapter"
  require (record.source.sourceClass != .unspecified) .invalidProvenance
    "quirk requires a source class"
  require (provenanceAllowedFor record.source.provenance record.source.sourceClass)
    .invalidProvenance "quirk provenance is stronger than its source class can support"
  validateQuirkApplicability record.applicability limits

inductive QuirkApplicabilityResult
  | applies | doesNotApply | unknown
deriving DecidableEq, Inhabited

def QuirkApplicabilityResult.toText : QuirkApplicabilityResult → Text
  | .applies => "applies"
  | .doesNotApply => "does-not-apply"
  | .unknown => "unknown"

structure QuirkApplication where
  id : QuirkId := default
  quirkGeneration : QuirkGeneration := default
  severity : QuirkSeverity := .informational
  mitigation : MitigationKind := .none
  result : QuirkApplicabilityResult := .doesNotApply
  reason : Text := []
  title : Text := []
deriving DecidableEq, Inhabited

/-- A selector's verdict: refuted with its reason, matched, or deferred for lack of knowledge. -/
inductive SelectorVerdict
  | refuted (reason : Text)
  | matched
  | deferred (reason : Text)

/-- An identity selector whose unavailable level counts as not selected. -/
def selectKnown {Tag : Type} (selected : List (Id Tag)) (id : Id Tag) (text : Text) :
    SelectorVerdict :=
  if selected.isEmpty then .matched
  else if !id.valid || !selected.contains id then .refuted text else .matched

/-- An identity selector whose unavailable level is deferred. -/
def selectOrDefer {Tag : Type} (selected : List (Id Tag)) (id : Id Tag) (unknownText text : Text) :
    SelectorVerdict :=
  if selected.isEmpty then .matched
  else if !id.valid then .deferred unknownText
  else if !selected.contains id then .refuted text else .matched

def selectDevice (selected : List DeviceId) (id : DeviceId) : SelectorVerdict :=
  if !selected.isEmpty && !selected.contains id then .refuted "device not selected" else .matched

def selectRevisionRanges (ranges : List RevisionRange) (revision : HardwareRevisionId) :
    SelectorVerdict :=
  if ranges.isEmpty then .matched
  else if !revision.valid then .deferred "device revision unknown"
  else if ranges.any fun range => compareRevisionToken revision.str range.minimum ≥ 0 &&
    compareRevisionToken revision.str range.maximum ≤ 0 then .matched
  else .refuted "revision outside range"

def describeRanges (ranges : List VersionRange) : Text :=
  joinTexts "|" (ranges.map VersionRange.describe)

/-- The `evaluate_ranges` helper of one software axis. -/
def selectRanges (ranges : List VersionRange) (observed axis : Text) : SelectorVerdict :=
  if ranges.isEmpty then .matched
  else if observed.isEmpty then .deferred ("device " ++ axis ++ " version unknown" : Text)
  else
    let version := SoftwareVersion.parse observed
    if !version.valid then .deferred ("device " ++ axis ++ " version unparseable" : Text)
    else if ranges.any fun range => range.contains version then .matched
    else .refuted (axis ++ " version " ++ version.raw ++ " outside " ++ describeRanges ranges)

def selectConditions (conditions : ConditionPtr) (environment : EnvironmentContext) :
    SelectorVerdict :=
  if conditions.isNull then .matched
  else match evaluateCondition environment conditions with
    | .unsatisfied =>
      .refuted ("platform condition unsatisfied: " ++ describeCondition conditions : Text)
    | .unknown => .deferred ("platform condition unknown: " ++ describeCondition conditions : Text)
    | _ => .matched

/-- The selectors in source order: the first refutation decides, else the last deferral. -/
def combineVerdicts : Option Text → List SelectorVerdict → QuirkApplicabilityResult × Text
  | none, [] => (.applies, "all applicability selectors matched")
  | some reason, [] => (.unknown, reason)
  | _, .refuted reason :: _ => (.doesNotApply, reason)
  | deferred, .matched :: rest => combineVerdicts deferred rest
  | _, .deferred reason :: rest => combineVerdicts (some reason) rest

def evaluateQuirk (quirk : QuirkRecord) (device : DeviceIdentity) (software : DeviceSoftwareState)
    (environment : EnvironmentContext) : QuirkApplication :=
  let a := quirk.applicability
  let verdict := combineVerdicts none [
    selectDevice a.devices device.id,
    selectKnown a.vendors device.hardware.vendor "vendor not selected",
    selectKnown a.families device.hardware.family "family not selected",
    selectKnown a.models device.hardware.model "model not selected",
    selectOrDefer a.architectures device.hardware.architecture "device architecture unknown"
      "architecture not selected",
    selectOrDefer a.revisions device.hardware.revision "device revision unknown"
      "revision not selected",
    selectRevisionRanges a.revisionRanges device.hardware.revision,
    selectRanges a.driverRanges software.driver.version "driver",
    selectRanges a.firmwareRanges software.firmware.version "firmware",
    selectRanges a.runtimeRanges software.runtime.version "runtime",
    selectConditions a.platformConditions environment]
  { id := quirk.id, quirkGeneration := quirk.quirkGeneration, severity := quirk.severity,
    mitigation := quirk.mitigation, title := quirk.title,
    result := verdict.1, reason := verdict.2 }

end CapabilityRegistry
