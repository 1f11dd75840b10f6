import CapabilityRegistry.Hardware
import CapabilityRegistry.Provenance

/-! Capability schemas and capability evidence records. -/
namespace CapabilityRegistry

inductive CapabilityDomain
  | other | compute | memory | partitioning | interconnect | networking | runtime | reliability
  | power | platform
deriving DecidableEq, Inhabited

instance : CodeEnum CapabilityDomain where
  members := [.other, .compute, .memory, .partitioning, .interconnect, .networking, .runtime,
    .reliability, .power, .platform]
  mem_members := by rintro ⟨⟩ <;> decide

structure CapabilitySchema where
  id : CapabilitySchemaId := default
  capability : CapabilityId := default
  domain : CapabilityDomain := .other
  valueKind : ValueKind := .none
  canonicalName : Text := []
  unit : Text := []
deriving DecidableEq, Inhabited

/-- What precedes and what follows the last `.v` of a token, as `rfind` locates it. -/
def splitVersionMarker : Text → Option (Text × Text)
  | [] => none
  | c :: rest =>
    match splitVersionMarker rest with
    | some (before, suffix) => some (c :: before, suffix)
    | none =>
      match rest with
      | d :: suffix =>
        if c == '.'.toUInt8 && d == 'v'.toUInt8 then some ([], suffix) else none
      | [] => none

def hasVersionSuffix (token : Text) : Bool :=
  match splitVersionMarker token with
  | none => false
  | some (_, suffix) => !suffix.isEmpty

def versionSuffixNumeric (token : Text) : Bool :=
  match splitVersionMarker token with
  | none => false
  | some (_, suffix) => suffix.all isDigit

def validateCapabilitySchema (schema : CapabilitySchema) (limits : RegistryLimits) : Status := do
  require schema.id.valid .invalidCapability "schema identity is not canonical"
  require schema.capability.valid .invalidCapability "capability identity is not canonical"
  require (schema.valueKind != .none) .invalidCapability "schema must declare a typed value kind"
  require (!schema.canonicalName.isEmpty && schema.canonicalName.length ≤ limits.maxNameLength)
    .invalidCapability "schema requires a bounded canonical name"
  require (schema.unit.length ≤ limits.maxMetadataBytes) .limitExceeded
    "schema unit exceeds length limit"
  require (hasVersionSuffix schema.id.str) .invalidCapability
    "schema identity must embed a version suffix"
  require (versionSuffixNumeric schema.id.str) .invalidCapability
    "schema version suffix must be numeric"

structure CapabilityRecord where
  device : DeviceId := default
  deviceGeneration : DeviceGeneration := default
  deviceBoot : DeviceBootId := default
  capability : CapabilityId := default
  schema : CapabilitySchemaId := default
  capabilityGeneration : CapabilityGeneration := default
  support : SupportState := .unknown
  value : CapabilityValue := .none
  precision : PrecisionClass := .unknown
  source : EvidenceSource := {}
  conditions : ConditionPtr := .null
  firmwareGeneration : FirmwareGeneration := default
  driverGeneration : DriverGeneration := default
  runtimeGeneration : RuntimeGeneration := default
  platformGeneration : PlatformGeneration := default
  driverId : DriverId := default
  firmwareId : FirmwareId := default
  runtimeId : RuntimeId := default
  withdrawn : Bool := false
deriving Inhabited

/-- A null condition tree is not checked. -/
def validateConditions (conditions : ConditionPtr) (limits : RegistryLimits) : Status :=
  match conditions with
  | .null => .ok ()
  | .node kind key value children => validateCondition (.node kind key value children) limits

def validateCapabilityRecord (record : CapabilityRecord) (limits : RegistryLimits) : Status := do
  require record.device.valid .invalidIdentity "capability record requires a device identity"
  require record.deviceGeneration.valid .invalidIdentity
    "capability record requires a device generation"
  require record.capability.valid .invalidCapability
    "capability record requires a capability identity"
  require record.schema.valid .invalidCapability "capability record requires a schema identity"
  require record.source.publisher.id.valid .invalidProvenance
    "capability record requires a publisher identity"
  require (!record.source.adapter.isEmpty) .invalidProvenance
    "capability record requires a source adapter"
  require (record.source.adapter.length ≤ limits.maxMetadataBytes) .limitExceeded
    "source adapter exceeds length limit"
  require (record.source.nativeReference.length ≤ limits.maxMetadataBytes) .limitExceeded
    "native reference exceeds length limit"
  require (record.source.observedAtUtc.length ≤ limits.maxMetadataBytes) .limitExceeded
    "observation timestamp exceeds length limit"
  require (record.source.sourceClass != .unspecified) .invalidProvenance
    "capability record requires a source class"
  require (provenanceAllowedFor record.source.provenance record.source.sourceClass)
    .invalidProvenance "claimed provenance is stronger than the source class can support"
  require (!record.withdrawn || record.support == .unknown) .invalidSupportState
    "a withdrawn capability must not assert a support state"
  require (!record.withdrawn || record.value.empty) .invalidValue
    "a withdrawn capability must not carry a value"
  validateConditions record.conditions limits
  validateValue limits record.value

/-- Two records state the same thing: support, value and rendered conditions. -/
def capabilityContentEqual (left right : CapabilityRecord) : Bool :=
  left.support == right.support && left.value.beq right.value &&
    describeCondition left.conditions == describeCondition right.conditions

def recordGateAxis (record : CapabilityRecord) (axis : ConditionKind) : Bool :=
  conditionTreeContains axis record.conditions

section Acceptance
variable {record : CapabilityRecord} {schema : CapabilitySchema} {limits : RegistryLimits}

/-- The identities an accepted record carries are all set. -/
theorem valid_ids_of_validateCapabilityRecord
    (h : validateCapabilityRecord record limits = .ok ()) :
    record.device.valid = true ∧ record.deviceGeneration.valid = true ∧
      record.capability.valid = true ∧ record.schema.valid = true ∧
      record.source.publisher.id.valid = true := by
  simp only [validateCapabilityRecord, bind_eq_ok, require_eq_ok, exists_const] at h
  exact ⟨h.1, h.2.1, h.2.2.1, h.2.2.2.1, h.2.2.2.2.1⟩

end Acceptance

end CapabilityRegistry
