import CapabilityRegistry.Capability

/-! Compatibility facts between two hardware or software references. -/
namespace CapabilityRegistry

inductive CompatibilitySubjectKind
  | acceleratorRuntime | acceleratorDriver | acceleratorCompilerTarget
  | acceleratorKernelArchitecture | nicRdmaStack | gpuNicDirectPath | cxlPlatform
  | partitionProfileDevice | firmwareDriver | dpuServiceHardware | memoryTypeExecutionEngine
  | platformDriver | other
deriving DecidableEq, Inhabited

instance : CodeEnum CompatibilitySubjectKind where
  members := [.acceleratorRuntime, .acceleratorDriver, .acceleratorCompilerTarget,
    .acceleratorKernelArchitecture, .nicRdmaStack, .gpuNicDirectPath, .cxlPlatform,
    .partitionProfileDevice, .firmwareDriver, .dpuServiceHardware, .memoryTypeExecutionEngine,
    .platformDriver, .other]
  mem_members := by rintro ⟨⟩ <;> decide

inductive HardwareReferenceKind
  | device | hardwareFamily | hardwareModel | architecture | vendor | firmware | driver | runtime
  | platform
deriving DecidableEq, Inhabited

instance : CodeEnum HardwareReferenceKind where
  members := [.device, .hardwareFamily, .hardwareModel, .architecture, .vendor, .firmware, .driver,
    .runtime, .platform]
  mem_members := by rintro ⟨⟩ <;> decide

structure HardwareReference where
  kind : HardwareReferenceKind := .device
  token : Text := []
  version : SoftwareVersion := default
deriving DecidableEq, Inhabited

/-- `operator==`: the version qualifier is compared by precedence. -/
def HardwareReference.beq (a b : HardwareReference) : Bool :=
  a.kind == b.kind && a.token == b.token && SoftwareVersion.compare a.version b.version == 0

inductive CompatibilityOutcome
  | compatible | compatibleConditional | incompatible | unknown | unsupported
  | revalidationRequired
deriving DecidableEq, Inhabited

instance : CodeEnum CompatibilityOutcome where
  members := [.compatible, .compatibleConditional, .incompatible, .unknown, .unsupported,
    .revalidationRequired]
  mem_members := by rintro ⟨⟩ <;> decide

structure CompatibilityFact where
  id : CompatibilityFactId := default
  compatibilityGeneration : CompatibilityGeneration := default
  kind : CompatibilitySubjectKind := .other
  lhs : HardwareReference := {}
  rhs : HardwareReference := {}
  outcome : CompatibilityOutcome := .unknown
  conditions : ConditionPtr := .null
  versionWindow : VersionRange := {}
  reason : Text := []
  source : EvidenceSource := {}
  withdrawn : Bool := false
deriving Inhabited

def validateCompatibilityFact (fact : CompatibilityFact) (limits : RegistryLimits) : Status := do
  require fact.id.valid .invalidIdentity "compatibility fact requires a canonical identity"
  require fact.compatibilityGeneration.valid .invalidIdentity
    "compatibility fact requires a generation"
  require (isCanonicalToken fact.lhs.token && isCanonicalToken fact.rhs.token) .invalidReference
    "compatibility reference token is not canonical"
  require (!fact.lhs.beq fact.rhs) .invalidReference
    "compatibility fact references the same subject twice"
  require (fact.reason.length ≤ limits.maxMetadataBytes) .limitExceeded
    "compatibility reason exceeds length limit"
  require (!((fact.outcome == .incompatible || fact.outcome == .unsupported) &&
    fact.reason.isEmpty)) .invalidArgument
    "incompatible or unsupported compatibility facts require a reason"
  require fact.versionWindow.valid .invalidRange "compatibility version window is inverted"
  require fact.source.publisher.id.valid .invalidProvenance
    "compatibility fact requires a publisher identity"
  require (!fact.source.adapter.isEmpty && fact.source.adapter.length ≤ limits.maxMetadataBytes)
    .invalidProvenance "compatibility fact requires a bounded source adapter"
  require (fact.source.sourceClass != .unspecified) .invalidProvenance
    "compatibility fact requires a source class"
  require (provenanceAllowedFor fact.source.provenance fact.source.sourceClass) .invalidProvenance
    "compatibility provenance is stronger than its source class can support"
  validateConditions fact.conditions limits

end CapabilityRegistry
