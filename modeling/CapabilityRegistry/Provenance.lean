import CapabilityRegistry.Lib.CodeEnum
import CapabilityRegistry.Status

/-! Support states, precision, source classes, provenance and staleness flags. -/
namespace CapabilityRegistry

inductive SupportState
  | supportedNative | supportedConditional | supportedEmulated | supportedSoftwareAssisted
  | supportedExperimental | disabled | unsupported | unknown | revalidationRequired
deriving DecidableEq, Inhabited

instance : CodeEnum SupportState where
  members := [.supportedNative, .supportedConditional, .supportedEmulated,
    .supportedSoftwareAssisted, .supportedExperimental, .disabled, .unsupported, .unknown,
    .revalidationRequired]
  mem_members := by rintro ⟨⟩ <;> decide

def SupportState.toText : SupportState → Text
  | .supportedNative => "SUPPORTED_NATIVE"
  | .supportedConditional => "SUPPORTED_CONDITIONAL"
  | .supportedEmulated => "SUPPORTED_EMULATED"
  | .supportedSoftwareAssisted => "SUPPORTED_SOFTWARE_ASSISTED"
  | .supportedExperimental => "SUPPORTED_EXPERIMENTAL"
  | .disabled => "DISABLED"
  | .unsupported => "UNSUPPORTED"
  | .unknown => "UNKNOWN"
  | .revalidationRequired => "REVALIDATION_REQUIRED"

def assertsCapabilityAbsent (state : SupportState) : Bool := state == .unsupported

inductive EffectiveSupport
  | supported | supportedConditionalUnmet | supportedConditionalUnknown | supportedWithCaveat
  | blockedByQuirk | disabled | unsupported | unknown | revalidationRequired
deriving DecidableEq, Inhabited

def EffectiveSupport.toText : EffectiveSupport → Text
  | .supported => "SUPPORTED"
  | .supportedConditionalUnmet => "SUPPORTED_CONDITIONAL_UNMET"
  | .supportedConditionalUnknown => "SUPPORTED_CONDITIONAL_UNKNOWN"
  | .supportedWithCaveat => "SUPPORTED_WITH_CAVEAT"
  | .blockedByQuirk => "BLOCKED_BY_QUIRK"
  | .disabled => "DISABLED"
  | .unsupported => "UNSUPPORTED"
  | .unknown => "UNKNOWN"
  | .revalidationRequired => "REVALIDATION_REQUIRED"

inductive ContradictionState
  | consistent | conflictingEvidence | preferredLiveEvidence | preferredHigherAuthoritySource
  | ambiguous | revalidationRequired
deriving DecidableEq, Inhabited

def ContradictionState.toText : ContradictionState → Text
  | .consistent => "CONSISTENT"
  | .conflictingEvidence => "CONFLICTING_EVIDENCE"
  | .preferredLiveEvidence => "PREFERRED_LIVE_EVIDENCE"
  | .preferredHigherAuthoritySource => "PREFERRED_HIGHER_AUTHORITY_SOURCE"
  | .ambiguous => "AMBIGUOUS"
  | .revalidationRequired => "REVALIDATION_REQUIRED"

inductive TruthClass
  | real | synthetic | unsupported | unknown
deriving DecidableEq, Inhabited

instance : CodeEnum TruthClass where
  members := [.real, .synthetic, .unsupported, .unknown]
  mem_members := by rintro ⟨⟩ <;> decide

def TruthClass.toText : TruthClass → Text
  | .real => "REAL"
  | .synthetic => "SYNTHETIC"
  | .unsupported => "UNSUPPORTED"
  | .unknown => "UNKNOWN"

inductive PrecisionClass
  | exact | probed | directReported | derived | curated | inferred | unknown
deriving DecidableEq, Inhabited

instance : CodeEnum PrecisionClass where
  members := [.exact, .probed, .directReported, .derived, .curated, .inferred, .unknown]
  mem_members := by rintro ⟨⟩ <;> decide

def PrecisionClass.toText : PrecisionClass → Text
  | .exact => "EXACT"
  | .probed => "PROBED"
  | .directReported => "DIRECT_REPORTED"
  | .derived => "DERIVED"
  | .curated => "CURATED"
  | .inferred => "INFERRED"
  | .unknown => "UNKNOWN"

def precisionClassRank : PrecisionClass → Nat
  | .exact => 6
  | .probed => 5
  | .directReported => 4
  | .derived => 3
  | .curated => 2
  | .inferred => 1
  | .unknown => 0

inductive SourceClass
  | unspecified | syntheticBackend | importedManifest | staticCuratedDatabase | acpiSmbios
  | pciConfiguration | osEnumeration | nicDriverApi | cxlEnumeration | rocmSmi | nvml
  | cudaRuntime | runtimeProbe | firmwareQuery | driverQuery | liveVendorApi | hardwareProbe
deriving DecidableEq, Inhabited

instance : CodeEnum SourceClass where
  members := [.unspecified, .syntheticBackend, .importedManifest, .staticCuratedDatabase,
    .acpiSmbios, .pciConfiguration, .osEnumeration, .nicDriverApi, .cxlEnumeration, .rocmSmi,
    .nvml, .cudaRuntime, .runtimeProbe, .firmwareQuery, .driverQuery, .liveVendorApi,
    .hardwareProbe]
  mem_members := by rintro ⟨⟩ <;> decide

def SourceClass.toText : SourceClass → Text
  | .unspecified => "unspecified"
  | .syntheticBackend => "synthetic-backend"
  | .importedManifest => "imported-manifest"
  | .staticCuratedDatabase => "static-curated-database"
  | .acpiSmbios => "acpi-smbios"
  | .pciConfiguration => "pci-configuration"
  | .osEnumeration => "os-enumeration"
  | .nicDriverApi => "nic-driver-api"
  | .cxlEnumeration => "cxl-enumeration"
  | .rocmSmi => "rocm-smi"
  | .nvml => "nvml"
  | .cudaRuntime => "cuda-runtime"
  | .runtimeProbe => "runtime-probe"
  | .firmwareQuery => "firmware-query"
  | .driverQuery => "driver-query"
  | .liveVendorApi => "live-vendor-api"
  | .hardwareProbe => "hardware-probe"

def sourceAuthority : SourceClass → Nat
  | .syntheticBackend => 1
  | .unspecified => 2
  | .importedManifest => 3
  | .staticCuratedDatabase => 4
  | .acpiSmbios => 5
  | .pciConfiguration => 6
  | .osEnumeration => 7
  | .nicDriverApi => 8
  | .cxlEnumeration => 9
  | .rocmSmi => 10
  | .nvml => 11
  | .cudaRuntime => 12
  | .runtimeProbe => 13
  | .firmwareQuery => 14
  | .driverQuery => 15
  | .liveVendorApi => 16
  | .hardwareProbe => 17

/-- Every source class has its own authority. -/
theorem sourceAuthority_injective : Function.Injective sourceAuthority := by
  intro a b h
  cases a <;> cases b <;> first | rfl | cases h

inductive ProvenanceClass
  | realLiveHardware | realOsReported | realVendorApi | realRuntimeProbe | curatedStatic
  | derived | imported | synthetic | unknownSource
deriving DecidableEq, Inhabited

instance : CodeEnum ProvenanceClass where
  members := [.realLiveHardware, .realOsReported, .realVendorApi, .realRuntimeProbe,
    .curatedStatic, .derived, .imported, .synthetic, .unknownSource]
  mem_members := by rintro ⟨⟩ <;> decide

def ProvenanceClass.toText : ProvenanceClass → Text
  | .realLiveHardware => "REAL_LIVE_HARDWARE"
  | .realOsReported => "REAL_OS_REPORTED"
  | .realVendorApi => "REAL_VENDOR_API"
  | .realRuntimeProbe => "REAL_RUNTIME_PROBE"
  | .curatedStatic => "CURATED_STATIC"
  | .derived => "DERIVED"
  | .imported => "IMPORTED"
  | .synthetic => "SYNTHETIC"
  | .unknownSource => "UNKNOWN_SOURCE"

def provenanceIsReal : ProvenanceClass → Bool
  | .realLiveHardware | .realOsReported | .realVendorApi | .realRuntimeProbe => true
  | _ => false

/-- Only curated, imported and derived knowledge survives a coordinator restart. -/
def provenanceIsDurable : ProvenanceClass → Bool
  | .curatedStatic | .imported | .derived => true
  | _ => false

def defaultProvenanceFor : SourceClass → ProvenanceClass
  | .syntheticBackend => .synthetic
  | .importedManifest => .imported
  | .staticCuratedDatabase => .curatedStatic
  | .acpiSmbios | .pciConfiguration | .osEnumeration => .realOsReported
  | .nicDriverApi | .cxlEnumeration | .rocmSmi | .nvml | .cudaRuntime => .realVendorApi
  | .runtimeProbe | .firmwareQuery | .driverQuery => .realRuntimeProbe
  | .liveVendorApi | .hardwareProbe => .realLiveHardware
  | .unspecified => .unknownSource

def provenanceStrength : ProvenanceClass → Nat
  | .synthetic => 0
  | .unknownSource => 1
  | .imported => 2
  | .curatedStatic => 3
  | .derived => 4
  | .realOsReported => 5
  | .realVendorApi => 6
  | .realRuntimeProbe => 7
  | .realLiveHardware => 8

def provenanceAllowedFor (provenance : ProvenanceClass) (source : SourceClass) : Bool :=
  provenanceStrength provenance ≤ provenanceStrength (defaultProvenanceFor source)

structure PublisherIdentity where
  id : PublisherId := default
  boot : PublisherBootId := default
  epoch : CoordinatorEpoch := default
deriving DecidableEq, Inhabited

inductive PublisherState
  | unknown | registered | fenced | dead
deriving DecidableEq, Inhabited

instance : CodeEnum PublisherState where
  members := [.unknown, .registered, .fenced, .dead]
  mem_members := by rintro ⟨⟩ <;> decide

structure EvidenceSource where
  sourceClass : SourceClass := .unspecified
  provenance : ProvenanceClass := .unknownSource
  publisher : PublisherIdentity := {}
  adapter : Text := []
  nativeReference : Text := []
  observationSequence : UInt64 := 0
  observedAtUtc : Text := []
  evidenceGeneration : EvidenceGeneration := default
  platformGeneration : UInt64 := 0
deriving DecidableEq, Inhabited

def EvidenceSource.authority (source : EvidenceSource) : Nat := sourceAuthority source.sourceClass

/-- The staleness bit set. -/
structure StalenessFlag where
  bits : UInt32
deriving DecidableEq

namespace StalenessFlag

def none : StalenessFlag := ⟨0⟩
def deviceGenerationSuperseded : StalenessFlag := ⟨1⟩
def deviceBootChanged : StalenessFlag := ⟨2⟩
def driverGenerationChanged : StalenessFlag := ⟨4⟩
def firmwareGenerationChanged : StalenessFlag := ⟨8⟩
def runtimeGenerationChanged : StalenessFlag := ⟨16⟩
def platformGenerationChanged : StalenessFlag := ⟨32⟩
def publisherFenced : StalenessFlag := ⟨64⟩
def epochSuperseded : StalenessFlag := ⟨128⟩
def supersededByNewerEvidence : StalenessFlag := ⟨256⟩
def withdrawn : StalenessFlag := ⟨512⟩
def requiresRevalidation : StalenessFlag := ⟨1024⟩

instance : Inhabited StalenessFlag := ⟨none⟩

/-- `flags |= flag`, under the condition that guards it. -/
def raise (flags : StalenessFlag) (condition : Bool) (flag : StalenessFlag) : StalenessFlag :=
  if condition then ⟨flags.bits ||| flag.bits⟩ else flags

end StalenessFlag

def isStale (flags : StalenessFlag) : Bool := flags != .none

end CapabilityRegistry
