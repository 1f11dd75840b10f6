import CapabilityRegistry.Compatibility
import CapabilityRegistry.Quirk

/-! Publications, their structural validation, their fingerprint and the result codes. -/
namespace CapabilityRegistry

inductive PublicationKind
  | registerPublisher | registerDevice | publishDeviceGeneration | publishCapability
  | withdrawCapability | publishQuirk | withdrawQuirk | publishCompatibility
  | withdrawCompatibility | registerCapabilitySchema | heartbeat
deriving DecidableEq, Inhabited

instance : CodeEnum PublicationKind where
  members := [.registerPublisher, .registerDevice, .publishDeviceGeneration, .publishCapability,
    .withdrawCapability, .publishQuirk, .withdrawQuirk, .publishCompatibility,
    .withdrawCompatibility, .registerCapabilitySchema, .heartbeat]
  mem_members := by rintro ⟨⟩ <;> decide

def PublicationKind.toText : PublicationKind → Text
  | .registerPublisher => "register-publisher"
  | .registerDevice => "register-device"
  | .publishDeviceGeneration => "publish-device-generation"
  | .publishCapability => "publish-capability"
  | .withdrawCapability => "withdraw-capability"
  | .publishQuirk => "publish-quirk"
  | .withdrawQuirk => "withdraw-quirk"
  | .publishCompatibility => "publish-compatibility"
  | .withdrawCompatibility => "withdraw-compatibility"
  | .registerCapabilitySchema => "register-capability-schema"
  | .heartbeat => "heartbeat"

def PublicationKind.isCapability : PublicationKind → Bool
  | .publishCapability | .withdrawCapability => true
  | _ => false

structure Publication where
  kind : PublicationKind := .registerDevice
  publisher : PublisherIdentity := {}
  sequence : UInt64 := 0
  evidenceGeneration : EvidenceGeneration := default
  device : DeviceRegistration := {}
  capability : CapabilityRecord := {}
  quirk : QuirkRecord := {}
  compatibility : CompatibilityFact := {}
  schema : CapabilitySchema := {}
  reason : Text := []
  issuedAtUtc : Text := []
deriving Inhabited

def validatePublicationPayload (publication : Publication) (limits : RegistryLimits) : Status :=
  match publication.kind with
  | .registerPublisher | .heartbeat => .ok ()
  | .registerDevice | .publishDeviceGeneration =>
    validateDeviceIdentity publication.device.identity limits
  | .publishCapability | .withdrawCapability => do
    require (publication.capability.withdrawn == (publication.kind == .withdrawCapability))
      .invalidArgument "capability publication kind and withdrawal flag disagree"
    validateCapabilityRecord publication.capability limits
  | .publishQuirk | .withdrawQuirk => validateQuirkRecord publication.quirk limits
  | .publishCompatibility | .withdrawCompatibility => do
    require (publication.compatibility.withdrawn == (publication.kind == .withdrawCompatibility))
      .invalidArgument "compatibility publication kind and withdrawal flag disagree"
    validateCompatibilityFact publication.compatibility limits
  | .registerCapabilitySchema => validateCapabilitySchema publication.schema limits

def validatePublication (publication : Publication) (limits : RegistryLimits) : Status := do
  require publication.publisher.id.valid .invalidIdentity "publication requires a publisher identity"
  require publication.publisher.boot.valid .invalidIdentity
    "publication requires a publisher boot identity"
  require (publication.issuedAtUtc.length ≤ limits.maxMetadataBytes) .limitExceeded
    "publication timestamp exceeds length limit"
  require (publication.reason.length ≤ limits.maxMetadataBytes) .limitExceeded
    "publication reason exceeds length limit"
  validatePublicationPayload publication limits

def kFnvOffsetBasis : UInt64 := 1469598103934665603
def kFnvPrime : UInt64 := 1099511628211

def fnv1a64 (data : Text) (seed : UInt64) : UInt64 :=
  data.foldl (fun hash byte => (hash ^^^ byte.toUInt64) * kFnvPrime) seed

/-- One call of `fnv1a64_mix`: a text or a 64-bit word. -/
inductive Mixed
  | text (text : Text)
  | word (value : UInt64)
deriving DecidableEq

/-- The bytes of a word, least significant first. -/
def wordBytes (value : UInt64) : List UInt8 :=
  (List.range 8).map fun i => (value >>> (UInt64.ofNat (i * 8))).toUInt8

def fnv1a64Mix (hash : UInt64) : Mixed → UInt64
  | .text text => fnv1a64 text ((hash ^^^ 0xff) * kFnvPrime)
  | .word value => fnv1a64 (wordBytes value) hash

def fnv1a64MixAll (values : List Mixed) : UInt64 := values.foldl fnv1a64Mix kFnvOffsetBasis

def hexDigit (n : UInt64) : UInt8 :=
  if n < 10 then '0'.toUInt8 + n.toUInt8 else 'a'.toUInt8 + (n - 10).toUInt8

def hex64 (value : UInt64) : Text :=
  (List.range 16).map fun i => hexDigit ((value >>> (UInt64.ofNat ((15 - i) * 4))) &&& 0xf)

/-- The values a publication's fingerprint mixes, in order. -/
def fingerprintFeed (publication : Publication) : List Mixed :=
  let capability := publication.capability
  [.text publication.kind.toText,
    .text capability.device.str,
    .text capability.capability.str,
    .text capability.schema.str,
    .word (UInt64.ofNat (CodeEnum.code capability.support)),
    .text capability.value.describe,
    .text (describeCondition capability.conditions),
    .text (if capability.withdrawn then "withdrawn" else "present"),
    .text publication.quirk.id.str,
    .text publication.quirk.quirkGeneration.str,
    .text publication.quirk.title,
    .text publication.compatibility.id.str,
    .text publication.compatibility.compatibilityGeneration.str,
    .text publication.compatibility.lhs.token,
    .text publication.compatibility.rhs.token,
    .text publication.schema.id.str,
    .text publication.device.identity.id.str,
    .text publication.device.identity.incarnation.str,
    .text publication.device.software.driver.version,
    .text publication.device.software.firmware.version,
    .text publication.device.software.runtime.version]

def fingerprintPublication (publication : Publication) : Text :=
  hex64 (fnv1a64MixAll (fingerprintFeed publication))

inductive ApplyCode
  | accepted | acceptedIdempotent | rejectedValidation | rejectedUnknownPublisher
  | rejectedFencedPublisher | rejectedStaleBoot | rejectedStaleEpoch | rejectedStaleSequence
  | rejectedGenerationRegression | rejectedDuplicateConflict | rejectedStaleDeviceGeneration
  | rejectedStaleCapabilityGeneration | rejectedUnknownDevice | rejectedUnknownSchema
  | rejectedLimit | rejectedBackpressure | rejectedShuttingDown | rejectedWithdrawnSubject
  | rejectedInvariant
deriving DecidableEq, Inhabited

def applyCodeAccepted (code : ApplyCode) : Bool := code == .accepted || code == .acceptedIdempotent

structure ApplyResult where
  code : ApplyCode := .rejectedValidation
  mutated : Bool := false
  detail : Text := []
  assignedPublisher : PublisherIdentity := {}
  deviceGeneration : DeviceGeneration := default
  deviceBoot : DeviceBootId := default
deriving DecidableEq, Inhabited

namespace ApplyResult

def accepted (result : ApplyResult) : Bool := applyCodeAccepted result.code

/-- A result that carries a code and its text only. -/
def of (code : ApplyCode) (detail : Text) : ApplyResult := { code, detail }

/-- An accepted mutation. -/
def mutation (detail : Text) : ApplyResult := { code := .accepted, mutated := true, detail }

@[simp] theorem code_of (code : ApplyCode) (detail : Text) : (of code detail).code = code := rfl
@[simp] theorem code_mutation (detail : Text) : (mutation detail).code = .accepted := rfl
@[simp] theorem accepted_of (code : ApplyCode) (detail : Text) :
    (of code detail).accepted = applyCodeAccepted code := rfl
@[simp] theorem accepted_mutation (detail : Text) : (mutation detail).accepted = true := rfl
@[simp] theorem mutated_of (code : ApplyCode) (detail : Text) : (of code detail).mutated = false :=
  rfl

end ApplyResult

end CapabilityRegistry
