import CapabilityRegistry.Publication

/-! The records of a snapshot and of the durable state, and the canonical durable digest. -/
namespace CapabilityRegistry

structure PublisherRecord where
  identity : PublisherIdentity := {}
  state : PublisherState := .unknown
  adapter : Text := []
  lastSequence : UInt64 := 0
  maxEvidenceGeneration : EvidenceGeneration := default
  accepted : UInt64 := 0
  rejected : UInt64 := 0
  reason : Text := []
  registeredAtUtc : Text := []
  bootHistory : UInt64 := 0
deriving DecidableEq, Inhabited

structure SubjectSnapshot where
  identity : DeviceIdentity := {}
  software : DeviceSoftwareState := {}
  generation : DeviceGeneration := default
  boot : DeviceBootId := default
  platformGeneration : PlatformGeneration := default
  classification : TruthClass := .unknown
  capabilityCount : UInt64 := 0
  currentCount : UInt64 := 0
  unknownCount : UInt64 := 0
  unsupportedCount : UInt64 := 0
  staleCount : UInt64 := 0
  applicableQuirkCount : UInt64 := 0
deriving DecidableEq, Inhabited

structure DurableStateHeader where
  formatVersion : UInt32 := 0
  epoch : CoordinatorEpoch := default
  snapshotGeneration : SnapshotGeneration := default
  stateRevision : UInt64 := 0
  createdAtUtc : Text := []
  producer : Text := []
deriving DecidableEq, Inhabited

structure PublisherWatermark where
  publisher : PublisherId := default
  boot : PublisherBootId := default
  maxSequence : UInt64 := 0
  maxEvidenceGeneration : EvidenceGeneration := default
  state : PublisherState := .unknown
  adapter : Text := []
  reason : Text := []
  accepted : UInt64 := 0
  rejected : UInt64 := 0
  registeredAtUtc : Text := []
deriving DecidableEq, Inhabited

structure DurableState where
  header : DurableStateHeader := {}
  platforms : List PlatformIdentity := []
  subjects : List SubjectSnapshot := []
  schemas : List CapabilitySchema := []
  capabilityHistory : List CapabilityRecord := []
  quirks : List QuirkRecord := []
  compatibility : List CompatibilityFact := []
  publisherWatermarks : List PublisherWatermark := []
  fencedBoots : List PublisherWatermark := []
  canonicalDigest : UInt64 := 0
deriving Inhabited

def versionString : Text := "1.0.0"
def stateFormatVersion : UInt32 := 1

section Digest

/-- The code of an enumerator as the digest mixes it. -/
def enumWord {α : Type} [DecidableEq α] [CodeEnum α] (a : α) : Mixed :=
  .word (UInt64.ofNat (CodeEnum.code a))

def headerFeed (header : DurableStateHeader) : List Mixed :=
  [.word header.formatVersion.toUInt64,
    .word header.epoch.value,
    .word header.snapshotGeneration.value,
    .word header.stateRevision,
    .text header.createdAtUtc,
    .text header.producer]

def platformFeed (platform : PlatformIdentity) : List Mixed :=
  [.text platform.id.str, .text platform.displayName, .text platform.architecture.str]

def subjectFeed (subject : SubjectSnapshot) : List Mixed :=
  [.text subject.identity.id.str,
    .text subject.identity.incarnation.str,
    .text subject.identity.hardware.canonicalKey,
    .text subject.identity.platform.str,
    .text subject.identity.displayName,
    .word subject.generation.value,
    .word subject.boot.value,
    .word subject.platformGeneration.value,
    .text subject.software.driver.id.str,
    .text subject.software.driver.version,
    .text subject.software.firmware.id.str,
    .text subject.software.firmware.version,
    .text subject.software.runtime.id.str,
    .text subject.software.runtime.version]

def schemaFeed (schema : CapabilitySchema) : List Mixed :=
  [.text schema.id.str, .text schema.capability.str, enumWord schema.valueKind]

def recordFeed (record : CapabilityRecord) : List Mixed :=
  [.text record.device.str,
    .text record.capability.str,
    .text record.schema.str,
    .word record.deviceGeneration.value,
    .word record.deviceBoot.value,
    .word record.capabilityGeneration.value,
    enumWord record.support,
    enumWord record.precision,
    .text record.value.describe,
    .text (describeCondition record.conditions),
    .text record.source.publisher.id.str,
    .word record.source.publisher.boot.value,
    .word record.source.publisher.epoch.value,
    .word record.source.evidenceGeneration.value,
    enumWord record.source.sourceClass,
    enumWord record.source.provenance,
    .text record.source.adapter,
    .text record.source.nativeReference,
    .word record.source.observationSequence,
    .text record.driverId.str,
    .text record.firmwareId.str,
    .text record.runtimeId.str,
    .word record.driverGeneration.value,
    .word record.firmwareGeneration.value,
    .word record.runtimeGeneration.value,
    .word (if record.withdrawn then 1 else 0)]

def quirkFeed (quirk : QuirkRecord) : List Mixed :=
  [.text quirk.id.str,
    .word quirk.quirkGeneration.value,
    .text quirk.title,
    enumWord quirk.severity,
    enumWord quirk.category] ++
    quirk.impactedCapabilities.map fun capability => .text capability.str

def compatibilityFeed (fact : CompatibilityFact) : List Mixed :=
  [.text fact.id.str,
    .word fact.compatibilityGeneration.value,
    enumWord fact.kind,
    enumWord fact.outcome,
    .text fact.lhs.token,
    .text fact.rhs.token,
    .text fact.reason]

def watermarkFeed (watermark : PublisherWatermark) : List Mixed :=
  [.text watermark.publisher.str,
    .word watermark.boot.value,
    .word watermark.maxSequence,
    .word watermark.maxEvidenceGeneration.value,
    enumWord watermark.state]

def fencedFeed (fenced : PublisherWatermark) : List Mixed :=
  [.text fenced.publisher.str, .word fenced.boot.value]

/-- The values `canonical_durable_digest` mixes, in order. -/
def durableFeed (state : DurableState) : List Mixed :=
  .text "hcr.durable.v1" :: headerFeed state.header ++
    state.platforms.flatMap platformFeed ++
    state.subjects.flatMap subjectFeed ++
    state.schemas.flatMap schemaFeed ++
    state.capabilityHistory.flatMap recordFeed ++
    state.quirks.flatMap quirkFeed ++
    state.compatibility.flatMap compatibilityFeed ++
    state.publisherWatermarks.flatMap watermarkFeed ++
    state.fencedBoots.flatMap fencedFeed

def canonicalDurableDigest (state : DurableState) : UInt64 := fnv1a64MixAll (durableFeed state)

/-- The digest does not read the digest field. -/
@[simp] theorem canonicalDurableDigest_withDigest (state : DurableState) (digest : UInt64) :
    canonicalDurableDigest { state with canonicalDigest := digest } =
      canonicalDurableDigest state := rfl

end Digest

end CapabilityRegistry
