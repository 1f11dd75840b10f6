import CapabilityRegistry.Frames
import CapabilityRegistry.Messages

/-! The persisted image of the durable state and the file it is kept in. -/
namespace CapabilityRegistry
open ByteReader (round_u16 round_u32 round_u64 round_str round_enum round_list)

section Records

def writeSubjectSnapshot (limits : RegistryLimits) (subject : SubjectSnapshot) : ByteWriter :=
  writeDeviceIdentity limits subject.identity ++ writeSoftwareState limits subject.software ++
    writeGen subject.generation ++ writeGen subject.boot ++ writeGen subject.platformGeneration ++
    .enum subject.classification ++ .u64 subject.capabilityCount ++ .u64 subject.currentCount ++
    .u64 subject.unknownCount ++ .u64 subject.unsupportedCount ++ .u64 subject.staleCount ++
    .u64 subject.applicableQuirkCount

def readSubjectSnapshot (limits : RegistryLimits) : ByteReader SubjectSnapshot := do
  let identity ← readDeviceIdentity limits
  let software ← readSoftwareState limits
  let generation ← readGen
  let boot ← readGen
  let platformGeneration ← readGen
  let classification ← ByteReader.enum ⟨.corruptData, "unknown truth classification on the wire"⟩
  let capabilityCount ← ByteReader.u64
  let currentCount ← ByteReader.u64
  let unknownCount ← ByteReader.u64
  let unsupportedCount ← ByteReader.u64
  let staleCount ← ByteReader.u64
  let applicableQuirkCount ← ByteReader.u64
  pure { identity, software, generation, boot, platformGeneration, classification, capabilityCount,
         currentCount, unknownCount, unsupportedCount, staleCount, applicableQuirkCount }

def SubjectSnapshot.FitsWire (limits : RegistryLimits) (subject : SubjectSnapshot) : Prop :=
  subject.identity.FitsWire limits ∧ subject.software.FitsWire limits

theorem round_subjectSnapshot (limits : RegistryLimits) :
    Wire.Round (fun subject => (writeSubjectSnapshot limits subject).out)
      (readSubjectSnapshot limits) (SubjectSnapshot.FitsWire limits) :=
  (((round_deviceIdentity limits).both <| (round_softwareState limits).both <| round_gen.both <|
      round_gen.both <| round_gen.both <| (round_enum TruthClass
        ⟨.corruptData, "unknown truth classification on the wire"⟩).both <|
      round_u64.both <| round_u64.both <| round_u64.both <| round_u64.both <| round_u64.both
      round_u64).record
    (fun subject => (subject.identity, subject.software, subject.generation, subject.boot,
      subject.platformGeneration, subject.classification, subject.capabilityCount,
      subject.currentCount, subject.unknownCount, subject.unsupportedCount, subject.staleCount,
      subject.applicableQuirkCount))
    (fun (identity, software, generation, boot, platformGeneration, classification,
        capabilityCount, currentCount, unknownCount, unsupportedCount, staleCount,
        applicableQuirkCount) =>
      { identity, software, generation, boot, platformGeneration, classification, capabilityCount,
        currentCount, unknownCount, unsupportedCount, staleCount, applicableQuirkCount })
    (by simp [readSubjectSnapshot, Wire.both]) (fun _ => by simp [writeSubjectSnapshot])
    (fun _ => rfl) fun _ => rfl).congr fun _ => by simp [SubjectSnapshot.FitsWire]

/-- The epoch of the identity is not part of a watermark. -/
def writePublisherWatermark (limits : RegistryLimits) (watermark : PublisherWatermark) :
    ByteWriter :=
  writePublisherIdentity { id := watermark.publisher, boot := watermark.boot } ++
    .u64 watermark.maxSequence ++ writeGen watermark.maxEvidenceGeneration ++
    .enum watermark.state ++ .str watermark.adapter limits.maxMetadataBytes ++
    .str watermark.reason limits.maxMetadataBytes ++ .u64 watermark.accepted ++
    .u64 watermark.rejected ++ .str watermark.registeredAtUtc limits.maxMetadataBytes

def readPublisherWatermark (limits : RegistryLimits) : ByteReader PublisherWatermark := do
  let identity ← readPublisherIdentity
  let maxSequence ← ByteReader.u64
  let maxEvidenceGeneration ← readGen
  let state ← ByteReader.enum ⟨.corruptData, "unknown publisher state in durable state"⟩
  let adapter ← ByteReader.str limits.maxMetadataBytes
  let reason ← ByteReader.str limits.maxMetadataBytes
  let accepted ← ByteReader.u64
  let rejected ← ByteReader.u64
  let registeredAtUtc ← ByteReader.str limits.maxMetadataBytes
  pure { publisher := identity.id, boot := identity.boot, maxSequence, maxEvidenceGeneration,
         state, adapter, reason, accepted, rejected, registeredAtUtc }

def PublisherWatermark.FitsWire (limits : RegistryLimits) (watermark : PublisherWatermark) :
    Prop :=
  FitsText limits.maxMetadataBytes watermark.adapter ∧
    FitsText limits.maxMetadataBytes watermark.reason ∧
    FitsText limits.maxMetadataBytes watermark.registeredAtUtc

/-- A publisher and its boot travel as an identity without an epoch. -/
theorem round_publisherBoot :
    Wire.Round (fun p : PublisherId × PublisherBootId =>
        (writePublisherIdentity { id := p.1, boot := p.2 }).out)
      ((fun identity => (identity.id, identity.boot)) <$> readPublisherIdentity) fun _ => True :=
  round_publisherIdentity.through (fun _ _ => rfl) (fun _ _ => trivial) fun _ _ => trivial

theorem round_publisherWatermark (limits : RegistryLimits) :
    Wire.Round (fun watermark => (writePublisherWatermark limits watermark).out)
      (readPublisherWatermark limits) (PublisherWatermark.FitsWire limits) :=
  ((round_publisherBoot.both <| round_u64.both <| round_gen.both <|
      (round_enum PublisherState
        ⟨.corruptData, "unknown publisher state in durable state"⟩).both <|
      (round_str limits.maxMetadataBytes).both <| (round_str limits.maxMetadataBytes).both <|
      round_u64.both <| round_u64.both <| round_str limits.maxMetadataBytes).record
    (fun watermark => ((watermark.publisher, watermark.boot), watermark.maxSequence,
      watermark.maxEvidenceGeneration, watermark.state, watermark.adapter, watermark.reason,
      watermark.accepted, watermark.rejected, watermark.registeredAtUtc))
    (fun (boot, maxSequence, maxEvidenceGeneration, state, adapter, reason, accepted, rejected,
        registeredAtUtc) =>
      { publisher := boot.1, boot := boot.2, maxSequence, maxEvidenceGeneration, state, adapter,
        reason, accepted, rejected, registeredAtUtc })
    (by simp [readPublisherWatermark, Wire.both])
    (fun _ => by simp [writePublisherWatermark]) (fun _ => rfl) fun _ => rfl).congr
    fun _ => by simp [PublisherWatermark.FitsWire]

end Records

section Contents

def writeStateHeader (limits : RegistryLimits) (header : DurableStateHeader) : ByteWriter :=
  .u32 header.formatVersion ++ writeGen header.epoch ++ writeGen header.snapshotGeneration ++
    .u64 header.stateRevision ++ .str header.createdAtUtc limits.maxMetadataBytes ++
    .str header.producer limits.maxMetadataBytes

def readStateHeader (limits : RegistryLimits) : ByteReader DurableStateHeader := do
  let formatVersion ← ByteReader.u32
  let epoch ← readGen
  let snapshotGeneration ← readGen
  let stateRevision ← ByteReader.u64
  let createdAtUtc ← ByteReader.str limits.maxMetadataBytes
  let producer ← ByteReader.str limits.maxMetadataBytes
  pure { formatVersion, epoch, snapshotGeneration, stateRevision, createdAtUtc, producer }

def DurableStateHeader.FitsWire (limits : RegistryLimits) (header : DurableStateHeader) : Prop :=
  FitsText limits.maxMetadataBytes header.createdAtUtc ∧
    FitsText limits.maxMetadataBytes header.producer

theorem round_stateHeader (limits : RegistryLimits) :
    Wire.Round (fun header => (writeStateHeader limits header).out) (readStateHeader limits)
      (DurableStateHeader.FitsWire limits) :=
  ((round_u32.both <| round_gen.both <| round_gen.both <| round_u64.both <|
      (round_str limits.maxMetadataBytes).both (round_str limits.maxMetadataBytes)).record
    (fun header => (header.formatVersion, header.epoch, header.snapshotGeneration,
      header.stateRevision, header.createdAtUtc, header.producer))
    (fun (formatVersion, epoch, snapshotGeneration, stateRevision, createdAtUtc, producer) =>
      { formatVersion, epoch, snapshotGeneration, stateRevision, createdAtUtc, producer })
    (by simp [readStateHeader, Wire.both]) (fun _ => by simp [writeStateHeader])
    (fun _ => rfl) fun _ => rfl).congr fun _ => by simp [DurableStateHeader.FitsWire]

/-- A count of the image that is over its bound or over what is left. -/
def countError (what : Text) : Error :=
  ⟨.limitExceeded, "durable state " ++ what ++ " count exceeds the bound"⟩

def maxSchemas (limits : RegistryLimits) : Nat := sizeMul limits.maxFamilies 16
def maxWatermarks (limits : RegistryLimits) : Nat := sizeMul limits.maxPublishers 64

def writeDurableState (limits : RegistryLimits) (state : DurableState) : ByteWriter :=
  writeStateHeader limits state.header ++
    .list limits.maxDevices (writePlatformIdentity limits) state.platforms ++
    .list limits.maxDevices (writeSubjectSnapshot limits) state.subjects ++
    .list (maxSchemas limits) (writeCapabilitySchema limits) state.schemas ++
    .list limits.maxEvidenceHistory (writeCapabilityRecord limits) state.capabilityHistory ++
    .list limits.maxQuirks (writeQuirkRecord limits) state.quirks ++
    .list limits.maxCompatibilityFacts (writeCompatibilityFact limits) state.compatibility ++
    .list (maxWatermarks limits) (writePublisherWatermark limits) state.publisherWatermarks ++
    .list (maxWatermarks limits) (writePublisherWatermark limits) state.fencedBoots ++
    .u64 state.canonicalDigest

def readDurableState (limits : RegistryLimits) : ByteReader DurableState := do
  let header ← readStateHeader limits
  let platforms ← ByteReader.list limits.maxDevices (countError "platform")
    (readPlatformIdentity limits)
  let subjects ← ByteReader.list limits.maxDevices (countError "subject")
    (readSubjectSnapshot limits)
  let schemas ← ByteReader.list (maxSchemas limits) (countError "schema")
    (readCapabilitySchema limits)
  let capabilityHistory ← ByteReader.list limits.maxEvidenceHistory
    (countError "evidence record") (readCapabilityRecord limits)
  let quirks ← ByteReader.list limits.maxQuirks (countError "quirk") (readQuirkRecord limits)
  let compatibility ← ByteReader.list limits.maxCompatibilityFacts
    (countError "compatibility fact") (readCompatibilityFact limits)
  let publisherWatermarks ← ByteReader.list (maxWatermarks limits)
    (countError "publisher watermark") (readPublisherWatermark limits)
  let fencedBoots ← ByteReader.list (maxWatermarks limits) (countError "fenced boot")
    (readPublisherWatermark limits)
  let canonicalDigest ← ByteReader.u64
  pure { header, platforms, subjects, schemas, capabilityHistory, quirks, compatibility,
         publisherWatermarks, fencedBoots, canonicalDigest }

/-- A state that is written whole: no field is clamped and no list is cut. -/
def DurableState.FitsWire (limits : RegistryLimits) (state : DurableState) : Prop :=
  state.header.FitsWire limits ∧
    FitsList limits.maxDevices (PlatformIdentity.FitsWire limits) state.platforms ∧
    FitsList limits.maxDevices (SubjectSnapshot.FitsWire limits) state.subjects ∧
    FitsList (maxSchemas limits) (CapabilitySchema.FitsWire limits) state.schemas ∧
    FitsList limits.maxEvidenceHistory (CapabilityRecord.FitsWire limits)
      state.capabilityHistory ∧
    FitsList limits.maxQuirks (QuirkRecord.FitsWire limits) state.quirks ∧
    FitsList limits.maxCompatibilityFacts (CompatibilityFact.FitsWire limits)
      state.compatibility ∧
    FitsList (maxWatermarks limits) (PublisherWatermark.FitsWire limits)
      state.publisherWatermarks ∧
    FitsList (maxWatermarks limits) (PublisherWatermark.FitsWire limits) state.fencedBoots

theorem round_durableState (limits : RegistryLimits) :
    Wire.Round (fun state => (writeDurableState limits state).out) (readDurableState limits)
      (DurableState.FitsWire limits) :=
  (((round_stateHeader limits).both <|
      (round_list limits.maxDevices (countError "platform") (round_platformIdentity limits) fun _ => by
        simp [writePlatformIdentity, writeId_ne_nil]).both <|
      (round_list limits.maxDevices (countError "subject") (round_subjectSnapshot limits) fun _ => by
        simp [writeSubjectSnapshot, writeDeviceIdentity, writeId_ne_nil]).both <|
      (round_list (maxSchemas limits) (countError "schema") (round_capabilitySchema limits) fun _ => by
        simp [writeCapabilitySchema, writeId_ne_nil]).both <|
      (round_list limits.maxEvidenceHistory (countError "evidence record")
        (round_capabilityRecord limits) fun _ => by
        simp [writeCapabilityRecord, writeId_ne_nil]).both <|
      (round_list limits.maxQuirks (countError "quirk") (round_quirkRecord limits) fun _ => by
        simp [writeQuirkRecord, writeId_ne_nil]).both <|
      (round_list limits.maxCompatibilityFacts (countError "compatibility fact")
        (round_compatibilityFact limits) fun _ => by
        simp [writeCompatibilityFact, writeId_ne_nil]).both <|
      (round_list (maxWatermarks limits) (countError "publisher watermark")
        (round_publisherWatermark limits) fun _ => by
        simp [writePublisherWatermark, writePublisherIdentity, writeId_ne_nil]).both <|
      (round_list (maxWatermarks limits) (countError "fenced boot")
        (round_publisherWatermark limits) fun _ => by
        simp [writePublisherWatermark, writePublisherIdentity, writeId_ne_nil]).both
      round_u64).record
    (fun state => (state.header, state.platforms, state.subjects, state.schemas,
      state.capabilityHistory, state.quirks, state.compatibility, state.publisherWatermarks,
      state.fencedBoots, state.canonicalDigest))
    (fun (header, platforms, subjects, schemas, capabilityHistory, quirks, compatibility,
        publisherWatermarks, fencedBoots, canonicalDigest) =>
      { header, platforms, subjects, schemas, capabilityHistory, quirks, compatibility,
        publisherWatermarks, fencedBoots, canonicalDigest })
    (by simp [readDurableState, Wire.both]) (fun _ => by simp [writeDurableState])
    (fun _ => rfl) fun _ => rfl).congr fun _ => by simp [DurableState.FitsWire]

end Contents

section Images

def kStateMagic : UInt32 := 0x53524348
def kStatePrefixSize : Nat := 24

structure PersistOptions where
  limits : RegistryLimits := {}
  maxBytes : Nat := 0

def PersistOptions.bound (options : PersistOptions) : Nat :=
  if options.maxBytes == 0 then options.limits.maxPersistenceBytes else options.maxBytes

/-- What stands in front of the contents of an image. -/
structure StatePrefix where
  magic : UInt32
  version : UInt16
  flags : UInt16
  payloadLength : UInt32
  checksum : UInt32
  digest : UInt64

def writeStatePrefix (p : StatePrefix) : ByteWriter :=
  .u32 p.magic ++ .u16 p.version ++ .u16 p.flags ++ .u32 p.payloadLength ++ .u32 p.checksum ++
    .u64 p.digest

def readStatePrefix : ByteReader StatePrefix := do
  let magic ← ByteReader.u32
  let version ← ByteReader.u16
  let flags ← ByteReader.u16
  let payloadLength ← ByteReader.u32
  let checksum ← ByteReader.u32
  let digest ← ByteReader.u64
  pure { magic, version, flags, payloadLength, checksum, digest }

/-- The prefix of an image. The length field is the low word of the payload's length. -/
def statePrefix (digest : UInt64) (payload : List UInt8) : StatePrefix where
  magic := kStateMagic
  version := stateFormatVersion.toUInt16
  flags := 0
  payloadLength := UInt32.ofNat payload.length
  checksum := crc32 payload
  digest

def encodeDurableState (options : PersistOptions) (state : DurableState) :
    Except Error (List UInt8) := do
  let payload := writeDurableState options.limits state
  require (!payload.truncated) .limitExceeded
    "durable state carries a field longer than the configured bound"
  require (payload.out.length + kStatePrefixSize ≤ options.bound) .limitExceeded
    "encoded durable state exceeds the configured byte bound"
  pure ((writeStatePrefix (statePrefix state.canonicalDigest payload.out)).out ++ payload.out)

def decodeDurableState (options : PersistOptions) (bytes : List UInt8) :
    Except Error DurableState := do
  require (kStatePrefixSize ≤ bytes.length) .corruptData
    "durable state image is shorter than its prefix"
  let (header, payload) ← readStatePrefix bytes
  require (header.magic == kStateMagic) .corruptData "durable state magic does not match"
  require (header.version == stateFormatVersion.toUInt16) .unsupportedVersion
    ("durable state format version " ++ decimal header.version.toNat ++ " is not supported" : Text)
  require (header.flags == 0) .corruptData "durable state declares unknown flags"
  require (header.payloadLength.toNat == payload.length) .corruptData
    "durable state payload length does not match the image"
  require (crc32 payload == header.checksum) .integrityFailure
    "durable state checksum does not match"
  require (bytes.length ≤ options.bound) .limitExceeded
    "durable state exceeds the configured byte bound"
  let (state, rest) ← readDurableState options.limits payload
  require rest.isEmpty .corruptData "durable state image carries trailing bytes"
  require (state.header.formatVersion == stateFormatVersion) .unsupportedVersion
    "durable state header format version mismatch"
  require (header.digest == 0 || state.canonicalDigest == header.digest) .corruptData
    "durable state digest header does not match its payload"
  pure state

variable {options : PersistOptions} {state state' : DurableState} {bytes : List UInt8}

theorem round_statePrefix :
    Wire.Round (fun p => (writeStatePrefix p).out) readStatePrefix fun _ => True :=
  ((round_u32.both <| round_u16.both <| round_u16.both <| round_u32.both <| round_u32.both
      round_u64).record
    (fun p => (p.magic, p.version, p.flags, p.payloadLength, p.checksum, p.digest))
    (fun (magic, version, flags, payloadLength, checksum, digest) =>
      { magic, version, flags, payloadLength, checksum, digest })
    (by simp [readStatePrefix, Wire.both]) (fun _ => by simp [writeStatePrefix])
    (fun _ => rfl) fun _ => rfl).congr fun _ => by simp

theorem length_writeStatePrefix (p : StatePrefix) :
    (writeStatePrefix p).out.length = kStatePrefixSize := by
  simp [writeStatePrefix, ByteWriter.u32, ByteWriter.u16, ByteWriter.u64, kStatePrefixSize]

theorem encodeDurableState_eq_ok : encodeDurableState options state = .ok bytes ↔
    (writeDurableState options.limits state).truncated = false ∧
      (writeDurableState options.limits state).out.length + kStatePrefixSize ≤ options.bound ∧
      (writeStatePrefix (statePrefix state.canonicalDigest
        (writeDurableState options.limits state).out)).out ++
        (writeDurableState options.limits state).out = bytes := by
  simp [encodeDurableState, pure, Except.pure]

/-- What decoding an encoded image comes down to. -/
theorem decodeDurableState_eq_ok (h : encodeDurableState options state = .ok bytes) :
    decodeDurableState options bytes = .ok state' ↔
      (writeDurableState options.limits state).out.length < 2 ^ 32 ∧
        readDurableState options.limits (writeDurableState options.limits state).out =
          .ok (state', []) ∧
        state'.header.formatVersion = stateFormatVersion ∧
        (state.canonicalDigest = 0 ∨ state'.canonicalDigest = state.canonicalDigest) := by
  obtain ⟨-, hbound, rfl⟩ := encodeDurableState_eq_ok.mp h
  generalize (writeDurableState options.limits state).out = payload at hbound ⊢
  have hlen : ((writeStatePrefix (statePrefix state.canonicalDigest payload)).out ++
      payload).length = payload.length + kStatePrefixSize := by
    rw [List.length_append, length_writeStatePrefix, Nat.add_comm]
  -- the length field holds what its word has room for
  have hcount : (UInt32.ofNat payload.length).toNat = payload.length ↔ payload.length < 2 ^ 32 := by
    rw [UInt32.toNat_ofNat', Nat.mod_eq_iff_lt (by decide)]
  simp only [decodeDurableState, hlen, round_statePrefix.reads _ trivial payload,
    bind_eq_ok, Except.ok.injEq, exists_eq_left']
  simp only [statePrefix, require_eq_ok]
  simp only [beq_self_eq_true, Nat.le_add_left, decide_true, hbound, true_and, exists_const,
    Prod.exists, List.isEmpty_iff, pure, Except.pure, Except.ok.injEq, beq_iff_eq,
    Bool.or_eq_true, hcount]
  constructor
  · rintro ⟨hsmall, _, _, hread, rfl, hversion, hdigest, rfl⟩
    exact ⟨hsmall, hread, hversion, hdigest⟩
  · rintro ⟨hsmall, hread, hversion, hdigest⟩
    exact ⟨hsmall, state', [], hread, rfl, hversion, hdigest, rfl⟩

/-- A state that is written whole is the one that is read back. -/
theorem decodeDurableState_encodeDurableState (h : encodeDurableState options state = .ok bytes)
    (hb : options.bound ≤ 2 ^ 32) (hf : state.FitsWire options.limits)
    (hv : state.header.formatVersion = stateFormatVersion) :
    decodeDurableState options bytes = .ok state := by
  have hread := (round_durableState options.limits).reads state hf []
  rw [List.append_nil] at hread
  obtain ⟨-, hroom, -⟩ := encodeDurableState_eq_ok.mp h
  have hprefix : 0 < kStatePrefixSize := by decide
  exact (decodeDurableState_eq_ok h).mpr ⟨by omega, hread, hv, .inr rfl⟩

/-- The image of a registry that has been told nothing. -/
def blankState : DurableState := { header := { formatVersion := stateFormatVersion } }

/-- An empty file is not an image. -/
example : (decodeDurableState {} []).toBool = false := by decide +kernel

/-- A platform with one identifier more than the writer counts. -/
def crowdedPlatform : PlatformIdentity :=
  { nativeIdentifiers := List.replicate 25 { key := "k", value := [] } }

theorem epoch_readStateHeader {limits : RegistryLimits} {version : UInt32}
    {epoch : CoordinatorEpoch} {rest left : List UInt8} {header : DurableStateHeader}
    (h : readStateHeader limits
      ((ByteWriter.u32 version).out ++ ((writeGen epoch).out ++ rest)) = .ok (header, left)) :
    header.epoch = epoch := by
  simp only [readStateHeader, Wire.bind_eq_ok, Wire.pure_eq_ok] at h
  obtain ⟨_, behind, hv, e, _, he, _, _, _, _, _, _, _, _, _, _, _, _, rfl, _⟩ := h
  rw [round_u32.reads _ trivial] at hv
  obtain ⟨-, rfl⟩ := Prod.mk.inj (Except.ok.inj hv)
  rw [round_gen.reads _ trivial] at he
  exact (Prod.mk.inj (Except.ok.inj he)).1.symm

/-- The epoch is read back whatever the rest of the state is cut to. -/
theorem epoch_decodeDurableState (h : encodeDurableState options state = .ok bytes)
    (hd : decodeDurableState options bytes = .ok state') :
    state'.header.epoch = state.header.epoch := by
  obtain ⟨-, hread, -⟩ := (decodeDurableState_eq_ok h).mp hd
  obtain ⟨rest, hrest⟩ : ∃ rest, (writeDurableState options.limits state).out =
      (ByteWriter.u32 state.header.formatVersion).out ++
        ((writeGen state.header.epoch).out ++ rest) := by
    simp [writeDurableState, writeStateHeader]
  rw [hrest] at hread
  simp only [readDurableState, Wire.bind_eq_ok, Wire.pure_eq_ok] at hread
  obtain ⟨header, _, hheader, _, _, -, _, _, -, _, _, -, _, _, -, _, _, -, _, _, -, _, _, -, _, _, -,
    _, _, -, rfl, -⟩ := hread
  exact epoch_readStateHeader hheader

section Store

/-- What the file system keeps under the state path. -/
abbrev StateFile := Option (List UInt8)

/-- `io` is the outcome of the reads. -/
def FileStateStore.load (options : PersistOptions) (io : Status) (bytes : List UInt8) :
    Except Error DurableState := do
  io
  require (bytes.length ≤ options.bound) .limitExceeded
    "state file exceeds the configured byte bound"
  decodeDurableState options bytes

/-- `io` is the outcome of writing the temporary file and of renaming it. -/
def FileStateStore.save (options : PersistOptions) (io : Status) (state : DurableState) :
    Except Error (List UInt8) := do
  let bytes ← encodeDurableState options state
  io
  pure bytes

end Store

end Images

end CapabilityRegistry
