import CapabilityRegistry.Apply

/-! Export of the durable state and its import into a registry. -/
namespace CapabilityRegistry

section Export

def watermarkFor (id : PublisherId) (publisher : PublisherStateInternal) : PublisherWatermark :=
  { publisher := id
    boot := publisher.record.identity.boot
    maxSequence := publisher.record.lastSequence
    maxEvidenceGeneration := publisher.record.maxEvidenceGeneration
    state := publisher.record.state
    adapter := publisher.record.adapter
    reason := publisher.record.reason
    accepted := publisher.record.accepted
    rejected := publisher.record.rejected
    registeredAtUtc := publisher.record.registeredAtUtc }

/-- The fenced boots exported for one publisher: all but the current one, and that one too when
the publisher itself is fenced. -/
def fencedBootsFor (id : PublisherId) (publisher : PublisherStateInternal) :
    List PublisherWatermark :=
  let current := publisher.record.identity.boot
  ((publisher.fencedBoots.toList.filter fun boot => boot != current).map fun boot =>
    { publisher := id, boot := boot, state := .fenced, reason := "boot superseded or fenced" }) ++
  if publisher.publisherFenced && current.valid then
    [{ publisher := id, boot := current, state := .fenced, reason := publisher.record.reason }]
  else []

/-- The order of publisher watermarks and fenced boots. -/
def watermarkOrder : PublisherWatermark → PublisherWatermark → Ordering :=
  compareLex (compareOn PublisherWatermark.publisher) (compareOn PublisherWatermark.boot)

instance : Std.TransCmp watermarkOrder := inferInstanceAs (Std.TransCmp (compareLex _ _))

namespace Impl
variable [StdLib] (r : Impl)

def exportHeader (now : Timestamp) : DurableStateHeader :=
  { formatVersion := stateFormatVersion
    epoch := r.epoch
    snapshotGeneration := r.snapshotGeneration
    stateRevision := r.stateRevision
    createdAtUtc := now.val
    producer := "HardwareCapabilityRegistry " ++ versionString }

/-- Everything but the digest. The sorts but the history's are by keys that separate the
exported elements. -/
def exportContents (now : Timestamp) : DurableState :=
  { header := r.exportHeader now
    platforms := SortLib.sortWith (compareOn PlatformIdentity.id) (r.platforms.toList.map Prod.snd)
    subjects := SortLib.sortWith (compareOn fun subject => subject.identity.id)
      (r.devices.toList.map fun e => r.buildSubject e.2 {})
    schemas := r.schemas.toList.map Prod.snd
    capabilityHistory := StdLib.sortHistory
      (r.keys.toList.flatMap fun e => e.2.records.map StoredRecord.record)
    quirks := SortLib.sortWith (compareOn QuirkRecord.id) (r.quirks.toList.map Prod.snd)
    compatibility :=
      SortLib.sortWith (compareOn CompatibilityFact.id) (r.compatibility.toList.map Prod.snd)
    publisherWatermarks :=
      SortLib.sortWith watermarkOrder (r.publishers.toList.map fun e => watermarkFor e.1 e.2)
    fencedBoots :=
      SortLib.sortWith watermarkOrder (r.publishers.toList.flatMap fun e => fencedBootsFor e.1 e.2) }

def exportDurableState (now : Timestamp) : DurableState :=
  let state := r.exportContents now
  { state with canonicalDigest := canonicalDurableDigest state }

end Impl

end Export

section Import

structure ImportReport where
  applied : Bool := false
  subjects : Nat := 0
  schemas : Nat := 0
  capabilityRecords : Nat := 0
  revalidatedRecords : Nat := 0
  quirks : Nat := 0
  compatibilityFacts : Nat := 0
  publishers : Nat := 0
  fencedBoots : Nat := 0
  detail : Text := []
deriving DecidableEq, Inhabited

/-- The version, digest and size checks that precede the staging. -/
def checkBounds (limits : RegistryLimits) (state : DurableState) : Status := do
  require (state.header.formatVersion == stateFormatVersion) .unsupportedVersion
    ("state format version " ++ decimal state.header.formatVersion.toNat ++
      " is not supported by this build" : Text)
  require (state.canonicalDigest == 0 || canonicalDurableDigest state == state.canonicalDigest)
    .integrityFailure "durable state digest does not match its contents"
  require (state.subjects.length ≤ limits.maxDevices) .limitExceeded
    "durable state exceeds the device bound"
  require (state.capabilityHistory.length ≤ limits.maxEvidenceHistory) .limitExceeded
    "durable state exceeds the evidence bound"
  require (state.quirks.length ≤ limits.maxQuirks) .limitExceeded
    "durable state exceeds the quirk bound"
  require (state.compatibility.length ≤ limits.maxCompatibilityFacts) .limitExceeded
    "durable state exceeds the compatibility bound"
  require (state.publisherWatermarks.length ≤ sizeMul limits.maxPublishers 64) .limitExceeded
    "durable state exceeds the publisher bound"

/-- The staged devices and the identity levels they declare. -/
structure StagedSubjects where
  devices : Std.ExtTreeMap DeviceId DeviceState := ∅
  families : Std.ExtTreeSet HardwareFamilyId := ∅
  models : Std.ExtTreeSet HardwareModelId := ∅
  architectures : Std.ExtTreeSet ArchitectureId := ∅

/-- The device a subject is restored to. -/
def restoredDevice (subject : SubjectSnapshot) : DeviceState :=
  { identity := subject.identity
    software := subject.software
    generation := subject.generation
    boot := subject.boot
    platformGeneration :=
      if subject.platformGeneration.valid then subject.platformGeneration else .first }

def stageSubject (limits : RegistryLimits) (staged : StagedSubjects) (subject : SubjectSnapshot) :
    Except Error StagedSubjects := do
  let identity := subject.identity
  require (identity.id.valid && identity.incarnation.valid) .invalidIdentity
    "durable state contains an invalid device identity"
  require (subject.generation.valid && subject.boot.valid) .invalidIdentity
    "durable state contains an invalid device generation or boot"
  validateDeviceIdentity identity limits
  require (!staged.devices.contains identity.id) .invalidIdentity
    "durable state declares the same device identity twice"
  require (!(identity.hardware.family.valid && staged.families.size ≥ limits.maxFamilies &&
    !staged.families.contains identity.hardware.family)) .limitExceeded
    "durable state exceeds the hardware family bound"
  pure
    { devices := staged.devices.insertIfNew identity.id (restoredDevice subject)
      families := insertValid staged.families identity.hardware.family
      models := insertValid staged.models identity.hardware.model
      architectures := insertValid staged.architectures identity.hardware.architecture }

def stagePlatform (staged : Std.ExtTreeMap PlatformId PlatformIdentity)
    (platform : PlatformIdentity) : Except Error (Std.ExtTreeMap PlatformId PlatformIdentity) := do
  require platform.id.valid .invalidIdentity "durable state contains an invalid platform identity"
  pure (staged.insertIfNew platform.id platform)

/-- The staged schemas and their bindings, which start from the registry's own. -/
structure StagedSchemas where
  schemas : Std.ExtTreeMap CapabilitySchemaId CapabilitySchema
  capabilitySchemas : Std.ExtTreeMap CapabilityId CapabilitySchemaId

def stageSchema (limits : RegistryLimits) (staged : StagedSchemas) (schema : CapabilitySchema) :
    Except Error StagedSchemas := do
  validateCapabilitySchema schema limits
  match staged.schemas[schema.id]? with
  | some existing => do
    require (existing.capability == schema.capability && existing.valueKind == schema.valueKind &&
      existing.domain == schema.domain && existing.canonicalName == schema.canonicalName &&
      existing.unit == schema.unit) .duplicateConflict
      ("durable state redefines schema " ++ schema.id.str ++ " with different content" : Text)
    pure staged
  | none => do
    require (!staged.capabilitySchemas.contains schema.capability) .duplicateConflict
      ("durable state binds capability " ++ schema.capability.str ++ " twice" : Text)
    pure
      { schemas := staged.schemas.insertIfNew schema.id schema
        capabilitySchemas := staged.capabilitySchemas.insertIfNew schema.capability schema.id }

/-- The source slot of a restored record. -/
def importSlot (record : CapabilityRecord) : Text :=
  slotOf record ++ "#" ++ record.source.nativeReference ++ "#" ++ record.precision.toText

structure StagedKeys where
  keys : Std.ExtTreeMap KeyId KeyState := ∅
  records : Nat := 0
  revalidated : Nat := 0
  nextSerial : Nat

/-- The checks of a restored record against the staged devices and schemas. -/
def checkRecord (limits : RegistryLimits) (subjects : StagedSubjects) (schemas : StagedSchemas)
    (record : CapabilityRecord) : Status := do
  validateCapabilityRecord record limits
  match subjects.devices[record.device]? with
  | none => .error ⟨.invalidReference,
      "durable state references unregistered device " ++ record.device.str⟩
  | some device =>
    match schemas.schemas[record.schema]? with
    | none => .error ⟨.invalidCapability,
        "durable state references unknown schema " ++ record.schema.str⟩
    | some schema => do
      require (schema.capability == record.capability) .invalidCapability
        ("durable state binds capability " ++ record.capability.str ++
          " to a schema that describes another capability" : Text)
      require (!(device.generation < record.deviceGeneration)) .staleDeviceGeneration
        "durable state contains evidence for a future device generation"
      if record.value.empty then .ok () else validateValue limits record.value

/-- The key a restored record extends, before it is appended. -/
def stagedKey (keys : Std.ExtTreeMap KeyId KeyState) (record : CapabilityRecord) : KeyState :=
  let key := (keys[keyOf record]?).getD {}
  if key.schema.valid then key else { key with schema := record.schema }

/-- Appends a restored record: earlier records of its slot are superseded again. -/
def restoreRecord (key : KeyState) (record : CapabilityRecord) (serial : Nat) : KeyState :=
  let slot := importSlot record
  let stored : StoredRecord := { record := record, slot := slot, serial := serial }
  { key with
    generation := if record.capabilityGeneration.valid then record.capabilityGeneration
      else key.generation
    hasEvidence := true
    records := supersede slot key.records ++ [stored] }

def stageRecord (limits : RegistryLimits) (subjects : StagedSubjects) (schemas : StagedSchemas)
    (staged : StagedKeys) (record : CapabilityRecord) : Except Error StagedKeys := do
  checkRecord limits subjects schemas record
  let key := stagedKey staged.keys record
  require (key.schema == record.schema) .invalidCapability
    "durable state binds one capability to several schemas"
  require (!(record.capabilityGeneration.valid && key.generation.valid &&
    record.capabilityGeneration < key.generation)) .generationRegression
    "durable state regresses a capability generation"
  pure
    { keys := staged.keys.insert (keyOf record) (restoreRecord key record (staged.nextSerial + 1))
      records := staged.records + 1
      revalidated := if provenanceIsDurable record.source.provenance then staged.revalidated
        else staged.revalidated + 1
      nextSerial := staged.nextSerial + 1 }

/-- The record loop. A refused record leaves the serials of the earlier ones consumed. -/
def stageRecords (limits : RegistryLimits) (subjects : StagedSubjects) (schemas : StagedSchemas) :
    StagedKeys → List CapabilityRecord → Status × StagedKeys
  | staged, [] => (.ok (), staged)
  | staged, record :: rest =>
    match stageRecord limits subjects schemas staged record with
    | .error e => (.error e, staged)
    | .ok staged => stageRecords limits subjects schemas staged rest

def stageQuirk (limits : RegistryLimits) (schemas : StagedSchemas)
    (staged : Std.ExtTreeMap QuirkId QuirkRecord) (quirk : QuirkRecord) :
    Except Error (Std.ExtTreeMap QuirkId QuirkRecord) := do
  validateQuirkRecord quirk limits
  match quirk.impactedCapabilities.find? fun c => !schemas.capabilitySchemas.contains c with
  | some capability => .error ⟨.invalidReference,
      "durable state quirk impacts unknown capability " ++ capability.str⟩
  | none => do
    require (!staged.contains quirk.id) .duplicateConflict "durable state declares a quirk twice"
    pure (staged.insertIfNew quirk.id quirk)

/-- A reference of a restored fact against the staged subjects and platforms. -/
def stagedResolves (subjects : StagedSubjects)
    (platforms : Std.ExtTreeMap PlatformId PlatformIdentity) (reference : HardwareReference) :
    Bool :=
  match reference.kind with
  | .device => subjects.devices.contains (Id.parse reference.token)
  | .platform => platforms.contains (Id.parse reference.token)
  | .hardwareFamily => subjects.families.contains (Id.parse reference.token)
  | .hardwareModel => subjects.models.contains (Id.parse reference.token)
  | .architecture => subjects.architectures.contains (Id.parse reference.token)
  | _ => true

def stageCompatibility (limits : RegistryLimits) (subjects : StagedSubjects)
    (platforms : Std.ExtTreeMap PlatformId PlatformIdentity)
    (staged : Std.ExtTreeMap CompatibilityFactId CompatibilityFact) (fact : CompatibilityFact) :
    Except Error (Std.ExtTreeMap CompatibilityFactId CompatibilityFact) := do
  validateCompatibilityFact fact limits
  require (stagedResolves subjects platforms fact.lhs && stagedResolves subjects platforms fact.rhs)
    .invalidReference
    ("durable state compatibility fact " ++ fact.id.str ++ " has a dangling reference" : Text)
  require (!staged.contains fact.id) .duplicateConflict
    "durable state declares a compatibility fact twice"
  pure (staged.insertIfNew fact.id fact)

/-- The publisher a watermark extends; its first watermark initializes the record. -/
def publisherOfWatermark (publisher : PublisherStateInternal) (watermark : PublisherWatermark) :
    PublisherStateInternal :=
  if publisher.record.identity.id.valid then publisher
  else { publisher with
    record := { publisher.record with
      identity := { publisher.record.identity with
        id := watermark.publisher, boot := watermark.boot }
      adapter := watermark.adapter
      registeredAtUtc := watermark.registeredAtUtc
      accepted := watermark.accepted
      rejected := watermark.rejected
      maxEvidenceGeneration := watermark.maxEvidenceGeneration } }

abbrev Publishers := Std.ExtTreeMap PublisherId PublisherStateInternal

def stageWatermark (staged : Publishers) (watermark : PublisherWatermark) :
    Except Error Publishers := do
  require watermark.publisher.valid .invalidIdentity
    "durable state contains an invalid publisher id"
  let publisher := publisherOfWatermark ((staged[watermark.publisher]?).getD {}) watermark
  require (!publisher.watermarks.contains watermark.boot) .duplicateConflict
    "durable state declares a publisher boot watermark twice"
  pure (staged.insert watermark.publisher
    { publisher with
      watermarks := publisher.watermarks.insertIfNew watermark.boot watermark
      bootHistory := publisher.bootHistory + 1 })

def stageFenced (staged : Publishers) (fenced : PublisherWatermark) : Except Error Publishers := do
  require (fenced.publisher.valid && fenced.boot.valid) .invalidIdentity
    "durable state contains an invalid fenced boot identity"
  let publisher := (staged[fenced.publisher]?).getD {}
  let publisher := if publisher.record.identity.id.valid then publisher
    else { publisher with record.identity.id := fenced.publisher }
  pure (staged.insert fenced.publisher
    { publisher with fencedBoots := publisher.fencedBoots.insert fenced.boot })

/-- Process liveness is never restored: the restored boot is fenced and its publisher dead. -/
def unrestoredPublisher (publisher : PublisherStateInternal) : PublisherStateInternal :=
  let boot := publisher.record.identity.boot
  { publisher with
    fencedBoots := if boot.valid then publisher.fencedBoots.insert boot else publisher.fencedBoots
    record := { publisher.record with
      state := .dead
      reason := if publisher.record.reason.isEmpty then
          ("coordinator restarted; publisher liveness is not restored" : Text)
        else publisher.record.reason } }

/-- Everything the validation phase produces. -/
structure Staged where
  subjects : StagedSubjects
  platforms : Std.ExtTreeMap PlatformId PlatformIdentity
  schemas : StagedSchemas
  keys : StagedKeys
  quirks : Std.ExtTreeMap QuirkId QuirkRecord
  compatibility : Std.ExtTreeMap CompatibilityFactId CompatibilityFact
  publishers : Publishers

/-- The per-device index, rebuilt from the keys. -/
def indexKeys (keys : Std.ExtTreeMap KeyId KeyState) :
    Std.ExtTreeMap DeviceId (Std.ExtTreeSet CapabilityId) :=
  keys.toList.foldl (fun index e =>
    index.insert e.1.device (((index[e.1.device]?).getD ∅).insert e.1.capability)) ∅

/-- The eviction queue entries of one key. -/
def globalEntries (entry : KeyId × KeyState) : List GlobalEntry :=
  entry.2.records.map fun stored => ⟨entry.1, stored.serial⟩

namespace Impl
variable (r : Impl)

def stageInventory (state : DurableState) :
    Except Error (StagedSubjects × Std.ExtTreeMap PlatformId PlatformIdentity × StagedSchemas) := do
  checkBounds r.limits state
  let subjects ← state.subjects.foldlM (stageSubject r.limits) {}
  let platforms ← state.platforms.foldlM stagePlatform ∅
  let schemas ← state.schemas.foldlM (stageSchema r.limits)
    { schemas := r.schemas, capabilitySchemas := r.capabilitySchemas }
  pure (subjects, platforms, schemas)

def stagePublishers (state : DurableState) : Except Error Publishers := do
  let publishers ← state.publisherWatermarks.foldlM stageWatermark ∅
  let publishers ← state.fencedBoots.foldlM stageFenced publishers
  require (publishers.size ≤ r.limits.maxPublishers) .limitExceeded
    "durable state exceeds the publisher bound"
  pure publishers

/-- The stages after the evidence records. -/
def stageRest (state : DurableState) (subjects : StagedSubjects)
    (platforms : Std.ExtTreeMap PlatformId PlatformIdentity) (schemas : StagedSchemas)
    (keys : StagedKeys) : Except Error Staged := do
  let quirks ← state.quirks.foldlM (stageQuirk r.limits schemas) ∅
  let compatibility ← state.compatibility.foldlM (stageCompatibility r.limits subjects platforms) ∅
  let publishers ← r.stagePublishers state
  pure { subjects, platforms, schemas, keys, quirks, compatibility, publishers }

/-- The commit phase. -/
def commit (state : DurableState) (staged : Staged) : Impl :=
  let keys := staged.keys.keys
  { r with
    devices := staged.subjects.devices
    platforms := staged.platforms
    families := staged.subjects.families
    models := staged.subjects.models
    architectures := staged.subjects.architectures
    schemas := staged.schemas.schemas
    capabilitySchemas := staged.schemas.capabilitySchemas
    keys := keys
    deviceKeys := indexKeys keys
    quirks := staged.quirks
    compatibility := staged.compatibility
    publishers := staged.publishers.map fun _ publisher => unrestoredPublisher publisher
    evidenceCount := staged.keys.records
    globalOrder := keys.toList.flatMap globalEntries
    nextSerial := staged.keys.nextSerial
    epoch := if state.header.epoch.valid && r.epoch < state.header.epoch then state.header.epoch
      else r.epoch
    snapshotGeneration :=
      if state.header.snapshotGeneration.valid &&
          r.snapshotGeneration < state.header.snapshotGeneration then
        state.header.snapshotGeneration
      else r.snapshotGeneration
    stateRevision := state.header.stateRevision }.touch

def importReport (state : DurableState) (staged : Staged) : ImportReport :=
  { applied := true
    subjects := staged.subjects.devices.size
    schemas := state.schemas.length
    capabilityRecords := staged.keys.records
    revalidatedRecords := staged.keys.revalidated
    quirks := staged.quirks.size
    compatibilityFacts := staged.compatibility.size
    publishers := staged.publishers.size
    fencedBoots := state.fencedBoots.length
    detail := "durable state applied; " ++ decimal staged.keys.revalidated ++
      " process-bound evidence records require revalidation" }

def importDurableState (state : DurableState) : Except Error ImportReport × Impl :=
  match r.stageInventory state with
  | .error e => (.error e, r)
  | .ok (subjects, platforms, schemas) =>
    let (status, keys) :=
      stageRecords r.limits subjects schemas { nextSerial := r.nextSerial } state.capabilityHistory
    let refused := { r with nextSerial := keys.nextSerial }
    match status with
    | .error e => (.error e, refused)
    | .ok () =>
      match r.stageRest state subjects platforms schemas keys with
      | .error e => (.error e, refused)
      | .ok staged => (.ok (importReport state staged), r.commit state staged)

/-- Every stage of an import succeeds, with what it produces. -/
structure Imports (r : Impl) (state : DurableState) (staged : Staged) : Prop where
  bounds : checkBounds r.limits state = .ok ()
  subjects : state.subjects.foldlM (stageSubject r.limits) {} = .ok staged.subjects
  platforms : state.platforms.foldlM stagePlatform ∅ = .ok staged.platforms
  schemas : state.schemas.foldlM (stageSchema r.limits)
    { schemas := r.schemas, capabilitySchemas := r.capabilitySchemas } = .ok staged.schemas
  records : stageRecords r.limits staged.subjects staged.schemas { nextSerial := r.nextSerial }
    state.capabilityHistory = (.ok (), staged.keys)
  quirks : state.quirks.foldlM (stageQuirk r.limits staged.schemas) ∅ = .ok staged.quirks
  compatibility : state.compatibility.foldlM
    (stageCompatibility r.limits staged.subjects staged.platforms) ∅ = .ok staged.compatibility
  publishers : r.stagePublishers state = .ok staged.publishers

section Stages
variable {r r' : Impl} {state : DurableState} {report : ImportReport} {staged : Staged} {e : Error}

theorem stageInventory_eq_ok {subjects : StagedSubjects}
    {platforms : Std.ExtTreeMap PlatformId PlatformIdentity} {schemas : StagedSchemas} :
    r.stageInventory state = .ok (subjects, platforms, schemas) ↔
      checkBounds r.limits state = .ok () ∧
      state.subjects.foldlM (stageSubject r.limits) {} = .ok subjects ∧
      state.platforms.foldlM stagePlatform ∅ = .ok platforms ∧
      state.schemas.foldlM (stageSchema r.limits)
        { schemas := r.schemas, capabilitySchemas := r.capabilitySchemas } = .ok schemas := by
  simp only [stageInventory, bind_eq_ok, pure, Except.pure, Except.ok.injEq, Prod.mk.injEq]
  constructor
  · rintro ⟨_, hb, _, hs, _, hp, _, hc, rfl, rfl, rfl⟩
    exact ⟨hb, hs, hp, hc⟩
  · rintro ⟨hb, hs, hp, hc⟩
    exact ⟨(), hb, _, hs, _, hp, _, hc, rfl, rfl, rfl⟩

theorem stageRest_eq_ok {subjects : StagedSubjects}
    {platforms : Std.ExtTreeMap PlatformId PlatformIdentity} {schemas : StagedSchemas}
    {keys : StagedKeys} :
    r.stageRest state subjects platforms schemas keys = .ok staged ↔
      (staged.subjects = subjects ∧ staged.platforms = platforms ∧ staged.schemas = schemas ∧
        staged.keys = keys) ∧
      state.quirks.foldlM (stageQuirk r.limits schemas) ∅ = .ok staged.quirks ∧
      state.compatibility.foldlM (stageCompatibility r.limits subjects platforms) ∅ =
        .ok staged.compatibility ∧
      r.stagePublishers state = .ok staged.publishers := by
  simp only [stageRest, bind_eq_ok, pure, Except.pure, Except.ok.injEq]
  constructor
  · rintro ⟨_, hq, _, hc, _, hp, rfl⟩
    exact ⟨⟨rfl, rfl, rfl, rfl⟩, hq, hc, hp⟩
  · rintro ⟨⟨rfl, rfl, rfl, rfl⟩, hq, hc, hp⟩
    exact ⟨_, hq, _, hc, _, hp, rfl⟩

/-- An import succeeds exactly when all its stages do, and then commits what they produced. -/
theorem importDurableState_eq_ok : r.importDurableState state = (.ok report, r') ↔
    ∃ staged, Imports r state staged ∧ report = importReport state staged ∧
      r' = r.commit state staged := by
  unfold importDurableState
  constructor
  · intro h
    split at h
    · simp at h
    · next subjects platforms schemas hi =>
      obtain ⟨hb, hs, hp, hc⟩ := stageInventory_eq_ok.mp hi
      dsimp only at h
      split at h
      · simp at h
      · next hr =>
        split at h
        · simp at h
        · next staged hs' =>
          obtain ⟨⟨rfl, rfl, rfl, hkeys⟩, hq, hf, hpub⟩ := stageRest_eq_ok.mp hs'
          obtain ⟨hrep, hst⟩ := Prod.mk.inj h
          refine ⟨staged, ⟨hb, hs, hp, hc, ?_, hq, hf, hpub⟩, (Except.ok.inj hrep).symm, hst.symm⟩
          rw [hkeys, ← hr]
  · rintro ⟨staged, h, rfl, rfl⟩
    have hi := stageInventory_eq_ok.mpr ⟨h.bounds, h.subjects, h.platforms, h.schemas⟩
    have hr := stageRest_eq_ok.mpr
      ⟨⟨rfl, rfl, rfl, rfl⟩, h.quirks, h.compatibility, h.publishers⟩
    simp only [hi, h.records, hr]

/-- A refused import consumes serials at most. -/
theorem importDurableState_eq_error (h : r.importDurableState state = (.error e, r')) :
    ∃ serial, r' = { r with nextSerial := serial } := by
  unfold importDurableState at h
  split at h
  · obtain ⟨-, rfl⟩ := Prod.mk.inj h
    exact ⟨r.nextSerial, rfl⟩
  · dsimp only at h
    split at h
    · obtain ⟨-, rfl⟩ := Prod.mk.inj h
      exact ⟨_, rfl⟩
    · split at h
      · obtain ⟨-, rfl⟩ := Prod.mk.inj h
        exact ⟨_, rfl⟩
      · simp at h

end Stages

end Impl

end Import

end CapabilityRegistry
