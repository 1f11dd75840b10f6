import CapabilityRegistry.Codec

/-! The codecs of the records a publication carries. -/
namespace CapabilityRegistry
open ByteReader (round_u32 round_u64 round_boolean round_str round_list round_optional round_enum
  round_enum2 round_enum3)

section Identities

def writeEvidenceSource (limits : RegistryLimits) (source : EvidenceSource) : ByteWriter :=
  .enum source.sourceClass ++ .enum source.provenance ++
    writePublisherIdentity source.publisher ++ .str source.adapter limits.maxMetadataBytes ++
    .str source.nativeReference limits.maxMetadataBytes ++ .u64 source.observationSequence ++
    .str source.observedAtUtc limits.maxMetadataBytes ++ writeGen source.evidenceGeneration ++
    .u64 source.platformGeneration

def readEvidenceSource (limits : RegistryLimits) : ByteReader EvidenceSource := do
  let classes ← ByteReader.enum2
    ⟨.invalidProvenance, "unknown provenance enumeration on the wire"⟩
  let publisher ← readPublisherIdentity
  let adapter ← ByteReader.str limits.maxMetadataBytes
  let nativeReference ← ByteReader.str limits.maxMetadataBytes
  let observationSequence ← ByteReader.u64
  let observedAtUtc ← ByteReader.str limits.maxMetadataBytes
  let evidenceGeneration ← readGen
  let platformGeneration ← ByteReader.u64
  pure { sourceClass := classes.1, provenance := classes.2, publisher, adapter, nativeReference,
         observationSequence, observedAtUtc, evidenceGeneration, platformGeneration }

def EvidenceSource.FitsWire (limits : RegistryLimits) (source : EvidenceSource) : Prop :=
  FitsText limits.maxMetadataBytes source.adapter ∧
    FitsText limits.maxMetadataBytes source.nativeReference ∧
    FitsText limits.maxMetadataBytes source.observedAtUtc

theorem round_evidenceSource (limits : RegistryLimits) :
    Wire.Round (fun source => (writeEvidenceSource limits source).out) (readEvidenceSource limits)
      (EvidenceSource.FitsWire limits) :=
  (((round_enum2 SourceClass ProvenanceClass
        ⟨.invalidProvenance, "unknown provenance enumeration on the wire"⟩).both <|
      round_publisherIdentity.both <| (round_str limits.maxMetadataBytes).both <|
      (round_str limits.maxMetadataBytes).both <| round_u64.both <|
      (round_str limits.maxMetadataBytes).both <| round_gen.both round_u64).record
    (fun source => ((source.sourceClass, source.provenance), source.publisher, source.adapter,
      source.nativeReference, source.observationSequence, source.observedAtUtc,
      source.evidenceGeneration, source.platformGeneration))
    (fun (classes, publisher, adapter, nativeReference, observationSequence, observedAtUtc,
        evidenceGeneration, platformGeneration) =>
      { sourceClass := classes.1, provenance := classes.2, publisher, adapter, nativeReference,
        observationSequence, observedAtUtc, evidenceGeneration, platformGeneration })
    (by simp [readEvidenceSource, Wire.both]) (fun _ => by simp [writeEvidenceSource])
    (fun _ => rfl) fun _ => rfl).congr fun _ => by simp [EvidenceSource.FitsWire]

def writeNativeIdentifier (limits : RegistryLimits) (identifier : NativeIdentifier) : ByteWriter :=
  .str identifier.key limits.maxNameLength ++ .str identifier.value limits.maxMetadataBytes

def readNativeIdentifier (limits : RegistryLimits) : ByteReader NativeIdentifier := do
  let key ← ByteReader.str limits.maxNameLength
  let value ← ByteReader.str limits.maxMetadataBytes
  pure { key, value }

def NativeIdentifier.FitsWire (limits : RegistryLimits) (identifier : NativeIdentifier) : Prop :=
  FitsText limits.maxNameLength identifier.key ∧ FitsText limits.maxMetadataBytes identifier.value

theorem round_nativeIdentifier (limits : RegistryLimits) :
    Wire.Round (fun identifier => (writeNativeIdentifier limits identifier).out)
      (readNativeIdentifier limits) (NativeIdentifier.FitsWire limits) :=
  (((round_str limits.maxNameLength).both (round_str limits.maxMetadataBytes)).record
    (fun identifier => (identifier.key, identifier.value)) (fun (key, value) => { key, value })
    (by simp [readNativeIdentifier, Wire.both]) (fun _ => by simp [writeNativeIdentifier])
    (fun _ => rfl) fun _ => rfl).congr fun _ => Iff.rfl

theorem round_nativeIdentifiers (limits : RegistryLimits) (e : Error) :
    Wire.Round
      (fun ids => (ByteWriter.list limits.maxNativeIdentifiers (writeNativeIdentifier limits) ids).out)
      (ByteReader.list limits.maxNativeIdentifiers e (readNativeIdentifier limits))
      (FitsList limits.maxNativeIdentifiers (NativeIdentifier.FitsWire limits)) :=
  round_list _ e (round_nativeIdentifier limits)
    fun identifier => by simp [writeNativeIdentifier, str_ne_nil]

def writeHardwareIdentity (limits : RegistryLimits) (identity : HardwareIdentity) : ByteWriter :=
  writeId identity.vendor ++ writeId identity.product ++ writeId identity.family ++
    writeId identity.model ++ writeId identity.revision ++ writeId identity.architecture ++
    .enum identity.hardwareClass ++
    .list limits.maxNativeIdentifiers (writeNativeIdentifier limits) identity.nativeIdentifiers

def readHardwareIdentity (limits : RegistryLimits) : ByteReader HardwareIdentity := do
  let vendor ← readId
  let product ← readId
  let family ← readId
  let model ← readId
  let revision ← readId
  let architecture ← readId
  let hardwareClass ← ByteReader.enum ⟨.invalidIdentity, "unknown hardware class on the wire"⟩
  let nativeIdentifiers ← ByteReader.list limits.maxNativeIdentifiers
    ⟨.limitExceeded, "native identifier count exceeds the bound"⟩ (readNativeIdentifier limits)
  pure { vendor, product, family, model, revision, architecture, hardwareClass, nativeIdentifiers }

def HardwareIdentity.FitsWire (limits : RegistryLimits) (identity : HardwareIdentity) : Prop :=
  FitsList limits.maxNativeIdentifiers (NativeIdentifier.FitsWire limits)
    identity.nativeIdentifiers

theorem round_hardwareIdentity (limits : RegistryLimits) :
    Wire.Round (fun identity => (writeHardwareIdentity limits identity).out)
      (readHardwareIdentity limits) (HardwareIdentity.FitsWire limits) :=
  ((round_id.both <| round_id.both <| round_id.both <| round_id.both <| round_id.both <|
      round_id.both <|
      (round_enum HardwareClass ⟨.invalidIdentity, "unknown hardware class on the wire"⟩).both <|
      round_nativeIdentifiers limits
        ⟨.limitExceeded, "native identifier count exceeds the bound"⟩).record
    (fun identity => (identity.vendor, identity.product, identity.family, identity.model,
      identity.revision, identity.architecture, identity.hardwareClass, identity.nativeIdentifiers))
    (fun (vendor, product, family, model, revision, architecture, hardwareClass,
        nativeIdentifiers) =>
      { vendor, product, family, model, revision, architecture, hardwareClass, nativeIdentifiers })
    (by simp [readHardwareIdentity, Wire.both]) (fun _ => by simp [writeHardwareIdentity])
    (fun _ => rfl) fun _ => rfl).congr fun _ => by simp [HardwareIdentity.FitsWire]

def writePlatformIdentity (limits : RegistryLimits) (identity : PlatformIdentity) : ByteWriter :=
  writeId identity.id ++ .str identity.displayName limits.maxNameLength ++
    .str identity.vendor limits.maxNameLength ++ .str identity.model limits.maxNameLength ++
    writeId identity.architecture ++
    .list limits.maxNativeIdentifiers (writeNativeIdentifier limits) identity.nativeIdentifiers

def readPlatformIdentity (limits : RegistryLimits) : ByteReader PlatformIdentity := do
  let id ← readId
  let displayName ← ByteReader.str limits.maxNameLength
  let vendor ← ByteReader.str limits.maxNameLength
  let model ← ByteReader.str limits.maxNameLength
  let architecture ← readId
  let nativeIdentifiers ← ByteReader.list limits.maxNativeIdentifiers
    ⟨.limitExceeded, "platform native identifier count exceeds the bound"⟩
    (readNativeIdentifier limits)
  pure { id, displayName, vendor, model, architecture, nativeIdentifiers }

def PlatformIdentity.FitsWire (limits : RegistryLimits) (identity : PlatformIdentity) : Prop :=
  FitsText limits.maxNameLength identity.displayName ∧
    FitsText limits.maxNameLength identity.vendor ∧ FitsText limits.maxNameLength identity.model ∧
    FitsList limits.maxNativeIdentifiers (NativeIdentifier.FitsWire limits)
      identity.nativeIdentifiers

theorem round_platformIdentity (limits : RegistryLimits) :
    Wire.Round (fun identity => (writePlatformIdentity limits identity).out)
      (readPlatformIdentity limits) (PlatformIdentity.FitsWire limits) :=
  ((round_id.both <| (round_str limits.maxNameLength).both <|
      (round_str limits.maxNameLength).both <| (round_str limits.maxNameLength).both <|
      round_id.both <| round_nativeIdentifiers limits
        ⟨.limitExceeded, "platform native identifier count exceeds the bound"⟩).record
    (fun identity => (identity.id, identity.displayName, identity.vendor, identity.model,
      identity.architecture, identity.nativeIdentifiers))
    (fun (id, displayName, vendor, model, architecture, nativeIdentifiers) =>
      { id, displayName, vendor, model, architecture, nativeIdentifiers })
    (by simp [readPlatformIdentity, Wire.both]) (fun _ => by simp [writePlatformIdentity])
    (fun _ => rfl) fun _ => rfl).congr fun _ => by simp [PlatformIdentity.FitsWire]

def writeDeviceIdentity (limits : RegistryLimits) (identity : DeviceIdentity) : ByteWriter :=
  writeId identity.id ++ writeId identity.incarnation ++
    writeHardwareIdentity limits identity.hardware ++ writeId identity.platform ++
    .optional (fun text => .str text limits.maxMetadataBytes) identity.serialNumber ++
    .optional (fun text => .str text limits.maxMetadataBytes) identity.instanceLocator ++
    .str identity.displayName limits.maxNameLength

def readDeviceIdentity (limits : RegistryLimits) : ByteReader DeviceIdentity := do
  let id ← readId
  let incarnation ← readId
  let hardware ← readHardwareIdentity limits
  let platform ← readId
  let serialNumber ← ByteReader.optional (ByteReader.str limits.maxMetadataBytes)
  let instanceLocator ← ByteReader.optional (ByteReader.str limits.maxMetadataBytes)
  let displayName ← ByteReader.str limits.maxNameLength
  pure { id, incarnation, hardware, platform, serialNumber, instanceLocator, displayName }

def DeviceIdentity.FitsWire (limits : RegistryLimits) (identity : DeviceIdentity) : Prop :=
  identity.hardware.FitsWire limits ∧
    FitsOptional (FitsText limits.maxMetadataBytes) identity.serialNumber ∧
    FitsOptional (FitsText limits.maxMetadataBytes) identity.instanceLocator ∧
    FitsText limits.maxNameLength identity.displayName

theorem round_deviceIdentity (limits : RegistryLimits) :
    Wire.Round (fun identity => (writeDeviceIdentity limits identity).out)
      (readDeviceIdentity limits) (DeviceIdentity.FitsWire limits) :=
  ((round_id.both <| round_id.both <| (round_hardwareIdentity limits).both <| round_id.both <|
      (round_optional (round_str limits.maxMetadataBytes)).both <|
      (round_optional (round_str limits.maxMetadataBytes)).both <|
      round_str limits.maxNameLength).record
    (fun identity => (identity.id, identity.incarnation, identity.hardware, identity.platform,
      identity.serialNumber, identity.instanceLocator, identity.displayName))
    (fun (id, incarnation, hardware, platform, serialNumber, instanceLocator, displayName) =>
      { id, incarnation, hardware, platform, serialNumber, instanceLocator, displayName })
    (by simp [readDeviceIdentity, Wire.both]) (fun _ => by simp [writeDeviceIdentity])
    (fun _ => rfl) fun _ => rfl).congr fun _ => by simp [DeviceIdentity.FitsWire]

def writeSoftwareState (limits : RegistryLimits) (state : DeviceSoftwareState) : ByteWriter :=
  writeId state.firmware.id ++ .str state.firmware.version limits.maxNameLength ++
    .str state.firmware.build limits.maxNameLength ++ writeGen state.firmwareGeneration ++
    writeId state.driver.id ++ .str state.driver.version limits.maxNameLength ++
    writeGen state.driverGeneration ++ writeId state.runtime.id ++
    .str state.runtime.version limits.maxNameLength ++ writeGen state.runtimeGeneration

def readSoftwareState (limits : RegistryLimits) : ByteReader DeviceSoftwareState := do
  let firmware ← readId
  let firmwareVersion ← ByteReader.str limits.maxNameLength
  let build ← ByteReader.str limits.maxNameLength
  let firmwareGeneration ← readGen
  let driver ← readId
  let driverVersion ← ByteReader.str limits.maxNameLength
  let driverGeneration ← readGen
  let runtime ← readId
  let runtimeVersion ← ByteReader.str limits.maxNameLength
  let runtimeGeneration ← readGen
  pure { firmware := { id := firmware, version := firmwareVersion, build },
         firmwareGeneration,
         driver := { id := driver, version := driverVersion },
         driverGeneration,
         runtime := { id := runtime, version := runtimeVersion },
         runtimeGeneration }

def DeviceSoftwareState.FitsWire (limits : RegistryLimits) (state : DeviceSoftwareState) : Prop :=
  FitsText limits.maxNameLength state.firmware.version ∧
    FitsText limits.maxNameLength state.firmware.build ∧
    FitsText limits.maxNameLength state.driver.version ∧
    FitsText limits.maxNameLength state.runtime.version

theorem round_softwareState (limits : RegistryLimits) :
    Wire.Round (fun state => (writeSoftwareState limits state).out) (readSoftwareState limits)
      (DeviceSoftwareState.FitsWire limits) :=
  ((round_id.both <| (round_str limits.maxNameLength).both <|
      (round_str limits.maxNameLength).both <| round_gen.both <| round_id.both <|
      (round_str limits.maxNameLength).both <| round_gen.both <| round_id.both <|
      (round_str limits.maxNameLength).both round_gen).record
    (fun state => (state.firmware.id, state.firmware.version, state.firmware.build,
      state.firmwareGeneration, state.driver.id, state.driver.version, state.driverGeneration,
      state.runtime.id, state.runtime.version, state.runtimeGeneration))
    (fun (firmware, firmwareVersion, build, firmwareGeneration, driver, driverVersion,
        driverGeneration, runtime, runtimeVersion, runtimeGeneration) =>
      { firmware := { id := firmware, version := firmwareVersion, build },
        firmwareGeneration,
        driver := { id := driver, version := driverVersion },
        driverGeneration,
        runtime := { id := runtime, version := runtimeVersion },
        runtimeGeneration })
    (by simp [readSoftwareState, Wire.both]) (fun _ => by simp [writeSoftwareState])
    (fun _ => rfl) fun _ => rfl).congr fun _ => by simp [DeviceSoftwareState.FitsWire]

def writeDeviceRegistration (limits : RegistryLimits) (registration : DeviceRegistration) :
    ByteWriter :=
  writeDeviceIdentity limits registration.identity ++
    writeSoftwareState limits registration.software ++
    writePlatformIdentity limits registration.platform ++
    .boolean registration.deviceBootObserved ++ .u64 registration.observationSequence ++
    .str registration.observedAtUtc limits.maxMetadataBytes

def readDeviceRegistration (limits : RegistryLimits) : ByteReader DeviceRegistration := do
  let identity ← readDeviceIdentity limits
  let software ← readSoftwareState limits
  let platform ← readPlatformIdentity limits
  let deviceBootObserved ← ByteReader.boolean
  let observationSequence ← ByteReader.u64
  let observedAtUtc ← ByteReader.str limits.maxMetadataBytes
  pure { identity, software, platform, deviceBootObserved, observationSequence, observedAtUtc }

def DeviceRegistration.FitsWire (limits : RegistryLimits) (registration : DeviceRegistration) :
    Prop :=
  registration.identity.FitsWire limits ∧ registration.software.FitsWire limits ∧
    registration.platform.FitsWire limits ∧
    FitsText limits.maxMetadataBytes registration.observedAtUtc

theorem round_deviceRegistration (limits : RegistryLimits) :
    Wire.Round (fun registration => (writeDeviceRegistration limits registration).out)
      (readDeviceRegistration limits) (DeviceRegistration.FitsWire limits) :=
  (((round_deviceIdentity limits).both <| (round_softwareState limits).both <|
      (round_platformIdentity limits).both <| round_boolean.both <| round_u64.both <|
      round_str limits.maxMetadataBytes).record
    (fun registration => (registration.identity, registration.software, registration.platform,
      registration.deviceBootObserved, registration.observationSequence,
      registration.observedAtUtc))
    (fun (identity, software, platform, deviceBootObserved, observationSequence,
        observedAtUtc) =>
      { identity, software, platform, deviceBootObserved, observationSequence, observedAtUtc })
    (by simp [readDeviceRegistration, Wire.both]) (fun _ => by simp [writeDeviceRegistration])
    (fun _ => rfl) fun _ => rfl).congr fun _ => by simp [DeviceRegistration.FitsWire]

end Identities

section Records

def writeCapabilitySchema (limits : RegistryLimits) (schema : CapabilitySchema) : ByteWriter :=
  writeId schema.id ++ writeId schema.capability ++ .enum schema.domain ++
    .enum schema.valueKind ++ .str schema.canonicalName limits.maxNameLength ++
    .str schema.unit limits.maxMetadataBytes

def readCapabilitySchema (limits : RegistryLimits) : ByteReader CapabilitySchema := do
  let id ← readId
  let capability ← readId
  let kinds ← ByteReader.enum2
    ⟨.invalidCapability, "unknown capability domain or value kind on the wire"⟩
  let canonicalName ← ByteReader.str limits.maxNameLength
  let unit ← ByteReader.str limits.maxMetadataBytes
  pure { id, capability, domain := kinds.1, valueKind := kinds.2, canonicalName, unit }

def CapabilitySchema.FitsWire (limits : RegistryLimits) (schema : CapabilitySchema) : Prop :=
  FitsText limits.maxNameLength schema.canonicalName ∧ FitsText limits.maxMetadataBytes schema.unit

theorem round_capabilitySchema (limits : RegistryLimits) :
    Wire.Round (fun schema => (writeCapabilitySchema limits schema).out)
      (readCapabilitySchema limits) (CapabilitySchema.FitsWire limits) :=
  ((round_id.both <| round_id.both <| (round_enum2 CapabilityDomain ValueKind
        ⟨.invalidCapability, "unknown capability domain or value kind on the wire"⟩).both <|
      (round_str limits.maxNameLength).both <| round_str limits.maxMetadataBytes).record
    (fun schema => (schema.id, schema.capability, (schema.domain, schema.valueKind),
      schema.canonicalName, schema.unit))
    (fun (id, capability, kinds, canonicalName, unit) =>
      { id, capability, domain := kinds.1, valueKind := kinds.2, canonicalName, unit })
    (by simp [readCapabilitySchema, Wire.both]) (fun _ => by simp [writeCapabilitySchema])
    (fun _ => rfl) fun _ => rfl).congr fun _ => by simp [CapabilitySchema.FitsWire]

def writeCapabilityRecord (limits : RegistryLimits) (record : CapabilityRecord) : ByteWriter :=
  writeId record.device ++ writeGen record.deviceGeneration ++ writeGen record.deviceBoot ++
    writeId record.capability ++ writeId record.schema ++ writeGen record.capabilityGeneration ++
    .enum record.support ++ writeValue limits record.value ++ .enum record.precision ++
    writeEvidenceSource limits record.source ++ writeCondition limits record.conditions ++
    writeGen record.firmwareGeneration ++ writeGen record.driverGeneration ++
    writeGen record.runtimeGeneration ++ writeGen record.platformGeneration ++
    writeId record.driverId ++ writeId record.firmwareId ++ writeId record.runtimeId ++
    .boolean record.withdrawn

def readCapabilityRecord (limits : RegistryLimits) : ByteReader CapabilityRecord := do
  let device ← readId
  let deviceGeneration ← readGen
  let deviceBoot ← readGen
  let capability ← readId
  let schema ← readId
  let capabilityGeneration ← readGen
  let support ← ByteReader.enum ⟨.invalidSupportState, "unknown support state on the wire"⟩
  let value ← readValue limits (valueLevels limits 1)
  let precision ← ByteReader.enum ⟨.invalidProvenance, "unknown precision class on the wire"⟩
  let source ← readEvidenceSource limits
  let conditions ← readCondition limits (conditionLevels limits 1)
  let firmwareGeneration ← readGen
  let driverGeneration ← readGen
  let runtimeGeneration ← readGen
  let platformGeneration ← readGen
  let driverId ← readId
  let firmwareId ← readId
  let runtimeId ← readId
  let withdrawn ← ByteReader.boolean
  pure { device, deviceGeneration, deviceBoot, capability, schema, capabilityGeneration, support,
         value, precision, source, conditions, firmwareGeneration, driverGeneration,
         runtimeGeneration, platformGeneration, driverId, firmwareId, runtimeId, withdrawn }

def CapabilityRecord.FitsWire (limits : RegistryLimits) (record : CapabilityRecord) : Prop :=
  record.value.FitsWire limits (valueLevels limits 1) ∧ record.source.FitsWire limits ∧
    record.conditions.FitsWire limits (conditionLevels limits 1)

theorem round_capabilityRecord (limits : RegistryLimits) :
    Wire.Round (fun record => (writeCapabilityRecord limits record).out)
      (readCapabilityRecord limits) (CapabilityRecord.FitsWire limits) :=
  -- the fields in two groups: what the record states, and under which software it holds
  (((round_id.both <| round_gen.both <| round_gen.both <| round_id.both <| round_id.both <|
        round_gen.both <|
        (round_enum SupportState ⟨.invalidSupportState, "unknown support state on the wire"⟩).both <|
        (round_value limits (valueLevels limits 1)).both <|
        round_enum PrecisionClass
          ⟨.invalidProvenance, "unknown precision class on the wire"⟩).both <|
      (round_evidenceSource limits).both <|
      (round_condition limits (conditionLevels limits 1)).both <| round_gen.both <|
      round_gen.both <| round_gen.both <| round_gen.both <| round_id.both <| round_id.both <|
      round_id.both round_boolean).record
    (fun record => ((record.device, record.deviceGeneration, record.deviceBoot, record.capability,
      record.schema, record.capabilityGeneration, record.support, record.value, record.precision),
      record.source, record.conditions, record.firmwareGeneration, record.driverGeneration,
      record.runtimeGeneration, record.platformGeneration, record.driverId, record.firmwareId,
      record.runtimeId, record.withdrawn))
    (fun ((device, deviceGeneration, deviceBoot, capability, schema, capabilityGeneration, support,
        value, precision), source, conditions, firmwareGeneration, driverGeneration,
        runtimeGeneration, platformGeneration, driverId, firmwareId, runtimeId, withdrawn) =>
      { device, deviceGeneration, deviceBoot, capability, schema, capabilityGeneration, support,
        value, precision, source, conditions, firmwareGeneration, driverGeneration,
        runtimeGeneration, platformGeneration, driverId, firmwareId, runtimeId, withdrawn })
    (by simp [readCapabilityRecord, Wire.both])
    (fun _ => by simp [writeCapabilityRecord]) (fun _ => rfl) fun _ => rfl).congr fun _ => by
      simp [CapabilityRecord.FitsWire]

def writeHardwareReference (limits : RegistryLimits) (reference : HardwareReference) : ByteWriter :=
  .enum reference.kind ++ .str reference.token kMaxTokenLength ++
    writeVersion limits reference.version

def readHardwareReference (limits : RegistryLimits) : ByteReader HardwareReference := do
  let kind ← ByteReader.enum
    ⟨.invalidReference, "unknown hardware reference kind on the wire"⟩
  let token ← ByteReader.str kMaxTokenLength
  let version ← readVersion limits
  pure { kind, token, version }

def HardwareReference.FitsWire (limits : RegistryLimits) (reference : HardwareReference) : Prop :=
  FitsText kMaxTokenLength reference.token ∧ reference.version.FitsWire limits

theorem round_hardwareReference (limits : RegistryLimits) :
    Wire.Round (fun reference => (writeHardwareReference limits reference).out)
      (readHardwareReference limits) (HardwareReference.FitsWire limits) :=
  (((round_enum HardwareReferenceKind
        ⟨.invalidReference, "unknown hardware reference kind on the wire"⟩).both <|
      (round_str kMaxTokenLength).both <| round_version limits).record
    (fun reference => (reference.kind, reference.token, reference.version))
    (fun (kind, token, version) => { kind, token, version })
    (by simp [readHardwareReference, Wire.both]) (fun _ => by simp [writeHardwareReference])
    (fun _ => rfl) fun _ => rfl).congr fun _ => by simp [HardwareReference.FitsWire]

def writeCompatibilityFact (limits : RegistryLimits) (fact : CompatibilityFact) : ByteWriter :=
  writeId fact.id ++ writeGen fact.compatibilityGeneration ++ .enum fact.kind ++
    writeHardwareReference limits fact.lhs ++ writeHardwareReference limits fact.rhs ++
    .enum fact.outcome ++ writeCondition limits fact.conditions ++
    writeVersionRange limits fact.versionWindow ++ .str fact.reason limits.maxMetadataBytes ++
    writeEvidenceSource limits fact.source ++ .boolean fact.withdrawn

def readCompatibilityFact (limits : RegistryLimits) : ByteReader CompatibilityFact := do
  let id ← readId
  let compatibilityGeneration ← readGen
  let kind ← ByteReader.enum ⟨.corruptData, "unknown compatibility subject kind on the wire"⟩
  let lhs ← readHardwareReference limits
  let rhs ← readHardwareReference limits
  let outcome ← ByteReader.enum ⟨.corruptData, "unknown compatibility outcome on the wire"⟩
  let conditions ← readCondition limits (conditionLevels limits 1)
  let versionWindow ← readVersionRange limits
  let reason ← ByteReader.str limits.maxMetadataBytes
  let source ← readEvidenceSource limits
  let withdrawn ← ByteReader.boolean
  pure { id, compatibilityGeneration, kind, lhs, rhs, outcome, conditions, versionWindow, reason,
         source, withdrawn }

def CompatibilityFact.FitsWire (limits : RegistryLimits) (fact : CompatibilityFact) : Prop :=
  fact.lhs.FitsWire limits ∧ fact.rhs.FitsWire limits ∧
    fact.conditions.FitsWire limits (conditionLevels limits 1) ∧
    fact.versionWindow.FitsWire limits ∧ FitsText limits.maxMetadataBytes fact.reason ∧
    fact.source.FitsWire limits

theorem round_compatibilityFact (limits : RegistryLimits) :
    Wire.Round (fun fact => (writeCompatibilityFact limits fact).out)
      (readCompatibilityFact limits) (CompatibilityFact.FitsWire limits) :=
  ((round_id.both <| round_gen.both <|
      (round_enum CompatibilitySubjectKind
        ⟨.corruptData, "unknown compatibility subject kind on the wire"⟩).both <|
      (round_hardwareReference limits).both <| (round_hardwareReference limits).both <|
      (round_enum CompatibilityOutcome
        ⟨.corruptData, "unknown compatibility outcome on the wire"⟩).both <|
      (round_condition limits (conditionLevels limits 1)).both <|
      (round_versionRange limits).both <| (round_str limits.maxMetadataBytes).both <|
      (round_evidenceSource limits).both round_boolean).record
    (fun fact => (fact.id, fact.compatibilityGeneration, fact.kind, fact.lhs, fact.rhs,
      fact.outcome, fact.conditions, fact.versionWindow, fact.reason, fact.source, fact.withdrawn))
    (fun (id, compatibilityGeneration, kind, lhs, rhs, outcome, conditions, versionWindow, reason,
        source, withdrawn) =>
      { id, compatibilityGeneration, kind, lhs, rhs, outcome, conditions, versionWindow, reason,
        source, withdrawn })
    (by simp [readCompatibilityFact, Wire.both]) (fun _ => by simp [writeCompatibilityFact])
    (fun _ => rfl) fun _ => rfl).congr fun _ => by simp [CompatibilityFact.FitsWire]

end Records

section Quirks

/-- The identity lists of a quirk: at most 1024 of them are written, and read. -/
def writeIds {Tag : Type} (ids : List (Id Tag)) : ByteWriter := .list 1024 writeId ids

def readIds {Tag : Type} : ByteReader (List (Id Tag)) :=
  ByteReader.list 1024 ⟨.limitExceeded, "identity list count exceeds the bound"⟩ readId

/-- The range lists of a quirk: at most 64 of them are written, and read. -/
def writeRanges (limits : RegistryLimits) (ranges : List VersionRange) : ByteWriter :=
  .list 64 (writeVersionRange limits) ranges

def readRanges (limits : RegistryLimits) : ByteReader (List VersionRange) :=
  ByteReader.list 64 ⟨.limitExceeded, "version range count exceeds the bound"⟩
    (readVersionRange limits)

def writeRevisionRange (limits : RegistryLimits) (range : RevisionRange) : ByteWriter :=
  .str range.minimum limits.maxMetadataBytes ++ .str range.maximum limits.maxMetadataBytes

def readRevisionRange (limits : RegistryLimits) : ByteReader RevisionRange := do
  let minimum ← ByteReader.str limits.maxMetadataBytes
  let maximum ← ByteReader.str limits.maxMetadataBytes
  pure { minimum, maximum }

def RevisionRange.FitsWire (limits : RegistryLimits) (range : RevisionRange) : Prop :=
  FitsText limits.maxMetadataBytes range.minimum ∧ FitsText limits.maxMetadataBytes range.maximum

theorem round_ids {Tag : Type} : Wire.Round (fun ids : List (Id Tag) => (writeIds ids).out) readIds
    (FitsList 1024 fun _ => True) :=
  round_list 1024 _ round_id writeId_ne_nil

theorem round_ranges (limits : RegistryLimits) :
    Wire.Round (fun ranges => (writeRanges limits ranges).out) (readRanges limits)
      (FitsList 64 (VersionRange.FitsWire limits)) :=
  round_list 64 _ (round_versionRange limits) fun range => by
    simp [writeVersionRange, writeVersion, str_ne_nil]

theorem round_revisionRange (limits : RegistryLimits) :
    Wire.Round (fun range => (writeRevisionRange limits range).out) (readRevisionRange limits)
      (RevisionRange.FitsWire limits) :=
  (((round_str limits.maxMetadataBytes).both (round_str limits.maxMetadataBytes)).record
    (fun range => (range.minimum, range.maximum)) (fun (minimum, maximum) => { minimum, maximum })
    (by simp [readRevisionRange, Wire.both]) (fun _ => by simp [writeRevisionRange])
    (fun _ => rfl) fun _ => rfl).congr fun _ => Iff.rfl

def writeApplicability (limits : RegistryLimits) (applicability : QuirkApplicability) :
    ByteWriter :=
  writeIds applicability.vendors ++ writeIds applicability.families ++
    writeIds applicability.models ++ writeIds applicability.devices ++
    writeIds applicability.revisions ++ writeIds applicability.architectures ++
    .list 64 (writeRevisionRange limits) applicability.revisionRanges ++
    writeRanges limits applicability.driverRanges ++
    writeRanges limits applicability.firmwareRanges ++
    writeRanges limits applicability.runtimeRanges ++
    writeCondition limits applicability.platformConditions

def readApplicability (limits : RegistryLimits) : ByteReader QuirkApplicability := do
  let vendors ← readIds
  let families ← readIds
  let models ← readIds
  let devices ← readIds
  let revisions ← readIds
  let architectures ← readIds
  let revisionRanges ← ByteReader.list 64
    ⟨.limitExceeded, "revision range count exceeds the bound"⟩ (readRevisionRange limits)
  let driverRanges ← readRanges limits
  let firmwareRanges ← readRanges limits
  let runtimeRanges ← readRanges limits
  let platformConditions ← readCondition limits (conditionLevels limits 1)
  pure { vendors, families, models, devices, revisions, revisionRanges, architectures,
         driverRanges, firmwareRanges, runtimeRanges, platformConditions }

/-- Every identity list is cut at 1024 entries and every range list at 64. -/
def QuirkApplicability.FitsWire (limits : RegistryLimits) (applicability : QuirkApplicability) :
    Prop :=
  FitsList 1024 (fun _ => True) applicability.vendors ∧
    FitsList 1024 (fun _ => True) applicability.families ∧
    FitsList 1024 (fun _ => True) applicability.models ∧
    FitsList 1024 (fun _ => True) applicability.devices ∧
    FitsList 1024 (fun _ => True) applicability.revisions ∧
    FitsList 1024 (fun _ => True) applicability.architectures ∧
    FitsList 64 (RevisionRange.FitsWire limits) applicability.revisionRanges ∧
    FitsList 64 (VersionRange.FitsWire limits) applicability.driverRanges ∧
    FitsList 64 (VersionRange.FitsWire limits) applicability.firmwareRanges ∧
    FitsList 64 (VersionRange.FitsWire limits) applicability.runtimeRanges ∧
    applicability.platformConditions.FitsWire limits (conditionLevels limits 1)

theorem round_applicability (limits : RegistryLimits) :
    Wire.Round (fun applicability => (writeApplicability limits applicability).out)
      (readApplicability limits) (QuirkApplicability.FitsWire limits) :=
  ((round_ids.both <| round_ids.both <| round_ids.both <| round_ids.both <| round_ids.both <|
      round_ids.both <|
      (round_list 64 ⟨.limitExceeded, "revision range count exceeds the bound"⟩
        (round_revisionRange limits) fun range => by
          simp [writeRevisionRange, str_ne_nil]).both <|
      (round_ranges limits).both <| (round_ranges limits).both <| (round_ranges limits).both <|
      round_condition limits (conditionLevels limits 1)).record
    (fun applicability => (applicability.vendors, applicability.families, applicability.models,
      applicability.devices, applicability.revisions, applicability.architectures,
      applicability.revisionRanges, applicability.driverRanges, applicability.firmwareRanges,
      applicability.runtimeRanges, applicability.platformConditions))
    (fun (vendors, families, models, devices, revisions, architectures, revisionRanges,
        driverRanges, firmwareRanges, runtimeRanges, platformConditions) =>
      { vendors, families, models, devices, revisions, revisionRanges, architectures,
        driverRanges, firmwareRanges, runtimeRanges, platformConditions })
    (by simp [readApplicability, Wire.both]) (fun _ => by simp [writeApplicability])
    (fun _ => rfl) fun _ => rfl).congr fun _ => by simp [QuirkApplicability.FitsWire]

def writeQuirkRecord (limits : RegistryLimits) (quirk : QuirkRecord) : ByteWriter :=
  writeId quirk.id ++ writeGen quirk.quirkGeneration ++ .str quirk.title limits.maxNameLength ++
    .str quirk.description limits.maxMetadataBytes ++ .enum quirk.category ++
    .enum quirk.severity ++ .enum quirk.mitigation ++
    writeApplicability limits quirk.applicability ++ writeIds quirk.impactedCapabilities ++
    writeEvidenceSource limits quirk.source ++ .boolean quirk.withdrawn

def readQuirkRecord (limits : RegistryLimits) : ByteReader QuirkRecord := do
  let id ← readId
  let quirkGeneration ← readGen
  let title ← ByteReader.str limits.maxNameLength
  let description ← ByteReader.str limits.maxMetadataBytes
  let kinds ← ByteReader.enum3 ⟨.corruptData, "unknown quirk enumeration on the wire"⟩
  let applicability ← readApplicability limits
  let impactedCapabilities ← readIds
  let source ← readEvidenceSource limits
  let withdrawn ← ByteReader.boolean
  pure { id, quirkGeneration, title, description, category := kinds.1, severity := kinds.2.1,
         mitigation := kinds.2.2, applicability, impactedCapabilities, source, withdrawn }

def QuirkRecord.FitsWire (limits : RegistryLimits) (quirk : QuirkRecord) : Prop :=
  FitsText limits.maxNameLength quirk.title ∧
    FitsText limits.maxMetadataBytes quirk.description ∧ quirk.applicability.FitsWire limits ∧
    FitsList 1024 (fun _ => True) quirk.impactedCapabilities ∧ quirk.source.FitsWire limits

theorem round_quirkRecord (limits : RegistryLimits) :
    Wire.Round (fun quirk => (writeQuirkRecord limits quirk).out) (readQuirkRecord limits)
      (QuirkRecord.FitsWire limits) :=
  ((round_id.both <| round_gen.both <| (round_str limits.maxNameLength).both <|
      (round_str limits.maxMetadataBytes).both <|
      (round_enum3 QuirkCategory QuirkSeverity MitigationKind
        ⟨.corruptData, "unknown quirk enumeration on the wire"⟩).both <|
      (round_applicability limits).both <| round_ids.both <|
      (round_evidenceSource limits).both round_boolean).record
    (fun quirk => (quirk.id, quirk.quirkGeneration, quirk.title, quirk.description,
      (quirk.category, quirk.severity, quirk.mitigation), quirk.applicability,
      quirk.impactedCapabilities, quirk.source, quirk.withdrawn))
    (fun (id, quirkGeneration, title, description, kinds, applicability, impactedCapabilities,
        source, withdrawn) =>
      { id, quirkGeneration, title, description, category := kinds.1, severity := kinds.2.1,
        mitigation := kinds.2.2, applicability, impactedCapabilities, source, withdrawn })
    (by simp [readQuirkRecord, Wire.both]) (fun _ => by simp [writeQuirkRecord])
    (fun _ => rfl) fun _ => rfl).congr fun _ => by simp [QuirkRecord.FitsWire]

end Quirks

section Publications

def writePublication (limits : RegistryLimits) (publication : Publication) : ByteWriter :=
  .enum publication.kind ++ writePublisherIdentity publication.publisher ++
    .u64 publication.sequence ++ writeGen publication.evidenceGeneration ++
    writeDeviceRegistration limits publication.device ++
    writeCapabilityRecord limits publication.capability ++
    writeQuirkRecord limits publication.quirk ++
    writeCompatibilityFact limits publication.compatibility ++
    writeCapabilitySchema limits publication.schema ++
    .str publication.reason limits.maxMetadataBytes ++
    .str publication.issuedAtUtc limits.maxMetadataBytes

def readPublication (limits : RegistryLimits) : ByteReader Publication := do
  let kind ← ByteReader.enum ⟨.corruptData, "unknown publication kind on the wire"⟩
  let publisher ← readPublisherIdentity
  let sequence ← ByteReader.u64
  let evidenceGeneration ← readGen
  let device ← readDeviceRegistration limits
  let capability ← readCapabilityRecord limits
  let quirk ← readQuirkRecord limits
  let compatibility ← readCompatibilityFact limits
  let schema ← readCapabilitySchema limits
  let reason ← ByteReader.str limits.maxMetadataBytes
  let issuedAtUtc ← ByteReader.str limits.maxMetadataBytes
  pure { kind, publisher, sequence, evidenceGeneration, device, capability, quirk, compatibility,
         schema, reason, issuedAtUtc }

/-- Every part is on the wire whatever the kind, so every part must fit. -/
def Publication.FitsWire (limits : RegistryLimits) (publication : Publication) : Prop :=
  publication.device.FitsWire limits ∧ publication.capability.FitsWire limits ∧
    publication.quirk.FitsWire limits ∧ publication.compatibility.FitsWire limits ∧
    publication.schema.FitsWire limits ∧ FitsText limits.maxMetadataBytes publication.reason ∧
    FitsText limits.maxMetadataBytes publication.issuedAtUtc

theorem round_publication (limits : RegistryLimits) :
    Wire.Round (fun publication => (writePublication limits publication).out)
      (readPublication limits) (Publication.FitsWire limits) :=
  (((round_enum PublicationKind ⟨.corruptData, "unknown publication kind on the wire"⟩).both <|
      round_publisherIdentity.both <| round_u64.both <| round_gen.both <|
      (round_deviceRegistration limits).both <| (round_capabilityRecord limits).both <|
      (round_quirkRecord limits).both <| (round_compatibilityFact limits).both <|
      (round_capabilitySchema limits).both <| (round_str limits.maxMetadataBytes).both <|
      round_str limits.maxMetadataBytes).record
    (fun publication => (publication.kind, publication.publisher, publication.sequence,
      publication.evidenceGeneration, publication.device, publication.capability,
      publication.quirk, publication.compatibility, publication.schema, publication.reason,
      publication.issuedAtUtc))
    (fun (kind, publisher, sequence, evidenceGeneration, device, capability, quirk, compatibility,
        schema, reason, issuedAtUtc) =>
      { kind, publisher, sequence, evidenceGeneration, device, capability, quirk, compatibility,
        schema, reason, issuedAtUtc })
    (by simp [readPublication, Wire.both]) (fun _ => by simp [writePublication])
    (fun _ => rfl) fun _ => rfl).congr fun _ => by simp [Publication.FitsWire]

end Publications

end CapabilityRegistry
