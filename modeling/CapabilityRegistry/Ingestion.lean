import CapabilityRegistry.Eviction

/-! The payload handlers of the single ingestion path. -/
namespace CapabilityRegistry

section DeviceUpdate

/-- One software axis after a registration: the generation advances when the identified state
changes, keeps its value when it does not, and starts at one. -/
def advanceGeneration {Tag : Type} (identified changed : Bool) (previous : Gen Tag) : Gen Tag :=
  if !identified then previous
  else if changed then if previous.valid then previous.next else .first
  else if previous.valid then previous else .first

def mergeSoftware (previous observed : DeviceSoftwareState) : DeviceSoftwareState :=
  let firmware := if observed.firmware.id.valid then observed.firmware else previous.firmware
  let driver := if observed.driver.id.valid then observed.driver else previous.driver
  let runtime := if observed.runtime.id.valid then observed.runtime else previous.runtime
  { firmware := firmware
    firmwareGeneration := advanceGeneration firmware.id.valid
      (!previous.firmware.id.valid || previous.firmware != firmware) previous.firmwareGeneration
    driver := driver
    driverGeneration := advanceGeneration driver.id.valid
      (!previous.driver.id.valid || previous.driver != driver) previous.driverGeneration
    runtime := runtime
    runtimeGeneration := advanceGeneration runtime.id.valid
      (!previous.runtime.id.valid || previous.runtime != runtime) previous.runtimeGeneration }

/-- A new incarnation, an observed boot or an explicit generation opens a new generation. -/
def deviceBoundary (existing : DeviceState) (registration : DeviceRegistration)
    (explicitGeneration : Bool) : Bool :=
  existing.identity.incarnation != registration.identity.incarnation ||
    registration.deviceBootObserved || explicitGeneration

/-- The registered device after an update. The incarnation is compared, never replaced. -/
def updateDevice (existing : DeviceState) (registration : DeviceRegistration)
    (explicitGeneration : Bool) : DeviceState :=
  let identity := registration.identity
  let boundary := deviceBoundary existing registration explicitGeneration
  { identity := { existing.identity with
      displayName := identity.displayName
      hardware := normalizeHardwareIdentity identity.hardware
      serialNumber := identity.serialNumber
      instanceLocator := identity.instanceLocator
      platform := identity.platform }
    software := mergeSoftware existing.software registration.software
    generation := if boundary then existing.generation.next else existing.generation
    boot := if boundary then existing.boot.next else existing.boot
    platformGeneration := if existing.identity.platform ≠ identity.platform then
      existing.platformGeneration.next else existing.platformGeneration }

/-- The device a first registration creates. -/
def createDevice (registration : DeviceRegistration) : DeviceState :=
  let software := registration.software
  { identity := { registration.identity with
      hardware := normalizeHardwareIdentity registration.identity.hardware }
    software := { software with
      driverGeneration := if software.driver.id.valid then .first else default
      firmwareGeneration := if software.firmware.id.valid then .first else default
      runtimeGeneration := if software.runtime.id.valid then .first else default }
    generation := .first
    boot := .first
    platformGeneration := .first }

/-- The parts an update's result text reports, before the generation prefix. -/
def updateDetail (existing updated : DeviceState) (registration : DeviceRegistration)
    (explicitGeneration : Bool) : Text :=
  let opened : Text :=
    if existing.identity.incarnation != registration.identity.incarnation then
      "device incarnation changed (" ++ existing.identity.incarnation.str ++ " -> " ++
        registration.identity.incarnation.str ++ "); new capability generation opened"
    else if registration.deviceBootObserved || explicitGeneration then
      "device boot observed; new capability generation opened"
    else []
  let moved : Text :=
    if existing.identity.platform ≠ registration.identity.platform then
      "; platform identity changed, platform generation advanced"
    else []
  let axis {Tag : Type} (name : Text) (identified changed : Bool) (generation : Gen Tag) : Text :=
    if identified && changed then
      "; " ++ name ++ " generation advanced to " ++ generation.str
    else []
  let previous := existing.software
  let software := updated.software
  opened ++ moved ++
    axis "firmware" software.firmware.id.valid
      (!previous.firmware.id.valid || previous.firmware != software.firmware)
      software.firmwareGeneration ++
    axis "driver" software.driver.id.valid
      (!previous.driver.id.valid || previous.driver != software.driver)
      software.driverGeneration ++
    axis "runtime" software.runtime.id.valid
      (!previous.runtime.id.valid || previous.runtime != software.runtime)
      software.runtimeGeneration

end DeviceUpdate

/-- `insert` of an identity level that is set. -/
def insertValid {Tag : Type} (ids : Std.ExtTreeSet (Id Tag)) (id : Id Tag) :
    Std.ExtTreeSet (Id Tag) :=
  if id.valid then ids.insert id else ids

section Records

/-- The key of a record. -/
def keyOf (record : CapabilityRecord) : KeyId := ⟨record.device, record.capability⟩

/-- The checks of a record against its key. -/
def checkKey (key : KeyState) (record : CapabilityRecord) : Option ApplyResult :=
  if key.schema != record.schema then
    some (.of .rejectedValidation ("capability " ++ record.capability.str ++
      " is already bound to schema " ++ key.schema.str ++ " and may not be reinterpreted by " ++
      record.schema.str : Text))
  else if record.capabilityGeneration.valid && key.generation.valid &&
      record.capabilityGeneration ≤ key.generation then
    some (.of .rejectedStaleCapabilityGeneration ("capability generation " ++
      record.capabilityGeneration.str ++ " does not advance the current generation " ++
      key.generation.str : Text))
  else if record.capabilityGeneration.valid && !key.generation.valid &&
      record.capabilityGeneration.value > 1 then
    some (.of .rejectedStaleCapabilityGeneration
      "first publication for a capability key must not skip generations")
  else none

/-- The record qualified by the software and platform it is observed under. -/
def qualify (record : CapabilityRecord) (device : DeviceState) : CapabilityRecord :=
  { record with
    firmwareGeneration := device.software.firmwareGeneration
    driverGeneration := device.software.driverGeneration
    runtimeGeneration := device.software.runtimeGeneration
    platformGeneration := device.platformGeneration
    driverId := device.software.driver.id
    firmwareId := device.software.firmware.id
    runtimeId := device.software.runtime.id }

/-- A source slot of live ingestion: one publisher boot observing through one source class. -/
def slotOf (record : CapabilityRecord) : Text :=
  record.source.publisher.id.str ++ "#" ++ record.source.publisher.boot.str ++ "#" ++
    record.source.sourceClass.toText

/-- The record of a slot with the greatest serial, the first such one. -/
def slotLatest (records : List StoredRecord) (slot : Text) : Option StoredRecord :=
  records.foldl (fun latest stored =>
    if stored.slot != slot then latest
    else match latest with
      | none => some stored
      | some l => if l.serial < stored.serial then some stored else some l) none

/-- The newest record of the slot already states the same under the same generations. -/
def alreadyRecorded (key : KeyState) (record : CapabilityRecord) : Bool :=
  match slotLatest key.records (slotOf record) with
  | none => false
  | some latest =>
    !record.withdrawn && !latest.record.withdrawn && capabilityContentEqual latest.record record &&
      latest.record.deviceGeneration == record.deviceGeneration &&
      latest.record.driverGeneration == record.driverGeneration &&
      latest.record.firmwareGeneration == record.firmwareGeneration &&
      latest.record.runtimeGeneration == record.runtimeGeneration

/-- Whether a current record beats the winner found so far. -/
def beatsWinner (stored winner : StoredRecord) : Bool :=
  let left := stored.record.source
  let right := winner.record.source
  right.authority < left.authority || (left.authority == right.authority &&
    (compare left.publisher.id right.publisher.id == .lt ||
      (left.publisher.id == right.publisher.id &&
        right.observationSequence < left.observationSequence)))

/-- The records of a slot are superseded by a newer one. -/
def supersede (slot : Text) (records : List StoredRecord) : List StoredRecord :=
  records.map fun stored =>
    if stored.slot = slot then
      { stored with persistent := stored.persistent.raise true .supersededByNewerEvidence }
    else stored

@[simp] theorem length_supersede (slot : Text) (records : List StoredRecord) :
    (supersede slot records).length = records.length := List.length_map _

/-- The key once the generation of a record is assigned. -/
def bumpKey (key : KeyState) (generation : CapabilityGeneration) : KeyState :=
  { key with
    generation := if !key.generation.valid || key.generation < generation then generation
      else key.generation
    hasEvidence := true }

end Records

namespace Impl
variable (r : Impl)

/-- A known platform is updated in place; a new one is dropped silently at the bound. -/
def registerPlatform (platform : PlatformIdentity) : Impl :=
  if !platform.id.valid then r
  else match r.platforms[platform.id]? with
    | none =>
      if r.platforms.size ≥ r.limits.maxDevices then r
      else { r with platforms := r.platforms.insertIfNew platform.id platform }
    | some known =>
      { r with
        platforms := r.platforms.insert platform.id { platform with
          id := known.id
          nativeIdentifiers :=
            platform.nativeIdentifiers.mergeSort fun a b => (compare a b).isLE } }

/-- The registry with a newly registered device. -/
def addDevice (registration : DeviceRegistration) : Impl :=
  let identity := registration.identity
  { r with
    devices := r.devices.insertIfNew identity.id (createDevice registration)
    families := insertValid r.families identity.hardware.family
    models := insertValid r.models identity.hardware.model
    architectures := insertValid r.architectures identity.hardware.architecture }

def applyDevice (publication : Publication) : ApplyResult × Impl :=
  let registration := publication.device
  let identity := registration.identity
  let explicitGeneration := publication.kind == .publishDeviceGeneration
  match r.devices[identity.id]? with
  | none =>
    if r.devices.size ≥ r.limits.maxDevices then (.of .rejectedLimit "device limit reached", r)
    else if identity.hardware.family.valid && r.families.size ≥ r.limits.maxFamilies &&
        !r.families.contains identity.hardware.family then
      (.of .rejectedLimit "hardware family limit reached", r)
    else
      ({ ApplyResult.mutation "device registered at generation 1, boot 1" with
          deviceGeneration := .first
          deviceBoot := .first },
        (r.addDevice registration).registerPlatform registration.platform)
  | some existing =>
    let device := updateDevice existing registration explicitGeneration
    let detail := updateDetail existing device registration explicitGeneration
    let r := { r with devices := r.devices.insert identity.id device }
    ({ ApplyResult.mutation (if detail.isEmpty then ("device registration refreshed" : Text)
          else "device generation " ++ device.generation.str ++ "; " ++ detail) with
        deviceGeneration := device.generation
        deviceBoot := device.boot },
      r.registerPlatform registration.platform)

/-- The checks of a capability publication that precede every write: the record with its
canonical value and the device it targets. -/
def admitCapability (record : CapabilityRecord) : Except ApplyResult (CapabilityRecord × DeviceState) :=
  match r.schemas[record.schema]? with
  | none =>
    .error (.of .rejectedUnknownSchema ("unknown capability schema " ++ record.schema.str : Text))
  | some schema =>
    if schema.capability != record.capability then
      .error (.of .rejectedUnknownSchema ("schema " ++ record.schema.str ++
        " describes capability " ++ schema.capability.str ++ ", not " ++ record.capability.str : Text))
    else if !record.value.empty && record.value.kind != schema.valueKind then
      .error (.of .rejectedValidation ("value kind " ++ record.value.kind.toText ++
        " does not match the schema kind " ++ schema.valueKind.toText : Text))
    else if record.value.empty && !assertsCapabilityAbsent record.support &&
        record.support != .unknown && record.support != .revalidationRequired then
      .error (.of .rejectedValidation
        ("schema requires a typed value for support state " ++ record.support.toText : Text))
    else match normalizeValue r.limits record.value with
      | .error e => .error (.of .rejectedValidation e.describe)
      | .ok value =>
        match r.devices[record.device]? with
        | none => .error (.of .rejectedUnknownDevice
            ("device " ++ record.device.str ++ " is not registered" : Text))
        | some device =>
          if record.deviceGeneration != device.generation then
            .error (.of .rejectedStaleDeviceGeneration
              ("capability evidence targets device generation " ++ record.deviceGeneration.str ++
                " but the current generation is " ++ device.generation.str : Text))
          else if record.deviceBoot != device.boot then
            .error (.of .rejectedStaleDeviceGeneration
              ("capability evidence targets device boot " ++ record.deviceBoot.str ++
                " but the current boot is " ++ device.boot.str : Text))
          else .ok ({ record with value := value }, device)

/-- `device_keys[device]`: an absent entry is created empty. -/
def touchDeviceKeys (device : DeviceId) : Impl :=
  { r with deviceKeys := r.deviceKeys.insertIfNew device ∅ }

/-- The bounds a new key is checked against, once the index entry of its device exists. -/
def keyLimitReached (record : CapabilityRecord) : Option ApplyResult :=
  if ((r.deviceKeys[record.device]?).getD ∅).size ≥ r.limits.maxCapabilitiesPerDevice then
    some (.of .rejectedLimit
      ("capability key limit reached for device " ++ record.device.str : Text))
  else if r.keys.size ≥ r.limits.maxEvidenceHistory then
    some (.of .rejectedLimit "capability key limit reached")
  else none

/-- An empty key bound to a schema, entered in the key map and the index. -/
def createKey (record : CapabilityRecord) : Impl :=
  let owned := (r.deviceKeys[record.device]?).getD ∅
  { r with
    keys := r.keys.insertIfNew (keyOf record) { schema := record.schema }
    deviceKeys := r.deviceKeys.insert record.device (owned.insert record.capability) }

def currentWinnerRecord (device : DeviceState) (capability : CapabilityId) : Option StoredRecord :=
  match r.keys[KeyId.mk device.identity.id capability]? with
  | none => none
  | some key => key.records.foldl (fun winner stored =>
      if r.currentStaleness stored device != .none then winner
      else match winner with
        | none => some stored
        | some w => if beatsWinner stored w then some stored else some w) none

/-- The generation a record is given: the winner's when it corroborates it, else the next. -/
def assignedGeneration (key : KeyState) (record : CapabilityRecord) (device : DeviceState) :
    CapabilityGeneration :=
  let fresh := if key.generation.valid then key.generation.next else .first
  match r.currentWinnerRecord device record.capability with
  | none => fresh
  | some winner =>
    if capabilityContentEqual winner.record record &&
        winner.record.deviceGeneration == record.deviceGeneration then
      if winner.record.capabilityGeneration.valid then winner.record.capabilityGeneration
      else .first
    else fresh

/-- Appends a record to its key and supersedes the earlier ones of its slot. -/
def insertRecord (record : CapabilityRecord) : Impl :=
  let slot := slotOf record
  let stored : StoredRecord := { record := record, slot := slot, serial := r.nextSerial }
  { r with
    keys := r.keys.modify (keyOf record) fun key =>
      { key with records := supersede slot key.records ++ [stored] }
    nextSerial := r.nextSerial + 1
    globalOrder := r.globalOrder ++ [⟨keyOf record, r.nextSerial⟩]
    evidenceCount := r.evidenceCount + 1 }

/-- A full history is swept before a record is inserted. -/
def makeRoom : Impl :=
  if r.evidenceCount ≥ r.limits.maxEvidenceHistory then r.evictIfNeeded else r

/-- Everything after the key exists and the record passed its checks. -/
def recordEvidence (key : KeyState) (record : CapabilityRecord) (device : DeviceState) :
    ApplyResult × Impl :=
  let record := qualify record device
  if alreadyRecorded key record then
    (.of .acceptedIdempotent "identical evidence already recorded for this source slot", r)
  else
    let generation := r.assignedGeneration key record device
    let record := { record with capabilityGeneration := generation }
    let r := { r with keys := r.keys.insert (keyOf record) (bumpKey key generation) }
    let r := r.makeRoom
    if r.evidenceCount ≥ r.limits.maxEvidenceHistory then
      (.of .rejectedBackpressure
        "evidence history is at its bound; no evictable record remains", r)
    else
      (.mutation ("capability " ++ record.capability.str ++
          " accepted at capability generation " ++ generation.str : Text),
        (r.insertRecord record).evictIfNeeded)

/-- The key of a record, created when it is absent and the bounds allow it. -/
def openKey (record : CapabilityRecord) : Except ApplyResult KeyState × Impl :=
  match r.keys[keyOf record]? with
  | some key => (.ok key, r)
  | none =>
    let r := r.touchDeviceKeys record.device
    match r.keyLimitReached record with
    | some refusal => (.error refusal, r)
    | none => (.ok { schema := record.schema }, r.createKey record)

def applyCapability (publication : Publication) : ApplyResult × Impl :=
  match r.admitCapability publication.capability with
  | .error refusal => (refusal, r)
  | .ok (record, device) =>
    match r.openKey record with
    | (.error refusal, r) => (refusal, r)
    | (.ok key, r) =>
      match checkKey key record with
      | some refusal => (refusal, r)
      | none => r.recordEvidence key record device

/-- A quirk may only impact capabilities that some registered schema describes. -/
def unknownImpact (quirk : QuirkRecord) : Option CapabilityId :=
  quirk.impactedCapabilities.find? fun capability =>
    !(r.schemas.toList.any fun e => e.2.capability == capability)

def withdrawQuirk (quirk : QuirkRecord) : ApplyResult × Impl :=
  match r.quirks[quirk.id]? with
  | none => (.of .rejectedUnknownDevice
      ("cannot withdraw unknown quirk " ++ quirk.id.str : Text), r)
  | some existing =>
    if existing.withdrawn then (.of .acceptedIdempotent "quirk already withdrawn", r)
    else (.mutation ("quirk " ++ quirk.id.str ++ " withdrawn" : Text),
      { r with
        quirks := r.quirks.insert quirk.id
          { existing with withdrawn := true, source := quirk.source } })

def publishQuirk (quirk : QuirkRecord) : ApplyResult × Impl :=
  if !quirk.quirkGeneration.valid then
    (.of .rejectedValidation "quirk requires a generation", r)
  else match r.quirks[quirk.id]? with
  | none =>
    if r.quirks.size ≥ r.limits.maxQuirks then (.of .rejectedLimit "quirk limit reached", r)
    else if quirk.quirkGeneration.value > 1 then
      (.of .rejectedStaleCapabilityGeneration
        "first publication of a quirk must use generation 1", r)
    else (.mutation ("quirk " ++ quirk.id.str ++ " published at generation 1" : Text),
      { r with quirks := r.quirks.insertIfNew quirk.id quirk })
  | some existing =>
    if quirk.quirkGeneration < existing.quirkGeneration then
      (.of .rejectedGenerationRegression ("quirk generation " ++ quirk.quirkGeneration.str ++
        " regresses behind " ++ existing.quirkGeneration.str : Text), r)
    else if quirk.quirkGeneration == existing.quirkGeneration then
      if existing.title == quirk.title && existing.severity == quirk.severity &&
          existing.category == quirk.category &&
          existing.impactedCapabilities == quirk.impactedCapabilities then
        (.of .acceptedIdempotent "identical quirk publication", r)
      else (.of .rejectedDuplicateConflict ("quirk generation " ++ quirk.quirkGeneration.str ++
        " was already published with different content" : Text), r)
    else (.mutation ("quirk " ++ quirk.id.str ++ " superseded at generation " ++
        quirk.quirkGeneration.str : Text),
      { r with quirks := r.quirks.insert quirk.id quirk })

def applyQuirk (publication : Publication) : ApplyResult × Impl :=
  match r.unknownImpact publication.quirk with
  | some capability => (.of .rejectedUnknownSchema
      ("quirk impacts unknown capability " ++ capability.str : Text), r)
  | none =>
    if publication.kind == .withdrawQuirk then r.withdrawQuirk publication.quirk
    else r.publishQuirk publication.quirk

def referenceResolves (reference : HardwareReference) : Bool :=
  match reference.kind with
  | .device => r.devices.contains (Id.parse reference.token)
  | .platform => r.platforms.contains (Id.parse reference.token)
  | .hardwareFamily => r.families.contains (Id.parse reference.token)
  | .hardwareModel => r.models.contains (Id.parse reference.token)
  | .architecture => r.architectures.contains (Id.parse reference.token)
  | _ => true

def withdrawCompatibility (fact : CompatibilityFact) : ApplyResult × Impl :=
  match r.compatibility[fact.id]? with
  | none => (.of .rejectedUnknownDevice
      ("cannot withdraw unknown compatibility fact " ++ fact.id.str : Text), r)
  | some existing =>
    if existing.withdrawn then (.of .acceptedIdempotent "compatibility fact already withdrawn", r)
    else (.mutation ("compatibility fact " ++ fact.id.str ++ " withdrawn" : Text),
      { r with
        compatibility := r.compatibility.insert fact.id
          { existing with withdrawn := true, source := fact.source } })

def publishCompatibility (fact : CompatibilityFact) : ApplyResult × Impl :=
  if !fact.compatibilityGeneration.valid then
    (.of .rejectedValidation "compatibility fact requires a generation", r)
  else match r.compatibility[fact.id]? with
  | none =>
    if r.compatibility.size ≥ r.limits.maxCompatibilityFacts then
      (.of .rejectedLimit "compatibility fact limit reached", r)
    else if fact.compatibilityGeneration.value > 1 then
      (.of .rejectedStaleCapabilityGeneration
        "first publication of a compatibility fact must use generation 1", r)
    else (.mutation ("compatibility fact " ++ fact.id.str ++ " published at generation 1" : Text),
      { r with compatibility := r.compatibility.insertIfNew fact.id fact })
  | some existing =>
    if fact.compatibilityGeneration < existing.compatibilityGeneration then
      (.of .rejectedGenerationRegression ("compatibility generation " ++
        fact.compatibilityGeneration.str ++ " regresses behind " ++
        existing.compatibilityGeneration.str : Text), r)
    else if fact.compatibilityGeneration == existing.compatibilityGeneration then
      if existing.outcome == fact.outcome && existing.lhs.beq fact.lhs &&
          existing.rhs.beq fact.rhs && existing.reason == fact.reason then
        (.of .acceptedIdempotent "identical compatibility publication", r)
      else (.of .rejectedDuplicateConflict ("compatibility generation " ++
        fact.compatibilityGeneration.str ++ " was already published with different content" : Text), r)
    else (.mutation ("compatibility fact " ++ fact.id.str ++ " superseded at generation " ++
        fact.compatibilityGeneration.str : Text),
      { r with compatibility := r.compatibility.insert fact.id fact })

def unresolvedReference (reference : HardwareReference) : ApplyResult :=
  .of .rejectedValidation ("compatibility reference " ++ reference.token ++
    " does not resolve to a known subject" : Text)

def applyCompatibility (publication : Publication) : ApplyResult × Impl :=
  let fact := publication.compatibility
  if !r.referenceResolves fact.lhs then (unresolvedReference fact.lhs, r)
  else if !r.referenceResolves fact.rhs then (unresolvedReference fact.rhs, r)
  else if publication.kind == .withdrawCompatibility then r.withdrawCompatibility fact
  else r.publishCompatibility fact

/-- The dispatch of a sequenced publication; the two kinds handled earlier cannot reach it. -/
def applyPayload (publication : Publication) : ApplyResult × Impl :=
  match publication.kind with
  | .registerDevice | .publishDeviceGeneration => r.applyDevice publication
  | .publishCapability | .withdrawCapability => r.applyCapability publication
  | .publishQuirk | .withdrawQuirk => r.applyQuirk publication
  | .publishCompatibility | .withdrawCompatibility => r.applyCompatibility publication
  | .heartbeat => (.of .accepted "heartbeat recorded", r)
  | .registerPublisher | .registerCapabilitySchema =>
    (.of .rejectedValidation "unsupported publication kind", r)

end Impl

end CapabilityRegistry
