import CapabilityRegistry.Ingestion

/-! The ingestion entry point: binding, validation, authority, sequencing and commit. -/
namespace CapabilityRegistry

namespace Impl
variable [StdLib] (r : Impl)

/-- The provenance identity is always the authenticated sender's. -/
def bindPublisher (publication : Publication) : Publication :=
  { publication with
    capability.source.publisher := publication.publisher
    quirk.source.publisher := publication.publisher
    compatibility.source.publisher := publication.publisher }

/-- A capability publication without a schema takes the one its capability is bound to. -/
def bindSchema (publication : Publication) : Except ApplyResult Publication :=
  if publication.kind.isCapability && !publication.capability.schema.valid then
    match r.capabilitySchemas[publication.capability.capability]? with
    | none => .error (.of .rejectedUnknownSchema ("capability " ++
        publication.capability.capability.str ++ " is not bound to any known schema" : Text))
    | some schema => .ok { publication with capability.schema := schema }
  else .ok publication

/-- Capability values are canonicalized before they are validated. -/
def bindValue (publication : Publication) : Except ApplyResult Publication :=
  if publication.kind.isCapability then
    match normalizeValue r.limits publication.capability.value with
    | .error e => .error (.of .rejectedValidation e.describe)
    | .ok value => .ok { publication with capability.value := value }
  else .ok publication

def checkPublication (publication : Publication) : Except ApplyResult Publication :=
  match validatePublication publication r.limits with
  | .error e => .error (.of .rejectedValidation e.describe)
  | .ok () => .ok publication

/-- The publication the registry ingests, or why it is refused before any lookup. -/
def prepare (publication : Publication) : Except ApplyResult Publication := do
  let publication ← r.bindSchema (bindPublisher publication)
  let publication ← r.bindValue publication
  r.checkPublication publication

/-- The authority checks of a sequenced publication. -/
def authorityRefusal (publisher : PublisherStateInternal) (publication : Publication) :
    Option ApplyResult :=
  let boot := publication.publisher.boot
  if publisher.publisherFenced then
    some (.of .rejectedFencedPublisher
      ("publisher is permanently fenced: " ++ publisher.record.reason : Text))
  else if publisher.fencedBoots.contains boot then
    some (.of .rejectedFencedPublisher
      ("publisher boot " ++ boot.str ++ " is fenced; replay is refused" : Text))
  else if publisher.record.identity.boot != boot then
    some (.of .rejectedStaleBoot ("publication carries boot " ++ boot.str ++
      " but the registered boot is " ++ publisher.record.identity.boot.str : Text))
  else if publication.publisher.epoch != r.epoch then
    some (.of .rejectedStaleEpoch ("publication carries epoch " ++
      publication.publisher.epoch.str ++ " but the coordinator epoch is " ++ r.epoch.str : Text))
  else none

/-- `watermarks[boot]`, created when absent and initialized on first use. -/
def openWatermark (publisher : PublisherStateInternal) (identity : PublisherIdentity) :
    PublisherWatermark :=
  let watermark := (publisher.watermarks[identity.boot]?).getD {}
  let watermark := { watermark with publisher := identity.id, boot := identity.boot }
  if watermark.state = .unknown then
    { watermark with state := .registered, adapter := publisher.record.adapter }
  else watermark

def setWatermark (publisher : PublisherStateInternal) (watermark : PublisherWatermark) :
    PublisherStateInternal :=
  { publisher with watermarks := publisher.watermarks.insert watermark.boot watermark }

/-- The sequence and evidence generation checks against the watermark of the boot. -/
def sequenceVerdict (publisher : PublisherStateInternal) (watermark : PublisherWatermark)
    (publication : Publication) : Option ApplyResult :=
  let sequence := publication.sequence
  let sequenceText := decimal sequence.toNat
  if sequence < watermark.maxSequence then
    some (.of .rejectedStaleSequence ("sequence " ++ sequenceText ++
      " is behind the accepted watermark " ++ decimal watermark.maxSequence.toNat : Text))
  else if sequence = watermark.maxSequence then
    match publisher.sequenceFingerprints[sequence]? with
    | none => some (.of .acceptedIdempotent
        ("sequence " ++ sequenceText ++ " was already accepted; no mutation applied" : Text))
    | some fingerprint =>
      if fingerprint = StdLib.hash (fingerprintPublication publication) then
        some (.of .acceptedIdempotent
          ("identical duplicate of sequence " ++ sequenceText : Text))
      else some (.of .rejectedDuplicateConflict
        ("sequence " ++ sequenceText ++ " was already accepted with different content" : Text))
  else if publication.evidenceGeneration < watermark.maxEvidenceGeneration then
    some (.of .rejectedGenerationRegression ("evidence generation " ++
      publication.evidenceGeneration.str ++ " regresses behind the accepted watermark " ++
      watermark.maxEvidenceGeneration.str : Text))
  else none

/-- A publisher whose publication was refused after its watermark was opened. -/
def noteRejected (publisher : PublisherStateInternal) (watermark : PublisherWatermark) :
    PublisherStateInternal :=
  let rejected := publisher.record.rejected + 1
  setWatermark { publisher with record.rejected := rejected } { watermark with rejected := rejected }

/-- Drops the lowest sequences while more than 4096 fingerprints are kept. -/
def trimFingerprints : Nat → Std.ExtTreeMap UInt64 UInt64 → Std.ExtTreeMap UInt64 UInt64
  | 0, fingerprints => fingerprints
  | rounds + 1, fingerprints =>
    if fingerprints.size ≤ 4096 then fingerprints
    else match fingerprints.minKey? with
      | none => fingerprints
      | some sequence => trimFingerprints rounds (fingerprints.erase sequence)

/-- A publisher whose publication was accepted. -/
def noteAccepted (publisher : PublisherStateInternal) (watermark : PublisherWatermark)
    (publication : Publication) : PublisherStateInternal :=
  let generation :=
    if watermark.maxEvidenceGeneration < publication.evidenceGeneration then
      publication.evidenceGeneration else watermark.maxEvidenceGeneration
  let fingerprints := publisher.sequenceFingerprints.insert publication.sequence
    (StdLib.hash (fingerprintPublication publication))
  let accepted := publisher.record.accepted + 1
  setWatermark
    { publisher with
      sequenceFingerprints := trimFingerprints fingerprints.size fingerprints
      record := { publisher.record with
        lastSequence := publication.sequence
        maxEvidenceGeneration := generation
        accepted := accepted } }
    { watermark with
      maxSequence := publication.sequence
      maxEvidenceGeneration := generation
      accepted := accepted }

/-- The text a sequence gap adds to an accepted result. -/
def gapDetail (watermark : PublisherWatermark) (sequence : UInt64) : Text :=
  if sequence > watermark.maxSequence + 1 && watermark.maxSequence != 0 then
    "; sequence gap detected: " ++ decimal watermark.maxSequence.toNat ++ " -> " ++
      decimal sequence.toNat
  else []

/-- Books the verdict of a payload handler on the publisher. -/
def settle (publisher : PublisherStateInternal) (watermark : PublisherWatermark)
    (publication : Publication) (result : ApplyResult) : ApplyResult × Impl :=
  if result.accepted then
    let r := (r.setPublisher publication.publisher.id
      (noteAccepted publisher watermark publication)).countAccepted
    let r := if result.code = .acceptedIdempotent then r.countIdempotent else r
    ({ result with detail := result.detail ++ gapDetail watermark publication.sequence },
      if result.mutated then r.touch else r)
  else
    (result, (r.setPublisher publication.publisher.id
      (noteRejected publisher watermark)).countRejected)

/-- A publication of a registered publisher, from its authority checks on. -/
def applySequenced (publisher : PublisherStateInternal) (publication : Publication) :
    ApplyResult × Impl :=
  match r.authorityRefusal publisher publication with
  | some refusal => (refusal, r.countRejected)
  | none =>
    let watermark := openWatermark publisher publication.publisher
    match sequenceVerdict publisher watermark publication with
    | some verdict =>
      if verdict.accepted then
        (verdict, (r.setPublisher publication.publisher.id
          (setWatermark publisher watermark)).countIdempotent)
      else
        (verdict, (r.setPublisher publication.publisher.id
          (noteRejected publisher watermark)).countRejected)
    | none =>
      let handled := r.applyPayload publication
      handled.2.settle publisher watermark publication handled.1

def applySchema (publication : Publication) : ApplyResult × Impl :=
  match r.registerCapabilitySchemaLocked publication.schema with
  | .error e =>
    (.of (if e.code = .alreadyExists then .rejectedDuplicateConflict else .rejectedValidation)
      e.describe, r.countRejected)
  | .ok r' =>
    (.mutation ("capability schema " ++ publication.schema.id.str ++ " registered" : Text), r'.touch)

def applyRegistration (now : Timestamp) (publication : Publication) : ApplyResult × Impl :=
  let registered := r.registerPublisherLocked now publication.publisher publication.reason
  (registered.1,
    if registered.1.accepted then registered.2.countAccepted else registered.2.countRejected)

def applyLocked (now : Timestamp) (publication : Publication) : ApplyResult × Impl :=
  if r.shuttingDown then
    (.of .rejectedShuttingDown "registry is shutting down and no longer accepts evidence", r)
  else match r.prepare publication with
  | .error refusal => (refusal, r.countRejected)
  | .ok publication =>
    match publication.kind with
    | .registerCapabilitySchema => r.applySchema publication
    | .registerPublisher => r.applyRegistration now publication
    | _ =>
      match r.publishers[publication.publisher.id]? with
      | none => (.of .rejectedUnknownPublisher
          ("publisher " ++ publication.publisher.id.str ++ " is not registered" : Text),
          r.countRejected)
      | some publisher => r.applySequenced publisher publication

end Impl

end CapabilityRegistry
