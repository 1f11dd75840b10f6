import CapabilityRegistry.QueryCodec

/-! The messages of the protocol, and when a decoder returns what its encoder was given. -/
namespace CapabilityRegistry
open ByteReader (round_u32 round_u64 round_str round_enum)

instance : CodeEnum ApplyCode where
  members := [.accepted, .acceptedIdempotent, .rejectedValidation, .rejectedUnknownPublisher,
    .rejectedFencedPublisher, .rejectedStaleBoot, .rejectedStaleEpoch, .rejectedStaleSequence,
    .rejectedGenerationRegression, .rejectedDuplicateConflict, .rejectedStaleDeviceGeneration,
    .rejectedStaleCapabilityGeneration, .rejectedUnknownDevice, .rejectedUnknownSchema,
    .rejectedLimit, .rejectedBackpressure, .rejectedShuttingDown, .rejectedWithdrawnSubject,
    .rejectedInvariant]
  mem_members := by rintro ⟨⟩ <;> decide

instance : CodeEnum ErrorCode where
  members := [.ok, .invalidArgument, .invalidIdentity, .invalidCapability, .invalidValue,
    .invalidSupportState, .invalidProvenance, .invalidCondition, .invalidRange,
    .invalidReference, .limitExceeded, .notFound, .alreadyExists, .staleEpoch, .staleBoot,
    .staleDeviceGeneration, .staleCapabilityGeneration, .staleSequence, .generationRegression,
    .duplicateConflict, .fencedPublisher, .unknownPublisher, .unsupportedVersion, .corruptData,
    .integrityFailure, .ioFailure, .invariantViolation, .queueFull, .shuttingDown,
    .protocolError, .internal]
  mem_members := by rintro ⟨⟩ <;> decide

section Payloads
variable {α κ : Type}

/-- A whole payload: the first failure of the reader, and no bytes behind the message. -/
def decodeAll (read : ByteReader α) (trailing : Text) (payload : List UInt8) : Except Error α := do
  let message ← read payload
  require message.2.isEmpty .protocolError trailing
  pure message.1

/-- What `reader.u16()` returns at the front of a payload, which may be too short for it. -/
def leadingU16 (payload : List UInt8) : Nat := Wire.number (payload.take 2)

/-- A payload whose leading enumeration is checked before the reader's status is looked at. -/
def decodeKnown (ofRaw? : Nat → Option κ) (unknown : Text) (read : ByteReader α) (trailing : Text)
    (payload : List UInt8) : Except Error α := do
  require (ofRaw? (leadingU16 payload)).isSome .protocolError unknown
  decodeAll read trailing payload

variable {w : α → ByteWriter} {read : ByteReader α} {F : α → Prop} {trailing unknown : Text}
  {ofRaw? : Nat → Option κ} {a : α}

theorem decodeAll_eq_ok {payload : List UInt8} :
    decodeAll read trailing payload = .ok a ↔ read payload = .ok (a, []) := by
  unfold decodeAll
  cases read payload with
  | error e => simp [bind, Except.bind]
  | ok message =>
    obtain ⟨value, rest⟩ := message
    cases rest <;> simp [bind, Except.bind, pure, Except.pure, require]

/-- A payload is decoded to the message it was written for if and only if that one fits. -/
theorem decodeAll_iff (h : Wire.Round (fun a => (w a).out) read F) :
    decodeAll read trailing (w a).out = .ok a ↔ F a := by
  rw [decodeAll_eq_ok]
  have hiff := h.comes_back_iff a []
  rwa [List.append_nil] at hiff

theorem decodeKnown_iff (h : Wire.Round (fun a => (w a).out) read F)
    (hknown : (ofRaw? (leadingU16 (w a).out)).isSome) :
    decodeKnown ofRaw? unknown read trailing (w a).out = .ok a ↔ F a := by
  rw [decodeKnown, require_bind_eq_ok, decodeAll_iff h]
  exact and_iff_right hknown

theorem leadingU16_append (value : UInt16) (rest : List UInt8) :
    leadingU16 ((ByteWriter.u16 value).out ++ rest) = value.toNat := by
  have htake : ((ByteWriter.u16 value).out ++ rest).take 2 = Wire.word 2 value.toNat :=
    List.take_left' (by simp [ByteWriter.u16])
  rw [leadingU16, htake]
  exact Wire.number_word_eq value.toNat_lt

/-- A payload that begins with a member of an enumeration is known by it. -/
theorem known_enum {β : Type} [DecidableEq β] [CodeEnum β] (member : β) (rest : List UInt8)
    (hsize : (CodeEnum.members : List β).length ≤ 65536 := by decide) :
    (CodeEnum.ofCode? (leadingU16 ((ByteWriter.enum member).out ++ rest)) : Option β).isSome := by
  rw [ByteWriter.enum, leadingU16_append]
  simp [ByteReader.ofCode?_raw hsize]

end Payloads

section Handshakes

structure HelloMessage where
  protocolVersion : UInt32 := 0
  agent : Text := []
  role : Text := []
  nonce : UInt64 := 0

structure WelcomeMessage where
  protocolVersion : UInt32 := 0
  epoch : CoordinatorEpoch := default
  coordinatorName : Text := []

structure RegisterPublisherMessage where
  identity : PublisherIdentity := {}
  adapter : Text := []
  agent : Text := []

structure PublisherAcceptedMessage where
  code : ApplyCode := .rejectedValidation
  epoch : CoordinatorEpoch := default
  identity : PublisherIdentity := {}
  detail : Text := []

def writeHello (limits : RegistryLimits) (message : HelloMessage) : ByteWriter :=
  .u32 message.protocolVersion ++ .str message.agent limits.maxMetadataBytes ++
    .str message.role limits.maxMetadataBytes ++ .u64 message.nonce

def readHello (limits : RegistryLimits) : ByteReader HelloMessage := do
  let protocolVersion ← ByteReader.u32
  let agent ← ByteReader.str limits.maxMetadataBytes
  let role ← ByteReader.str limits.maxMetadataBytes
  let nonce ← ByteReader.u64
  pure { protocolVersion, agent, role, nonce }

def HelloMessage.FitsWire (limits : RegistryLimits) (message : HelloMessage) : Prop :=
  FitsText limits.maxMetadataBytes message.agent ∧ FitsText limits.maxMetadataBytes message.role

theorem round_hello (limits : RegistryLimits) :
    Wire.Round (fun message => (writeHello limits message).out) (readHello limits)
      (HelloMessage.FitsWire limits) :=
  ((round_u32.both <| (round_str limits.maxMetadataBytes).both <|
      (round_str limits.maxMetadataBytes).both round_u64).record
    (fun message => (message.protocolVersion, message.agent, message.role, message.nonce))
    (fun (protocolVersion, agent, role, nonce) => { protocolVersion, agent, role, nonce })
    (by simp [readHello, Wire.both]) (fun _ => by simp [writeHello]) (fun _ => rfl)
    fun _ => rfl).congr fun _ => by simp [HelloMessage.FitsWire]

def encodeHello (limits : RegistryLimits) (message : HelloMessage) : Except Error (List UInt8) :=
  .ok (writeHello limits message).out

def decodeHello (limits : RegistryLimits) : List UInt8 → Except Error HelloMessage :=
  decodeAll (readHello limits) "hello carries trailing bytes"

def writeWelcome (limits : RegistryLimits) (message : WelcomeMessage) : ByteWriter :=
  .u32 message.protocolVersion ++ writeGen message.epoch ++
    .str message.coordinatorName limits.maxMetadataBytes

def readWelcome (limits : RegistryLimits) : ByteReader WelcomeMessage := do
  let protocolVersion ← ByteReader.u32
  let epoch ← readGen
  let coordinatorName ← ByteReader.str limits.maxMetadataBytes
  pure { protocolVersion, epoch, coordinatorName }

def WelcomeMessage.FitsWire (limits : RegistryLimits) (message : WelcomeMessage) : Prop :=
  FitsText limits.maxMetadataBytes message.coordinatorName

theorem round_welcome (limits : RegistryLimits) :
    Wire.Round (fun message => (writeWelcome limits message).out) (readWelcome limits)
      (WelcomeMessage.FitsWire limits) :=
  ((round_u32.both <| round_gen.both (round_str limits.maxMetadataBytes)).record
    (fun message => (message.protocolVersion, message.epoch, message.coordinatorName))
    (fun (protocolVersion, epoch, coordinatorName) => { protocolVersion, epoch, coordinatorName })
    (by simp [readWelcome, Wire.both]) (fun _ => by simp [writeWelcome]) (fun _ => rfl)
    fun _ => rfl).congr fun _ => by simp [WelcomeMessage.FitsWire]

def encodeWelcome (limits : RegistryLimits) (message : WelcomeMessage) :
    Except Error (List UInt8) :=
  .ok (writeWelcome limits message).out

def decodeWelcome (limits : RegistryLimits) : List UInt8 → Except Error WelcomeMessage :=
  decodeAll (readWelcome limits) "welcome carries trailing bytes"

def writeRegisterPublisher (limits : RegistryLimits) (message : RegisterPublisherMessage) :
    ByteWriter :=
  writePublisherIdentity message.identity ++ .str message.adapter limits.maxMetadataBytes ++
    .str message.agent limits.maxMetadataBytes

def readRegisterPublisher (limits : RegistryLimits) : ByteReader RegisterPublisherMessage := do
  let identity ← readPublisherIdentity
  let adapter ← ByteReader.str limits.maxMetadataBytes
  let agent ← ByteReader.str limits.maxMetadataBytes
  pure { identity, adapter, agent }

def RegisterPublisherMessage.FitsWire (limits : RegistryLimits)
    (message : RegisterPublisherMessage) : Prop :=
  FitsText limits.maxMetadataBytes message.adapter ∧
    FitsText limits.maxMetadataBytes message.agent

theorem round_registerPublisher (limits : RegistryLimits) :
    Wire.Round (fun message => (writeRegisterPublisher limits message).out)
      (readRegisterPublisher limits) (RegisterPublisherMessage.FitsWire limits) :=
  ((round_publisherIdentity.both <| (round_str limits.maxMetadataBytes).both
      (round_str limits.maxMetadataBytes)).record
    (fun message => (message.identity, message.adapter, message.agent))
    (fun (identity, adapter, agent) => { identity, adapter, agent })
    (by simp [readRegisterPublisher, Wire.both]) (fun _ => by simp [writeRegisterPublisher])
    (fun _ => rfl) fun _ => rfl).congr fun _ => by simp [RegisterPublisherMessage.FitsWire]

def encodeRegisterPublisher (limits : RegistryLimits) (message : RegisterPublisherMessage) :
    Except Error (List UInt8) :=
  .ok (writeRegisterPublisher limits message).out

def decodeRegisterPublisher (limits : RegistryLimits) :
    List UInt8 → Except Error RegisterPublisherMessage :=
  decodeAll (readRegisterPublisher limits) "register publisher carries trailing bytes"

def writePublisherAccepted (limits : RegistryLimits) (message : PublisherAcceptedMessage) :
    ByteWriter :=
  .enum message.code ++ writeGen message.epoch ++ writePublisherIdentity message.identity ++
    .str message.detail limits.maxMetadataBytes

def readPublisherAccepted (limits : RegistryLimits) : ByteReader PublisherAcceptedMessage := do
  let code ← ByteReader.enum ⟨.protocolError, "unknown apply code in publisher acceptance"⟩
  let epoch ← readGen
  let identity ← readPublisherIdentity
  let detail ← ByteReader.str limits.maxMetadataBytes
  pure { code, epoch, identity, detail }

def PublisherAcceptedMessage.FitsWire (limits : RegistryLimits)
    (message : PublisherAcceptedMessage) : Prop :=
  FitsText limits.maxMetadataBytes message.detail

theorem round_publisherAccepted (limits : RegistryLimits) :
    Wire.Round (fun message => (writePublisherAccepted limits message).out)
      (readPublisherAccepted limits) (PublisherAcceptedMessage.FitsWire limits) :=
  (((round_enum ApplyCode
        ⟨.protocolError, "unknown apply code in publisher acceptance"⟩).both <|
      round_gen.both <| round_publisherIdentity.both (round_str limits.maxMetadataBytes)).record
    (fun message => (message.code, message.epoch, message.identity, message.detail))
    (fun (code, epoch, identity, detail) => { code, epoch, identity, detail })
    (by simp [readPublisherAccepted, Wire.both]) (fun _ => by simp [writePublisherAccepted])
    (fun _ => rfl) fun _ => rfl).congr fun _ => by simp [PublisherAcceptedMessage.FitsWire]

def encodePublisherAccepted (limits : RegistryLimits) (message : PublisherAcceptedMessage) :
    Except Error (List UInt8) :=
  .ok (writePublisherAccepted limits message).out

def decodePublisherAccepted (limits : RegistryLimits) :
    List UInt8 → Except Error PublisherAcceptedMessage :=
  decodeKnown (CodeEnum.ofCode? : Nat → Option ApplyCode)
    "unknown apply code in publisher acceptance" (readPublisherAccepted limits)
    "publisher acceptance carries trailing bytes"

end Handshakes

section Publishing

/-- A publication that would have to be shortened is refused. The lists it carries are cut without
a trace. -/
def encodePublication (limits : RegistryLimits) (publication : Publication) :
    Except Error (List UInt8) := do
  let writer := writePublication limits publication
  require (!writer.truncated) .limitExceeded
    "publication carries a field longer than the configured bound"
  require (writer.out.length ≤ limits.maxFrameBytes) .limitExceeded
    "publication exceeds the frame bound"
  pure writer.out

def decodePublication (limits : RegistryLimits) : List UInt8 → Except Error Publication :=
  decodeAll (readPublication limits) "publication payload carries trailing bytes"

theorem encodePublication_eq_ok {limits : RegistryLimits} {publication : Publication}
    {bytes : List UInt8} (h : encodePublication limits publication = .ok bytes) :
    (writePublication limits publication).out = bytes := by
  simp [encodePublication, pure, Except.pure] at h
  exact h.2.2

structure PublicationAcceptedMessage where
  code : ApplyCode := .rejectedValidation
  detail : Text := []
  deviceGeneration : DeviceGeneration := default
  deviceBoot : DeviceBootId := default

def writePublicationAccepted (limits : RegistryLimits) (message : PublicationAcceptedMessage) :
    ByteWriter :=
  .enum message.code ++ .str message.detail limits.maxMetadataBytes ++
    writeGen message.deviceGeneration ++ writeGen message.deviceBoot

def readPublicationAccepted (limits : RegistryLimits) : ByteReader PublicationAcceptedMessage := do
  let code ← ByteReader.enum ⟨.protocolError, "unknown apply code in publication acceptance"⟩
  let detail ← ByteReader.str limits.maxMetadataBytes
  let deviceGeneration ← readGen
  let deviceBoot ← readGen
  pure { code, detail, deviceGeneration, deviceBoot }

def PublicationAcceptedMessage.FitsWire (limits : RegistryLimits)
    (message : PublicationAcceptedMessage) : Prop :=
  FitsText limits.maxMetadataBytes message.detail

theorem round_publicationAccepted (limits : RegistryLimits) :
    Wire.Round (fun message => (writePublicationAccepted limits message).out)
      (readPublicationAccepted limits) (PublicationAcceptedMessage.FitsWire limits) :=
  (((round_enum ApplyCode
        ⟨.protocolError, "unknown apply code in publication acceptance"⟩).both <|
      (round_str limits.maxMetadataBytes).both <| round_gen.both round_gen).record
    (fun message => (message.code, message.detail, message.deviceGeneration, message.deviceBoot))
    (fun (code, detail, deviceGeneration, deviceBoot) =>
      { code, detail, deviceGeneration, deviceBoot })
    (by simp [readPublicationAccepted, Wire.both]) (fun _ => by simp [writePublicationAccepted])
    (fun _ => rfl) fun _ => rfl).congr fun _ => by simp [PublicationAcceptedMessage.FitsWire]

def encodePublicationAccepted (limits : RegistryLimits) (message : PublicationAcceptedMessage) :
    Except Error (List UInt8) :=
  .ok (writePublicationAccepted limits message).out

def decodePublicationAccepted (limits : RegistryLimits) :
    List UInt8 → Except Error PublicationAcceptedMessage :=
  decodeKnown (CodeEnum.ofCode? : Nat → Option ApplyCode)
    "unknown apply code in publication acceptance" (readPublicationAccepted limits)
    "publication acceptance carries trailing bytes"

end Publishing

section Requests

inductive QueryKind
  | capability | deviceCapabilities | fleet | staleCapabilities | quirks | quirkRecords
  | compatibility | compare | devices | publishers | snapshot | explain
deriving DecidableEq

instance : CodeEnum QueryKind where
  members := [.capability, .deviceCapabilities, .fleet, .staleCapabilities, .quirks,
    .quirkRecords, .compatibility, .compare, .devices, .publishers, .snapshot, .explain]
  mem_members := by rintro ⟨⟩ <;> decide

/-- The `uint16_t` of a query kind; the enumeration starts at one. -/
def QueryKind.raw (kind : QueryKind) : UInt16 := UInt16.ofNat (CodeEnum.code kind + 1)

def QueryKind.ofRaw? (raw : Nat) : Option QueryKind :=
  if raw < 1 then none else CodeEnum.ofCode? (raw - 1)

@[simp] theorem QueryKind.ofRaw?_raw (kind : QueryKind) : ofRaw? kind.raw.toNat = some kind := by
  cases kind <;> decide

def readQueryKind (e : Error) : ByteReader QueryKind :=
  Wire.checked ByteReader.u16 (fun raw => QueryKind.ofRaw? raw.toNat) e

theorem round_queryKind (e : Error) :
    Wire.Round (fun kind => (ByteWriter.u16 (QueryKind.raw kind)).out) (readQueryKind e)
      fun _ => True :=
  ByteReader.round_u16.checked QueryKind.raw QueryKind.ofRaw?_raw fun _ => trivial

structure QueryRequest where
  kind : QueryKind := .capability
  capability : CapabilityQuery := {}
  deviceCapabilities : DeviceCapabilityQuery := {}
  fleet : FleetCapabilityQuery := {}
  stale : StaleCapabilityQuery := {}
  quirks : QuirkQuery := {}
  comparison : ComparisonRequest := {}
  compatibility : CompatibilityQuery := {}
  publishers : PublisherQuery := {}
  device : DeviceId := default
  fleetCapability : CapabilityId := default

/-- The switch over the kind of a request, what it appends behind the kind. -/
def writeQuery (limits : RegistryLimits) (request : QueryRequest) : ByteWriter :=
  match request.kind with
  | .capability | .explain => writeCapabilityQuery limits request.capability
  | .deviceCapabilities => writeDeviceCapabilityQuery limits request.deviceCapabilities
  | .fleet => writeFleetQuery limits request.fleet
  | .staleCapabilities => writeStaleQuery limits request.stale
  | .quirks => writeQuirkQuery limits request.quirks
  | .compatibility => writeCompatibilityQuery limits request.compatibility
  | .compare => writeComparisonRequest limits request.comparison
  | .devices => writeId request.device
  | .publishers => writePublisherQuery request.publishers
  | .quirkRecords | .snapshot => .u64 0

def writeQueryRequest (limits : RegistryLimits) (request : QueryRequest) : ByteWriter :=
  .u16 request.kind.raw ++ writeQuery limits request

def readQueryOfKind (limits : RegistryLimits) (kind : QueryKind) : ByteReader QueryRequest :=
  match kind with
  | .capability | .explain => do return { kind, capability := ← readCapabilityQuery limits }
  | .deviceCapabilities => do
    return { kind, deviceCapabilities := ← readDeviceCapabilityQuery limits }
  | .fleet => do return { kind, fleet := ← readFleetQuery limits }
  | .staleCapabilities => do return { kind, stale := ← readStaleQuery limits }
  | .quirks => do return { kind, quirks := ← readQuirkQuery limits }
  | .compatibility => do return { kind, compatibility := ← readCompatibilityQuery limits }
  | .compare => do return { kind, comparison := ← readComparisonRequest limits }
  | .devices => do return { kind, device := ← readId }
  | .publishers => do return { kind, publishers := ← readPublisherQuery }
  | .quirkRecords | .snapshot => do
    let _ ← ByteReader.u64
    return { kind }

def readQueryRequest (limits : RegistryLimits) : ByteReader QueryRequest := do
  let kind ← readQueryKind ⟨.protocolError, "unknown query kind on the wire"⟩
  readQueryOfKind limits kind

/-- Only the query that the kind names is on the wire, so nothing else may be set. -/
def QueryRequest.FitsWire (limits : RegistryLimits) (request : QueryRequest) : Prop :=
  match request.kind with
  | .capability =>
    request = { kind := .capability, capability := request.capability } ∧
      request.capability.FitsWire limits
  | .explain =>
    request = { kind := .explain, capability := request.capability } ∧
      request.capability.FitsWire limits
  | .deviceCapabilities =>
    request = { kind := .deviceCapabilities, deviceCapabilities := request.deviceCapabilities } ∧
      request.deviceCapabilities.FitsWire limits
  | .fleet =>
    request = { kind := .fleet, fleet := request.fleet } ∧ request.fleet.FitsWire limits
  | .staleCapabilities =>
    request = { kind := .staleCapabilities, stale := request.stale } ∧
      request.stale.FitsWire limits
  | .quirks =>
    request = { kind := .quirks, quirks := request.quirks } ∧ request.quirks.FitsWire limits
  | .compatibility =>
    request = { kind := .compatibility, compatibility := request.compatibility } ∧
      request.compatibility.FitsWire limits
  | .compare =>
    request = { kind := .compare, comparison := request.comparison } ∧
      request.comparison.FitsWire limits
  | .devices => request = { kind := .devices, device := request.device }
  | .publishers =>
    request = { kind := .publishers, publishers := request.publishers } ∧
      request.publishers.FitsWire
  | .quirkRecords => request = { kind := .quirkRecords }
  | .snapshot => request = { kind := .snapshot }

/-- The requests of one kind, read as the query that kind names. -/
theorem shape_query (limits : RegistryLimits) (kind : QueryKind) :
    Wire.Shape QueryRequest.kind (fun request => (writeQuery limits request).out)
      (QueryRequest.FitsWire limits) kind (readQueryOfKind limits kind) := by
  have hnone : Wire.Round (fun _ : Unit => (ByteWriter.u64 0).out) ((fun _ => ()) <$> ByteReader.u64)
      fun _ => True :=
    round_u64.through (fun _ _ => rfl) (fun _ _ => trivial) fun _ _ => trivial
  cases kind with
  | capability =>
    refine (round_capabilityQuery limits).shape (fun query => { capability := query })
      (by simp [readQueryOfKind]) (fun request hk hfits => ?_) (fun _ => by simp [writeQuery])
      fun _ => by simp [QueryRequest.FitsWire]
    simp only [QueryRequest.FitsWire, hk] at hfits
    exact ⟨_, hfits.1.symm⟩
  | explain =>
    refine (round_capabilityQuery limits).shape
      (fun query => { kind := .explain, capability := query })
      (by simp [readQueryOfKind]) (fun request hk hfits => ?_) (fun _ => by simp [writeQuery])
      fun _ => by simp [QueryRequest.FitsWire]
    simp only [QueryRequest.FitsWire, hk] at hfits
    exact ⟨_, hfits.1.symm⟩
  | deviceCapabilities =>
    refine (round_deviceCapabilityQuery limits).shape
      (fun query => { kind := .deviceCapabilities, deviceCapabilities := query })
      (by simp [readQueryOfKind]) (fun request hk hfits => ?_) (fun _ => by simp [writeQuery])
      fun _ => by simp [QueryRequest.FitsWire]
    simp only [QueryRequest.FitsWire, hk] at hfits
    exact ⟨_, hfits.1.symm⟩
  | fleet =>
    refine (round_fleetQuery limits).shape (fun query => { kind := .fleet, fleet := query })
      (by simp [readQueryOfKind]) (fun request hk hfits => ?_) (fun _ => by simp [writeQuery])
      fun _ => by simp [QueryRequest.FitsWire]
    simp only [QueryRequest.FitsWire, hk] at hfits
    exact ⟨_, hfits.1.symm⟩
  | staleCapabilities =>
    refine (round_staleQuery limits).shape
      (fun query => { kind := .staleCapabilities, stale := query })
      (by simp [readQueryOfKind]) (fun request hk hfits => ?_) (fun _ => by simp [writeQuery])
      fun _ => by simp [QueryRequest.FitsWire]
    simp only [QueryRequest.FitsWire, hk] at hfits
    exact ⟨_, hfits.1.symm⟩
  | quirks =>
    refine (round_quirkQuery limits).shape (fun query => { kind := .quirks, quirks := query })
      (by simp [readQueryOfKind]) (fun request hk hfits => ?_) (fun _ => by simp [writeQuery])
      fun _ => by simp [QueryRequest.FitsWire]
    simp only [QueryRequest.FitsWire, hk] at hfits
    exact ⟨_, hfits.1.symm⟩
  | compatibility =>
    refine (round_compatibilityQuery limits).shape
      (fun query => { kind := .compatibility, compatibility := query })
      (by simp [readQueryOfKind]) (fun request hk hfits => ?_) (fun _ => by simp [writeQuery])
      fun _ => by simp [QueryRequest.FitsWire]
    simp only [QueryRequest.FitsWire, hk] at hfits
    exact ⟨_, hfits.1.symm⟩
  | compare =>
    refine (round_comparisonRequest limits).shape
      (fun query => { kind := .compare, comparison := query })
      (by simp [readQueryOfKind]) (fun request hk hfits => ?_) (fun _ => by simp [writeQuery])
      fun _ => by simp [QueryRequest.FitsWire]
    simp only [QueryRequest.FitsWire, hk] at hfits
    exact ⟨_, hfits.1.symm⟩
  | publishers =>
    refine round_publisherQuery.shape (fun query => { kind := .publishers, publishers := query })
      (by simp [readQueryOfKind]) (fun request hk hfits => ?_) (fun _ => by simp [writeQuery])
      fun _ => by simp [QueryRequest.FitsWire]
    simp only [QueryRequest.FitsWire, hk] at hfits
    exact ⟨_, hfits.1.symm⟩
  | devices =>
    refine round_id.shape (fun device => { kind := .devices, device })
      (by simp [readQueryOfKind]) (fun request hk hfits => ?_) (fun _ => by simp [writeQuery])
      fun _ => by simp [QueryRequest.FitsWire]
    simp only [QueryRequest.FitsWire, hk] at hfits
    exact ⟨_, hfits.symm⟩
  | quirkRecords =>
    refine hnone.shape (fun _ => { kind := .quirkRecords })
      (by simp [readQueryOfKind]) (fun request hk hfits => ?_) (fun _ => by simp [writeQuery])
      fun _ => by simp [QueryRequest.FitsWire]
    simp only [QueryRequest.FitsWire, hk] at hfits
    exact ⟨(), hfits.symm⟩
  | snapshot =>
    refine hnone.shape (fun _ => { kind := .snapshot })
      (by simp [readQueryOfKind]) (fun request hk hfits => ?_) (fun _ => by simp [writeQuery])
      fun _ => by simp [QueryRequest.FitsWire]
    simp only [QueryRequest.FitsWire, hk] at hfits
    exact ⟨(), hfits.symm⟩

theorem round_queryRequest (limits : RegistryLimits) :
    Wire.Round (fun request => (writeQueryRequest limits request).out) (readQueryRequest limits)
      (QueryRequest.FitsWire limits) := by
  simp only [writeQueryRequest, ByteWriter.append_out]
  exact (round_queryKind _).switch (fun _ _ => trivial) fun kind _ => shape_query limits kind

def encodeQueryRequest (limits : RegistryLimits) (request : QueryRequest) :
    Except Error (List UInt8) :=
  .ok (writeQueryRequest limits request).out

def decodeQueryRequest (limits : RegistryLimits) : List UInt8 → Except Error QueryRequest :=
  decodeKnown QueryKind.ofRaw? "unknown query kind on the wire" (readQueryRequest limits)
    "query request carries trailing bytes"

end Requests

section Control

structure FencePublisherMessage where
  publisher : PublisherId := default
  reason : Text := []

structure FenceAcceptedMessage where
  code : ApplyCode := .rejectedValidation
  detail : Text := []

structure ShutdownMessage where
  reason : Text := []

structure ErrorMessage where
  code : ErrorCode := .internal
  message : Text := []

structure HeartbeatMessage where
  sequence : UInt64 := 0
  identity : PublisherIdentity := {}

def writeFencePublisher (limits : RegistryLimits) (message : FencePublisherMessage) : ByteWriter :=
  writeId message.publisher ++ .str message.reason limits.maxMetadataBytes

def readFencePublisher (limits : RegistryLimits) : ByteReader FencePublisherMessage := do
  let publisher ← readId
  let reason ← ByteReader.str limits.maxMetadataBytes
  pure { publisher, reason }

def FencePublisherMessage.FitsWire (limits : RegistryLimits) (message : FencePublisherMessage) :
    Prop :=
  FitsText limits.maxMetadataBytes message.reason

theorem round_fencePublisher (limits : RegistryLimits) :
    Wire.Round (fun message => (writeFencePublisher limits message).out)
      (readFencePublisher limits) (FencePublisherMessage.FitsWire limits) :=
  ((round_id.both (round_str limits.maxMetadataBytes)).record
    (fun message => (message.publisher, message.reason))
    (fun (publisher, reason) => { publisher, reason })
    (by simp [readFencePublisher, Wire.both]) (fun _ => by simp [writeFencePublisher])
    (fun _ => rfl) fun _ => rfl).congr fun _ => by simp [FencePublisherMessage.FitsWire]

def encodeFencePublisher (limits : RegistryLimits) (message : FencePublisherMessage) :
    Except Error (List UInt8) :=
  .ok (writeFencePublisher limits message).out

def decodeFencePublisher (limits : RegistryLimits) :
    List UInt8 → Except Error FencePublisherMessage :=
  decodeAll (readFencePublisher limits) "fence carries trailing bytes"

def writeFenceAccepted (limits : RegistryLimits) (message : FenceAcceptedMessage) : ByteWriter :=
  .enum message.code ++ .str message.detail limits.maxMetadataBytes

def readFenceAccepted (limits : RegistryLimits) : ByteReader FenceAcceptedMessage := do
  let code ← ByteReader.enum ⟨.protocolError, "unknown apply code in fence acceptance"⟩
  let detail ← ByteReader.str limits.maxMetadataBytes
  pure { code, detail }

def FenceAcceptedMessage.FitsWire (limits : RegistryLimits) (message : FenceAcceptedMessage) :
    Prop :=
  FitsText limits.maxMetadataBytes message.detail

theorem round_fenceAccepted (limits : RegistryLimits) :
    Wire.Round (fun message => (writeFenceAccepted limits message).out)
      (readFenceAccepted limits) (FenceAcceptedMessage.FitsWire limits) :=
  (((round_enum ApplyCode ⟨.protocolError, "unknown apply code in fence acceptance"⟩).both
      (round_str limits.maxMetadataBytes)).record
    (fun message => (message.code, message.detail)) (fun (code, detail) => { code, detail })
    (by simp [readFenceAccepted, Wire.both]) (fun _ => by simp [writeFenceAccepted])
    (fun _ => rfl) fun _ => rfl).congr fun _ => by simp [FenceAcceptedMessage.FitsWire]

def encodeFenceAccepted (limits : RegistryLimits) (message : FenceAcceptedMessage) :
    Except Error (List UInt8) :=
  .ok (writeFenceAccepted limits message).out

def decodeFenceAccepted (limits : RegistryLimits) :
    List UInt8 → Except Error FenceAcceptedMessage :=
  decodeKnown (CodeEnum.ofCode? : Nat → Option ApplyCode)
    "unknown apply code in fence acceptance" (readFenceAccepted limits)
    "fence acceptance carries trailing bytes"

def writeShutdown (limits : RegistryLimits) (message : ShutdownMessage) : ByteWriter :=
  .str message.reason limits.maxMetadataBytes

def readShutdown (limits : RegistryLimits) : ByteReader ShutdownMessage :=
  ShutdownMessage.mk <$> ByteReader.str limits.maxMetadataBytes

def ShutdownMessage.FitsWire (limits : RegistryLimits) (message : ShutdownMessage) : Prop :=
  FitsText limits.maxMetadataBytes message.reason

theorem round_shutdown (limits : RegistryLimits) :
    Wire.Round (fun message => (writeShutdown limits message).out) (readShutdown limits)
      (ShutdownMessage.FitsWire limits) :=
  (round_str limits.maxMetadataBytes).record ShutdownMessage.reason ShutdownMessage.mk rfl
    (fun _ => rfl) (fun _ => rfl) fun _ => rfl

def encodeShutdown (limits : RegistryLimits) (message : ShutdownMessage) :
    Except Error (List UInt8) :=
  .ok (writeShutdown limits message).out

def decodeShutdown (limits : RegistryLimits) : List UInt8 → Except Error ShutdownMessage :=
  decodeAll (readShutdown limits) "shutdown carries trailing bytes"

/-- The text of an error has the bound of strings, not the one of metadata. -/
def writeErrorMessage (limits : RegistryLimits) (message : ErrorMessage) : ByteWriter :=
  .enum message.code ++ .str message.message limits.maxStringBytes

def readErrorMessage (limits : RegistryLimits) : ByteReader ErrorMessage := do
  let code ← ByteReader.enum ⟨.protocolError, "unknown error code on the wire"⟩
  let message ← ByteReader.str limits.maxStringBytes
  pure { code, message }

def ErrorMessage.FitsWire (limits : RegistryLimits) (message : ErrorMessage) : Prop :=
  FitsText limits.maxStringBytes message.message

theorem round_errorMessage (limits : RegistryLimits) :
    Wire.Round (fun message => (writeErrorMessage limits message).out) (readErrorMessage limits)
      (ErrorMessage.FitsWire limits) :=
  (((round_enum ErrorCode ⟨.protocolError, "unknown error code on the wire"⟩).both
      (round_str limits.maxStringBytes)).record
    (fun message => (message.code, message.message)) (fun (code, message) => { code, message })
    (by simp [readErrorMessage, Wire.both]) (fun _ => by simp [writeErrorMessage])
    (fun _ => rfl) fun _ => rfl).congr fun _ => by simp [ErrorMessage.FitsWire]

def encodeErrorMessage (limits : RegistryLimits) (message : ErrorMessage) :
    Except Error (List UInt8) :=
  .ok (writeErrorMessage limits message).out

def decodeErrorMessage (limits : RegistryLimits) : List UInt8 → Except Error ErrorMessage :=
  decodeKnown (CodeEnum.ofCode? : Nat → Option ErrorCode) "unknown error code on the wire"
    (readErrorMessage limits) "error carries trailing bytes"

def writeHeartbeat (message : HeartbeatMessage) : ByteWriter :=
  .u64 message.sequence ++ writePublisherIdentity message.identity

def readHeartbeat : ByteReader HeartbeatMessage := do
  let sequence ← ByteReader.u64
  let identity ← readPublisherIdentity
  pure { sequence, identity }

theorem round_heartbeat :
    Wire.Round (fun message => (writeHeartbeat message).out) readHeartbeat fun _ => True :=
  ((round_u64.both round_publisherIdentity).record
    (fun message => (message.sequence, message.identity))
    (fun (sequence, identity) => { sequence, identity })
    (by simp [readHeartbeat, Wire.both]) (fun _ => by simp [writeHeartbeat])
    (fun _ => rfl) fun _ => rfl).congr fun _ => by simp

def encodeHeartbeat (message : HeartbeatMessage) : Except Error (List UInt8) :=
  .ok (writeHeartbeat message).out

def decodeHeartbeat : List UInt8 → Except Error HeartbeatMessage :=
  decodeAll readHeartbeat "heartbeat carries trailing bytes"

end Control

section RoundTrips

/-- The messages of the protocol, whatever the side that sends them. -/
inductive Message
  | hello (message : HelloMessage)
  | welcome (message : WelcomeMessage)
  | registerPublisher (message : RegisterPublisherMessage)
  | publisherAccepted (message : PublisherAcceptedMessage)
  | publication (message : Publication)
  | publicationAccepted (message : PublicationAcceptedMessage)
  | queryRequest (message : QueryRequest)
  | fencePublisher (message : FencePublisherMessage)
  | fenceAccepted (message : FenceAcceptedMessage)
  | shutdown (message : ShutdownMessage)
  | error (message : ErrorMessage)
  | heartbeat (message : HeartbeatMessage)

namespace Message

/-- The encoder of a message. -/
def encode (limits : RegistryLimits) : Message → Except Error (List UInt8)
  | .hello message => encodeHello limits message
  | .welcome message => encodeWelcome limits message
  | .registerPublisher message => encodeRegisterPublisher limits message
  | .publisherAccepted message => encodePublisherAccepted limits message
  | .publication message => encodePublication limits message
  | .publicationAccepted message => encodePublicationAccepted limits message
  | .queryRequest message => encodeQueryRequest limits message
  | .fencePublisher message => encodeFencePublisher limits message
  | .fenceAccepted message => encodeFenceAccepted limits message
  | .shutdown message => encodeShutdown limits message
  | .error message => encodeErrorMessage limits message
  | .heartbeat message => encodeHeartbeat message

/-- The decoder that matches the encoder of a message. -/
def decodeAs (limits : RegistryLimits) (payload : List UInt8) : Message → Except Error Message
  | .hello _ => .hello <$> decodeHello limits payload
  | .welcome _ => .welcome <$> decodeWelcome limits payload
  | .registerPublisher _ => .registerPublisher <$> decodeRegisterPublisher limits payload
  | .publisherAccepted _ => .publisherAccepted <$> decodePublisherAccepted limits payload
  | .publication _ => .publication <$> decodePublication limits payload
  | .publicationAccepted _ => .publicationAccepted <$> decodePublicationAccepted limits payload
  | .queryRequest _ => .queryRequest <$> decodeQueryRequest limits payload
  | .fencePublisher _ => .fencePublisher <$> decodeFencePublisher limits payload
  | .fenceAccepted _ => .fenceAccepted <$> decodeFenceAccepted limits payload
  | .shutdown _ => .shutdown <$> decodeShutdown limits payload
  | .error _ => .error <$> decodeErrorMessage limits payload
  | .heartbeat _ => .heartbeat <$> decodeHeartbeat payload

/-- Nothing of the message is cut: its texts are within their bounds, its lists within theirs, and
it nests no deeper than a reader follows. -/
def FitsWire (limits : RegistryLimits) : Message → Prop
  | .hello message => message.FitsWire limits
  | .welcome message => message.FitsWire limits
  | .registerPublisher message => message.FitsWire limits
  | .publisherAccepted message => message.FitsWire limits
  | .publication message => message.FitsWire limits
  | .publicationAccepted message => message.FitsWire limits
  | .queryRequest message => message.FitsWire limits
  | .fencePublisher message => message.FitsWire limits
  | .fenceAccepted message => message.FitsWire limits
  | .shutdown message => message.FitsWire limits
  | .error message => message.FitsWire limits
  | .heartbeat _ => True

/-- A message comes back from the matching decoder if and only if nothing of it is cut. -/
theorem round_trip_iff (limits : RegistryLimits) (message : Message) {payload : List UInt8}
    (h : message.encode limits = .ok payload) :
    message.decodeAs limits payload = .ok message ↔ message.FitsWire limits := by
  have hmap : ∀ {α : Type} {make : α → Message} {decoded : Except Error α} {a : α},
      Function.Injective make → (make <$> decoded = .ok (make a) ↔ decoded = .ok a) := by
    intro α make decoded a hinj
    cases decoded with
    | error e => simp [Functor.map, Except.map]
    | ok b => simpa [Functor.map, Except.map] using hinj.eq_iff
  cases message with
  | hello message =>
    obtain rfl := Except.ok.inj h
    exact (hmap fun _ _ => hello.inj).trans (decodeAll_iff (round_hello limits))
  | welcome message =>
    obtain rfl := Except.ok.inj h
    exact (hmap fun _ _ => welcome.inj).trans (decodeAll_iff (round_welcome limits))
  | registerPublisher message =>
    obtain rfl := Except.ok.inj h
    exact (hmap fun _ _ => registerPublisher.inj).trans
      (decodeAll_iff (round_registerPublisher limits))
  | publisherAccepted message =>
    obtain rfl := Except.ok.inj h
    refine (hmap fun _ _ => publisherAccepted.inj).trans
      (decodeKnown_iff (round_publisherAccepted limits) ?_)
    simp only [writePublisherAccepted, ByteWriter.append_out, List.append_assoc]
    exact known_enum _ _
  | publication message =>
    obtain rfl := encodePublication_eq_ok h
    exact (hmap fun _ _ => publication.inj).trans (decodeAll_iff (round_publication limits))
  | publicationAccepted message =>
    obtain rfl := Except.ok.inj h
    refine (hmap fun _ _ => publicationAccepted.inj).trans
      (decodeKnown_iff (round_publicationAccepted limits) ?_)
    simp only [writePublicationAccepted, ByteWriter.append_out, List.append_assoc]
    exact known_enum _ _
  | queryRequest message =>
    obtain rfl := Except.ok.inj h
    refine (hmap fun _ _ => queryRequest.inj).trans
      (decodeKnown_iff (round_queryRequest limits) ?_)
    simp only [writeQueryRequest, ByteWriter.append_out]
    rw [leadingU16_append, QueryKind.ofRaw?_raw]
    rfl
  | fencePublisher message =>
    obtain rfl := Except.ok.inj h
    exact (hmap fun _ _ => fencePublisher.inj).trans (decodeAll_iff (round_fencePublisher limits))
  | fenceAccepted message =>
    obtain rfl := Except.ok.inj h
    refine (hmap fun _ _ => fenceAccepted.inj).trans
      (decodeKnown_iff (round_fenceAccepted limits) ?_)
    simp only [writeFenceAccepted, ByteWriter.append_out]
    exact known_enum _ _
  | shutdown message =>
    obtain rfl := Except.ok.inj h
    exact (hmap fun _ _ => shutdown.inj).trans (decodeAll_iff (round_shutdown limits))
  | error message =>
    obtain rfl := Except.ok.inj h
    refine (hmap fun _ _ => error.inj).trans (decodeKnown_iff (round_errorMessage limits) ?_)
    simp only [writeErrorMessage, ByteWriter.append_out]
    exact known_enum _ _
  | heartbeat message =>
    obtain rfl := Except.ok.inj h
    exact (hmap fun _ _ => heartbeat.inj).trans (decodeAll_iff round_heartbeat)

theorem round_trip_hello :
    let message := hello { agent := [104, 99, 114], nonce := 7 }
    ∃ payload, message.encode {} = .ok payload ∧ message.decodeAs {} payload = .ok message :=
  ⟨_, rfl, (round_trip_iff {} (hello { agent := [104, 99, 114], nonce := 7 }) rfl).mpr
    ⟨⟨by decide, by decide⟩, by decide, by decide⟩⟩

/-- A text that is too long is written as its first bytes. -/
theorem str_take (text : Text) (maxLength : Nat) :
    (ByteWriter.str (text.take maxLength) maxLength).out = (ByteWriter.str text maxLength).out := by
  simp [ByteWriter.str, Nat.min_comm]

/-- `encode_hello` never looks at `truncated()`: an agent one byte too long is accepted, and the
other side reads a shorter one. -/
theorem long_agent_is_cut :
    let sent := hello { agent := List.replicate 513 97 }
    let received := hello { agent := List.replicate 512 97 }
    ∃ payload, sent.encode {} = .ok payload ∧ sent.decodeAs {} payload = .ok received ∧
      sent ≠ received := by
  refine ⟨_, rfl, ?_, fun heq => ?_⟩
  · have hcut : (writeHello {} { agent := List.replicate 513 97 }).out =
        (writeHello {} { agent := List.replicate 512 97 }).out := by
      have hagent := str_take (List.replicate 513 97) 512
      rw [List.take_replicate] at hagent
      simp only [writeHello, ByteWriter.append_out]
      rw [← hagent]
      rfl
    have hshort : HelloMessage.FitsWire {} { agent := List.replicate 512 97 } := by
      refine ⟨⟨?_, ?_⟩, by decide, by decide⟩
      · rw [List.length_replicate]
      · rw [List.length_replicate]
        decide
    have hdecoded : decodeHello {} (writeHello {} { agent := List.replicate 512 97 }).out = _ :=
      (decodeAll_iff (round_hello {})).mpr hshort
    rw [← hcut] at hdecoded
    exact congrArg (hello <$> ·) hdecoded
  · have hagent := congrArg HelloMessage.agent (hello.inj heq)
    have hlength := congrArg List.length hagent
    rw [List.length_replicate, List.length_replicate] at hlength
    omega

end Message

end RoundTrips

end CapabilityRegistry
