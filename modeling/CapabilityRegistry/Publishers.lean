import CapabilityRegistry.Resolution

/-! Publisher authority: registration, fencing, retirement, liveness reset and epochs. -/
namespace CapabilityRegistry

namespace Impl
variable (r : Impl)

def setPublisher (id : PublisherId) (state : PublisherStateInternal) : Impl :=
  { r with publishers := r.publishers.insert id state }

/-- The state a first registration creates. -/
def newPublisher (now : Timestamp) (id : PublisherId) (adapter : Text) : PublisherStateInternal :=
  { record :=
      { adapter := adapter
        registeredAtUtc := now.val
        identity := { id := id, boot := .first, epoch := r.epoch }
        state := .registered }
    bootHistory := 1 }

/-- The state after a fresh process asked for a boot: every earlier boot is retired. -/
def freshBoot (now : Timestamp) (adapter : Text) (state : PublisherStateInternal) :
    PublisherStateInternal :=
  let boot := state.record.identity.boot
  let bootHistory := state.bootHistory + 1
  { state with
    fencedBoots := if boot.valid then state.fencedBoots.insert boot else state.fencedBoots
    bootHistory := bootHistory
    record := { state.record with
      identity := { state.record.identity with
        boot := if boot.valid then boot.next else .first
        epoch := r.epoch }
      state := .registered
      adapter := adapter
      reason := []
      registeredAtUtc := now.val
      bootHistory := bootHistory } }

/-- The state after a registered boot is re-affirmed. -/
def reaffirm (adapter : Text) (state : PublisherStateInternal) : PublisherStateInternal :=
  { state with
    record := { state.record with
      identity := { state.record.identity with epoch := r.epoch }
      state := .registered
      adapter := adapter
      reason := [] } }

def registerPublisherLocked (now : Timestamp) (identity : PublisherIdentity) (adapter : Text) :
    ApplyResult × Impl :=
  if !identity.id.valid then
    (.of .rejectedValidation "publisher identity is not canonical", r)
  else if adapter.isEmpty || !(adapter.length ≤ r.limits.maxMetadataBytes : Bool) then
    (.of .rejectedValidation "publisher adapter must be a bounded canonical name", r)
  else match r.publishers[identity.id]? with
  | none =>
    if r.publishers.size ≥ r.limits.maxPublishers then
      (.of .rejectedLimit "publisher limit reached", r)
    else if identity.boot.valid && identity.boot.value > 1 then
      (.of .rejectedStaleBoot
        "first registration of a publisher must request boot assignment (boot 0 or 1)", r)
    else
      let state := r.newPublisher now identity.id adapter
      ({ ApplyResult.mutation ("publisher registered with boot 1 in epoch " ++ r.epoch.str : Text) with
          assignedPublisher := state.record.identity },
        (r.setPublisher identity.id state).touch)
  | some state =>
    if state.publisherFenced then
      (.of .rejectedFencedPublisher
        ("publisher is permanently fenced: " ++ state.record.reason : Text), r)
    else if !identity.boot.valid then
      let state := r.freshBoot now adapter state
      ({ ApplyResult.mutation ("publisher re-registered with fresh boot " ++
            state.record.identity.boot.str ++ "; prior boots fenced" : Text) with
          assignedPublisher := state.record.identity },
        (r.setPublisher identity.id state).touch)
    else if state.fencedBoots.contains identity.boot then
      (.of .rejectedFencedPublisher ("publisher boot " ++ identity.boot.str ++
        " is fenced and never regains authority" : Text), r)
    else if state.record.identity.boot != identity.boot then
      (.of .rejectedStaleBoot ("publisher boot " ++ identity.boot.str ++
        " is not the registered boot " ++ state.record.identity.boot.str : Text), r)
    else
      let state := r.reaffirm adapter state
      ({ ApplyResult.of .acceptedIdempotent "publisher boot re-affirmed" with
          assignedPublisher := state.record.identity },
        r.setPublisher identity.id state)

def registerPublisher (now : Timestamp) (identity : PublisherIdentity) (adapter : Text) :
    ApplyResult × Impl :=
  if r.shuttingDown then (.of .rejectedShuttingDown "registry is shutting down", r)
  else r.registerPublisherLocked now identity adapter

/-- Every watermark of a publisher takes a state and a reason. -/
def markWatermarks (state : PublisherState) (reason : Text)
    (watermarks : Std.ExtTreeMap PublisherBootId PublisherWatermark) :
    Std.ExtTreeMap PublisherBootId PublisherWatermark :=
  watermarks.map fun _ watermark => { watermark with state := state, reason := reason }

/-- The state after a fence. -/
def fenceState (reason : Text) (state : PublisherStateInternal) : PublisherStateInternal :=
  let boot := state.record.identity.boot
  let reason := if reason.isEmpty then ("fenced by coordinator" : Text) else reason
  { state with
    publisherFenced := true
    record := { state.record with state := .fenced, reason := reason }
    fencedBoots := if boot.valid then state.fencedBoots.insert boot else state.fencedBoots
    watermarks := markWatermarks .fenced reason state.watermarks }

def fencePublisher (publisher : PublisherId) (reason : Text) : ApplyResult × Impl :=
  match r.publishers[publisher]? with
  | none =>
    (.of .rejectedUnknownPublisher ("publisher " ++ publisher.str ++ " is not registered" : Text), r)
  | some state =>
    if state.publisherFenced then (.of .acceptedIdempotent "publisher already fenced", r)
    else
      let state := fenceState reason state
      (.mutation ("publisher " ++ publisher.str ++ " fenced: " ++ state.record.reason : Text),
        (r.setPublisher publisher state).touch)

/-- The state after one boot is retired. -/
def retireState (boot : PublisherBootId) (reason : Text) (state : PublisherStateInternal) :
    PublisherStateInternal :=
  { state with
    fencedBoots := state.fencedBoots.insert boot
    watermarks := state.watermarks.modify boot fun watermark =>
      { watermark with state := .dead, reason := reason }
    record := if state.record.identity.boot = boot then
      { state.record with state := .dead, reason := reason } else state.record }

def retirePublisherBoot (publisher : PublisherId) (boot : PublisherBootId) (reason : Text) :
    ApplyResult × Impl :=
  match r.publishers[publisher]? with
  | none =>
    (.of .rejectedUnknownPublisher ("publisher " ++ publisher.str ++ " is not registered" : Text), r)
  | some state =>
    if !boot.valid then
      (.of .rejectedValidation "retiring a publisher boot requires the boot identity", r)
    else if state.fencedBoots.contains boot then
      (.of .acceptedIdempotent ("publisher boot " ++ boot.str ++ " is already retired" : Text), r)
    else
      (.mutation ("publisher boot " ++ boot.str ++ " retired: " ++ reason : Text),
        (r.setPublisher publisher (retireState boot reason state)).touch)

/-- The state a liveness reset leaves a publisher in: only registered ones lose their boot. -/
def resetState (reason : Text) (state : PublisherStateInternal) : PublisherStateInternal :=
  if state.record.state = .registered then
    let boot := state.record.identity.boot
    { state with
      record := { state.record with state := .dead, reason := reason }
      fencedBoots := if boot.valid then state.fencedBoots.insert boot else state.fencedBoots
      watermarks :=
        if boot.valid then markWatermarks .dead reason state.watermarks else state.watermarks }
  else state

def resetPublisherLiveness (reason : Text) : Impl :=
  { r with publishers := r.publishers.map fun _ state => resetState reason state }.touch

def advanceCoordinatorEpoch : Impl :=
  { r with epoch := if r.epoch.valid then r.epoch.next else .first }.touch

def setCoordinatorEpoch (epoch : CoordinatorEpoch) : Status × Impl :=
  if !epoch.valid then
    (.error ⟨.invalidArgument, "coordinator epoch must be positive"⟩, r)
  else if r.epoch.valid && epoch ≤ r.epoch then
    (.error ⟨.generationRegression, "coordinator epoch must strictly advance"⟩, r)
  else (.ok (), { r with epoch := epoch }.touch)

def registerCapabilitySchemaLocked (schema : CapabilitySchema) : Except Error Impl := do
  validateCapabilitySchema schema r.limits
  match r.schemas[schema.id]? with
  | some current =>
    if current.capability == schema.capability && current.valueKind == schema.valueKind &&
        current.domain == schema.domain && current.canonicalName == schema.canonicalName &&
        current.unit == schema.unit then
      .error ⟨.alreadyExists, "identical schema already registered"⟩
    else .error ⟨.alreadyExists, "schema " ++ schema.id.str ++
      " is already registered with different content"⟩
  | none =>
    match r.capabilitySchemas[schema.capability]? with
    | some bound => .error ⟨.alreadyExists, "capability " ++ schema.capability.str ++
        " is already bound to schema " ++ bound.str⟩
    | none => do
      require (r.schemas.size < sizeMul r.limits.maxFamilies 16) .limitExceeded
        "capability schema limit reached"
      pure { r with
        capabilitySchemas := r.capabilitySchemas.insertIfNew schema.capability schema.id
        schemas := r.schemas.insertIfNew schema.id schema }

def registerCapabilitySchema (schema : CapabilitySchema) : Status × Impl :=
  match r.registerCapabilitySchemaLocked schema with
  | .error e => (.error e, r)
  | .ok r' => (.ok (), r'.touch)

end Impl

end CapabilityRegistry
