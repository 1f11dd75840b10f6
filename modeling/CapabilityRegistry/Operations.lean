import CapabilityRegistry.Durable
import CapabilityRegistry.Tables

/-! The public operations of the registry that change it, as one step function. -/
namespace CapabilityRegistry

inductive Op
  | registerCapabilitySchema (schema : CapabilitySchema)
  | registerPublisher (now : Timestamp) (identity : PublisherIdentity) (adapter : Text)
  | fencePublisher (publisher : PublisherId) (reason : Text)
  | retirePublisherBoot (publisher : PublisherId) (boot : PublisherBootId) (reason : Text)
  | resetPublisherLiveness (reason : Text)
  | apply (now : Timestamp) (publication : Publication)
  | snapshot
  | advanceCoordinatorEpoch
  | setCoordinatorEpoch (epoch : CoordinatorEpoch)
  | beginShutdown
  | clearShutdown
  | importDurableState (state : DurableState)

/-- What a call returns. -/
inductive Outcome
  | applied (result : ApplyResult)
  | status (status : Status)
  | imported (report : Except Error ImportReport)

namespace Outcome

def accepted : Outcome → Bool
  | applied result => result.accepted
  | status (.ok _) => true
  | status (.error _) => false
  | imported (.ok _) => true
  | imported (.error _) => false

end Outcome

namespace Impl
variable [StdLib] (r : Impl)

/-- The effect of `snapshot` on the registry: it issues the next snapshot generation. -/
def takeSnapshot : Status × Impl :=
  if r.devices.size > r.limits.maxSnapshotRecords then
    (.error ⟨.limitExceeded, "snapshot would exceed the configured record bound"⟩, r)
  else
    (.ok (), { r with
      snapshotGeneration := r.snapshotGeneration.next
      usage.snapshotsTaken := r.usage.snapshotsTaken + 1 })

def step : Op → Outcome × Impl
  | .registerCapabilitySchema schema => (r.registerCapabilitySchema schema).map .status id
  | .registerPublisher now identity adapter => (r.registerPublisher now identity adapter).map .applied id
  | .fencePublisher publisher reason => (r.fencePublisher publisher reason).map .applied id
  | .retirePublisherBoot publisher boot reason =>
    (r.retirePublisherBoot publisher boot reason).map .applied id
  | .resetPublisherLiveness reason => (.status (.ok ()), r.resetPublisherLiveness reason)
  | .apply now publication => (r.applyLocked now publication).map .applied id
  | .snapshot => r.takeSnapshot.map .status id
  | .advanceCoordinatorEpoch => (.status (.ok ()), r.advanceCoordinatorEpoch)
  | .setCoordinatorEpoch epoch => (r.setCoordinatorEpoch epoch).map .status id
  | .beginShutdown => (.status (.ok ()), { r with shuttingDown := true })
  | .clearShutdown => (.status (.ok ()), { r with shuttingDown := false })
  | .importDurableState state => (r.importDurableState state).map .imported id

/-- The state after one call. -/
def after (op : Op) : Impl := (r.step op).2

/-- The state after a list of calls. -/
def run (ops : List Op) : Impl := ops.foldl after r

end Impl

/-- The states the public operations lead to from a registry constructed with some limits. -/
def Reachable [StdLib] (limits : RegistryLimits) (r : Impl) : Prop :=
  ∃ ops, r = (Impl.fresh limits).run ops

/-! The small calls the fixed-input theorems of the later modules are built from. -/
namespace Sample

def now : Timestamp := ⟨"2026-01-01T00:00:00Z", by decide⟩

/-- The identity the first registration of a publisher assigns in a fresh registry. -/
def publisher : PublisherIdentity := { id := Id.parse "pub.a", boot := .first, epoch := .first }

def device : DeviceRegistration :=
  { identity :=
      { id := Id.parse "dev.a"
        incarnation := Id.parse "inc.a"
        hardware :=
          { vendor := Id.parse "vendor.a", family := Id.parse "family.a", hardwareClass := .gpu } } }

/-- Live evidence for one of the built-in capabilities. -/
def capability : CapabilityRecord :=
  { device := Id.parse "dev.a"
    deviceGeneration := .first
    deviceBoot := .first
    capability := Id.parse "cap.compute.fp64"
    support := .supportedNative
    value := .boolean true
    source :=
      { sourceClass := .hardwareProbe, provenance := .realLiveHardware, adapter := "probe" } }

/-- A request for a fresh boot. -/
def request : PublisherIdentity := { id := publisher.id }

def registration : Op := .registerPublisher now request "adapter"

def deviceRegistration (sequence : UInt64) (device : DeviceRegistration) : Publication :=
  { kind := .registerDevice, publisher, sequence, device }

def evidence (sequence : UInt64) (capability : CapabilityRecord) : Publication :=
  { kind := .publishCapability, publisher, sequence, capability }

/-- A registered publisher and a registered device. -/
def setup : List Op := [registration, .apply now (deviceRegistration 1 device)]

end Sample

end CapabilityRegistry
