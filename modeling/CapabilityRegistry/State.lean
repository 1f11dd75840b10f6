import CapabilityRegistry.Catalog
import CapabilityRegistry.DurableState

/-! The registry's in-memory state, exactly the fields of the source's `Impl`. -/
namespace CapabilityRegistry

/-- A text of `utc_now_iso8601`, written into a 32-byte buffer. -/
abbrev Timestamp := { text : Text // text.length < 32 }

structure KeyId where
  device : DeviceId
  capability : CapabilityId
deriving DecidableEq

namespace KeyId

instance : Inhabited KeyId := ⟨⟨default, default⟩⟩
instance : Ord KeyId := ⟨compareLex (compareOn device) (compareOn capability)⟩
instance : Std.TransOrd KeyId :=
  inferInstanceAs (Std.TransCmp (compareLex (compareOn device) (compareOn capability)))

instance : Std.LawfulEqOrd KeyId where
  compare_self {a} :=
    @Std.ReflCmp.compare_self _ (compareLex (compareOn device) (compareOn capability)) _ a
  eq_of_compare {a b} h := by
    have h' := compareLex_eq_eq.mp h
    cases a
    cases b
    simp only [mk.injEq]
    exact ⟨Std.LawfulEqOrd.eq_of_compare h'.1, Std.LawfulEqOrd.eq_of_compare h'.2⟩

end KeyId

/-- `serial` is a 64-bit counter that starts at one and is never reset. -/
structure StoredRecord where
  record : CapabilityRecord
  persistent : StalenessFlag := .none
  slot : Text
  serial : Nat
deriving Inhabited

structure KeyState where
  schema : CapabilitySchemaId := default
  generation : CapabilityGeneration := default
  hasEvidence : Bool := false
  records : List StoredRecord := []
deriving Inhabited

structure DeviceState where
  identity : DeviceIdentity := {}
  software : DeviceSoftwareState := {}
  generation : DeviceGeneration := default
  boot : DeviceBootId := default
  platformGeneration : PlatformGeneration := default
deriving DecidableEq, Inhabited

structure PublisherStateInternal where
  record : PublisherRecord := {}
  fencedBoots : Std.ExtTreeSet PublisherBootId := ∅
  watermarks : Std.ExtTreeMap PublisherBootId PublisherWatermark := ∅
  sequenceFingerprints : Std.ExtTreeMap UInt64 UInt64 := ∅
  bootHistory : UInt64 := 0
  publisherFenced : Bool := false

instance : Inhabited PublisherStateInternal := ⟨{}⟩

structure GlobalEntry where
  key : KeyId
  serial : Nat
deriving DecidableEq

/-- The counters of `ResourceUsage` that no other field determines. -/
structure Usage where
  acceptedPublications : UInt64 := 0
  rejectedPublications : UInt64 := 0
  idempotentPublications : UInt64 := 0
  snapshotsTaken : UInt64 := 0
deriving DecidableEq

structure Impl where
  limits : RegistryLimits
  schemas : Std.ExtTreeMap CapabilitySchemaId CapabilitySchema := ∅
  capabilitySchemas : Std.ExtTreeMap CapabilityId CapabilitySchemaId := ∅
  devices : Std.ExtTreeMap DeviceId DeviceState := ∅
  platforms : Std.ExtTreeMap PlatformId PlatformIdentity := ∅
  keys : Std.ExtTreeMap KeyId KeyState := ∅
  deviceKeys : Std.ExtTreeMap DeviceId (Std.ExtTreeSet CapabilityId) := ∅
  families : Std.ExtTreeSet HardwareFamilyId := ∅
  models : Std.ExtTreeSet HardwareModelId := ∅
  architectures : Std.ExtTreeSet ArchitectureId := ∅
  globalOrder : List GlobalEntry := []
  evidenceCount : Nat := 0
  nextSerial : Nat := 1
  quirks : Std.ExtTreeMap QuirkId QuirkRecord := ∅
  compatibility : Std.ExtTreeMap CompatibilityFactId CompatibilityFact := ∅
  publishers : Std.ExtTreeMap PublisherId PublisherStateInternal := ∅
  epoch : CoordinatorEpoch := default
  snapshotGeneration : SnapshotGeneration := default
  stateRevision : UInt64 := 0
  shuttingDown : Bool := false
  usage : Usage := {}

/-- The constructor: the built-in schemas, epoch one. -/
def Impl.fresh (limits : RegistryLimits) : Impl :=
  { limits
    schemas := builtinCapabilitySchemas.foldl (fun m s => m.insertIfNew s.id s) ∅
    capabilitySchemas :=
      builtinCapabilitySchemas.foldl (fun m s => m.insertIfNew s.capability s.id) ∅
    epoch := .first }

def Impl.touch (r : Impl) : Impl := { r with stateRevision := r.stateRevision + 1 }

def Impl.countRejected (r : Impl) : Impl :=
  { r with usage.rejectedPublications := r.usage.rejectedPublications + 1 }

def Impl.countAccepted (r : Impl) : Impl :=
  { r with usage.acceptedPublications := r.usage.acceptedPublications + 1 }

def Impl.countIdempotent (r : Impl) : Impl :=
  { r with usage.idempotentPublications := r.usage.idempotentPublications + 1 }

end CapabilityRegistry
