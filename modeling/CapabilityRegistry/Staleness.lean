import CapabilityRegistry.State

/-! Staleness of a retained record, recomputed from the current state at every query. -/
namespace CapabilityRegistry

namespace StalenessFlag

theorem raise_eq_none_iff {flags flag : StalenessFlag} {c : Bool} (h : flag ≠ none) :
    flags.raise c flag = none ↔ flags = none ∧ c = false := by
  obtain ⟨f⟩ := flags
  obtain ⟨g⟩ := flag
  have hg : g ≠ 0 := fun e => h (by simp [none, e])
  cases c with
  | false => simp [raise]
  | true =>
    simp only [raise, none, if_true, mk.injEq, UInt32.or_eq_zero_iff, reduceCtorEq, and_false,
      iff_false, not_and]
    exact fun _ => hg

end StalenessFlag

namespace Impl
variable (r : Impl)

def publisherIsAuthoritative (record : CapabilityRecord) : Bool :=
  match r.publishers[record.source.publisher.id]? with
  | none => false
  | some state =>
    !state.publisherFenced && state.record.state == .registered &&
      state.record.identity.boot == record.source.publisher.boot &&
      !state.fencedBoots.contains record.source.publisher.boot

/-- An axis invalidates only evidence observed under an identified generation of it. -/
def axisChanged {Tag : Type} (observed current : Gen Tag) : Bool :=
  observed.valid && observed != current

/-- The axes that are checked against the current generation of the device. -/
def currentAxisFlags (record : CapabilityRecord) (device : DeviceState) (flags : StalenessFlag) :
    StalenessFlag :=
  let software := device.software
  let liveBound := !provenanceIsDurable record.source.provenance
  let flags := flags.raise (record.deviceBoot != device.boot) .deviceBootChanged
  let flags := flags.raise ((liveBound || recordGateAxis record .minDriverVersion) &&
    axisChanged record.driverGeneration software.driverGeneration) .driverGenerationChanged
  let flags := flags.raise ((liveBound || recordGateAxis record .minFirmwareVersion) &&
    axisChanged record.firmwareGeneration software.firmwareGeneration) .firmwareGenerationChanged
  let sameRuntime := record.runtimeId.valid && record.runtimeId == software.runtime.id
  let flags := flags.raise ((liveBound || recordGateAxis record .minRuntimeVersion) &&
    (sameRuntime && axisChanged record.runtimeGeneration software.runtimeGeneration))
    .runtimeGenerationChanged
  let flags := flags.raise (liveBound &&
    axisChanged record.platformGeneration device.platformGeneration) .platformGenerationChanged
  let flags := flags.raise (liveBound && !r.publisherIsAuthoritative record) .publisherFenced
  flags.raise (liveBound && record.source.publisher.epoch != r.epoch) .epochSuperseded

def computeStaleness (stored : StoredRecord) (device : DeviceState) (target : DeviceGeneration)
    (targetIsCurrent : Bool) : StalenessFlag :=
  let record := stored.record
  let flags := stored.persistent.raise record.withdrawn .withdrawn
  let flags := flags.raise (record.deviceGeneration != target) .deviceGenerationSuperseded
  let flags := flags.raise (!targetIsCurrent) .deviceGenerationSuperseded
  if targetIsCurrent then r.currentAxisFlags record device flags else flags

/-- Staleness against the current registration of a device. -/
def currentStaleness (stored : StoredRecord) (device : DeviceState) : StalenessFlag :=
  r.computeStaleness stored device device.generation true

/-- What a record must satisfy to be current, one field for each staleness axis. -/
structure Current (stored : StoredRecord) (device : DeviceState) : Prop where
  persistent : stored.persistent = .none
  present : stored.record.withdrawn = false
  generation : stored.record.deviceGeneration = device.generation
  boot : stored.record.deviceBoot = device.boot
  driver : (!provenanceIsDurable stored.record.source.provenance ||
    recordGateAxis stored.record .minDriverVersion) = true →
    axisChanged stored.record.driverGeneration device.software.driverGeneration = false
  firmware : (!provenanceIsDurable stored.record.source.provenance ||
    recordGateAxis stored.record .minFirmwareVersion) = true →
    axisChanged stored.record.firmwareGeneration device.software.firmwareGeneration = false
  runtime : (!provenanceIsDurable stored.record.source.provenance ||
    recordGateAxis stored.record .minRuntimeVersion) = true →
    stored.record.runtimeId.valid = true → stored.record.runtimeId = device.software.runtime.id →
    axisChanged stored.record.runtimeGeneration device.software.runtimeGeneration = false
  platform : provenanceIsDurable stored.record.source.provenance = false →
    axisChanged stored.record.platformGeneration device.platformGeneration = false
  publisher : provenanceIsDurable stored.record.source.provenance = false →
    r.publisherIsAuthoritative stored.record = true
  epoch : provenanceIsDurable stored.record.source.provenance = false →
    stored.record.source.publisher.epoch = r.epoch

variable {r}

theorem currentStaleness_eq_none_iff {stored : StoredRecord} {device : DeviceState} :
    r.currentStaleness stored device = .none ↔ r.Current stored device := by
  have h1 : StalenessFlag.withdrawn ≠ .none := by decide
  have h2 : StalenessFlag.deviceGenerationSuperseded ≠ .none := by decide
  have h3 : StalenessFlag.deviceBootChanged ≠ .none := by decide
  have h4 : StalenessFlag.driverGenerationChanged ≠ .none := by decide
  have h5 : StalenessFlag.firmwareGenerationChanged ≠ .none := by decide
  have h6 : StalenessFlag.runtimeGenerationChanged ≠ .none := by decide
  have h7 : StalenessFlag.platformGenerationChanged ≠ .none := by decide
  have h8 : StalenessFlag.publisherFenced ≠ .none := by decide
  have h9 : StalenessFlag.epochSuperseded ≠ .none := by decide
  simp only [currentStaleness, computeStaleness, currentAxisFlags, if_true,
    StalenessFlag.raise_eq_none_iff, h1, h2, h3, h4, h5, h6, h7, h8, h9, ne_eq, not_false_eq_true,
    Bool.and_eq_false_imp, bne_eq_false_iff_eq, Bool.and_eq_true, Bool.not_eq_true', beq_iff_eq,
    Bool.not_true]
  constructor
  · rintro ⟨⟨⟨⟨⟨⟨⟨⟨⟨⟨hp, hw⟩, hg⟩, -⟩, hb⟩, hd⟩, hf⟩, hr⟩, hpl⟩, hpub⟩, he⟩
    exact ⟨hp, hw, hg, hb, hd, hf, fun h hv hi => hr h ⟨hv, hi⟩, hpl,
      fun h => by simpa using hpub h, he⟩
  · rintro ⟨hp, hw, hg, hb, hd, hf, hr, hpl, hpub, he⟩
    exact ⟨⟨⟨⟨⟨⟨⟨⟨⟨⟨hp, hw⟩, hg⟩, trivial⟩, hb⟩, hd⟩, hf⟩, fun h hi => hr h hi.1 hi.2⟩, hpl⟩,
      fun h => by simpa using hpub h⟩, he⟩

/-- A process-bound record of a publisher that is not authoritative is stale. -/
theorem not_current_of_not_authoritative {stored : StoredRecord} {device : DeviceState}
    (hd : provenanceIsDurable stored.record.source.provenance = false)
    (ha : r.publisherIsAuthoritative stored.record = false) : ¬ r.Current stored device := by
  intro h
  rw [h.publisher hd] at ha
  cases ha

end Impl

end CapabilityRegistry
