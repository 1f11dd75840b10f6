import CapabilityRegistry.Restarts

/-! What a refused import leaves behind. -/
namespace CapabilityRegistry

/-- The schema a file's evidence is read under: the catalog's own, else the first one listed. -/
def schemaOnImport (r : Impl) (state : DurableState) (id : CapabilitySchemaId) :
    Option CapabilitySchema :=
  (r.schemas[id]?).or (state.schemas.find? fun schema => schema.id = id)

/-- A record is fit for restoring: it is valid, its device is listed in its generation or a later
one, and its schema is known for its capability. -/
structure FitForRestoring (r : Impl) (state : DurableState) (record : CapabilityRecord) : Prop where
  valid : validateCapabilityRecord record r.limits = .ok ()
  device : ∃ subject ∈ state.subjects, subject.identity.id = record.device ∧
    ¬ subject.generation < record.deviceGeneration
  schema : ∃ schema, schemaOnImport r state record.schema = some schema ∧
    schema.capability = record.capability
  value : record.value.empty = false → validateValue r.limits record.value = .ok ()

/-- The format version, the digest, the bounds, the subjects, the platforms and the schemas of a
file pass their checks. -/
def AdmitsInventory (r : Impl) (state : DurableState) : Prop :=
  ∃ inventory, r.stageInventory state = .ok inventory

/-- The first evidence record of a file is reached and is fit for restoring. -/
def EntersEvidence (r : Impl) (state : DurableState) : Prop :=
  AdmitsInventory r state ∧ ∃ record, state.capabilityHistory.head? = some record ∧
    FitForRestoring r state record

section Checks
variable {r r' : Impl} {state : DurableState} {subjects : StagedSubjects}
  {platforms : Std.ExtTreeMap PlatformId PlatformIdentity} {schemas : StagedSchemas}
  {record : CapabilityRecord} {e : Error}

theorem stagedSchema_of_inventory
    (h : r.stageInventory state = .ok (subjects, platforms, schemas)) (id : CapabilitySchemaId) :
    schemas.schemas[id]? = schemaOnImport r state id := by
  obtain ⟨-, -, -, hs⟩ := Impl.stageInventory_eq_ok.mp h
  rw [stageSchemas_enter hs, OrdMap.getElem?_enter]
  rfl

theorem stagedDevice_of_inventory
    (h : r.stageInventory state = .ok (subjects, platforms, schemas)) {id : DeviceId}
    {device : DeviceState} :
    subjects.devices[id]? = some device ↔
      ∃ subject ∈ state.subjects, subject.identity.id = id ∧ restoredDevice subject = device := by
  obtain ⟨-, hs, -, -⟩ := Impl.stageInventory_eq_ok.mp h
  rw [Impl.stageSubjects_spec hs]
  simp

/-- The checks of a record, read off the file and the catalog. -/
theorem checkRecord_iff_fit (h : r.stageInventory state = .ok (subjects, platforms, schemas)) :
    checkRecord r.limits subjects schemas record = .ok () ↔ FitForRestoring r state record := by
  constructor
  · intro hcheck
    have hres := Impl.checkRecord_eq_ok hcheck
    obtain ⟨device, hd, hg⟩ := hres.device
    obtain ⟨subject, hm, hid, rfl⟩ := (stagedDevice_of_inventory h).mp hd
    obtain ⟨schema, hs, hc⟩ := hres.schema
    refine ⟨hres.valid, ⟨subject, hm, hid, hg⟩, ⟨schema, ?_, hc⟩, fun hv => ?_⟩
    · rw [← stagedSchema_of_inventory h]
      exact hs
    · simp only [checkRecord, hd, hs, hv, status_bind_eq_ok] at hcheck
      exact hcheck.2.2.2
  · rintro ⟨hvalid, ⟨subject, hm, hid, hg⟩, ⟨schema, hs, hc⟩, hvalue⟩
    have hd := (stagedDevice_of_inventory h).mpr ⟨subject, hm, hid, rfl⟩
    rw [← stagedSchema_of_inventory h] at hs
    simp only [checkRecord, hd, hs, status_bind_eq_ok, require_eq_ok, beq_iff_eq,
      Bool.not_eq_true', decide_eq_false_iff_not]
    refine ⟨hvalid, hc, hg, ?_⟩
    split
    · rfl
    · next hv => exact hvalue (Bool.not_eq_true _ ▸ hv)

end Checks

section Refusals
variable {limits : RegistryLimits} {subjects : StagedSubjects} {schemas : StagedSchemas}
  {record : CapabilityRecord} {serial : Nat}

/-- Nothing but its own checks can refuse the first record. -/
theorem stageRecord_first :
    (∃ staged, stageRecord limits subjects schemas { nextSerial := serial } record = .ok staged) ↔
      checkRecord limits subjects schemas record = .ok () := by
  have hkey : stagedKey ∅ record = { ({} : KeyState) with schema := record.schema } := by
    simp [stagedKey, show ({} : KeyState).schema.valid = false by rfl]
  simp only [Impl.stageRecord_eq_ok, hkey]
  constructor
  · rintro ⟨staged, hcheck, -⟩
    exact hcheck
  · intro hcheck
    exact ⟨_, hcheck, trivial, fun _ hg => (by cases hg), rfl⟩

/-- The record loop takes a serial exactly when it restores its first record. -/
theorem stageRecords_takes_serial {history : List CapabilityRecord} :
    (stageRecords limits subjects schemas { nextSerial := serial } history).2.nextSerial ≠ serial ↔
      ∃ record, history.head? = some record ∧
        checkRecord limits subjects schemas record = .ok () := by
  cases history with
  | nil => simp [stageRecords]
  | cons record rest =>
    simp only [List.head?_cons, Option.some.injEq, exists_eq_left', stageRecords,
      ← @stageRecord_first _ _ _ _ serial]
    split
    · next e he => simp [he]
    · next staged hs =>
      obtain ⟨-, -, -, rfl⟩ := Impl.stageRecord_eq_ok.mp hs
      simp only [hs, Except.ok.injEq, exists_eq', iff_true]
      generalize hr : stageRecords limits subjects schemas _ rest = out
      exact Nat.ne_of_gt (stageRecords_nextSerial hr)

variable {r r' : Impl} {state : DurableState} {e : Error}

theorem importDurableState_refused {subjects : StagedSubjects}
    {platforms : Std.ExtTreeMap PlatformId PlatformIdentity} {schemas : StagedSchemas}
    (hi : r.stageInventory state = .ok (subjects, platforms, schemas))
    (h : r.importDurableState state = (.error e, r')) :
    r' = { r with nextSerial := (stageRecords r.limits subjects schemas
      { nextSerial := r.nextSerial } state.capabilityHistory).2.nextSerial } := by
  simp only [Impl.importDurableState, hi] at h
  split at h
  · obtain ⟨-, rfl⟩ := Prod.mk.inj h
    rfl
  · split at h
    · obtain ⟨-, rfl⟩ := Prod.mk.inj h
      rfl
    · simp at h

end Refusals

namespace Sample

/-- A file whose second record is of a device it does not list. -/
def danglingFile : DurableState :=
  let record := { capability with
    schema := Id.parse "cap.compute.fp64.v1", source.publisher := publisher }
  { header.formatVersion := stateFormatVersion
    subjects := [{ identity := device.identity, generation := .first, boot := .first }]
    capabilityHistory := [record, { record with device := Id.parse "dev.b" }] }

end Sample

end CapabilityRegistry
