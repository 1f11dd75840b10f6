import CapabilityRegistry.Transitions

/-! The evidence counter counts the retained records and stays within its bound. -/
namespace CapabilityRegistry

section Totals
variable {keys : Std.ExtTreeMap KeyId KeyState} {id : KeyId} {key key' : KeyState}

theorem totalRecords_insert_of_none (key : KeyState) (h : keys[id]? = none) :
    totalRecords (keys.insert id key) = key.records.length + totalRecords keys :=
  OrdMap.total_insert_of_none h

theorem totalRecords_insert_of_some (key' : KeyState) (h : keys[id]? = some key) :
    totalRecords (keys.insert id key') + key.records.length =
      key'.records.length + totalRecords keys :=
  OrdMap.total_insert_of_some h

theorem totalRecords_insert_same (h : keys[id]? = some key)
    (hl : key'.records.length = key.records.length) :
    totalRecords (keys.insert id key') = totalRecords keys := by
  have ht := totalRecords_insert_of_some key' h
  omega

end Totals

namespace Impl

/-- The counter is exact and bounded. -/
structure Accounted (r : Impl) : Prop where
  counted : r.Counted
  bounded : r.evidenceCount ≤ r.limits.maxEvidenceHistory

section Evidence
variable {r r' : Impl} {record : CapabilityRecord} {device : DeviceState} {key : KeyState}
  {q : Publication} {out : ApplyResult × Impl}

@[simp] theorem registerPlatform_keys (r : Impl) (platform : PlatformIdentity) :
    (r.registerPlatform platform).keys = r.keys := by
  unfold registerPlatform
  repeat' split
  all_goals rfl

@[simp] theorem registerPlatform_evidenceCount (r : Impl) (platform : PlatformIdentity) :
    (r.registerPlatform platform).evidenceCount = r.evidenceCount := by
  unfold registerPlatform
  repeat' split
  all_goals rfl

@[simp] theorem registerPlatform_limits (r : Impl) (platform : PlatformIdentity) :
    (r.registerPlatform platform).limits = r.limits := by
  unfold registerPlatform
  repeat' split
  all_goals rfl

theorem Accounted.of_same (h : r.Accounted) (hk : r'.keys = r.keys)
    (hc : r'.evidenceCount = r.evidenceCount) (hl : r'.limits = r.limits) : r'.Accounted := by
  refine ⟨?_, ?_⟩
  · rw [Counted, hc, hk]
    exact h.counted
  · rw [hc, hl]
    exact h.bounded

theorem Accounted.evicted (h : r.Accounted) : r.evictIfNeeded.Accounted := by
  obtain ⟨-, hc, hle⟩ := evictIfNeeded_spec h.counted
  exact ⟨hc, hle.trans h.bounded⟩

theorem Accounted.makeRoom (h : r.Accounted) : r.makeRoom.Accounted := by
  unfold Impl.makeRoom
  split
  · exact h.evicted
  · exact h

/-- Opening a key retains no record. -/
theorem Accounted.opens (h : r.Accounted) (ho : Opens r record key r') : r'.Accounted := by
  cases ho with
  | existing _ known => exact h
  | created unknown room =>
    refine ⟨?_, h.bounded⟩
    have ht := totalRecords_insert_of_none { schema := record.schema } unknown
    have hk : ((r.touchDeviceKeys record.device).createKey record).keys =
        r.keys.insert (keyOf record) { schema := record.schema } :=
      OrdMap.insertIfNew_of_none _ unknown
    have hc : r.evidenceCount = totalRecords r.keys := h.counted
    rw [Counted, hk, ht, ← hc]
    exact (Nat.zero_add _).symm

theorem opens_key (ho : Opens r record key r') : r'.keys[keyOf record]? = some key := by
  cases ho with
  | existing _ known => exact known
  | created unknown room =>
    have hk : ((r.touchDeviceKeys record.device).createKey record).keys =
        r.keys.insert (keyOf record) { schema := record.schema } :=
      OrdMap.insertIfNew_of_none _ unknown
    rw [hk]
    exact OrdMap.getElem?_insert_self _ _ _

theorem Accounted.bumped (h : r.Accounted) (device : DeviceState) (hk : r.keys[keyOf record]? = some key) :
    (r.bumped key record device).Accounted := by
  refine ⟨?_, h.bounded⟩
  have hl : (bumpKey key (r.assignedGeneration key (qualify record device) device)).records.length =
      key.records.length := rfl
  exact h.counted.trans (totalRecords_insert_same hk hl).symm

theorem bumped_key : (r.bumped key record device).keys[keyOf record]? =
    some (bumpKey key (r.assignedGeneration key (qualify record device) device)) :=
  OrdMap.getElem?_insert_self _ _ _

/-- Making room keeps every key. -/
theorem makeRoom_shrink (h : r.Counted) : KeysShrink r.keys r.makeRoom.keys := by
  unfold Impl.makeRoom
  split
  · exact (evictIfNeeded_spec h).1
  · exact KeysShrink.refl _

theorem Accounted.inserted (h : r.Accounted) (record : CapabilityRecord)
    (hk : r.keys[keyOf record]? = some key) (hroom : r.evidenceCount < r.limits.maxEvidenceHistory) : (r.insertRecord record).Accounted := by
  refine ⟨?_, hroom⟩
  simp only [Counted, insertRecord]
  rw [OrdMap.modify_of_some _ hk]
  have ht := totalRecords_insert_of_some
    { key with
      records := supersede (slotOf record) key.records ++
        [{ record := record, slot := slotOf record, serial := r.nextSerial }] } hk
  simp only [List.length_append, length_supersede, List.length_singleton] at ht
  have hc : r.evidenceCount = totalRecords r.keys := h.counted
  omega

theorem Accounted.evidenced (h : r.Accounted) (he : Evidenced r q out) : out.2.Accounted := by
  cases he with
  | inadmissible result refusal refused => exact h
  | keyLimit record device result admitted unknown limit refused => exact h.of_same rfl rfl rfl
  | ungoverned record device key r' result admitted opens refusal refused => exact h.opens opens
  | repeated record device key r' result admitted opens governed recorded accepted unmutated =>
    exact h.opens opens
  | saturated record device key r' result admitted fresh full refused =>
    exact ((h.opens fresh.opens).bumped device (opens_key fresh.opens)).makeRoom
  | recorded record device key r' result admitted fresh room accepted mutated =>
    have hb := (h.opens fresh.opens).bumped device (opens_key fresh.opens)
    obtain ⟨b, hkb, -⟩ := (makeRoom_shrink hb.counted).target bumped_key
    exact (hb.makeRoom.inserted (r'.assigned key record device) hkb room).evicted

theorem Accounted.handled (h : r.Accounted) (hh : Handled r q out) : out.2.Accounted := by
  cases hh with
  | deviceAdded result unknown room familyRoom kind accepted mutated =>
    exact h.of_same (registerPlatform_keys _ _) (registerPlatform_evidenceCount _ _)
      (registerPlatform_limits _ _)
  | deviceUpdated result existing known kind accepted mutated =>
    exact h.of_same (registerPlatform_keys _ _) (registerPlatform_evidenceCount _ _)
      (registerPlatform_limits _ _)
  | evidence out kind he => exact h.evidenced he
  | _ => exact h.of_same rfl rfl rfl

end Evidence

section Restored
variable {limits : RegistryLimits} {subjects : StagedSubjects} {schemas : StagedSchemas}
  {staged staged' : StagedKeys} {record : CapabilityRecord} {records : List CapabilityRecord}

theorem stageRecord_eq_ok :
    stageRecord limits subjects schemas staged record = .ok staged' ↔
      checkRecord limits subjects schemas record = .ok () ∧
      (stagedKey staged.keys record).schema = record.schema ∧
      (record.capabilityGeneration.valid = true →
        (stagedKey staged.keys record).generation.valid = true →
        ¬ record.capabilityGeneration < (stagedKey staged.keys record).generation) ∧
      staged' =
        { keys := staged.keys.insert (keyOf record)
            (restoreRecord (stagedKey staged.keys record) record (staged.nextSerial + 1))
          records := staged.records + 1
          revalidated := if provenanceIsDurable record.source.provenance then staged.revalidated
            else staged.revalidated + 1
          nextSerial := staged.nextSerial + 1 } := by
  simp only [stageRecord, status_bind_eq_ok, require_eq_ok, pure, Except.pure,
    Except.ok.injEq, beq_iff_eq, Bool.not_eq_true', Bool.and_eq_false_imp, Bool.and_eq_true,
    decide_eq_false_iff_not, and_imp, @eq_comm _ staged']

theorem stagedKey_records (staged : StagedKeys) (record : CapabilityRecord) :
    (stagedKey staged.keys record).records =
      ((staged.keys[keyOf record]?).map KeyState.records).getD [] := by
  unfold stagedKey
  cases staged.keys[keyOf record]? with
  | none => dsimp only; split <;> rfl
  | some key => dsimp only; split <;> rfl

theorem totalRecords_restoreRecord (serial : Nat) :
    totalRecords (staged.keys.insert (keyOf record)
      (restoreRecord (stagedKey staged.keys record) record serial)) =
        totalRecords staged.keys + 1 := by
  have hr := stagedKey_records staged record
  have hl : (restoreRecord (stagedKey staged.keys record) record serial).records.length =
      (((staged.keys[keyOf record]?).map KeyState.records).getD []).length + 1 := by
    simp [restoreRecord, hr]
  cases hk : staged.keys[keyOf record]? with
  | none =>
    rw [totalRecords_insert_of_none _ hk, hl, hk]
    simp [Nat.add_comm]
  | some key =>
    have ht := totalRecords_insert_of_some
      (restoreRecord (stagedKey staged.keys record) record serial) hk
    rw [hl, hk] at ht
    simp only [Option.map_some, Option.getD_some] at ht
    omega

/-- The record loop accepts what a loop that forgets what was staged before a failure accepts. -/
theorem stageRecords_eq_ok :
    stageRecords limits subjects schemas staged records = (.ok (), staged') ↔
      records.foldlM (stageRecord limits subjects schemas) staged = .ok staged' := by
  induction records generalizing staged with
  | nil => simp [stageRecords, pure, Except.pure]
  | cons record rest ih =>
    rw [stageRecords, List.foldlM_cons]
    cases hn : stageRecord limits subjects schemas staged record with
    | error e => simp [bind, Except.bind]
    | ok next => exact ih

/-- Every restored record is counted once. -/
theorem stageRecords_total (h : stageRecords limits subjects schemas staged records = (.ok (), staged')) :
    totalRecords staged'.keys = totalRecords staged.keys + records.length ∧
      staged'.records = staged.records + records.length := by
  induction records generalizing staged with
  | nil =>
    obtain ⟨-, rfl⟩ := Prod.mk.inj h
    exact ⟨rfl, rfl⟩
  | cons record rest ih =>
    unfold stageRecords at h
    split at h
    · simp at h
    · next next hn =>
      obtain ⟨-, -, -, rfl⟩ := stageRecord_eq_ok.mp hn
      obtain ⟨h1, h2⟩ := ih h
      rw [totalRecords_restoreRecord] at h1
      dsimp only at h2
      simp only [List.length_cons]
      omega

end Restored

section Runs
variable [StdLib] {r r' : Impl} {state : DurableState} {staged : Staged} {op : Op}
  {limits : RegistryLimits}

omit [StdLib] in
theorem Accounted.imported (h : Imports r state staged) : (r.commit state staged).Accounted := by
  obtain ⟨ht, hr⟩ := stageRecords_total h.records
  have hempty : totalRecords (∅ : Std.ExtTreeMap KeyId KeyState) = 0 := OrdMap.total_empty
  have hb := h.bounds
  simp only [checkBounds, bind_eq_ok, require_eq_ok, exists_const, decide_eq_true_eq] at hb
  refine ⟨?_, ?_⟩
  · change staged.keys.records = totalRecords staged.keys.keys
    simp only [hempty] at ht
    simp only at hr
    omega
  · change staged.keys.records ≤ r.limits.maxEvidenceHistory
    simp only at hr
    omega

omit [StdLib] in
theorem registerCapabilitySchemaLocked_eq_ok {schema : CapabilitySchema}
    (h : r.registerCapabilitySchemaLocked schema = .ok r') :
    validateCapabilitySchema schema r.limits = .ok () ∧ r.schemas[schema.id]? = none ∧
      r.capabilitySchemas[schema.capability]? = none ∧
      r.schemas.size < sizeMul r.limits.maxFamilies 16 ∧
      r' = { r with
        capabilitySchemas := r.capabilitySchemas.insert schema.capability schema.id
        schemas := r.schemas.insert schema.id schema } := by
  simp only [registerCapabilitySchemaLocked, bind_eq_ok] at h
  obtain ⟨_, hv, h⟩ := h
  split at h
  · split at h <;> cases h
  · next hs =>
    split at h
    · cases h
    · next hc =>
      simp only [bind_eq_ok, require_eq_ok, exists_const, decide_eq_true_eq] at h
      obtain ⟨hroom, h⟩ := h
      rw [OrdMap.insertIfNew_of_none _ hs, OrdMap.insertIfNew_of_none _ hc] at h
      exact ⟨hv, hs, hc, hroom, (Except.ok.inj h).symm⟩

theorem Accounted.after (h : r.Accounted) (op : Op) : (r.after op).Accounted := by
  have hc := changed r op
  generalize r.after op = r' at hc
  cases hc with
  | unchanged op r' same => exact h.of_same same.keys same.evidenceCount same.limits
  | payload now publication q publisher r' addressed authority verdict same =>
    exact (h.handled (Impl.handled r q)).of_same same.keys same.evidenceCount same.limits
  | schema op schema bound r' registered same =>
    obtain ⟨-, -, -, -, rfl⟩ := registerCapabilitySchemaLocked_eq_ok registered
    exact h.of_same same.keys same.evidenceCount same.limits
  | imported state report r' accepted =>
    obtain ⟨staged, hi, -, rfl⟩ := importDurableState_eq_ok.mp accepted
    exact Accounted.imported hi
  | importRefused state e r' refused =>
    obtain ⟨serial, rfl⟩ := importDurableState_eq_error refused
    exact h.of_same rfl rfl rfl

omit [StdLib] in
theorem accounted_fresh (limits : RegistryLimits) : (Impl.fresh limits).Accounted :=
  ⟨OrdMap.total_empty.symm, Nat.zero_le _⟩

theorem accounted_reachable (h : Reachable limits r) : r.Accounted := by
  obtain ⟨ops, rfl⟩ := h
  exact Machine.run_invariant (accounted_fresh limits) (fun r op h => h.after op) ops

end Runs

end Impl

end CapabilityRegistry
