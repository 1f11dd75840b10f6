import CapabilityRegistry.Resurrection

/-! Evidence restored from a file, and that it does not become current again. -/
namespace CapabilityRegistry

section Staging
variable {limits : RegistryLimits} {subjects : StagedSubjects} {schemas : StagedSchemas}
  {staged staged' : StagedKeys} {record : CapabilityRecord} {records : List CapabilityRecord}

/-- Every staged record sits in an import slot. -/
def StagedSlots (keys : Std.ExtTreeMap KeyId KeyState) : Prop :=
  ∀ id, ∀ s ∈ recordsAt keys id, s.slot = importSlot s.record

theorem stagedSlots_stageRecord (hs : StagedSlots staged.keys)
    (h : stageRecord limits subjects schemas staged record = .ok staged') :
    StagedSlots staged'.keys := by
  obtain ⟨-, -, -, rfl⟩ := Impl.stageRecord_eq_ok.mp h
  intro id s hm
  simp only [recordsAt, OrdMap.getElem?_insert_eq] at hm
  split at hm
  · next he =>
    subst he
    simp only [Option.map_some, Option.getD_some, restoreRecord] at hm
    rcases List.mem_append.mp hm with hm | hm
    · obtain ⟨t, ht, hk⟩ := mem_supersede hm
      rw [Impl.stagedKey_records] at ht
      rw [hk.slot, hk.record]
      exact hs _ t ht
    · obtain rfl := List.mem_singleton.mp hm
      rfl
  · exact hs id s hm

theorem stagedSlots_stageRecords (hs : StagedSlots staged.keys)
    (h : stageRecords limits subjects schemas staged records = (.ok (), staged')) :
    StagedSlots staged'.keys := by
  exact foldlM_invariant (P := fun staged : StagedKeys => StagedSlots staged.keys) hs
    (fun _ _ _ _ => stagedSlots_stageRecord) (Impl.stageRecords_eq_ok.mp h)

/-- An import slot is longer than the slot live ingestion would use. -/
theorem importSlot_ne_slotOf (record : CapabilityRecord) : importSlot record ≠ slotOf record := by
  intro h
  have hl := congrArg List.length h
  simp only [importSlot, List.length_append] at hl
  have hsep : (("#" : String) : Text).length = 1 := by decide
  omega

end Staging

theorem Kept.trans {s s' s'' : StoredRecord} (h : Kept s s') (h' : Kept s' s'') : Kept s s'' :=
  ⟨h'.record.trans h.record, h'.slot.trans h.slot, h'.serial.trans h.serial,
    fun hp => h'.persistent (h.persistent hp)⟩

namespace Impl
variable {r r' restored : Impl} {op : Op} {ops : List Op} {id : KeyId} {s s' : StoredRecord}
  {state : DurableState} {staged : Staged} {device : DeviceState}

/-- Every record of the key is one of the restored ones or was recorded since. -/
def Inherits (restored r : Impl) : Prop :=
  ∀ id, ∀ s ∈ recordsAt r.keys id,
    (∃ t ∈ recordsAt restored.keys id, Kept t s) ∨ s.slot = slotOf s.record

/-- Only publishers that hold a boot are registered. -/
def Seated (r : Impl) : Prop :=
  ∀ (id : PublisherId) (p : PublisherStateInternal), r.publishers[id]? = some p →
    p.record.state = .registered → p.record.identity.boot.valid = true

/-- The record is stale for good: it is outdated, or no boot it could be held under exists. -/
def Expired (r : Impl) (s : StoredRecord) : Prop :=
  r.Outdated s ∨ s.record.source.publisher.boot.valid = false

theorem not_current_of_expired (h : r.Expired s) (hs : r.Seated)
    (hp : provenanceIsDurable s.record.source.provenance = false)
    (hd : r.devices[s.record.device]? = some device) : ¬ r.Current s device := by
  rcases h with h | h
  · exact h.not_current hp hd
  · intro hc
    have ha := hc.publisher hp
    unfold publisherIsAuthoritative at ha
    split at ha
    · cases ha
    · next p hpub =>
      simp only [Bool.and_eq_true, beq_iff_eq] at ha
      obtain ⟨⟨⟨-, hreg⟩, hboot⟩, -⟩ := ha
      have hv := hs _ p hpub hreg
      rw [hboot, h] at hv
      cases hv

theorem seated_imported (h : Imports r state staged) : (r.commit state staged).Seated := by
  intro id p hp hreg
  have hdead := ((restored_publisher h id).2 p hp).dead
  rw [hdead] at hreg
  cases hreg

section Steps
variable [StdLib]

theorem Seated.after (h : r.Seated) (hs : r.Steady op) : (r.after op).Seated := by
  intro id p hp hreg
  have hm := publisherMove r op hs.not_restores id
  have hx := h id
  generalize hold : r.publishers[id]? = x at hm hx
  rw [hp] at hm
  cases hm with
  | unmoved => exact hx p rfl hreg
  | first => rfl
  | fresh op now adapter state unfenced request =>
    have hlast := hs.boot id request
    rw [currentBoot_of_some hold] at hlast
    exact Gen.valid_of_lt (lt_freshBoot r now adapter hlast)
  | reaffirmed op adapter state unfenced valid live => exact valid
  | fenced reason state unfenced => cases hreg
  | retired boot reason state valid live =>
    rw [retireState_identity]
    by_cases he : state.record.identity.boot = boot
    · simp [retireState, he] at hreg
    · simp only [retireState, if_neg he] at hreg
      exact hx state rfl hreg
  | reset reason state =>
    rw [resetState_identity]
    unfold resetState at hreg
    split at hreg
    · cases hreg
    · exact hx state rfl hreg
  | noted op state state' same =>
    rw [same.identity]
    exact hx state rfl (same.state.symm.trans hreg)

theorem Expired.after (h : r.Expired s) (hs : r.Steady op) : (r.after op).Expired s :=
  h.imp_left fun ho => ho.after hs

omit [StdLib] in
theorem recorded_slot (h : Recorded r op id s) : s.slot = slotOf s.record := by
  cases h with
  | mk now publication q publisher record device generation addressed authority kind admits =>
    rfl

theorem Inherits.after (h : Inherits restored r) (ha : r.Accounted) (hs : r.Steady op) :
    Inherits restored (r.after op) := by
  intro id s hm
  rcases (recordsMove ha hs.not_restores id).origin hm with ⟨t, ht, hk⟩ | ⟨hr, -⟩
  · rcases h id t ht with ⟨u, hu, hk'⟩ | hslot
    · exact .inl ⟨u, hu, hk'.trans hk⟩
    · right
      rw [hk.slot, hk.record]
      exact hslot
  · exact .inr (recorded_slot hr)

/-- What holds of every state after an import: restored process-bound records have expired. -/
structure Revalidating (restored r : Impl) : Prop where
  accounted : r.Accounted
  seated : r.Seated
  inherits : Inherits restored r
  expired : ∀ id, ∀ s ∈ recordsAt restored.keys id,
    provenanceIsDurable s.record.source.provenance = false → r.Expired s

theorem Revalidating.after (h : Revalidating restored r) (hs : r.Steady op) :
    Revalidating restored (r.after op) :=
  ⟨h.accounted.after op, h.seated.after hs, h.inherits.after h.accounted hs,
    fun id s hm hp => (h.expired id s hm hp).after hs⟩

end Steps

/-- No restored process-bound record is current wherever it is still retained. -/
def StaysUnrestored (restored r : Impl) : Prop :=
  ∀ id, ∀ s ∈ recordsAt restored.keys id,
    provenanceIsDurable s.record.source.provenance = false →
    ∀ s' ∈ recordsAt r.keys id, s'.record = s.record → s'.slot = s.slot → s'.serial = s.serial →
      ∀ device ∈ r.devices[s.record.device]?, r.currentStaleness s' device ≠ .none

theorem Revalidating.staysUnrestored (h : Revalidating restored r)
    (hslots : StagedSlots restored.keys) : StaysUnrestored restored r := by
  intro id s hm hp s' hm' hrecord hslot _ device hd hnone
  have hp' : provenanceIsDurable s'.record.source.provenance = false := by rw [hrecord]; exact hp
  have hd' : r.devices[s'.record.device]? = some device := by rw [hrecord]; exact hd
  have hc := currentStaleness_eq_none_iff.mp hnone
  rcases h.inherits id s' hm' with ⟨t, ht, hk⟩ | hlive
  · have ht' := h.expired id t ht (hk.record ▸ hp')
    refine not_current_of_expired ?_ h.seated hp' hd' hc
    exact ht'.imp (fun ho => ho.kept hk) fun hb => hk.record.symm ▸ hb
  · have himport := hslots id s hm
    rw [hslot, himport, hrecord] at hlive
    exact importSlot_ne_slotOf _ hlive

section Runs
variable [StdLib] {limits : RegistryLimits} {report : ImportReport}

/-- After an import whose process-bound records have all expired, steady calls never make one of
them current. -/
theorem restored_evidence_stays_stale
    (hi : (Impl.fresh limits).importDurableState state = (.ok report, restored))
    (hexp : ∀ id, ∀ s ∈ recordsAt restored.keys id,
      provenanceIsDurable s.record.source.provenance = false → restored.Expired s)
    (h : Machine.Along Impl.after Steady restored ops) :
    StaysUnrestored restored (restored.run ops) := by
  obtain ⟨staged, him, -, rfl⟩ := importDurableState_eq_ok.mp hi
  have hempty : StagedSlots (∅ : Std.ExtTreeMap KeyId KeyState) := by
    intro id s hm
    simp [recordsAt] at hm
  have hslots : StagedSlots ((Impl.fresh limits).commit state staged).keys :=
    stagedSlots_stageRecords hempty him.records
  have hstart : Revalidating ((Impl.fresh limits).commit state staged)
      ((Impl.fresh limits).commit state staged) :=
    ⟨Accounted.imported him, seated_imported him,
      fun id s hm => .inl ⟨s, hm, Kept.refl s⟩, hexp⟩
  exact (h.invariant hstart fun r op hr hs => hr.after hs).staysUnrestored hslots

/-- A file with live evidence of a publisher, and the watermark of that publisher. -/
def savedEvidence : DurableState :=
  { header := { formatVersion := stateFormatVersion, epoch := .first }
    subjects := [{ identity := Sample.device.identity, generation := .first, boot := .first }]
    capabilityHistory := [
      { Sample.capability with
        schema := Id.parse "cap.compute.fp64.v1"
        source.publisher := Sample.publisher }]
    publisherWatermarks := [{ publisher := Sample.publisher.id, boot := .first }] }

/-- The state a file is restored to. -/
def restoredFrom (state : DurableState) : Impl := ((Impl.fresh {}).importDurableState state).2

omit [StdLib] in
theorem restoredFrom_eq {state : DurableState}
    (h : ((Impl.fresh {}).importDurableState state).1.toOption.isSome = true) :
    ∃ report, (Impl.fresh {}).importDurableState state = (.ok report, restoredFrom state) := by
  unfold restoredFrom
  generalize (Impl.fresh {}).importDurableState state = out at h
  obtain ⟨result, r⟩ := out
  cases result with
  | error e => cases h
  | ok report => exact ⟨report, rfl⟩

omit [StdLib] in
/-- A property of all retained records can be checked key by key. -/
theorem forall_recordsAt {keys : Std.ExtTreeMap KeyId KeyState} {P : StoredRecord → Prop}
    (h : ∀ e ∈ keys.toList, ∀ s ∈ e.2.records, P s) (id : KeyId) (s : StoredRecord)
    (hs : s ∈ recordsAt keys id) : P s := by
  cases hk : keys[id]? with
  | none =>
    rw [recordsAt_of_none hk] at hs
    cases hs
  | some key =>
    rw [recordsAt_of_some hk] at hs
    exact h (id, key) (OrdMap.mem_toList.mpr hk) s hs

omit [StdLib] in
theorem restored_evidence_stays_stale_saved :
    letI := StdLib.reference
    StaysUnrestored (restoredFrom savedEvidence)
      ((restoredFrom savedEvidence).run [Sample.registration]) := by
  let := StdLib.reference
  obtain ⟨hrestores, hdead, hboot⟩ :
      ((Impl.fresh {}).importDurableState savedEvidence).1.toOption.isSome = true ∧
        (∀ e ∈ (restoredFrom savedEvidence).keys.toList, ∀ s ∈ e.2.records,
          ∃ p ∈ (restoredFrom savedEvidence).publishers[s.record.source.publisher.id]?,
            p.fencedBoots.contains s.record.source.publisher.boot = true) ∧
          (restoredFrom savedEvidence).currentBoot Sample.request.id ≠ Gen.last := by
    rw [Impl.fresh_eq]
    decide +kernel
  obtain ⟨report, hi⟩ := restoredFrom_eq hrestores
  refine restored_evidence_stays_stale hi ?_ ⟨?_, trivial⟩
  · intro id s hs _
    obtain ⟨p, hp, hd⟩ := forall_recordsAt hdead id s hs
    exact .inl (.publisher p hp (.dead (Std.ExtTreeSet.contains_iff_mem.mp hd)))
  · refine ⟨?_, ?_, ?_, ?_⟩
    · intro state h
      cases h
    · intro h
      cases h
    · rintro id ⟨rfl, -⟩
      exact hboot
    · intro existing registration explicitGeneration h
      cases h

/-- The same file without the watermarks of its publishers. -/
def unwatermarkedEvidence : DurableState :=
  { savedEvidence with publisherWatermarks := [] }

/-- All of its evidence is bound to a process. -/
example : unwatermarkedEvidence.capabilityHistory.all
    (fun record => !provenanceIsDurable record.source.provenance) = true := by
  decide +kernel

theorem registration_keys (r : Impl) : (r.after Sample.registration).keys = r.keys := by
  change (r.registerPublisher Sample.now Sample.request "adapter").2.keys = r.keys
  unfold registerPublisher
  split
  · rfl
  · exact (registerPublisherLocked_sameInventory _ _ _ _).keys

omit [StdLib] in
/-- A file that lists no watermark of a publisher revives its evidence: the first registration is
given the boot the evidence was observed under. -/
theorem registration_revives_restored_evidence :
    letI := StdLib.reference
    ¬ ∀ (limits : RegistryLimits) (state : DurableState) (report : ImportReport) (restored : Impl)
      (ops : List Op), (Impl.fresh limits).importDurableState state = (.ok report, restored) →
        (∀ state, .importDurableState state ∉ ops) →
        StaysUnrestored restored (restored.run ops) := by
  let := StdLib.reference
  intro h
  obtain ⟨hrestores, s, hs, hp, device, hd, hnone⟩ :
      ((Impl.fresh {}).importDurableState unwatermarkedEvidence).1.toOption.isSome = true ∧
        ∃ s ∈ recordsAt (restoredFrom unwatermarkedEvidence).keys
            ⟨Id.parse "dev.a", Id.parse "cap.compute.fp64"⟩,
          provenanceIsDurable s.record.source.provenance = false ∧
          ∃ device ∈ ((restoredFrom unwatermarkedEvidence).after
            Sample.registration).devices[s.record.device]?,
            ((restoredFrom unwatermarkedEvidence).after Sample.registration).currentStaleness s
              device = .none := by
    rw [Impl.fresh_eq]
    decide +kernel
  obtain ⟨report, hi⟩ := restoredFrom_eq hrestores
  have hstays := h {} _ report _ [Sample.registration] hi (by simp [Sample.registration])
  have hrun : ∀ r : Impl, r.run [Sample.registration] = r.after Sample.registration := fun _ => rfl
  rw [hrun] at hstays
  have hs' : s ∈ recordsAt ((restoredFrom unwatermarkedEvidence).after Sample.registration).keys
      ⟨Id.parse "dev.a", Id.parse "cap.compute.fp64"⟩ := by
    rw [registration_keys]
    exact hs
  exact hstays _ s hs hp s hs' rfl rfl rfl device hd hnone

end Runs

end Impl

end CapabilityRegistry
