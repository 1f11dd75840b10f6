import CapabilityRegistry.Accounting

/-! What a refused publication leaves behind. -/
namespace CapabilityRegistry

section Saturation
variable {keys : Std.ExtTreeMap KeyId KeyState} {id : KeyId} {entry : GlobalEntry}

/-- Whether a queued record can go depends on the records of its key only. -/
theorem evictableAt_eq_none_iff : evictableAt keys entry = none ↔
    ∀ i stored, (recordsAt keys entry.key).findIdx? (fun s => s.serial == entry.serial) = some i →
      (recordsAt keys entry.key)[i]? = some stored →
      supersededIn (recordsAt keys entry.key) stored = false := by
  cases hk : keys[entry.key]? with
  | none => simp [evictableAt, hk, recordsAt_of_none hk]
  | some key =>
    rw [recordsAt_of_some hk]
    simp only [evictableAt, hk, Option.bind_eq_bind, Option.bind_some, Option.bind_eq_none_iff]
    constructor
    · intro h i stored hi hs
      have := h i hi stored hs
      simpa using this
    · intro h i hi stored hs
      simp [h i stored hi hs]

namespace Impl
variable {r r' : Impl} {record : CapabilityRecord} {device : DeviceState} {key : KeyState}

theorem nothingEvictable_iff : r.NothingEvictable ↔
    (∀ id, sizeMul r.limits.maxEvidencePerCapability 8 < (recordsAt r.keys id).length →
      ∀ stored ∈ recordsAt r.keys id, supersededIn (recordsAt r.keys id) stored = false) ∧
    ∀ entry ∈ r.globalOrder, evictableAt r.keys entry = none := by
  constructor
  · rintro ⟨hp, hq⟩
    refine ⟨fun id hl stored hs => ?_, hq⟩
    cases hk : r.keys[id]? with
    | none =>
      rw [recordsAt_of_none hk] at hs
      cases hs
    | some key =>
      rw [recordsAt_of_some hk] at hl hs ⊢
      exact hp id key hk hl stored hs
  · rintro ⟨hp, hq⟩
    refine ⟨fun id key hk hl stored hs => ?_, hq⟩
    have h := hp id
    rw [recordsAt_of_some hk] at h
    exact h hl stored hs

theorem nothingEvictable_congr (hl : r'.limits = r.limits) (hg : r'.globalOrder = r.globalOrder)
    (hk : ∀ id, recordsAt r'.keys id = recordsAt r.keys id) :
    r'.NothingEvictable ↔ r.NothingEvictable := by
  simp only [nothingEvictable_iff, evictableAt_eq_none_iff, hl, hg, hk]

/-- The history is full and no record may be dropped. -/
structure Saturated (r : Impl) : Prop where
  full : r.limits.maxEvidenceHistory ≤ r.evidenceCount
  nothingEvictable : r.NothingEvictable

/-- No room can be made exactly in a saturated state. -/
theorem makeRoom_full_iff (h : r.Accounted) :
    r.makeRoom.limits.maxEvidenceHistory ≤ r.makeRoom.evidenceCount ↔ r.Saturated := by
  unfold makeRoom
  split
  · next hf =>
    have he : r.evidenceCount = r.limits.maxEvidenceHistory := Nat.le_antisymm h.bounded hf
    have hiff := evictIfNeeded_full h.counted he
    rw [evictIfNeeded_limits]
    constructor
    · intro hge
      refine ⟨hf, ?_⟩
      by_contra hn
      have := hiff.mpr hn
      omega
    · intro hs
      by_contra hlt
      exact hiff.mp (by omega) hs.nothingEvictable
  · next hf => exact ⟨fun hge => (hf hge).elim, fun hs => hs.full⟩

theorem makeRoom_keys_of_saturated (h : r.Saturated) : r.makeRoom.keys = r.keys := by
  unfold makeRoom
  rw [if_pos h.full]
  exact (evictIfNeeded_of_nothingEvictable h.nothingEvictable).1

theorem saturated_congr (hl : r'.limits = r.limits) (hg : r'.globalOrder = r.globalOrder)
    (hc : r'.evidenceCount = r.evidenceCount)
    (hk : ∀ id, recordsAt r'.keys id = recordsAt r.keys id) : r'.Saturated ↔ r.Saturated := by
  have hn := nothingEvictable_congr hl hg hk
  constructor
  · rintro ⟨hf, he⟩
    exact ⟨by rw [hl, hc] at hf; exact hf, hn.mp he⟩
  · rintro ⟨hf, he⟩
    exact ⟨by rw [hl, hc]; exact hf, hn.mpr he⟩

theorem saturated_opens (h : Opens r record key r') : r'.Saturated ↔ r.Saturated := by
  cases h with
  | existing _ known => exact Iff.rfl
  | created unknown room =>
    refine saturated_congr rfl rfl rfl fun id => ?_
    have hk : ((r.touchDeviceKeys record.device).createKey record).keys =
        r.keys.insert (keyOf record) { schema := record.schema } :=
      OrdMap.insertIfNew_of_none _ unknown
    unfold recordsAt
    rw [hk, OrdMap.getElem?_insert_eq]
    split
    · next he => simp [← he, unknown]
    · rfl

theorem saturated_bumped (device : DeviceState) (h : r.keys[keyOf record]? = some key) :
    (r.bumped key record device).Saturated ↔ r.Saturated := by
  refine saturated_congr rfl rfl rfl fun id => ?_
  simp only [recordsAt, bumped, OrdMap.getElem?_insert_eq]
  split
  · next he =>
    rw [← he, h]
    rfl
  · rfl

end Impl

end Saturation

/-- What the registry knows of a capability key. -/
structure KeyKnowledge where
  schema : CapabilitySchemaId
  generation : CapabilityGeneration
  records : List StoredRecord

/-- What the registry knows of a publisher. A boot without a watermark stands at zero. -/
structure PublisherKnowledge where
  boot : PublisherBootId
  fencedBoots : Std.ExtTreeSet PublisherBootId
  lastSequence : UInt64
  maxEvidenceGeneration : EvidenceGeneration
  watermark : PublisherBootId → UInt64 × EvidenceGeneration

structure Knowledge where
  devices : Std.ExtTreeMap DeviceId DeviceState
  platforms : Std.ExtTreeMap PlatformId PlatformIdentity
  schemas : Std.ExtTreeMap CapabilitySchemaId CapabilitySchema
  capabilitySchemas : Std.ExtTreeMap CapabilityId CapabilitySchemaId
  families : Std.ExtTreeSet HardwareFamilyId
  models : Std.ExtTreeSet HardwareModelId
  architectures : Std.ExtTreeSet ArchitectureId
  keys : KeyId → Option KeyKnowledge
  deviceKeys : Std.ExtTreeMap DeviceId (Std.ExtTreeSet CapabilityId)
  quirks : Std.ExtTreeMap QuirkId QuirkRecord
  compatibility : Std.ExtTreeMap CompatibilityFactId CompatibilityFact
  publishers : PublisherId → Option PublisherKnowledge

def KeyState.knowledge (key : KeyState) : KeyKnowledge :=
  { schema := key.schema, generation := key.generation, records := key.records }

def PublisherStateInternal.knowledge (publisher : PublisherStateInternal) : PublisherKnowledge :=
  { boot := publisher.record.identity.boot
    fencedBoots := publisher.fencedBoots
    lastSequence := publisher.record.lastSequence
    maxEvidenceGeneration := publisher.record.maxEvidenceGeneration
    watermark := fun boot =>
      let watermark := (publisher.watermarks[boot]?).getD {}
      (watermark.maxSequence, watermark.maxEvidenceGeneration) }

namespace Impl

def knowledge (r : Impl) : Knowledge :=
  { devices := r.devices
    platforms := r.platforms
    schemas := r.schemas
    capabilitySchemas := r.capabilitySchemas
    families := r.families
    models := r.models
    architectures := r.architectures
    keys := fun id => (r.keys[id]?).map KeyState.knowledge
    deviceKeys := r.deviceKeys
    quirks := r.quirks
    compatibility := r.compatibility
    publishers := fun id => (r.publishers[id]?).map PublisherStateInternal.knowledge }

section Rejection
variable {r r' : Impl} {now : Timestamp} {publication q : Publication} {record : CapabilityRecord}
  {device : DeviceState} {key : KeyState} {publisher : PublisherStateInternal}
  {watermark : PublisherWatermark} {result : ApplyResult} {limits : RegistryLimits}

/-- Storing a watermark with the marks it was opened with adds no knowledge. -/
theorem knowledge_setWatermark
    (hb : ((publisher.watermarks[watermark.boot]?).getD {}).maxSequence = watermark.maxSequence)
    (hg : ((publisher.watermarks[watermark.boot]?).getD {}).maxEvidenceGeneration =
      watermark.maxEvidenceGeneration) :
    (setWatermark publisher watermark).knowledge = publisher.knowledge := by
  simp only [PublisherStateInternal.knowledge, setWatermark, PublisherKnowledge.mk.injEq,
    true_and]
  funext boot
  simp only [OrdMap.getElem?_insert_eq]
  split
  · next he =>
    subst he
    rw [hb, hg]
    rfl
  · rfl

theorem openWatermark_boot (publisher : PublisherStateInternal) (identity : PublisherIdentity) :
    (openWatermark publisher identity).boot = identity.boot := by
  unfold openWatermark
  dsimp only
  split <;> rfl

theorem openWatermark_maxSequence (publisher : PublisherStateInternal)
    (identity : PublisherIdentity) : (openWatermark publisher identity).maxSequence =
      ((publisher.watermarks[identity.boot]?).getD {}).maxSequence := by
  unfold openWatermark
  dsimp only
  split <;> rfl

theorem openWatermark_maxEvidenceGeneration (publisher : PublisherStateInternal)
    (identity : PublisherIdentity) : (openWatermark publisher identity).maxEvidenceGeneration =
      ((publisher.watermarks[identity.boot]?).getD {}).maxEvidenceGeneration := by
  unfold openWatermark
  dsimp only
  split <;> rfl

theorem knowledge_noteRejected (publisher : PublisherStateInternal) (identity : PublisherIdentity) :
    (noteRejected publisher (openWatermark publisher identity)).knowledge = publisher.knowledge := by
  have hb := openWatermark_boot publisher identity
  have hs := openWatermark_maxSequence publisher identity
  have hg := openWatermark_maxEvidenceGeneration publisher identity
  unfold noteRejected
  dsimp only
  refine (knowledge_setWatermark ?_ ?_).trans rfl
  · dsimp only
    rw [hb, hs]
  · dsimp only
    rw [hb, hg]

/-- A publisher may be replaced by one that is known as the same. -/
theorem knowledge_setPublisher {id : PublisherId} {publisher' : PublisherStateInternal}
    (h : r.publishers[id]? = some publisher) (hk : publisher'.knowledge = publisher.knowledge) :
    (r.setPublisher id publisher').knowledge = r.knowledge := by
  simp only [knowledge, setPublisher, Knowledge.mk.injEq, true_and]
  funext id'
  rw [OrdMap.getElem?_insert_eq]
  split
  · next he =>
    rw [← he, h, Option.map_some, Option.map_some, hk]
  · rfl

variable [StdLib]

theorem settle_knowledge (h : r.publishers[q.publisher.id]? = some publisher)
    (hr : result.accepted = false) :
    (r.settle publisher (openWatermark publisher q.publisher) q result).2.knowledge =
      r.knowledge := by
  unfold settle
  rw [if_neg (by simp [hr])]
  exact knowledge_setPublisher h (knowledge_noteRejected _ _)

theorem settle_accepted (r : Impl) (publisher : PublisherStateInternal)
    (watermark : PublisherWatermark) (q : Publication) (result : ApplyResult) :
    (r.settle publisher watermark q result).1.accepted = result.accepted := by
  unfold settle
  split <;> rfl

/-- What a record leaves behind although it is refused: the index entry of a device whose key
bound is reached, a new key, or the generation of a key whose evidence finds no room. -/
def Strands (r : Impl) (record : CapabilityRecord) (device : DeviceState) : Prop :=
  match r.keys[keyOf record]? with
  | none =>
    if (r.keyLimitReached record).isSome then r.deviceKeys[record.device]? = none
    else checkKey { schema := record.schema } record ≠ none ∨ r.Saturated
  | some key =>
    checkKey key record = none ∧ alreadyRecorded key (qualify record device) = false ∧
      r.Saturated ∧
        (bumpKey key (r.assignedGeneration key (qualify record device) device)).generation ≠
          key.generation

/-- A publication whose evidence reaches its key and strands there. -/
structure Stranded (r : Impl) (publication q : Publication) (publisher : PublisherStateInternal)
    (record : CapabilityRecord) (device : DeviceState) : Prop where
  addressed : Addressed r publication q publisher
  authority : r.Authorized publisher q
  verdict : sequenceVerdict publisher (openWatermark publisher q.publisher) q = none
  kind : q.kind.isCapability = true
  admitted : r.admitCapability q.capability = .ok (record, device)
  strands : r.Strands record device

omit [StdLib] in
theorem knowledge_ne_of_key {id : KeyId} (h : r.keys[id]? = none) (h' : r'.keys[id]? = some key) :
    r'.knowledge ≠ r.knowledge := by
  intro he
  have hk := congrFun (congrArg Knowledge.keys he) id
  simp [knowledge, h, h'] at hk

omit [StdLib] in
/-- In a saturated state the refused record leaves its key as bumped. -/
theorem knowledge_bumped_of_saturated (hs : (r.bumped key record device).Saturated)
    (hk : r.keys[keyOf record]? = some key) :
    (r.bumped key record device).makeRoom.knowledge = r.knowledge ↔
      (bumpKey key (r.assignedGeneration key (qualify record device) device)).generation =
        key.generation := by
  have hroom := makeRoom_keys_of_saturated hs
  have hb : (r.bumped key record device).makeRoom.knowledge =
      { r.knowledge with
        keys := fun id => ((r.bumped key record device).keys[id]?).map KeyState.knowledge } := by
    unfold makeRoom at hroom ⊢
    split
    · next hf =>
      rw [if_pos hf] at hroom
      simp only [knowledge, hroom]
      rfl
    · rfl
  rw [hb]
  simp only [knowledge, Knowledge.mk.injEq, true_and, and_true]
  constructor
  · intro h
    have hid := congrFun h (keyOf record)
    rw [bumped_key, hk] at hid
    simp only [Option.map_some, Option.some.injEq, KeyState.knowledge, KeyKnowledge.mk.injEq] at hid
    exact hid.2.1
  · intro h
    funext id
    simp only [bumped, OrdMap.getElem?_insert_eq]
    split
    · next he =>
      rw [← he, hk]
      simp only [Option.map_some, KeyState.knowledge, h]
      rfl
    · rfl

omit [StdLib] in
theorem knowledge_touchDeviceKeys_iff {id : DeviceId} :
    (r.touchDeviceKeys id).knowledge = r.knowledge ↔ r.deviceKeys[id]? ≠ none := by
  constructor
  · intro h hn
    have hd := congrArg (fun k => k.deviceKeys[id]?) h
    simp only [knowledge, touchDeviceKeys, OrdMap.getElem?_insertIfNew_eq, hn] at hd
    simp at hd
  · intro h
    obtain ⟨owned, ho⟩ := Option.ne_none_iff_exists'.mp h
    simp only [knowledge, touchDeviceKeys, OrdMap.insertIfNew_of_some _ ho]

omit [StdLib] in
theorem strands_of_known (h : r.keys[keyOf record]? = some key) :
    r.Strands record device ↔ checkKey key record = none ∧
      alreadyRecorded key (qualify record device) = false ∧ r.Saturated ∧
        (bumpKey key (r.assignedGeneration key (qualify record device) device)).generation ≠
          key.generation := by
  simp only [Strands, h]

omit [StdLib] in
theorem strands_of_unknown (h : r.keys[keyOf record]? = none)
    (hl : r.keyLimitReached record = none) : r.Strands record device ↔
      checkKey { schema := record.schema } record ≠ none ∨ r.Saturated := by
  simp only [Strands, h, hl, Option.isSome_none, Bool.false_eq_true, if_false]

omit [StdLib] in
/-- A record that stops short of its key strands by its index entry only. -/
theorem strands_of_keyLimit (h : r.keys[keyOf record]? = none)
    (hl : r.keyLimitReached record = some result) :
    r.Strands record device ↔ (r.touchDeviceKeys record.device).knowledge ≠ r.knowledge := by
  simp only [Strands, h, hl, Option.isSome_some, if_true, ne_eq, knowledge_touchDeviceKeys_iff,
    not_not]

omit [StdLib] in
theorem strands_of_ungoverned (ho : Opens r record key r') (hc : checkKey key record = some result) :
    r.Strands record device ↔ r'.knowledge ≠ r.knowledge := by
  cases ho with
  | existing _ known => simp [strands_of_known known, hc]
  | created unknown room =>
    have hkey := opens_key (.created unknown room : Opens r record _ _)
    simp [strands_of_unknown unknown room, hc, knowledge_ne_of_key unknown hkey]

omit [StdLib] in
theorem not_strands_of_repeated (ho : Opens r record key r')
    (hr : alreadyRecorded key (qualify record device) = true) : ¬ r.Strands record device := by
  cases ho with
  | existing _ known => simp [strands_of_known known, hr]
  | created unknown room => simp [alreadyRecorded, slotLatest] at hr

omit [StdLib] in
theorem strands_of_saturated (hf : Fresh r record device key r') (hs : r.Saturated) :
    r.Strands record device ↔ (r'.bumped key record device).makeRoom.knowledge ≠ r.knowledge := by
  obtain ⟨ho, hc, hr⟩ := hf
  have hkey := opens_key ho
  have hsb := (saturated_bumped device hkey).mpr ((saturated_opens ho).mpr hs)
  cases ho with
  | existing _ known =>
    simp [strands_of_known known, hc, hr, hs, knowledge_bumped_of_saturated hsb known]
  | created unknown room =>
    have hk : (bumped _ _ record device).makeRoom.keys[keyOf record]? = _ :=
      (congrArg (fun keys => keys[keyOf record]?) (makeRoom_keys_of_saturated hsb)).trans bumped_key
    simp [strands_of_unknown unknown room, hs, knowledge_ne_of_key unknown hk]

omit [StdLib] in
theorem not_strands_of_room (hf : Fresh r record device key r') (hs : ¬ r.Saturated) :
    ¬ r.Strands record device := by
  obtain ⟨ho, hc, hr⟩ := hf
  cases ho with
  | existing _ known => simp [strands_of_known known, hs]
  | created unknown room => simp [strands_of_unknown unknown room, hc, hs]

omit [StdLib] in
/-- A record strands exactly when it is refused and leaves something behind. -/
theorem strands_iff_of_evidenced (ha : r.Accounted) {out : ApplyResult × Impl}
    (he : Evidenced r q out) (hadm : r.admitCapability q.capability = .ok (record, device)) :
    r.Strands record device ↔ out.1.accepted = false ∧ out.2.knowledge ≠ r.knowledge := by
  cases he with
  | inadmissible result refusal refused => simp [hadm] at refusal
  | keyLimit record' device' result admitted unknown limit refused =>
    obtain ⟨rfl, rfl⟩ := Prod.mk.inj (Except.ok.inj (hadm.symm.trans admitted))
    simp [strands_of_keyLimit unknown limit, refused]
  | ungoverned record' device' key r' result admitted opens refusal refused =>
    obtain ⟨rfl, rfl⟩ := Prod.mk.inj (Except.ok.inj (hadm.symm.trans admitted))
    simp [strands_of_ungoverned opens refusal, refused]
  | repeated record' device' key r' result admitted opens governed recorded accepted unmutated =>
    obtain ⟨rfl, rfl⟩ := Prod.mk.inj (Except.ok.inj (hadm.symm.trans admitted))
    simp [not_strands_of_repeated opens recorded, accepted]
  | saturated record' device' key r' result admitted fresh full refused =>
    obtain ⟨rfl, rfl⟩ := Prod.mk.inj (Except.ok.inj (hadm.symm.trans admitted))
    have hkey := opens_key fresh.opens
    have hsb := (makeRoom_full_iff ((ha.opens fresh.opens).bumped device hkey)).mp full
    have hs := (saturated_opens fresh.opens).mp ((saturated_bumped device hkey).mp hsb)
    simp [strands_of_saturated fresh hs, refused]
  | recorded record' device' key r' result admitted fresh room accepted mutated =>
    obtain ⟨rfl, rfl⟩ := Prod.mk.inj (Except.ok.inj (hadm.symm.trans admitted))
    have hkey := opens_key fresh.opens
    have hs : ¬ r.Saturated := by
      intro hs
      have hsb := (saturated_bumped device hkey).mpr ((saturated_opens fresh.opens).mpr hs)
      have := (makeRoom_full_iff ((ha.opens fresh.opens).bumped device hkey)).mpr hsb
      omega
    simp [not_strands_of_room fresh hs, accepted]

omit [StdLib] in
theorem Addressed.unique {q' : Publication} {publisher' : PublisherStateInternal}
    (h : Addressed r publication q publisher) (h' : Addressed r publication q' publisher') :
    q' = q ∧ publisher' = publisher := by
  obtain rfl := Except.ok.inj (h'.prepared.symm.trans h.prepared)
  exact ⟨rfl, Option.some.inj (h'.registered.symm.trans h.registered)⟩

/-- Evidence refused after it touched the key it is for. -/
def LeavesTrace (r : Impl) (publication : Publication) : Prop :=
  ∃ q publisher record device, Stranded r publication q publisher record device

/-- Past the sequence checks only evidence leaves a trace, and only when it strands. -/
theorem leavesTrace_iff_of_addressed (h : Addressed r publication q publisher)
    (ha : r.Authorized publisher q)
    (hv : sequenceVerdict publisher (openWatermark publisher q.publisher) q = none) :
    r.LeavesTrace publication ↔ q.kind.isCapability = true ∧
      ∃ record device, r.admitCapability q.capability = .ok (record, device) ∧
        r.Strands record device := by
  constructor
  · rintro ⟨q', publisher', record, device, hs⟩
    obtain ⟨rfl, rfl⟩ := h.unique hs.addressed
    exact ⟨hs.kind, record, device, hs.admitted, hs.strands⟩
  · rintro ⟨hk, record, device, hadm, hs⟩
    exact ⟨q, publisher, record, device, h, ha, hv, hk, hadm, hs⟩

omit [StdLib] in
/-- A refusal of any other payload leaves the registry as it was. -/
theorem refused_of_not_capability {out : ApplyResult × Impl} (h : Handled r q out)
    (hk : q.kind.isCapability = false) (hr : out.1.accepted = false) : out.2 = r := by
  cases h with
  | refused => rfl
  | unchanged => rfl
  | evidence out kind => simp [hk] at kind
  | deviceAdded result unknown room familyRoom kind accepted => simp [accepted] at hr
  | deviceUpdated result existing known kind accepted => simp [accepted] at hr
  | quirkPublished result kind impact generation room accepted => simp [accepted] at hr
  | quirkWithdrawn result existing kind known accepted => simp [accepted] at hr
  | factPublished result kind lhs rhs generation room accepted => simp [accepted] at hr
  | factWithdrawn result existing kind known accepted => simp [accepted] at hr

theorem settled_keeps_knowledge_iff (hacc : r.Accounted)
    (h : Addressed r publication q publisher) (ha : r.Authorized publisher q)
    (hv : sequenceVerdict publisher (openWatermark publisher q.publisher) q = none) :
    (((r.applyPayload q).2.settle publisher (openWatermark publisher q.publisher) q
        (r.applyPayload q).1).1.accepted = false →
      ((r.applyPayload q).2.settle publisher (openWatermark publisher q.publisher) q
        (r.applyPayload q).1).2.knowledge = r.knowledge) ↔ ¬ r.LeavesTrace publication := by
  have hpub : (r.applyPayload q).2.publishers[q.publisher.id]? = some publisher := by
    rw [(handled r q).sameAuthority.publishers]
    exact h.registered
  have hsettle : (r.applyPayload q).1.accepted = false →
      (((r.applyPayload q).2.settle publisher (openWatermark publisher q.publisher) q
        (r.applyPayload q).1).2.knowledge = (r.applyPayload q).2.knowledge) :=
    settle_knowledge hpub
  rw [settle_accepted, leavesTrace_iff_of_addressed h ha hv]
  cases hk : q.kind.isCapability with
  | false =>
    refine iff_of_true (fun hr => ?_) (by simp)
    rw [hsettle hr, refused_of_not_capability (handled r q) hk hr]
  | true =>
    have he := evidenced_applyPayload r hk
    simp only [true_and, not_exists, not_and]
    constructor
    · intro himp record device hadm hs
      obtain ⟨hr, hne⟩ := (strands_iff_of_evidenced hacc he hadm).mp hs
      exact hne ((hsettle hr).symm.trans (himp hr))
    · intro hns hr
      rw [hsettle hr]
      by_contra hne
      cases hadm : r.admitCapability q.capability with
      | ok admitted =>
        exact hns admitted.1 admitted.2 hadm ((strands_iff_of_evidenced hacc he hadm).mpr ⟨hr, hne⟩)
      | error refusal =>
        apply hne
        simp only [applyPayload_of_isCapability r hk, applyCapability, hadm]

/-- A refused publication keeps the knowledge of the registry exactly when its evidence does not
strand at its key. -/
theorem refused_keeps_knowledge_iff (h : Reachable limits r) :
    ((r.applyLocked now publication).1.accepted = false →
      (r.applyLocked now publication).2.knowledge = r.knowledge) ↔ ¬ r.LeavesTrace publication := by
  have hi := ingested r now publication
  generalize r.applyLocked now publication = out at hi
  cases hi with
  | shuttingDown result running refused =>
    refine iff_of_true (fun _ => rfl) ?_
    rintro ⟨q', publisher', record, device, hs⟩
    simp [hs.addressed.running] at running
  | unprepared result running unprepared =>
    refine iff_of_true (fun _ => rfl) ?_
    rintro ⟨q', publisher', record, device, hs⟩
    simp [hs.addressed.prepared] at unprepared
  | schema q running prepared kind =>
    refine iff_of_true (fun hr => ?_) ?_
    · unfold applySchema at hr ⊢
      split at hr
      · rfl
      · simp at hr
    · rintro ⟨q', publisher', record, device, hs⟩
      obtain rfl := Except.ok.inj (prepared.symm.trans hs.addressed.prepared)
      simpa [kind, PublicationKind.sequenced] using hs.addressed.kind
  | registration q running prepared kind =>
    refine iff_of_true (fun hr => ?_) ?_
    · have hr' : (r.registerPublisherLocked now q.publisher q.reason).1.accepted = false := hr
      simp only [applyRegistration, hr', Bool.false_eq_true, if_false,
        registerPublisherLocked_refused hr']
      rfl
    · rintro ⟨q', publisher', record, device, hs⟩
      obtain rfl := Except.ok.inj (prepared.symm.trans hs.addressed.prepared)
      simpa [kind, PublicationKind.sequenced] using hs.addressed.kind
  | unknownPublisher q result running prepared kind unregistered refused =>
    refine iff_of_true (fun _ => rfl) ?_
    rintro ⟨q', publisher', record, device, hs⟩
    obtain rfl := Except.ok.inj (prepared.symm.trans hs.addressed.prepared)
    simp [hs.addressed.registered] at unregistered
  | unauthorized q publisher result addressed refusal =>
    refine iff_of_true (fun _ => rfl) ?_
    rintro ⟨q', publisher', record, device, hs⟩
    obtain ⟨rfl, rfl⟩ := addressed.unique hs.addressed
    simp [authorityRefusal_eq_none_iff.mpr hs.authority] at refusal
  | repeated q publisher result addressed authority verdict accepted =>
    refine iff_of_true (fun hr => ?_) ?_
    · simp [accepted] at hr
    · rintro ⟨q', publisher', record, device, hs⟩
      obtain ⟨rfl, rfl⟩ := addressed.unique hs.addressed
      simp [hs.verdict] at verdict
  | unsequenced q publisher result addressed authority verdict refused =>
    refine iff_of_true (fun _ => ?_) ?_
    · exact knowledge_setPublisher addressed.registered (knowledge_noteRejected _ _)
    · rintro ⟨q', publisher', record, device, hs⟩
      obtain ⟨rfl, rfl⟩ := addressed.unique hs.addressed
      simp [hs.verdict] at verdict
  | handled q publisher addressed authority verdict =>
    exact settled_keeps_knowledge_iff (accounted_reachable h) addressed authority verdict

end Rejection

section Fixed

/-- The first evidence for a capability, sent with an explicit second generation. -/
def skippedGeneration : Publication :=
  Sample.evidence 2 { Sample.capability with capabilityGeneration := ⟨2⟩ }

theorem refused_keeps_knowledge_iff_skippedGeneration :
    letI := StdLib.reference
    let r := (Impl.fresh {}).run Sample.setup
    ((r.applyLocked Sample.now skippedGeneration).1.accepted = false →
      (r.applyLocked Sample.now skippedGeneration).2.knowledge = r.knowledge) ↔
        ¬ r.LeavesTrace skippedGeneration :=
  @refused_keeps_knowledge_iff _ _ _ {} StdLib.reference ⟨Sample.setup, rfl⟩

/-- The refused publication leaves a capability key behind. -/
theorem refused_publication_creates_key :
    letI := StdLib.reference
    ¬ ∀ (limits : RegistryLimits) (r : Impl) (now : Timestamp) (publication : Publication),
      Reachable limits r → (r.applyLocked now publication).1.accepted = false →
        (r.applyLocked now publication).2.knowledge = r.knowledge := by
  let := StdLib.reference
  intro h
  obtain ⟨hrefused, hb, ha⟩ :
      let r := (Impl.fresh {}).run Sample.setup
      let q := r.applyLocked Sample.now skippedGeneration
      q.1.accepted = false ∧ (r.keys[keyOf Sample.capability]?).isSome = false ∧
        (q.2.keys[keyOf Sample.capability]?).isSome = true := by
    rw [Impl.fresh_eq]
    decide +kernel
  have hk := h {} _ Sample.now skippedGeneration ⟨Sample.setup, rfl⟩ hrefused
  obtain ⟨key, hkey⟩ := Option.isSome_iff_exists.mp ha
  exact knowledge_ne_of_key (Option.isSome_eq_false_iff.mp hb |> Option.isNone_iff_eq_none.mp) hkey hk

end Fixed

end Impl

end CapabilityRegistry
