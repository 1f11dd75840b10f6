import CapabilityRegistry.Queries
import CapabilityRegistry.Arrivals

/-! The state revision as a change detector: what moves it, and what an unmoved one vouches for. -/
namespace CapabilityRegistry

namespace Impl
variable {r r' r'' : Impl} {device : DeviceState} {capability : CapabilityId}
  {pinned : DeviceGeneration} {environment : EnvironmentContext}

section Sight

/-- Both states hold everything alike that a query reads. -/
structure SameSight (r r' : Impl) : Prop where
  judgement : SameJudgement r r'
  schemas : r'.schemas = r.schemas
  keys : r'.keys = r.keys
  quirks : r'.quirks = r.quirks
  compatibility : r'.compatibility = r.compatibility
  owned : ∀ device, r'.ownedCapabilities device = r.ownedCapabilities device

theorem SameSight.refl (r : Impl) : SameSight r r :=
  ⟨SameJudgement.refl r, rfl, rfl, rfl, rfl, fun _ => rfl⟩

theorem SameSight.trans (h : SameSight r r') (h' : SameSight r' r'') : SameSight r r'' :=
  ⟨h.judgement.trans h'.judgement, h'.schemas.trans h.schemas, h'.keys.trans h.keys,
    h'.quirks.trans h.quirks, h'.compatibility.trans h.compatibility,
    fun device => (h'.owned device).trans (h.owned device)⟩

theorem sameSight_of_inventory (h : SameInventory r r') (he : r'.epoch = r.epoch)
    (ha : ∀ record, r'.publisherIsAuthoritative record = r.publisherIsAuthoritative record) :
    SameSight r r' := by
  refine ⟨⟨h.limits, h.devices, he, ha⟩, h.schemas, h.keys, h.quirks, h.compatibility,
    fun device => ?_⟩
  simp only [ownedCapabilities, h.deviceKeys]

theorem authoritative_congr (h : r'.publishers = r.publishers) (record : CapabilityRecord) :
    r'.publisherIsAuthoritative record = r.publisherIsAuthoritative record := by
  simp only [publisherIsAuthoritative, h]

/-- The calls that only count, or that open and close the registry, are out of sight. -/
theorem sameSight_of_publishers (h : SameInventory r r') (he : r'.epoch = r.epoch)
    (hp : r'.publishers = r.publishers) : SameSight r r' :=
  sameSight_of_inventory h he (authoritative_congr hp)

variable [StdLib]

theorem SameSight.resolve (h : SameSight r r') (device : DeviceState) (capability : CapabilityId)
    (pinned : DeviceGeneration) (environment : EnvironmentContext) :
    r'.resolve device capability pinned environment =
      r.resolve device capability pinned environment := by
  have hquirks : r'.gatherQuirks = r.gatherQuirks := by
    funext device capability environment
    exact gatherQuirks_congr h.judgement.limits h.quirks device capability environment
  have hflagged : r'.flagged = r.flagged := by
    funext key device target targetIsCurrent
    simp only [flagged, h.judgement.computeStaleness]
  have hstale : r'.resolveStale = r.resolveStale := by
    funext base key device records environment
    simp only [resolveStale, hquirks]
  have hcurrent : r'.resolveCurrent = r.resolveCurrent := by
    funext base key device records environment first rest
    simp only [resolveCurrent, hquirks]
  unfold Impl.resolve
  rw [h.keys, hflagged, hstale, hcurrent]

theorem SameSight.answer (h : SameSight r r') (device : DeviceState) (capability : CapabilityId)
    (pinned : DeviceGeneration) (environment : EnvironmentContext) :
    r'.answer device capability pinned environment =
      r.answer device capability pinned environment := by
  simp only [Impl.answer, h.resolve]

omit [StdLib] in
theorem SameSight.findDevice (h : SameSight r r') (id : DeviceId) :
    r'.findDevice id = r.findDevice id := by
  simp only [Impl.findDevice, h.judgement.devices]

omit [StdLib] in
theorem SameSight.resultLimit (h : SameSight r r') (maxResults : Nat) :
    r'.resultLimit maxResults = r.resultLimit maxResults := by
  simp only [Impl.resultLimit, h.judgement.limits]

/-- Every query gives the same answer in both states. -/
structure SameAnswers (r r' : Impl) : Prop where
  capability : ∀ query, r'.queryCapability query = r.queryCapability query
  capabilities : ∀ query, r'.queryCapabilities query = r.queryCapabilities query
  stale : ∀ query, r'.queryStale query = r.queryStale query
  quirks : ∀ query, r'.queryQuirks query = r.queryQuirks query
  compatibility : ∀ query, r'.queryCompatibility query = r.queryCompatibility query
  comparison : ∀ request, r'.compareDevices request = r.compareDevices request

/-- A query answers from what is in sight only. -/
theorem SameSight.answers (h : SameSight r r') : SameAnswers r r' := by
  constructor
  · intro query
    simp only [queryCapability, h.findDevice, h.answer]
  · intro query
    have hlisted : r'.listedCapability = r.listedCapability := by
      funext query device capability
      simp only [listedCapability, h.keys, h.schemas, h.answer]
    simp only [queryCapabilities, h.findDevice, h.resultLimit, hlisted, h.owned]
  · intro query
    have hlisted : r'.listedStale = r.listedStale := by
      funext query device capability
      simp only [listedStale, h.answer]
    simp only [queryStale, h.findDevice, h.resultLimit, hlisted, h.owned]
  · intro query
    have hfind : r'.findDevice = r.findDevice := funext h.findDevice
    simp only [queryQuirks, hfind, h.resultLimit, h.quirks]
  · intro query
    simp only [queryCompatibility, h.resultLimit, h.compatibility]
  · intro request
    have hcompare : r'.compareCapability = r.compareCapability := by
      funext request left right capability
      simp only [compareCapability, h.keys, h.resolve]
    simp only [compareDevices, h.findDevice, h.judgement.limits, hcompare, comparedCapabilities,
      h.owned]

end Sight

/-- The revision as a number, which wraps at `2 ^ 64` in the code. -/
def revision (r : Impl) : Nat := r.stateRevision.toNat

section Steps
variable {now : Timestamp} {publication q : Publication} {record : CapabilityRecord}
  {publisher : PublisherStateInternal} {key : KeyState} {result : ApplyResult} {op : Op}
  {limits : RegistryLimits}

theorem counts_of_touched (h : r'.stateRevision = r.stateRevision + 1)
    (hroom : r.revision + 1 < 2 ^ 64) : Machine.Counts revision SameSight r r' := by
  have hrev : r'.revision = r.revision + 1 := by
    have hmod : (r.stateRevision + 1).toNat = (r.stateRevision.toNat + 1) % 2 ^ 64 := by
      simp [UInt64.toNat_add]
    unfold revision at hroom ⊢
    rw [h, hmod]
    exact Nat.mod_eq_of_lt hroom
  exact .inl (by omega)

theorem counts_of_unseen (h : r'.stateRevision = r.stateRevision) (hs : SameSight r r') :
    Machine.Counts revision SameSight r r' :=
  .inr ⟨congrArg UInt64.toNat h, hs⟩

theorem sameSight_touchDeviceKeys (r : Impl) (device : DeviceId) :
    SameSight r (r.touchDeviceKeys device) := by
  refine ⟨⟨rfl, rfl, rfl, fun _ => rfl⟩, rfl, rfl, rfl, rfl, fun device' => ?_⟩
  simp only [ownedCapabilities, touchDeviceKeys, OrdMap.getElem?_insertIfNew_eq]
  by_cases he : device = device'
  · subst he
    rw [if_pos rfl]
    cases hd : r.deviceKeys[device]? with
    | none => rfl
    | some owned => rfl
  · rw [if_neg he]

theorem sameSight_makeRoom_of_saturated (h : r.Saturated) : SameSight r r.makeRoom := by
  have hkeys := makeRoom_keys_of_saturated h
  unfold makeRoom at hkeys ⊢
  split
  · next hfull =>
    rw [if_pos hfull] at hkeys
    exact ⟨⟨rfl, rfl, rfl, fun _ => rfl⟩, rfl, hkeys, rfl, rfl, fun _ => rfl⟩
  · exact SameSight.refl r

/-- What a query sees of a refused record: a key that was not there, or the new generation or
evidence mark of a key that had no room for it. -/
def Surfaces (r : Impl) (record : CapabilityRecord) (device : DeviceState) : Prop :=
  match r.keys[keyOf record]? with
  | none => r.keyLimitReached record = none ∧
      (checkKey { schema := record.schema } record ≠ none ∨ r.Saturated)
  | some key =>
    checkKey key record = none ∧ alreadyRecorded key (qualify record device) = false ∧
      r.Saturated ∧
        ((bumpKey key (r.assignedGeneration key (qualify record device) device)).generation ≠
          key.generation ∨ key.hasEvidence = false)

theorem surfaces_of_known (h : r.keys[keyOf record]? = some key) :
    r.Surfaces record device ↔ checkKey key record = none ∧
      alreadyRecorded key (qualify record device) = false ∧ r.Saturated ∧
        ((bumpKey key (r.assignedGeneration key (qualify record device) device)).generation ≠
          key.generation ∨ key.hasEvidence = false) := by
  simp only [Surfaces, h]

theorem surfaces_of_unknown (h : r.keys[keyOf record]? = none) :
    r.Surfaces record device ↔ r.keyLimitReached record = none ∧
      (checkKey { schema := record.schema } record ≠ none ∨ r.Saturated) := by
  simp only [Surfaces, h]

/-- A key that stands as the bump leaves it is not changed by it. -/
theorem bumped_of_unmoved (hk : r.keys[keyOf record]? = some key)
    (hg : (bumpKey key (r.assignedGeneration key (qualify record device) device)).generation =
      key.generation) (he : key.hasEvidence = true) : r.bumped key record device = r := by
  have hkey : bumpKey key (r.assignedGeneration key (qualify record device) device) = key := by
    generalize r.assignedGeneration key (qualify record device) device = generation at hg ⊢
    calc bumpKey key generation
        = { key with generation := (bumpKey key generation).generation, hasEvidence := true } := rfl
      _ = key := by rw [hg, ← he]
  unfold bumped
  rw [hkey, OrdMap.insert_of_some r.keys hk]

/-- Evidence that is refused, or repeats what is recorded, changes nothing in sight unless it
surfaces. -/
theorem Evidenced.sameSight {out : ApplyResult × Impl} (h : Evidenced r q out) (ha : r.Accounted)
    (hm : ¬ (out.1.accepted = true ∧ out.1.mutated = true))
    (hs : ∀ record device, r.admitCapability q.capability = .ok (record, device) →
      ¬ r.Surfaces record device) : SameSight r out.2 := by
  cases h with
  | inadmissible => exact SameSight.refl r
  | keyLimit record device result admitted unknown limit refused =>
    exact sameSight_touchDeviceKeys r record.device
  | ungoverned record device key r' result admitted opens refusal refused =>
    cases opens with
    | existing _ known => exact SameSight.refl r
    | created unknown room =>
      have hsurf : r.Surfaces record device :=
        (surfaces_of_unknown unknown).mpr ⟨room, .inl (by simp [refusal])⟩
      exact (hs record device admitted hsurf).elim
  | repeated record device key r' result admitted opens governed recorded accepted unmutated =>
    cases opens with
    | existing _ known => exact SameSight.refl r
    | created unknown room => simp [alreadyRecorded_empty] at recorded
  | saturated record device key r' result admitted fresh full refused =>
    have hkey := opens_key fresh.opens
    have hsb := (makeRoom_full_iff ((ha.opens fresh.opens).bumped device hkey)).mp full
    have hsat := (saturated_opens fresh.opens).mp ((saturated_bumped device hkey).mp hsb)
    obtain ⟨opens, governed, unrecorded⟩ := fresh
    cases opens with
    | existing _ known =>
      have hunmoved : r.bumped key record device = r := by
        by_contra hne
        refine hs record device admitted ((surfaces_of_known known).mpr
          ⟨governed, unrecorded, hsat, ?_⟩)
        by_contra hstill
        obtain ⟨hgen, hmark⟩ := not_or.mp hstill
        exact hne (bumped_of_unmoved known (not_not.mp hgen) (by simpa using hmark))
      rw [hunmoved]
      exact sameSight_makeRoom_of_saturated hsat
    | created unknown room =>
      have hsurf : r.Surfaces record device :=
        (surfaces_of_unknown unknown).mpr ⟨room, .inr hsat⟩
      exact (hs record device admitted hsurf).elim
  | recorded record device key r' result admitted fresh room accepted mutated =>
    exact (hm ⟨accepted, mutated⟩).elim

/-- The other handlers report every change they make. -/
theorem Handled.sameSight {out : ApplyResult × Impl} (h : Handled r q out) (ha : r.Accounted)
    (hm : ¬ (out.1.accepted = true ∧ out.1.mutated = true))
    (hs : q.kind.isCapability = true → ∀ record device,
      r.admitCapability q.capability = .ok (record, device) → ¬ r.Surfaces record device) :
    SameSight r out.2 := by
  cases h with
  | refused => exact SameSight.refl r
  | unchanged => exact SameSight.refl r
  | evidence out kind he => exact he.sameSight ha hm (hs kind)
  | deviceAdded result unknown room familyRoom kind accepted mutated =>
    exact (hm ⟨accepted, mutated⟩).elim
  | deviceUpdated result existing known kind accepted mutated => exact (hm ⟨accepted, mutated⟩).elim
  | quirkPublished result kind impact generation room accepted mutated =>
    exact (hm ⟨accepted, mutated⟩).elim
  | quirkWithdrawn result existing kind known accepted mutated =>
    exact (hm ⟨accepted, mutated⟩).elim
  | factPublished result kind lhs rhs generation room accepted mutated =>
    exact (hm ⟨accepted, mutated⟩).elim
  | factWithdrawn result existing kind known accepted mutated =>
    exact (hm ⟨accepted, mutated⟩).elim

variable [StdLib]

/-- The revision moves exactly with the mutations that are reported. -/
theorem settle_stateRevision (r : Impl) (publisher : PublisherStateInternal)
    (watermark : PublisherWatermark) (q : Publication) (result : ApplyResult) :
    (r.settle publisher watermark q result).2.stateRevision =
      if result.accepted = true ∧ result.mutated = true then r.stateRevision + 1
      else r.stateRevision := by
  unfold settle
  by_cases hacc : result.accepted = true
  · rw [if_pos hacc]
    by_cases hmut : result.mutated = true
    · rw [if_pos ⟨hacc, hmut⟩]
      simp only [hmut, if_true]
      split <;> rfl
    · rw [if_neg (fun h => hmut h.2)]
      simp only [hmut, Bool.false_eq_true, if_false]
      split <;> rfl
  · rw [if_neg hacc, if_neg (fun h => hacc h.1)]
    rfl

/-- Booking a verdict is out of sight. -/
theorem settle_sameSight (h : r.publishers[q.publisher.id]? = some publisher)
    (watermark : PublisherWatermark) (result : ApplyResult) :
    SameSight r (r.settle publisher watermark q result).2 := by
  obtain ⟨publisher', hsame, hpub⟩ := settle_publishers r publisher watermark q result
  exact sameSight_of_inventory (settle_sameInventory r publisher watermark q result)
    (settle_epoch r publisher watermark q result) (authoritative_setPublisher h hsame hpub)

/-- A publication that is refused but leaves a trace a query sees. -/
structure Surfaced (r : Impl) (publication q : Publication) (publisher : PublisherStateInternal)
    (record : CapabilityRecord) (device : DeviceState) : Prop where
  addressed : Addressed r publication q publisher
  authority : r.Authorized publisher q
  verdict : sequenceVerdict publisher (openWatermark publisher q.publisher) q = none
  kind : q.kind.isCapability = true
  admitted : r.admitCapability q.capability = .ok (record, device)
  surfaces : r.Surfaces record device

def Unreported (r : Impl) (publication : Publication) : Prop :=
  ∃ q publisher record device, Surfaced r publication q publisher record device

/-- The counter has room, the evidence is not refused in sight, and an accepted file carries no
older revision than the registry. -/
structure Reports (r : Impl) (op : Op) : Prop where
  room : r.revision + 1 < 2 ^ 64
  evidence : ∀ now publication, op = .apply now publication → ¬ r.Unreported publication
  restored : ∀ state report r', op = .importDurableState state →
    r.importDurableState state = (.ok report, r') →
      r.stateRevision < state.header.stateRevision + 1

theorem counts_registerPublisherLocked (h : Reachable limits r) (hroom : r.revision + 1 < 2 ^ 64)
    (now : Timestamp) (identity : PublisherIdentity) (adapter : Text) :
    Machine.Counts revision SameSight r (r.registerPublisherLocked now identity adapter).2 := by
  have hr := registers r now identity adapter
  generalize r.registerPublisherLocked now identity adapter = out at hr
  cases hr with
  | refused => exact counts_of_unseen rfl (SameSight.refl r)
  | first => exact counts_of_touched rfl hroom
  | fresh => exact counts_of_touched rfl hroom
  | reaffirmed result state valid bounded known unfenced request live boot accepted assigned =>
    -- a standing publisher is registered already, so its records keep their authority
    have hregistered : state.record.state = .registered :=
      reachable_standing h identity.id state known unfenced (boot ▸ request) (boot ▸ live)
    refine counts_of_unseen rfl (sameSight_of_inventory (sameInventory_setPublisher _ _ _) rfl ?_)
    intro record
    simp only [publisherIsAuthoritative, setPublisher_publishers]
    by_cases he : identity.id = record.source.publisher.id
    · rw [if_pos he, ← he, known]
      simp only [reaffirm, hregistered]
    · rw [if_neg he]

theorem counts_handled (ha : r.Accounted) (hroom : r.revision + 1 < 2 ^ 64)
    (haddr : Addressed r publication q publisher) (hauth : r.Authorized publisher q)
    (hv : sequenceVerdict publisher (openWatermark publisher q.publisher) q = none)
    (hu : ¬ r.Unreported publication) :
    Machine.Counts revision SameSight r ((r.applyPayload q).2.settle publisher
      (openWatermark publisher q.publisher) q (r.applyPayload q).1).2 := by
  have hh := handled r q
  have hsame := hh.sameAuthority
  by_cases hm : (r.applyPayload q).1.accepted = true ∧ (r.applyPayload q).1.mutated = true
  · refine counts_of_touched ?_ hroom
    rw [settle_stateRevision, if_pos hm, hsame.stateRevision]
  · refine counts_of_unseen ?_ ?_
    · rw [settle_stateRevision, if_neg hm, hsame.stateRevision]
    · have hpub : (r.applyPayload q).2.publishers[q.publisher.id]? = some publisher := by
        rw [hsame.publishers]
        exact haddr.registered
      refine (hh.sameSight ha hm fun hk record device hadm hs => ?_).trans (settle_sameSight hpub _ _)
      exact hu ⟨q, publisher, record, device, haddr, hauth, hv, hk, hadm, hs⟩

theorem counts_applyLocked (h : Reachable limits r) (hroom : r.revision + 1 < 2 ^ 64)
    (hu : ¬ r.Unreported publication) :
    Machine.Counts revision SameSight r (r.applyLocked now publication).2 := by
  have hi := ingested r now publication
  generalize r.applyLocked now publication = out at hi
  cases hi with
  | shuttingDown => exact counts_of_unseen rfl (SameSight.refl r)
  | schema q running prepared kind =>
    unfold applySchema
    split
    · exact counts_of_unseen rfl (sameSight_of_publishers (sameInventory_countRejected r) rfl rfl)
    · next bound hb =>
      obtain ⟨-, -, -, -, rfl⟩ := registerCapabilitySchemaLocked_eq_ok hb
      exact counts_of_touched rfl hroom
  | registration q running prepared kind =>
    have hcounts := counts_registerPublisherLocked h hroom now q.publisher q.reason
    unfold applyRegistration
    dsimp only
    split
    · exact hcounts.trans (fun _ _ _ => SameSight.trans) (counts_of_unseen rfl
        (sameSight_of_publishers (sameInventory_countAccepted _) rfl rfl))
    · exact hcounts.trans (fun _ _ _ => SameSight.trans) (counts_of_unseen rfl
        (sameSight_of_publishers (sameInventory_countRejected _) rfl rfl))
  | repeated q publisher result addressed authority verdict accepted =>
    have hinv := (sameInventory_setPublisher r q.publisher.id
      (setWatermark publisher (openWatermark publisher q.publisher))).trans
        (sameInventory_countIdempotent _)
    exact counts_of_unseen rfl (sameSight_of_inventory hinv rfl (authoritative_setPublisher
      addressed.registered (sameStanding_setWatermark publisher _) rfl))
  | unsequenced q publisher result addressed authority verdict refused =>
    have hinv := (sameInventory_setPublisher r q.publisher.id
      (noteRejected publisher (openWatermark publisher q.publisher))).trans
        (sameInventory_countRejected _)
    exact counts_of_unseen rfl (sameSight_of_inventory hinv rfl (authoritative_setPublisher
      addressed.registered (sameStanding_noteRejected publisher _) rfl))
  | handled q publisher addressed authority verdict =>
    exact counts_handled (accounted_reachable h) hroom addressed authority verdict hu
  | _ => exact counts_of_unseen rfl (sameSight_of_publishers (sameInventory_countRejected r) rfl rfl)

/-- Every call that reports moves the revision with whatever it changes in sight. -/
theorem counts_after (h : Reachable limits r) (hop : r.Reports op) :
    Machine.Counts revision SameSight r (r.after op) := by
  have hroom := hop.room
  cases op with
  | registerCapabilitySchema schema =>
    simp only [after, step, registerCapabilitySchema]
    split
    · exact counts_of_unseen rfl (SameSight.refl r)
    · next bound hb =>
      obtain ⟨-, -, -, -, rfl⟩ := registerCapabilitySchemaLocked_eq_ok hb
      exact counts_of_touched rfl hroom
  | registerPublisher now identity adapter =>
    simp only [after, step, registerPublisher]
    split
    · exact counts_of_unseen rfl (SameSight.refl r)
    · exact counts_registerPublisherLocked h hroom now identity adapter
  | fencePublisher publisher reason =>
    simp only [after, step, fencePublisher]
    split
    · exact counts_of_unseen rfl (SameSight.refl r)
    · split
      · exact counts_of_unseen rfl (SameSight.refl r)
      · exact counts_of_touched rfl hroom
  | retirePublisherBoot publisher boot reason =>
    simp only [after, step, retirePublisherBoot]
    split
    · exact counts_of_unseen rfl (SameSight.refl r)
    · split
      · exact counts_of_unseen rfl (SameSight.refl r)
      · split
        · exact counts_of_unseen rfl (SameSight.refl r)
        · exact counts_of_touched rfl hroom
  | resetPublisherLiveness reason => exact counts_of_touched rfl hroom
  | apply now publication => exact counts_applyLocked h hroom (hop.evidence now publication rfl)
  | snapshot =>
    simp only [after, step, takeSnapshot]
    split
    · exact counts_of_unseen rfl (SameSight.refl r)
    · exact counts_of_unseen rfl (sameSight_of_publishers (by constructor <;> rfl) rfl rfl)
  | advanceCoordinatorEpoch => exact counts_of_touched rfl hroom
  | setCoordinatorEpoch epoch =>
    simp only [after, step, setCoordinatorEpoch]
    split
    · exact counts_of_unseen rfl (SameSight.refl r)
    · split
      · exact counts_of_unseen rfl (SameSight.refl r)
      · exact counts_of_touched rfl hroom
  | beginShutdown =>
    exact counts_of_unseen rfl (sameSight_of_publishers (by constructor <;> rfl) rfl rfl)
  | clearShutdown =>
    exact counts_of_unseen rfl (sameSight_of_publishers (by constructor <;> rfl) rfl rfl)
  | importDurableState state =>
    have hi : r.importDurableState state =
        ((r.importDurableState state).1, r.after (.importDurableState state)) := rfl
    cases ho : (r.importDurableState state).1 with
    | error e =>
      rw [ho] at hi
      obtain ⟨serial, hafter⟩ := importDurableState_eq_error hi
      rw [hafter]
      exact counts_of_unseen rfl ⟨⟨rfl, rfl, rfl, fun _ => rfl⟩, rfl, rfl, rfl, rfl, fun _ => rfl⟩
    | ok report =>
      rw [ho] at hi
      have hlt := hop.restored state report _ rfl hi
      obtain ⟨staged, -, -, hafter⟩ := importDurableState_eq_ok.mp hi
      rw [hafter]
      exact .inl (UInt64.lt_iff_toNat_lt.mp hlt)

/-- Between two points of a run with the same revision, reached by calls that report, every query
gives the same answer. -/
theorem revision_detects_changes (limits : RegistryLimits) (before between : List Op)
    (h : Machine.Along after Reports ((fresh limits).run before) between)
    (he : ((fresh limits).run (before ++ between)).stateRevision =
      ((fresh limits).run before).stateRevision) :
    SameAnswers ((fresh limits).run before) ((fresh limits).run (before ++ between)) := by
  have hrun : (fresh limits).run (before ++ between) = between.foldl after ((fresh limits).run before) :=
    List.foldl_append
  have hkeep : ∀ r op, Reachable limits r → Reports r op → Reachable limits (r.after op) :=
    fun r op hr _ => reachable_after hr op
  have hcount : ∀ r op, Reachable limits r → Reports r op →
      Machine.Counts revision SameSight r (r.after op) := fun r op hr hop => counts_after hr hop
  rw [hrun] at he ⊢
  exact SameSight.answers (h.detects ⟨before, rfl⟩ SameSight.refl (fun _ _ _ => SameSight.trans)
    hkeep hcount (congrArg UInt64.toNat he))

end Steps

section Fixed

/-- A snapshot and a shutdown that turns evidence away. -/
def quietCalls : List Op :=
  [.snapshot, .beginShutdown, .apply Sample.now (Sample.evidence 2 Sample.capability)]

theorem revision_detects_changes_quietCalls :
    letI := StdLib.reference
    SameAnswers ((Impl.fresh {}).run Sample.setup)
      ((Impl.fresh {}).run (Sample.setup ++ quietCalls)) := by
  let := StdLib.reference
  refine revision_detects_changes {} Sample.setup quietCalls ⟨?_, ?_, ?_, trivial⟩ (by decide)
  · exact ⟨by decide, fun _ _ h => (by cases h), fun _ _ _ h => (by cases h)⟩
  · exact ⟨by decide, fun _ _ h => (by cases h), fun _ _ _ h => (by cases h)⟩
  · refine ⟨by decide, fun now publication h => ?_, fun _ _ _ h => (by cases h)⟩
    rintro ⟨q, publisher, record, device, hs⟩
    have hrunning := hs.addressed.running
    cases hrunning

/-- Evidence that is refused because it skips a generation leaves its key known, and the revision
where it was. -/
theorem refused_publication_is_undetected :
    letI := StdLib.reference
    ¬ ∀ (limits : RegistryLimits) (before between : List Op),
      ((Impl.fresh limits).run (before ++ between)).stateRevision =
        ((Impl.fresh limits).run before).stateRevision →
      SameAnswers ((Impl.fresh limits).run before) ((Impl.fresh limits).run (before ++ between)) := by
  let := StdLib.reference
  intro h
  let query : CapabilityQuery :=
    { device := Id.parse "dev.a", capability := Id.parse "cap.compute.fp64" }
  obtain ⟨hrevision, hdiffer⟩ :
      let r := (Impl.fresh {}).run Sample.setup
      let r' := (Impl.fresh {}).run (Sample.setup ++ [.apply Sample.now skippedGeneration])
      r'.stateRevision = r.stateRevision ∧
        (r'.queryCapability query).toOption.map (fun a => a.known) ≠
          (r.queryCapability query).toOption.map fun a => a.known := by
    rw [Impl.fresh_eq]
    decide +kernel
  have hsame := h {} Sample.setup [.apply Sample.now skippedGeneration] hrevision
  exact hdiffer (congrArg (fun answer => answer.toOption.map fun a => a.known)
    (hsame.capability query))

end Fixed

end Impl

end CapabilityRegistry
