import CapabilityRegistry.Lib.Machine
import CapabilityRegistry.Operations

/-! What a publication can do to the registry: one case for each exit of the code. -/
namespace CapabilityRegistry

/-- The kinds that pass the publisher's authority and sequence checks. -/
def PublicationKind.sequenced : PublicationKind → Bool
  | .registerPublisher | .registerCapabilitySchema => false
  | _ => true

namespace Impl
variable {r : Impl} {now : Timestamp} {publication q : Publication}
  {publisher : PublisherStateInternal} {watermark : PublisherWatermark} {result : ApplyResult}

section Preparation

/-- How the ingested publication differs from the one that was sent. -/
structure Prepared (r : Impl) (publication q : Publication) : Prop where
  kind : q.kind = publication.kind
  publisher : q.publisher = publication.publisher
  sequence : q.sequence = publication.sequence
  evidenceGeneration : q.evidenceGeneration = publication.evidenceGeneration
  device : q.device = publication.device
  reason : q.reason = publication.reason
  payload : q.schema = publication.schema
  quirk : q.quirk =
    { publication.quirk with source.publisher := publication.publisher }
  compatibility : q.compatibility =
    { publication.compatibility with source.publisher := publication.publisher }
  source : q.capability.source =
    { publication.capability.source with publisher := publication.publisher }
  valid : validatePublication q r.limits = .ok ()

theorem bindSchema_eq_ok (h : r.bindSchema publication = .ok q) :
    ∃ schema, q = { publication with capability.schema := schema } := by
  unfold bindSchema at h
  split at h
  · split at h
    · cases h
    · next schema _ => exact ⟨schema, (Except.ok.inj h).symm⟩
  · exact ⟨publication.capability.schema, (Except.ok.inj h).symm⟩

theorem bindSchema_eq_error (h : r.bindSchema publication = .error result) :
    result.accepted = false := by
  unfold bindSchema at h
  split at h
  · split at h
    · obtain rfl := Except.error.inj h
      rfl
    · cases h
  · cases h

theorem bindValue_eq_ok (h : r.bindValue publication = .ok q) :
    ∃ value, q = { publication with capability.value := value } := by
  unfold bindValue at h
  split at h
  · split at h
    · cases h
    · next value _ => exact ⟨value, (Except.ok.inj h).symm⟩
  · exact ⟨publication.capability.value, (Except.ok.inj h).symm⟩

theorem bindValue_eq_error (h : r.bindValue publication = .error result) :
    result.accepted = false := by
  unfold bindValue at h
  split at h
  · split at h
    · obtain rfl := Except.error.inj h
      rfl
    · cases h
  · cases h

theorem checkPublication_eq_ok :
    r.checkPublication publication = .ok q ↔
      q = publication ∧ validatePublication publication r.limits = .ok () := by
  unfold checkPublication
  cases validatePublication publication r.limits with
  | error e => simp
  | ok u => simp [eq_comm]

theorem checkPublication_eq_error (h : r.checkPublication publication = .error result) :
    result.accepted = false := by
  unfold checkPublication at h
  split at h
  · obtain rfl := Except.error.inj h
    rfl
  · cases h

theorem prepare_eq_ok (h : r.prepare publication = .ok q) : Prepared r publication q := by
  simp only [prepare, bind_eq_ok] at h
  obtain ⟨bound, hb, canonical, hc, hq⟩ := h
  obtain ⟨schema, rfl⟩ := bindSchema_eq_ok hb
  obtain ⟨value, rfl⟩ := bindValue_eq_ok hc
  obtain ⟨hq, hv⟩ := checkPublication_eq_ok.mp hq
  subst hq
  exact ⟨rfl, rfl, rfl, rfl, rfl, rfl, rfl, rfl, rfl, rfl, hv⟩

theorem prepare_eq_error (h : r.prepare publication = .error result) :
    result.accepted = false := by
  simp only [prepare, bind_eq_error] at h
  rcases h with h | ⟨_, _, h | ⟨_, _, h⟩⟩
  · exact bindSchema_eq_error h
  · exact bindValue_eq_error h
  · exact checkPublication_eq_error h

end Preparation

section Authority

theorem authorityRefusal_eq_some (h : r.authorityRefusal publisher q = some result) :
    result.accepted = false := by
  unfold authorityRefusal at h
  dsimp only at h
  split at h
  · obtain rfl := Option.some.inj h
    rfl
  · split at h
    · obtain rfl := Option.some.inj h
      rfl
    · split at h
      · obtain rfl := Option.some.inj h
        rfl
      · split at h
        · obtain rfl := Option.some.inj h
          rfl
        · cases h

/-- What a publisher must satisfy to pass the authority checks. -/
structure Authorized (r : Impl) (publisher : PublisherStateInternal) (q : Publication) : Prop where
  unfenced : publisher.publisherFenced = false
  liveBoot : q.publisher.boot ∉ publisher.fencedBoots
  boot : publisher.record.identity.boot = q.publisher.boot
  epoch : q.publisher.epoch = r.epoch

theorem authorityRefusal_eq_none_iff :
    r.authorityRefusal publisher q = none ↔ r.Authorized publisher q := by
  unfold authorityRefusal
  dsimp only
  constructor
  · intro h
    split at h
    · cases h
    · next hf =>
      split at h
      · cases h
      · next hb =>
        split at h
        · cases h
        · next hi =>
          split at h
          · cases h
          · next he => exact ⟨by simpa using hf, by simpa using hb, by simpa using hi, by simpa using he⟩
  · rintro ⟨hf, hb, hi, he⟩
    simp [hf, hb, hi, he]

end Authority

section Entry
variable [StdLib]

/-- A publication that passed everything before the authority checks. -/
structure Addressed (r : Impl) (publication q : Publication) (publisher : PublisherStateInternal) :
    Prop where
  running : r.shuttingDown = false
  prepared : r.prepare publication = .ok q
  kind : q.kind.sequenced = true
  registered : r.publishers[q.publisher.id]? = some publisher

/-- The exits of the ingestion entry point. -/
inductive Ingested (r : Impl) (now : Timestamp) (publication : Publication) :
    ApplyResult × Impl → Prop
  | shuttingDown (result : ApplyResult) (running : r.shuttingDown = true)
      (refused : result.accepted = false) :
    Ingested r now publication (result, r)
  | unprepared (result : ApplyResult) (running : r.shuttingDown = false)
      (unprepared : r.prepare publication = .error result) :
    Ingested r now publication (result, r.countRejected)
  | schema (q : Publication) (running : r.shuttingDown = false)
      (prepared : r.prepare publication = .ok q) (kind : q.kind = .registerCapabilitySchema) :
    Ingested r now publication (r.applySchema q)
  | registration (q : Publication) (running : r.shuttingDown = false)
      (prepared : r.prepare publication = .ok q) (kind : q.kind = .registerPublisher) :
    Ingested r now publication (r.applyRegistration now q)
  | unknownPublisher (q : Publication) (result : ApplyResult) (running : r.shuttingDown = false)
      (prepared : r.prepare publication = .ok q) (kind : q.kind.sequenced = true)
      (unregistered : r.publishers[q.publisher.id]? = none) (refused : result.accepted = false) :
    Ingested r now publication (result, r.countRejected)
  | unauthorized (q : Publication) (publisher : PublisherStateInternal) (result : ApplyResult)
      (addressed : Addressed r publication q publisher)
      (refusal : r.authorityRefusal publisher q = some result) :
    Ingested r now publication (result, r.countRejected)
  | repeated (q : Publication) (publisher : PublisherStateInternal) (result : ApplyResult)
      (addressed : Addressed r publication q publisher)
      (authority : r.Authorized publisher q)
      (verdict : sequenceVerdict publisher (openWatermark publisher q.publisher) q = some result)
      (accepted : result.accepted = true) :
    Ingested r now publication (result, (r.setPublisher q.publisher.id
      (setWatermark publisher (openWatermark publisher q.publisher))).countIdempotent)
  | unsequenced (q : Publication) (publisher : PublisherStateInternal) (result : ApplyResult)
      (addressed : Addressed r publication q publisher)
      (authority : r.Authorized publisher q)
      (verdict : sequenceVerdict publisher (openWatermark publisher q.publisher) q = some result)
      (refused : result.accepted = false) :
    Ingested r now publication (result, (r.setPublisher q.publisher.id
      (noteRejected publisher (openWatermark publisher q.publisher))).countRejected)
  | handled (q : Publication) (publisher : PublisherStateInternal)
      (addressed : Addressed r publication q publisher)
      (authority : r.Authorized publisher q)
      (verdict : sequenceVerdict publisher (openWatermark publisher q.publisher) q = none) :
    Ingested r now publication ((r.applyPayload q).2.settle publisher
      (openWatermark publisher q.publisher) q (r.applyPayload q).1)

theorem ingested_applySequenced (h : Addressed r publication q publisher) :
    Ingested r now publication (r.applySequenced publisher q) := by
  unfold applySequenced
  split
  · next result hr => exact .unauthorized q publisher result h hr
  · next hr =>
    have ha := authorityRefusal_eq_none_iff.mp hr
    dsimp only
    split
    · next result hv =>
      split
      · next hacc => exact .repeated q publisher result h ha hv hacc
      · next hacc => exact .unsequenced q publisher result h ha hv (by simpa using hacc)
    · next hv => exact .handled q publisher h ha hv

theorem ingested (r : Impl) (now : Timestamp) (publication : Publication) :
    Ingested r now publication (r.applyLocked now publication) := by
  unfold applyLocked
  split
  · next hs => exact .shuttingDown _ hs rfl
  · next hs =>
    have hs : r.shuttingDown = false := by simpa using hs
    split
    · next result hp => exact .unprepared result hs hp
    · next q hp =>
      split
      · next hk => exact .schema q hs hp hk
      · next hk => exact .registration q hs hp hk
      · next hn1 hn2 =>
        have hk : q.kind.sequenced = true := by
          cases hq : q.kind <;> first | rfl | exact absurd hq hn1 | exact absurd hq hn2
        split
        · next hu => exact .unknownPublisher q _ hs hp hk hu rfl
        · next publisher hu => exact ingested_applySequenced ⟨hs, hp, hk, hu⟩

end Entry

section Payloads
variable {record : CapabilityRecord} {device : DeviceState} {key : KeyState} {r' : Impl}

/-- The key a record extends and the state in which it exists. -/
inductive Opens (r : Impl) (record : CapabilityRecord) : KeyState → Impl → Prop
  | existing (key : KeyState) (known : r.keys[keyOf record]? = some key) : Opens r record key r
  | created (unknown : r.keys[keyOf record]? = none) (room : r.keyLimitReached record = none) :
    Opens r record { schema := record.schema } ((r.touchDeviceKeys record.device).createKey record)

/-- A record that passed the checks against its key and does not repeat its slot. -/
structure Fresh (r : Impl) (record : CapabilityRecord) (device : DeviceState) (key : KeyState)
    (r' : Impl) : Prop where
  opens : Opens r record key r'
  governed : checkKey key record = none
  fresh : alreadyRecorded key (qualify record device) = false

/-- The record as it is stored, with its software qualification and generation. -/
def assigned (r : Impl) (key : KeyState) (record : CapabilityRecord) (device : DeviceState) :
    CapabilityRecord :=
  { qualify record device with
    capabilityGeneration := r.assignedGeneration key (qualify record device) device }

/-- The state once the generation of the key is settled. -/
def bumped (r : Impl) (key : KeyState) (record : CapabilityRecord) (device : DeviceState) : Impl :=
  { r with
    keys := r.keys.insert (keyOf record)
      (bumpKey key (r.assignedGeneration key (qualify record device) device)) }

/-- The exits of the handler of capability evidence. -/
inductive Evidenced (r : Impl) (q : Publication) : ApplyResult × Impl → Prop
  | inadmissible (result : ApplyResult) (refusal : r.admitCapability q.capability = .error result)
      (refused : result.accepted = false) : Evidenced r q (result, r)
  | keyLimit (record : CapabilityRecord) (device : DeviceState) (result : ApplyResult)
      (admitted : r.admitCapability q.capability = .ok (record, device))
      (unknown : r.keys[keyOf record]? = none) (limit : r.keyLimitReached record = some result)
      (refused : result.accepted = false) :
    Evidenced r q (result, r.touchDeviceKeys record.device)
  | ungoverned (record : CapabilityRecord) (device : DeviceState) (key : KeyState) (r' : Impl)
      (result : ApplyResult) (admitted : r.admitCapability q.capability = .ok (record, device))
      (opens : Opens r record key r') (refusal : checkKey key record = some result)
      (refused : result.accepted = false) : Evidenced r q (result, r')
  | repeated (record : CapabilityRecord) (device : DeviceState) (key : KeyState) (r' : Impl)
      (result : ApplyResult) (admitted : r.admitCapability q.capability = .ok (record, device))
      (opens : Opens r record key r') (governed : checkKey key record = none)
      (recorded : alreadyRecorded key (qualify record device) = true)
      (accepted : result.accepted = true) (unmutated : result.mutated = false) :
    Evidenced r q (result, r')
  | saturated (record : CapabilityRecord) (device : DeviceState) (key : KeyState) (r' : Impl)
      (result : ApplyResult) (admitted : r.admitCapability q.capability = .ok (record, device))
      (fresh : Fresh r record device key r')
      (full : (r'.bumped key record device).makeRoom.limits.maxEvidenceHistory ≤
        (r'.bumped key record device).makeRoom.evidenceCount)
      (refused : result.accepted = false) :
    Evidenced r q (result, (r'.bumped key record device).makeRoom)
  | recorded (record : CapabilityRecord) (device : DeviceState) (key : KeyState) (r' : Impl)
      (result : ApplyResult) (admitted : r.admitCapability q.capability = .ok (record, device))
      (fresh : Fresh r record device key r')
      (room : (r'.bumped key record device).makeRoom.evidenceCount <
        (r'.bumped key record device).makeRoom.limits.maxEvidenceHistory)
      (accepted : result.accepted = true) (mutated : result.mutated = true) :
    Evidenced r q (result, ((r'.bumped key record device).makeRoom.insertRecord
      (r'.assigned key record device)).evictIfNeeded)

theorem admitCapability_eq_error (h : r.admitCapability record = .error result) :
    result.accepted = false := by
  unfold admitCapability at h
  repeat' split at h
  all_goals first | cases h; done | (obtain rfl := Except.error.inj h; rfl)

theorem checkKey_eq_some (h : checkKey key record = some result) : result.accepted = false := by
  unfold checkKey at h
  repeat' split at h
  all_goals first | cases h; done | (obtain rfl := Option.some.inj h; rfl)

theorem keyLimitReached_eq_some (h : r.keyLimitReached record = some result) :
    result.accepted = false := by
  unfold keyLimitReached at h
  repeat' split at h
  all_goals first | cases h; done | (obtain rfl := Option.some.inj h; rfl)

@[simp] theorem keyLimitReached_touchDeviceKeys :
    (r.touchDeviceKeys record.device).keyLimitReached record = r.keyLimitReached record := by
  have hd : ((r.touchDeviceKeys record.device).deviceKeys[record.device]?).getD ∅ =
      (r.deviceKeys[record.device]?).getD ∅ := by
    simp only [touchDeviceKeys, OrdMap.getElem?_insertIfNew_eq]
    cases r.deviceKeys[record.device]? with
    | none => simp
    | some owned => simp
  simp only [keyLimitReached, hd]
  rfl

theorem openKey_eq_ok {opened : Except ApplyResult KeyState × Impl}
    (h : r.openKey record = opened) (hk : opened.1 = .ok key) : Opens r record key opened.2 := by
  subst h
  unfold openKey at hk ⊢
  split at hk
  · next known heq =>
    obtain rfl := Except.ok.inj hk
    exact .existing known heq
  · next heq =>
    simp only [keyLimitReached_touchDeviceKeys] at hk ⊢
    cases hl : r.keyLimitReached record with
    | some refusal => simp [hl] at hk
    | none =>
      simp only [hl] at hk ⊢
      obtain rfl := Except.ok.inj hk
      exact .created heq hl

theorem openKey_eq_error {opened : Except ApplyResult KeyState × Impl}
    (h : r.openKey record = opened) (hk : opened.1 = .error result) :
    r.keys[keyOf record]? = none ∧ r.keyLimitReached record = some result ∧
      opened.2 = r.touchDeviceKeys record.device := by
  subst h
  unfold openKey at hk ⊢
  split at hk
  · cases hk
  · next heq =>
    simp only [keyLimitReached_touchDeviceKeys] at hk ⊢
    cases hl : r.keyLimitReached record with
    | some refusal =>
      simp only [hl] at hk ⊢
      obtain rfl := Except.error.inj hk
      exact ⟨heq, rfl, trivial⟩
    | none => simp [hl] at hk

theorem evidenced (r : Impl) (q : Publication) : Evidenced r q (r.applyCapability q) := by
  unfold applyCapability
  split
  · next result ha => exact .inadmissible result ha (admitCapability_eq_error ha)
  · next record device ha =>
    split
    · next result r' ho =>
      obtain ⟨hu, hl, hr⟩ := openKey_eq_error ho rfl
      subst hr
      exact .keyLimit record device result ha hu hl (keyLimitReached_eq_some hl)
    · next key r' ho =>
      have hopens := openKey_eq_ok ho rfl
      split
      · next result hc =>
        exact .ungoverned record device key r' result ha hopens hc (checkKey_eq_some hc)
      · next hc =>
        unfold recordEvidence
        dsimp only
        split
        · next hrec => exact .repeated record device key r' _ ha hopens hc hrec rfl rfl
        · next hrec =>
          have hfresh : Fresh r record device key r' := ⟨hopens, hc, by simpa using hrec⟩
          split
          · next hfull => exact .saturated record device key r' _ ha hfresh hfull rfl
          · next hroom =>
            exact .recorded record device key r' _ ha hfresh (Nat.lt_of_not_le hroom) rfl rfl

theorem applyPayload_of_isCapability (r : Impl) (hk : q.kind.isCapability = true) :
    r.applyPayload q = r.applyCapability q := by
  unfold applyPayload
  unfold PublicationKind.isCapability at hk
  split at hk
  · next h => rw [h]
  · next h => rw [h]
  · cases hk

theorem evidenced_applyPayload (r : Impl) (hk : q.kind.isCapability = true) :
    Evidenced r q (r.applyPayload q) := by
  rw [applyPayload_of_isCapability r hk]
  exact evidenced r q

/-- The exits of the handlers of every sequenced publication. -/
inductive Handled (r : Impl) (q : Publication) : ApplyResult × Impl → Prop
  | refused (result : ApplyResult) (refused : result.accepted = false) : Handled r q (result, r)
  | unchanged (result : ApplyResult) (accepted : result.accepted = true)
      (unmutated : result.mutated = false) : Handled r q (result, r)
  | deviceAdded (result : ApplyResult) (unknown : r.devices[q.device.identity.id]? = none)
      (room : r.devices.size < r.limits.maxDevices)
      (familyRoom : (q.device.identity.hardware.family.valid &&
        r.families.size ≥ r.limits.maxFamilies &&
        !r.families.contains q.device.identity.hardware.family) = false)
      (kind : q.kind = .registerDevice ∨ q.kind = .publishDeviceGeneration)
      (accepted : result.accepted = true) (mutated : result.mutated = true) :
    Handled r q (result, (r.addDevice q.device).registerPlatform q.device.platform)
  | deviceUpdated (result : ApplyResult) (existing : DeviceState)
      (known : r.devices[q.device.identity.id]? = some existing)
      (kind : q.kind = .registerDevice ∨ q.kind = .publishDeviceGeneration)
      (accepted : result.accepted = true) (mutated : result.mutated = true) :
    Handled r q (result, registerPlatform
      { r with
        devices := r.devices.insert q.device.identity.id
          (updateDevice existing q.device (q.kind == .publishDeviceGeneration)) }
      q.device.platform)
  | evidence (out : ApplyResult × Impl) (kind : q.kind.isCapability = true)
      (evidenced : Evidenced r q out) : Handled r q out
  | quirkPublished (result : ApplyResult) (kind : q.kind = .publishQuirk)
      (impact : r.unknownImpact q.quirk = none) (generation : q.quirk.quirkGeneration.valid = true)
      (room : r.quirks[q.quirk.id]? = none → r.quirks.size < r.limits.maxQuirks)
      (accepted : result.accepted = true) (mutated : result.mutated = true) :
    Handled r q (result, { r with quirks := r.quirks.insert q.quirk.id q.quirk })
  | quirkWithdrawn (result : ApplyResult) (existing : QuirkRecord) (kind : q.kind = .withdrawQuirk)
      (known : r.quirks[q.quirk.id]? = some existing)
      (accepted : result.accepted = true) (mutated : result.mutated = true) :
    Handled r q (result,
      { r with
        quirks := r.quirks.insert q.quirk.id
          { existing with withdrawn := true, source := q.quirk.source } })
  | factPublished (result : ApplyResult) (kind : q.kind = .publishCompatibility)
      (lhs : r.referenceResolves q.compatibility.lhs = true)
      (rhs : r.referenceResolves q.compatibility.rhs = true)
      (generation : q.compatibility.compatibilityGeneration.valid = true)
      (room : r.compatibility[q.compatibility.id]? = none →
        r.compatibility.size < r.limits.maxCompatibilityFacts)
      (accepted : result.accepted = true) (mutated : result.mutated = true) :
    Handled r q (result,
      { r with compatibility := r.compatibility.insert q.compatibility.id q.compatibility })
  | factWithdrawn (result : ApplyResult) (existing : CompatibilityFact)
      (kind : q.kind = .withdrawCompatibility)
      (known : r.compatibility[q.compatibility.id]? = some existing)
      (accepted : result.accepted = true) (mutated : result.mutated = true) :
    Handled r q (result,
      { r with
        compatibility := r.compatibility.insert q.compatibility.id
          { existing with withdrawn := true, source := q.compatibility.source } })

theorem handled_applyDevice (hk : q.kind = .registerDevice ∨ q.kind = .publishDeviceGeneration) :
    Handled r q (r.applyDevice q) := by
  unfold applyDevice
  dsimp only
  split
  · next hu =>
    split
    · exact .refused _ rfl
    · next hd =>
      split
      · exact .refused _ rfl
      · next hf => exact .deviceAdded _ hu (Nat.lt_of_not_le hd) (by simpa using hf) hk rfl rfl
  · next existing hu => exact .deviceUpdated _ existing hu hk rfl rfl

theorem handled_applyQuirk (hk : q.kind = .publishQuirk ∨ q.kind = .withdrawQuirk) :
    Handled r q (r.applyQuirk q) := by
  unfold applyQuirk
  split
  · exact .refused _ rfl
  · next hi =>
    split
    · next hw =>
      have hw : q.kind = .withdrawQuirk := by simpa using hw
      unfold withdrawQuirk
      split
      · exact .refused _ rfl
      · next existing hu =>
        split
        · exact .unchanged _ rfl rfl
        · exact .quirkWithdrawn _ existing hw hu rfl rfl
    · next hw =>
      have hp : q.kind = .publishQuirk := hk.resolve_right (by simpa using hw)
      unfold publishQuirk
      split
      · exact .refused _ rfl
      · next hg =>
        have hg : q.quirk.quirkGeneration.valid = true := by simpa using hg
        split
        · next hu =>
          split
          · exact .refused _ rfl
          · next hs =>
            split
            · exact .refused _ rfl
            · rw [OrdMap.insertIfNew_of_none r.quirks hu]
              exact .quirkPublished _ hp hi hg (fun _ => Nat.lt_of_not_le hs) rfl rfl
        · next existing hu =>
          split
          · exact .refused _ rfl
          · split
            · split
              · exact .unchanged _ rfl rfl
              · exact .refused _ rfl
            · exact .quirkPublished _ hp hi hg (fun h => by simp [hu] at h) rfl rfl

theorem handled_applyCompatibility
    (hk : q.kind = .publishCompatibility ∨ q.kind = .withdrawCompatibility) :
    Handled r q (r.applyCompatibility q) := by
  unfold applyCompatibility
  dsimp only
  split
  · exact .refused _ rfl
  · next hl =>
    split
    · exact .refused _ rfl
    · next hr =>
      have hl : r.referenceResolves q.compatibility.lhs = true := by simpa using hl
      have hr : r.referenceResolves q.compatibility.rhs = true := by simpa using hr
      split
      · next hw =>
        have hw : q.kind = .withdrawCompatibility := by simpa using hw
        unfold withdrawCompatibility
        split
        · exact .refused _ rfl
        · next existing hu =>
          split
          · exact .unchanged _ rfl rfl
          · exact .factWithdrawn _ existing hw hu rfl rfl
      · next hw =>
        have hp : q.kind = .publishCompatibility := hk.resolve_right (by simpa using hw)
        unfold publishCompatibility
        split
        · exact .refused _ rfl
        · next hg =>
          have hg : q.compatibility.compatibilityGeneration.valid = true := by simpa using hg
          split
          · next hu =>
            split
            · exact .refused _ rfl
            · next hs =>
              split
              · exact .refused _ rfl
              · rw [OrdMap.insertIfNew_of_none r.compatibility hu]
                exact .factPublished _ hp hl hr hg (fun _ => Nat.lt_of_not_le hs) rfl rfl
          · next existing hu =>
            split
            · exact .refused _ rfl
            · split
              · split
                · exact .unchanged _ rfl rfl
                · exact .refused _ rfl
              · exact .factPublished _ hp hl hr hg (fun h => by simp [hu] at h) rfl rfl

theorem handled (r : Impl) (q : Publication) : Handled r q (r.applyPayload q) := by
  unfold applyPayload
  split
  · next hk => exact handled_applyDevice (.inl hk)
  · next hk => exact handled_applyDevice (.inr hk)
  · next hk => exact .evidence _ (by simp [PublicationKind.isCapability, hk]) (evidenced r q)
  · next hk => exact .evidence _ (by simp [PublicationKind.isCapability, hk]) (evidenced r q)
  · next hk => exact handled_applyQuirk (.inl hk)
  · next hk => exact handled_applyQuirk (.inr hk)
  · next hk => exact handled_applyCompatibility (.inl hk)
  · next hk => exact handled_applyCompatibility (.inr hk)
  · exact .unchanged _ rfl rfl
  · exact .refused _ rfl
  · exact .refused _ rfl

/-- Only the inventory and its indexes may differ. -/
structure SameAuthority (r r' : Impl) : Prop where
  limits : r'.limits = r.limits
  publishers : r'.publishers = r.publishers
  epoch : r'.epoch = r.epoch
  snapshotGeneration : r'.snapshotGeneration = r.snapshotGeneration
  stateRevision : r'.stateRevision = r.stateRevision
  shuttingDown : r'.shuttingDown = r.shuttingDown
  usage : r'.usage = r.usage

theorem SameAuthority.refl (r : Impl) : SameAuthority r r := ⟨rfl, rfl, rfl, rfl, rfl, rfl, rfl⟩

theorem SameAuthority.trans {r'' : Impl} (h : SameAuthority r r') (h' : SameAuthority r' r'') :
    SameAuthority r r'' :=
  ⟨h'.1.trans h.1, h'.2.trans h.2, h'.3.trans h.3, h'.4.trans h.4, h'.5.trans h.5, h'.6.trans h.6,
    h'.7.trans h.7⟩

theorem registerPlatform_sameAuthority (r : Impl) (platform : PlatformIdentity) :
    SameAuthority r (r.registerPlatform platform) := by
  unfold registerPlatform
  repeat' split
  all_goals constructor <;> rfl

theorem evictIfNeeded_sameAuthority (r : Impl) : SameAuthority r r.evictIfNeeded := by
  constructor <;> rfl

theorem makeRoom_sameAuthority (r : Impl) : SameAuthority r r.makeRoom := by
  unfold makeRoom
  split
  · exact evictIfNeeded_sameAuthority r
  · exact SameAuthority.refl r

theorem Opens.sameAuthority (h : Opens r record key r') : SameAuthority r r' := by
  cases h <;> constructor <;> rfl

theorem bumped_sameAuthority (r : Impl) (key : KeyState) (record : CapabilityRecord)
    (device : DeviceState) : SameAuthority r (r.bumped key record device) := by
  constructor <;> rfl

theorem insertRecord_sameAuthority (r : Impl) (record : CapabilityRecord) :
    SameAuthority r (r.insertRecord record) := by
  constructor <;> rfl

theorem Evidenced.sameAuthority {out : ApplyResult × Impl} (h : Evidenced r q out) :
    SameAuthority r out.2 := by
  cases h with
  | inadmissible => exact SameAuthority.refl r
  | keyLimit => constructor <;> rfl
  | ungoverned record device key r' result admitted opens => exact opens.sameAuthority
  | repeated record device key r' result admitted opens => exact opens.sameAuthority
  | saturated record device key r' result admitted fresh =>
    exact (fresh.opens.sameAuthority.trans (bumped_sameAuthority _ _ _ _)).trans
      (makeRoom_sameAuthority _)
  | recorded record device key r' result admitted fresh =>
    exact (((fresh.opens.sameAuthority.trans (bumped_sameAuthority _ _ _ _)).trans
      (makeRoom_sameAuthority _)).trans (insertRecord_sameAuthority _ _)).trans
        (evictIfNeeded_sameAuthority _)

/-- No payload handler touches a publisher, the epoch or a counter. -/
theorem Handled.sameAuthority {out : ApplyResult × Impl} (h : Handled r q out) :
    SameAuthority r out.2 := by
  cases h with
  | deviceAdded =>
    exact (show SameAuthority r (r.addDevice q.device) by constructor <;> rfl).trans
      (registerPlatform_sameAuthority _ _)
  | deviceUpdated result existing =>
    refine SameAuthority.trans ?_ (registerPlatform_sameAuthority _ _)
    constructor <;> rfl
  | evidence out kind he => exact he.sameAuthority
  | _ => constructor <;> rfl

end Payloads

section Registration
variable {identity : PublisherIdentity} {adapter : Text}

/-- The exits of a publisher's registration. -/
inductive Registers (r : Impl) (now : Timestamp) (identity : PublisherIdentity) (adapter : Text) :
    ApplyResult × Impl → Prop
  | refused (result : ApplyResult) (refused : result.accepted = false) :
    Registers r now identity adapter (result, r)
  | first (result : ApplyResult) (valid : identity.id.valid = true)
      (bounded : adapter.length ≤ r.limits.maxMetadataBytes)
      (unknown : r.publishers[identity.id]? = none)
      (room : r.publishers.size < r.limits.maxPublishers)
      (accepted : result.accepted = true)
      (assigned : result.assignedPublisher = (r.newPublisher now identity.id adapter).record.identity) :
    Registers r now identity adapter
      (result, (r.setPublisher identity.id (r.newPublisher now identity.id adapter)).touch)
  | fresh (result : ApplyResult) (state : PublisherStateInternal) (valid : identity.id.valid = true)
      (bounded : adapter.length ≤ r.limits.maxMetadataBytes)
      (known : r.publishers[identity.id]? = some state) (unfenced : state.publisherFenced = false)
      (request : identity.boot.valid = false) (accepted : result.accepted = true)
      (assigned : result.assignedPublisher = (r.freshBoot now adapter state).record.identity) :
    Registers r now identity adapter
      (result, (r.setPublisher identity.id (r.freshBoot now adapter state)).touch)
  | reaffirmed (result : ApplyResult) (state : PublisherStateInternal)
      (valid : identity.id.valid = true) (bounded : adapter.length ≤ r.limits.maxMetadataBytes)
      (known : r.publishers[identity.id]? = some state) (unfenced : state.publisherFenced = false)
      (request : identity.boot.valid = true) (live : identity.boot ∉ state.fencedBoots)
      (boot : state.record.identity.boot = identity.boot) (accepted : result.accepted = true)
      (assigned : result.assignedPublisher = (r.reaffirm adapter state).record.identity) :
    Registers r now identity adapter (result, r.setPublisher identity.id (r.reaffirm adapter state))

theorem registers (r : Impl) (now : Timestamp) (identity : PublisherIdentity) (adapter : Text) :
    Registers r now identity adapter (r.registerPublisherLocked now identity adapter) := by
  unfold registerPublisherLocked
  split
  · exact .refused _ rfl
  · next hv =>
    split
    · exact .refused _ rfl
    · next ha =>
      have hv : identity.id.valid = true := by simpa using hv
      have ha : adapter.length ≤ r.limits.maxMetadataBytes := by
        simp only [Bool.or_eq_true, not_or, Bool.not_eq_true', decide_eq_false_iff_not,
          Decidable.not_not] at ha
        exact ha.2
      split
      · next hu =>
        split
        · exact .refused _ rfl
        · next hs =>
          split
          · exact .refused _ rfl
          · exact .first _ hv ha hu (Nat.lt_of_not_le hs) rfl rfl
      · next state hu =>
        split
        · exact .refused _ rfl
        · next hf =>
          have hf : state.publisherFenced = false := by simpa using hf
          split
          · next hb => exact .fresh _ state hv ha hu hf (by simpa using hb) rfl rfl
          · next hb =>
            split
            · exact .refused _ rfl
            · next hl =>
              split
              · exact .refused _ rfl
              · next hi =>
                exact .reaffirmed _ state hv ha hu hf (by simpa using hb) (by simpa using hl)
                  (by simpa using hi) rfl rfl

theorem registerPublisherLocked_refused
    (h : (r.registerPublisherLocked now identity adapter).1.accepted = false) :
    (r.registerPublisherLocked now identity adapter).2 = r := by
  have hr := registers r now identity adapter
  generalize r.registerPublisherLocked now identity adapter = out at h hr
  cases hr with
  | refused => rfl
  | first result valid bounded unknown room accepted => simp [accepted] at h
  | fresh result state valid bounded known unfenced request accepted => simp [accepted] at h
  | reaffirmed result state valid bounded known unfenced request live boot accepted =>
    simp [accepted] at h

end Registration

section Calls
variable [StdLib] {r' r'' : Impl} {op : Op} {schema : CapabilitySchema} {state : DurableState}

/-- Only publishers, counters, the epoch and the shutdown flag may differ. -/
structure SameInventory (r r' : Impl) : Prop where
  limits : r'.limits = r.limits
  schemas : r'.schemas = r.schemas
  capabilitySchemas : r'.capabilitySchemas = r.capabilitySchemas
  devices : r'.devices = r.devices
  platforms : r'.platforms = r.platforms
  keys : r'.keys = r.keys
  deviceKeys : r'.deviceKeys = r.deviceKeys
  families : r'.families = r.families
  models : r'.models = r.models
  architectures : r'.architectures = r.architectures
  globalOrder : r'.globalOrder = r.globalOrder
  evidenceCount : r'.evidenceCount = r.evidenceCount
  nextSerial : r'.nextSerial = r.nextSerial
  quirks : r'.quirks = r.quirks
  compatibility : r'.compatibility = r.compatibility

omit [StdLib] in
theorem SameInventory.refl (r : Impl) : SameInventory r r :=
  ⟨rfl, rfl, rfl, rfl, rfl, rfl, rfl, rfl, rfl, rfl, rfl, rfl, rfl, rfl, rfl⟩

omit [StdLib] in
theorem SameInventory.trans (h : SameInventory r r') (h' : SameInventory r' r'') :
    SameInventory r r'' :=
  ⟨h'.1.trans h.1, h'.2.trans h.2, h'.3.trans h.3, h'.4.trans h.4, h'.5.trans h.5, h'.6.trans h.6,
    h'.7.trans h.7, h'.8.trans h.8, h'.9.trans h.9, h'.10.trans h.10, h'.11.trans h.11,
    h'.12.trans h.12, h'.13.trans h.13, h'.14.trans h.14, h'.15.trans h.15⟩

omit [StdLib] in
theorem sameInventory_setPublisher (r : Impl) (id : PublisherId) (state : PublisherStateInternal) :
    SameInventory r (r.setPublisher id state) := by constructor <;> rfl

omit [StdLib] in
theorem sameInventory_touch (r : Impl) : SameInventory r r.touch := by constructor <;> rfl

omit [StdLib] in
theorem sameInventory_countRejected (r : Impl) : SameInventory r r.countRejected := by
  constructor <;> rfl

omit [StdLib] in
theorem sameInventory_countAccepted (r : Impl) : SameInventory r r.countAccepted := by
  constructor <;> rfl

omit [StdLib] in
theorem sameInventory_countIdempotent (r : Impl) : SameInventory r r.countIdempotent := by
  constructor <;> rfl

omit [StdLib] in
theorem registerPublisherLocked_sameInventory (r : Impl) (now : Timestamp)
    (identity : PublisherIdentity) (adapter : Text) :
    SameInventory r (r.registerPublisherLocked now identity adapter).2 := by
  unfold registerPublisherLocked
  repeat' split
  all_goals constructor <;> rfl

theorem settle_sameInventory (r : Impl) (publisher : PublisherStateInternal)
    (watermark : PublisherWatermark) (q : Publication) (result : ApplyResult) :
    SameInventory r (r.settle publisher watermark q result).2 := by
  unfold settle
  split
  · have hb := (sameInventory_setPublisher r q.publisher.id
      (noteAccepted publisher watermark q)).trans (sameInventory_countAccepted _)
    have hi : SameInventory r (if result.code = .acceptedIdempotent then
        (r.setPublisher q.publisher.id (noteAccepted publisher watermark q)).countAccepted.countIdempotent
        else (r.setPublisher q.publisher.id (noteAccepted publisher watermark q)).countAccepted) := by
      split
      · exact hb.trans (sameInventory_countIdempotent _)
      · exact hb
    dsimp only
    split
    · exact hi.trans (sameInventory_touch _)
    · exact hi
  · exact (sameInventory_setPublisher _ _ _).trans (sameInventory_countRejected _)

/-- What one call does to the inventory. -/
inductive Changed (r : Impl) : Op → Impl → Prop
  | unchanged (op : Op) (r' : Impl) (same : SameInventory r r') : Changed r op r'
  | payload (now : Timestamp) (publication q : Publication) (publisher : PublisherStateInternal)
      (r' : Impl) (addressed : Addressed r publication q publisher)
      (authority : r.Authorized publisher q)
      (verdict : sequenceVerdict publisher (openWatermark publisher q.publisher) q = none)
      (same : SameInventory (r.applyPayload q).2 r') : Changed r (.apply now publication) r'
  | schema (op : Op) (schema : CapabilitySchema) (bound r' : Impl)
      (registered : r.registerCapabilitySchemaLocked schema = .ok bound)
      (same : SameInventory bound r') : Changed r op r'
  | imported (state : DurableState) (report : ImportReport) (r' : Impl)
      (accepted : r.importDurableState state = (.ok report, r')) :
    Changed r (.importDurableState state) r'
  | importRefused (state : DurableState) (e : Error) (r' : Impl)
      (refused : r.importDurableState state = (.error e, r')) :
    Changed r (.importDurableState state) r'

theorem changed_applyLocked (r : Impl) (now : Timestamp) (publication : Publication) :
    Changed r (.apply now publication) (r.applyLocked now publication).2 := by
  have h := ingested r now publication
  generalize r.applyLocked now publication = out at h
  cases h with
  | schema q running prepared kind =>
    unfold applySchema
    split
    · exact .unchanged _ _ (by constructor <;> rfl)
    · next bound hb => exact .schema _ _ bound _ hb (by constructor <;> rfl)
  | registration q running prepared kind =>
    refine .unchanged _ _ ?_
    have hs := registerPublisherLocked_sameInventory r now q.publisher q.reason
    unfold applyRegistration
    dsimp only
    split <;> exact ⟨hs.1, hs.2, hs.3, hs.4, hs.5, hs.6, hs.7, hs.8, hs.9, hs.10, hs.11, hs.12,
      hs.13, hs.14, hs.15⟩
  | handled q publisher addressed authority verdict =>
    exact .payload now publication q publisher _ addressed authority verdict
      (settle_sameInventory _ _ _ _ _)
  | _ => exact .unchanged _ _ (by constructor <;> rfl)

theorem changed (r : Impl) (op : Op) : Changed r op (r.after op) := by
  cases op with
  | registerCapabilitySchema schema =>
    simp only [after, step, registerCapabilitySchema]
    split
    · exact .unchanged _ _ (by constructor <;> rfl)
    · next bound hb => exact .schema _ _ bound _ hb (by constructor <;> rfl)
  | registerPublisher now identity adapter =>
    refine .unchanged _ _ ?_
    simp only [after, step, registerPublisher]
    split
    · exact SameInventory.refl _
    · exact registerPublisherLocked_sameInventory r now identity adapter
  | fencePublisher publisher reason =>
    refine .unchanged _ _ ?_
    simp only [after, step, fencePublisher]
    repeat' split
    all_goals constructor <;> rfl
  | retirePublisherBoot publisher boot reason =>
    refine .unchanged _ _ ?_
    simp only [after, step, retirePublisherBoot]
    repeat' split
    all_goals constructor <;> rfl
  | apply now publication => exact changed_applyLocked r now publication
  | snapshot =>
    refine .unchanged _ _ ?_
    simp only [after, step, takeSnapshot]
    split <;> constructor <;> rfl
  | setCoordinatorEpoch epoch =>
    refine .unchanged _ _ ?_
    simp only [after, step, setCoordinatorEpoch]
    repeat' split
    all_goals constructor <;> rfl
  | importDurableState state =>
    have hi : r.importDurableState state = ((r.importDurableState state).1, r.after (.importDurableState state)) := rfl
    cases ho : (r.importDurableState state).1 with
    | error e => exact .importRefused state e _ (by rw [hi, ho])
    | ok report => exact .imported state report _ (by rw [hi, ho])
  | _ => exact .unchanged _ _ (by constructor <;> rfl)

end Calls

end Impl

end CapabilityRegistry
