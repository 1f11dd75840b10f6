import CapabilityRegistry.Ledger
import CapabilityRegistry.Slots

/-! What an accepted publication of capability evidence leaves behind. -/
namespace CapabilityRegistry

/-- The slot the evidence of a publication takes: its sender's boot and its source class. -/
def sourceSlot (p : Publication) : Text := slotOf (Impl.bindPublisher p).capability

theorem isCapability_iff {kind : PublicationKind} : kind.isCapability = true ↔
    kind = .publishCapability ∨ kind = .withdrawCapability := by
  cases kind <;> simp [PublicationKind.isCapability]

namespace Impl
variable {r r' : Impl} {p q : Publication} {publisher publisher' : PublisherStateInternal}
  {id : KeyId} {s : StoredRecord} {record : CapabilityRecord} {device : DeviceState}

/-- A retained record is current for the registered device of its key. -/
def CurrentAt (r : Impl) (id : KeyId) (s : StoredRecord) : Prop :=
  ∃ device, r.devices[id.device]? = some device ∧ r.currentStaleness s device = .none

instance (r : Impl) (id : KeyId) (s : StoredRecord) : Decidable (r.CurrentAt id s) :=
  decidable_of_iff (∃ device ∈ r.devices[id.device]?, r.currentStaleness s device = .none) Iff.rfl

/-- Both states judge a record alike: they differ in what currency does not depend on. -/
structure SameJudgement (r r' : Impl) : Prop where
  limits : r'.limits = r.limits
  devices : r'.devices = r.devices
  epoch : r'.epoch = r.epoch
  authoritative : ∀ record, r'.publisherIsAuthoritative record = r.publisherIsAuthoritative record

theorem SameJudgement.computeStaleness (h : SameJudgement r r') (s : StoredRecord)
    (device : DeviceState) (target : DeviceGeneration) (targetIsCurrent : Bool) :
    r'.computeStaleness s device target targetIsCurrent =
      r.computeStaleness s device target targetIsCurrent := by
  simp only [Impl.computeStaleness, currentAxisFlags, h.epoch, h.authoritative]

theorem SameJudgement.currentStaleness (h : SameJudgement r r') (s : StoredRecord)
    (device : DeviceState) : r'.currentStaleness s device = r.currentStaleness s device :=
  h.computeStaleness s device device.generation true

theorem SameJudgement.currentAt (h : SameJudgement r r') : r'.CurrentAt id s ↔ r.CurrentAt id s := by
  simp only [CurrentAt, h.devices, h.currentStaleness]

/-- A publisher that keeps its standing keeps its say over every record. -/
theorem authoritative_setPublisher (known : r.publishers[p.publisher.id]? = some publisher)
    (same : SameStanding publisher publisher')
    (hr : r'.publishers = (r.setPublisher p.publisher.id publisher').publishers)
    (record : CapabilityRecord) :
    r'.publisherIsAuthoritative record = r.publisherIsAuthoritative record := by
  unfold publisherIsAuthoritative
  rw [hr, setPublisher_publishers]
  by_cases he : p.publisher.id = record.source.publisher.id
  · rw [if_pos he, ← he, known]
    simp only [same.identity, same.state, same.fencedBoots, same.publisherFenced]
  · rw [if_neg he]

section Preparation
variable [StdLib]

omit [StdLib] in
/-- The evidence that is ingested is the one that was sent, under its sender, a schema and the
normal form of its value. -/
theorem prepare_capability (hk : p.kind.isCapability = true) (h : r.prepare p = .ok q) :
    ∃ schema value, normalizeValue r.limits p.capability.value = .ok value ∧
      q.capability =
        { (bindPublisher p).capability with schema := schema, value := value } := by
  simp only [prepare, bind_eq_ok] at h
  obtain ⟨bound, hb, canonical, hc, hq⟩ := h
  obtain ⟨schema, rfl⟩ := bindSchema_eq_ok hb
  have hk' : (bindPublisher p).kind.isCapability = true := hk
  simp only [bindValue, hk', if_true] at hc
  split at hc
  · cases hc
  · next value hv =>
    obtain rfl := Except.ok.inj hc
    obtain ⟨rfl, -⟩ := checkPublication_eq_ok.mp hq
    exact ⟨schema, value, hv, rfl⟩

omit [StdLib] in
theorem prepare_target (hk : p.kind.isCapability = true) (h : r.prepare p = .ok q) :
    keyOf q.capability = keyOf p.capability ∧ slotOf q.capability = sourceSlot p := by
  obtain ⟨schema, value, -, he⟩ := prepare_capability hk h
  rw [he]
  exact ⟨rfl, rfl⟩

omit [StdLib] in
/-- Evidence is withdrawn exactly by the kind that withdraws it. -/
theorem prepare_withdrawn (hk : p.kind.isCapability = true) (h : r.prepare p = .ok q) :
    q.capability.withdrawn = (p.kind == .withdrawCapability) := by
  have hp := prepare_eq_ok h
  have hv := hp.valid
  simp only [validatePublication, status_bind_eq_ok, require_eq_ok] at hv
  have hv := hv.2.2.2.2
  rw [← hp.kind] at hk ⊢
  rcases isCapability_iff.mp hk with hq | hq <;>
    simp only [validatePublicationPayload, hq, status_bind_eq_ok, require_eq_ok, beq_iff_eq] at hv ⊢ <;>
    exact hv.1

end Preparation

/-- What an accepted publication of evidence did: it was answered as a duplicate of the last
accepted sequence, it repeated what its slot already states, or it was recorded. -/
inductive Published (r : Impl) (p : Publication) (r' : Impl) : Prop
  | duplicate (publisher : PublisherStateInternal)
      (known : r.publishers[p.publisher.id]? = some publisher)
      (spent : p.sequence = mark publisher p.publisher.boot) (keys : r'.keys = r.keys)
  | repeated (q : Publication) (publisher : PublisherStateInternal) (record : CapabilityRecord)
      (device : DeviceState) (key : KeyState) (addressed : Addressed r p q publisher)
      (authority : r.Authorized publisher q)
      (beyond : mark publisher p.publisher.boot < p.sequence)
      (admitted : r.admitCapability q.capability = .ok (record, device))
      (known : r.keys[keyOf p.capability]? = some key)
      (recorded : alreadyRecorded key (qualify record device) = true)
      (records : recordsAt r'.keys (keyOf p.capability) = recordsAt r.keys (keyOf p.capability))
  | stored (q : Publication) (publisher : PublisherStateInternal) (record : CapabilityRecord)
      (device : DeviceState) (generation : CapabilityGeneration) (mid : List StoredRecord)
      (addressed : Addressed r p q publisher) (authority : r.Authorized publisher q)
      (beyond : mark publisher p.publisher.boot < p.sequence)
      (admitted : r.admitCapability q.capability = .ok (record, device))
      (fresh : ∀ key : KeyState, r.keys[keyOf p.capability]? = some key →
        alreadyRecorded key (qualify record device) = false)
      (thins : Thins (recordsAt r.keys (keyOf p.capability)) mid)
      (thins' : Thins (supersede (sourceSlot p) mid ++ [r.storedAs record device generation])
        (recordsAt r'.keys (keyOf p.capability)))

theorem alreadyRecorded_empty (schema : CapabilitySchemaId) (record : CapabilityRecord) :
    alreadyRecorded { schema := schema } record = false := rfl

variable [StdLib]

omit [StdLib] in
theorem Evidenced.published {out : ApplyResult × Impl} (ha : r.Accounted) (h : Evidenced r q out)
    (hk : p.kind.isCapability = true) (addressed : Addressed r p q publisher)
    (authority : r.Authorized publisher q)
    (beyond : mark publisher p.publisher.boot < p.sequence) (hacc : out.1.accepted = true)
    (hr : r'.keys = out.2.keys) : Published r p r' := by
  obtain ⟨htarget, hslot⟩ := prepare_target hk addressed.prepared
  have hkey : ∀ {record device}, r.admitCapability q.capability = .ok (record, device) →
      keyOf record = keyOf p.capability ∧ slotOf record = sourceSlot p := by
    intro record device hadm
    obtain ⟨value, -, rfl⟩ := (admitCapability_eq_ok hadm).value
    exact ⟨htarget, hslot⟩
  cases h with
  | inadmissible result refusal refused => simp [refused] at hacc
  | keyLimit record device result admitted unknown limit refused => simp [refused] at hacc
  | ungoverned record device key r' result admitted opens refusal refused =>
    simp [refused] at hacc
  | saturated record device key r' result admitted fresh full refused => simp [refused] at hacc
  | repeated record device key r'' result admitted opens governed recorded =>
    obtain ⟨hkeyOf, -⟩ := hkey admitted
    have hrec : recordsAt r'.keys (keyOf p.capability) = recordsAt r.keys (keyOf p.capability) := by
      rw [hr]
      exact recordsAt_opens opens _
    cases opens with
    | existing key known =>
      exact .repeated q publisher record device key addressed authority beyond admitted
        (hkeyOf ▸ known) recorded hrec
    | created unknown room =>
      rw [alreadyRecorded_empty] at recorded
      cases recorded
  | recorded record device key r'' result admitted fresh room =>
    obtain ⟨hkeyOf, hslotOf⟩ := hkey admitted
    obtain ⟨-, -, mid, hthin, hthin'⟩ := fresh.stores ha
    rw [hkeyOf] at hthin hthin'
    refine .stored q publisher record device _ mid addressed authority beyond admitted ?_ hthin
      (hslotOf ▸ hr ▸ hthin')
    intro known hknown
    cases fresh.opens with
    | existing key known' =>
      rw [hkeyOf, hknown] at known'
      obtain rfl := Option.some.inj known'
      exact fresh.fresh
    | created unknown room =>
      rw [hkeyOf, hknown] at unknown
      cases unknown

/-- What the acceptance of a publication of evidence did, and that it changed no other record's
currency. -/
theorem published (ha : r.Accounted) (hk : p.kind.isCapability = true) (now : Timestamp)
    (hacc : (r.applyLocked now p).1.accepted = true) :
    Published r p (r.applyLocked now p).2 ∧ SameJudgement r (r.applyLocked now p).2 := by
  have hi := ingested r now p
  generalize r.applyLocked now p = out at hi hacc
  cases hi with
  | shuttingDown result running refused => simp [refused] at hacc
  | unprepared result running unprepared => simp [prepare_eq_error unprepared] at hacc
  | schema q running prepared kind =>
    simp [← (prepare_eq_ok prepared).kind, kind, PublicationKind.isCapability] at hk
  | registration q running prepared kind =>
    simp [← (prepare_eq_ok prepared).kind, kind, PublicationKind.isCapability] at hk
  | unknownPublisher q result running prepared kind unregistered refused => simp [refused] at hacc
  | unauthorized q publisher result addressed refusal =>
    simp [authorityRefusal_eq_some refusal] at hacc
  | unsequenced q publisher result addressed authority verdict refused => simp [refused] at hacc
  | repeated q publisher result addressed authority verdict accepted =>
    have hp := prepare_eq_ok addressed.prepared
    have hm := (eq_mark_of_verdict verdict accepted).1
    rw [hp.sequence, hp.publisher] at hm
    refine ⟨.duplicate publisher (hp.publisher ▸ addressed.registered) hm rfl, rfl, rfl, rfl, ?_⟩
    exact authoritative_setPublisher (hp.publisher ▸ addressed.registered)
      (sameStanding_setWatermark publisher (openWatermark publisher q.publisher))
      (by rw [hp.publisher]; rfl)
  | handled q publisher addressed authority verdict =>
    have hp := prepare_eq_ok addressed.prepared
    have hlt := mark_lt_of_verdict verdict
    rw [hp.sequence, hp.publisher] at hlt
    have hinv := settle_sameInventory (r.applyPayload q).2 publisher
      (openWatermark publisher q.publisher) q (r.applyPayload q).1
    have hsame := (Impl.handled r q).sameAuthority
    obtain ⟨publisher', hstand, hpub⟩ := settle_publishers (r.applyPayload q).2 publisher
      (openWatermark publisher q.publisher) q (r.applyPayload q).1
    rw [settle_accepted] at hacc
    have hkind : q.kind.isCapability = true := hp.kind ▸ hk
    have hev := evidenced_applyPayload r hkind
    refine ⟨hev.published ha hk addressed authority hlt hacc hinv.keys, ?_, ?_, ?_, ?_⟩
    · rw [hinv.limits, hsame.limits]
    · rw [hinv.devices, hev.devices]
    · rw [settle_epoch, hsame.epoch]
    · refine authoritative_setPublisher (hp.publisher ▸ addressed.registered) hstand ?_
      rw [hpub]
      simp only [setPublisher, hsame.publishers, hp.publisher]

end Impl

end CapabilityRegistry
