import CapabilityRegistry.Registration
import CapabilityRegistry.Rejections
import CapabilityRegistry.Retention

/-! When evidence is refused for want of room, and which superseded records stand in its way. -/
namespace CapabilityRegistry

namespace Impl
variable {r r' : Impl} {now : Timestamp} {p q : Publication} {record : CapabilityRecord}
  {device : DeviceState} {key : KeyState} {publisher : PublisherStateInternal}
  {watermark : PublisherWatermark} {result : ApplyResult} {limits : RegistryLimits}

section Reach
variable {id : KeyId} {s : StoredRecord}

/-- A superseded record that the scans of eviction can still find: its key holds more records than
a key may keep, or the queue still names its serial and it is the first of its key under it. -/
structure WithinReach (r : Impl) (id : KeyId) (s : StoredRecord) : Prop where
  retained : s ∈ recordsAt r.keys id
  superseded : supersededIn (recordsAt r.keys id) s = true
  found : sizeMul r.limits.maxEvidencePerCapability 8 < (recordsAt r.keys id).length ∨
    (⟨id, s.serial⟩ ∈ r.globalOrder ∧
      (recordsAt r.keys id).find? (fun t => t.serial == s.serial) = some s)

theorem find?_eq_getElem?_findIdx? {xs : List StoredRecord} {f : StoredRecord → Bool} :
    xs.find? f = some s ↔ ∃ i, xs.findIdx? f = some i ∧ xs[i]? = some s := by
  induction xs with
  | nil => simp
  | cons x rest ih =>
    by_cases hx : f x = true
    · simp [List.findIdx?_cons, hx]
    · simp only [List.find?_cons, hx, List.findIdx?_cons, ih]
      constructor
      · rintro ⟨i, hi, hs⟩
        exact ⟨i + 1, by simp [hi], hs⟩
      · rintro ⟨i, hi, hs⟩
        obtain ⟨j, hj, rfl⟩ := Option.map_eq_some_iff.mp hi
        exact ⟨j, hj, hs⟩

/-- Nothing can be evicted exactly when no superseded record is within reach. -/
theorem nothingEvictable_iff_reach : r.NothingEvictable ↔ ∀ id s, ¬ r.WithinReach id s := by
  rw [nothingEvictable_iff]
  constructor
  · rintro ⟨hlong, hqueue⟩ id s ⟨hs, hsup, hfound⟩
    have hnot : supersededIn (recordsAt r.keys id) s = false := by
      rcases hfound with hl | ⟨hq, hf⟩
      · exact hlong id hl s hs
      · obtain ⟨i, hi, hget⟩ := find?_eq_getElem?_findIdx?.mp hf
        exact evictableAt_eq_none_iff.mp (hqueue _ hq) i s hi hget
    rw [hnot] at hsup
    cases hsup
  · intro h
    refine ⟨fun id hl s hs => ?_, fun entry he => ?_⟩
    · by_contra hsup
      exact h id s ⟨hs, by simpa using hsup, .inl hl⟩
    · refine evictableAt_eq_none_iff.mpr fun i s hi hs => ?_
      by_contra hsup
      obtain ⟨hlt, hserial, -⟩ := List.findIdx?_eq_some_iff_getElem.mp hi
      rw [List.getElem?_eq_getElem hlt, Option.some.injEq] at hs
      subst hs
      have hser : (recordsAt r.keys entry.key)[i].serial = entry.serial := by simpa using hserial
      refine h entry.key _ ⟨List.getElem_mem hlt, by simpa using hsup, .inr ⟨?_, ?_⟩⟩
      · rw [hser]
        exact he
      · rw [hser]
        exact find?_eq_getElem?_findIdx?.mpr ⟨i, hi, List.getElem?_eq_getElem hlt⟩

end Reach

section Room

theorem registerPublisherLocked_not_backpressure (r : Impl) (now : Timestamp)
    (identity : PublisherIdentity) (adapter : Text) :
    (r.registerPublisherLocked now identity adapter).1.code ≠ .rejectedBackpressure := by
  unfold registerPublisherLocked
  dsimp only
  repeat' split
  all_goals simp

theorem applySchema_not_backpressure (r : Impl) (q : Publication) :
    (r.applySchema q).1.code ≠ .rejectedBackpressure := by
  unfold applySchema
  split
  · dsimp only
    split <;> simp
  · simp

/-- Evidence that passes every check but the one for room in the history. -/
structure Crowds [StdLib] (r : Impl) (p q : Publication) (publisher : PublisherStateInternal)
    (record : CapabilityRecord) (device : DeviceState) (key : KeyState) (r' : Impl) : Prop where
  addressed : Addressed r p q publisher
  authority : r.Authorized publisher q
  verdict : sequenceVerdict publisher (openWatermark publisher q.publisher) q = none
  kind : q.kind.isCapability = true
  admitted : r.admitCapability q.capability = .ok (record, device)
  fresh : Fresh r record device key r'

/-- The publication is valid evidence that takes a place in the history. -/
def NeedsRoom [StdLib] (r : Impl) (p : Publication) : Prop :=
  ∃ q publisher record device key r', Crowds r p q publisher record device key r'

theorem recordEvidence_backpressure_iff (ha : r.Accounted) (hk : r.keys[keyOf record]? = some key)
    (device : DeviceState) :
    (r.recordEvidence key record device).1.code = .rejectedBackpressure ↔
      alreadyRecorded key (qualify record device) = false ∧ r.Saturated := by
  have hfull := (makeRoom_full_iff (ha.bumped device hk)).trans (saturated_bumped device hk)
  have hout : (r.recordEvidence key record device).1.code =
      if alreadyRecorded key (qualify record device) then .acceptedIdempotent
      else if (r.bumped key record device).makeRoom.limits.maxEvidenceHistory ≤
          (r.bumped key record device).makeRoom.evidenceCount then .rejectedBackpressure
        else .accepted := by
    unfold recordEvidence
    dsimp only
    split
    · rfl
    · split
      · next hge => exact (if_pos hge).symm
      · next hlt => exact (if_neg hlt).symm
  rw [hout]
  by_cases hrec : alreadyRecorded key (qualify record device) = true
  · simp [hrec]
  · by_cases hsat : r.Saturated
    · simp [hrec, hfull.mpr hsat, hsat]
    · simp [hrec, mt hfull.mp hsat, hsat]

theorem applyCapability_backpressure_iff (ha : r.Accounted) (q : Publication) :
    (r.applyCapability q).1.code = .rejectedBackpressure ↔
      (∃ record device key r', r.admitCapability q.capability = .ok (record, device) ∧
        Fresh r record device key r') ∧ r.Saturated := by
  unfold applyCapability
  cases hadm : r.admitCapability q.capability with
  | error result =>
    have hc := admitCapability_error_code hadm
    refine iff_of_false (fun he => ?_) fun h => ?_
    · rw [show result.code = .rejectedBackpressure from he] at hc
      exact absurd hc (by decide)
    · obtain ⟨⟨record, device, key, r', hok, -⟩, -⟩ := h
      cases hok
  | ok found =>
    obtain ⟨record, device⟩ := found
    dsimp only
    generalize hopen : r.openKey record = opened
    obtain ⟨outcome, r'⟩ := opened
    have hunique : ∀ key r'', Opens r record key r'' → outcome = .ok key ∧ r' = r'' := by
      intro key r'' ho
      exact Prod.mk.inj (hopen.symm.trans (openKey_of_opens ho))
    cases outcome with
    | error result =>
      obtain ⟨-, hl, -⟩ := openKey_eq_error hopen rfl
      refine iff_of_false (fun he => ?_) fun h => ?_
      · rw [keyLimitReached_code hl] at he
        cases he
      · obtain ⟨⟨record', device', key, r'', hok, hf⟩, -⟩ := h
        obtain ⟨rfl, rfl⟩ := Prod.mk.inj (Except.ok.inj hok)
        exact absurd (hunique key r'' hf.opens).1 (by simp)
    | ok key =>
      have hopens : Opens r record key r' := openKey_eq_ok hopen rfl
      have hfresh : (∃ record' device' key' r'', Except.ok (ε := ApplyResult) (record, device) =
          .ok (record', device') ∧ Fresh r record' device' key' r'') ↔
          checkKey key record = none ∧ alreadyRecorded key (qualify record device) = false := by
        constructor
        · rintro ⟨record', device', key', r'', hok, hf⟩
          obtain ⟨rfl, rfl⟩ := Prod.mk.inj (Except.ok.inj hok)
          obtain ⟨hk, -⟩ := hunique key' r'' hf.opens
          obtain rfl := Except.ok.inj hk
          exact ⟨hf.governed, hf.fresh⟩
        · rintro ⟨hg, hf⟩
          exact ⟨record, device, key, r', rfl, hopens, hg, hf⟩
      rw [hfresh]
      dsimp only
      cases hcheck : checkKey key record with
      | some result =>
        have hc := checkKey_code hcheck
        refine iff_of_false (fun he => ?_) fun h => (by cases h.1.1)
        rw [show result.code = .rejectedBackpressure from he] at hc
        exact absurd hc (by decide)
      | none =>
        have hiff := recordEvidence_backpressure_iff (ha.opens hopens) (opens_key hopens) device
        refine hiff.trans ?_
        rw [saturated_opens hopens]
        simp

theorem applyPayload_backpressure_iff (ha : r.Accounted) (q : Publication) :
    (r.applyPayload q).1.code = .rejectedBackpressure ↔ q.kind.isCapability = true ∧
      (∃ record device key r', r.admitCapability q.capability = .ok (record, device) ∧
        Fresh r record device key r') ∧ r.Saturated := by
  have hcap := applyCapability_backpressure_iff ha q
  have hdevice := (by decide : ∀ code ∈ _, code ≠ ApplyCode.rejectedBackpressure) _
    (applyDevice_code r q)
  have hquirk := (by decide : ∀ code ∈ _, code ≠ ApplyCode.rejectedBackpressure) _
    (applyQuirk_code r q)
  have hcompatibility := (by decide : ∀ code ∈ _, code ≠ ApplyCode.rejectedBackpressure) _
    (applyCompatibility_code r q)
  unfold applyPayload
  cases hq : q.kind <;> simp [PublicationKind.isCapability, hcap, hdevice, hquirk, hcompatibility]

variable [StdLib]

theorem applySequenced_backpressure_iff (r : Impl) (publisher : PublisherStateInternal)
    (q : Publication) :
    (r.applySequenced publisher q).1.code = .rejectedBackpressure ↔ r.Authorized publisher q ∧
      sequenceVerdict publisher (openWatermark publisher q.publisher) q = none ∧
      (r.applyPayload q).1.code = .rejectedBackpressure := by
  have hauth : r.authorityRefusal publisher q = none ↔ _ := authorityRefusal_eq_none_iff
  unfold applySequenced
  cases href : r.authorityRefusal publisher q with
  | some refusal =>
    have hc := authorityRefusal_code href
    refine iff_of_false (fun he => ?_) fun h => ?_
    · rw [show refusal.code = .rejectedBackpressure from he] at hc
      exact absurd hc (by decide)
    · rw [hauth.mpr h.1] at href
      cases href
  | none =>
    dsimp only
    cases hv : sequenceVerdict publisher (openWatermark publisher q.publisher) q with
    | some verdict =>
      have hc := sequenceVerdict_code hv
      refine iff_of_false (fun he => ?_) fun h => (by cases h.2.1)
      have hcode : verdict.code = .rejectedBackpressure := by
        dsimp only at he
        split at he <;> exact he
      rw [hcode] at hc
      exact absurd hc (by decide)
    | none =>
      dsimp only
      rw [settle_code]
      simp [hauth.mp href]

/-- Only the payload of an addressed publication can meet backpressure. -/
theorem applyLocked_backpressure_iff (r : Impl) (now : Timestamp) (p : Publication) :
    (r.applyLocked now p).1.code = .rejectedBackpressure ↔ ∃ q publisher,
      Addressed r p q publisher ∧ (r.applySequenced publisher q).1.code = .rejectedBackpressure := by
  unfold applyLocked
  split
  · next hs =>
    refine iff_of_false (by simp) ?_
    rintro ⟨q, publisher, had, -⟩
    rw [had.running] at hs
    cases hs
  · next hs =>
    have hs : r.shuttingDown = false := by simpa using hs
    split
    · next result hp =>
      have hc := prepare_error_code hp
      refine iff_of_false (fun he => ?_) ?_
      · rw [show result.code = .rejectedBackpressure from he] at hc
        exact absurd hc (by decide)
      · rintro ⟨q, publisher, had, -⟩
        rw [had.prepared] at hp
        cases hp
    · next q hp =>
      have hsame : ∀ {q' publisher}, Addressed r p q' publisher → q' = q := fun had =>
        Except.ok.inj (had.prepared.symm.trans hp)
      split
      · next hk =>
        refine iff_of_false (applySchema_not_backpressure r q) ?_
        rintro ⟨q', publisher, had, -⟩
        have hkind := had.kind
        rw [hsame had, hk] at hkind
        cases hkind
      · next hk =>
        refine iff_of_false (registerPublisherLocked_not_backpressure r now _ _) ?_
        rintro ⟨q', publisher, had, -⟩
        have hkind := had.kind
        rw [hsame had, hk] at hkind
        cases hkind
      · next hn1 hn2 =>
        have hk : q.kind.sequenced = true := by
          cases hq : q.kind <;> first | rfl | exact absurd hq hn1 | exact absurd hq hn2
        split
        · next hu =>
          refine iff_of_false (by simp) ?_
          rintro ⟨q', publisher, had, -⟩
          have hreg := had.registered
          rw [hsame had, hu] at hreg
          cases hreg
        · next publisher hu =>
          constructor
          · intro he
            exact ⟨q, publisher, ⟨hs, hp, hk, hu⟩, he⟩
          · rintro ⟨q', publisher', had, he⟩
            obtain rfl := hsame had
            obtain rfl := Option.some.inj (had.registered.symm.trans hu)
            exact he

/-- Evidence is refused with backpressure exactly when it needs room in a saturated history. -/
theorem refused_for_room_iff (ha : r.Accounted) (now : Timestamp) (p : Publication) :
    (r.applyLocked now p).1.code = .rejectedBackpressure ↔ r.NeedsRoom p ∧ r.Saturated := by
  rw [applyLocked_backpressure_iff]
  constructor
  · rintro ⟨q, publisher, had, he⟩
    obtain ⟨hauth, hverdict, hpayload⟩ := (applySequenced_backpressure_iff r publisher q).mp he
    obtain ⟨hkind, ⟨record, device, key, r', hadm, hf⟩, hsat⟩ :=
      (applyPayload_backpressure_iff ha q).mp hpayload
    exact ⟨⟨q, publisher, record, device, key, r', had, hauth, hverdict, hkind, hadm, hf⟩, hsat⟩
  · rintro ⟨⟨q, publisher, record, device, key, r', h⟩, hsat⟩
    refine ⟨q, publisher, h.addressed, ?_⟩
    refine (applySequenced_backpressure_iff r publisher q).mpr ⟨h.authority, h.verdict, ?_⟩
    exact (applyPayload_backpressure_iff ha q).mpr
      ⟨h.kind, ⟨record, device, key, r', h.admitted, h.fresh⟩, hsat⟩

/-- Backpressure is answered only when every retained record is the newest of its slot, exactly
unless valid evidence finds a full history whose superseded records are all out of reach. -/
theorem backpressure_only_when_necessary (hr : Reachable limits r) (now : Timestamp)
    (p : Publication) :
    ((r.applyLocked now p).1.code = .rejectedBackpressure →
      r.limits.maxEvidenceHistory ≤ r.evidenceCount ∧
        ∀ id, ∀ s ∈ recordsAt r.keys id, supersededIn (recordsAt r.keys id) s = false) ↔
    (r.NeedsRoom p → r.limits.maxEvidenceHistory ≤ r.evidenceCount →
      (∃ id, ∃ s ∈ recordsAt r.keys id, supersededIn (recordsAt r.keys id) s = true) →
        ∃ id s, r.WithinReach id s) := by
  have hroom := refused_for_room_iff (reachable_slotted hr).1 now p
  constructor
  · rintro h hneeds hfull ⟨id, s, hs, hsup⟩
    by_contra hreach
    have hnothing : r.NothingEvictable := nothingEvictable_iff_reach.mpr fun id s hw =>
      hreach ⟨id, s, hw⟩
    have hnot := (h (hroom.mpr ⟨hneeds, hfull, hnothing⟩)).2 id s hs
    rw [hsup] at hnot
    cases hnot
  · intro h hcode
    obtain ⟨hneeds, hfull, hnothing⟩ := hroom.mp hcode
    refine ⟨hfull, fun id s hs => ?_⟩
    by_contra hsup
    obtain ⟨id', s', hw⟩ := h hneeds hfull ⟨id, s, hs, by simpa using hsup⟩
    exact nothingEvictable_iff_reach.mp hnothing id' s' hw

/-- Evidence from the hardware probe, the driver and the runtime, contradicting itself twice. -/
def contradictions : List Op :=
  let driver := { Sample.capability.source with
    sourceClass := .driverQuery, provenance := .realRuntimeProbe }
  Sample.setup ++
    [.apply Sample.now (Sample.evidence 2 Sample.capability),
      .apply Sample.now (Sample.evidence 3 { Sample.capability with source := driver }),
      .apply Sample.now (Sample.evidence 4
        { Sample.capability with source := driver, value := .boolean false }),
      .apply Sample.now (Sample.evidence 5 { Sample.capability with value := .boolean false })]

def runtimeEvidence : Publication :=
  Sample.evidence 6 { Sample.capability with
    source := { Sample.capability.source with
      sourceClass := .runtimeProbe, provenance := .realRuntimeProbe } }

omit [StdLib] in
/-- The queue entry of a record is consumed while the record is the newest of its slot; once it is
superseded nothing remembers it, and new evidence is refused for want of room. -/
theorem superseded_record_blocks_evidence :
    letI := StdLib.reference
    ¬ ∀ (limits : RegistryLimits) (r : Impl) (now : Timestamp) (p : Publication),
      Reachable limits r → (r.applyLocked now p).1.code = .rejectedBackpressure →
      r.limits.maxEvidenceHistory ≤ r.evidenceCount ∧
        ∀ id, ∀ s ∈ recordsAt r.keys id, supersededIn (recordsAt r.keys id) s = false := by
  let := StdLib.reference
  intro h
  have hfacts : let r := (Impl.fresh { maxEvidenceHistory := 3 }).run contradictions
      (r.applyLocked Sample.now runtimeEvidence).1.code = .rejectedBackpressure ∧
        ∃ s ∈ recordsAt r.keys (keyOf Sample.capability),
          supersededIn (recordsAt r.keys (keyOf Sample.capability)) s = true := by
    rw [Impl.fresh_eq]
    decide +kernel
  obtain ⟨r, hr, hrefused, s, hs, hsup⟩ : ∃ r, Reachable { maxEvidenceHistory := 3 } r ∧
      (r.applyLocked Sample.now runtimeEvidence).1.code = .rejectedBackpressure ∧
      ∃ s ∈ recordsAt r.keys (keyOf Sample.capability),
        supersededIn (recordsAt r.keys (keyOf Sample.capability)) s = true :=
    ⟨_, ⟨contradictions, rfl⟩, hfacts⟩
  have hnot := (h _ r Sample.now runtimeEvidence hr hrefused).2 _ s hs
  rw [hsup] at hnot
  cases hnot

omit [StdLib] in
theorem backpressure_only_when_necessary_probe :
    letI := StdLib.reference
    let r := (Impl.fresh {}).run Sample.setup
    ((r.applyLocked Sample.now (Sample.evidence 2 Sample.capability)).1.code =
        .rejectedBackpressure →
      r.limits.maxEvidenceHistory ≤ r.evidenceCount ∧
        ∀ id, ∀ s ∈ recordsAt r.keys id, supersededIn (recordsAt r.keys id) s = false) ↔
    (r.NeedsRoom (Sample.evidence 2 Sample.capability) →
      r.limits.maxEvidenceHistory ≤ r.evidenceCount →
      (∃ id, ∃ s ∈ recordsAt r.keys id, supersededIn (recordsAt r.keys id) s = true) →
        ∃ id s, r.WithinReach id s) :=
  @backpressure_only_when_necessary _ {} StdLib.reference ⟨Sample.setup, rfl⟩ Sample.now
    (Sample.evidence 2 Sample.capability)

omit [StdLib] in
/-- A registry that holds nothing has room. -/
example : letI := StdLib.reference
    ((Impl.fresh {}).applyLocked Sample.now (Sample.evidence 2 Sample.capability)).1.code ≠
      .rejectedBackpressure := by
  decide +kernel

end Room

end Impl

end CapabilityRegistry
