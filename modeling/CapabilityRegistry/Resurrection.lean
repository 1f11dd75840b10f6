import CapabilityRegistry.Lifetimes

/-! Stale evidence stays stale along runs that import nothing. -/
namespace CapabilityRegistry

section Observation
variable {record : CapabilityRecord} {device existing : DeviceState}
  {registration : DeviceRegistration} {explicitGeneration : Bool}

/-- The record was observed under no generation the device has yet to reach. -/
structure Observed (record : CapabilityRecord) (device : DeviceState) : Prop where
  generation : record.deviceGeneration ≤ device.generation
  driver : record.driverGeneration ≤ device.software.driverGeneration
  firmware : record.firmwareGeneration ≤ device.software.firmwareGeneration
  runtime : record.runtimeGeneration ≤ device.software.runtimeGeneration
  platform : record.platformGeneration ≤ device.platformGeneration

theorem Observed.follows {device' : DeviceState} (h : Observed record device)
    (hf : Follows device device') : Observed record device' :=
  ⟨Gen.le_trans h.generation hf.generation, Gen.le_trans h.driver hf.driver,
    Gen.le_trans h.firmware hf.firmware, Gen.le_trans h.runtime hf.runtime,
    Gen.le_trans h.platform hf.platform⟩

/-- The device still runs the runtime of the record, in a later generation. -/
structure RuntimeBehind (record : CapabilityRecord) (device : DeviceState) : Prop where
  identified : record.runtimeId.valid = true
  same : record.runtimeId = device.software.runtime.id
  passed : Passed record.runtimeGeneration device.software.runtimeGeneration

/-- The registration moves the device past the record on another axis than the runtime. -/
inductive Displaces (existing : DeviceState) (registration : DeviceRegistration)
    (explicitGeneration : Bool) (record : CapabilityRecord) : Prop
  | boundary (boundary : deviceBoundary existing registration explicitGeneration = true)
  | platform (observed : record.platformGeneration.valid = true)
      (moved : existing.identity.platform ≠ registration.identity.platform)
  | driver (observed : record.driverGeneration.valid = true)
      (identified : registration.software.driver.id.valid = true)
      (moved : existing.software.driver ≠ registration.software.driver)
  | firmware (observed : record.firmwareGeneration.valid = true)
      (identified : registration.software.firmware.id.valid = true)
      (moved : existing.software.firmware ≠ registration.software.firmware)

theorem Displaces.surpassed (h : Displaces existing registration explicitGeneration record)
    (ho : Observed record existing) (hu : Unwrapped existing registration explicitGeneration) :
    Surpassed record (updateDevice existing registration explicitGeneration) := by
  cases h with
  | boundary boundary =>
    have hlt : record.deviceGeneration <
        (updateDevice existing registration explicitGeneration).generation := by
      simp only [updateDevice, boundary, if_true]
      exact Gen.lt_of_le_of_lt ho.generation (Gen.lt_next (hu.generation boundary))
    exact .incarnation (Gen.le_of_lt hlt) fun he => (Gen.ne_of_lt hlt he).elim
  | platform observed moved =>
    refine .platform ⟨observed, ?_⟩
    simp only [updateDevice, if_pos moved]
    exact Gen.lt_of_le_of_lt ho.platform (Gen.lt_next (hu.platform moved))
  | driver observed identified moved =>
    refine .driver ⟨observed, Gen.lt_of_le_of_lt ho.driver ?_⟩
    refine lt_advanceGeneration ?_ ?_ (hu.driver identified moved)
    · simp [identified]
    · simp [identified, moved]
  | firmware observed identified moved =>
    refine .firmware ⟨observed, Gen.lt_of_le_of_lt ho.firmware ?_⟩
    refine lt_advanceGeneration ?_ ?_ (hu.firmware identified moved)
    · simp [identified]
    · simp [identified, moved]

end Observation

/-- A stored record as if it had been observed under no identified runtime. -/
def StoredRecord.apartFromRuntime (s : StoredRecord) : StoredRecord :=
  { s with record.runtimeId := default }

namespace Impl
variable {r r' : Impl} {op : Op} {s s' : StoredRecord} {device : DeviceState} {id : KeyId}
  {serial : Nat}

/-- A retained record points at what the registry knows, and at nothing ahead of it. -/
structure Tracked (r : Impl) (s : StoredRecord) : Prop where
  device : ∃ device, r.devices[s.record.device]? = some device ∧ Observed s.record device
  publisher : ∃ publisher, r.publishers[s.record.source.publisher.id]? = some publisher ∧
    s.record.source.publisher.boot ≤ publisher.record.identity.boot
  epoch : s.record.source.publisher.epoch ≤ r.epoch

/-- Every publisher holds a boot, and one that is not registered has lost it. -/
def Vested (r : Impl) : Prop :=
  ∀ (id : PublisherId) (p : PublisherStateInternal), r.publishers[id]? = some p →
    p.record.identity.boot.valid = true ∧
      (p.record.state = .registered ∨ p.publisherFenced = true ∨
        p.record.identity.boot ∈ p.fencedBoots)

theorem Tracked.kept (h : r.Tracked s) (hk : Kept s s') : r.Tracked s' :=
  ⟨hk.record ▸ h.device, hk.record ▸ h.publisher, hk.record ▸ h.epoch⟩

/-- A tracked record that is not current is outdated, or only behind on its runtime. -/
theorem Tracked.outdated_or_behind (h : r.Tracked s) (hv : r.Vested)
    (hd : r.devices[s.record.device]? = some device) (hc : ¬ r.Current s device) :
    r.Outdated s ∨ RuntimeBehind s.record device := by
  obtain ⟨device', hd', ho⟩ := h.device
  obtain rfl := Option.some.inj (hd.symm.trans hd')
  obtain ⟨p, hpub, hboot⟩ := h.publisher
  by_contra hn
  rw [not_or] at hn
  obtain ⟨hout, hrun⟩ := hn
  have hdev : ¬ Surpassed s.record device := fun hs => hout (.device device hd hs)
  have haxis : ∀ {Tag : Type} (observed current : Gen Tag), observed ≤ current →
      ¬ Passed observed current → axisChanged observed current = false := by
    intro Tag observed current hle hp
    by_contra hne
    exact hp (passed_of_axisChanged hle (Bool.eq_true_of_not_eq_false hne))
  have hpair : s.record.deviceGeneration = device.generation ∧
      s.record.deviceBoot = device.boot := by
    by_contra hne
    exact hdev (.incarnation ho.generation fun hg hb => hne ⟨hg, hb⟩)
  apply hc
  constructor
  · by_contra hne
    exact hout (.persistent hne)
  · by_contra hne
    exact hout (.withdrawn (Bool.eq_true_of_not_eq_false hne))
  · exact hpair.1
  · exact hpair.2
  · exact fun _ => haxis _ _ ho.driver fun hp => hdev (.driver hp)
  · exact fun _ => haxis _ _ ho.firmware fun hp => hdev (.firmware hp)
  · exact fun _ hid hsame => haxis _ _ ho.runtime fun hp => hrun ⟨hid, hsame, hp⟩
  · exact fun _ => haxis _ _ ho.platform fun hp => hdev (.platform hp)
  · intro _
    have hdis : ¬ Disowned s.record p := fun hd => hout (.publisher p hpub hd)
    have heq : p.record.identity.boot = s.record.source.publisher.boot := by
      by_contra hne
      exact hdis (.replaced (Gen.lt_of_le_of_ne hboot fun he => hne he.symm))
    have hfen : p.publisherFenced = false := by
      by_contra hne
      exact hdis (.fenced (Bool.eq_true_of_not_eq_false hne))
    have hlive : s.record.source.publisher.boot ∉ p.fencedBoots := fun hm => hdis (.dead hm)
    have hcontains : p.fencedBoots.contains s.record.source.publisher.boot = false := by
      by_contra hne
      exact hlive (Std.ExtTreeSet.contains_iff_mem.mp (Bool.eq_true_of_not_eq_false hne))
    have hreg : p.record.state = .registered := by
      rcases (hv _ p hpub).2 with hr | hr | hr
      · exact hr
      · exact (hdis (.fenced hr)).elim
      · exact (hlive (heq ▸ hr)).elim
    simp [publisherIsAuthoritative, hpub, hfen, hreg, heq, hcontains]
  · intro _
    by_contra hne
    exact hout (.epoch (Gen.lt_of_le_of_ne h.epoch hne))

theorem not_current_of_behind (h : RuntimeBehind s.record device)
    (hp : provenanceIsDurable s.record.source.provenance = false) : ¬ r.Current s device := by
  intro hc
  have hr := hc.runtime (by simp [hp]) h.identified h.same
  simp [axisChanged_of_passed h.passed] at hr

theorem Outdated.of_apartFromRuntime (h : r.Outdated s.apartFromRuntime) : r.Outdated s := by
  cases h with
  | persistent persistent => exact .persistent persistent
  | withdrawn withdrawn => exact .withdrawn withdrawn
  | device d known surpassed =>
    refine .device d known ?_
    cases surpassed with
    | incarnation reached other => exact .incarnation reached other
    | driver passed => exact .driver passed
    | firmware passed => exact .firmware passed
    | platform passed => exact .platform passed
  | publisher p known disowned =>
    refine .publisher p known ?_
    cases disowned with
    | fenced fenced => exact .fenced fenced
    | dead dead => exact .dead dead
    | replaced replaced => exact .replaced replaced
  | epoch passed => exact .epoch passed

theorem Tracked.apartFromRuntime (h : r.Tracked s) : r.Tracked s.apartFromRuntime :=
  ⟨h.device.imp fun _ hd => ⟨hd.1, hd.2.generation, hd.2.driver, hd.2.firmware, hd.2.runtime,
    hd.2.platform⟩, h.publisher, h.epoch⟩

/-- The call is steady, and it switches no device to another runtime while a process-bound record
of that device is stale by its runtime alone, unless it moves the device past that record. -/
structure Unreviving (r : Impl) (op : Op) : Prop extends Steady r op where
  runtime : ∀ existing registration explicitGeneration,
    Updates r op existing registration explicitGeneration →
    registration.software.runtime.id.valid = true →
    registration.software.runtime.id ≠ existing.software.runtime.id →
    ∀ id, ∀ s ∈ recordsAt r.keys id, s.record.device = registration.identity.id →
      provenanceIsDurable s.record.source.provenance = false →
      RuntimeBehind s.record existing →
      r.currentStaleness s.apartFromRuntime existing ≠ .none ∨
        Displaces existing registration explicitGeneration s.record

theorem unreviving_of_noUpdates (hi : ∀ state, op ≠ .importDurableState state)
    (he : op = .advanceCoordinatorEpoch → r.epoch ≠ Gen.last)
    (hb : ∀ id, op.Requests id → r.currentBoot id ≠ Gen.last)
    (hu : ∀ existing registration explicitGeneration,
      ¬ Updates r op existing registration explicitGeneration) : r.Unreviving op :=
  { imports := hi
    epoch := he
    boot := hb
    counters := fun _ _ _ h => (hu _ _ _ h).elim
    runtime := fun _ _ _ h => (hu _ _ _ h).elim }

section Steps
variable [StdLib]

omit [StdLib] in
theorem vested_move {publisherId : PublisherId} {x y : Option PublisherStateInternal}
    (h : PublisherMove r publisherId op x y) (hx : x = r.publishers[publisherId]?)
    (hl : op.Requests publisherId → r.currentBoot publisherId ≠ Gen.last)
    (hv : ∀ p, x = some p → p.record.identity.boot.valid = true ∧
      (p.record.state = .registered ∨ p.publisherFenced = true ∨
        p.record.identity.boot ∈ p.fencedBoots)) :
    ∀ p, y = some p → p.record.identity.boot.valid = true ∧
      (p.record.state = .registered ∨ p.publisherFenced = true ∨
        p.record.identity.boot ∈ p.fencedBoots) := by
  intro p hp
  cases h with
  | unmoved => exact hv p hp
  | first op now adapter =>
    obtain rfl := Option.some.inj hp
    exact ⟨rfl, .inl rfl⟩
  | fresh op now adapter state unfenced request =>
    obtain rfl := Option.some.inj hp
    have hlast := hl request
    rw [currentBoot_of_some hx.symm] at hlast
    exact ⟨Gen.valid_of_lt (lt_freshBoot r now adapter hlast), .inl rfl⟩
  | reaffirmed op adapter state unfenced valid live =>
    obtain rfl := Option.some.inj hp
    exact ⟨valid, .inl rfl⟩
  | fenced reason state unfenced =>
    obtain rfl := Option.some.inj hp
    exact ⟨(hv state rfl).1, .inr (.inl rfl)⟩
  | retired boot reason state valid live =>
    obtain rfl := Option.some.inj hp
    obtain ⟨hb, hs⟩ := hv state rfl
    rw [retireState_identity]
    refine ⟨hb, ?_⟩
    by_cases he : state.record.identity.boot = boot
    · exact .inr (.inr (Std.ExtTreeSet.mem_insert.mpr (.inl (by rw [he]; exact Std.ReflCmp.compare_self))))
    · simp only [retireState, if_neg he]
      exact hs.imp_right fun hs => hs.imp_right fun hm => Std.ExtTreeSet.mem_insert.mpr (.inr hm)
  | reset reason state =>
    obtain rfl := Option.some.inj hp
    obtain ⟨hb, hs⟩ := hv state rfl
    rw [resetState_identity]
    refine ⟨hb, ?_⟩
    unfold resetState
    split
    · simp only [hb, if_true]
      exact .inr (.inr (Std.ExtTreeSet.mem_insert.mpr (.inl Std.ReflCmp.compare_self)))
    · exact hs
  | noted op state state' same =>
    obtain rfl := Option.some.inj hp
    rw [same.identity, same.state, same.publisherFenced, same.fencedBoots]
    exact hv state rfl

theorem Vested.after (h : r.Vested) (hs : r.Steady op) : (r.after op).Vested := fun id p hp =>
  vested_move (publisherMove r op hs.not_restores id) rfl (hs.boot id) (h id) p hp

theorem Tracked.after (h : r.Tracked s) (hs : r.Steady op) : (r.after op).Tracked s := by
  obtain ⟨device, hd, ho⟩ := h.device
  obtain ⟨publisher, hp, hb⟩ := h.publisher
  obtain ⟨device', hd', hf⟩ := device_after hs hd
  obtain ⟨publisher', hp', hsucc⟩ := publisher_after hs hp
  exact ⟨⟨device', hd', ho.follows hf⟩, ⟨publisher', hp', Gen.le_trans hb hsucc.boot⟩,
    Gen.le_trans h.epoch (epoch_after hs)⟩

omit [StdLib] in
/-- An admitted record is tracked from the state it was admitted in. -/
theorem Recorded.tracked (h : Recorded r op id s) : r.Tracked s := by
  cases h with
  | mk now publication q publisher record device generation addressed authority kind admits =>
    have hp := prepare_eq_ok addressed.prepared
    obtain ⟨value, -, rfl⟩ := admits.value
    have hsource : q.capability.source.publisher = q.publisher := by
      rw [hp.source, hp.publisher]
    refine ⟨⟨device, admits.known, ?_⟩, ⟨publisher, ?_, ?_⟩, ?_⟩
    · exact ⟨admits.generation ▸ Gen.le_refl _, Gen.le_refl _, Gen.le_refl _, Gen.le_refl _,
        Gen.le_refl _⟩
    · change r.publishers[q.capability.source.publisher.id]? = some publisher
      rw [hsource]
      exact addressed.registered
    · change q.capability.source.publisher.boot ≤ publisher.record.identity.boot
      rw [hsource, authority.boot]
      exact Gen.le_refl _
    · change q.capability.source.publisher.epoch ≤ r.epoch
      rw [hsource, authority.epoch]
      exact Gen.le_refl _

/-- What every state of a run of steady calls satisfies. -/
structure Live (r : Impl) : Prop where
  accounted : r.Accounted
  vested : r.Vested
  serialized : ∀ id, r.Serialized id
  tracked : ∀ id, ∀ s ∈ recordsAt r.keys id, r.Tracked s

omit [StdLib] in
theorem live_fresh (limits : RegistryLimits) : (Impl.fresh limits).Live := by
  have hnone : ∀ id, recordsAt (Impl.fresh limits).keys id = [] := fun id =>
    recordsAt_of_none (by simp [Impl.fresh])
  refine ⟨accounted_fresh limits, fun id p hp => ?_, fun id => ⟨?_, ?_⟩, ?_⟩
  · simp [Impl.fresh] at hp
  · rw [hnone]
    exact List.Pairwise.nil
  · rw [hnone]
    intro s hs
    cases hs
  · intro id s hs
    rw [hnone] at hs
    cases hs

theorem Live.after (h : r.Live) (hs : r.Steady op) : (r.after op).Live := by
  have hmove := recordsMove h.accounted hs.not_restores
  refine ⟨h.accounted.after op, h.vested.after hs, fun id => ?_, fun id s hm => ?_⟩
  · exact (hmove id).serialized (h.serialized id) (nextSerial_after hs.imports)
  · rcases (hmove id).origin hm with ⟨t, ht, hk⟩ | ⟨hr, -⟩
    · exact ((h.tracked id t ht).kept hk).after hs
    · exact hr.tracked.after hs

omit [StdLib] in
theorem updateDevice_runtime (existing : DeviceState) (registration : DeviceRegistration)
    (explicitGeneration : Bool)
    (h : existing.software.runtime.id ≠
      (updateDevice existing registration explicitGeneration).software.runtime.id) :
    registration.software.runtime.id.valid = true ∧
      registration.software.runtime.id ≠ existing.software.runtime.id := by
  simp only [updateDevice, mergeSoftware] at h
  split at h
  · next hv => exact ⟨hv, fun he => h he.symm⟩
  · exact (h rfl).elim

/-- A record behind on its runtime stays so, or is outdated by the call that switches it. -/
theorem behind_after (hl : r.Live) (hu : r.Unreviving op) (hm : s ∈ recordsAt r.keys id)
    (hp : provenanceIsDurable s.record.source.provenance = false)
    (hd : r.devices[s.record.device]? = some device) (hb : RuntimeBehind s.record device) :
    ∃ device', (r.after op).devices[s.record.device]? = some device' ∧
      ((r.after op).Outdated s ∨ RuntimeBehind s.record device') := by
  obtain ⟨device', hd', hf⟩ := device_after hu.toSteady hd
  refine ⟨device', hd', ?_⟩
  by_cases hsame : device.software.runtime.id = device'.software.runtime.id
  · exact .inr ⟨hb.identified, hb.same.trans hsame, hb.passed.mono hf.runtime⟩
  · left
    have hmove := deviceMove hu.not_restores s.record.device
    rw [hd, hd'] at hmove
    cases hmove with
    | unmoved => exact (hsame rfl).elim
    | updated now publication existing target kind =>
      have hknown : r.devices[publication.device.identity.id]? = some device := target ▸ hd
      have hup : Updates r (.apply now publication) device publication.device _ :=
        .mk now publication device kind hknown
      obtain ⟨hv, hne⟩ := updateDevice_runtime _ _ _ hsame
      obtain ⟨known, hk, ho⟩ := (hl.tracked id s hm).device
      obtain rfl := Option.some.inj (hd.symm.trans hk)
      rcases hu.runtime _ _ _ hup hv hne id s hm target.symm hp hb with hstale | hdis
      · -- without its runtime the record is tracked and stale, and no longer behind
        have htr := (hl.tracked id s hm).apartFromRuntime
        have hnc : ¬ r.Current s.apartFromRuntime device := fun hc =>
          hstale (currentStaleness_eq_none_iff.mpr hc)
        rcases htr.outdated_or_behind hl.vested hd hnc with hout | hbeh
        · exact hout.of_apartFromRuntime.after hu.toSteady
        · have hid := hbeh.identified
          simp [StoredRecord.apartFromRuntime] at hid
      · exact .device _ hd' (hdis.surpassed ho (hu.counters _ _ _ hup))

/-- Whatever record of the key has this serial is stale for good. -/
structure Barred (r : Impl) (id : KeyId) (serial : Nat) : Prop where
  issued : serial < r.nextSerial
  stale : ∀ s ∈ recordsAt r.keys id, s.serial = serial →
    provenanceIsDurable s.record.source.provenance = false ∧
      ∃ device, r.devices[s.record.device]? = some device ∧
        (r.Outdated s ∨ RuntimeBehind s.record device)

theorem Barred.after (h : r.Barred id serial) (hl : r.Live) (hu : r.Unreviving op) :
    (r.after op).Barred id serial := by
  refine ⟨h.issued.trans_le (nextSerial_after hu.imports), fun s hm hserial => ?_⟩
  rcases (recordsMove hl.accounted hu.not_restores id).origin hm with ⟨t, ht, hk⟩ | ⟨hr, -⟩
  · obtain ⟨hp, device, hd, hs⟩ := h.stale t ht (hk.serial.symm.trans hserial)
    rw [hk.record]
    refine ⟨hp, ?_⟩
    rcases hs with hout | hbeh
    · obtain ⟨device', hd', -⟩ := device_after hu.toSteady hd
      exact ⟨device', hd', .inl ((hout.after hu.toSteady).kept hk)⟩
    · obtain ⟨device', hd', hs'⟩ := behind_after hl hu ht hp hd hbeh
      exact ⟨device', hd', hs'.imp_left fun ho => ho.kept hk⟩
  · -- a record appended now has a serial that was not given out before
    have hnew : s.serial = r.nextSerial := by
      cases hr
      rfl
    have := h.issued
    omega

/-- The record with this serial is retained, process-bound and stale. -/
def StaleAt (r : Impl) (id : KeyId) (serial : Nat) : Prop :=
  ∃ s ∈ recordsAt r.keys id, s.serial = serial ∧
    provenanceIsDurable s.record.source.provenance = false ∧
    ∃ device ∈ r.devices[s.record.device]?, r.currentStaleness s device ≠ .none

instance : Decidable (r.StaleAt id serial) :=
  inferInstanceAs (Decidable (∃ s ∈ recordsAt r.keys id, _ ∧ _ ∧ _))

/-- The record with this serial is stale if it is retained at all. -/
def StaleIfRetained (r : Impl) (id : KeyId) (serial : Nat) : Prop :=
  ∀ s ∈ recordsAt r.keys id, s.serial = serial →
    ∃ device ∈ r.devices[s.record.device]?, r.currentStaleness s device ≠ .none

instance : Decidable (r.StaleIfRetained id serial) :=
  inferInstanceAs (Decidable (∀ s ∈ recordsAt r.keys id, _ → _))

omit [StdLib] in
theorem StaleAt.barred (h : r.StaleAt id serial) (hl : r.Live) : r.Barred id serial := by
  obtain ⟨s, hm, rfl, hp, device, hd, hs⟩ := h
  refine ⟨(hl.serialized id).issued s hm, fun t ht hserial => ?_⟩
  obtain rfl := (hl.serialized id).unique ht hm hserial
  have hnc : ¬ r.Current t device := fun hc => hs (currentStaleness_eq_none_iff.mpr hc)
  exact ⟨hp, device, hd, (hl.tracked id t hm).outdated_or_behind hl.vested hd hnc⟩

omit [StdLib] in
theorem Barred.staleIfRetained (h : r.Barred id serial) : r.StaleIfRetained id serial := by
  intro s hm hserial
  obtain ⟨hp, device, hd, hs⟩ := h.stale s hm hserial
  refine ⟨device, hd, fun hnone => ?_⟩
  have hc := currentStaleness_eq_none_iff.mp hnone
  rcases hs with hout | hbeh
  · exact hout.not_current hp hd hc
  · exact not_current_of_behind hbeh hp hc

end Steps

section Runs
variable [StdLib] {limits : RegistryLimits} {ops ops' : List Op}

theorem live_run (h : Machine.Along Impl.after Steady r ops) (hl : r.Live) : (r.run ops).Live :=
  h.invariant hl fun _ _ hl hs => hl.after hs

/-- In a run of calls that revive nothing, stale process-bound evidence stays stale. -/
theorem stale_evidence_stays_stale
    (h : Machine.Along Impl.after Unreviving (Impl.fresh limits) (ops ++ ops'))
    (hs : ((Impl.fresh limits).run ops).StaleAt id serial) :
    ((Impl.fresh limits).run (ops ++ ops')).StaleIfRetained id serial := by
  obtain ⟨h1, h2⟩ := Machine.along_append.mp h
  have hl := live_run (h1.mono fun _ _ hu => hu.toSteady) (live_fresh limits)
  have hb := hs.barred hl
  have hrun : ((Impl.fresh limits).run ops).run ops' = (Impl.fresh limits).run (ops ++ ops') :=
    (List.foldl_append ..).symm
  have hinv : (((Impl.fresh limits).run ops).run ops').Live ∧
      (((Impl.fresh limits).run ops).run ops').Barred id serial :=
    h2.invariant (P := fun r => r.Live ∧ r.Barred id serial) ⟨hl, hb⟩ fun r op hlb hu =>
      ⟨hlb.1.after hu.toSteady, hlb.2.after hlb.1 hu⟩
  rw [← hrun]
  exact hinv.2.staleIfRetained

omit [StdLib] in
/-- An epoch change makes evidence stale, and a second one does not bring it back. -/
theorem stale_evidence_stays_stale_epochs :
    letI := StdLib.reference
    ((Impl.fresh {}).run (Sample.setup ++ [.apply Sample.now (Sample.evidence 2 Sample.capability),
      .advanceCoordinatorEpoch] ++ [.advanceCoordinatorEpoch])).StaleIfRetained
      ⟨Id.parse "dev.a", Id.parse "cap.compute.fp64"⟩ 1 := by
  let := StdLib.reference
  have hnone : ((Impl.fresh {}).after Sample.registration).devices[
      (Sample.deviceRegistration 1 Sample.device).device.identity.id]? = none := by
    rw [Impl.fresh_eq]
    decide +kernel
  obtain ⟨hfirst, hsecond, hstale⟩ :
      let r := (((Impl.fresh {}).after Sample.registration).after
        (.apply Sample.now (Sample.deviceRegistration 1 Sample.device))).after
          (.apply Sample.now (Sample.evidence 2 Sample.capability))
      r.epoch ≠ Gen.last ∧ (r.after .advanceCoordinatorEpoch).epoch ≠ Gen.last ∧
        (r.after .advanceCoordinatorEpoch).StaleAt
          ⟨Id.parse "dev.a", Id.parse "cap.compute.fp64"⟩ 1 := by
    rw [Impl.fresh_eq]
    decide +kernel
  have hepoch : ∀ r : Impl, r.epoch ≠ Gen.last → r.Unreviving .advanceCoordinatorEpoch := by
    intro r he
    apply unreviving_of_noUpdates
    · intro state h
      cases h
    · exact fun _ => he
    · exact fun id h => h.elim
    · intro existing registration explicitGeneration h
      cases h
  have hrun : Machine.Along Impl.after Unreviving (Impl.fresh {})
      (Sample.setup ++ [.apply Sample.now (Sample.evidence 2 Sample.capability),
        .advanceCoordinatorEpoch] ++ [.advanceCoordinatorEpoch]) := by
    refine ⟨?_, ?_, ?_, hepoch _ hfirst, hepoch _ hsecond, trivial⟩
    · apply unreviving_of_noUpdates
      · intro state h
        cases h
      · intro h
        cases h
      · rintro id ⟨rfl, -⟩
        decide
      · intro existing registration explicitGeneration h
        cases h
    · apply unreviving_of_noUpdates
      · intro state h
        cases h
      · intro h
        cases h
      · exact fun id h => h.elim
      · intro existing registration explicitGeneration h
        cases h with
        | mk now publication existing kind known =>
          rw [hnone] at known
          cases known
    · apply unreviving_of_noUpdates
      · intro state h
        cases h
      · intro h
        cases h
      · exact fun id h => h.elim
      · intro existing registration explicitGeneration h
        cases h with
        | mk now publication existing kind known => rcases kind with kind | kind <;> cases kind
  exact stale_evidence_stays_stale hrun hstale

/-- The sample device with a runtime of some version. -/
def runningDevice (runtime : RuntimeId) (version : Text) : DeviceRegistration :=
  { Sample.device with software.runtime := { id := runtime, version := version } }

omit [StdLib] in
/-- Evidence that a runtime update made stale is current again once the device runs another one. -/
theorem runtime_switch_revives_evidence :
    letI := StdLib.reference
    ¬ ∀ (limits : RegistryLimits) (ops ops' : List Op) (id : KeyId) (serial : Nat),
      (∀ state, .importDurableState state ∉ ops ++ ops') →
        ((Impl.fresh limits).run ops).StaleAt id serial →
        ((Impl.fresh limits).run (ops ++ ops')).StaleIfRetained id serial := by
  let := StdLib.reference
  intro h
  let ops : List Op := [Sample.registration,
    .apply Sample.now (Sample.deviceRegistration 1 (runningDevice (Id.parse "rt.a") "1.0")),
    .apply Sample.now (Sample.evidence 2 Sample.capability),
    .apply Sample.now (Sample.deviceRegistration 3 (runningDevice (Id.parse "rt.a") "2.0"))]
  let switch : Op :=
    .apply Sample.now (Sample.deviceRegistration 4 (runningDevice (Id.parse "rt.b") "1.0"))
  obtain ⟨hstale, hrevived⟩ :
      ((Impl.fresh {}).run ops).StaleAt ⟨Id.parse "dev.a", Id.parse "cap.compute.fp64"⟩ 1 ∧
        ¬ (((Impl.fresh {}).run ops).after switch).StaleIfRetained
          ⟨Id.parse "dev.a", Id.parse "cap.compute.fp64"⟩ 1 := by
    rw [Impl.fresh_eq]
    decide +kernel
  exact hrevived (h {} ops [switch] _ 1 (by simp [ops, switch, Sample.registration]) hstale)

end Runs

end Impl

end CapabilityRegistry
