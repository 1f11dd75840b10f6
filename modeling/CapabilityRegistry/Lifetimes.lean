import CapabilityRegistry.Records
import CapabilityRegistry.Registration

/-! How long evidence stays stale: the staleness axes along runs that import nothing. -/
namespace CapabilityRegistry

section Counters
variable {Tag : Type} {identified changed : Bool} {previous : Gen Tag} {existing : DeviceState}
  {registration : DeviceRegistration} {explicitGeneration : Bool} {d d' : DeviceState}
  {record : CapabilityRecord}

theorem default_lt_first : (default : Gen Tag) < .first := by
  change (0 : UInt64) < 1
  decide

theorem eq_default_of_not_valid {g : Gen Tag} (h : ¬ g.valid = true) : g = default := by
  by_contra hne
  exact h (Gen.valid_iff.mpr hne)

theorem advanceGeneration_eq (hi : identified = true) (hc : changed = true) :
    advanceGeneration identified changed previous =
      if previous.valid then previous.next else .first := by
  simp [advanceGeneration, hi, hc]

theorem lt_advanceGeneration (hi : identified = true) (hc : changed = true)
    (hl : previous ≠ Gen.last) : previous < advanceGeneration identified changed previous := by
  rw [advanceGeneration_eq hi hc]
  split
  · exact Gen.lt_next hl
  · next hv =>
    rw [eq_default_of_not_valid hv]
    exact default_lt_first

theorem le_advanceGeneration (h : identified = true → changed = true → previous ≠ Gen.last) :
    previous ≤ advanceGeneration identified changed previous := by
  by_cases hi : identified = true
  · by_cases hc : changed = true
    · exact Gen.le_of_lt (lt_advanceGeneration hi hc (h hi hc))
    · simp only [advanceGeneration, hi, hc, Bool.not_true, Bool.false_eq_true, if_false]
      split
      · exact Gen.le_refl _
      · next hv =>
        rw [eq_default_of_not_valid hv]
        exact Gen.le_of_lt default_lt_first
  · simp only [advanceGeneration, hi, Bool.not_false, if_true]
    exact Gen.le_refl _

/-- A later registration of a device: no counter went back, and its boot moves only with its
generation. -/
structure Follows (d d' : DeviceState) : Prop where
  generation : d.generation ≤ d'.generation
  boot : d'.generation = d.generation → d'.boot = d.boot
  driver : d.software.driverGeneration ≤ d'.software.driverGeneration
  firmware : d.software.firmwareGeneration ≤ d'.software.firmwareGeneration
  runtime : d.software.runtimeGeneration ≤ d'.software.runtimeGeneration
  platform : d.platformGeneration ≤ d'.platformGeneration

theorem Follows.refl (d : DeviceState) : Follows d d :=
  ⟨Gen.le_refl _, fun _ => rfl, Gen.le_refl _, Gen.le_refl _, Gen.le_refl _, Gen.le_refl _⟩

/-- No counter that the registration advances is at its last value. -/
structure Unwrapped (existing : DeviceState) (registration : DeviceRegistration)
    (explicitGeneration : Bool) : Prop where
  generation : deviceBoundary existing registration explicitGeneration = true →
    existing.generation ≠ Gen.last
  platform : existing.identity.platform ≠ registration.identity.platform →
    existing.platformGeneration ≠ Gen.last
  driver : registration.software.driver.id.valid = true →
    existing.software.driver ≠ registration.software.driver →
    existing.software.driverGeneration ≠ Gen.last
  firmware : registration.software.firmware.id.valid = true →
    existing.software.firmware ≠ registration.software.firmware →
    existing.software.firmwareGeneration ≠ Gen.last
  runtime : registration.software.runtime.id.valid = true →
    existing.software.runtime ≠ registration.software.runtime →
    existing.software.runtimeGeneration ≠ Gen.last

theorem updateDevice_follows (h : Unwrapped existing registration explicitGeneration) :
    Follows existing (updateDevice existing registration explicitGeneration) := by
  constructor
  · simp only [updateDevice]
    split
    · next hb => exact Gen.le_next (h.generation hb)
    · exact Gen.le_refl _
  · simp only [updateDevice]
    split
    · next hb => exact fun he => (Gen.ne_of_lt (Gen.lt_next (h.generation hb)) he.symm).elim
    · exact fun _ => rfl
  · refine le_advanceGeneration fun hi hc => ?_
    by_cases hv : registration.software.driver.id.valid = true
    · refine h.driver hv fun he => ?_
      simp [hv, he] at hc
    · simp [hv] at hi hc
      simp [hi] at hc
  · refine le_advanceGeneration fun hi hc => ?_
    by_cases hv : registration.software.firmware.id.valid = true
    · refine h.firmware hv fun he => ?_
      simp [hv, he] at hc
    · simp [hv] at hi hc
      simp [hi] at hc
  · refine le_advanceGeneration fun hi hc => ?_
    by_cases hv : registration.software.runtime.id.valid = true
    · refine h.runtime hv fun he => ?_
      simp [hv, he] at hc
    · simp [hv] at hi hc
      simp [hi] at hc
  · simp only [updateDevice]
    split
    · next hp => exact Gen.le_next (h.platform hp)
    · exact Gen.le_refl _

/-- An axis of the record was identified and the device has moved past it since. -/
def Passed (observed current : Gen Tag) : Prop := observed.valid = true ∧ observed < current

theorem axisChanged_of_passed {observed current : Gen Tag} (h : Passed observed current) :
    Impl.axisChanged observed current = true := by
  simp [Impl.axisChanged, h.1, Gen.ne_of_lt h.2]

theorem passed_of_axisChanged {observed current : Gen Tag} (hle : observed ≤ current)
    (h : Impl.axisChanged observed current = true) : Passed observed current := by
  simp only [Impl.axisChanged, Bool.and_eq_true, bne_iff_ne, ne_eq] at h
  exact ⟨h.1, Gen.lt_of_le_of_ne hle h.2⟩

/-- The device has moved past what the record was observed under, its runtime aside. -/
inductive Surpassed (record : CapabilityRecord) (device : DeviceState) : Prop
  | incarnation (reached : record.deviceGeneration ≤ device.generation)
      (other : record.deviceGeneration = device.generation → record.deviceBoot ≠ device.boot)
  | driver (passed : Passed record.driverGeneration device.software.driverGeneration)
  | firmware (passed : Passed record.firmwareGeneration device.software.firmwareGeneration)
  | platform (passed : Passed record.platformGeneration device.platformGeneration)

theorem Passed.mono {observed current current' : Gen Tag} (h : Passed observed current)
    (hle : current ≤ current') : Passed observed current' := ⟨h.1, Gen.lt_of_lt_of_le h.2 hle⟩

/-- What a device has moved past stays behind it. -/
theorem Surpassed.follows (h : Surpassed record d) (hf : Follows d d') : Surpassed record d' := by
  cases h with
  | incarnation reached other =>
    refine .incarnation (Gen.le_trans reached hf.generation) fun he => ?_
    by_cases hg : d'.generation = d.generation
    · rw [hf.boot hg]
      exact other (he.trans hg)
    · intro _
      have hlt := Gen.lt_of_le_of_ne hf.generation fun hd => hg hd.symm
      exact Gen.lt_irrefl _ (Gen.lt_of_le_of_lt reached (he ▸ hlt))
  | driver passed => exact .driver (passed.mono hf.driver)
  | firmware passed => exact .firmware (passed.mono hf.firmware)
  | platform passed => exact .platform (passed.mono hf.platform)

end Counters

section Holders
variable {record : CapabilityRecord} {s s' : PublisherStateInternal}

/-- The publisher no longer stands behind the boot the record was observed under. -/
inductive Disowned (record : CapabilityRecord) (s : PublisherStateInternal) : Prop
  | fenced (fenced : s.publisherFenced = true)
  | dead (dead : record.source.publisher.boot ∈ s.fencedBoots)
  | replaced (replaced : record.source.publisher.boot < s.record.identity.boot)

/-- A later standing of a publisher: nothing is forgiven and its boot did not go back. -/
structure Succeeds (s s' : PublisherStateInternal) : Prop where
  fenced : s.publisherFenced = true → s'.publisherFenced = true
  dead : ∀ boot ∈ s.fencedBoots, boot ∈ s'.fencedBoots
  boot : s.record.identity.boot ≤ s'.record.identity.boot

theorem Disowned.succeeds (h : Disowned record s) (hs : Succeeds s s') : Disowned record s' := by
  cases h with
  | fenced fenced => exact .fenced (hs.fenced fenced)
  | dead dead => exact .dead (hs.dead _ dead)
  | replaced replaced => exact .replaced (Gen.lt_of_lt_of_le replaced hs.boot)

end Holders

namespace Impl
variable {r r' : Impl} {op : Op} {s s' : StoredRecord} {device : DeviceState} {id : KeyId}

/-- The record is stale for a reason that does not go away. -/
inductive Outdated (r : Impl) (s : StoredRecord) : Prop
  | persistent (persistent : s.persistent ≠ .none)
  | withdrawn (withdrawn : s.record.withdrawn = true)
  | device (device : DeviceState) (known : r.devices[s.record.device]? = some device)
      (surpassed : Surpassed s.record device)
  | publisher (publisher : PublisherStateInternal)
      (known : r.publishers[s.record.source.publisher.id]? = some publisher)
      (disowned : Disowned s.record publisher)
  | epoch (passed : s.record.source.publisher.epoch < r.epoch)

theorem not_authoritative_of_disowned {publisher : PublisherStateInternal}
    {record : CapabilityRecord}
    (known : r.publishers[record.source.publisher.id]? = some publisher)
    (h : Disowned record publisher) : r.publisherIsAuthoritative record = false := by
  simp only [publisherIsAuthoritative, known]
  cases h with
  | fenced fenced => simp [fenced]
  | dead dead => simp [dead]
  | replaced replaced =>
    have hne : publisher.record.identity.boot ≠ record.source.publisher.boot :=
      (Gen.ne_of_lt replaced).symm
    simp [hne]

/-- An outdated process-bound record is not current. -/
theorem Outdated.not_current (h : r.Outdated s)
    (hp : provenanceIsDurable s.record.source.provenance = false)
    (hd : r.devices[s.record.device]? = some device) : ¬ r.Current s device := by
  intro hc
  have hlive : ∀ b : Bool,
      (!provenanceIsDurable s.record.source.provenance || b) = true := by simp [hp]
  cases h with
  | persistent persistent => exact persistent hc.persistent
  | withdrawn withdrawn => simp [hc.present] at withdrawn
  | device device' known surpassed =>
    obtain rfl := Option.some.inj (hd.symm.trans known)
    cases surpassed with
    | incarnation reached other => exact other hc.generation hc.boot
    | driver passed => simpa [axisChanged_of_passed passed] using hc.driver (hlive _)
    | firmware passed => simpa [axisChanged_of_passed passed] using hc.firmware (hlive _)
    | platform passed => simpa [axisChanged_of_passed passed] using hc.platform hp
  | publisher publisher known disowned =>
    exact not_current_of_not_authoritative hp (not_authoritative_of_disowned known disowned) hc
  | epoch passed => exact Gen.ne_of_lt passed (hc.epoch hp)

theorem Outdated.kept (h : r.Outdated s) (hk : Kept s s') : r.Outdated s' := by
  cases h with
  | persistent persistent => exact .persistent (hk.persistent persistent)
  | withdrawn withdrawn => exact .withdrawn (hk.record ▸ withdrawn)
  | device device known surpassed =>
    exact .device device (hk.record ▸ known) (hk.record ▸ surpassed)
  | publisher publisher known disowned =>
    exact .publisher publisher (hk.record ▸ known) (hk.record ▸ disowned)
  | epoch passed => exact .epoch (hk.record ▸ passed)

/-- The registration a call brings for a device that is already registered. -/
inductive Updates (r : Impl) : Op → DeviceState → DeviceRegistration → Bool → Prop
  | mk (now : Timestamp) (publication : Publication) (existing : DeviceState)
      (kind : publication.kind = .registerDevice ∨ publication.kind = .publishDeviceGeneration)
      (known : r.devices[publication.device.identity.id]? = some existing) :
    Updates r (.apply now publication) existing publication.device
      (publication.kind == .publishDeviceGeneration)

/-- The call imports nothing and wraps no counter. -/
structure Steady (r : Impl) (op : Op) : Prop where
  imports : ∀ state, op ≠ .importDurableState state
  epoch : op = .advanceCoordinatorEpoch → r.epoch ≠ Gen.last
  boot : ∀ id, op.Requests id → r.currentBoot id ≠ Gen.last
  counters : ∀ existing registration explicitGeneration,
    Updates r op existing registration explicitGeneration →
    Unwrapped existing registration explicitGeneration

theorem Steady.not_restores (h : r.Steady op) : ¬ r.Restores op := by
  rintro ⟨state, report, r', rfl, -⟩
  exact h.imports state rfl

section Successors
variable [StdLib] {deviceId : DeviceId} {publisherId : PublisherId}
  {publisher : PublisherStateInternal}

theorem device_after (h : r.Steady op) (hd : r.devices[deviceId]? = some device) :
    ∃ device', (r.after op).devices[deviceId]? = some device' ∧ Follows device device' := by
  have hm := deviceMove h.not_restores deviceId
  rw [hd] at hm
  generalize hy : (r.after op).devices[deviceId]? = y at hm
  cases hm with
  | unmoved => exact ⟨device, rfl, Follows.refl device⟩
  | updated now publication existing target kind =>
    refine ⟨_, rfl, updateDevice_follows (h.counters _ _ _ (.mk now publication device kind ?_))⟩
    rw [target]
    exact hd

theorem publisher_after (h : r.Steady op) (hp : r.publishers[publisherId]? = some publisher) :
    ∃ publisher', (r.after op).publishers[publisherId]? = some publisher' ∧
      Succeeds publisher publisher' := by
  have hm := publisherMove r op h.not_restores publisherId
  have hboot := boot_grows hm rfl (h.boot publisherId)
  obtain ⟨publisher', hp'⟩ : ∃ publisher', (r.after op).publishers[publisherId]? = some publisher' := by
    rw [hp] at hm
    generalize (r.after op).publishers[publisherId]? = y at hm
    cases hm <;> exact ⟨_, rfl⟩
  refine ⟨publisher', hp', fun hf => ?_, fun boot hb => ?_, ?_⟩
  · obtain ⟨t, ht, hf'⟩ := fenced_move hm ⟨publisher, hp, hf⟩
    obtain rfl := Option.some.inj (hp'.symm.trans ht)
    exact hf'
  · obtain ⟨t, ht, hb'⟩ := dead_move hm ⟨publisher, hp, hb⟩
    obtain rfl := Option.some.inj (hp'.symm.trans ht)
    exact hb'
  · rw [currentBoot_of_some hp, hp'] at hboot
    exact hboot

omit [StdLib] in
theorem registerPublisherLocked_epoch (r : Impl) (now : Timestamp) (identity : PublisherIdentity)
    (adapter : Text) : (r.registerPublisherLocked now identity adapter).2.epoch = r.epoch := by
  have h := registers r now identity adapter
  generalize r.registerPublisherLocked now identity adapter = out at h
  cases h <;> rfl

theorem settle_epoch (r : Impl) (publisher : PublisherStateInternal)
    (watermark : PublisherWatermark) (q : Publication) (result : ApplyResult) :
    (r.settle publisher watermark q result).2.epoch = r.epoch := by
  unfold settle
  split
  · dsimp only
    split <;> split <;> rfl
  · rfl

theorem applyLocked_epoch (r : Impl) (now : Timestamp) (publication : Publication) :
    (r.applyLocked now publication).2.epoch = r.epoch := by
  have hi := ingested r now publication
  generalize r.applyLocked now publication = out at hi
  cases hi with
  | schema q running prepared kind =>
    unfold applySchema
    split
    · rfl
    · next bound hb =>
      obtain ⟨-, -, -, -, rfl⟩ := registerCapabilitySchemaLocked_eq_ok hb
      rfl
  | registration q running prepared kind =>
    have he := registerPublisherLocked_epoch r now q.publisher q.reason
    unfold applyRegistration
    dsimp only
    split <;> exact he
  | handled q publisher addressed authority verdict =>
    rw [settle_epoch]
    exact (Impl.handled r q).sameAuthority.epoch
  | _ => rfl

/-- Only the two epoch calls and an import move the epoch. -/
theorem epoch_kept (hi : ∀ state, op ≠ .importDurableState state)
    (ha : op ≠ .advanceCoordinatorEpoch) (hs : ∀ epoch, op ≠ .setCoordinatorEpoch epoch) :
    (r.after op).epoch = r.epoch := by
  cases op with
  | registerCapabilitySchema schema =>
    simp only [after, step, registerCapabilitySchema]
    split
    · rfl
    · next bound hb =>
      obtain ⟨-, -, -, -, rfl⟩ := registerCapabilitySchemaLocked_eq_ok hb
      rfl
  | registerPublisher now identity adapter =>
    have he := registerPublisherLocked_epoch r now identity adapter
    simp only [after, step, registerPublisher]
    split
    · rfl
    · exact he
  | fencePublisher publisher reason =>
    simp only [after, step, fencePublisher]
    repeat' split
    all_goals rfl
  | retirePublisherBoot publisher boot reason =>
    simp only [after, step, retirePublisherBoot]
    repeat' split
    all_goals rfl
  | apply now publication => exact applyLocked_epoch r now publication
  | snapshot =>
    simp only [after, step, takeSnapshot]
    split <;> rfl
  | advanceCoordinatorEpoch => exact (ha rfl).elim
  | setCoordinatorEpoch epoch => exact (hs epoch rfl).elim
  | importDurableState state => exact (hi state rfl).elim
  | _ => rfl

theorem epoch_after (h : r.Steady op) : r.epoch ≤ (r.after op).epoch := by
  by_cases ha : op = .advanceCoordinatorEpoch
  · subst ha
    change r.epoch ≤ if r.epoch.valid then r.epoch.next else .first
    split
    · exact Gen.le_next (h.epoch rfl)
    · next hv =>
      rw [eq_default_of_not_valid hv]
      exact Gen.le_of_lt default_lt_first
  · by_cases hs : ∃ epoch, op = .setCoordinatorEpoch epoch
    · obtain ⟨epoch, rfl⟩ := hs
      simp only [Impl.after, step, setCoordinatorEpoch]
      split
      · exact Gen.le_refl r.epoch
      · next hv =>
        split
        · exact Gen.le_refl r.epoch
        · next hle =>
          change r.epoch ≤ epoch
          by_cases hr : r.epoch.valid = true
          · simp only [hr, Bool.true_and, decide_eq_true_eq] at hle
            exact Gen.le_of_lt (Gen.not_le.mp hle)
          · rw [eq_default_of_not_valid hr]
            exact UInt64.zero_le
    · rw [epoch_kept h.imports ha fun epoch he => hs ⟨epoch, he⟩]
      exact Gen.le_refl _

/-- A steady call leaves an outdated record outdated. -/
theorem Outdated.after (h : r.Outdated s) (hs : r.Steady op) : (r.after op).Outdated s := by
  cases h with
  | persistent persistent => exact .persistent persistent
  | withdrawn withdrawn => exact .withdrawn withdrawn
  | device device known surpassed =>
    obtain ⟨device', hd, hf⟩ := device_after hs known
    exact .device device' hd (surpassed.follows hf)
  | publisher publisher known disowned =>
    obtain ⟨publisher', hp, hs'⟩ := publisher_after hs known
    exact .publisher publisher' hp (disowned.succeeds hs')
  | epoch passed => exact .epoch (Gen.lt_of_lt_of_le passed (epoch_after hs))

end Successors

end Impl

end CapabilityRegistry
