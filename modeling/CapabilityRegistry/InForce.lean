import CapabilityRegistry.Acceptance
import CapabilityRegistry.Canonical

/-! Evidence in force: what the newest record of a slot says once a publication is accepted. -/
namespace CapabilityRegistry

section Newest
variable {xs : List StoredRecord} {slot : Text} {s t : StoredRecord}

theorem slotLatest_append (xs : List StoredRecord) (x : StoredRecord) (slot : Text) :
    slotLatest (xs ++ [x]) slot = if x.slot != slot then slotLatest xs slot
      else match slotLatest xs slot with
        | none => some x
        | some l => if l.serial < x.serial then some x else some l := by
  unfold slotLatest
  rw [List.foldl_append]
  rfl

/-- The newest record of a slot, by induction on the records from the last one back. -/
theorem slotLatest_spec (xs : List StoredRecord) (slot : Text) :
    (slotLatest xs slot = none → ∀ s ∈ xs, s.slot ≠ slot) ∧
      ∀ t, slotLatest xs slot = some t →
        t ∈ xs ∧ t.slot = slot ∧ ∀ s ∈ xs, s.slot = slot → s.serial ≤ t.serial := by
  induction xs using List.reverseRecOn with
  | nil => exact ⟨fun _ s hs => (by cases hs), fun t ht => (by cases ht)⟩
  | append_singleton xs x ih =>
    obtain ⟨hnone, hsome⟩ := ih
    rw [slotLatest_append]
    by_cases hx : x.slot = slot
    · rw [if_neg (by simp [hx])]
      cases hl : slotLatest xs slot with
      | none =>
        refine ⟨fun h => (by cases h), fun t ht => ?_⟩
        obtain rfl := Option.some.inj ht
        refine ⟨List.mem_append_right _ List.mem_cons_self, hx, fun s hs hslot => ?_⟩
        rcases List.mem_append.mp hs with hm | hm
        · exact (hnone hl s hm hslot).elim
        · obtain rfl := List.mem_singleton.mp hm
          exact le_refl _
      | some l =>
        obtain ⟨hmem, hslot, hmax⟩ := hsome l hl
        dsimp only
        by_cases hlt : l.serial < x.serial
        · rw [if_pos hlt]
          refine ⟨fun h => (by cases h), fun t ht => ?_⟩
          obtain rfl := Option.some.inj ht
          refine ⟨List.mem_append_right _ List.mem_cons_self, hx, fun s hs hs' => ?_⟩
          rcases List.mem_append.mp hs with hm | hm
          · exact (hmax s hm hs').trans hlt.le
          · obtain rfl := List.mem_singleton.mp hm
            exact le_refl _
        · rw [if_neg hlt]
          refine ⟨fun h => (by cases h), fun t ht => ?_⟩
          obtain rfl := Option.some.inj ht
          refine ⟨List.mem_append_left _ hmem, hslot, fun s hs hs' => ?_⟩
          rcases List.mem_append.mp hs with hm | hm
          · exact hmax s hm hs'
          · obtain rfl := List.mem_singleton.mp hm
            exact Nat.le_of_not_lt hlt
    · rw [if_pos (by simp [hx])]
      refine ⟨fun h s hs => ?_, fun t ht => ?_⟩
      · rcases List.mem_append.mp hs with hm | hm
        · exact hnone h s hm
        · obtain rfl := List.mem_singleton.mp hm
          exact hx
      · obtain ⟨hmem, hslot, hmax⟩ := hsome t ht
        refine ⟨List.mem_append_left _ hmem, hslot, fun s hs hs' => ?_⟩
        rcases List.mem_append.mp hs with hm | hm
        · exact hmax s hm hs'
        · obtain rfl := List.mem_singleton.mp hm
          exact (hx hs').elim

/-- A record that is newer than every other one of its slot is the newest one. -/
theorem slotLatest_of_newest (ht : t ∈ xs) (h : ∀ s ∈ xs, s.slot = t.slot → s ≠ t →
    s.serial < t.serial) : slotLatest xs t.slot = some t := by
  obtain ⟨hnone, hsome⟩ := slotLatest_spec xs t.slot
  cases hl : slotLatest xs t.slot with
  | none => exact (hnone hl t ht rfl).elim
  | some l =>
    obtain ⟨hmem, hslot, hmax⟩ := hsome l hl
    by_contra hne
    have hlt := h l hmem hslot fun he => hne (by rw [he])
    exact Nat.not_lt.mpr (hmax t ht rfl) hlt

theorem NewestUnmarked.persistent_slotLatest (h : NewestUnmarked xs)
    (hs : slotLatest xs slot = some s) : s.persistent = .none := by
  obtain ⟨hmem, hslot, hmax⟩ := (slotLatest_spec xs slot).2 s hs
  rw [h s hmem, ← Bool.not_eq_true, supersededIn_iff]
  rintro ⟨u, hu, hus, hlt⟩
  exact Nat.not_lt.mpr (hmax u hu (hus.trans hslot)) hlt

end Newest

namespace Impl
variable {r r' : Impl} {op : Op} {id : PublisherId} {x y : Option PublisherStateInternal}

/-- A publisher that is neither fenced nor lost its boot is registered. -/
def Standing (p : PublisherStateInternal) : Prop :=
  p.publisherFenced = false → p.record.identity.boot.valid = true →
    p.record.identity.boot ∉ p.fencedBoots → p.record.state = .registered

theorem standing_resetState {p : PublisherStateInternal} (h : Standing p) (reason : Text) :
    Standing (resetState reason p) := by
  unfold resetState
  split
  · intro _ hv hb
    refine (hb ?_).elim
    have hv : p.record.identity.boot.valid = true := hv
    simp only [hv, if_true]
    exact Std.ExtTreeSet.mem_insert_self
  · exact h

theorem standing_retireState {p : PublisherStateInternal} (h : Standing p) (boot : PublisherBootId)
    (reason : Text) : Standing (retireState boot reason p) := by
  intro hf hv hb
  have hb : (retireState boot reason p).record.identity.boot ∉ p.fencedBoots.insert boot := hb
  by_cases he : p.record.identity.boot = boot
  · simp only [retireState, he, if_true] at hb
    exact (hb Std.ExtTreeSet.mem_insert_self).elim
  · simp only [retireState, if_neg he] at hf hv hb ⊢
    exact h hf hv fun hm => hb (Std.ExtTreeSet.mem_insert.mpr (.inr hm))

theorem standing_move (hm : PublisherMove r id op x y) (h : ∀ p, x = some p → Standing p) :
    ∀ p, y = some p → Standing p := by
  intro p hp
  cases hm with
  | unmoved => exact h p hp
  | first op now adapter =>
    obtain rfl := Option.some.inj hp
    exact fun _ _ _ => rfl
  | fresh op now adapter state =>
    obtain rfl := Option.some.inj hp
    exact fun _ _ _ => rfl
  | reaffirmed op adapter state =>
    obtain rfl := Option.some.inj hp
    exact fun _ _ _ => rfl
  | fenced reason state =>
    obtain rfl := Option.some.inj hp
    intro hf
    cases hf
  | retired boot reason state =>
    obtain rfl := Option.some.inj hp
    exact standing_retireState (h state rfl) boot reason
  | reset reason state =>
    obtain rfl := Option.some.inj hp
    exact standing_resetState (h state rfl) reason
  | noted op state state' same =>
    obtain rfl := Option.some.inj hp
    unfold Standing
    rw [same.identity, same.state, same.fencedBoots, same.publisherFenced]
    exact h state rfl

theorem standing_unrestored (p : PublisherStateInternal) : Standing (unrestoredPublisher p) := by
  intro _ hv hb
  have hv : p.record.identity.boot.valid = true := hv
  refine (hb ?_).elim
  simp only [unrestoredPublisher, hv, if_true]
  exact Std.ExtTreeSet.mem_insert_self

variable [StdLib] {limits : RegistryLimits}

/-- Every publisher of a reachable registry stands or has lost its boot. -/
theorem reachable_standing (h : Reachable limits r) (id : PublisherId) :
    ∀ p, r.publishers[id]? = some p → Standing p := by
  obtain ⟨ops, rfl⟩ := h
  refine Machine.run_invariant (P := fun r : Impl => ∀ id p, r.publishers[id]? = some p → Standing p)
    (fun id p hp => by simp [fresh] at hp) (fun r op hr id p hp => ?_) ops id
  by_cases hop : r.Restores op
  · obtain ⟨state, report, r', rfl, hi⟩ := hop
    obtain ⟨staged, him, -, rfl⟩ := importDurableState_eq_ok.mp hi
    have hafter : r.after (.importDurableState state) = r.commit state staged := congrArg Prod.snd hi
    have hcommit : (r.commit state staged).publishers[id]? =
        (staged.publishers[id]?).map unrestoredPublisher := Std.ExtTreeMap.getElem?_map
    rw [hafter, hcommit] at hp
    obtain ⟨t, -, rfl⟩ := Option.map_eq_some_iff.mp hp
    exact standing_unrestored t
  · exact standing_move (publisherMove r op hop id) (fun p hp => hr id p hp) p hp

end Impl

section Boots
variable {d : DeviceState} {r : Impl} {op : Op}

/-- How far the boot of a device is ahead of its generation, modulo the counter's range. -/
def bootLead (boot : DeviceBootId) (generation : DeviceGeneration) : UInt64 :=
  boot.value - generation.value

theorem bootLead_updateDevice (existing : DeviceState) (registration : DeviceRegistration)
    (explicitGeneration : Bool) :
    bootLead (updateDevice existing registration explicitGeneration).boot
      (updateDevice existing registration explicitGeneration).generation =
      bootLead existing.boot existing.generation := by
  unfold updateDevice bootLead
  dsimp only
  split
  · simp only [Gen.next]
    grind
  · rfl

/-- A device never loses its lead: both counters move together. -/
theorem bootLead_move {id : DeviceId} {y : Option DeviceState}
    (h : Impl.DeviceMove r id op (some d) y) :
    ∃ d', y = some d' ∧ bootLead d'.boot d'.generation = bootLead d.boot d.generation := by
  cases h with
  | unmoved => exact ⟨d, rfl, rfl⟩
  | updated now publication existing target kind =>
    exact ⟨_, rfl, bootLead_updateDevice _ _ _⟩

end Boots

namespace Impl
variable [StdLib] {r : Impl} {op : Op} {limits : RegistryLimits}

/-- What live ingestion recorded of a device has the lead the device still has. -/
def Booted (r : Impl) : Prop :=
  ∀ id, ∀ s ∈ recordsAt r.keys id, s.slot = slotOf s.record → ∃ device,
    r.devices[id.device]? = some device ∧
      bootLead s.record.deviceBoot s.record.deviceGeneration =
        bootLead device.boot device.generation

theorem Booted.after (h : r.Booted) (ha : r.Accounted) (op : Op) : (r.after op).Booted := by
  intro id s hs hslot
  by_cases hop : r.Restores op
  · obtain ⟨state, report, r', rfl, hi⟩ := hop
    obtain ⟨staged, him, -, rfl⟩ := importDurableState_eq_ok.mp hi
    have hafter : r.after (.importDurableState state) = r.commit state staged := congrArg Prod.snd hi
    rw [hafter] at hs
    have hslots : StagedSlots staged.keys.keys := by
      refine stagedSlots_stageRecords ?_ him.records
      intro id s hs
      simp [recordsAt] at hs
    exact (slotOf_ne_importSlot _ _ (hslot.symm.trans (hslots id s hs))).elim
  · have hdev := deviceMove hop id.device
    have hlead : ∃ d, r.devices[id.device]? = some d ∧
        bootLead s.record.deviceBoot s.record.deviceGeneration = bootLead d.boot d.generation := by
      rcases (recordsMove ha hop id).origin hs with ⟨t, ht, hk⟩ | ⟨hrec, -⟩
      · rw [hk.slot, hk.record] at hslot
        rw [hk.record]
        exact h id t ht hslot
      · cases hrec with
        | mk now publication q publisher record device generation addressed authority kind admits =>
          obtain ⟨value, -, rfl⟩ := admits.value
          refine ⟨device, admits.known, ?_⟩
          rw [← admits.generation, ← admits.boot]
          rfl
    obtain ⟨d, hd, hl⟩ := hlead
    rw [hd] at hdev
    obtain ⟨d', hd', hl'⟩ := bootLead_move hdev
    exact ⟨d', hd', hl.trans hl'.symm⟩

theorem reachable_booted (h : Reachable limits r) : r.Booted := by
  obtain ⟨ops, rfl⟩ := h
  have hfresh : (Impl.fresh limits).Booted := by
    intro id s hs
    simp [Impl.fresh, recordsAt] at hs
  have hrun := Machine.run_invariant (P := fun r : Impl => r.Accounted ∧ r.Booted)
    ⟨accounted_fresh limits, hfresh⟩ (fun r op hr => ⟨hr.1.after op, hr.2.after hr.1 op⟩) ops
  exact hrun.2

end Impl

namespace Impl
variable {r r' : Impl} {p q : Publication} {publisher : PublisherStateInternal}
  {record : CapabilityRecord} {device : DeviceState} {s : StoredRecord} {limits : RegistryLimits}
  {generation : CapabilityGeneration} {key : KeyState}

/-- The publisher of an authorized publication vouches for the records of its boot. -/
theorem authoritative_of_authorized (known : r.publishers[q.publisher.id]? = some publisher)
    (standing : Standing publisher) (authority : r.Authorized publisher q)
    (valid : q.publisher.boot.valid = true) (hid : record.source.publisher.id = q.publisher.id)
    (hboot : record.source.publisher.boot = q.publisher.boot) :
    r.publisherIsAuthoritative record = true := by
  have hreg : publisher.record.state = .registered :=
    standing authority.unfenced (authority.boot ▸ valid) (authority.boot ▸ authority.liveBoot)
  have hlive : publisher.fencedBoots.contains q.publisher.boot = false := by
    by_contra hne
    exact authority.liveBoot (Std.ExtTreeSet.contains_iff_mem.mp (Bool.eq_true_of_not_eq_false hne))
  unfold publisherIsAuthoritative
  rw [hid, known]
  simp [hreg, authority.unfenced, authority.boot, hboot, hlive]

theorem axisChanged_self {Tag : Type} (g : Gen Tag) : axisChanged g g = false := by
  simp [axisChanged]

/-- A record is current as soon as it was stored. -/
theorem current_storedAs (admits : Admits r q.capability record device)
    (present : q.capability.withdrawn = false) (sender : q.capability.source.publisher = q.publisher)
    (epoch : q.publisher.epoch = r.epoch)
    (authoritative : ∀ record : CapabilityRecord, record.source.publisher = q.publisher →
      r.publisherIsAuthoritative record = true) :
    r.Current (r.storedAs record device generation) device := by
  obtain ⟨value, -, rfl⟩ := admits.value
  constructor
  · rfl
  · exact present
  · exact admits.generation
  · exact admits.boot
  · exact fun _ => axisChanged_self _
  · exact fun _ => axisChanged_self _
  · exact fun _ _ _ => axisChanged_self _
  · exact fun _ => axisChanged_self _
  · exact fun _ => authoritative _ sender
  · exact fun _ => (congrArg PublisherIdentity.epoch sender).trans epoch

/-- What makes a record state the same as a new one of its slot, as far as the code compares them. -/
structure Repeats (s : StoredRecord) (record : CapabilityRecord) : Prop where
  present : s.record.withdrawn = false
  content : capabilityContentEqual s.record record = true
  generation : s.record.deviceGeneration = record.deviceGeneration
  driver : s.record.driverGeneration = record.driverGeneration
  firmware : s.record.firmwareGeneration = record.firmwareGeneration
  runtime : s.record.runtimeGeneration = record.runtimeGeneration

theorem alreadyRecorded_eq_true (h : alreadyRecorded key record = true) :
    ∃ s, slotLatest key.records (slotOf record) = some s ∧ Repeats s record := by
  unfold alreadyRecorded at h
  split at h
  · cases h
  · next s hs =>
    simp only [Bool.and_eq_true, Bool.not_eq_true', beq_iff_eq] at h
    obtain ⟨⟨⟨⟨⟨⟨-, hw⟩, hc⟩, hg⟩, hd⟩, hf⟩, hr⟩ := h
    exact ⟨s, hs, hw, hc, hg, hd, hf, hr⟩

/-- A process-bound record was observed in the current epoch and on the current platform. -/
def Timely (r : Impl) (s : StoredRecord) (device : DeviceState) : Prop :=
  provenanceIsDurable s.record.source.provenance = false →
    s.record.source.publisher.epoch = r.epoch ∧
      axisChanged s.record.platformGeneration device.platformGeneration = false

/-- Of the axes a repeated record may be stale on, the code leaves two unchecked. -/
theorem current_iff_timely (repeats : Repeats s (qualify record device))
    (persistent : s.persistent = .none) (generation : record.deviceGeneration = device.generation)
    (boot : s.record.deviceBoot = device.boot)
    (authoritative : r.publisherIsAuthoritative s.record = true) :
    r.Current s device ↔ r.Timely s device := by
  refine ⟨fun h hp => ⟨h.epoch hp, h.platform hp⟩, fun h => ?_⟩
  constructor
  · exact persistent
  · exact repeats.present
  · exact repeats.generation.trans generation
  · exact boot
  · intro _
    rw [repeats.driver]
    exact axisChanged_self _
  · intro _
    rw [repeats.firmware]
    exact axisChanged_self _
  · intro _ _ _
    rw [repeats.runtime]
    exact axisChanged_self _
  · exact fun hp => (h hp).2
  · exact fun _ => authoritative
  · exact fun hp => (h hp).1

/-- The newest record of the publication's slot carries what was published and is current. -/
def InForce (r : Impl) (p : Publication) : Prop :=
  ∃ s, slotLatest (recordsAt r.keys (keyOf p.capability)) (sourceSlot p) = some s ∧
    s.record.support = p.capability.support ∧
    normalizeValue r.limits p.capability.value = .ok s.record.value ∧
    s.record.conditions = p.capability.conditions ∧ r.CurrentAt (keyOf p.capability) s

/-- If the newest record of the slot is taken for a repetition of the publication, it carries the
published value and conditions themselves and is as timely. -/
def Reaffirmed (r : Impl) (p : Publication) : Prop :=
  ∀ (q : Publication) (record : CapabilityRecord) (device : DeviceState) (key : KeyState)
    (s : StoredRecord), r.prepare p = .ok q →
    r.admitCapability q.capability = .ok (record, device) →
    r.keys[keyOf p.capability]? = some key →
    alreadyRecorded key (qualify record device) = true →
    slotLatest key.records (sourceSlot p) = some s →
    s.record.value = record.value ∧ s.record.conditions = record.conditions ∧ r.Timely s device

/-- The admitted record of a publication, field by field. -/
structure Conveys (r : Impl) (p : Publication) (record : CapabilityRecord) : Prop where
  support : record.support = p.capability.support
  value : normalizeValue r.limits p.capability.value = .ok record.value
  conditions : record.conditions = p.capability.conditions
  withdrawn : record.withdrawn = (p.kind == .withdrawCapability)
  sender : record.source.publisher = p.publisher
  target : keyOf record = keyOf p.capability
  slot : slotOf record = sourceSlot p

theorem conveys (hk : p.kind.isCapability = true) (hp : r.prepare p = .ok q)
    (hadm : r.admitCapability q.capability = .ok (record, device)) : r.Conveys p record := by
  obtain ⟨htarget, hslot⟩ := prepare_target hk hp
  have hw := prepare_withdrawn hk hp
  have hsource := (prepare_eq_ok hp).source
  obtain ⟨schema, value, hv, hq⟩ := prepare_capability hk hp
  obtain ⟨value', hv', rfl⟩ := (admitCapability_eq_ok hadm).value
  -- the value is already in normal form when the handler normalizes it
  have hcanonical := canonical_normalizeValue _ _ hv
  obtain rfl : value = value' := by
    rw [hq] at hv'
    exact Except.ok.inj (hcanonical.symm.trans hv')
  refine ⟨?_, hv, ?_, hw, ?_, htarget, hslot⟩
  · rw [hq]
    rfl
  · rw [hq]
    rfl
  · exact congrArg EvidenceSource.publisher hsource

variable [StdLib]

/-- The publisher of an admitted publication vouches for whatever its boot recorded. -/
theorem authoritative_of_addressed (h : Reachable limits r) (addressed : Addressed r p q publisher)
    (authority : r.Authorized publisher q) (hid : record.source.publisher.id = p.publisher.id)
    (hboot : record.source.publisher.boot = p.publisher.boot) :
    r.publisherIsAuthoritative record = true := by
  have hp := prepare_eq_ok addressed.prepared
  have hv := hp.valid
  simp only [validatePublication, status_bind_eq_ok, require_eq_ok] at hv
  refine authoritative_of_authorized addressed.registered
    (reachable_standing h _ _ addressed.registered) authority hv.2.1 ?_ ?_
  · rw [hp.publisher, hid]
  · rw [hp.publisher, hboot]

/-- What the newest record of a publication's slot has to offer when it is taken for a repetition. -/
theorem repeated_current_iff (h : Reachable limits r) (hk : p.kind.isCapability = true)
    (addressed : Addressed r p q publisher) (authority : r.Authorized publisher q)
    (hadm : r.admitCapability q.capability = .ok (record, device))
    (known : r.keys[keyOf p.capability]? = some key)
    (hs : slotLatest key.records (sourceSlot p) = some s)
    (repeats : Repeats s (qualify record device)) :
    r.CurrentAt (keyOf p.capability) s ↔ r.Timely s device := by
  have hadmits := admitCapability_eq_ok hadm
  have hconv := conveys hk addressed.prepared hadm
  obtain ⟨-, hslots⟩ := reachable_slotted h
  have hrec := recordsAt_of_some known
  obtain ⟨hmem, hslot, -⟩ := (slotLatest_spec key.records (sourceSlot p)).2 s hs
  rw [← hrec] at hs hmem
  have hlive : s.slot = slotOf s.record := by
    rcases hslots.placed _ s hmem with ⟨hl, -⟩ | ⟨hi, -⟩
    · exact hl
    · exact (slotOf_ne_importSlot _ _ ((hconv.slot.trans hslot.symm).trans hi)).elim
  obtain ⟨hid, hboot, -⟩ := slotOf_inj (hlive.symm.trans (hslot.trans hconv.slot.symm))
  obtain ⟨value, -, hrecord⟩ := hadmits.value
  have htarget : (keyOf p.capability).device = record.device := by rw [← hconv.target]; rfl
  have hknown : r.devices[(keyOf p.capability).device]? = some device := by
    rw [htarget, hrecord]
    exact hadmits.known
  have hgen : record.deviceGeneration = device.generation := by
    rw [hrecord]
    exact hadmits.generation
  obtain ⟨d, hd, hlead⟩ := reachable_booted h _ s hmem hlive
  obtain rfl := Option.some.inj (hknown.symm.trans hd)
  have hdevboot : s.record.deviceBoot = device.boot := by
    have hg : s.record.deviceGeneration = device.generation := repeats.generation.trans hgen
    rw [hg] at hlead
    simp only [bootLead] at hlead
    exact Gen.ext (by grind)
  have hauth := authoritative_of_addressed h addressed authority
    (hid.trans (congrArg PublisherIdentity.id hconv.sender))
    (hboot.trans (congrArg PublisherIdentity.boot hconv.sender))
  have hiff := current_iff_timely repeats ((hslots.newest _).persistent_slotLatest hs) hgen hdevboot
    hauth
  constructor
  · rintro ⟨d, hd, hc⟩
    obtain rfl := Option.some.inj (hknown.symm.trans hd)
    exact hiff.mp (currentStaleness_eq_none_iff.mp hc)
  · intro ht
    exact ⟨device, hknown, currentStaleness_eq_none_iff.mpr (hiff.mpr ht)⟩

omit [StdLib] in
/-- A record that was just stored is the newest of its slot. -/
theorem newest_storedAs {id : KeyId} {mid ys : List StoredRecord} (hs : r.Slotted)
    (hthin : Thins (recordsAt r.keys id) mid)
    (hthin' : Thins (supersede (slotOf record) mid ++ [r.storedAs record device generation]) ys) :
    slotLatest ys (slotOf record) = some (r.storedAs record device generation) := by
  have hlt : ∀ s ∈ mid, s.slot = slotOf record → s.serial < r.nextSerial := fun s hm he =>
    (hs.placed id s (hthin.sublist.subset hm)).lt_of_live he
  have hmarks := ((hs.newest id).thins hthin).append
    (t := r.storedAs record device generation) rfl hlt
  have hin : r.storedAs record device generation ∈
      supersede (slotOf record) mid ++ [r.storedAs record device generation] :=
    List.mem_append_right _ List.mem_cons_self
  refine slotLatest_of_newest (t := r.storedAs record device generation)
    (hthin'.newest _ hin ((hmarks _ hin).mp rfl)) fun s hm he hne => ?_
  rcases List.mem_append.mp (hthin'.sublist.subset hm) with hm | hm
  · obtain ⟨u, hu, hk⟩ := mem_supersede hm
    rw [hk.serial]
    exact hlt u hu (hk.slot.symm.trans he)
  · exact (hne (List.mem_singleton.mp hm)).elim

/-- In every reachable registry an accepted publication of evidence beyond the mark of its boot is
in force exactly when its slot does not already state it in an untimely way or in another form. -/
theorem accepted_evidence_is_in_force (h : Reachable limits r) (now : Timestamp)
    (hk : p.kind = .publishCapability)
    (hs : ∀ publisher, r.publishers[p.publisher.id]? = some publisher →
      mark publisher p.publisher.boot < p.sequence)
    (hacc : (r.step (.apply now p)).1.accepted = true) :
    (r.after (.apply now p)).InForce p ↔ r.Reaffirmed p := by
  obtain ⟨ha, hslots⟩ := reachable_slotted h
  have hcap : p.kind.isCapability = true := by rw [hk]; rfl
  obtain ⟨hpub, hjudge⟩ := published ha hcap now hacc
  change Published r p (r.after (.apply now p)) at hpub
  change SameJudgement r (r.after (.apply now p)) at hjudge
  generalize r.after (.apply now p) = r' at hpub hjudge
  cases hpub with
  | duplicate publisher known spent =>
    have hlt := hs publisher known
    rw [spent] at hlt
    exact (UInt64.lt_irrefl _ hlt).elim
  | repeated q publisher record device key addressed authority beyond admitted known recorded
      records =>
    have hconv := conveys hcap addressed.prepared admitted
    obtain ⟨s, hlatest, hrep⟩ := alreadyRecorded_eq_true recorded
    have hslot : slotOf (qualify record device) = sourceSlot p := hconv.slot
    rw [hslot] at hlatest
    have hiff := repeated_current_iff h hcap addressed authority admitted known hlatest hrep
    have hcontent := hrep.content
    simp only [capabilityContentEqual, Bool.and_eq_true, beq_iff_eq] at hcontent
    have hsupport : s.record.support = p.capability.support := hcontent.1.1.trans hconv.support
    constructor
    · rintro ⟨t, ht, -, hval, hcond, hcur⟩ q' record' device' key' s' hp' hadm' hkey' - hs'
      obtain rfl := Except.ok.inj (addressed.prepared.symm.trans hp')
      obtain ⟨rfl, rfl⟩ := Prod.mk.inj (Except.ok.inj (admitted.symm.trans hadm'))
      obtain rfl := Option.some.inj (known.symm.trans hkey')
      rw [records, recordsAt_of_some known] at ht
      obtain rfl := Option.some.inj (ht.symm.trans hs')
      obtain rfl := Option.some.inj (ht.symm.trans hlatest)
      refine ⟨?_, hcond.trans hconv.conditions.symm, hiff.mp (hjudge.currentAt.mp hcur)⟩
      rw [hjudge.limits] at hval
      exact Except.ok.inj (hval.symm.trans hconv.value)
    · intro hre
      obtain ⟨hval, hcond, htimely⟩ :=
        hre q record device key s addressed.prepared admitted known recorded hlatest
      refine ⟨s, ?_, hsupport, ?_, hcond.trans hconv.conditions,
        hjudge.currentAt.mpr (hiff.mpr htimely)⟩
      · rw [records, recordsAt_of_some known]
        exact hlatest
      · rw [hjudge.limits, hval]
        exact hconv.value
  | stored q publisher record device generation mid addressed authority beyond admitted fresh thins
      thins' =>
    have hconv := conveys hcap addressed.prepared admitted
    have hadmits := admitCapability_eq_ok admitted
    refine iff_of_true ?_ ?_
    · refine ⟨r.storedAs record device generation, ?_, hconv.support, ?_, hconv.conditions, ?_⟩
      · rw [← hconv.slot] at thins' ⊢
        exact newest_storedAs hslots thins thins'
      · rw [hjudge.limits]
        exact hconv.value
      · have hw : q.capability.withdrawn = false :=
          (prepare_withdrawn hcap addressed.prepared).trans (by rw [hk]; rfl)
        have hprep := prepare_eq_ok addressed.prepared
        have hsender : q.capability.source.publisher = q.publisher := by
          rw [hprep.publisher]
          exact congrArg EvidenceSource.publisher hprep.source
        have hknown : r.devices[(keyOf p.capability).device]? = some device := by
          rw [← hconv.target, admits_keyOf hadmits]
          exact hadmits.known
        refine hjudge.currentAt.mpr ⟨device, hknown, currentStaleness_eq_none_iff.mpr ?_⟩
        refine current_storedAs hadmits hw hsender authority.epoch fun record hr => ?_
        rw [hprep.publisher] at hr
        exact authoritative_of_addressed h addressed authority
          (congrArg PublisherIdentity.id hr) (congrArg PublisherIdentity.boot hr)
    · intro q' record' device' key' s' hp' hadm' hkey' hrec'
      obtain rfl := Except.ok.inj (addressed.prepared.symm.trans hp')
      obtain ⟨rfl, rfl⟩ := Prod.mk.inj (Except.ok.inj (admitted.symm.trans hadm'))
      rw [fresh key' hkey'] at hrec'
      cases hrec'

omit [StdLib] in
theorem accepted_evidence_is_in_force_probe :
    letI := StdLib.reference
    (((Impl.fresh {}).run Sample.setup).after
        (.apply Sample.now (Sample.evidence 2 Sample.capability))).InForce
          (Sample.evidence 2 Sample.capability) ↔
      ((Impl.fresh {}).run Sample.setup).Reaffirmed (Sample.evidence 2 Sample.capability) := by
  let := StdLib.reference
  have hreach : Reachable {} ((Impl.fresh {}).run Sample.setup) := ⟨_, rfl⟩
  refine accepted_evidence_is_in_force hreach Sample.now rfl ?_ (by rw [Impl.fresh_eq]; decide +kernel)
  have hlow : ∀ publisher ∈ ((Impl.fresh {}).run Sample.setup).publishers[Sample.publisher.id]?,
      mark publisher Sample.publisher.boot < 2 := by
    rw [Impl.fresh_eq]
    decide
  exact fun publisher known => hlow publisher known

/-- Evidence, then a new epoch in which its publisher re-affirms its boot. -/
def publishedThenAdvanced : List Op :=
  Sample.setup ++
    [.apply Sample.now (Sample.evidence 2 Sample.capability), .advanceCoordinatorEpoch,
    .registerPublisher Sample.now Sample.publisher "adapter"]

/-- The same evidence, published again in the new epoch. -/
def republished : Publication :=
  { Sample.evidence 3 Sample.capability with publisher := { Sample.publisher with epoch := ⟨2⟩ } }

omit [StdLib] in
/-- Evidence that is published again after the epoch advanced is accepted and stays stale. -/
theorem republication_stays_stale :
    letI := StdLib.reference
    ¬ ∀ (limits : RegistryLimits) (r : Impl) (now : Timestamp) (p : Publication),
      Reachable limits r → p.kind = .publishCapability →
      (∀ publisher, r.publishers[p.publisher.id]? = some publisher →
        mark publisher p.publisher.boot < p.sequence) →
      (r.step (.apply now p)).1.accepted = true → (r.after (.apply now p)).InForce p := by
  let := StdLib.reference
  intro h
  obtain ⟨hlow, haccepted, hstale⟩ :
      let r := (Impl.fresh {}).run publishedThenAdvanced
      let r' := r.after (.apply Sample.now republished)
      (∀ publisher ∈ r.publishers[Sample.publisher.id]?, mark publisher Sample.publisher.boot < 3) ∧
        (r.step (.apply Sample.now republished)).1.accepted = true ∧
          ∀ s ∈ slotLatest (recordsAt r'.keys (keyOf republished.capability)) (sourceSlot republished),
            ¬ r'.CurrentAt (keyOf republished.capability) s := by
    rw [Impl.fresh_eq]
    decide +kernel
  obtain ⟨s, hs, -, -, -, hcur⟩ := h {} _ Sample.now republished ⟨publishedThenAdvanced, rfl⟩ rfl
    (fun publisher known => hlow publisher known) haccepted
  exact hstale s hs hcur

end Impl

end CapabilityRegistry
