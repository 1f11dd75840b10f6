import CapabilityRegistry.Generations
import CapabilityRegistry.Typing

/-! Platforms, the generation of a device's platform, and live evidence observed under it. -/
namespace CapabilityRegistry

section Descriptors
variable {a b c : PlatformIdentity}

/-- Both descriptions say the same of a platform, its display name aside; native identifiers may
stand in any order. -/
structure PlatformIdentity.SameDescriptor (a b : PlatformIdentity) : Prop where
  vendor : a.vendor = b.vendor
  model : a.model = b.model
  architecture : a.architecture = b.architecture
  nativeIdentifiers : a.nativeIdentifiers.Perm b.nativeIdentifiers

theorem PlatformIdentity.SameDescriptor.trans (h : a.SameDescriptor b) (h' : b.SameDescriptor c) :
    a.SameDescriptor c :=
  ⟨h.1.trans h'.1, h.2.trans h'.2, h.3.trans h'.3, h.4.trans h'.4⟩

end Descriptors

namespace Impl
variable {r r' : Impl} {op : Op} {id : DeviceId} {device : DeviceState} {platform : PlatformId}
  {old new : PlatformIdentity}

section Descriptions

/-- A platform that is registered again takes over the new description. -/
theorem registerPlatform_described {described : PlatformIdentity}
    (hb : r.platforms[platform]? = some old)
    (ha : (r.registerPlatform described).platforms[platform]? = some new) :
    old = new ∨ (described.id = platform ∧ described.SameDescriptor new) := by
  unfold registerPlatform at ha
  split at ha
  · exact .inl (Option.some.inj (hb.symm.trans ha))
  · split at ha
    · next hunknown =>
      split at ha
      · exact .inl (Option.some.inj (hb.symm.trans ha))
      · rw [OrdMap.insertIfNew_of_none _ hunknown, OrdMap.getElem?_insert_eq] at ha
        split at ha
        · next he =>
          rw [he, hb] at hunknown
          cases hunknown
        · exact .inl (Option.some.inj (hb.symm.trans ha))
    · next known hknown =>
      rw [OrdMap.getElem?_insert_eq] at ha
      split at ha
      · next he =>
        obtain rfl := Option.some.inj ha
        exact .inr ⟨he, rfl, rfl, rfl, (List.mergeSort_perm _ _).symm⟩
      · exact .inl (Option.some.inj (hb.symm.trans ha))

variable [StdLib]

omit [StdLib] in
theorem Evidenced.platforms {q : Publication} {out : ApplyResult × Impl} (h : Evidenced r q out) :
    out.2.platforms = r.platforms := by
  have room : ∀ r' : Impl, r'.makeRoom.platforms = r'.platforms := by
    intro r'
    unfold makeRoom
    split <;> rfl
  cases h with
  | ungoverned record device key r' result admitted opens => cases opens <;> rfl
  | repeated record device key r' result admitted opens => cases opens <;> rfl
  | saturated record device key r' result admitted fresh =>
    have ho : r'.platforms = r.platforms := by cases fresh.opens <;> rfl
    exact (room _).trans ho
  | recorded record device key r' result admitted fresh =>
    have ho : r'.platforms = r.platforms := by cases fresh.opens <;> rfl
    exact (room _).trans ho
  | _ => rfl

/-- The description of a known platform changes only to the one a registration brings. -/
theorem described_by (hop : ¬ r.Restores op) (hb : r.platforms[platform]? = some old)
    (ha : (r.after op).platforms[platform]? = some new) :
    old = new ∨ ∃ now publication, op = .apply now publication ∧
      publication.device.platform.id = platform ∧
      publication.device.platform.SameDescriptor new := by
  have hc := changed r op
  generalize r.after op = r' at hc ha
  cases hc with
  | unchanged op r' same =>
    rw [same.platforms] at ha
    exact .inl (Option.some.inj (hb.symm.trans ha))
  | schema op schema bound r' registered same =>
    obtain ⟨-, -, -, -, rfl⟩ := registerCapabilitySchemaLocked_eq_ok registered
    rw [same.platforms] at ha
    exact .inl (Option.some.inj (hb.symm.trans ha))
  | imported state report r' accepted => exact (hop ⟨state, report, r', rfl, accepted⟩).elim
  | importRefused state e r' refused =>
    obtain ⟨serial, rfl⟩ := importDurableState_eq_error refused
    exact .inl (Option.some.inj (hb.symm.trans ha))
  | payload now publication q publisher r' addressed authority verdict same =>
    have hp := prepare_eq_ok addressed.prepared
    rw [same.platforms] at ha
    have hh := handled r q
    generalize r.applyPayload q = out at hh ha
    cases hh with
    | deviceAdded result unknown room familyRoom kind =>
      have hd := registerPlatform_described (r := r.addDevice q.device) hb ha
      exact hd.imp_right fun h => ⟨now, publication, rfl, hp.device ▸ h⟩
    | deviceUpdated result existing known kind =>
      have hd := registerPlatform_described (r := { r with
        devices := r.devices.insert q.device.identity.id
          (updateDevice existing q.device (q.kind == .publishDeviceGeneration)) }) hb ha
      exact hd.imp_right fun h => ⟨now, publication, rfl, hp.device ▸ h⟩
    | evidence out kind evidenced =>
      rw [evidenced.platforms] at ha
      exact .inl (Option.some.inj (hb.symm.trans ha))
    | _ => exact .inl (Option.some.inj (hb.symm.trans ha))

end Descriptions

section Restored
variable {state : DurableState} {staged : Staged} {subjects : StagedSubjects}
  {schemas : StagedSchemas} {keys keys' : StagedKeys} {limits : RegistryLimits}
  {history : List CapabilityRecord}

/-- Every restored record is one of the file, for a device of the file. -/
theorem restored_records
    (hk : ∀ id, ∀ s ∈ recordsAt keys.keys id, s.record ∈ history ∧
      ∃ device, subjects.devices[s.record.device]? = some device)
    (h : stageRecords limits subjects schemas keys history = (.ok (), keys')) :
    ∀ id, ∀ s ∈ recordsAt keys'.keys id, s.record ∈ history ∧
      ∃ device, subjects.devices[s.record.device]? = some device := by
  refine foldlM_invariant (P := fun keys : StagedKeys => ∀ id, ∀ s ∈ recordsAt keys.keys id,
    s.record ∈ history ∧ ∃ device, subjects.devices[s.record.device]? = some device) hk
    (fun keys record hm next hprev hn => ?_) (stageRecords_eq_ok.mp h)
  obtain ⟨hcheck, -, -, rfl⟩ := stageRecord_eq_ok.mp hn
  obtain ⟨device, hd, -⟩ := (checkRecord_eq_ok hcheck).device
  intro id s hs
  simp only [recordsAt, OrdMap.getElem?_insert_eq] at hs
  split at hs
  · next he =>
    rcases List.mem_append.mp hs with hs | hs
    · obtain ⟨t, ht, hkept⟩ := mem_supersede hs
      rw [stagedKey_records] at ht
      rw [hkept.record]
      exact hprev (keyOf record) t ht
    · obtain rfl := List.mem_singleton.mp hs
      exact ⟨hm, device, hd⟩
  · exact hprev id s hs

end Restored

section Steps
variable [StdLib] {s : StoredRecord} {state : DurableState} {staged : Staged}

/-- The file is one that live evidence stays behind: it forgets no registered device and takes back
no platform generation, and its own live evidence was observed under known ones. -/
structure KeepsGenerations (r : Impl) (state : DurableState) : Prop where
  devices : ∀ (id : DeviceId) (device : DeviceState), r.devices[id]? = some device →
    ∃ subject ∈ state.subjects, subject.identity.id = id ∧
      device.platformGeneration ≤ (restoredDevice subject).platformGeneration
  evidence : ∀ record ∈ state.capabilityHistory,
    provenanceIsDurable record.source.provenance = false →
    ∀ subject ∈ state.subjects, subject.identity.id = record.device →
      record.platformGeneration.valid = true ∧
        record.platformGeneration ≤ (restoredDevice subject).platformGeneration

/-- A known platform is described anew only where no registered device is on it, but for one that
this very registration moves; no move exhausts the platform generation of a device; and a file keeps
the generations. -/
structure SettlesPlatforms (r : Impl) (op : Op) : Prop where
  described : ∀ registration explicitGeneration, Enrolls r op registration explicitGeneration →
    ∀ old : PlatformIdentity, r.platforms[registration.platform.id]? = some old →
      old.SameDescriptor registration.platform ∨
      ∀ (id : DeviceId) (device : DeviceState), r.devices[id]? = some device →
        device.identity.platform = registration.platform.id →
        id = registration.identity.id ∧
          device.identity.platform ≠ registration.identity.platform
  moved : ∀ registration explicitGeneration, Enrolls r op registration explicitGeneration →
    ∀ existing : DeviceState, r.devices[registration.identity.id]? = some existing →
      existing.identity.platform ≠ registration.identity.platform →
      existing.platformGeneration ≠ Gen.last
  imported : ∀ state report r', op = .importDurableState state →
    r.importDurableState state = (.ok report, r') → r.KeepsGenerations state

/-- Every device has a platform generation, and no live evidence is ahead of it. -/
structure PlatformTracked (r : Impl) : Prop where
  accounted : r.Accounted
  numbered : ∀ (id : DeviceId) (device : DeviceState), r.devices[id]? = some device →
    device.platformGeneration.valid = true
  observed : ∀ key, ∀ s ∈ recordsAt r.keys key,
    provenanceIsDurable s.record.source.provenance = false →
    ∃ device, r.devices[s.record.device]? = some device ∧
      s.record.platformGeneration.valid = true ∧
      s.record.platformGeneration ≤ device.platformGeneration

/-- No device is forgotten, and no platform generation goes back. -/
def PlatformsGrow (r r' : Impl) : Prop :=
  ∀ (id : DeviceId) (device : DeviceState), r.devices[id]? = some device →
    ∃ device', r'.devices[id]? = some device' ∧
      device.platformGeneration ≤ device'.platformGeneration

omit [StdLib] in
theorem platformTracked_fresh (limits : RegistryLimits) : (Impl.fresh limits).PlatformTracked := by
  refine ⟨accounted_fresh limits, fun id device hd => ?_, fun key s hs => ?_⟩
  · simp [Impl.fresh] at hd
  · simp [Impl.fresh, recordsAt] at hs

omit [StdLib] in
theorem updateDevice_platform {existing : DeviceState} {registration : DeviceRegistration}
    (explicitGeneration : Bool)
    (hl : existing.identity.platform ≠ registration.identity.platform →
      existing.platformGeneration ≠ Gen.last)
    (hv : existing.platformGeneration.valid = true) :
    (updateDevice existing registration explicitGeneration).platformGeneration.valid = true ∧
      existing.platformGeneration ≤
        (updateDevice existing registration explicitGeneration).platformGeneration := by
  simp only [updateDevice]
  split
  · next hp => exact ⟨Gen.valid_next (hl hp), Gen.le_next (hl hp)⟩
  · exact ⟨hv, Gen.le_refl _⟩

/-- What a settled call that imports nothing does to the platform generations. -/
theorem PlatformTracked.devices_after (h : r.PlatformTracked) (hs : r.SettlesPlatforms op)
    (hop : ∀ state, op ≠ .importDurableState state) :
    PlatformsGrow r (r.after op) ∧
      ∀ (id : DeviceId) (device : DeviceState), (r.after op).devices[id]? = some device →
        device.platformGeneration.valid = true := by
  have hm := devicesMove (r := r) hop
  generalize hdevices : (r.after op).devices = devices at hm
  cases hm with
  | unmoved => exact ⟨fun id device hd => ⟨device, hdevices ▸ hd, Gen.le_refl _⟩, h.numbered⟩
  | registered registration explicitGeneration enrolls =>
    have hone : ∀ known : Option DeviceState, r.devices[registration.identity.id]? = known →
        (registered known registration explicitGeneration).platformGeneration.valid = true ∧
          ∀ device, known = some device → device.platformGeneration ≤
            (registered known registration explicitGeneration).platformGeneration := by
      intro known hk
      cases known with
      | none => exact ⟨Gen.valid_first, fun _ hd => by cases hd⟩
      | some existing =>
        obtain ⟨hv, hle⟩ := updateDevice_platform explicitGeneration
          (hs.moved _ _ enrolls existing hk) (h.numbered _ _ hk)
        refine ⟨hv, fun device hd => ?_⟩
        obtain rfl := Option.some.inj hd
        exact hle
    obtain ⟨hv, hle⟩ := hone _ rfl
    constructor
    · intro id device hd
      rw [hdevices, OrdMap.getElem?_insert_eq]
      split
      · next he => exact ⟨_, rfl, hle device (he ▸ hd)⟩
      · exact ⟨device, hd, Gen.le_refl _⟩
    · intro id device hd
      rw [OrdMap.getElem?_insert_eq] at hd
      split at hd
      · exact Option.some.inj hd ▸ hv
      · exact h.numbered id device hd

omit [StdLib] in
theorem valid_restoredDevice (subject : SubjectSnapshot) :
    (restoredDevice subject).platformGeneration.valid = true := by
  simp only [restoredDevice]
  split
  · assumption
  · rfl

omit [StdLib] in
/-- What a file that keeps the generations restores. -/
theorem PlatformTracked.restored (hk : r.KeepsGenerations state) (h : Imports r state staged) :
    (r.commit state staged).PlatformTracked ∧ PlatformsGrow r (r.commit state staged) := by
  have hdevices : ∀ (id : DeviceId) (device : DeviceState),
      (r.commit state staged).devices[id]? = some device ↔
        ∃ subject ∈ state.subjects, subject.identity.id = id ∧ restoredDevice subject = device := by
    intro id device
    refine (stageSubjects_spec h.subjects).trans (or_iff_right fun hd => ?_)
    simp at hd
  have hempty : ∀ id, ∀ s ∈ recordsAt (∅ : Std.ExtTreeMap KeyId KeyState) id,
      s.record ∈ state.capabilityHistory ∧
        ∃ device, staged.subjects.devices[s.record.device]? = some device := by
    intro id s hs
    simp [recordsAt] at hs
  refine ⟨⟨Accounted.imported h, fun id device hd => ?_, fun key s hs hp => ?_⟩,
    fun id device hd => ?_⟩
  · obtain ⟨subject, -, -, rfl⟩ := (hdevices id device).mp hd
    exact valid_restoredDevice subject
  · obtain ⟨hm, device, hd⟩ := restored_records hempty h.records key s hs
    have hfound := hd
    obtain ⟨subject, hsubject, hid, rfl⟩ := (hdevices _ device).mp hd
    obtain ⟨hv, hle⟩ := hk.evidence s.record hm hp subject hsubject hid
    exact ⟨_, hfound, hv, hle⟩
  · obtain ⟨subject, hsubject, hid, hle⟩ := hk.devices id device hd
    exact ⟨_, (hdevices _ _).mpr ⟨subject, hsubject, hid, rfl⟩, hle⟩

/-- A settled call leaves the live evidence tracked and takes no platform generation back. -/
theorem PlatformTracked.after (h : r.PlatformTracked) (hs : r.SettlesPlatforms op) :
    (r.after op).PlatformTracked ∧ PlatformsGrow r (r.after op) := by
  by_cases hop : ∃ state, op = .importDurableState state
  · obtain ⟨state, rfl⟩ := hop
    cases hi : r.importDurableState state with
    | mk result r' =>
      have hafter : r.after (.importDurableState state) = r' := congrArg Prod.snd hi
      rw [hafter]
      cases result with
      | ok report =>
        obtain ⟨staged, him, -, rfl⟩ := importDurableState_eq_ok.mp hi
        exact PlatformTracked.restored (hs.imported _ _ _ rfl hi) him
      | error e =>
        obtain ⟨serial, rfl⟩ := importDurableState_eq_error hi
        refine ⟨⟨?_, h.numbered, h.observed⟩, fun id device hd => ⟨device, hd, Gen.le_refl _⟩⟩
        exact hafter ▸ h.accounted.after _
  · have hop : ∀ state, op ≠ .importDurableState state := fun state he => hop ⟨state, he⟩
    have hrestores : ¬ r.Restores op := by
      rintro ⟨state, report, r', rfl, -⟩
      exact hop state rfl
    obtain ⟨hgrow, hnumbered⟩ := h.devices_after hs hop
    refine ⟨⟨h.accounted.after op, hnumbered, fun key s hm hp => ?_⟩, hgrow⟩
    rcases (recordsMove h.accounted hrestores key).origin hm with ⟨t, ht, hkept⟩ | ⟨hrecorded, -⟩
    · rw [hkept.record] at hp ⊢
      obtain ⟨device, hd, hv, hle⟩ := h.observed key t ht hp
      obtain ⟨device', hd', hle'⟩ := hgrow _ device hd
      exact ⟨device', hd', hv, Gen.le_trans hle hle'⟩
    · obtain ⟨device, hd, hpg⟩ : ∃ device, r.devices[s.record.device]? = some device ∧
          s.record.platformGeneration = device.platformGeneration := by
        cases hrecorded with
        | mk now publication q publisher record device generation addressed authority kind admits =>
          obtain ⟨value, -, rfl⟩ := admits.value
          exact ⟨device, admits.known, rfl⟩
      obtain ⟨device', hd', hle'⟩ := hgrow _ device hd
      exact ⟨device', hd', hpg ▸ h.numbered _ device hd, hpg ▸ hle'⟩

end Steps

section Shifts
variable [StdLib] {limits : RegistryLimits} {ops later : List Op}

/-- An accepted registration describes the platform of a device anew, or moves the device to
another platform. -/
inductive PlatformShifts (r : Impl) (op : Op) (id : DeviceId) (device : DeviceState) : Prop
  | described (registration : DeviceRegistration) (explicitGeneration : Bool)
      (enrolls : Enrolls r op registration explicitGeneration) (old new : PlatformIdentity)
      (known : r.platforms[device.identity.platform]? = some old)
      (changed : (r.after op).platforms[device.identity.platform]? = some new)
      (differs : ¬ old.SameDescriptor new)
  | moved (registration : DeviceRegistration) (explicitGeneration : Bool)
      (enrolls : Enrolls r op registration explicitGeneration)
      (target : registration.identity.id = id)
      (leaves : device.identity.platform ≠ registration.identity.platform)

/-- The platform generation of the device advances, and its live evidence from before the call is
stale in the later state wherever it is still retained. A record published again carries the new
platform generation, so it is another record. -/
structure OutdatesPlatform (r : Impl) (op : Op) (id : DeviceId) (device : DeviceState)
    (last : Impl) : Prop where
  advances : ∃ device', (r.after op).devices[id]? = some device' ∧
    device.platformGeneration < device'.platformGeneration
  stale : ∀ key, ∀ s ∈ recordsAt r.keys key, s.record.device = id →
    provenanceIsDurable s.record.source.provenance = false →
    ∀ key', ∀ s' ∈ recordsAt last.keys key', s'.record = s.record →
      ∃ device' ∈ last.devices[id]?, last.currentStaleness s' device' ≠ .none

theorem Enrolls.apply {registration : DeviceRegistration} {explicitGeneration : Bool}
    {now : Timestamp} {publication : Publication}
    (h : Enrolls r (.apply now publication) registration explicitGeneration) :
    registration = publication.device := by
  cases h
  rfl

/-- Where the platforms are settled, every shift of a platform moves the device itself. -/
theorem PlatformShifts.moves (h : r.PlatformShifts op id device) (hs : r.SettlesPlatforms op)
    (hd : r.devices[id]? = some device) :
    ∃ registration explicitGeneration, Enrolls r op registration explicitGeneration ∧
      registration.identity.id = id ∧
      device.identity.platform ≠ registration.identity.platform := by
  cases h with
  | moved registration explicitGeneration enrolls target leaves =>
    exact ⟨registration, explicitGeneration, enrolls, target, leaves⟩
  | described registration explicitGeneration enrolls old new known changed differs =>
    have hrestores : ¬ r.Restores op := by
      rintro ⟨state, report, r', rfl, -⟩
      cases enrolls
    rcases described_by hrestores known changed with rfl | ⟨now, publication, rfl, hid, hsame⟩
    · exact (differs ⟨rfl, rfl, rfl, List.Perm.refl _⟩).elim
    · obtain rfl := enrolls.apply
      rcases hs.described _ _ enrolls old (hid ▸ known) with hold | hnobody
      · exact (differs (hold.trans hsame)).elim
      · obtain ⟨he, hleaves⟩ := hnobody id device hd hid.symm
        exact ⟨_, _, enrolls, he.symm, hleaves⟩

/-- A device that is moved is at a new platform generation. -/
theorem advances_of_moved {registration : DeviceRegistration} {explicitGeneration : Bool}
    (hs : r.SettlesPlatforms op) (henrolls : Enrolls r op registration explicitGeneration)
    (hd : r.devices[registration.identity.id]? = some device)
    (hleaves : device.identity.platform ≠ registration.identity.platform) :
    ∃ device', (r.after op).devices[registration.identity.id]? = some device' ∧
      device.platformGeneration < device'.platformGeneration := by
  have hm : DevicesMove r op (r.after op).devices := devicesMove fun state he => by
    rw [he] at henrolls
    cases henrolls
  generalize hdevices : (r.after op).devices = devices at hm
  cases hm with
  | unmoved unregistered => exact (unregistered _ _ henrolls).elim
  | registered registration' explicitGeneration' enrolls only =>
    obtain ⟨rfl, rfl⟩ := only _ _ henrolls
    refine ⟨_, OrdMap.getElem?_insert_self _ _ _, ?_⟩
    rw [hd]
    simp only [registered, updateDevice, ne_eq, hleaves, not_false_eq_true, if_true]
    exact Gen.lt_next (hs.moved _ _ enrolls device hd hleaves)

/-- In a run of calls that settle the platforms, every change of a platform advances the platform
generation of its devices and outdates their live evidence for the rest of the run. -/
theorem platform_changes_outdate
    (h : Machine.Along Impl.after SettlesPlatforms (Impl.fresh limits) (ops ++ op :: later))
    (hd : ((Impl.fresh limits).run ops).devices[id]? = some device)
    (hs : ((Impl.fresh limits).run ops).PlatformShifts op id device) :
    ((Impl.fresh limits).run ops).OutdatesPlatform op id device
      ((Impl.fresh limits).run (ops ++ op :: later)) := by
  obtain ⟨hbefore, hrest⟩ := Machine.along_append.mp h
  obtain ⟨hsettled, hlater⟩ :
      ((Impl.fresh limits).run ops).SettlesPlatforms op ∧ Machine.Along Impl.after
        SettlesPlatforms (((Impl.fresh limits).run ops).after op) later := hrest
  have htracked : ((Impl.fresh limits).run ops).PlatformTracked :=
    hbefore.invariant (platformTracked_fresh limits) fun r op ht hg => (ht.after hg).1
  have hrun : (Impl.fresh limits).run (ops ++ op :: later) =
      (((Impl.fresh limits).run ops).after op).run later := List.foldl_append ..
  rw [hrun]
  generalize (Impl.fresh limits).run ops = r at hd hs htracked hsettled hlater
  obtain ⟨registration, explicitGeneration, henrolls, rfl, hleaves⟩ := hs.moves hsettled hd
  obtain ⟨device', hd', hlt⟩ := advances_of_moved hsettled henrolls hd hleaves
  -- the device is never behind the generation this call gave it
  have hlast : ((r.after op).run later).PlatformTracked ∧
      ∃ last, ((r.after op).run later).devices[registration.identity.id]? = some last ∧
        device'.platformGeneration ≤ last.platformGeneration := by
    refine hlater.invariant (P := fun r : Impl => r.PlatformTracked ∧
      ∃ last, r.devices[registration.identity.id]? = some last ∧
        device'.platformGeneration ≤ last.platformGeneration)
      ⟨(htracked.after hsettled).1, device', hd', Gen.le_refl _⟩ ?_
    rintro r op ⟨ht, last, hl, hle⟩ hg
    obtain ⟨ht', hgrow⟩ := ht.after hg
    obtain ⟨last', hl', hle'⟩ := hgrow _ last hl
    exact ⟨ht', last', hl', Gen.le_trans hle hle'⟩
  obtain ⟨-, last, hl, hle⟩ := hlast
  refine ⟨⟨device', hd', hlt⟩, fun key s hm hid hp key' s' hm' hsame => ⟨last, hl, fun hnone => ?_⟩⟩
  obtain ⟨known, hknown, hv, hobserved⟩ := htracked.observed key s hm hp
  rw [hid, hd] at hknown
  obtain rfl := Option.some.inj hknown
  have hpassed : Passed s.record.platformGeneration last.platformGeneration :=
    ⟨hv, Gen.lt_of_le_of_lt hobserved (Gen.lt_of_lt_of_le hlt hle)⟩
  have hcurrent := (currentStaleness_eq_none_iff.mp hnone).platform (hsame ▸ hp)
  rw [hsame, axisChanged_of_passed hpassed] at hcurrent
  cases hcurrent

/-- The registration describes no platform that is known, and its device can still be moved. -/
def DescribesNone (r : Impl) (registration : DeviceRegistration) : Prop :=
  r.platforms[registration.platform.id]? = none ∧
    ∀ existing ∈ r.devices[registration.identity.id]?, existing.platformGeneration ≠ Gen.last

instance (r : Impl) (registration : DeviceRegistration) :
    Decidable (r.DescribesNone registration) := inferInstanceAs (Decidable (_ ∧ _))

theorem DescribesNone.settles {now : Timestamp} {publication : Publication}
    (h : r.DescribesNone publication.device) : r.SettlesPlatforms (.apply now publication) := by
  refine ⟨fun registration _ henrolls old hold => ?_, fun registration _ henrolls existing hd _ => ?_,
    fun state report r' he => by cases he⟩
  · obtain rfl := henrolls.apply
    rw [h.1] at hold
    cases hold
  · obtain rfl := henrolls.apply
    exact h.2 existing hd

/-- The sample device on a platform. -/
def deviceOn (platform : PlatformIdentity) : DeviceRegistration := { Sample.device with
  identity.platform := Id.parse "plat.a"
  platform }

/-- The device observed on no platform. -/
def observedDevice : List Op := Sample.setup ++
  [.apply Sample.now (Sample.evidence 2 Sample.capability)]

/-- The device moves to a platform that is not described. -/
def relocation : Op := .apply Sample.now (Sample.deviceRegistration 3 (deviceOn {}))

/-- The platform a device is on, and the same one under another vendor. -/
def platformOf (vendor : Text) : PlatformIdentity := { id := Id.parse "plat.a", vendor }

def describedPlatform : List Op := [Sample.registration,
  .apply Sample.now (Sample.deviceRegistration 1 (deviceOn (platformOf "vendor.a")))]

def redescription : Op :=
  .apply Sample.now (Sample.deviceRegistration 2 (deviceOn (platformOf "vendor.b")))

omit [StdLib] in
theorem platform_changes_outdate_relocated :
    letI := StdLib.reference
    ∃ device, ((Impl.fresh {}).run observedDevice).devices[(Id.parse "dev.a" : DeviceId)]? =
        some device ∧
      ((Impl.fresh {}).run observedDevice).OutdatesPlatform relocation (Id.parse "dev.a") device
        ((Impl.fresh {}).run (observedDevice ++ relocation :: [])) := by
  let := StdLib.reference
  obtain ⟨hfirst, hevidence, hmove, hd, hplatform, haccepted⟩ :
      ((Impl.fresh {}).after Sample.registration).DescribesNone
        (Sample.deviceRegistration 1 Sample.device).device ∧
      ((Impl.fresh {}).run Sample.setup).DescribesNone
        (Sample.evidence 2 Sample.capability).device ∧
      ((Impl.fresh {}).run observedDevice).DescribesNone
        (Sample.deviceRegistration 3 (deviceOn {})).device ∧
      (((Impl.fresh {}).run observedDevice).devices[(Id.parse "dev.a" : DeviceId)]?).isSome = true ∧
      (((Impl.fresh {}).run observedDevice).devices[(Id.parse "dev.a" : DeviceId)]?).all
        (fun device => device.identity.platform != Id.parse "plat.a") = true ∧
      (((Impl.fresh {}).run observedDevice).applyLocked Sample.now
        (Sample.deviceRegistration 3 (deviceOn {}))).1.code = .accepted := by
    rw [Impl.fresh_eq]
    decide +kernel
  obtain ⟨device, hdevice⟩ := Option.isSome_iff_exists.mp hd
  rw [hdevice, Option.all_some, bne_iff_ne] at hplatform
  have hregisters : (Impl.fresh {}).SettlesPlatforms Sample.registration := by
    refine ⟨fun _ _ henrolls => ?_, fun _ _ henrolls => ?_, fun state report r' he => ?_⟩
    · cases henrolls
    · cases henrolls
    · cases he
  have hsetup : Machine.Along Impl.after SettlesPlatforms (Impl.fresh {}) Sample.setup :=
    ⟨hregisters, hfirst.settles, trivial⟩
  have hobserved : Machine.Along Impl.after SettlesPlatforms (Impl.fresh {}) observedDevice :=
    Machine.along_append.mpr ⟨hsetup, hevidence.settles, trivial⟩
  have hrelocated : Machine.Along Impl.after SettlesPlatforms (Impl.fresh {})
      (observedDevice ++ relocation :: []) :=
    Machine.along_append.mpr ⟨hobserved, hmove.settles, trivial⟩
  exact ⟨device, hdevice, platform_changes_outdate hrelocated hdevice
    (.moved (deviceOn {}) false (.mk Sample.now (Sample.deviceRegistration 3 (deviceOn {}))
      (.inl rfl) haccepted) rfl hplatform)⟩

omit [StdLib] in
/-- A platform that is described anew leaves the platform generation of its device as it is. -/
theorem redescribed_platform_keeps_generation :
    letI := StdLib.reference
    ∃ device, ((Impl.fresh {}).run describedPlatform).devices[(Id.parse "dev.a" : DeviceId)]? =
        some device ∧
      ((Impl.fresh {}).run describedPlatform).PlatformShifts redescription (Id.parse "dev.a")
        device ∧
      ∀ last, ¬((Impl.fresh {}).run describedPlatform).OutdatesPlatform redescription
        (Id.parse "dev.a") device last := by
  let := StdLib.reference
  obtain ⟨hd, hplatform, haccepted, hold, hnew, hkept⟩ :
      (((Impl.fresh {}).run describedPlatform).devices[(Id.parse "dev.a" : DeviceId)]?).isSome =
        true ∧
      (((Impl.fresh {}).run describedPlatform).devices[(Id.parse "dev.a" : DeviceId)]?).all
        (fun device => device.identity.platform == Id.parse "plat.a") = true ∧
      (((Impl.fresh {}).run describedPlatform).applyLocked Sample.now
        (Sample.deviceRegistration 2 (deviceOn (platformOf "vendor.b")))).1.code = .accepted ∧
      (((Impl.fresh {}).run describedPlatform).platforms[(Id.parse "plat.a" : PlatformId)]?).map
        PlatformIdentity.vendor = some "vendor.a" ∧
      ((((Impl.fresh {}).run describedPlatform).after redescription).platforms[
        (Id.parse "plat.a" : PlatformId)]?).map PlatformIdentity.vendor = some "vendor.b" ∧
      ((((Impl.fresh {}).run describedPlatform).after redescription).devices[
        (Id.parse "dev.a" : DeviceId)]?).map DeviceState.platformGeneration =
      (((Impl.fresh {}).run describedPlatform).devices[(Id.parse "dev.a" : DeviceId)]?).map
        DeviceState.platformGeneration := by
    decide
  obtain ⟨device, hdevice⟩ := Option.isSome_iff_exists.mp hd
  rw [hdevice, Option.all_some, beq_iff_eq] at hplatform
  obtain ⟨old, hold, hvendor⟩ := Option.map_eq_some_iff.mp hold
  obtain ⟨new, hnew, hvendor'⟩ := Option.map_eq_some_iff.mp hnew
  refine ⟨device, hdevice, ?_, fun last houtdates => ?_⟩
  · refine .described _ false (.mk Sample.now _ (.inl rfl) haccepted) old new ?_ ?_ fun hsame => ?_
    · rw [hplatform]
      exact hold
    · rw [hplatform]
      exact hnew
    · have hne : ("vendor.a" : Text) ≠ "vendor.b" := by decide
      exact hne (hvendor.symm.trans (hsame.vendor.trans hvendor'))
  · obtain ⟨device', hd', hlt⟩ := houtdates.advances
    rw [hd', hdevice, Option.map_some, Option.map_some, Option.some.injEq] at hkept
    rw [hkept] at hlt
    exact Gen.lt_irrefl _ hlt

end Shifts

end Impl

end CapabilityRegistry
