import CapabilityRegistry.Authority

/-! How calls move the records of a key and the registered devices. -/
namespace CapabilityRegistry

section Slots
variable {slot : Text} {records records' : List StoredRecord} {s s' : StoredRecord}

/-- The same record, possibly superseded in the meantime. -/
structure Kept (s s' : StoredRecord) : Prop where
  record : s'.record = s.record
  slot : s'.slot = s.slot
  serial : s'.serial = s.serial
  persistent : s.persistent ≠ .none → s'.persistent ≠ .none

theorem Kept.refl (s : StoredRecord) : Kept s s := ⟨rfl, rfl, rfl, id⟩

theorem supersededByNewerEvidence_ne_none : StalenessFlag.supersededByNewerEvidence ≠ .none := by
  decide

theorem mem_supersede (h : s' ∈ supersede slot records) : ∃ s ∈ records, Kept s s' := by
  obtain ⟨s, hs, rfl⟩ := List.mem_map.mp h
  refine ⟨s, hs, ?_⟩
  split
  · refine ⟨rfl, rfl, rfl, fun _ => ?_⟩
    simp [StalenessFlag.raise_eq_none_iff supersededByNewerEvidence_ne_none]
  · exact Kept.refl s

theorem map_serial_supersede (slot : Text) (records : List StoredRecord) :
    (supersede slot records).map StoredRecord.serial = records.map StoredRecord.serial := by
  rw [supersede, List.map_map]
  refine List.map_congr_left fun s _ => ?_
  simp only [Function.comp]
  split <;> rfl

end Slots

namespace Impl
variable {r r' : Impl} {op : Op} {id : KeyId} {q : Publication} {record record' : CapabilityRecord}
  {device : DeviceState} {key : KeyState} {out : ApplyResult × Impl}
  {publisher : PublisherStateInternal} {publication : Publication}

/-- What a capability publication satisfies once it is admitted. -/
structure Admits (r : Impl) (record record' : CapabilityRecord) (device : DeviceState) : Prop where
  schema : ∃ schema, r.schemas[record.schema]? = some schema ∧
    schema.capability = record.capability ∧
    (record.value.empty = false → record.value.kind = schema.valueKind)
  value : ∃ value, normalizeValue r.limits record.value = .ok value ∧
    record' = { record with value := value }
  known : r.devices[record.device]? = some device
  generation : record.deviceGeneration = device.generation
  boot : record.deviceBoot = device.boot

theorem admitCapability_eq_ok (h : r.admitCapability record = .ok (record', device)) :
    Admits r record record' device := by
  unfold admitCapability at h
  split at h
  · cases h
  · next schema hs =>
    split at h
    · cases h
    · next hc =>
      split at h
      · cases h
      · next hkind =>
        split at h
        · cases h
        · split at h
          · cases h
          · next value hv =>
            split at h
            · cases h
            · next device' hd =>
              split at h
              · cases h
              · next hg =>
                split at h
                · cases h
                · next hb =>
                  obtain ⟨rfl, rfl⟩ := Prod.mk.inj (Except.ok.inj h)
                  have hkind : record.value.empty = false →
                      record.value.kind = schema.valueKind := by
                    intro he
                    simpa [he] using hkind
                  exact ⟨⟨schema, hs, by simpa using hc, hkind⟩, ⟨value, hv, rfl⟩, hd, by simpa using hg,
                    by simpa using hb⟩

/-- The stored form of an admitted record. -/
def storedAs (r : Impl) (record : CapabilityRecord) (device : DeviceState)
    (generation : CapabilityGeneration) : StoredRecord :=
  { record := { qualify record device with capabilityGeneration := generation }
    slot := slotOf record
    serial := r.nextSerial }

/-- How one call that restores nothing moves the records of one key. -/
inductive RecordsMove (r : Impl) : Op → Impl → KeyId → Prop
  | kept (op : Op) (r' : Impl) (id : KeyId)
      (sub : (recordsAt r'.keys id).Sublist (recordsAt r.keys id)) : RecordsMove r op r' id
  | stored (now : Timestamp) (publication q : Publication) (publisher : PublisherStateInternal)
      (record : CapabilityRecord) (device : DeviceState) (generation : CapabilityGeneration)
      (mid : List StoredRecord) (r' : Impl) (addressed : Addressed r publication q publisher)
      (authority : r.Authorized publisher q) (kind : q.kind.isCapability = true)
      (admits : Admits r q.capability record device)
      (sub : mid.Sublist (recordsAt r.keys (keyOf q.capability)))
      (sub' : (recordsAt r'.keys (keyOf q.capability)).Sublist
        (supersede (slotOf record) mid ++ [r.storedAs record device generation]))
      (serial : r'.nextSerial = r.nextSerial + 1) :
    RecordsMove r (.apply now publication) r' (keyOf q.capability)

theorem recordsAt_opens (h : Opens r record key r') (id : KeyId) :
    recordsAt r'.keys id = recordsAt r.keys id := by
  cases h with
  | existing => rfl
  | created unknown room =>
    have hk : ((r.touchDeviceKeys record.device).createKey record).keys =
        r.keys.insert (keyOf record) { schema := record.schema } :=
      OrdMap.insertIfNew_of_none _ unknown
    unfold recordsAt
    rw [hk, OrdMap.getElem?_insert_eq]
    split
    · next he => simp [← he, unknown]
    · rfl

theorem recordsAt_bumped (h : r.keys[keyOf record]? = some key) (device : DeviceState) (id : KeyId) :
    recordsAt (r.bumped key record device).keys id = recordsAt r.keys id := by
  simp only [recordsAt, bumped, OrdMap.getElem?_insert_eq]
  split
  · next he =>
    rw [← he, h]
    rfl
  · rfl

theorem recordsAt_insertRecord (h : r.keys[keyOf record]? = some key) (id : KeyId) :
    recordsAt (r.insertRecord record).keys id = if keyOf record = id then
      supersede (slotOf record) key.records ++
        [{ record := record, slot := slotOf record, serial := r.nextSerial }]
      else recordsAt r.keys id := by
  simp only [recordsAt, insertRecord]
  rw [OrdMap.modify_of_some _ h, OrdMap.getElem?_insert_eq]
  split <;> rfl

theorem makeRoom_nextSerial (r : Impl) : r.makeRoom.nextSerial = r.nextSerial := by
  unfold makeRoom
  split <;> rfl

theorem makeRoom_devices (r : Impl) : r.makeRoom.devices = r.devices := by
  unfold makeRoom
  split <;> rfl

theorem Opens.nextSerial (h : Opens r record key r') : r'.nextSerial = r.nextSerial := by
  cases h <;> rfl

theorem admits_keyOf (h : Admits r record record' device) : keyOf record' = keyOf record := by
  obtain ⟨value, -, rfl⟩ := h.value
  rfl

theorem Evidenced.records (ha : r.Accounted) (h : Evidenced r q out)
    (hk : q.kind.isCapability = true) (addressed : Addressed r publication q publisher)
    (authority : r.Authorized publisher q) (now : Timestamp) (id : KeyId) :
    RecordsMove r (.apply now publication) out.2 id := by
  cases h with
  | inadmissible => exact .kept _ _ _ (List.Sublist.refl _)
  | keyLimit => exact .kept _ _ _ (List.Sublist.refl _)
  | ungoverned record device key r' result admitted opens =>
    refine .kept _ _ _ ?_
    rw [recordsAt_opens opens]
  | repeated record device key r' result admitted opens =>
    refine .kept _ _ _ ?_
    rw [recordsAt_opens opens]
  | saturated record device key r' result admitted fresh full refused =>
    have hkey := opens_key fresh.opens
    have hb := (ha.opens fresh.opens).bumped device hkey
    have hs := (makeRoom_shrink hb.counted).recordsAt_sublist id
    rw [recordsAt_bumped hkey, recordsAt_opens fresh.opens] at hs
    exact .kept _ _ _ hs
  | recorded record device key r' result admitted fresh room accepted mutated =>
    have hkey := opens_key fresh.opens
    have hb := (ha.opens fresh.opens).bumped device hkey
    obtain ⟨mid, hmid, hshrink⟩ := (makeRoom_shrink hb.counted).target bumped_key
    have hacc := hb.makeRoom.inserted (r'.assigned key record device) hmid room
    have hev := (evictIfNeeded_spec hacc.counted).1.recordsAt_sublist id
    have hkeyOf : keyOf (r'.assigned key record device) = keyOf record := rfl
    rw [recordsAt_insertRecord (hkeyOf ▸ hmid), hkeyOf] at hev
    have hser : ((r'.bumped key record device).makeRoom).nextSerial = r.nextSerial :=
      (makeRoom_nextSerial _).trans fresh.opens.nextSerial
    have hadm := admitCapability_eq_ok admitted
    split at hev
    · next he =>
      obtain rfl : keyOf q.capability = id := (admits_keyOf hadm).symm.trans he
      have hm := (makeRoom_shrink hb.counted).recordsAt_sublist (keyOf record)
      rw [recordsAt_bumped hkey, recordsAt_opens fresh.opens, recordsAt_of_some hmid, he] at hm
      rw [hser] at hev
      refine .stored now publication q publisher record device
        (r'.assignedGeneration key (qualify record device) device) mid.records _ addressed
        authority hk hadm hm hev ?_
      rw [evictIfNeeded_nextSerial]
      exact congrArg (· + 1) hser
    · have hs := (makeRoom_shrink hb.counted).recordsAt_sublist id
      rw [recordsAt_bumped hkey, recordsAt_opens fresh.opens] at hs
      exact .kept _ _ _ (hev.trans hs)

section Calls
variable [StdLib] {stored : StoredRecord}

/-- A stored record that one call appended to a key. -/
inductive Recorded (r : Impl) : Op → KeyId → StoredRecord → Prop
  | mk (now : Timestamp) (publication q : Publication) (publisher : PublisherStateInternal)
      (record : CapabilityRecord) (device : DeviceState) (generation : CapabilityGeneration)
      (addressed : Addressed r publication q publisher) (authority : r.Authorized publisher q)
      (kind : q.kind.isCapability = true) (admits : Admits r q.capability record device) :
    Recorded r (.apply now publication) (keyOf q.capability) (r.storedAs record device generation)

omit [StdLib] in
theorem registerPlatform_nextSerial (r : Impl) (platform : PlatformIdentity) :
    (r.registerPlatform platform).nextSerial = r.nextSerial := by
  unfold registerPlatform
  repeat' split
  all_goals rfl

omit [StdLib] in
theorem applyPayload_recordsMove (ha : r.Accounted) (addressed : Addressed r publication q publisher)
    (authority : r.Authorized publisher q) (now : Timestamp) (id : KeyId) :
    RecordsMove r (.apply now publication) (r.applyPayload q).2 id := by
  have h := Impl.handled r q
  generalize r.applyPayload q = out at h
  cases h with
  | deviceAdded =>
    refine .kept _ _ _ ?_
    rw [registerPlatform_keys]
    exact List.Sublist.refl _
  | deviceUpdated =>
    refine .kept _ _ _ ?_
    rw [registerPlatform_keys]
  | evidence out kind evidenced => exact evidenced.records ha kind addressed authority now id
  | _ => exact .kept _ _ _ (List.Sublist.refl _)

omit [StdLib] in
theorem RecordsMove.of_same {r'' : Impl} (h : RecordsMove r op r' id) (hk : r''.keys = r'.keys)
    (hn : r''.nextSerial = r'.nextSerial) : RecordsMove r op r'' id := by
  cases h with
  | kept op r' id sub =>
    refine .kept _ _ _ ?_
    rw [hk]
    exact sub
  | stored now publication q publisher record device generation mid r' addressed authority kind
      admits sub sub' serial =>
    refine .stored now publication q publisher record device generation mid _ addressed authority
      kind admits sub ?_ (hn.trans serial)
    rw [hk]
    exact sub'

theorem recordsMove (ha : r.Accounted) (hop : ¬ r.Restores op) (id : KeyId) :
    RecordsMove r op (r.after op) id := by
  have hc := changed r op
  generalize r.after op = r' at hc
  have hsame : ∀ (op : Op) (r' : Impl), r'.keys = r.keys → RecordsMove r op r' id := by
    intro op r' hk
    refine .kept _ _ _ ?_
    rw [hk]
  cases hc with
  | unchanged op r' same => exact hsame _ _ same.keys
  | payload now publication q publisher r' addressed authority verdict same =>
    exact (applyPayload_recordsMove ha addressed authority now id).of_same same.keys same.nextSerial
  | schema op schema bound r' registered same =>
    obtain ⟨-, -, -, -, rfl⟩ := registerCapabilitySchemaLocked_eq_ok registered
    exact hsame _ _ same.keys
  | imported state report r' accepted => exact (hop ⟨state, report, r', rfl, accepted⟩).elim
  | importRefused state e r' refused =>
    obtain ⟨serial, rfl⟩ := importDurableState_eq_error refused
    exact hsame _ _ rfl

omit [StdLib] in
/-- Every record of the key was there before or is the one the call appended. -/
theorem RecordsMove.origin (h : RecordsMove r op r' id) (hs : stored ∈ recordsAt r'.keys id) :
    (∃ s ∈ recordsAt r.keys id, Kept s stored) ∨
      (Recorded r op id stored ∧ r'.nextSerial = r.nextSerial + 1) := by
  cases h with
  | kept op r' id sub => exact .inl ⟨stored, sub.subset hs, Kept.refl stored⟩
  | stored now publication q publisher record device generation mid r' addressed authority kind
      admits sub sub' serial =>
    rcases List.mem_append.mp (sub'.subset hs) with hm | hm
    · obtain ⟨s, hs', hk⟩ := mem_supersede hm
      exact .inl ⟨s, sub.subset hs', hk⟩
    · obtain rfl := List.mem_singleton.mp hm
      exact .inr ⟨.mk now publication q publisher record device generation addressed authority kind
        admits, serial⟩

/-- The serials of a key strictly increase and were all given out. -/
structure Serialized (r : Impl) (id : KeyId) : Prop where
  increasing : ((recordsAt r.keys id).map StoredRecord.serial).Pairwise (· < ·)
  issued : ∀ s ∈ recordsAt r.keys id, s.serial < r.nextSerial

omit [StdLib] in
theorem RecordsMove.serialized (h : RecordsMove r op r' id) (hs : r.Serialized id)
    (hn : r.nextSerial ≤ r'.nextSerial) : r'.Serialized id := by
  cases h with
  | kept op r' id sub =>
    exact ⟨hs.increasing.sublist (sub.map _), fun s hm => (hs.issued s (sub.subset hm)).trans_le hn⟩
  | stored now publication q publisher record device generation mid r' addressed authority kind
      admits sub sub' serial =>
    have hmid : ∀ n ∈ (supersede (slotOf record) mid).map StoredRecord.serial, n < r.nextSerial := by
      rw [map_serial_supersede]
      intro n hm
      obtain ⟨s, hs', rfl⟩ := List.mem_map.mp hm
      exact hs.issued s (sub.subset hs')
    refine ⟨?_, fun s hm => ?_⟩
    · refine List.Pairwise.sublist (sub'.map _) ?_
      rw [List.map_append, List.pairwise_append, map_serial_supersede]
      refine ⟨hs.increasing.sublist (sub.map _), List.pairwise_singleton _ _, ?_⟩
      rw [← map_serial_supersede (slotOf record)]
      intro a ha b hb
      obtain rfl := List.mem_singleton.mp hb
      exact hmid a ha
    · rw [serial]
      rcases List.mem_append.mp (sub'.subset hm) with hm | hm
      · exact (hmid _ (List.mem_map_of_mem hm)).trans (Nat.lt_succ_self _)
      · obtain rfl := List.mem_singleton.mp hm
        exact Nat.lt_succ_self _

omit [StdLib] in
/-- A serial names one record of its key. -/
theorem Serialized.unique {s : StoredRecord} (h : r.Serialized id)
    (hs : s ∈ recordsAt r.keys id) (hs' : stored ∈ recordsAt r.keys id)
    (he : s.serial = stored.serial) : s = stored :=
  (List.inj_on_of_nodup_map (h.increasing.imp fun hlt => hlt.ne)) hs hs' he

omit [StdLib] in
theorem applyPayload_nextSerial (r : Impl) (q : Publication) :
    (r.applyPayload q).2.nextSerial = r.nextSerial ∨
      (r.applyPayload q).2.nextSerial = r.nextSerial + 1 := by
  have h := Impl.handled r q
  generalize r.applyPayload q = out at h
  cases h with
  | deviceAdded => exact .inl (registerPlatform_nextSerial _ _)
  | deviceUpdated => exact .inl (registerPlatform_nextSerial _ _)
  | evidence out kind evidenced =>
    cases evidenced with
    | ungoverned record device key r' result admitted opens => exact .inl opens.nextSerial
    | repeated record device key r' result admitted opens => exact .inl opens.nextSerial
    | saturated record device key r' result admitted fresh =>
      exact .inl ((makeRoom_nextSerial (r'.bumped key record device)).trans fresh.opens.nextSerial)
    | recorded record device key r' result admitted fresh =>
      have hn := (makeRoom_nextSerial (r'.bumped key record device)).trans fresh.opens.nextSerial
      rw [evictIfNeeded_nextSerial]
      exact .inr (congrArg (· + 1) hn)
    | _ => exact .inl rfl
  | _ => exact .inl rfl

/-- A call that imports nothing gives out one serial at most. -/
theorem nextSerial_moves (hop : ∀ state, op ≠ .importDurableState state) :
    (r.after op).nextSerial = r.nextSerial ∨ (r.after op).nextSerial = r.nextSerial + 1 := by
  have hc := changed r op
  generalize r.after op = r' at hc
  cases hc with
  | unchanged op r' same => exact .inl same.nextSerial
  | payload now publication q publisher r' addressed authority verdict same =>
    rw [same.nextSerial]
    exact applyPayload_nextSerial r q
  | schema op schema bound r' registered same =>
    obtain ⟨-, -, -, -, rfl⟩ := registerCapabilitySchemaLocked_eq_ok registered
    exact .inl same.nextSerial
  | imported state => exact (hop state rfl).elim
  | importRefused state => exact (hop state rfl).elim

/-- Serials are never given out twice by calls that import nothing. -/
theorem nextSerial_after (hop : ∀ state, op ≠ .importDurableState state) :
    r.nextSerial ≤ (r.after op).nextSerial := by
  rcases nextSerial_moves hop with h | h
  · exact h.ge
  · omega

/-- How a call that restores nothing moves one device. -/
inductive DeviceMove (r : Impl) (id : DeviceId) :
    Op → Option DeviceState → Option DeviceState → Prop
  | unmoved (op : Op) (x : Option DeviceState) : DeviceMove r id op x x
  | created (op : Op) (registration : DeviceRegistration) :
    DeviceMove r id op none (some (createDevice registration))
  | updated (now : Timestamp) (publication : Publication) (existing : DeviceState)
      (target : publication.device.identity.id = id)
      (kind : publication.kind = .registerDevice ∨ publication.kind = .publishDeviceGeneration) :
    DeviceMove r id (.apply now publication) (some existing)
      (some (updateDevice existing publication.device
        (publication.kind == .publishDeviceGeneration)))

omit [StdLib] in
@[simp] theorem registerPlatform_devices (r : Impl) (platform : PlatformIdentity) :
    (r.registerPlatform platform).devices = r.devices := by
  unfold registerPlatform
  repeat' split
  all_goals rfl

omit [StdLib] in
theorem Evidenced.devices (h : Evidenced r q out) : out.2.devices = r.devices := by
  cases h with
  | ungoverned record device key r' result admitted opens => cases opens <;> rfl
  | repeated record device key r' result admitted opens => cases opens <;> rfl
  | saturated record device key r' result admitted fresh =>
    have ho : r'.devices = r.devices := by cases fresh.opens <;> rfl
    exact (makeRoom_devices _).trans ho
  | recorded record device key r' result admitted fresh =>
    have ho : r'.devices = r.devices := by cases fresh.opens <;> rfl
    exact (makeRoom_devices _).trans ho
  | _ => rfl

omit [StdLib] in
theorem applyPayload_deviceMove (addressed : Addressed r publication q publisher)
    (now : Timestamp) (deviceId : DeviceId) :
    DeviceMove r deviceId (.apply now publication) (r.devices[deviceId]?)
      ((r.applyPayload q).2.devices[deviceId]?) := by
  have hp := prepare_eq_ok addressed.prepared
  have h := Impl.handled r q
  generalize r.applyPayload q = out at h
  cases h with
  | deviceAdded result unknown room familyRoom kind accepted mutated =>
    have hd : (r.addDevice q.device).devices =
        r.devices.insert q.device.identity.id (createDevice q.device) :=
      OrdMap.insertIfNew_of_none _ unknown
    rw [registerPlatform_devices, hd, OrdMap.getElem?_insert_eq]
    split
    · next he =>
      rw [← he, unknown]
      exact .created _ _
    · exact .unmoved _ _
  | deviceUpdated result existing known kind accepted mutated =>
    rw [registerPlatform_devices, OrdMap.getElem?_insert_eq]
    split
    · next he =>
      rw [← he, known, hp.device, hp.kind]
      exact .updated now publication existing rfl (hp.kind ▸ kind)
    · exact .unmoved _ _
  | evidence out kind evidenced =>
    rw [evidenced.devices]
    exact .unmoved _ _
  | _ => exact .unmoved _ _

theorem deviceMove (hop : ¬ r.Restores op) (deviceId : DeviceId) :
    DeviceMove r deviceId op (r.devices[deviceId]?) ((r.after op).devices[deviceId]?) := by
  have hc := changed r op
  generalize r.after op = r' at hc
  cases hc with
  | unchanged op r' same =>
    rw [same.devices]
    exact .unmoved _ _
  | payload now publication q publisher r' addressed authority verdict same =>
    rw [same.devices]
    exact applyPayload_deviceMove addressed now deviceId
  | schema op schema bound r' registered same =>
    obtain ⟨-, -, -, -, rfl⟩ := registerCapabilitySchemaLocked_eq_ok registered
    rw [same.devices]
    exact .unmoved _ _
  | imported state report r' accepted => exact (hop ⟨state, report, r', rfl, accepted⟩).elim
  | importRefused state e r' refused =>
    obtain ⟨serial, rfl⟩ := importDurableState_eq_error refused
    exact .unmoved _ _

end Calls

end Impl

end CapabilityRegistry
