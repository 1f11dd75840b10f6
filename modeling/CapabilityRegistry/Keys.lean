import CapabilityRegistry.Records

/-! How calls move one capability key: its schema, its generation and its records. -/
namespace CapabilityRegistry

namespace Impl
variable {r r' : Impl} {op : Op} {id : KeyId} {q publication : Publication} {now : Timestamp}
  {record : CapabilityRecord} {device : DeviceState} {key : KeyState} {out : ApplyResult × Impl}
  {publisher : PublisherStateInternal} {x y : Option KeyState}

/-- The record a capability publication stores, once its generation is assigned. -/
def storedRecord (r r' : Impl) (key : KeyState) (record : CapabilityRecord) (device : DeviceState) :
    StoredRecord :=
  { record := r'.assigned key record device
    slot := slotOf record
    serial := r.nextSerial }

/-- A capability publication past every check but the room in the history. -/
structure Accepts (r : Impl) (publication q : Publication) (publisher : PublisherStateInternal)
    (record : CapabilityRecord) (device : DeviceState) (key : KeyState) (r' : Impl) : Prop where
  addressed : Addressed r publication q publisher
  authority : r.Authorized publisher q
  kind : q.kind.isCapability = true
  admits : Admits r q.capability record device
  fresh : Fresh r record device key r'

/-- How one call that restores nothing moves one key. -/
inductive KeyMove (r : Impl) : Op → KeyId → Option KeyState → Option KeyState → Prop
  | shrunk (op : Op) (id : KeyId) (x y : Option KeyState) (shrinks : Option.Rel KeyState.Shrinks x y) :
    KeyMove r op id x y
  | created (op : Op) (record record' : CapabilityRecord) (device : DeviceState)
      (admits : Admits r record record' device) :
    KeyMove r op (keyOf record) none (some { schema := record.schema })
  | bumped (now : Timestamp) (publication q : Publication) (publisher : PublisherStateInternal)
      (record : CapabilityRecord) (device : DeviceState) (key : KeyState) (r' : Impl)
      (accepts : Accepts r publication q publisher record device key r') (y : KeyState)
      (shrinks : (bumpKey key
        (r'.assignedGeneration key (qualify record device) device)).Shrinks y) :
    KeyMove r (.apply now publication) (keyOf record) (r.keys[keyOf record]?) (some y)
  | stored (now : Timestamp) (publication q : Publication) (publisher : PublisherStateInternal)
      (record : CapabilityRecord) (device : DeviceState) (key : KeyState) (r' : Impl)
      (accepts : Accepts r publication q publisher record device key r') (mid y : KeyState)
      (room : (bumpKey key (r'.assignedGeneration key (qualify record device) device)).Shrinks mid)
      (shrinks : ({ mid with
        records := supersede (slotOf record) mid.records ++
          [r.storedRecord r' key record device] } : KeyState).Shrinks y) :
    KeyMove r (.apply now publication) (keyOf record) (r.keys[keyOf record]?) (some y)

theorem optionRel_refl (x : Option KeyState) : Option.Rel KeyState.Shrinks x x := by
  cases x with
  | none => exact .none
  | some key => exact .some (KeyState.Shrinks.refl key)

theorem optionRel_trans {z : Option KeyState} (h : Option.Rel KeyState.Shrinks x y)
    (h' : Option.Rel KeyState.Shrinks y z) : Option.Rel KeyState.Shrinks x z := by
  cases h with
  | none => exact h'
  | some hab =>
    cases h' with
    | some hbc => exact .some (hab.trans hbc)

theorem opens_other (h : Opens r record key r') (hne : keyOf record ≠ id) :
    r'.keys[id]? = r.keys[id]? := by
  cases h with
  | existing => rfl
  | created unknown room =>
    have hk : ((r.touchDeviceKeys record.device).createKey record).keys =
        r.keys.insert (keyOf record) { schema := record.schema } :=
      OrdMap.insertIfNew_of_none _ unknown
    rw [hk, OrdMap.getElem?_insert_eq, if_neg hne]

theorem bumped_other (device : DeviceState) (hne : keyOf record ≠ id) :
    (r.bumped key record device).keys[id]? = r.keys[id]? := by
  simp only [bumped, OrdMap.getElem?_insert_eq, if_neg hne]

theorem insertRecord_key (hk : r.keys[keyOf record]? = some key) (id : KeyId) :
    (r.insertRecord record).keys[id]? = if keyOf record = id then
      some { key with
        records := supersede (slotOf record) key.records ++
          [{ record := record, slot := slotOf record, serial := r.nextSerial }] }
      else r.keys[id]? := by
  simp only [insertRecord]
  rw [OrdMap.modify_of_some _ hk, OrdMap.getElem?_insert_eq]

/-- Opening a key leaves it as it was or creates it empty. -/
theorem opens_keyMove {raw : CapabilityRecord} (h : Opens r record key r')
    (hadm : Admits r raw record device) (op : Op) (id : KeyId) :
    KeyMove r op id (r.keys[id]?) (r'.keys[id]?) := by
  by_cases he : keyOf record = id
  · subst he
    cases h with
    | existing known => exact .shrunk _ _ _ _ (optionRel_refl _)
    | created unknown room =>
      have hk := opens_key (Opens.created (r := r) unknown room)
      obtain ⟨value, -, rfl⟩ := hadm.value
      rw [hk, unknown]
      exact .created op raw _ device hadm
  · rw [opens_other h he]
    exact .shrunk _ _ _ _ (optionRel_refl _)

theorem Evidenced.keyMove (ha : r.Accounted) (h : Evidenced r q out)
    (hk : q.kind.isCapability = true) (addressed : Addressed r publication q publisher)
    (authority : r.Authorized publisher q) (now : Timestamp) (id : KeyId) :
    KeyMove r (.apply now publication) id (r.keys[id]?) (out.2.keys[id]?) := by
  cases h with
  | inadmissible => exact .shrunk _ _ _ _ (optionRel_refl _)
  | keyLimit => exact .shrunk _ _ _ _ (optionRel_refl _)
  | ungoverned record device key r' result admitted opens =>
    exact opens_keyMove opens (admitCapability_eq_ok admitted) _ _
  | repeated record device key r' result admitted opens =>
    exact opens_keyMove opens (admitCapability_eq_ok admitted) _ _
  | saturated record device key r' result admitted fresh full refused =>
    have hacc : Accepts r publication q publisher record device key r' :=
      ⟨addressed, authority, hk, admitCapability_eq_ok admitted, fresh⟩
    have hb := (ha.opens fresh.opens).bumped device (opens_key fresh.opens)
    have hshrink := makeRoom_shrink hb.counted
    by_cases he : keyOf record = id
    · subst he
      obtain ⟨y, hy, hs⟩ := hshrink.target bumped_key
      rw [hy]
      exact .bumped now publication q publisher record device key r' hacc y hs
    · have hrel := hshrink id
      rw [bumped_other device he, opens_other fresh.opens he] at hrel
      exact .shrunk _ _ _ _ hrel
  | recorded record device key r' result admitted fresh room accepted mutated =>
    have hacc : Accepts r publication q publisher record device key r' :=
      ⟨addressed, authority, hk, admitCapability_eq_ok admitted, fresh⟩
    have hb := (ha.opens fresh.opens).bumped device (opens_key fresh.opens)
    have hshrink := makeRoom_shrink hb.counted
    obtain ⟨mid, hmid, hs⟩ := hshrink.target bumped_key
    have hins := hb.makeRoom.inserted (r'.assigned key record device) hmid room
    have hev := (evictIfNeeded_spec hins.counted).1
    have hmid' : (r'.bumped key record device).makeRoom.keys[
        keyOf (r'.assigned key record device)]? = some mid := hmid
    have hkeyOf : keyOf (r'.assigned key record device) = keyOf record := rfl
    have hkey := insertRecord_key hmid'
    have hser : ((r'.bumped key record device).makeRoom).nextSerial = r.nextSerial :=
      (makeRoom_nextSerial _).trans fresh.opens.nextSerial
    by_cases he : keyOf record = id
    · subst he
      have hkey := hkey (keyOf record)
      rw [hkeyOf, if_pos rfl, hser] at hkey
      obtain ⟨y, hy, hs'⟩ := hev.target hkey
      rw [hy]
      exact .stored now publication q publisher record device key r' hacc mid y hs hs'
    · have hrel := hshrink id
      have hrel' := hev id
      rw [bumped_other device he, opens_other fresh.opens he] at hrel
      rw [hkey id, if_neg (hkeyOf ▸ he)] at hrel'
      exact .shrunk _ _ _ _ (optionRel_trans hrel hrel')

theorem applyPayload_keyMove (ha : r.Accounted) (addressed : Addressed r publication q publisher)
    (authority : r.Authorized publisher q) (now : Timestamp) (id : KeyId) :
    KeyMove r (.apply now publication) id (r.keys[id]?) ((r.applyPayload q).2.keys[id]?) := by
  have h := Impl.handled r q
  generalize r.applyPayload q = out at h
  cases h with
  | deviceAdded =>
    rw [registerPlatform_keys]
    exact .shrunk _ _ _ _ (optionRel_refl _)
  | deviceUpdated =>
    rw [registerPlatform_keys]
    exact .shrunk _ _ _ _ (optionRel_refl _)
  | evidence out kind evidenced => exact evidenced.keyMove ha kind addressed authority now id
  | _ => exact .shrunk _ _ _ _ (optionRel_refl _)

theorem keyMove [StdLib] (ha : r.Accounted) (hop : ¬ r.Restores op) (id : KeyId) :
    KeyMove r op id (r.keys[id]?) ((r.after op).keys[id]?) := by
  have hc := changed r op
  generalize r.after op = r' at hc
  cases hc with
  | unchanged op r' same =>
    rw [same.keys]
    exact .shrunk _ _ _ _ (optionRel_refl _)
  | payload now publication q publisher r' addressed authority verdict same =>
    rw [same.keys]
    exact applyPayload_keyMove ha addressed authority now id
  | schema op schema bound r' registered same =>
    obtain ⟨-, -, -, -, rfl⟩ := registerCapabilitySchemaLocked_eq_ok registered
    rw [same.keys]
    exact .shrunk _ _ _ _ (optionRel_refl _)
  | imported state report r' accepted => exact (hop ⟨state, report, r', rfl, accepted⟩).elim
  | importRefused state e r' refused =>
    obtain ⟨serial, rfl⟩ := importDurableState_eq_error refused
    exact .shrunk _ _ _ _ (optionRel_refl _)

end Impl

end CapabilityRegistry
