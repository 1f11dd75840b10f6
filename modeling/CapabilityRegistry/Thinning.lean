import CapabilityRegistry.Keys

/-! What eviction keeps: the newest record of every slot, and which records are superseded. -/
namespace CapabilityRegistry

section Victims
variable {xs ys zs : List StoredRecord} {s t : StoredRecord} {i : Nat}

theorem supersededIn_iff : supersededIn xs s = true ↔
    ∃ t ∈ xs, t.slot = s.slot ∧ s.serial < t.serial := by
  simp [supersededIn, List.any_eq_true]

/-- Some records that newer ones of their slots supersede were dropped. -/
structure Thins (xs ys : List StoredRecord) : Prop where
  sublist : ys.Sublist xs
  newest : ∀ s ∈ xs, supersededIn xs s = false → s ∈ ys
  superseded : ∀ s, supersededIn ys s = supersededIn xs s

theorem Thins.refl (xs : List StoredRecord) : Thins xs xs :=
  ⟨List.Sublist.refl xs, fun _ hs _ => hs, fun _ => rfl⟩

theorem Thins.trans (h : Thins xs ys) (h' : Thins ys zs) : Thins xs zs :=
  ⟨h'.sublist.trans h.sublist,
    fun s hs hn => h'.newest s (h.newest s hs hn) ((h.superseded s).trans hn),
    fun s => (h'.superseded s).trans (h.superseded s)⟩

/-- A record at another position survives the removal of one. -/
theorem mem_eraseIdx_of_ne (hi : xs[i]? = some t) (hs : s ∈ xs) (hne : s ≠ t) :
    s ∈ xs.eraseIdx i := by
  obtain ⟨j, hj⟩ := List.mem_iff_getElem?.mp hs
  rw [List.mem_eraseIdx_iff_getElem?]
  refine ⟨j, fun he => hne ?_, hj⟩
  rw [he, hi] at hj
  exact (Option.some.inj hj).symm

/-- Dropping a superseded record is a thinning: whatever it supersedes, its own successor does. -/
theorem thins_eraseIdx (hi : xs[i]? = some t) (ht : supersededIn xs t = true) :
    Thins xs (xs.eraseIdx i) := by
  obtain ⟨u, hu, hslot, hserial⟩ := supersededIn_iff.mp ht
  have hut : u ∈ xs.eraseIdx i := by
    refine mem_eraseIdx_of_ne hi hu ?_
    rintro rfl
    exact Nat.lt_irrefl _ hserial
  refine ⟨List.eraseIdx_sublist xs i, fun s hs hn => ?_, fun s => ?_⟩
  · refine mem_eraseIdx_of_ne hi hs ?_
    rintro rfl
    rw [ht] at hn
    cases hn
  · rw [Bool.eq_iff_iff, supersededIn_iff, supersededIn_iff]
    constructor
    · rintro ⟨v, hv, hrest⟩
      exact ⟨v, (List.eraseIdx_sublist xs i).subset hv, hrest⟩
    · rintro ⟨v, hv, hvs, hlt⟩
      by_cases he : v = t
      · subst he
        exact ⟨u, hut, hslot.trans hvs, hlt.trans hserial⟩
      · exact ⟨v, mem_eraseIdx_of_ne hi hv he, hvs, hlt⟩

/-- The scan names a superseded record of the list it runs over. -/
theorem findVictim_superseded_scan (entries : List (StoredRecord × Nat)) (acc : Option Nat)
    (h : entries.foldl (victimStep xs) acc = some i) :
    acc = some i ∨ ∃ e ∈ entries, e.2 = i ∧ supersededIn xs e.1 = true := by
  induction entries generalizing acc with
  | nil => exact .inl h
  | cons e rest ih =>
    rcases ih _ h with hv | ⟨e', he', hrest⟩
    · cases hs : supersededIn xs e.1 with
      | false =>
        rw [victimStep_of_not_superseded hs] at hv
        exact .inl hv
      | true =>
        obtain ⟨v, hv', hor⟩ := @victimStep_of_superseded _ acc _ hs
        obtain rfl := Option.some.inj (hv'.symm.trans hv)
        exact hor.symm.imp_right fun he => ⟨e, List.mem_cons_self, he.symm, hs⟩
    · exact .inr ⟨e', List.mem_cons_of_mem _ he', hrest⟩

theorem findVictim_superseded (h : findVictim xs = some i) :
    ∃ t, xs[i]? = some t ∧ supersededIn xs t = true := by
  rcases findVictim_superseded_scan _ _ h with hn | ⟨⟨t, j⟩, he, rfl, ht⟩
  · cases hn
  · exact ⟨t, List.mk_mem_zipIdx_iff_getElem?.mp he, ht⟩

theorem evictKeyLoop_thins (cap rounds : Nat) (xs : List StoredRecord) :
    Thins xs (evictKeyLoop cap rounds xs) := by
  induction rounds generalizing xs with
  | zero => exact Thins.refl xs
  | succ rounds ih =>
    unfold evictKeyLoop
    split
    · exact Thins.refl xs
    · split
      · exact Thins.refl xs
      · next victim hv =>
        obtain ⟨t, hi, ht⟩ := findVictim_superseded hv
        exact (thins_eraseIdx hi ht).trans (ih _)

end Victims

section Keys
variable {keys keys' keys'' : Std.ExtTreeMap KeyId KeyState} {id : KeyId} {key : KeyState} {i : Nat}
  {entry : GlobalEntry}

/-- Every key was thinned at most. -/
def KeysThin (keys keys' : Std.ExtTreeMap KeyId KeyState) : Prop :=
  ∀ id, Thins (recordsAt keys id) (recordsAt keys' id)

theorem KeysThin.refl (keys : Std.ExtTreeMap KeyId KeyState) : KeysThin keys keys :=
  fun _ => Thins.refl _

theorem KeysThin.trans (h : KeysThin keys keys') (h' : KeysThin keys' keys'') :
    KeysThin keys keys'' := fun id => (h id).trans (h' id)

theorem keysThin_map_evictKey (cap : Nat) (keys : Std.ExtTreeMap KeyId KeyState) :
    KeysThin keys (keys.map fun _ key => evictKey cap key) := by
  intro id
  cases hk : keys[id]? with
  | none =>
    have hm : (keys.map fun _ key => evictKey cap key)[id]? = none := by
      rw [Std.ExtTreeMap.getElem?_map, hk]
      rfl
    rw [recordsAt_of_none hk, recordsAt_of_none hm]
    exact Thins.refl _
  | some key =>
    have hm : (keys.map fun _ key => evictKey cap key)[id]? = some (evictKey cap key) := by
      rw [Std.ExtTreeMap.getElem?_map, hk]
      rfl
    rw [recordsAt_of_some hk, recordsAt_of_some hm]
    exact evictKeyLoop_thins _ _ _

theorem evictableAt_superseded (h : evictableAt keys entry = some (key, i)) :
    keys[entry.key]? = some key ∧ ∃ t, key.records[i]? = some t ∧
      supersededIn key.records t = true := by
  simp only [evictableAt, Option.bind_eq_bind, Option.bind_eq_some_iff] at h
  obtain ⟨k, hk, j, -, s, hs, hif⟩ := h
  split at hif
  · next ht =>
    obtain ⟨rfl, rfl⟩ := Prod.mk.inj (Option.some.inj hif)
    exact ⟨hk, s, hs, ht⟩
  · cases hif

theorem keysThin_eraseIdx (h : evictableAt keys entry = some (key, i)) :
    KeysThin keys (keys.insert entry.key { key with records := key.records.eraseIdx i }) := by
  obtain ⟨hk, t, hi, ht⟩ := evictableAt_superseded h
  intro id
  by_cases he : entry.key = id
  · subst he
    rw [recordsAt_of_some hk, recordsAt_of_some (OrdMap.getElem?_insert_self _ _ _)]
    exact thins_eraseIdx hi ht
  · have hsame : recordsAt (keys.insert entry.key
        { key with records := key.records.eraseIdx i }) id = recordsAt keys id := by
      simp only [recordsAt, OrdMap.getElem?_insert_eq, if_neg he]
    rw [hsame]
    exact Thins.refl _

theorem evictGlobalLoop_thins (limit : Nat) (order : List GlobalEntry) (count : Nat) :
    KeysThin keys (evictGlobalLoop limit order keys count).2.1 := by
  induction order generalizing keys count with
  | nil => exact KeysThin.refl keys
  | cons front rest ih =>
    unfold evictGlobalLoop
    split
    · exact KeysThin.refl keys
    · split
      · exact ih count
      · next key i he => exact (keysThin_eraseIdx he).trans (ih _)

end Keys

namespace Impl
variable {r r' : Impl} {op : Op} {id : KeyId} {q publication : Publication} {now : Timestamp}
  {publisher : PublisherStateInternal} {out : ApplyResult × Impl} {record : CapabilityRecord}
  {device : DeviceState} {key : KeyState}

theorem evictIfNeeded_thins (r : Impl) : KeysThin r.keys r.evictIfNeeded.keys :=
  (keysThin_map_evictKey _ _).trans (evictGlobalLoop_thins _ _ _)

theorem makeRoom_thins (r : Impl) : KeysThin r.keys r.makeRoom.keys := by
  unfold makeRoom
  split
  · exact evictIfNeeded_thins r
  · exact KeysThin.refl _

/-- How one call that restores nothing moves the records of one key: it thins them, or it appends
one record between two thinnings. -/
inductive ThinMove (r : Impl) : Op → Impl → KeyId → Prop
  | thinned (op : Op) (r' : Impl) (id : KeyId)
      (thins : Thins (recordsAt r.keys id) (recordsAt r'.keys id))
      (serial : r.nextSerial ≤ r'.nextSerial) : ThinMove r op r' id
  | stored (now : Timestamp) (publication q : Publication) (publisher : PublisherStateInternal)
      (record : CapabilityRecord) (device : DeviceState) (generation : CapabilityGeneration)
      (mid : List StoredRecord) (r' : Impl) (addressed : Addressed r publication q publisher)
      (authority : r.Authorized publisher q) (kind : q.kind.isCapability = true)
      (admits : Admits r q.capability record device)
      (thins : Thins (recordsAt r.keys (keyOf q.capability)) mid)
      (thins' : Thins (supersede (slotOf record) mid ++ [r.storedAs record device generation])
        (recordsAt r'.keys (keyOf q.capability)))
      (serial : r'.nextSerial = r.nextSerial + 1) :
    ThinMove r (.apply now publication) r' (keyOf q.capability)

/-- What a record that found room leaves of its key, between the two sweeps. -/
theorem Fresh.stores (ha : r.Accounted) (h : Fresh r record device key r') :
    let stored := ((r'.bumped key record device).makeRoom.insertRecord
      (r'.assigned key record device)).evictIfNeeded
    stored.nextSerial = r.nextSerial + 1 ∧
      (∀ id, keyOf record ≠ id → Thins (recordsAt r.keys id) (recordsAt stored.keys id)) ∧
      ∃ mid, Thins (recordsAt r.keys (keyOf record)) mid ∧
        Thins (supersede (slotOf record) mid ++ [r.storedAs record device
          (r'.assignedGeneration key (qualify record device) device)])
          (recordsAt stored.keys (keyOf record)) := by
  have hkey := opens_key h.opens
  have hb := (ha.opens h.opens).bumped device hkey
  obtain ⟨mid, hmid, -⟩ := (makeRoom_shrink hb.counted).target bumped_key
  have hkeyOf : keyOf (r'.assigned key record device) = keyOf record := rfl
  have hser : ((r'.bumped key record device).makeRoom).nextSerial = r.nextSerial :=
    (makeRoom_nextSerial _).trans h.opens.nextSerial
  have hroom : ∀ id, Thins (recordsAt r.keys id)
      (recordsAt (r'.bumped key record device).makeRoom.keys id) := by
    intro id
    have ht := makeRoom_thins (r'.bumped key record device) id
    rwa [recordsAt_bumped hkey, recordsAt_opens h.opens] at ht
  have hev := evictIfNeeded_thins ((r'.bumped key record device).makeRoom.insertRecord
    (r'.assigned key record device))
  refine ⟨congrArg (· + 1) hser, fun id hne => ?_, mid.records, ?_, ?_⟩
  · have he := hev id
    rw [recordsAt_insertRecord (hkeyOf ▸ hmid), hkeyOf, if_neg hne] at he
    exact (hroom id).trans he
  · have ht := hroom (keyOf record)
    rwa [recordsAt_of_some hmid] at ht
  · have he := hev (keyOf record)
    rwa [recordsAt_insertRecord (hkeyOf ▸ hmid), hkeyOf, if_pos rfl, hser] at he

theorem Evidenced.thinMove (ha : r.Accounted) (h : Evidenced r q out)
    (hk : q.kind.isCapability = true) (addressed : Addressed r publication q publisher)
    (authority : r.Authorized publisher q) (now : Timestamp) (id : KeyId) :
    ThinMove r (.apply now publication) out.2 id := by
  cases h with
  | inadmissible => exact .thinned _ _ _ (Thins.refl _) (le_refl _)
  | keyLimit => exact .thinned _ _ _ (Thins.refl _) (le_refl _)
  | ungoverned record device key r' result admitted opens =>
    refine .thinned _ _ _ ?_ opens.nextSerial.ge
    rw [recordsAt_opens opens]
    exact Thins.refl _
  | repeated record device key r' result admitted opens =>
    refine .thinned _ _ _ ?_ opens.nextSerial.ge
    rw [recordsAt_opens opens]
    exact Thins.refl _
  | saturated record device key r' result admitted fresh full refused =>
    have hs := makeRoom_thins (r'.bumped key record device) id
    rw [recordsAt_bumped (opens_key fresh.opens), recordsAt_opens fresh.opens] at hs
    have hn : (r'.bumped key record device).makeRoom.nextSerial = r.nextSerial :=
      (makeRoom_nextSerial _).trans fresh.opens.nextSerial
    exact .thinned _ _ _ hs hn.ge
  | recorded record device key r' result admitted fresh room accepted mutated =>
    obtain ⟨hnext, hother, mid, hthin, hthin'⟩ := fresh.stores ha
    have hadm := admitCapability_eq_ok admitted
    by_cases he : keyOf record = id
    · obtain rfl : keyOf q.capability = id := (admits_keyOf hadm).symm.trans he
      rw [he] at hthin hthin'
      exact .stored now publication q publisher record device
        (r'.assignedGeneration key (qualify record device) device) mid _ addressed
        authority hk hadm hthin hthin' hnext
    · exact .thinned _ _ _ (hother id he) ((Nat.le_succ _).trans hnext.ge)

theorem applyPayload_thinMove (ha : r.Accounted) (addressed : Addressed r publication q publisher)
    (authority : r.Authorized publisher q) (now : Timestamp) (id : KeyId) :
    ThinMove r (.apply now publication) (r.applyPayload q).2 id := by
  have h := Impl.handled r q
  generalize r.applyPayload q = out at h
  cases h with
  | deviceAdded =>
    have hn := registerPlatform_nextSerial (r.addDevice q.device) q.device.platform
    refine .thinned _ _ _ ?_ hn.ge
    rw [registerPlatform_keys]
    exact Thins.refl _
  | deviceUpdated result existing =>
    have hn := registerPlatform_nextSerial { r with
      devices := r.devices.insert q.device.identity.id
        (updateDevice existing q.device (q.kind == .publishDeviceGeneration)) } q.device.platform
    refine .thinned _ _ _ ?_ hn.ge
    rw [registerPlatform_keys]
    exact Thins.refl _
  | evidence out kind evidenced => exact evidenced.thinMove ha kind addressed authority now id
  | _ => exact .thinned _ _ _ (Thins.refl _) (le_refl _)

theorem ThinMove.of_same {r'' : Impl} (h : ThinMove r op r' id) (hk : r''.keys = r'.keys)
    (hn : r''.nextSerial = r'.nextSerial) : ThinMove r op r'' id := by
  cases h with
  | thinned op r' id thins serial =>
    refine .thinned _ _ _ ?_ (hn ▸ serial)
    rw [hk]
    exact thins
  | stored now publication q publisher record device generation mid r' addressed authority kind
      admits thins thins' serial =>
    refine .stored now publication q publisher record device generation mid _ addressed authority
      kind admits thins ?_ (hn.trans serial)
    rw [hk]
    exact thins'

end Impl

end CapabilityRegistry
