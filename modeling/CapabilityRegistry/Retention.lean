import CapabilityRegistry.Arrivals

/-! Bounded retention over whole runs: what the registry holds on to and when it must refuse. -/
namespace CapabilityRegistry

section Index
variable {index : Std.ExtTreeMap DeviceId (Std.ExtTreeSet CapabilityId)} {id : KeyId}

/-- The capabilities an index lists for a device; a device without an entry has none. -/
def ownedBy (index : Std.ExtTreeMap DeviceId (Std.ExtTreeSet CapabilityId)) (device : DeviceId) :
    Std.ExtTreeSet CapabilityId := (index[device]?).getD ∅

theorem ownedBy_insert (index : Std.ExtTreeMap DeviceId (Std.ExtTreeSet CapabilityId))
    (added : KeyId) (id : KeyId) :
    id.capability ∈ ownedBy (index.insert added.device
        ((ownedBy index added.device).insert added.capability)) id.device ↔
      added = id ∨ id.capability ∈ ownedBy index id.device := by
  obtain ⟨d, c⟩ := id
  obtain ⟨d', c'⟩ := added
  simp only [ownedBy, OrdMap.getElem?_insert_eq, KeyId.mk.injEq]
  by_cases hd : d' = d
  · subst hd
    simp [Std.ExtTreeSet.mem_insert]
  · simp [hd]

theorem mem_foldl_ownedBy (entries : List (KeyId × KeyState)) (id : KeyId) :
    id.capability ∈ ownedBy (entries.foldl (fun index e =>
      index.insert e.1.device (((index[e.1.device]?).getD ∅).insert e.1.capability)) index)
        id.device ↔
      (∃ e ∈ entries, e.1 = id) ∨ id.capability ∈ ownedBy index id.device := by
  induction entries generalizing index with
  | nil => simp
  | cons e rest ih =>
    have hins := ownedBy_insert index e.1 id
    rw [List.foldl_cons]
    refine ih.trans ?_
    change _ ∨ id.capability ∈ ownedBy (index.insert e.1.device
      ((ownedBy index e.1.device).insert e.1.capability)) id.device ↔ _
    rw [hins]
    rw [or_left_comm, ← or_assoc]
    simp only [List.mem_cons, exists_eq_or_imp]

/-- The rebuilt index lists exactly the keys. -/
theorem mem_indexKeys (keys : Std.ExtTreeMap KeyId KeyState) (id : KeyId) :
    id.capability ∈ ownedBy (indexKeys keys) id.device ↔ (keys[id]?).isSome := by
  have hempty : id.capability ∉ ownedBy ∅ id.device := by simp [ownedBy]
  refine (mem_foldl_ownedBy keys.toList id).trans ?_
  rw [or_iff_left hempty, Option.isSome_iff_exists]
  constructor
  · rintro ⟨⟨id', key⟩, he, rfl⟩
    exact ⟨key, OrdMap.mem_toList.mp he⟩
  · rintro ⟨key, hk⟩
    exact ⟨(id, key), OrdMap.mem_toList.mpr hk, rfl⟩

end Index

namespace Impl
variable {r r' : Impl} {record : CapabilityRecord} {device : DeviceState} {key : KeyState}
  {q : Publication} {out : ApplyResult × Impl} {id : KeyId}

/-- The per-device index lists exactly the keys that exist. -/
def Indexed (r : Impl) : Prop :=
  ∀ id : KeyId, id.capability ∈ ownedBy r.deviceKeys id.device ↔ (r.keys[id]?).isSome

theorem Indexed.of_same (h : r.Indexed)
    (hk : ∀ id : KeyId, (r'.keys[id]?).isSome = (r.keys[id]?).isSome)
    (hd : ∀ device, ownedBy r'.deviceKeys device = ownedBy r.deviceKeys device) : r'.Indexed := by
  intro id
  rw [hk id, hd id.device]
  exact h id

theorem isSome_of_shrink (h : KeysShrink r.keys r'.keys) (id : KeyId) :
    (r'.keys[id]?).isSome = (r.keys[id]?).isSome := by
  have hrel := h id
  generalize r.keys[id]? = x at hrel ⊢
  generalize r'.keys[id]? = y at hrel ⊢
  cases hrel <;> rfl

theorem ownedBy_touchDeviceKeys (r : Impl) (touched device : DeviceId) :
    ownedBy (r.touchDeviceKeys touched).deviceKeys device = ownedBy r.deviceKeys device := by
  simp only [ownedBy, touchDeviceKeys, OrdMap.getElem?_insertIfNew_eq]
  by_cases he : touched = device
  · subst he
    simp
  · simp [he]

theorem Indexed.opens (h : r.Indexed) (ho : Opens r record key r') : r'.Indexed := by
  cases ho with
  | existing => exact h
  | created unknown room =>
    have htouch := ownedBy_touchDeviceKeys r record.device
    have hkeys : ((r.touchDeviceKeys record.device).createKey record).keys =
        r.keys.insert (keyOf record) { schema := record.schema } :=
      OrdMap.insertIfNew_of_none _ unknown
    intro id
    rw [hkeys, OrdMap.getElem?_insert_eq]
    have hins := ownedBy_insert (r.touchDeviceKeys record.device).deviceKeys (keyOf record) id
    refine hins.trans ?_
    rw [htouch, h id]
    by_cases he : keyOf record = id
    · simp [he]
    · simp [he]

theorem makeRoom_deviceKeys (r : Impl) : r.makeRoom.deviceKeys = r.deviceKeys := by
  unfold makeRoom
  split
  · exact evictIfNeeded_deviceKeys
  · rfl

/-- Settling the generation of a known key and making room keep the index right. -/
theorem Indexed.roomMade (h : r.Indexed) (ha : r.Accounted) (hk : r.keys[keyOf record]? = some key)
    (device : DeviceState) : (r.bumped key record device).makeRoom.Indexed := by
  have hb := ha.bumped device hk
  have hshrink := isSome_of_shrink (makeRoom_shrink hb.counted)
  refine h.of_same (fun id => ?_) fun d => congrArg (ownedBy · d) (makeRoom_deviceKeys _)
  rw [hshrink id]
  by_cases he : keyOf record = id
  · subst he
    rw [bumped_key, hk]
    rfl
  · rw [bumped_other device he]

theorem Indexed.evidenced (h : r.Indexed) (ha : r.Accounted) (he : Evidenced r q out) :
    out.2.Indexed := by
  cases he with
  | inadmissible => exact h
  | keyLimit record => exact h.of_same (fun _ => rfl) (ownedBy_touchDeviceKeys r record.device)
  | ungoverned record device key r' result admitted opens => exact h.opens opens
  | repeated record device key r' result admitted opens => exact h.opens opens
  | saturated record device key r' result admitted fresh =>
    exact (h.opens fresh.opens).roomMade (ha.opens fresh.opens) (opens_key fresh.opens) device
  | recorded record device key r' result admitted fresh room =>
    have hkey := opens_key fresh.opens
    have hmade := (h.opens fresh.opens).roomMade (ha.opens fresh.opens) hkey device
    have hb := (ha.opens fresh.opens).bumped device hkey
    obtain ⟨mid, hmid, -⟩ := (makeRoom_shrink hb.counted).target bumped_key
    have hins := hb.makeRoom.inserted (r'.assigned key record device) hmid room
    have hevict := isSome_of_shrink (evictIfNeeded_spec hins.counted).1
    refine hmade.of_same (fun id => ?_) fun _ => rfl
    have hassigned : (r'.bumped key record device).makeRoom.keys[
        keyOf (r'.assigned key record device)]? = some mid := hmid
    rw [hevict id, insertRecord_key hassigned id]
    split
    · next hid =>
      subst hid
      rw [hassigned]
      rfl
    · rfl

theorem Indexed.handled (h : r.Indexed) (ha : r.Accounted) (hh : Handled r q out) :
    out.2.Indexed := by
  have hplatform : ∀ (r : Impl) platform, (r.registerPlatform platform).deviceKeys = r.deviceKeys := by
    intro r platform
    unfold registerPlatform
    repeat' split
    all_goals rfl
  have hsame : ∀ (r' : Impl) platform, r'.keys = r.keys → r'.deviceKeys = r.deviceKeys →
      (r'.registerPlatform platform).Indexed := by
    intro r' platform hk hd
    refine h.of_same (fun id => ?_) fun d => ?_
    · rw [registerPlatform_keys, hk]
    · rw [hplatform, hd]
  cases hh with
  | deviceAdded => exact hsame _ _ rfl rfl
  | deviceUpdated => exact hsame _ _ rfl rfl
  | evidence out kind evidenced => exact h.evidenced ha evidenced
  | _ => exact h.of_same (fun _ => rfl) fun _ => rfl

variable [StdLib]

theorem Indexed.after (h : r.Indexed) (ha : r.Accounted) (op : Op) : (r.after op).Indexed := by
  have hc := changed r op
  generalize r.after op = r' at hc
  have hsame : ∀ {r₁ r₂ : Impl}, r₁.Indexed → SameInventory r₁ r₂ → r₂.Indexed := by
    intro r₁ r₂ h₁ same
    exact h₁.of_same (fun id => by rw [same.keys]) fun d => by rw [same.deviceKeys]
  cases hc with
  | unchanged op r' same => exact hsame h same
  | payload now publication q publisher r' addressed authority verdict same =>
    exact hsame (h.handled ha (Impl.handled r q)) same
  | schema op schema bound r' registered same =>
    obtain ⟨-, -, -, -, rfl⟩ := registerCapabilitySchemaLocked_eq_ok registered
    refine hsame ?_ same
    exact h.of_same (fun _ => rfl) fun _ => rfl
  | imported state report r' accepted =>
    obtain ⟨staged, -, -, rfl⟩ := importDurableState_eq_ok.mp accepted
    exact mem_indexKeys staged.keys.keys
  | importRefused state e r' refused =>
    obtain ⟨serial, rfl⟩ := importDurableState_eq_error refused
    exact h.of_same (fun _ => rfl) fun _ => rfl

/-- In every reachable registry the index lists exactly the keys that exist. -/
theorem reachable_indexed {limits : RegistryLimits} (h : Reachable limits r) : r.Indexed := by
  obtain ⟨ops, rfl⟩ := h
  have hfresh : (Impl.fresh limits).Indexed := by
    intro id
    simp [Impl.fresh, ownedBy]
  have hrun := Machine.run_invariant (P := fun r : Impl => r.Accounted ∧ r.Indexed)
    ⟨accounted_fresh limits, hfresh⟩ (fun r op hr => ⟨hr.1.after op, hr.2.after hr.1 op⟩) ops
  exact hrun.2

section Recording
variable {op : Op} {now : Timestamp} {p : Publication} {s : StoredRecord} {slot : Text}
  {publisher : PublisherStateInternal} {result : ApplyResult} {watermark : PublisherWatermark}

/-- The key and the record a call adds to the evidence, if it adds one. -/
def recording (r : Impl) : Op → Option (KeyId × StoredRecord)
  | .apply now p =>
    let result := (r.applyLocked now p).1
    if p.kind.isCapability && result.accepted && result.mutated then do
      let q ← (r.prepare p).toOption
      let (record, device) ← (r.admitCapability q.capability).toOption
      match r.openKey record with
      | (.ok key, r') => some (keyOf record, r.storedRecord r' key record device)
      | (.error _, _) => none
    else none
  | _ => none

omit [StdLib] in
theorem openKey_of_opens (h : Opens r record key r') : r.openKey record = (.ok key, r') := by
  cases h with
  | existing key known => simp [openKey, known]
  | created unknown room => simp [openKey, unknown, room]

theorem recording_of_recorded (hk : p.kind.isCapability = true)
    (hacc : (r.applyLocked now p).1.accepted = true)
    (hmut : (r.applyLocked now p).1.mutated = true) (prepared : r.prepare p = .ok q)
    (admitted : r.admitCapability q.capability = .ok (record, device))
    (opens : Opens r record key r') :
    r.recording (.apply now p) = some (keyOf record, r.storedRecord r' key record device) := by
  simp [recording, hk, hacc, hmut, prepared, admitted, openKey_of_opens opens, Except.toOption]

theorem recording_eq_none (h : p.kind.isCapability = false ∨ (r.applyLocked now p).1.accepted = false ∨
    (r.applyLocked now p).1.mutated = false) : r.recording (.apply now p) = none := by
  unfold recording
  dsimp only
  rw [if_neg]
  rcases h with h | h | h <;> simp [h]

theorem settle_mutated (r : Impl) (publisher : PublisherStateInternal)
    (watermark : PublisherWatermark) (q : Publication) (result : ApplyResult) :
    (r.settle publisher watermark q result).1.mutated = result.mutated := by
  unfold settle
  split <;> rfl

theorem sequenceVerdict_mutated (h : sequenceVerdict publisher watermark q = some result) :
    result.mutated = false := by
  unfold sequenceVerdict at h
  dsimp only at h
  repeat' split at h
  all_goals first | cases h; done | (obtain rfl := Option.some.inj h; rfl)

/-- How one call moves the records of one key: it thins them, or it appends the record it adds
between two thinnings. -/
inductive EvidenceMove (r : Impl) (op : Op) (id : KeyId) (xs : List StoredRecord) : Prop
  | kept (other : ∀ s, r.recording op ≠ some (id, s)) (thins : Thins (recordsAt r.keys id) xs)
  | extended (s : StoredRecord) (mid : List StoredRecord) (adds : r.recording op = some (id, s))
      (live : ∃ record, s.slot = slotOf record) (serial : s.serial = r.nextSerial)
      (thins : Thins (recordsAt r.keys id) mid)
      (thins' : Thins (supersede s.slot mid ++ [s]) xs)

/-- What the handler of a capability publication does to the records, and whether it says so. -/
theorem Evidenced.evidenceMove (ha : r.Accounted) (h : Evidenced r q out)
    (hk : p.kind.isCapability = true) (prepared : r.prepare p = .ok q)
    (hacc : (r.applyLocked now p).1.accepted = out.1.accepted)
    (hmut : (r.applyLocked now p).1.mutated = out.1.mutated) (id : KeyId) :
    EvidenceMove r (.apply now p) id (recordsAt out.2.keys id) := by
  have hnone : (out.1.accepted = false ∨ out.1.mutated = false) →
      Thins (recordsAt r.keys id) (recordsAt out.2.keys id) →
      EvidenceMove r (.apply now p) id (recordsAt out.2.keys id) := by
    intro hr ht
    refine .kept (fun s => ?_) ht
    have hn : r.recording (.apply now p) = none :=
      recording_eq_none (.inr (hr.imp hacc.trans hmut.trans))
    rw [hn]
    exact fun he => (by cases he)
  cases h with
  | inadmissible result refusal refused => exact hnone (.inl refused) (Thins.refl _)
  | keyLimit record device result admitted unknown limit refused =>
    exact hnone (.inl refused) (Thins.refl _)
  | ungoverned record device key r' result admitted opens refusal refused =>
    refine hnone (.inl refused) ?_
    rw [recordsAt_opens opens]
    exact Thins.refl _
  | repeated record device key r' result admitted opens governed recorded accepted unmutated =>
    refine hnone (.inr unmutated) ?_
    rw [recordsAt_opens opens]
    exact Thins.refl _
  | saturated record device key r' result admitted fresh full refused =>
    refine hnone (.inl refused) ?_
    have ht := makeRoom_thins (r'.bumped key record device) id
    rwa [recordsAt_bumped (opens_key fresh.opens), recordsAt_opens fresh.opens] at ht
  | recorded record device key r' result admitted fresh room accepted mutated =>
    obtain ⟨-, hother, mid, hthin, hthin'⟩ := fresh.stores ha
    have hrec := recording_of_recorded hk (hacc.trans accepted) (hmut.trans mutated) prepared
      admitted fresh.opens
    by_cases he : keyOf record = id
    · subst he
      exact .extended _ mid hrec ⟨record, rfl⟩ rfl hthin hthin'
    · refine .kept (fun s hs => he ?_) (hother id he)
      have hpair := Option.some.inj (hrec.symm.trans hs)
      exact congrArg Prod.fst hpair

theorem evidenceMove (ha : r.Accounted) (hop : ¬ r.Restores op) (id : KeyId) :
    EvidenceMove r op id (recordsAt (r.after op).keys id) := by
  have hother : (∀ now p, op ≠ .apply now p) → EvidenceMove r op id (recordsAt (r.after op).keys id) := by
    intro hne
    have hm := thinMove ha hop id
    generalize r.after op = r' at hm
    have hn : r.recording op = none := by
      unfold recording
      split
      · next now p => exact (hne now p rfl).elim
      · rfl
    cases hm with
    | thinned op r' id thins =>
      refine .kept (fun s hs => ?_) thins
      rw [hn] at hs
      cases hs
    | stored now publication => exact (hne now publication rfl).elim
  by_cases hap : ∃ now p, op = .apply now p
  · obtain ⟨now, p, rfl⟩ := hap
    have hi := ingested r now p
    have hkept : (p.kind.isCapability = false ∨ (r.applyLocked now p).1.accepted = false ∨
        (r.applyLocked now p).1.mutated = false) →
        (r.applyLocked now p).2.keys = r.keys →
        EvidenceMove r (.apply now p) id (recordsAt (r.applyLocked now p).2.keys id) := by
      intro hr hkeys
      rw [hkeys]
      refine .kept (fun s hs => ?_) (Thins.refl _)
      rw [recording_eq_none hr] at hs
      cases hs
    change EvidenceMove r (.apply now p) id (recordsAt (r.applyLocked now p).2.keys id)
    generalize hout : r.applyLocked now p = out at hi hkept ⊢
    cases hi with
    | shuttingDown result running refused => exact hkept (.inr (.inl refused)) rfl
    | unprepared result running unprepared =>
      exact hkept (.inr (.inl (prepare_eq_error unprepared))) rfl
    | schema q running prepared kind =>
      refine hkept (.inl ?_) ?_
      · rw [← (prepare_eq_ok prepared).kind, kind]
        rfl
      · unfold applySchema
        split
        · rfl
        · next bound hb =>
          obtain ⟨-, -, -, -, rfl⟩ := registerCapabilitySchemaLocked_eq_ok hb
          rfl
    | registration q running prepared kind =>
      refine hkept (.inl ?_) ?_
      · rw [← (prepare_eq_ok prepared).kind, kind]
        rfl
      · have hs := registerPublisherLocked_sameInventory r now q.publisher q.reason
        unfold applyRegistration
        dsimp only
        split <;> exact hs.keys
    | unknownPublisher q result running prepared kind unregistered refused =>
      exact hkept (.inr (.inl refused)) rfl
    | unauthorized q publisher result addressed refusal =>
      exact hkept (.inr (.inl (authorityRefusal_eq_some refusal))) rfl
    | repeated q publisher result addressed authority verdict accepted =>
      exact hkept (.inr (.inr (sequenceVerdict_mutated verdict))) rfl
    | unsequenced q publisher result addressed authority verdict refused =>
      exact hkept (.inr (.inl refused)) rfl
    | handled q publisher addressed authority verdict =>
      have hp := prepare_eq_ok addressed.prepared
      have hkeys := (settle_sameInventory (r.applyPayload q).2 publisher
        (openWatermark publisher q.publisher) q (r.applyPayload q).1).keys
      rw [hkeys]
      by_cases hk : p.kind.isCapability = true
      · have hkind : q.kind.isCapability = true := hp.kind ▸ hk
        refine (evidenced_applyPayload r hkind).evidenceMove ha hk addressed.prepared ?_ ?_ id
        · rw [hout, settle_accepted]
        · rw [hout, settle_mutated]
      · have hm := applyPayload_thinMove ha addressed authority now id
        have hkind : q.kind.isCapability = false := by
          rw [hp.kind]
          simpa using hk
        have hrec : r.recording (.apply now p) = none :=
          recording_eq_none (.inl (by simpa using hk))
        generalize (r.applyPayload q).2 = r' at hm
        cases hm with
        | thinned op r' id thins =>
          refine .kept (fun s hs => ?_) thins
          rw [hrec] at hs
          cases hs
        | stored now publication q' publisher record device generation mid r' addressed' authority
            kind =>
          obtain rfl := Except.ok.inj (addressed.prepared.symm.trans addressed'.prepared)
          rw [hkind] at kind
          cases kind
  · exact hother fun now p he => hap ⟨now, p, he⟩

end Recording

section Retained
variable {op : Op} {ops : List Op} {limits : RegistryLimits} {s : StoredRecord} {slot : Text}
  {latest : KeyId → Text → Option StoredRecord} {xs : List StoredRecord}

/-- The newest record that every source slot of every key accepted, once a call is made. An
accepted import replaces all evidence. -/
def noteRecording (r : Impl) (latest : KeyId → Text → Option StoredRecord) (op : Op) :
    KeyId → Text → Option StoredRecord :=
  match op, (r.step op).1 with
  | .importDurableState _, .imported (.ok _) => fun _ _ => none
  | op, _ =>
    match r.recording op with
    | none => latest
    | some (id, s) => fun id' slot => if id = id' ∧ s.slot = slot then some s else latest id' slot

/-- The newest record that every source slot accepted in a run since its last accepted import. -/
def newestRecorded (r : Impl) (latest : KeyId → Text → Option StoredRecord) :
    List Op → KeyId → Text → Option StoredRecord
  | [] => latest
  | op :: ops => newestRecorded (r.after op) (r.noteRecording latest op) ops

/-- The newest accepted record of every source slot is retained as its newest record. -/
def Retains (r : Impl) (latest : KeyId → Text → Option StoredRecord) : Prop :=
  ∀ id slot s, latest id slot = some s → slotLatest (recordsAt r.keys id) slot = some s

theorem noteRecording_of_restores (h : r.Restores op) : r.noteRecording latest op = fun _ _ => none := by
  obtain ⟨state, report, r', rfl, hi⟩ := h
  have hout : (r.step (.importDurableState state)).1 = .imported (.ok report) := by
    simp [step, hi]
  simp only [noteRecording, hout]

theorem noteRecording_of_not_restores (h : ¬ r.Restores op) : r.noteRecording latest op =
    match r.recording op with
    | none => latest
    | some (id, s) => fun id' slot => if id = id' ∧ s.slot = slot then some s else latest id' slot := by
  unfold noteRecording
  split
  · next state report hout =>
    refine (h ⟨state, report, (r.importDurableState state).2, rfl, ?_⟩).elim
    have he : (r.importDurableState state).1 = .ok report := by
      have hs : (Outcome.imported (r.importDurableState state).1) = .imported (.ok report) := hout
      exact Outcome.imported.inj hs
    rw [← he]
  · rfl

omit [StdLib] in
/-- The record appended last is the newest one of its slot. -/
theorem slotLatest_append_self (hlt : ∀ t ∈ xs, t.slot = s.slot → t.serial < s.serial) :
    slotLatest (supersede s.slot xs ++ [s]) s.slot = some s := by
  refine slotLatest_of_newest (List.mem_append_right _ List.mem_cons_self) fun t ht hslot hne => ?_
  rcases List.mem_append.mp ht with ht | ht
  · obtain ⟨u, hu, hk⟩ := mem_supersede ht
    rw [hk.serial]
    exact hlt u hu (hk.slot.symm.trans hslot)
  · exact (hne (List.mem_singleton.mp ht)).elim

theorem Retains.after (hr : Reachable limits r) (h : r.Retains latest) (op : Op) :
    (r.after op).Retains (r.noteRecording latest op) := by
  obtain ⟨ha, hs⟩ := reachable_slotted hr
  by_cases hop : r.Restores op
  · rw [noteRecording_of_restores hop]
    intro id slot s hn
    cases hn
  · rw [noteRecording_of_not_restores hop]
    intro id slot s hl
    have ho := reachable_slotOrdered hr id
    cases evidenceMove ha hop id with
    | kept other thins =>
      rw [ho.slotLatest_thins thins slot]
      refine h id slot s ?_
      cases hrec : r.recording op with
      | none => simpa only [hrec] using hl
      | some added =>
        obtain ⟨id', s'⟩ := added
        have hne : id' ≠ id := by
          rintro rfl
          exact other s' hrec
        simpa only [hrec, hne, false_and, if_false] using hl
    | extended t mid adds live serial thins thins' =>
      obtain ⟨record, hslot⟩ := live
      have hmid : ∀ u ∈ mid, u.slot = t.slot → u.serial < t.serial := by
        intro u hu he
        rw [serial]
        exact (hs.placed id u (thins.sublist.subset hu)).lt_of_live (he.trans hslot)
      have hordered : SlotOrdered (supersede t.slot mid ++ [t]) := (ho.thins thins).append hmid
      rw [hordered.slotLatest_thins thins' slot]
      simp only [adds, true_and] at hl
      by_cases he : t.slot = slot
      · subst he
        rw [if_pos rfl] at hl
        obtain rfl := Option.some.inj hl
        exact slotLatest_append_self hmid
      · rw [if_neg he] at hl
        rw [slotLatest_append_other he, slotLatest_supersede_other he, ho.slotLatest_thins thins]
        exact h id slot s hl

theorem retains_run (hr : Reachable limits r) (h : r.Retains latest) (ops : List Op) :
    (r.run ops).Retains (r.newestRecorded latest ops) := by
  induction ops generalizing r latest with
  | nil => exact h
  | cons op ops ih => exact ih (reachable_after hr op) (h.after hr op)

theorem limits_after (r : Impl) (op : Op) : (r.after op).limits = r.limits := by
  have hc := changed r op
  generalize r.after op = r' at hc
  cases hc with
  | unchanged op r' same => exact same.limits
  | payload now publication q publisher r' addressed authority verdict same =>
    exact same.limits.trans (Impl.handled r q).sameAuthority.limits
  | schema op schema bound r' registered same =>
    obtain ⟨-, -, -, -, rfl⟩ := registerCapabilitySchemaLocked_eq_ok registered
    exact same.limits
  | imported state report r' accepted =>
    obtain ⟨staged, -, -, rfl⟩ := importDurableState_eq_ok.mp accepted
    rfl
  | importRefused state e r' refused =>
    obtain ⟨serial, rfl⟩ := importDurableState_eq_error refused
    rfl

theorem limits_run (r : Impl) (ops : List Op) : (r.run ops).limits = r.limits :=
  Machine.run_invariant (P := fun r' : Impl => r'.limits = r.limits) rfl
    (fun r' op h => (limits_after r' op).trans h) ops

/-- In every reachable registry the evidence is counted, bounded and indexed, and the newest record
that a source slot accepted since the last accepted import is the newest one it retains. -/
theorem evidence_is_accounted_for (limits : RegistryLimits) (ops : List Op) :
    let r := (Impl.fresh limits).run ops
    r.evidenceCount = totalRecords r.keys ∧
      r.evidenceCount ≤ limits.maxEvidenceHistory ∧
      (∀ device capability, capability ∈ ownedBy r.deviceKeys device ↔
        (r.keys[KeyId.mk device capability]?).isSome) ∧
      ∀ id slot s, newestRecorded (Impl.fresh limits) (fun _ _ => none) ops id slot = some s →
        slotLatest (recordsAt r.keys id) slot = some s := by
  have hr : Reachable limits ((Impl.fresh limits).run ops) := ⟨ops, rfl⟩
  have ha := (reachable_slotted hr).1
  refine ⟨ha.counted, ?_, fun device capability => reachable_indexed hr ⟨device, capability⟩, ?_⟩
  · exact ha.bounded.trans_eq (congrArg RegistryLimits.maxEvidenceHistory (limits_run _ ops))
  · exact retains_run ⟨[], rfl⟩ (fun id slot s hs => (by cases hs)) ops

omit [StdLib] in
/-- An import into a registry that already holds evidence replaces it. -/
theorem import_replaces_retained_evidence :
    letI := StdLib.reference
    ¬ ∀ (limits : RegistryLimits) (before later : List Op) (op : Op) (id : KeyId) (s : StoredRecord),
      ((Impl.fresh limits).run before).recording op = some (id, s) →
        (slotLatest (recordsAt ((Impl.fresh limits).run (before ++ op :: later)).keys id)
          s.slot).isSome = true := by
  let := StdLib.reference
  intro h
  have hlost : ((((Impl.fresh {}).run Sample.setup).recording
      (.apply Sample.now (Sample.evidence 2 Sample.capability))).map fun e =>
        (slotLatest (recordsAt ((Impl.fresh {}).run (Sample.setup ++
          .apply Sample.now (Sample.evidence 2 Sample.capability) ::
            [.importDurableState ((Impl.fresh {}).exportDurableState Sample.now)])).keys e.1)
          e.2.slot).isSome) = some false := by
    rw [Impl.fresh_eq]
    decide +kernel
  obtain ⟨⟨id, s⟩, hrec, hnone⟩ := Option.map_eq_some_iff.mp hlost
  have hsome := h {} Sample.setup
    [.importDurableState ((Impl.fresh {}).exportDurableState Sample.now)] _ id s hrec
  rw [hsome] at hnone
  cases hnone

/-- A slot in which nothing was recorded has no newest record. -/
example : (slotLatest (recordsAt ∅ (keyOf Sample.capability)) (slotOf Sample.capability)).isNone =
    true := by
  decide +kernel

end Retained

end Impl

end CapabilityRegistry
