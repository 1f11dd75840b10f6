import CapabilityRegistry.Lib.OrdMap
import CapabilityRegistry.Publishers

/-! Bounded retention: which superseded records are evicted, and in which order. -/
namespace CapabilityRegistry

/-- A newer record of the same source slot is retained next to this one. -/
def supersededIn (records : List StoredRecord) (stored : StoredRecord) : Bool :=
  records.any fun other => other.slot == stored.slot && stored.serial < other.serial

/-- One round of the scan for a victim, over a record and its position. -/
def victimStep (records : List StoredRecord) (victim : Option Nat) (entry : StoredRecord × Nat) :
    Option Nat :=
  if !supersededIn records entry.1 then victim
  else match victim with
    | none => some entry.2
    | some v =>
      if entry.1.serial < (records[v]?.map StoredRecord.serial).getD 0 then some entry.2 else some v

/-- The position of the superseded record with the least serial, the first such one. -/
def findVictim (records : List StoredRecord) : Option Nat :=
  records.zipIdx.foldl (victimStep records) none

/-- The per-key loop. Every round removes a record, so as many rounds as records suffice. -/
def evictKeyLoop (cap : Nat) : Nat → List StoredRecord → List StoredRecord
  | 0, records => records
  | rounds + 1, records =>
    if records.length ≤ cap then records
    else match findVictim records with
      | none => records
      | some victim => evictKeyLoop cap rounds (records.eraseIdx victim)

def evictKey (cap : Nat) (key : KeyState) : KeyState :=
  { key with records := evictKeyLoop cap key.records.length key.records }

/-- The number of records all keys retain. -/
def totalRecords (keys : Std.ExtTreeMap KeyId KeyState) : Nat :=
  OrdMap.total (fun key => key.records.length) keys

/-- The position of the record a global entry names, when a newer one supersedes it. -/
def evictableAt (keys : Std.ExtTreeMap KeyId KeyState) (entry : GlobalEntry) :
    Option (KeyState × Nat) := do
  let key ← keys[entry.key]?
  let index ← key.records.findIdx? fun stored => stored.serial == entry.serial
  let stored ← key.records[index]?
  if supersededIn key.records stored then some (key, index) else none

/-- The global loop: the oldest entries are consumed while the store is full. -/
def evictGlobalLoop (limit : Nat) :
    List GlobalEntry → Std.ExtTreeMap KeyId KeyState → Nat →
      List GlobalEntry × Std.ExtTreeMap KeyId KeyState × Nat
  | [], keys, count => ([], keys, count)
  | front :: rest, keys, count =>
    if count < limit then (front :: rest, keys, count)
    else match evictableAt keys front with
      | none => evictGlobalLoop limit rest keys count
      | some (key, index) =>
        evictGlobalLoop limit rest
          (keys.insert front.key { key with records := key.records.eraseIdx index }) (count - 1)

namespace Impl

def evictIfNeeded (r : Impl) : Impl :=
  let cap := sizeMul r.limits.maxEvidencePerCapability 8
  let keys := r.keys.map fun _ key => evictKey cap key
  let count := r.evidenceCount - (totalRecords r.keys - totalRecords keys)
  let swept := evictGlobalLoop r.limits.maxEvidenceHistory r.globalOrder keys count
  let bound := sizeMul r.limits.maxEvidenceHistory 4
  { r with
    globalOrder := swept.1.drop (swept.1.length - bound)
    keys := swept.2.1
    evidenceCount := swept.2.2 }

end Impl

section Victims
variable {records : List StoredRecord} {stored : StoredRecord} {cap i : Nat}

theorem victimStep_of_not_superseded {victim : Option Nat} {entry : StoredRecord × Nat}
    (h : supersededIn records entry.1 = false) : victimStep records victim entry = victim := by
  simp [victimStep, h]

theorem victimStep_of_superseded {victim : Option Nat} {entry : StoredRecord × Nat}
    (h : supersededIn records entry.1 = true) :
    ∃ v, victimStep records victim entry = some v ∧ (v = entry.2 ∨ victim = some v) := by
  cases victim with
  | none => exact ⟨entry.2, by simp [victimStep, h], Or.inl rfl⟩
  | some v =>
    simp only [victimStep, h, Bool.not_true, Bool.false_eq_true, if_false]
    split
    · exact ⟨entry.2, rfl, Or.inl rfl⟩
    · exact ⟨v, rfl, Or.inr rfl⟩

/-- The scan over any tail of the list: it finds nothing new exactly when nothing in the tail is
superseded, and what it finds is a position of the list. -/
theorem findVictim_scan (xs : List (StoredRecord × Nat)) (acc : Option Nat) :
    (xs.foldl (victimStep records) acc = none ↔
        acc = none ∧ ∀ e ∈ xs, supersededIn records e.1 = false) ∧
      ∀ i, xs.foldl (victimStep records) acc = some i → acc = some i ∨ ∃ e ∈ xs, e.2 = i := by
  induction xs generalizing acc with
  | nil => simp
  | cons x xs ih =>
    rw [List.foldl_cons]
    cases hs : supersededIn records x.1 with
    | false =>
      rw [victimStep_of_not_superseded hs]
      refine ⟨(ih acc).1.trans (by simp [hs]), fun i hi => ((ih acc).2 i hi).imp_right ?_⟩
      rintro ⟨e, he, hei⟩
      exact ⟨e, List.mem_cons_of_mem _ he, hei⟩
    | true =>
      obtain ⟨v, hv, hor⟩ := @victimStep_of_superseded _ acc _ hs
      rw [hv]
      refine ⟨(ih (some v)).1.trans (by simp [hs]), fun i hi => ?_⟩
      rcases (ih (some v)).2 i hi with he | ⟨e, he, hei⟩
      · obtain rfl := Option.some.inj he
        exact hor.symm.imp_right fun h => ⟨x, List.mem_cons_self, h.symm⟩
      · exact Or.inr ⟨e, List.mem_cons_of_mem _ he, hei⟩

theorem findVictim_eq_none_iff :
    findVictim records = none ↔ ∀ stored ∈ records, supersededIn records stored = false := by
  refine (findVictim_scan records.zipIdx none).1.trans ?_
  simp only [true_and]
  constructor
  · intro h stored hs
    obtain ⟨i, hi, rfl⟩ := List.mem_iff_getElem.mp hs
    exact h (records[i], i) (List.mk_mem_zipIdx_iff_getElem?.mpr (by simp))
  · rintro h ⟨stored, i⟩ he
    exact h stored (List.fst_mem_of_mem_zipIdx he)

theorem findVictim_lt (h : findVictim records = some i) : i < records.length := by
  rcases (findVictim_scan records.zipIdx none).2 i h with hn | ⟨e, he, rfl⟩
  · cases hn
  · have := List.mem_zipIdx he
    omega

theorem evictKeyLoop_sublist (cap rounds : Nat) (records : List StoredRecord) :
    (evictKeyLoop cap rounds records).Sublist records := by
  induction rounds generalizing records with
  | zero => exact List.Sublist.refl _
  | succ rounds ih =>
    unfold evictKeyLoop
    split
    · exact List.Sublist.refl _
    · split
      · exact List.Sublist.refl _
      · exact (ih _).trans (List.eraseIdx_sublist _ _)

/-- An over-long key with a superseded record loses one. -/
theorem evictKeyLoop_length_lt (hc : cap < records.length) (hs : stored ∈ records)
    (hv : supersededIn records stored = true) :
    (evictKeyLoop cap records.length records).length < records.length := by
  obtain ⟨n, hn⟩ : ∃ n, records.length = n + 1 := ⟨records.length - 1, by omega⟩
  rw [hn]
  unfold evictKeyLoop
  rw [if_neg (by omega)]
  cases hf : findVictim records with
  | none =>
    rw [findVictim_eq_none_iff.mp hf stored hs] at hv
    cases hv
  | some i =>
    have hl := (evictKeyLoop_sublist cap n (records.eraseIdx i)).length_le
    rw [List.length_eraseIdx_of_lt (findVictim_lt hf)] at hl
    dsimp only
    omega

/-- A key whose records are all the newest of their slots is left as it is. -/
theorem evictKeyLoop_eq_self (h : cap < records.length →
    ∀ stored ∈ records, supersededIn records stored = false) (rounds : Nat) :
    evictKeyLoop cap rounds records = records := by
  cases rounds with
  | zero => rfl
  | succ rounds =>
    unfold evictKeyLoop
    split
    · rfl
    · rw [findVictim_eq_none_iff.mpr (h (by omega))]

end Victims

/-- A key that only lost records. -/
structure KeyState.Shrinks (a b : KeyState) : Prop where
  schema : b.schema = a.schema
  generation : b.generation = a.generation
  hasEvidence : b.hasEvidence = a.hasEvidence
  records : b.records.Sublist a.records

/-- The same keys, each with at most its records. -/
def KeysShrink (keys keys' : Std.ExtTreeMap KeyId KeyState) : Prop :=
  ∀ id : KeyId, Option.Rel KeyState.Shrinks (keys[id]?) (keys'[id]?)

section Shrinking
variable {keys keys' keys'' : Std.ExtTreeMap KeyId KeyState} {a b c : KeyState} {id : KeyId}

theorem KeyState.Shrinks.refl (a : KeyState) : a.Shrinks a := ⟨rfl, rfl, rfl, List.Sublist.refl _⟩

theorem KeyState.Shrinks.trans (h : a.Shrinks b) (h' : b.Shrinks c) : a.Shrinks c :=
  ⟨h'.schema.trans h.schema, h'.generation.trans h.generation,
    h'.hasEvidence.trans h.hasEvidence, h'.records.trans h.records⟩

theorem KeysShrink.refl (keys : Std.ExtTreeMap KeyId KeyState) : KeysShrink keys keys := by
  intro id
  cases keys[id]? with
  | none => exact .none
  | some key => exact .some (KeyState.Shrinks.refl key)

theorem KeysShrink.trans (h : KeysShrink keys keys') (h' : KeysShrink keys' keys'') :
    KeysShrink keys keys'' := by
  intro id
  have h1 := h id
  have h2 := h' id
  generalize keys[id]? = x at h1 ⊢
  generalize keys'[id]? = y at h1 h2
  generalize keys''[id]? = z at h2 ⊢
  cases h1 with
  | none => exact h2
  | some hab =>
    cases h2 with
    | some hbc => exact .some (hab.trans hbc)

/-- A retained key comes from a key that held at least its records. -/
theorem KeysShrink.source (h : KeysShrink keys keys') (hb : keys'[id]? = some b) :
    ∃ a, keys[id]? = some a ∧ a.Shrinks b := by
  have hr := h id
  rw [hb] at hr
  cases ha : keys[id]? with
  | none => rw [ha] at hr; cases hr
  | some a =>
    rw [ha] at hr
    cases hr with
    | some hab => exact ⟨a, rfl, hab⟩

/-- No key disappears. -/
theorem KeysShrink.target (h : KeysShrink keys keys') (ha : keys[id]? = some a) :
    ∃ b, keys'[id]? = some b ∧ a.Shrinks b := by
  have hr := h id
  rw [ha] at hr
  cases hb : keys'[id]? with
  | none => rw [hb] at hr; cases hr
  | some b =>
    rw [hb] at hr
    cases hr with
    | some hab => exact ⟨b, rfl, hab⟩

/-- The records of a key; a key that does not exist has none. -/
def recordsAt (keys : Std.ExtTreeMap KeyId KeyState) (id : KeyId) : List StoredRecord :=
  ((keys[id]?).map KeyState.records).getD []

theorem recordsAt_of_some {key : KeyState} (h : keys[id]? = some key) :
    recordsAt keys id = key.records := by
  simp [recordsAt, h]

theorem recordsAt_of_none (h : keys[id]? = none) : recordsAt keys id = [] := by
  simp [recordsAt, h]

theorem KeysShrink.recordsAt_sublist (h : KeysShrink keys keys') (id : KeyId) :
    (recordsAt keys' id).Sublist (recordsAt keys id) := by
  cases hb : keys'[id]? with
  | none =>
    rw [recordsAt_of_none hb]
    exact List.nil_sublist _
  | some b =>
    obtain ⟨a, ha, hab⟩ := h.source hb
    rw [recordsAt_of_some ha, recordsAt_of_some hb]
    exact hab.records

theorem evictKey_shrinks (cap : Nat) (key : KeyState) : key.Shrinks (evictKey cap key) :=
  ⟨rfl, rfl, rfl, evictKeyLoop_sublist _ _ _⟩

theorem keysShrink_map_evictKey (cap : Nat) (keys : Std.ExtTreeMap KeyId KeyState) :
    KeysShrink keys (keys.map fun _ key => evictKey cap key) := by
  intro id
  rw [Std.ExtTreeMap.getElem?_map]
  cases keys[id]? with
  | none => exact .none
  | some key => exact .some (evictKey_shrinks cap key)

theorem keysShrink_insert (ha : keys[id]? = some a) (hs : a.Shrinks b) :
    KeysShrink keys (keys.insert id b) := by
  intro id'
  rw [OrdMap.getElem?_insert_eq]
  split
  · next he =>
    subst he
    rw [ha]
    exact .some hs
  · exact KeysShrink.refl keys id'

theorem totalRecords_le_of_evictKey (cap : Nat) (keys : Std.ExtTreeMap KeyId KeyState) :
    totalRecords (keys.map fun _ key => evictKey cap key) ≤ totalRecords keys :=
  OrdMap.total_map_le fun _ key => (evictKey_shrinks cap key).records.length_le

end Shrinking

section GlobalLoop
variable {keys : Std.ExtTreeMap KeyId KeyState} {limit count : Nat} {order : List GlobalEntry}
  {entry : GlobalEntry} {key : KeyState} {i : Nat}

theorem evictableAt_eq_some (h : evictableAt keys entry = some (key, i)) :
    keys[entry.key]? = some key ∧ i < key.records.length := by
  simp only [evictableAt, Option.bind_eq_bind, Option.bind_eq_some_iff] at h
  obtain ⟨k, hk, j, hj, s, hs, hif⟩ := h
  split at hif
  · obtain ⟨rfl, rfl⟩ := Prod.mk.inj (Option.some.inj hif)
    exact ⟨hk, (List.getElem?_eq_some_iff.mp hs).1⟩
  · cases hif

theorem shrinks_eraseIdx (key : KeyState) (i : Nat) :
    key.Shrinks { key with records := key.records.eraseIdx i } :=
  ⟨rfl, rfl, rfl, List.eraseIdx_sublist _ _⟩

theorem totalRecords_eraseIdx (h : keys[entry.key]? = some key) (hi : i < key.records.length) :
    totalRecords (keys.insert entry.key { key with records := key.records.eraseIdx i }) + 1 =
      totalRecords keys := by
  have ht := OrdMap.total_insert_of_some (f := fun key : KeyState => key.records.length)
    (v := { key with records := key.records.eraseIdx i }) h
  simp only [List.length_eraseIdx_of_lt hi] at ht
  unfold totalRecords
  omega

/-- What the global loop preserves: keys only shrink and the count stays the number of records. -/
theorem evictGlobalLoop_spec (limit : Nat) (order : List GlobalEntry)
    (h : count = totalRecords keys) :
    KeysShrink keys (evictGlobalLoop limit order keys count).2.1 ∧
      (evictGlobalLoop limit order keys count).2.2 =
        totalRecords (evictGlobalLoop limit order keys count).2.1 ∧
      (evictGlobalLoop limit order keys count).2.2 ≤ count ∧
      (evictGlobalLoop limit order keys count).1 <:+ order := by
  induction order generalizing keys count with
  | nil => exact ⟨KeysShrink.refl _, h, le_refl _, List.suffix_refl _⟩
  | cons front rest ih =>
    unfold evictGlobalLoop
    split
    · exact ⟨KeysShrink.refl _, h, le_refl _, List.suffix_refl _⟩
    · split
      · obtain ⟨h1, h2, h3, h4⟩ := ih h
        exact ⟨h1, h2, h3, h4.trans (List.suffix_cons _ _)⟩
      · next key i he =>
        obtain ⟨hk, hi⟩ := evictableAt_eq_some he
        have ht := totalRecords_eraseIdx hk hi
        have hc : count - 1 = totalRecords
            (keys.insert front.key { key with records := key.records.eraseIdx i }) := by omega
        obtain ⟨h1, h2, h3, h4⟩ := ih hc
        exact ⟨(keysShrink_insert hk (shrinks_eraseIdx key i)).trans h1, h2, by omega,
          h4.trans (List.suffix_cons _ _)⟩

theorem evictGlobalLoop_of_none (limit count : Nat)
    (h : ∀ entry ∈ order, evictableAt keys entry = none) :
    (evictGlobalLoop limit order keys count).2 = (keys, count) := by
  induction order with
  | nil => rfl
  | cons front rest ih =>
    unfold evictGlobalLoop
    split
    · rfl
    · rw [h front List.mem_cons_self]
      exact ih fun e he => h e (List.mem_cons_of_mem _ he)

/-- A full store gains room once some queued record is evictable. -/
theorem evictGlobalLoop_lt (hc : count = limit) (ht : count = totalRecords keys)
    (he : entry ∈ order) (hn : evictableAt keys entry ≠ none) :
    (evictGlobalLoop limit order keys count).2.2 < limit := by
  induction order with
  | nil => cases he
  | cons front rest ih =>
    unfold evictGlobalLoop
    rw [if_neg (by omega)]
    cases hf : evictableAt keys front with
    | none =>
      rcases List.mem_cons.mp he with rfl | he
      · exact (hn hf).elim
      · exact ih he
    | some found =>
      obtain ⟨key, i⟩ := found
      obtain ⟨hk, hi⟩ := evictableAt_eq_some hf
      have hl := OrdMap.le_total (f := fun key : KeyState => key.records.length) hk
      have hs := totalRecords_eraseIdx hk hi
      have hc' : count - 1 = totalRecords
          (keys.insert front.key { key with records := key.records.eraseIdx i }) := by omega
      have h3 := (evictGlobalLoop_spec limit rest hc').2.2.1
      dsimp only
      unfold totalRecords at ht
      omega

end GlobalLoop

namespace Impl
variable {r : Impl}

@[simp] theorem evictIfNeeded_limits : r.evictIfNeeded.limits = r.limits := rfl
@[simp] theorem evictIfNeeded_schemas : r.evictIfNeeded.schemas = r.schemas := rfl
@[simp] theorem evictIfNeeded_capabilitySchemas :
    r.evictIfNeeded.capabilitySchemas = r.capabilitySchemas := rfl
@[simp] theorem evictIfNeeded_devices : r.evictIfNeeded.devices = r.devices := rfl
@[simp] theorem evictIfNeeded_platforms : r.evictIfNeeded.platforms = r.platforms := rfl
@[simp] theorem evictIfNeeded_deviceKeys : r.evictIfNeeded.deviceKeys = r.deviceKeys := rfl
@[simp] theorem evictIfNeeded_families : r.evictIfNeeded.families = r.families := rfl
@[simp] theorem evictIfNeeded_models : r.evictIfNeeded.models = r.models := rfl
@[simp] theorem evictIfNeeded_architectures :
    r.evictIfNeeded.architectures = r.architectures := rfl
@[simp] theorem evictIfNeeded_nextSerial : r.evictIfNeeded.nextSerial = r.nextSerial := rfl
@[simp] theorem evictIfNeeded_quirks : r.evictIfNeeded.quirks = r.quirks := rfl
@[simp] theorem evictIfNeeded_compatibility :
    r.evictIfNeeded.compatibility = r.compatibility := rfl
@[simp] theorem evictIfNeeded_publishers : r.evictIfNeeded.publishers = r.publishers := rfl
@[simp] theorem evictIfNeeded_epoch : r.evictIfNeeded.epoch = r.epoch := rfl
@[simp] theorem evictIfNeeded_snapshotGeneration :
    r.evictIfNeeded.snapshotGeneration = r.snapshotGeneration := rfl
@[simp] theorem evictIfNeeded_stateRevision :
    r.evictIfNeeded.stateRevision = r.stateRevision := rfl
@[simp] theorem evictIfNeeded_shuttingDown :
    r.evictIfNeeded.shuttingDown = r.shuttingDown := rfl
@[simp] theorem evictIfNeeded_usage : r.evictIfNeeded.usage = r.usage := rfl

/-- The evidence counter is the number of retained records. -/
def Counted (r : Impl) : Prop := r.evidenceCount = totalRecords r.keys

/-- The keys after the per-key sweep. -/
def sweptKeys (r : Impl) : Std.ExtTreeMap KeyId KeyState :=
  r.keys.map fun _ key => evictKey (sizeMul r.limits.maxEvidencePerCapability 8) key

/-- No record of an over-long key is superseded and no queued record is. -/
structure NothingEvictable (r : Impl) : Prop where
  perKey : ∀ (id : KeyId) (key : KeyState), r.keys[id]? = some key →
    sizeMul r.limits.maxEvidencePerCapability 8 < key.records.length →
    ∀ stored ∈ key.records, supersededIn key.records stored = false
  queued : ∀ entry ∈ r.globalOrder, evictableAt r.keys entry = none

theorem counted_sweptKeys (h : r.Counted) :
    r.evidenceCount - (totalRecords r.keys - totalRecords r.sweptKeys) =
      totalRecords r.sweptKeys := by
  have hle : totalRecords r.sweptKeys ≤ totalRecords r.keys := totalRecords_le_of_evictKey _ _
  unfold Counted at h
  omega

theorem sweptKeys_eq (h : ∀ (id : KeyId) (key : KeyState), r.keys[id]? = some key →
    sizeMul r.limits.maxEvidencePerCapability 8 < key.records.length →
    ∀ stored ∈ key.records, supersededIn key.records stored = false) : r.sweptKeys = r.keys := by
  apply Std.ExtTreeMap.ext_getElem?
  intro id
  rw [sweptKeys, Std.ExtTreeMap.getElem?_map]
  cases hid : r.keys[id]? with
  | none => rfl
  | some key =>
    have he := evictKeyLoop_eq_self (h id key hid) key.records.length
    simp only [Option.map_some, evictKey, he]

theorem evictIfNeeded_spec (h : r.Counted) :
    KeysShrink r.keys r.evictIfNeeded.keys ∧ r.evictIfNeeded.Counted ∧
      r.evictIfNeeded.evidenceCount ≤ r.evidenceCount := by
  obtain ⟨h1, h2, h3, -⟩ :=
    evictGlobalLoop_spec r.limits.maxEvidenceHistory r.globalOrder (counted_sweptKeys h)
  exact ⟨(keysShrink_map_evictKey _ _).trans h1, h2, h3.trans (Nat.sub_le _ _)⟩

theorem evictIfNeeded_of_nothingEvictable (h : r.NothingEvictable) :
    r.evictIfNeeded.keys = r.keys ∧ r.evictIfNeeded.evidenceCount = r.evidenceCount := by
  have hk := sweptKeys_eq h.perKey
  have hg := evictGlobalLoop_of_none r.limits.maxEvidenceHistory r.evidenceCount h.queued
  unfold sweptKeys at hk
  simp only [evictIfNeeded, hk, Nat.sub_self, Nat.sub_zero, hg, and_self]

/-- A store at its bound has room after eviction exactly when something was evictable. -/
theorem evictIfNeeded_full (hc : r.Counted) (hf : r.evidenceCount = r.limits.maxEvidenceHistory) :
    r.evictIfNeeded.evidenceCount < r.limits.maxEvidenceHistory ↔ ¬ r.NothingEvictable := by
  constructor
  · intro hlt hn
    rw [(evictIfNeeded_of_nothingEvictable hn).2] at hlt
    omega
  · intro hn
    by_contra hge
    have hle := (evictGlobalLoop_spec r.limits.maxEvidenceHistory r.globalOrder
      (counted_sweptKeys hc)).2.2.1
    have hcount : ¬ (evictGlobalLoop r.limits.maxEvidenceHistory r.globalOrder r.sweptKeys
        (r.evidenceCount - (totalRecords r.keys - totalRecords r.sweptKeys))).2.2 <
          r.limits.maxEvidenceHistory := hge
    have hper : ∀ (id : KeyId) (key : KeyState), r.keys[id]? = some key →
        sizeMul r.limits.maxEvidencePerCapability 8 < key.records.length →
        ∀ stored ∈ key.records, supersededIn key.records stored = false := by
      intro id key hid hlen stored hs
      by_contra hv
      have hlt : totalRecords r.sweptKeys < totalRecords r.keys :=
        OrdMap.total_map_lt (fun _ key => (evictKey_shrinks _ key).records.length_le) hid
          (evictKeyLoop_length_lt hlen hs (by simpa using hv))
      have := counted_sweptKeys hc
      unfold Counted at hc
      omega
    -- nothing was evictable per key, so the sweep changed nothing and the queue decides
    have hk := sweptKeys_eq hper
    refine hn ⟨hper, fun entry he => ?_⟩
    by_contra hne
    rw [hk, Nat.sub_self, Nat.sub_zero] at hcount
    exact hcount (evictGlobalLoop_lt hf hc he hne)

end Impl

end CapabilityRegistry
