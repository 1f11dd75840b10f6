import CapabilityRegistry.Generations
import CapabilityRegistry.Slots

/-! Capability generations: what they number, and that they do not go back. -/
namespace CapabilityRegistry

/-- Two records state the same about their key. -/
structure SameStatement (a b : CapabilityRecord) : Prop where
  support : a.support = b.support
  value : a.value = b.value
  conditions : a.conditions = b.conditions

theorem SameStatement.refl (a : CapabilityRecord) : SameStatement a a := ⟨rfl, rfl, rfl⟩

theorem SameStatement.symm {a b : CapabilityRecord} (h : SameStatement a b) : SameStatement b a :=
  ⟨h.support.symm, h.value.symm, h.conditions.symm⟩

theorem SameStatement.trans {a b c : CapabilityRecord} (h : SameStatement a b)
    (h' : SameStatement b c) : SameStatement a c :=
  ⟨h.support.trans h'.support, h.value.trans h'.value, h.conditions.trans h'.conditions⟩

section Keys
variable {key key' : KeyState} {s t : StoredRecord} {g : CapabilityGeneration}
  {keys : Std.ExtTreeMap KeyId KeyState} {id : KeyId}

/-- A generation numbers one statement of its key, and none is ahead of the key's own. -/
structure Governed (key : KeyState) : Prop where
  bounded : ∀ s ∈ key.records, s.record.capabilityGeneration ≤ key.generation
  agree : ∀ s ∈ key.records, ∀ t ∈ key.records,
    s.record.capabilityGeneration = t.record.capabilityGeneration → SameStatement s.record t.record

/-- A governed key whose records all carry a generation. -/
structure Graded (key : KeyState) : Prop extends Governed key where
  valid : ∀ s ∈ key.records, s.record.capabilityGeneration.valid = true

theorem Graded.shrinks (h : Graded key) (hs : key.Shrinks key') : Graded key' := by
  refine ⟨⟨fun s hm => ?_, fun s hs' t ht => ?_⟩, fun s hm => h.valid s (hs.records.subset hm)⟩
  · rw [hs.generation]
    exact h.bounded s (hs.records.subset hm)
  · exact h.agree s (hs.records.subset hs') t (hs.records.subset ht)

/-- A generation that is not valid is below every other. -/
theorem le_of_not_valid {Tag : Type} {a b : Gen Tag} (h : a.valid = false) : a ≤ b := by
  simp only [Gen.valid, bne_eq_false_iff_eq] at h
  rw [Gen.le_def, h]
  exact UInt64.zero_le

theorem le_bumpKey (key : KeyState) (g : CapabilityGeneration) :
    key.generation ≤ (bumpKey key g).generation := by
  simp only [bumpKey]
  split
  · next h =>
    simp only [Bool.or_eq_true, Bool.not_eq_true', decide_eq_true_eq] at h
    exact h.elim le_of_not_valid Gen.le_of_lt
  · exact Gen.le_refl _

theorem le_bumpKey_assigned (key : KeyState) (g : CapabilityGeneration) :
    g ≤ (bumpKey key g).generation := by
  simp only [bumpKey]
  split
  · exact Gen.le_refl _
  · next h =>
    simp only [Bool.or_eq_true, Bool.not_eq_true', decide_eq_true_eq, not_or] at h
    exact Gen.not_lt.mp h.2

theorem Graded.bumpKey (h : Graded key) (g : CapabilityGeneration) : Graded (bumpKey key g) :=
  ⟨⟨fun s hs => Gen.le_trans (h.bounded s hs) (le_bumpKey key g), h.agree⟩, h.valid⟩

/-- The key takes one more record, whose generation numbers no other statement. -/
theorem Graded.append (h : Graded key) (slot : Text) (hg : t.record.capabilityGeneration ≤ key.generation)
    (hv : t.record.capabilityGeneration.valid = true)
    (ha : ∀ s ∈ key.records, s.record.capabilityGeneration = t.record.capabilityGeneration →
      SameStatement s.record t.record) :
    Graded { key with records := supersede slot key.records ++ [t] } := by
  have hmem : ∀ s ∈ supersede slot key.records ++ [t],
      (∃ u ∈ key.records, s.record = u.record) ∨ s = t := by
    intro s hs
    rcases List.mem_append.mp hs with hm | hm
    · obtain ⟨u, hu, hk⟩ := mem_supersede hm
      exact .inl ⟨u, hu, hk.record⟩
    · exact .inr (List.mem_singleton.mp hm)
  refine ⟨⟨fun s hs => ?_, fun s hs s' hs' he => ?_⟩, fun s hs => ?_⟩
  · rcases hmem s hs with ⟨u, hu, hr⟩ | rfl
    · rw [hr]
      exact h.bounded u hu
    · exact hg
  · rcases hmem s hs with ⟨u, hu, hr⟩ | rfl <;> rcases hmem s' hs' with ⟨u', hu', hr'⟩ | rfl
    · rw [hr, hr'] at he ⊢
      exact h.agree u hu u' hu' he
    · rw [hr] at he ⊢
      exact ha u hu he
    · rw [hr'] at he ⊢
      exact (ha u' hu' he.symm).symm
    · exact SameStatement.refl _
  · rcases hmem s hs with ⟨u, hu, hr⟩ | rfl
    · rw [hr]
      exact h.valid u hu
    · exact hv

theorem mem_recordsAt : s ∈ recordsAt keys id ↔ ∃ key, keys[id]? = some key ∧ s ∈ key.records := by
  constructor
  · intro hs
    cases hk : keys[id]? with
    | none =>
      rw [recordsAt_of_none hk] at hs
      cases hs
    | some key => exact ⟨key, rfl, recordsAt_of_some hk ▸ hs⟩
  · rintro ⟨key, hk, hs⟩
    rw [recordsAt_of_some hk]
    exact hs

/-- The generation of a key; an unknown key has none. -/
def generationAt (keys : Std.ExtTreeMap KeyId KeyState) (id : KeyId) : CapabilityGeneration :=
  ((keys[id]?).map KeyState.generation).getD default

end Keys

namespace Impl
variable {r r' : Impl} {op : Op} {p q : Publication} {publisher : PublisherStateInternal}
  {record : CapabilityRecord} {device : DeviceState} {key : KeyState} {winner : StoredRecord}
  {id : KeyId} {x y : Option KeyState}

/-- The record states what the current winner states of the same device generation. -/
structure Joins (r : Impl) (record : CapabilityRecord) (device : DeviceState)
    (winner : StoredRecord) : Prop where
  wins : r.currentWinnerRecord device record.capability = some winner
  content : capabilityContentEqual winner.record record = true
  generation : winner.record.deviceGeneration = record.deviceGeneration

theorem assignedGeneration_cases (r : Impl) (key : KeyState) (record : CapabilityRecord)
    (device : DeviceState) :
    (∃ winner, r.Joins record device winner ∧ r.assignedGeneration key record device =
      if winner.record.capabilityGeneration.valid then winner.record.capabilityGeneration
      else .first) ∨
    ((∀ winner, ¬ r.Joins record device winner) ∧ r.assignedGeneration key record device =
      if key.generation.valid then key.generation.next else .first) := by
  unfold assignedGeneration
  dsimp only
  cases hw : r.currentWinnerRecord device record.capability with
  | none => exact .inr ⟨fun winner h => (nomatch hw.symm.trans h.wins), rfl⟩
  | some winner =>
    dsimp only
    split
    · next hc =>
      simp only [Bool.and_eq_true, beq_iff_eq] at hc
      exact .inl ⟨winner, ⟨hw, hc.1, hc.2⟩, rfl⟩
    · next hc =>
      refine .inr ⟨fun w h => hc ?_, rfl⟩
      obtain rfl := Option.some.inj (hw.symm.trans h.wins)
      simp [h.content, h.generation]

/-- The winner is a record of its key. -/
theorem currentWinnerRecord_mem (h : r.currentWinnerRecord device record.capability = some winner) :
    winner ∈ recordsAt r.keys ⟨device.identity.id, record.capability⟩ := by
  unfold currentWinnerRecord at h
  split at h
  · cases h
  · next key hk =>
    rw [recordsAt_of_some hk]
    clear hk
    generalize key.records = records at h
    induction records using List.reverseRecOn generalizing winner with
    | nil => cases h
    | append_singleton xs x ih =>
      rw [List.foldl_append, List.foldl_cons, List.foldl_nil] at h
      split at h
      · exact List.mem_append_left _ (ih h)
      · split at h
        · obtain rfl := Option.some.inj h
          exact List.mem_append_right _ List.mem_cons_self
        · next w hw =>
          split at h
          · obtain rfl := Option.some.inj h
            exact List.mem_append_right _ List.mem_cons_self
          · obtain rfl := Option.some.inj h
            exact List.mem_append_left _ (ih hw)

/-- Opening the key of a record changes no winner. -/
theorem currentWinnerRecord_opens (h : Opens r record key r') (hid : device.identity.id = record.device) :
    r'.currentWinnerRecord device record.capability = r.currentWinnerRecord device record.capability ∧
      recordsAt r.keys ⟨device.identity.id, record.capability⟩ = key.records := by
  have hkeyOf : KeyId.mk device.identity.id record.capability = keyOf record := by rw [hid]; rfl
  cases h with
  | existing key known => exact ⟨rfl, by rw [hkeyOf, recordsAt_of_some known]⟩
  | created unknown room =>
    have hnew := opens_key (Opens.created (r := r) unknown room)
    refine ⟨?_, by rw [hkeyOf, recordsAt_of_none unknown]⟩
    unfold currentWinnerRecord
    rw [hkeyOf, hnew, unknown]
    rfl

/-- What an accepted publication of evidence needs for its generation to number its statement only:
it states literally what it joins, and a statement of its own finds a generation left. -/
structure Numbers (r : Impl) (record : CapabilityRecord) (device : DeviceState) (key : KeyState) :
    Prop where
  joins : ∀ winner, r.Joins record device winner →
    winner.record.value = record.value ∧ winner.record.conditions = record.conditions
  opens : (∀ winner, ¬ r.Joins record device winner) → key.generation ≠ Gen.last

/-- The generation a publication is assigned numbers its statement and no other one of the key. -/
theorem Accepts.assigned (h : Accepts r p q publisher record device key r')
    (named : device.identity.id = record.device) (graded : Graded key)
    (numbers : r.Numbers record device key) :
    (r'.assignedGeneration key (qualify record device) device).valid = true ∧
      ∀ s ∈ key.records, s.record.capabilityGeneration =
          r'.assignedGeneration key (qualify record device) device →
        SameStatement s.record record := by
  obtain ⟨hsame, hrec⟩ := currentWinnerRecord_opens h.fresh.opens named
  have hjoins : ∀ winner, r'.Joins (qualify record device) device winner →
      r.Joins record device winner ∧ winner ∈ key.records := by
    intro winner hj
    have hw : r.currentWinnerRecord device record.capability = some winner := hsame ▸ hj.wins
    exact ⟨⟨hw, hj.content, hj.generation⟩, hrec ▸ currentWinnerRecord_mem hw⟩
  rcases assignedGeneration_cases r' key (qualify record device) device with
    ⟨winner, hj, he⟩ | ⟨hno, he⟩
  · obtain ⟨hjoin, hmem⟩ := hjoins winner hj
    have hv := graded.valid winner hmem
    rw [if_pos hv] at he
    rw [he]
    refine ⟨hv, fun s hs hg => (graded.agree s hs winner hmem hg).trans ?_⟩
    obtain ⟨hvalue, hconditions⟩ := numbers.joins winner hjoin
    have hc := hjoin.content
    simp only [capabilityContentEqual, Bool.and_eq_true, beq_iff_eq] at hc
    exact ⟨hc.1.1, hvalue, hconditions⟩
  · have hlast := numbers.opens fun winner hj =>
      hno winner ⟨hsame.trans hj.wins, hj.content, hj.generation⟩
    rw [he]
    split
    · refine ⟨Gen.valid_next hlast, fun s hs hg => ?_⟩
      have hle := graded.bounded s hs
      rw [hg] at hle
      exact (Gen.not_lt.mpr hle (Gen.lt_next hlast)).elim
    · next hv =>
      refine ⟨rfl, fun s hs hg => ?_⟩
      have hle := graded.bounded s hs
      rw [hg] at hle
      exact (hv (Gen.valid_of_lt (Gen.lt_of_lt_of_le default_lt_first hle))).elim

theorem Opens.graded (h : Opens r record key r')
    (hg : ∀ key, r.keys[keyOf record]? = some key → Graded key) :
    Graded key ∧ ((r.keys[keyOf record]?).map KeyState.generation).getD default = key.generation := by
  cases h with
  | existing key known => exact ⟨hg key known, by rw [known]; rfl⟩
  | created unknown room =>
    refine ⟨⟨⟨fun s hs => (by cases hs), fun s hs => (by cases hs)⟩, fun s hs => (by cases hs)⟩, ?_⟩
    rw [unknown]
    rfl

/-- The move of one key keeps it graded and its generation does not go back. -/
theorem KeyMove.graded (h : KeyMove r op id x y) (named : r.DevicesNamed)
    (graded : ∀ key, x = some key → Graded key)
    (numbers : ∀ now p q publisher record device key r', op = .apply now p →
      Accepts r p q publisher record device key r' → r.Numbers record device key) :
    (∀ key, y = some key → Graded key) ∧
      (x.map KeyState.generation).getD default ≤ (y.map KeyState.generation).getD default := by
  cases h with
  | shrunk op id x y shrinks =>
    cases shrinks with
    | none => exact ⟨fun key hk => (by cases hk), Gen.le_refl _⟩
    | some hs =>
      refine ⟨fun key hk => ?_, ?_⟩
      · obtain rfl := Option.some.inj hk
        exact (graded _ rfl).shrinks hs
      · simp only [Option.map_some, Option.getD_some, hs.generation]
        exact Gen.le_refl _
  | created op record record' device admits =>
    refine ⟨fun key hk => ?_, Gen.le_refl _⟩
    obtain rfl := Option.some.inj hk
    exact ⟨⟨fun s hs => (by cases hs), fun s hs => (by cases hs)⟩, fun s hs => (by cases hs)⟩
  | bumped now p q publisher record device key r' accepts y shrinks =>
    obtain ⟨hk, hgen⟩ := accepts.fresh.opens.graded graded
    rw [hgen]
    refine ⟨fun key' hk' => ?_, ?_⟩
    · obtain rfl := Option.some.inj hk'
      exact (hk.bumpKey _).shrinks shrinks
    · simp only [Option.map_some, Option.getD_some, shrinks.generation]
      exact le_bumpKey _ _
  | stored now p q publisher record device key r' accepts mid y room shrinks =>
    obtain ⟨hk, hgen⟩ := accepts.fresh.opens.graded graded
    have hid : device.identity.id = record.device := by
      obtain ⟨value, -, rfl⟩ := accepts.admits.value
      exact named _ _ accepts.admits.known
    obtain ⟨hv, hagree⟩ := accepts.assigned hid hk (numbers now p q publisher record device key r' rfl accepts)
    rw [hgen]
    have hmid := (hk.bumpKey (r'.assignedGeneration key (qualify record device) device)).shrinks room
    refine ⟨fun key' hk' => ?_, ?_⟩
    · obtain rfl := Option.some.inj hk'
      refine (hmid.append (t := r.storedRecord r' key record device) (slotOf record) ?_ hv
        fun s hs he => ?_).shrinks shrinks
      · rw [room.generation]
        exact le_bumpKey_assigned _ _
      · have hsame := hagree s (room.records.subset hs) he
        exact ⟨hsame.support, hsame.value, hsame.conditions⟩
    · simp only [Option.map_some, Option.getD_some, shrinks.generation, room.generation]
      exact le_bumpKey _ _

variable [StdLib]

theorem DevicesNamed.after (h : r.DevicesNamed) (hop : ¬ r.Restores op) :
    (r.after op).DevicesNamed := by
  intro id device hd
  by_cases hi : ∀ state, op ≠ .importDurableState state
  · have hm := devicesMove (r := r) hi
    generalize hr : (r.after op).devices = devices at hm
    rw [hr] at hd
    cases hm with
    | unmoved => exact h id device hd
    | registered registration explicitGeneration enrolls =>
      rw [OrdMap.getElem?_insert_eq] at hd
      split at hd
      · next he =>
        obtain rfl := Option.some.inj hd
        exact (registered_named fun d hk => h _ d hk).trans he
      · exact h id device hd
  · obtain ⟨state, hi⟩ := not_forall.mp hi
    obtain rfl := not_not.mp hi
    cases ho : r.importDurableState state with
    | mk result r' =>
      cases result with
      | ok report => exact (hop ⟨state, report, r', rfl, ho⟩).elim
      | error e =>
        obtain ⟨serial, rfl⟩ := importDurableState_eq_error ho
        have hafter : r.after (.importDurableState state) = { r with nextSerial := serial } :=
          congrArg Prod.snd ho
        rw [hafter] at hd
        exact h id device hd

/-- Records are kept under their own key. -/
def Keyed (r : Impl) : Prop :=
  ∀ id, ∀ s ∈ recordsAt r.keys id, keyOf s.record = id

theorem Keyed.after (h : r.Keyed) (ha : r.Accounted) (hop : ¬ r.Restores op) :
    (r.after op).Keyed := by
  intro id s hs
  rcases (recordsMove ha hop id).origin hs with ⟨t, ht, hk⟩ | ⟨hrec, -⟩
  · rw [hk.record]
    exact h id t ht
  · cases hrec with
    | mk now publication q publisher record device generation addressed authority kind admits =>
      change keyOf record = _
      exact admits_keyOf admits

end Impl

section Staging
variable {limits : RegistryLimits} {subjects : StagedSubjects} {schemas : StagedSchemas}
  {staged staged' : StagedKeys} {record : CapabilityRecord} {past records : List CapabilityRecord}

/-- The staged keys hold the records of a file so far, none ahead of the generation of its key. -/
structure StagedGraded (past : List CapabilityRecord) (staged : StagedKeys) : Prop where
  origin : ∀ id, ∀ s ∈ recordsAt staged.keys id, s.record ∈ past ∧ keyOf s.record = id
  bounded : ∀ id, ∀ s ∈ recordsAt staged.keys id,
    s.record.capabilityGeneration ≤ generationAt staged.keys id
  complete : ∀ record ∈ past, ∃ s ∈ recordsAt staged.keys (keyOf record), s.record = record

theorem stagedKey_generation (staged : StagedKeys) (record : CapabilityRecord) :
    (stagedKey staged.keys record).generation = generationAt staged.keys (keyOf record) := by
  unfold stagedKey generationAt
  cases staged.keys[keyOf record]? with
  | none => dsimp only; split <;> rfl
  | some key => dsimp only; split <;> rfl

theorem stagedGraded_stageRecord (hg : StagedGraded past staged)
    (hv : record.capabilityGeneration.valid = true)
    (h : stageRecord limits subjects schemas staged record = .ok staged') :
    StagedGraded (past ++ [record]) staged' := by
  obtain ⟨-, -, hregress, rfl⟩ := Impl.stageRecord_eq_ok.mp h
  rw [stagedKey_generation] at hregress
  have hle : generationAt staged.keys (keyOf record) ≤ record.capabilityGeneration := by
    cases hk : (generationAt staged.keys (keyOf record)).valid with
    | false => exact le_of_not_valid hk
    | true => exact Gen.not_lt.mp (hregress hv hk)
  have hgen : ∀ id, generationAt (staged.keys.insert (keyOf record)
      (restoreRecord (stagedKey staged.keys record) record (staged.nextSerial + 1))) id =
      if keyOf record = id then record.capabilityGeneration else generationAt staged.keys id := by
    intro id
    simp only [generationAt, OrdMap.getElem?_insert_eq]
    split
    · simp only [Option.map_some, Option.getD_some, restoreRecord, hv, if_true]
    · rfl
  refine ⟨fun id s hs => ?_, fun id s hs => ?_, fun t ht => ?_⟩
  · rw [recordsAt_restoreRecord] at hs
    split at hs
    · next he =>
      rcases List.mem_append.mp hs with hs | hs
      · obtain ⟨u, hu, hk⟩ := mem_supersede hs
        obtain ⟨hp, hid⟩ := hg.origin id u hu
        rw [hk.record]
        exact ⟨List.mem_append_left _ hp, hid⟩
      · obtain rfl := List.mem_singleton.mp hs
        exact ⟨List.mem_append_right _ List.mem_cons_self, he⟩
    · obtain ⟨hp, hid⟩ := hg.origin id s hs
      exact ⟨List.mem_append_left _ hp, hid⟩
  · rw [recordsAt_restoreRecord] at hs
    rw [hgen]
    split at hs
    · next he =>
      rw [if_pos he]
      rcases List.mem_append.mp hs with hs | hs
      · obtain ⟨u, hu, hk⟩ := mem_supersede hs
        rw [hk.record]
        exact Gen.le_trans (hg.bounded id u hu) (he ▸ hle)
      · obtain rfl := List.mem_singleton.mp hs
        exact Gen.le_refl _
    · next he =>
      rw [if_neg he]
      exact hg.bounded id s hs
  · rw [recordsAt_restoreRecord]
    rcases List.mem_append.mp ht with ht | ht
    · obtain ⟨s, hs, rfl⟩ := hg.complete t ht
      split
      · refine ⟨_, List.mem_append_left _ (List.mem_map_of_mem hs), ?_⟩
        split <;> rfl
      · exact ⟨s, hs, rfl⟩
    · obtain rfl := List.mem_singleton.mp ht
      rw [if_pos rfl]
      exact ⟨_, List.mem_append_right _ List.mem_cons_self, rfl⟩

theorem stagedGraded_stageRecords (hg : StagedGraded past staged)
    (hv : ∀ record ∈ records, record.capabilityGeneration.valid = true)
    (h : stageRecords limits subjects schemas staged records = (.ok (), staged')) :
    StagedGraded (past ++ records) staged' := by
  exact foldlM_spec hg
    (fun _ _ record hm _ hg => stagedGraded_stageRecord hg (hv record hm))
    (Impl.stageRecords_eq_ok.mp h)

end Staging

namespace Impl
variable [StdLib] {r : Impl} {turn : Turn} {turns turns' : List Turn} {limits : RegistryLimits}
  {op : Op} {now : Timestamp} {staged : Staged} {report : ImportReport}

/-- The records an export lists are those the keys retain. -/
theorem mem_exported_history {record : CapabilityRecord} :
    record ∈ (r.exportDurableState now).capabilityHistory ↔
      ∃ id, ∃ s ∈ recordsAt r.keys id, s.record = record := by
  simp only [exportDurableState, exportContents, (StdLib.sortHistory_perm _).mem_iff,
    List.mem_flatMap, List.mem_map]
  constructor
  · rintro ⟨e, he, s, hs, rfl⟩
    exact ⟨e.1, s, recordsAt_of_some (OrdMap.mem_toList.mp he) ▸ hs, rfl⟩
  · rintro ⟨id, s, hs, rfl⟩
    obtain ⟨key, hk, hs⟩ := mem_recordsAt.mp hs
    exact ⟨(id, key), OrdMap.mem_toList.mpr hk, s, hs, rfl⟩

/-- Every key is governed: a generation numbers one statement and the key's own is the greatest. -/
def Disciplined (r : Impl) : Prop :=
  ∀ (id : KeyId) (key : KeyState), r.keys[id]? = some key → Governed key

/-- What a turn needs for the generations of the keys to stay disciplined: a call restores nothing
and each generation it gives out numbers one statement; a restart finds, of every key, a record
that carries its generation. -/
def KeepsDiscipline (r : Impl) : Turn → Prop
  | .call op => ¬ r.Restores op ∧
      ∀ now p q publisher record device key r', op = .apply now p →
        Accepts r p q publisher record device key r' →
        sequenceVerdict publisher (openWatermark publisher q.publisher) q = none →
        r.Numbers record device key
  | .restart limits now => ∀ report restored,
      (Impl.fresh limits).importDurableState (r.exportDurableState now) = (.ok report, restored) →
      ∀ (id : KeyId) (key : KeyState), r.keys[id]? = some key → key.generation.valid = true →
        ∃ s ∈ key.records, s.record.capabilityGeneration = key.generation

/-- The invariant of orderly lives. -/
structure Graded (r : Impl) : Prop where
  accounted : r.Accounted
  named : r.DevicesNamed
  keyed : r.Keyed
  graded : ∀ (id : KeyId) (key : KeyState), r.keys[id]? = some key →
    CapabilityRegistry.Graded key

/-- No generation of a key goes back. -/
def Advances (r r' : Impl) : Prop := ∀ id, generationAt r.keys id ≤ generationAt r'.keys id

theorem Graded.after (h : r.Graded) (ho : r.KeepsDiscipline (.call op)) :
    (r.after op).Graded ∧ Advances r (r.after op) := by
  obtain ⟨hop, hnumbers⟩ := ho
  have hmove : ∀ id, (∀ key, (r.after op).keys[id]? = some key → CapabilityRegistry.Graded key) ∧
      generationAt r.keys id ≤ generationAt (r.after op).keys id := by
    intro id
    have hc := changed r op
    generalize r.after op = r' at hc
    have hsame : r'.keys = r.keys → (∀ key, r'.keys[id]? = some key → CapabilityRegistry.Graded key) ∧
        generationAt r.keys id ≤ generationAt r'.keys id := by
      intro hk
      rw [hk]
      exact ⟨h.graded id, Gen.le_refl _⟩
    cases hc with
    | unchanged op r' same => exact hsame same.keys
    | payload now p q publisher r' addressed authority verdict same =>
      rw [same.keys]
      have hm := applyPayload_keyMove h.accounted addressed authority now id
      refine hm.graded h.named (h.graded id) fun now' p' q' publisher' record device key r'' he hacc => ?_
      refine hnumbers now' p' q' publisher' record device key r'' he hacc ?_
      obtain ⟨-, rfl⟩ := Op.apply.inj he
      obtain rfl := Except.ok.inj (hacc.addressed.prepared.symm.trans addressed.prepared)
      obtain rfl := Option.some.inj (hacc.addressed.registered.symm.trans addressed.registered)
      exact verdict
    | schema op schema bound r' registered same =>
      obtain ⟨-, -, -, -, rfl⟩ := registerCapabilitySchemaLocked_eq_ok registered
      exact hsame same.keys
    | imported state report r' accepted => exact (hop ⟨state, report, r', rfl, accepted⟩).elim
    | importRefused state e r' refused =>
      obtain ⟨serial, rfl⟩ := importDurableState_eq_error refused
      exact hsame rfl
  exact ⟨⟨h.accounted.after op, h.named.after hop, h.keyed.after h.accounted hop,
    fun id key hk => (hmove id).1 key hk⟩, fun id => (hmove id).2⟩

/-- What a restart restores of one key was retained before it. -/
theorem restored_origin {past : List CapabilityRecord} {keys : StagedKeys} {id : KeyId}
    {s : StoredRecord} (hk : r.Keyed) (hg : StagedGraded past keys)
    (hpast : past = (r.exportDurableState now).capabilityHistory)
    (hs : s ∈ recordsAt keys.keys id) : ∃ u ∈ recordsAt r.keys id, u.record = s.record := by
  obtain ⟨hm, hid⟩ := hg.origin id s hs
  obtain ⟨id', u, hu, hr⟩ := mem_exported_history.mp (hpast ▸ hm)
  obtain rfl : id' = id := (hk id' u hu).symm.trans (hr ▸ hid)
  exact ⟨u, hu, hr⟩

/-- A restart keeps the discipline, and every generation that some record carries. -/
theorem Graded.restarted (h : r.Graded)
    (hi : Imports (Impl.fresh limits) (r.exportDurableState now) staged)
    (hc : ∀ (id : KeyId) (key : KeyState), r.keys[id]? = some key → key.generation.valid = true →
      ∃ s ∈ key.records, s.record.capabilityGeneration = key.generation) :
    ((Impl.fresh limits).commit (r.exportDurableState now) staged).Graded ∧
      Advances r ((Impl.fresh limits).commit (r.exportDurableState now) staged) := by
  have hvalid : ∀ record ∈ (r.exportDurableState now).capabilityHistory,
      record.capabilityGeneration.valid = true := by
    intro record hm
    obtain ⟨id, s, hs, rfl⟩ := mem_exported_history.mp hm
    obtain ⟨key, hk, hs⟩ := mem_recordsAt.mp hs
    exact (h.graded id key hk).valid s hs
  have hempty : StagedGraded [] { nextSerial := (Impl.fresh limits).nextSerial } := by
    refine ⟨fun id s hs => ?_, fun id s hs => ?_, fun t ht => (by cases ht)⟩ <;>
      simp [recordsAt] at hs
  have hstaged := stagedGraded_stageRecords hempty hvalid hi.records
  rw [List.nil_append] at hstaged
  refine ⟨⟨?_, ?_, fun id s hs => (hstaged.origin id s hs).2, fun id key hk => ?_⟩, fun id => ?_⟩
  · have hok := importDurableState_eq_ok.mpr ⟨staged, hi, rfl, rfl⟩
    have hafter : (Impl.fresh limits).after (.importDurableState (r.exportDurableState now)) =
        (Impl.fresh limits).commit (r.exportDurableState now) staged := congrArg Prod.snd hok
    rw [← hafter]
    exact (accounted_fresh limits).after _
  · intro id device hd
    rw [imports_devices hi h.named] at hd
    obtain ⟨known, hk, rfl⟩ := Option.map_eq_some_iff.mp hd
    exact h.named id known hk
  · have hrec : recordsAt staged.keys.keys id = key.records := recordsAt_of_some hk
    have hgen : generationAt staged.keys.keys id = key.generation := by
      have hk : staged.keys.keys[id]? = some key := hk
      rw [generationAt, hk]
      rfl
    have horigin : ∀ s ∈ key.records, ∃ known, r.keys[id]? = some known ∧
        ∃ u ∈ known.records, u.record = s.record := by
      intro s hs
      obtain ⟨u, hu, hr⟩ := restored_origin h.keyed hstaged rfl (hrec ▸ hs)
      obtain ⟨known, hknown, hu⟩ := mem_recordsAt.mp hu
      exact ⟨known, hknown, u, hu, hr⟩
    refine ⟨⟨fun s hs => hgen ▸ hstaged.bounded id s (hrec ▸ hs), fun s hs t ht he => ?_⟩,
      fun s hs => ?_⟩
    · obtain ⟨known, hknown, u, hu, hr⟩ := horigin s hs
      obtain ⟨known', hknown', v, hv, hr'⟩ := horigin t ht
      obtain rfl := Option.some.inj (hknown.symm.trans hknown')
      rw [← hr, ← hr'] at he ⊢
      exact (h.graded id known hknown).agree u hu v hv he
    · obtain ⟨known, hknown, u, hu, hr⟩ := horigin s hs
      rw [← hr]
      exact (h.graded id known hknown).valid u hu
  · cases hk : r.keys[id]? with
    | none =>
      have hnone : generationAt r.keys id = default := by rw [generationAt, hk]; rfl
      rw [hnone]
      exact le_of_not_valid rfl
    | some key =>
      have hsome : generationAt r.keys id = key.generation := by rw [generationAt, hk]; rfl
      rw [hsome]
      cases hv : key.generation.valid with
      | false => exact le_of_not_valid hv
      | true =>
        obtain ⟨s, hs, hg⟩ := hc id key hk hv
        have hin : s ∈ recordsAt r.keys id := recordsAt_of_some hk ▸ hs
        obtain ⟨t, ht, hr⟩ := hstaged.complete s.record (mem_exported_history.mpr ⟨id, s, hin, rfl⟩)
        rw [h.keyed id s hin] at ht
        have hle := hstaged.bounded id t ht
        rw [hr, hg] at hle
        exact hle

theorem Graded.turned (h : r.Graded) (hd : r.KeepsDiscipline turn) :
    (r.turned turn).Graded ∧ Advances r (r.turned turn) := by
  cases turn with
  | call op => exact h.after hd
  | restart limits now =>
    cases hi : (Impl.fresh limits).importDurableState (r.exportDurableState now) with
    | mk result restored =>
      cases result with
      | error e =>
        have ht : r.turned (.restart limits now) = r := by simp only [Impl.turned, hi]
        rw [ht]
        exact ⟨h, fun id => Gen.le_refl _⟩
      | ok report =>
        have ht : r.turned (.restart limits now) = restored := by simp only [Impl.turned, hi]
        rw [ht]
        have hc := hd report restored hi
        obtain ⟨staged, him, -, rfl⟩ := importDurableState_eq_ok.mp hi
        exact h.restarted him hc

omit [StdLib] in
theorem graded_fresh (limits : RegistryLimits) : (Impl.fresh limits).Graded := by
  refine ⟨accounted_fresh limits, fun id device hd => ?_, fun id s hs => ?_, fun id key hk => ?_⟩
  · simp [Impl.fresh] at hd
  · simp [Impl.fresh, recordsAt] at hs
  · simp [Impl.fresh] at hk

/-- Over every life of a registry whose turns keep the discipline, the keys are governed at every
point and their generations never go back between any two. -/
theorem key_generations_are_disciplined
    (h : Machine.Along turned KeepsDiscipline (Impl.fresh limits) (turns ++ turns')) :
    (turns.foldl turned (Impl.fresh limits)).Disciplined ∧
      Advances (turns.foldl turned (Impl.fresh limits))
        (turns'.foldl turned (turns.foldl turned (Impl.fresh limits))) := by
  obtain ⟨hbefore, hlater⟩ := Machine.along_append.mp h
  have hgraded := hbefore.invariant (P := Graded) (graded_fresh limits)
    fun r turn hr hd => (hr.turned hd).1
  refine ⟨fun id key hk => (hgraded.graded id key hk).toGoverned, ?_⟩
  generalize turns.foldl turned (Impl.fresh limits) = r at hlater hgraded
  have hrun : (turns'.foldl turned r).Graded ∧ Advances r (turns'.foldl turned r) :=
    hlater.invariant (P := fun s => s.Graded ∧ Advances r s) ⟨hgraded, fun id => Gen.le_refl _⟩
      fun s turn hs hd => ⟨(hs.1.turned hd).1, fun id =>
        Gen.le_trans (hs.2 id) ((hs.1.turned hd).2 id)⟩
  exact hrun.2

/-- A turn that is no publication of evidence keeps the discipline. -/
theorem keepsDiscipline_of_not_evidence (hop : ∀ state, op ≠ .importDurableState state)
    (hk : ∀ now p, op = .apply now p → p.kind.isCapability = false) :
    r.KeepsDiscipline (.call op) := by
  refine ⟨?_, fun now p q publisher record device key r' he hacc _ => ?_⟩
  · rintro ⟨state, report, r', rfl, -⟩
    exact hop state rfl
  · have hkind := hacc.kind
    rw [(prepare_eq_ok hacc.addressed.prepared).kind, hk now p he] at hkind
    cases hkind

/-- Nor is it broken by the first evidence of a registry. -/
theorem keepsDiscipline_of_no_keys (hop : ∀ state, op ≠ .importDurableState state)
    (hk : r.keys.toList = []) : r.KeepsDiscipline (.call op) := by
  have hnone : ∀ id : KeyId, r.keys[id]? = none := by
    intro id
    cases hid : r.keys[id]? with
    | none => rfl
    | some key =>
      have hm := OrdMap.mem_toList (e := (id, key)).mpr hid
      rw [hk] at hm
      cases hm
  refine ⟨?_, fun now p q publisher record device key r' he hacc _ => ⟨fun winner hj => ?_, fun _ => ?_⟩⟩
  · rintro ⟨state, report, r', rfl, -⟩
    exact hop state rfl
  · obtain ⟨known, hknown, -⟩ := mem_recordsAt.mp (currentWinnerRecord_mem hj.wins)
    rw [hnone] at hknown
    cases hknown
  · cases hacc.fresh.opens with
    | existing key known =>
      rw [hnone] at known
      cases known
    | created =>
      have hdefault : (default : CapabilityGeneration) ≠ Gen.last := by decide
      exact hdefault

theorem keepsDiscipline_of_carried {now : Timestamp}
    (h : ∀ e ∈ r.keys.toList, ∃ s ∈ e.2.records, s.record.capabilityGeneration = e.2.generation) :
    r.KeepsDiscipline (.restart limits now) :=
  fun _ _ _ id key hk _ => h (id, key) (OrdMap.mem_toList.mpr hk)

/-- A device, evidence for it, then a restart. -/
def publishedThenRestored : List Turn :=
  (Sample.setup ++ [Op.apply Sample.now (Sample.evidence 2 Sample.capability)]).map .call ++
    [.restart {} Sample.now]

omit [StdLib] in
theorem key_generations_are_disciplined_restored :
    letI := StdLib.reference
    (publishedThenRestored.foldl turned (Impl.fresh {})).Disciplined ∧
      Advances (publishedThenRestored.foldl turned (Impl.fresh {}))
        ([].foldl turned (publishedThenRestored.foldl turned (Impl.fresh {}))) := by
  let := StdLib.reference
  have halong : Machine.Along turned KeepsDiscipline (Impl.fresh {}) (publishedThenRestored ++ []) := by
    refine ⟨?_, ?_, ?_, ?_, trivial⟩
    · exact keepsDiscipline_of_not_evidence (by intro state h; cases h) (by intro now p h; cases h)
    · refine keepsDiscipline_of_not_evidence (by intro state h; cases h) ?_
      intro now p h
      obtain ⟨-, rfl⟩ := Op.apply.inj h
      rfl
    · exact keepsDiscipline_of_no_keys (by intro state h; cases h) (by rw [Impl.fresh_eq]; decide)
    · exact keepsDiscipline_of_carried (by rw [Impl.fresh_eq]; decide +kernel)
  exact key_generations_are_disciplined halong

/-- Room for one record. -/
def tight : RegistryLimits := { maxEvidenceHistory := 1 }

/-- Two sources disagree; the second finds no room, but its generation is taken. -/
def saturatedByTwo : List Turn :=
  (Sample.setup ++
    [Op.apply Sample.now (Sample.evidence 2 Sample.capability),
    Op.apply Sample.now (Sample.evidence 3 { Sample.capability with
      value := .boolean false
      source := { Sample.capability.source with
        sourceClass := .driverQuery, provenance := .realRuntimeProbe } })]).map .call

omit [StdLib] in
/-- A restart forgets the generation of a publication that was refused for want of room. -/
theorem restart_regresses_generation :
    letI := StdLib.reference
    ¬ ∀ (limits : RegistryLimits) (turns turns' : List Turn),
      (∀ turn ∈ turns ++ turns', ∀ state, turn ≠ .call (.importDurableState state)) →
      (turns.foldl turned (Impl.fresh limits)).Disciplined ∧
        Advances (turns.foldl turned (Impl.fresh limits))
          (turns'.foldl turned (turns.foldl turned (Impl.fresh limits))) := by
  let := StdLib.reference
  intro h
  have hnone : ∀ turn ∈ saturatedByTwo ++ [.restart tight Sample.now],
      ∀ state, turn ≠ .call (.importDurableState state) := by
    intro turn hm state he
    subst he
    simp [saturatedByTwo, Sample.setup, Sample.registration] at hm
  have hle := (h tight saturatedByTwo [.restart tight Sample.now] hnone).2
    (keyOf Sample.capability)
  have hlt : ¬ generationAt (saturatedByTwo.foldl turned (Impl.fresh tight)).keys
      (keyOf Sample.capability) ≤
      generationAt ([.restart tight Sample.now].foldl turned
        (saturatedByTwo.foldl turned (Impl.fresh tight))).keys (keyOf Sample.capability) := by
    rw [Impl.fresh_eq]
    decide +kernel
  exact hlt hle

end Impl

end CapabilityRegistry
