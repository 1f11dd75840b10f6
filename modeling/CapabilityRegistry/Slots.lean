import CapabilityRegistry.RestoredEvidence
import CapabilityRegistry.Texts
import CapabilityRegistry.Thinning

/-! Source slots: what their texts tell apart, and that the newest record of each is unmarked. -/
namespace CapabilityRegistry

section Texts
variable {a b : CapabilityRecord}

/-- The byte that separates the parts of a slot. -/
def separator : UInt8 := 35

theorem separator_text : (("#" : String) : Text) = [separator] := by decide

theorem separator_not_mem_id {Tag : Type} (id : Id Tag) : separator ∉ id.str :=
  not_mem_id (by decide) id

theorem separator_not_mem_decimal (n : Nat) : separator ∉ decimal n :=
  not_mem_decimal (by decide) n

theorem separator_not_mem_sourceClass (c : SourceClass) : separator ∉ c.toText := by
  cases c <;> decide

theorem sourceClass_toText_inj : Function.Injective SourceClass.toText :=
  CodeEnum.injective_of_members (by decide)

theorem slotOf_eq (record : CapabilityRecord) : slotOf record =
    record.source.publisher.id.str ++ separator ::
      (record.source.publisher.boot.str ++ separator :: record.source.sourceClass.toText) := by
  simp only [slotOf, separator_text, List.append_assoc, List.cons_append, List.nil_append]

/-- A slot names its publisher, its boot and its source class. -/
theorem slotOf_inj (h : slotOf a = slotOf b) :
    a.source.publisher.id = b.source.publisher.id ∧
      a.source.publisher.boot = b.source.publisher.boot ∧
      a.source.sourceClass = b.source.sourceClass := by
  rw [slotOf_eq, slotOf_eq] at h
  obtain ⟨hid, h⟩ := append_mark_inj (separator_not_mem_id _) (separator_not_mem_id _) h
  obtain ⟨hboot, hclass⟩ :=
    append_mark_inj (separator_not_mem_decimal _) (separator_not_mem_decimal _) h
  refine ⟨Id.ext hid, Gen.ext (UInt64.toNat_inj.mp (decimal_inj hboot)), ?_⟩
  exact sourceClass_toText_inj hclass

/-- No record of live ingestion shares a slot with a restored one. -/
theorem slotOf_ne_importSlot (a b : CapabilityRecord) : slotOf a ≠ importSlot b := by
  intro h
  rw [importSlot, slotOf_eq, slotOf_eq] at h
  simp only [separator_text, List.append_assoc, List.cons_append, List.nil_append] at h
  obtain ⟨-, h⟩ := append_mark_inj (separator_not_mem_id _) (separator_not_mem_id _) h
  obtain ⟨-, h⟩ :=
    append_mark_inj (separator_not_mem_decimal _) (separator_not_mem_decimal _) h
  have hm : separator ∈ a.source.sourceClass.toText := by
    rw [h]
    exact List.mem_append_right _ List.mem_cons_self
  exact separator_not_mem_sourceClass _ hm

end Texts

section Marks
variable {xs ys : List StoredRecord} {s t : StoredRecord} {slot : Text} {next next' : Nat}

theorem supersededIn_supersede (slot : Text) (xs : List StoredRecord) (s : StoredRecord) :
    supersededIn (supersede slot xs) s = supersededIn xs s := by
  rw [Bool.eq_iff_iff, supersededIn_iff, supersededIn_iff]
  constructor
  · rintro ⟨u, hu, hrest⟩
    obtain ⟨v, hv, hk⟩ := mem_supersede hu
    rw [hk.slot, hk.serial] at hrest
    exact ⟨v, hv, hrest⟩
  · rintro ⟨v, hv, hrest⟩
    refine ⟨_, List.mem_map_of_mem hv, ?_⟩
    split
    · exact hrest
    · exact hrest

/-- The records that are not marked superseded are the newest of their slots. -/
def NewestUnmarked (xs : List StoredRecord) : Prop :=
  ∀ s ∈ xs, s.persistent = .none ↔ supersededIn xs s = false

theorem NewestUnmarked.thins (h : NewestUnmarked xs) (ht : Thins xs ys) : NewestUnmarked ys :=
  fun s hs => (h s (ht.sublist.subset hs)).trans (by rw [ht.superseded])

/-- The marks stay right when a newer record is appended to its slot. -/
theorem NewestUnmarked.append (h : NewestUnmarked xs) (ht : t.persistent = .none)
    (hlt : ∀ s ∈ xs, s.slot = t.slot → s.serial < t.serial) :
    NewestUnmarked (supersede t.slot xs ++ [t]) := by
  have hsup : ∀ s, supersededIn (supersede t.slot xs ++ [t]) s = true ↔
      supersededIn xs s = true ∨ (t.slot = s.slot ∧ s.serial < t.serial) := by
    intro s
    rw [← supersededIn_supersede t.slot xs s]
    simp [supersededIn]
  intro s hs
  rcases List.mem_append.mp hs with hm | hm
  · obtain ⟨u, hu, rfl⟩ := List.mem_map.mp hm
    by_cases he : u.slot = t.slot
    · simp only [if_pos he, StalenessFlag.raise_eq_none_iff supersededByNewerEvidence_ne_none]
      have hnew := (hsup { u with
        persistent := u.persistent.raise true .supersededByNewerEvidence }).mpr
          (.inr ⟨he.symm, hlt u hu he⟩)
      simp [hnew]
    · rw [if_neg he, h u hu, ← not_iff_not]
      simp only [Bool.not_eq_false, hsup]
      exact ⟨.inl, fun hor => hor.resolve_right fun hn => he hn.1.symm⟩
  · obtain rfl := List.mem_singleton.mp hm
    refine iff_of_true ht ?_
    rw [← Bool.not_eq_true, hsup, not_or]
    refine ⟨fun hx => ?_, fun hx => Nat.lt_irrefl _ hx.2⟩
    obtain ⟨u, hu, hslot, hserial⟩ := supersededIn_iff.mp hx
    exact Nat.lt_asymm hserial (hlt u hu hslot)

/-- A record in the slot of live ingestion or of an import, under a serial that was given out. The
last serial of an import is the next one of live ingestion. -/
def Placed (next : Nat) (s : StoredRecord) : Prop :=
  (s.slot = slotOf s.record ∧ s.serial < next) ∨ (s.slot = importSlot s.record ∧ s.serial ≤ next)

theorem Placed.mono (h : Placed next s) (hn : next ≤ next') : Placed next' s :=
  h.imp (fun hl => ⟨hl.1, hl.2.trans_le hn⟩) fun hi => ⟨hi.1, hi.2.trans hn⟩

theorem Placed.kept (h : Placed next s) (hk : Kept s t) : Placed next t := by
  unfold Placed
  rw [hk.slot, hk.serial, hk.record]
  exact h

/-- In a slot of live ingestion every serial is behind the next one. -/
theorem Placed.lt_of_live (h : Placed next s) {record : CapabilityRecord}
    (hs : s.slot = slotOf record) : s.serial < next := by
  rcases h with ⟨-, hlt⟩ | ⟨hslot, -⟩
  · exact hlt
  · exact (slotOf_ne_importSlot _ _ (hs.symm.trans hslot)).elim

end Marks

section Staging
variable {limits : RegistryLimits} {subjects : StagedSubjects} {schemas : StagedSchemas}
  {staged staged' : StagedKeys} {record : CapabilityRecord} {records : List CapabilityRecord}
  {status : Status}

/-- The staged keys are marked right and every serial was given out. -/
structure StagedMarks (staged : StagedKeys) : Prop where
  newest : ∀ id, NewestUnmarked (recordsAt staged.keys id)
  issued : ∀ id, ∀ s ∈ recordsAt staged.keys id, s.serial ≤ staged.nextSerial

theorem stagedMarks_empty (next : Nat) : StagedMarks { nextSerial := next } := by
  constructor <;> intro id s hs <;> simp [recordsAt] at hs

/-- The records of the staged keys after one more was restored. -/
theorem recordsAt_restoreRecord (staged : StagedKeys) (record : CapabilityRecord) (serial : Nat)
    (id : KeyId) :
    recordsAt (staged.keys.insert (keyOf record)
      (restoreRecord (stagedKey staged.keys record) record serial)) id =
      if keyOf record = id then supersede (importSlot record) (recordsAt staged.keys id) ++
        [{ record := record, slot := importSlot record, serial := serial }]
      else recordsAt staged.keys id := by
  have hold : (stagedKey staged.keys record).records = recordsAt staged.keys (keyOf record) :=
    Impl.stagedKey_records staged record
  simp only [recordsAt, OrdMap.getElem?_insert_eq]
  split
  · next he =>
    subst he
    exact congrArg (fun xs => supersede (importSlot record) xs ++ [_]) hold
  · rfl

theorem stagedMarks_stageRecord (hm : StagedMarks staged)
    (h : stageRecord limits subjects schemas staged record = .ok staged') : StagedMarks staged' := by
  obtain ⟨-, -, -, rfl⟩ := Impl.stageRecord_eq_ok.mp h
  refine ⟨fun id => ?_, fun id s hs => ?_⟩
  · rw [recordsAt_restoreRecord]
    split
    · exact (hm.newest id).append
        (t := { record := record, slot := importSlot record, serial := staged.nextSerial + 1 }) rfl
        fun s hs _ => Nat.lt_succ_of_le (hm.issued id s hs)
    · exact hm.newest id
  · dsimp only at hs ⊢
    rw [recordsAt_restoreRecord] at hs
    split at hs
    · rcases List.mem_append.mp hs with hs | hs
      · obtain ⟨u, hu, hk⟩ := mem_supersede hs
        rw [hk.serial]
        exact (hm.issued id u hu).trans (Nat.le_succ _)
      · obtain rfl := List.mem_singleton.mp hs
        exact le_refl _
    · exact (hm.issued id s hs).trans (Nat.le_succ _)

theorem stagedMarks_stageRecords (hm : StagedMarks staged)
    (h : stageRecords limits subjects schemas staged records = (.ok (), staged')) :
    StagedMarks staged' := by
  exact foldlM_invariant hm (fun _ _ _ _ => stagedMarks_stageRecord)
    (Impl.stageRecords_eq_ok.mp h)

/-- Restoring records only takes new serials. -/
theorem stageRecords_nextSerial
    (h : stageRecords limits subjects schemas staged records = (status, staged')) :
    staged.nextSerial ≤ staged'.nextSerial := by
  induction records generalizing staged with
  | nil =>
    obtain ⟨-, rfl⟩ := Prod.mk.inj h
    exact le_refl _
  | cons record rest ih =>
    unfold stageRecords at h
    split at h
    · obtain ⟨-, rfl⟩ := Prod.mk.inj h
      exact le_refl _
    · next next hn =>
      obtain ⟨-, -, -, rfl⟩ := Impl.stageRecord_eq_ok.mp hn
      exact (Nat.le_succ _).trans (ih h)

end Staging

namespace Impl
variable {r r' : Impl} {op : Op} {id : KeyId} {state : DurableState} {e : Error}

theorem importRefused_nextSerial (h : r.importDurableState state = (.error e, r')) :
    r.nextSerial ≤ r'.nextSerial := by
  unfold importDurableState at h
  split at h
  · obtain ⟨-, rfl⟩ := Prod.mk.inj h
    exact le_refl _
  · next subjects platforms schemas hi =>
    have hn := stageRecords_nextSerial (Prod.mk.eta (p := stageRecords r.limits subjects schemas
      { nextSerial := r.nextSerial } state.capabilityHistory)).symm
    dsimp only at h
    split at h
    · obtain ⟨-, rfl⟩ := Prod.mk.inj h
      exact hn
    · split at h
      · obtain ⟨-, rfl⟩ := Prod.mk.inj h
        exact hn
      · simp at h

variable [StdLib]

theorem thinMove (ha : r.Accounted) (hop : ¬ r.Restores op) (id : KeyId) :
    ThinMove r op (r.after op) id := by
  have hc := changed r op
  generalize r.after op = r' at hc
  have hsame : ∀ (op : Op) (r' : Impl), r'.keys = r.keys → r.nextSerial ≤ r'.nextSerial →
      ThinMove r op r' id := by
    intro op r' hk hn
    refine .thinned _ _ _ ?_ hn
    rw [hk]
    exact Thins.refl _
  cases hc with
  | unchanged op r' same => exact hsame _ _ same.keys same.nextSerial.ge
  | payload now publication q publisher r' addressed authority verdict same =>
    exact (applyPayload_thinMove ha addressed authority now id).of_same same.keys same.nextSerial
  | schema op schema bound r' registered same =>
    obtain ⟨-, -, -, -, rfl⟩ := registerCapabilitySchemaLocked_eq_ok registered
    exact hsame _ _ same.keys same.nextSerial.ge
  | imported state report r' accepted => exact (hop ⟨state, report, r', rfl, accepted⟩).elim
  | importRefused state e r' refused =>
    have hn := importRefused_nextSerial refused
    obtain ⟨serial, rfl⟩ := importDurableState_eq_error refused
    exact hsame _ _ rfl hn

/-- The slots of every key of a reachable registry. -/
structure Slotted (r : Impl) : Prop where
  placed : ∀ id, ∀ s ∈ recordsAt r.keys id, Placed r.nextSerial s
  newest : ∀ id, NewestUnmarked (recordsAt r.keys id)

omit [StdLib] in
theorem ThinMove.slotted (h : ThinMove r op r' id)
    (hp : ∀ s ∈ recordsAt r.keys id, Placed r.nextSerial s)
    (hn : NewestUnmarked (recordsAt r.keys id)) :
    (∀ s ∈ recordsAt r'.keys id, Placed r'.nextSerial s) ∧
      NewestUnmarked (recordsAt r'.keys id) := by
  cases h with
  | thinned op r' id thins serial =>
    exact ⟨fun s hs => (hp s (thins.sublist.subset hs)).mono serial, hn.thins thins⟩
  | stored now publication q publisher record device generation mid r' addressed authority kind
      admits thins thins' serial =>
    have hmid : ∀ s ∈ mid, Placed r.nextSerial s := fun s hs => hp s (thins.sublist.subset hs)
    refine ⟨fun s hs => ?_, ?_⟩
    · rw [serial]
      rcases List.mem_append.mp (thins'.sublist.subset hs) with hs | hs
      · obtain ⟨u, hu, hk⟩ := mem_supersede hs
        exact ((hmid u hu).kept hk).mono (Nat.le_succ _)
      · obtain rfl := List.mem_singleton.mp hs
        exact .inl ⟨rfl, Nat.lt_succ_self _⟩
    · refine NewestUnmarked.thins ?_ thins'
      exact (hn.thins thins).append (t := r.storedAs record device generation) rfl
        fun s hs he => (hmid s hs).lt_of_live he

theorem Slotted.after (h : r.Slotted) (ha : r.Accounted) (op : Op) : (r.after op).Slotted := by
  by_cases hop : r.Restores op
  · obtain ⟨state, report, r', rfl, hi⟩ := hop
    obtain ⟨staged, him, -, rfl⟩ := importDurableState_eq_ok.mp hi
    have hafter : r.after (.importDurableState state) = r.commit state staged := congrArg Prod.snd hi
    have hmarks := stagedMarks_stageRecords (stagedMarks_empty r.nextSerial) him.records
    have hslots : StagedSlots staged.keys.keys := by
      refine stagedSlots_stageRecords ?_ him.records
      intro id s hs
      simp [recordsAt] at hs
    rw [hafter]
    exact ⟨fun id s hs => .inr ⟨hslots id s hs, hmarks.issued id s hs⟩, hmarks.newest⟩
  · exact ⟨fun id => ((thinMove ha hop id).slotted (h.placed id) (h.newest id)).1,
      fun id => ((thinMove ha hop id).slotted (h.placed id) (h.newest id)).2⟩

/-- Every reachable registry counts its records and marks its slots right. -/
theorem reachable_slotted {limits : RegistryLimits} (h : Reachable limits r) :
    r.Accounted ∧ r.Slotted := by
  obtain ⟨ops, rfl⟩ := h
  have hfresh : (Impl.fresh limits).Slotted := by
    constructor <;> intro id s hs <;> simp [Impl.fresh, recordsAt] at hs
  exact Machine.run_invariant (P := fun r : Impl => r.Accounted ∧ r.Slotted)
    ⟨accounted_fresh limits, hfresh⟩ (fun r op hr => ⟨hr.1.after op, hr.2.after hr.1 op⟩) ops

end Impl

end CapabilityRegistry
