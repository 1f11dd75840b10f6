import CapabilityRegistry.Deployment
import CapabilityRegistry.Generations
import CapabilityRegistry.Slots
import CapabilityRegistry.Typing

/-! Restarting a registry from its own export: one restart settles what further ones keep. -/
namespace CapabilityRegistry

section Entering
variable {α β γ ε : Type} {f : α → β → Except ε α} {g : γ → β → γ} {xs : List β} {m m' : α}

/-- A loop whose accepted steps move a view of its state like a pure fold does so as a whole. -/
theorem foldlM_eq_ok (view : α → γ) (hf : ∀ m b m', f m b = .ok m' → view m' = g (view m) b)
    (h : xs.foldlM f m = .ok m') : view m' = xs.foldl g (view m) := by
  induction xs generalizing m with
  | nil => exact congrArg view (Except.ok.inj h).symm
  | cons x xs ih =>
    rw [List.foldlM_cons, bind_eq_ok] at h
    obtain ⟨next, hn, hrest⟩ := h
    rw [ih hrest, hf m x next hn]
    rfl

end Entering

section Stages
variable {limits : RegistryLimits} {subjects : StagedSubjects} {schemas schemas' : StagedSchemas}
  {platforms platforms' : Std.ExtTreeMap PlatformId PlatformIdentity}

theorem stagePlatform_enters {platform : PlatformIdentity}
    (h : stagePlatform platforms platform = .ok platforms') :
    platforms' = platforms.insertIfNew platform.id platform := by
  simp only [stagePlatform, status_bind_eq_ok, pure, Except.pure, Except.ok.injEq] at h
  exact h.2.symm

theorem stageSchema_enters {schema : CapabilitySchema}
    (h : stageSchema limits schemas schema = .ok schemas') :
    schemas'.schemas = schemas.schemas.insertIfNew schema.id schema := by
  obtain ⟨-, ⟨rfl, known, hk⟩ | ⟨hs, -, rfl⟩⟩ := Impl.stageSchema_eq_ok h
  · exact (OrdMap.insertIfNew_of_some _ hk).symm
  · exact (OrdMap.insertIfNew_of_none _ hs).symm

theorem stageSchemas_enter {list : List CapabilitySchema}
    (h : list.foldlM (stageSchema limits) schemas = .ok schemas') :
    schemas'.schemas = OrdMap.enter CapabilitySchema.id schemas.schemas list := by
  exact foldlM_eq_ok StagedSchemas.schemas (fun _ _ _ => stageSchema_enters) h

theorem stageQuirk_enters {staged staged' : Std.ExtTreeMap QuirkId QuirkRecord} {quirk : QuirkRecord}
    (h : stageQuirk limits schemas staged quirk = .ok staged') :
    staged' = staged.insertIfNew quirk.id quirk := by
  simp only [stageQuirk, status_bind_eq_ok] at h
  obtain ⟨-, h⟩ := h
  split at h
  · cases h
  · simp only [status_bind_eq_ok, pure, Except.pure, Except.ok.injEq] at h
    exact h.2.symm

theorem stageCompatibility_enters
    {staged staged' : Std.ExtTreeMap CompatibilityFactId CompatibilityFact}
    {fact : CompatibilityFact}
    (h : stageCompatibility limits subjects platforms staged fact = .ok staged') :
    staged' = staged.insertIfNew fact.id fact := by
  simp only [stageCompatibility, status_bind_eq_ok, pure, Except.pure, Except.ok.injEq] at h
  exact h.2.2.2.symm

end Stages

section History
variable {limits : RegistryLimits} {subjects subjects' : StagedSubjects}
  {schemas schemas' : StagedSchemas} {staged staged' staged'' : StagedKeys} {id : KeyId}
  {history xs ys : List CapabilityRecord} {record : CapabilityRecord}
  {keys : Std.ExtTreeMap KeyId KeyState}

/-- The records of a key as they are exported. -/
def historyAt (keys : Std.ExtTreeMap KeyId KeyState) (id : KeyId) : List CapabilityRecord :=
  (recordsAt keys id).map StoredRecord.record

theorem map_record_supersede (slot : Text) (records : List StoredRecord) :
    (supersede slot records).map StoredRecord.record = records.map StoredRecord.record := by
  unfold supersede
  rw [List.map_map]
  refine List.map_congr_left fun s _ => ?_
  by_cases hs : s.slot = slot
  · simp [hs]
  · simp [hs]

/-- The record loop appends the records of each key in the order it reads them. -/
theorem historyAt_stageRecords
    (h : stageRecords limits subjects schemas staged history = (.ok (), staged')) (id : KeyId) :
    historyAt staged'.keys id = historyAt staged.keys id ++ history.filter fun r => keyOf r = id := by
  induction history generalizing staged with
  | nil =>
    obtain ⟨-, rfl⟩ := Prod.mk.inj h
    simp
  | cons record rest ih =>
    unfold stageRecords at h
    split at h
    · simp at h
    · next next hn =>
      obtain ⟨-, -, -, rfl⟩ := Impl.stageRecord_eq_ok.mp hn
      rw [ih h, List.filter_cons]
      unfold historyAt
      rw [recordsAt_restoreRecord]
      by_cases he : keyOf record = id
      · simp [he, map_record_supersede]
      · simp [he]

/-- What the record loop stages depends on nothing but the records. -/
theorem stageRecords_unique
    (h : stageRecords limits subjects schemas staged history = (.ok (), staged'))
    (h' : stageRecords limits subjects' schemas' staged history = (.ok (), staged'')) :
    staged' = staged'' := by
  induction history generalizing staged with
  | nil =>
    obtain ⟨-, rfl⟩ := Prod.mk.inj h
    obtain ⟨-, rfl⟩ := Prod.mk.inj h'
    rfl
  | cons record rest ih =>
    unfold stageRecords at h h'
    split at h
    · simp at h
    · next next hn =>
      split at h'
      · simp at h'
      · next next' hn' =>
        obtain ⟨-, -, -, rfl⟩ := Impl.stageRecord_eq_ok.mp hn
        obtain ⟨-, -, -, rfl⟩ := Impl.stageRecord_eq_ok.mp hn'
        exact ih h h'

/-- The retained records in the order of their keys. -/
def keyedHistory (keys : Std.ExtTreeMap KeyId KeyState) : List CapabilityRecord :=
  keys.toList.flatMap fun e => e.2.records.map StoredRecord.record

/-- Every record is retained under its own key. -/
def KeyedRecords (keys : Std.ExtTreeMap KeyId KeyState) : Prop :=
  ∀ id, ∀ r ∈ historyAt keys id, keyOf r = id

theorem filter_flatMap_entries {entries : List (KeyId × KeyState)}
    {g : KeyId × KeyState → List CapabilityRecord}
    (h : ∀ e ∈ entries, ∀ r ∈ g e, keyOf r = e.1) (id : KeyId) :
    (entries.flatMap g).filter (fun r => keyOf r = id) =
      (entries.filter fun e => e.1 = id).flatMap g := by
  induction entries with
  | nil => rfl
  | cons e rest ih =>
    have hrest := ih fun e' he' => h e' (List.mem_cons_of_mem _ he')
    have hhead := h e List.mem_cons_self
    rw [List.flatMap_cons, List.filter_append, hrest, List.filter_cons]
    by_cases he : e.1 = id
    · have hall : (g e).filter (fun r => keyOf r = id) = g e :=
        List.filter_eq_self.mpr fun r hr => decide_eq_true ((hhead r hr).trans he)
      simp [he, hall]
    · have hnil : (g e).filter (fun r => keyOf r = id) = [] :=
        List.filter_eq_nil_iff.mpr fun r hr hd => he ((hhead r hr).symm.trans (of_decide_eq_true hd))
      simp [he, hnil]

theorem filter_keyedHistory (hk : KeyedRecords keys) (id : KeyId) :
    (keyedHistory keys).filter (fun r => keyOf r = id) = historyAt keys id := by
  have hentries : ∀ e ∈ keys.toList, ∀ r ∈ e.2.records.map StoredRecord.record, keyOf r = e.1 := by
    rintro ⟨id', key⟩ he r hr
    have hget : keys[id']? = some key := OrdMap.mem_toList.mp he
    refine hk id' r ?_
    rw [historyAt, recordsAt_of_some hget]
    exact hr
  rw [keyedHistory, filter_flatMap_entries hentries, OrdMap.filter_toList]
  cases hget : keys[id]? with
  | none =>
    rw [historyAt, recordsAt_of_none hget]
    rfl
  | some key =>
    rw [historyAt, recordsAt_of_some hget]
    simp

/-- The retained records are listed in the order of their keys. -/
theorem keyedHistory_sorted (hk : KeyedRecords keys) :
    (keyedHistory keys).Pairwise fun a b => compareOn keyOf a b ≠ .gt := by
  have hentries : ∀ e ∈ keys.toList, ∀ r ∈ e.2.records.map StoredRecord.record, keyOf r = e.1 := by
    rintro ⟨id', key⟩ he r hr
    have hget : keys[id']? = some key := OrdMap.mem_toList.mp he
    refine hk id' r ?_
    rw [historyAt, recordsAt_of_some hget]
    exact hr
  have hordered : keys.toList.Pairwise fun a b => compare a.1 b.1 = .lt :=
    Std.ExtTreeMap.ordered_keys_toList
  refine List.pairwise_flatMap.mpr ⟨fun e he => ?_, ?_⟩
  · refine List.pairwise_of_forall_mem_list fun a ha b hb => ?_
    have hself : compare e.1 e.1 = .eq := Std.ReflCmp.compare_self
    rw [compareOn, hentries e he a ha, hentries e he b hb, hself]
    simp
  · refine hordered.imp_of_mem fun {e e'} he he' hlt a ha b hb => ?_
    rw [compareOn, hentries e he a ha, hentries e' he' b hb, hlt]
    simp

theorem compare_keyOf_of_historyOrder {a b : CapabilityRecord} (h : historyOrder a b ≠ .gt) :
    compareOn keyOf a b ≠ .gt := by
  have hkey : compareOn keyOf a b =
      compareLex (compareOn CapabilityRecord.device) (compareOn CapabilityRecord.capability) a b := rfl
  rw [hkey]
  simp only [historyOrder, compareLex] at h ⊢
  cases hd : compareOn CapabilityRecord.device a b with
  | lt => simp
  | gt => simp [hd] at h
  | eq =>
    cases hc : compareOn CapabilityRecord.capability a b with
    | lt => simp
    | eq => simp
    | gt => simp [hd, hc] at h

/-- Restored from a sorted history, the keys list it again. -/
theorem keyedHistory_stageRecords (hs : history.Pairwise fun a b => historyOrder a b ≠ .gt)
    {serial : Nat}
    (h : stageRecords limits subjects schemas { nextSerial := serial } history = (.ok (), staged')) :
    keyedHistory staged'.keys = history := by
  have hat : ∀ id, historyAt staged'.keys id = history.filter fun r => keyOf r = id := by
    intro id
    rw [historyAt_stageRecords h id]
    simp [historyAt, recordsAt]
  have hk : KeyedRecords staged'.keys := by
    intro id r hr
    rw [hat id] at hr
    exact of_decide_eq_true (List.mem_filter.mp hr).2
  refine SortLib.eq_of_peers (keyedHistory_sorted hk)
    (hs.imp fun hab => compare_keyOf_of_historyOrder hab) fun a => ?_
  have hpeers : ∀ xs, SortLib.peers (compareOn keyOf) a xs = xs.filter fun r => keyOf r = keyOf a := by
    intro xs
    unfold SortLib.peers
    refine List.filter_congr fun r _ => ?_
    rw [Bool.eq_iff_iff, beq_iff_eq, decide_eq_true_eq, compareOn, Std.LawfulEqOrd.compare_eq_iff_eq]
    exact eq_comm
  rw [hpeers, hpeers, filter_keyedHistory hk, hat]

end History

section Publishers
variable {staged staged' : Publishers} {id : PublisherId} {boot : PublisherBootId}
  {watermarks fences : List PublisherWatermark} {w : PublisherWatermark}

/-- What a restart is to keep of a publisher. -/
structure PublisherHoldings where
  boot : PublisherBootId
  fencedBoots : Std.ExtTreeSet PublisherBootId
  maxEvidenceGeneration : EvidenceGeneration
  watermarks : PublisherBootId → Option EvidenceGeneration

def PublisherStateInternal.holdings (s : PublisherStateInternal) : PublisherHoldings :=
  { boot := s.record.identity.boot
    fencedBoots := s.fencedBoots
    maxEvidenceGeneration := s.record.maxEvidenceGeneration
    watermarks := fun boot => (s.watermarks[boot]?).map PublisherWatermark.maxEvidenceGeneration }

/-- What is left of the holdings after a restart: the current boot is fenced and keeps the only
watermark. -/
def PublisherHoldings.settled (h : PublisherHoldings) : PublisherHoldings :=
  { h with
    fencedBoots :=
      if h.boot.valid then h.fencedBoots.insert h.boot else h.fencedBoots.erase h.boot
    watermarks := fun boot => if boot = h.boot then some h.maxEvidenceGeneration else none }

theorem mem_settled_fencedBoots {h : PublisherHoldings} : boot ∈ h.settled.fencedBoots ↔
    (boot ∈ h.fencedBoots ∧ boot ≠ h.boot) ∨ (boot = h.boot ∧ boot.valid = true) := by
  by_cases hb : boot = h.boot
  · subst hb
    by_cases hv : h.boot.valid = true
    · simp [PublisherHoldings.settled, hv, Std.ExtTreeSet.mem_insert]
    · simp [PublisherHoldings.settled, hv, Std.ExtTreeSet.mem_erase]
  · by_cases hv : h.boot.valid = true
    · simp [PublisherHoldings.settled, hv, Std.ExtTreeSet.mem_insert, hb, Ne.symm hb]
    · simp [PublisherHoldings.settled, hv, Std.ExtTreeSet.mem_erase, hb, Ne.symm hb]

theorem PublisherHoldings.ext_of {h h' : PublisherHoldings} (hb : h'.boot = h.boot)
    (hf : ∀ boot, boot ∈ h'.fencedBoots ↔ boot ∈ h.fencedBoots)
    (hg : h'.maxEvidenceGeneration = h.maxEvidenceGeneration)
    (hw : ∀ boot, h'.watermarks boot = h.watermarks boot) : h' = h := by
  have hf : h'.fencedBoots = h.fencedBoots := Std.ExtTreeSet.ext_mem @fun boot => hf boot
  have hw : h'.watermarks = h.watermarks := funext hw
  obtain ⟨_, _, _, _⟩ := h
  obtain ⟨_, _, _, _⟩ := h'
  simp only at hb hf hg hw
  rw [hb, hf, hg, hw]

/-- A second restart finds nothing left to settle. -/
theorem PublisherHoldings.settled_settled (h : PublisherHoldings) : h.settled.settled = h.settled := by
  refine ext_of rfl (fun boot => ?_) rfl fun _ => rfl
  have hboot : h.settled.boot = h.boot := rfl
  rw [mem_settled_fencedBoots, mem_settled_fencedBoots, hboot]
  tauto

/-- The watermark a list holds for a boot of a publisher. -/
def watermarkOf (watermarks : List PublisherWatermark) (id : PublisherId) (boot : PublisherBootId) :
    Option PublisherWatermark :=
  watermarks.find? fun w => w.publisher = id ∧ w.boot = boot

theorem watermarks_publisherOfWatermark (s : PublisherStateInternal) (w : PublisherWatermark) :
    (publisherOfWatermark s w).watermarks = s.watermarks := by
  unfold publisherOfWatermark
  split <;> rfl

theorem watermarks_stageWatermark (h : stageWatermark staged w = .ok staged') (id : PublisherId)
    (boot : PublisherBootId) :
    ((staged'[id]?).getD {}).watermarks[boot]? =
      (((staged[id]?).getD {}).watermarks[boot]?).or
        (if w.publisher = id ∧ w.boot = boot then some w else none) := by
  simp only [stageWatermark, status_bind_eq_ok, pure, Except.pure, Except.ok.injEq] at h
  obtain ⟨-, -, rfl⟩ := h
  rw [OrdMap.getElem?_insert_eq]
  by_cases hid : w.publisher = id
  · subst hid
    simp only [if_true, Option.getD_some, watermarks_publisherOfWatermark,
      OrdMap.getElem?_insertIfNew_eq, true_and]
    by_cases hb : w.boot = boot
    · subst hb
      cases (((staged[w.publisher]?).getD {}).watermarks[w.boot]?) <;> simp
    · simp [hb]
  · simp [hid]

theorem watermarks_stageWatermarks (h : watermarks.foldlM stageWatermark staged = .ok staged')
    (id : PublisherId) (boot : PublisherBootId) :
    ((staged'[id]?).getD {}).watermarks[boot]? =
      (((staged[id]?).getD {}).watermarks[boot]?).or (watermarkOf watermarks id boot) := by
  induction watermarks generalizing staged with
  | nil =>
    obtain rfl := Except.ok.inj h
    simp [watermarkOf]
  | cons w rest ih =>
    rw [List.foldlM_cons, bind_eq_ok] at h
    obtain ⟨next, hn, hrest⟩ := h
    rw [ih hrest, watermarks_stageWatermark hn id boot, Option.or_assoc]
    unfold watermarkOf
    rw [List.find?_cons]
    by_cases hw : w.publisher = id ∧ w.boot = boot
    · simp [hw]
    · simp [hw]

theorem marks_fencedPublisher (s : PublisherStateInternal) (fenced : PublisherWatermark) :
    (fencedPublisher s fenced).watermarks = s.watermarks ∧
      (fencedPublisher s fenced).record.maxEvidenceGeneration = s.record.maxEvidenceGeneration := by
  unfold fencedPublisher
  dsimp only
  split <;> exact ⟨rfl, rfl⟩

/-- The fence loop leaves every watermark as it is. -/
theorem marks_stageFences (h : fences.foldlM stageFenced staged = .ok staged') (id : PublisherId) :
    ((staged'[id]?).getD {}).watermarks = ((staged[id]?).getD {}).watermarks ∧
      ((staged'[id]?).getD {}).record.maxEvidenceGeneration =
        ((staged[id]?).getD {}).record.maxEvidenceGeneration := by
  refine foldlM_invariant (P := fun staged' : Publishers =>
    ((staged'[id]?).getD {}).watermarks = ((staged[id]?).getD {}).watermarks ∧
      ((staged'[id]?).getD {}).record.maxEvidenceGeneration =
        ((staged[id]?).getD {}).record.maxEvidenceGeneration) ⟨rfl, rfl⟩
    (fun before f _ next hsame hf => ?_) h
  obtain ⟨-, rfl⟩ := stageFenced_eq_ok.mp hf
  rw [OrdMap.getElem?_insert_eq]
  by_cases hid : f.publisher = id
  · subst hid
    simp only [if_true, Option.getD_some]
    obtain ⟨hm, hg⟩ := marks_fencedPublisher ((before[f.publisher]?).getD {}) f
    exact ⟨hm.trans hsame.1, hg.trans hsame.2⟩
  · simpa only [hid, if_false] using hsame

end Publishers

namespace Impl
variable [StdLib] {limits : RegistryLimits} {r r' base : Impl} {now : Timestamp} {staged : Staged}
  {state : DurableState} {id : PublisherId} {boot : PublisherBootId} {s : PublisherStateInternal}

section Export

theorem mem_exported_watermarks {w : PublisherWatermark} :
    w ∈ (r.exportDurableState now).publisherWatermarks ↔
      ∃ id s, r.publishers[(id : PublisherId)]? = some s ∧ watermarkFor id s = w := by
  simp only [exportDurableState, exportContents, SortLib.mem_sortWith, List.mem_map, Prod.exists,
    OrdMap.mem_toList]

/-- An export lists the current boot of a publisher and no other one. -/
theorem watermarkOf_export (h : r.publishers[id]? = some s) (boot : PublisherBootId) :
    watermarkOf (r.exportDurableState now).publisherWatermarks id boot =
      if boot = s.record.identity.boot then some (watermarkFor id s) else none := by
  have hlisted : ∀ w ∈ (r.exportDurableState now).publisherWatermarks, w.publisher = id →
      w = watermarkFor id s := by
    intro w hw hid
    obtain ⟨id', s', hs', rfl⟩ := mem_exported_watermarks.mp hw
    obtain rfl : id' = id := hid
    obtain rfl := Option.some.inj (h.symm.trans hs')
    rfl
  unfold watermarkOf
  cases hf : (r.exportDurableState now).publisherWatermarks.find? fun w =>
      w.publisher = id ∧ w.boot = boot with
  | none =>
    rw [if_neg]
    rintro rfl
    have hmem : watermarkFor id s ∈ (r.exportDurableState now).publisherWatermarks :=
      mem_exported_watermarks.mpr ⟨id, s, h, rfl⟩
    exact List.find?_eq_none.mp hf _ hmem (by simp [watermarkFor])
  | some w =>
    have hw : w.publisher = id ∧ w.boot = boot := by simpa using List.find?_some hf
    obtain rfl := hlisted w (List.mem_of_find?_eq_some hf) hw.1
    have hboot : boot = s.record.identity.boot := hw.2.symm
    rw [if_pos hboot]

/-- What an export lists as fenced: every fenced boot but the current one, and the current one of a
fenced publisher. -/
theorem fencedIn_export_iff : FencedIn (r.exportDurableState now).fencedBoots id boot ↔
    ∃ s, r.publishers[id]? = some s ∧
      ((boot ∈ s.fencedBoots ∧ boot ≠ s.record.identity.boot) ∨
        (s.publisherFenced = true ∧ boot = s.record.identity.boot ∧ boot.valid = true)) := by
  simp only [FencedIn, exportDurableState, exportContents, SortLib.mem_sortWith, List.mem_flatMap,
    Prod.exists, OrdMap.mem_toList, fencedBootsFor, List.mem_append, List.mem_map, List.mem_filter,
    Std.ExtTreeSet.mem_toList]
  constructor
  · rintro ⟨f, ⟨id', s, hs, hf⟩, hid, hboot⟩
    rcases hf with ⟨b, ⟨hb, hne⟩, rfl⟩ | hf
    · obtain rfl : id' = id := hid
      obtain rfl : b = boot := hboot
      exact ⟨s, hs, .inl ⟨hb, by simpa using hne⟩⟩
    · split at hf
      · next hc =>
        obtain rfl := List.mem_singleton.mp hf
        obtain rfl : id' = id := hid
        obtain rfl : s.record.identity.boot = boot := hboot
        rw [Bool.and_eq_true] at hc
        exact ⟨s, hs, .inr ⟨hc.1, rfl, hc.2⟩⟩
      · cases hf
  · rintro ⟨s, hs, ⟨hb, hne⟩ | ⟨hf, rfl, hv⟩⟩
    · exact ⟨_, ⟨id, s, hs, .inl ⟨boot, ⟨hb, by simpa using hne⟩, rfl⟩⟩, rfl, rfl⟩
    · refine ⟨{ publisher := id, boot := s.record.identity.boot, state := .fenced
                reason := s.record.reason }, ⟨id, s, hs, .inr ?_⟩, rfl, rfl⟩
      rw [if_pos (by simp [hf, hv])]
      exact List.mem_cons_self

theorem firstWatermark_export_none (h : r.publishers[id]? = none) :
    firstWatermark (r.exportDurableState now).publisherWatermarks id = none := by
  refine List.find?_eq_none.mpr fun w hw hid => ?_
  obtain ⟨id', s, hs, rfl⟩ := mem_exported_watermarks.mp hw
  obtain rfl : id' = id := by simpa [watermarkFor] using hid
  rw [h] at hs
  cases hs

end Export

omit [StdLib] in
/-- The watermarks an import restores of a publisher. -/
theorem restored_marks (h : Imports base state staged)
    (hs : (base.commit state staged).publishers[id]? = some s) :
    (∀ boot, s.watermarks[boot]? = watermarkOf state.publisherWatermarks id boot) ∧
      ∀ w, firstWatermark state.publisherWatermarks id = some w →
        s.record.maxEvidenceGeneration = w.maxEvidenceGeneration := by
  obtain ⟨watermarked, hw, hf, -⟩ := stagePublishers_eq_ok h.publishers
  have hcommit : (base.commit state staged).publishers[id]? =
      (staged.publishers[id]?).map unrestoredPublisher := Std.ExtTreeMap.getElem?_map
  rw [hcommit] at hs
  obtain ⟨t, ht, rfl⟩ := Option.map_eq_some_iff.mp hs
  obtain ⟨hmarks, hgeneration⟩ := marks_stageFences hf id
  rw [ht, Option.getD_some] at hmarks hgeneration
  refine ⟨fun boot => ?_, fun w hfirst => ?_⟩
  · have hstaged := watermarks_stageWatermarks hw id boot
    have hwatermarks : (unrestoredPublisher t).watermarks = t.watermarks := rfl
    rw [hwatermarks, hmarks, hstaged]
    simp
  · obtain ⟨-, -, hsome⟩ := stageWatermarks_spec named_empty hw id
    obtain ⟨s', hs', hext⟩ := hsome (by simp) w hfirst
    have hkept : (unrestoredPublisher t).record.maxEvidenceGeneration =
        t.record.maxEvidenceGeneration := rfl
    rw [hkept, hgeneration, hs', Option.getD_some, hext.record]
    rfl

/-- A restart settles the holdings of every publisher. -/
theorem holdings_restored (h : Imports base (r.exportDurableState now) staged) (id : PublisherId) :
    ((base.commit (r.exportDurableState now) staged).publishers[id]?).map
        PublisherStateInternal.holdings =
      (r.publishers[id]?).map fun s => s.holdings.settled := by
  obtain ⟨hnone, hsome⟩ := restored_publisher h id
  cases hr : r.publishers[id]? with
  | none =>
    have hgone := hnone.mpr ⟨firstWatermark_export_none hr, fun boot hf => ?_⟩
    · rw [hgone]
      rfl
    · obtain ⟨s, hs, -⟩ := fencedIn_export_iff.mp hf
      rw [hr] at hs
      cases hs
  | some s =>
    cases hs' : (base.commit (r.exportDurableState now) staged).publishers[id]? with
    | none =>
      have hfirst := (hnone.mp hs').1
      rw [firstWatermark_export hr] at hfirst
      cases hfirst
    | some s' =>
      have hrestored := hsome s' hs'
      obtain ⟨hmarks, hgeneration⟩ := restored_marks h hs'
      have hboot : s'.record.identity.boot = s.record.identity.boot :=
        hrestored.boot.trans (restoredBoot_export hr)
      refine congrArg some (PublisherHoldings.ext_of hboot (fun boot => ?_)
        (hgeneration _ (firstWatermark_export hr)) fun boot => ?_)
      · refine (hrestored.fencedBoots boot).trans ?_
        rw [mem_settled_fencedBoots, restoredBoot_export hr, fencedIn_export_iff]
        simp only [hr, Option.some.injEq, exists_eq_left']
        change ((boot ∈ s.fencedBoots ∧ boot ≠ s.record.identity.boot) ∨ _) ∨ _ ↔
          (boot ∈ s.fencedBoots ∧ boot ≠ s.record.identity.boot) ∨ _
        constructor
        · rintro ((hb | ⟨-, hb⟩) | hb)
          · exact .inl hb
          · exact .inr hb
          · exact .inr hb
        · rintro (hb | hb)
          · exact .inl (.inl hb)
          · exact .inr hb
      · change (s'.watermarks[boot]?).map PublisherWatermark.maxEvidenceGeneration =
          if boot = s.record.identity.boot then some s.record.maxEvidenceGeneration else none
        rw [hmarks boot, watermarkOf_export hr]
        split <;> rfl

section Idempotence
variable {staged' : Staged} {now' : Timestamp}

/-- Two registries hold the same knowledge for good: everything but the lives of processes. -/
structure SameHoldings (r r' : Impl) : Prop where
  devices : r'.devices = r.devices
  platforms : r'.platforms = r.platforms
  schemas : r'.schemas = r.schemas
  capabilitySchemas : r'.capabilitySchemas = r.capabilitySchemas
  keys : r'.keys = r.keys
  quirks : r'.quirks = r.quirks
  compatibility : r'.compatibility = r.compatibility
  publishers : ∀ id : PublisherId, (r'.publishers[id]?).map PublisherStateInternal.holdings =
    (r.publishers[id]?).map PublisherStateInternal.holdings

omit [StdLib] in
theorem rebuilt_restoredDevice (subject : SubjectSnapshot) :
    rebuilt (restoredDevice subject) = restoredDevice subject := by
  unfold rebuilt restoredDevice
  by_cases hv : subject.platformGeneration.valid = true
  · simp [hv]
  · simp [hv]

/-- Restoring the export of a restored registry restores its devices as they are. -/
theorem devices_settled (h : Imports base state staged)
    (h' : Imports base ((base.commit state staged).exportDurableState now) staged') :
    staged'.subjects.devices = staged.subjects.devices := by
  have hrestored : ∀ (id : DeviceId) (device : DeviceState),
      staged.subjects.devices[id]? = some device →
        ∃ subject, subject.identity.id = id ∧ restoredDevice subject = device := by
    intro id device hd
    rcases (stageSubjects_spec h.subjects).mp hd with hd | ⟨subject, -, hid, hdev⟩
    · simp at hd
    · exact ⟨subject, hid, hdev⟩
  have hnamed : (base.commit state staged).DevicesNamed := by
    intro id device hd
    obtain ⟨subject, hid, rfl⟩ := hrestored id device hd
    exact hid
  apply Std.ExtTreeMap.ext_getElem?
  intro id
  have hrebuilt : staged'.subjects.devices[id]? = (staged.subjects.devices[id]?).map rebuilt :=
    imports_devices h' hnamed
  rw [hrebuilt]
  cases hd : staged.subjects.devices[id]? with
  | none => rfl
  | some device =>
    obtain ⟨subject, -, rfl⟩ := hrestored id device hd
    rw [Option.map_some, rebuilt_restoredDevice]

/-- The maps whose values carry their own keys are restored as they are. -/
theorem inventory_settled (h : Imports (Impl.fresh limits) state staged)
    (h' : Imports (Impl.fresh limits)
      (((Impl.fresh limits).commit state staged).exportDurableState now) staged') :
    staged'.platforms = staged.platforms ∧ staged'.schemas.schemas = staged.schemas.schemas ∧
      staged'.quirks = staged.quirks ∧ staged'.compatibility = staged.compatibility := by
  have hempty : ∀ {κ β : Type} [Ord κ] [Std.TransOrd κ] [Std.LawfulEqOrd κ] (key : β → κ)
      (k : κ) (v : β), (∅ : Std.ExtTreeMap κ β)[k]? = some v → key v = k := by
    intro κ β _ _ _ key k v hv
    simp at hv
  have hplatforms := foldlM_eq_ok (fun m => m) (fun _ _ _ => stagePlatform_enters) h.platforms
  have hplatforms' := foldlM_eq_ok (fun m => m) (fun _ _ _ => stagePlatform_enters) h'.platforms
  have hquirks := foldlM_eq_ok (fun m => m) (fun _ _ _ => stageQuirk_enters) h.quirks
  have hquirks' := foldlM_eq_ok (fun m => m) (fun _ _ _ => stageQuirk_enters) h'.quirks
  have hfacts := foldlM_eq_ok (fun m => m) (fun _ _ _ => stageCompatibility_enters) h.compatibility
  have hfacts' := foldlM_eq_ok (fun m => m) (fun _ _ _ => stageCompatibility_enters) h'.compatibility
  have hschemas := stageSchemas_enter h.schemas
  have hschemas' := stageSchemas_enter h'.schemas
  refine ⟨?_, ?_, ?_, ?_⟩
  · rw [hplatforms']
    refine OrdMap.enter_values (m := staged.platforms) ?_ (fun v => ?_) fun k v hv => ?_
    · rw [hplatforms]
      exact OrdMap.key_enter (hempty PlatformIdentity.id)
    · simp [exportDurableState, exportContents, OrdMap.mem_toList, commit, touch]
    · simp at hv
  · rw [hschemas']
    refine OrdMap.enter_values (m := staged.schemas.schemas) ?_ (fun v => ?_) fun k v hv => ?_
    · rw [hschemas]
      exact OrdMap.key_enter (OrdMap.key_enter (hempty CapabilitySchema.id))
    · simp [exportDurableState, exportContents, OrdMap.mem_toList, commit, touch]
    · rw [hschemas, OrdMap.getElem?_enter, hv, Option.some_or]
  · rw [hquirks']
    refine OrdMap.enter_values (m := staged.quirks) ?_ (fun v => ?_) fun k v hv => ?_
    · rw [hquirks]
      exact OrdMap.key_enter (hempty QuirkRecord.id)
    · simp [exportDurableState, exportContents, OrdMap.mem_toList, commit, touch]
    · simp at hv
  · rw [hfacts']
    refine OrdMap.enter_values (m := staged.compatibility) ?_ (fun v => ?_) fun k v hv => ?_
    · rw [hfacts]
      exact OrdMap.key_enter (hempty CompatibilityFact.id)
    · simp [exportDurableState, exportContents, OrdMap.mem_toList, commit, touch]
    · simp at hv

/-- A stable sort finds the history of a restored registry in order. -/
theorem history_settled (stable : SortLib.Stable historyOrder StdLib.sortHistory)
    (h : Imports base (r.exportDurableState now) staged)
    (h' : Imports base
      ((base.commit (r.exportDurableState now) staged).exportDurableState now') staged') :
    staged'.keys = staged.keys := by
  have hsorted := StdLib.sortHistory_sorted (keyedHistory r.keys)
  have hlisted : keyedHistory staged.keys.keys = StdLib.sortHistory (keyedHistory r.keys) :=
    keyedHistory_stageRecords hsorted h.records
  have hsame : StdLib.sortHistory (keyedHistory staged.keys.keys) =
      StdLib.sortHistory (keyedHistory r.keys) := by
    rw [hlisted]
    exact stable.eq_self (StdLib.sortHistory_sorted _) hsorted
  have hrecords : stageRecords base.limits staged'.subjects staged'.schemas
      { nextSerial := base.nextSerial } (StdLib.sortHistory (keyedHistory staged.keys.keys)) =
        (.ok (), staged'.keys) := h'.records
  rw [hsame] at hrecords
  exact (stageRecords_unique h.records hrecords).symm

omit [StdLib] in
/-- The bindings follow from the schemas. -/
theorem bindings_settled (h : Imports (Impl.fresh limits) state staged) {state' : DurableState}
    (h' : Imports (Impl.fresh limits) state' staged')
    (hs : staged'.schemas.schemas = staged.schemas.schemas) :
    staged'.schemas.capabilitySchemas = staged.schemas.capabilitySchemas := by
  have hbound := (stageSchemas_spec h.schemas (bound_fresh limits)).1
  have hbound' := (stageSchemas_spec h'.schemas (bound_fresh limits)).1
  apply Std.ExtTreeMap.ext_getElem?
  intro capability
  refine Option.ext fun id => ?_
  rw [hbound capability id, hbound' capability id, hs]

/-- The registry a restart leads to: a fresh one that imports the export of the old one. -/
def restarted (r : Impl) (limits : RegistryLimits) (now : Timestamp) :
    Except Error ImportReport × Impl :=
  (Impl.fresh limits).importDurableState (r.exportDurableState now)

theorem restarted_eq_ok (h : (r.restarted limits now).1.isOk = true) :
    ∃ staged, Imports (Impl.fresh limits) (r.exportDurableState now) staged ∧
      (r.restarted limits now).2 = (Impl.fresh limits).commit (r.exportDurableState now) staged := by
  cases hi : r.restarted limits now with
  | mk result restored =>
    cases result with
    | error e => simp [hi, Except.isOk, Except.toBool] at h
    | ok report =>
      obtain ⟨staged, him, -, rfl⟩ := importDurableState_eq_ok.mp hi
      exact ⟨staged, him, rfl⟩

/-- Whatever a restart leaves of a registry, a second restart leaves unchanged. -/
theorem restart_is_idempotent (stable : SortLib.Stable historyOrder StdLib.sortHistory)
    (first : (r.restarted limits now).1.isOk = true)
    (second : ((r.restarted limits now).2.restarted limits now').1.isOk = true) :
    SameHoldings (r.restarted limits now).2 ((r.restarted limits now).2.restarted limits now').2 := by
  obtain ⟨staged, h, he⟩ := restarted_eq_ok first
  obtain ⟨staged', h', he'⟩ := restarted_eq_ok second
  rw [he', he]
  rw [he] at h'
  obtain ⟨hplatforms, hschemas, hquirks, hfacts⟩ := inventory_settled h h'
  have hkeys := history_settled stable h h'
  refine ⟨devices_settled h h', hplatforms, hschemas, bindings_settled h h' hschemas,
    congrArg StagedKeys.keys hkeys, hquirks, hfacts, fun id => ?_⟩
  have hheld := holdings_restored h id
  have hsettled : ∀ x : Option PublisherStateInternal,
      (x.map PublisherStateInternal.holdings).map PublisherHoldings.settled =
        x.map fun s => s.holdings.settled := by
    intro x
    cases x <;> rfl
  rw [holdings_restored h' id, ← hsettled, hheld, ← hsettled, Option.map_map]
  cases r.publishers[id]? with
  | none => rfl
  | some s => exact congrArg some (PublisherHoldings.settled_settled s.holdings)

omit [StdLib] in
theorem restart_is_idempotent_evidence :
    letI := StdLib.reference
    let r := (Impl.fresh {}).run
      (Sample.setup ++ [.apply Sample.now (Sample.evidence 2 Sample.capability)])
    SameHoldings (r.restarted {} Sample.now).2
      ((r.restarted {} Sample.now).2.restarted {} Sample.now).2 := by
  let := StdLib.reference
  obtain ⟨hfirst, hsecond⟩ :
      let q := ((Impl.fresh {}).run (Sample.setup ++
        [.apply Sample.now (Sample.evidence 2 Sample.capability)])).restarted {} Sample.now
      q.1.isOk = true ∧ (q.2.restarted {} Sample.now).1.isOk = true := by
    rw [Impl.fresh_eq]
    decide +kernel
  exact restart_is_idempotent SortLib.sortWith_stable hfirst hsecond

omit [StdLib] in
/-- A file that was never written is not restored. -/
example : letI := StdLib.reference
    ((Impl.fresh {}).importDurableState {}).1.isOk = false := by
  decide +kernel

end Idempotence

end Impl

end CapabilityRegistry
