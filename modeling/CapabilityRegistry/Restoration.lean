import CapabilityRegistry.Authority

/-! What an import restores of every publisher. -/
namespace CapabilityRegistry

section Watermarks
variable {staged staged' : Publishers} {id : PublisherId} {watermark fenced : PublisherWatermark}
  {watermarks fences : List PublisherWatermark} {s s' : PublisherStateInternal}

/-- The first watermark a file lists for a publisher: the one its record is restored from. -/
def firstWatermark (watermarks : List PublisherWatermark) (id : PublisherId) :
    Option PublisherWatermark :=
  watermarks.find? fun watermark => watermark.publisher == id

/-- A staged publisher that only gained watermarks. -/
structure Extends (s s' : PublisherStateInternal) : Prop where
  record : s'.record = s.record
  fencedBoots : s'.fencedBoots = s.fencedBoots
  publisherFenced : s'.publisherFenced = s.publisherFenced

theorem Extends.refl (s : PublisherStateInternal) : Extends s s := ⟨rfl, rfl, rfl⟩

theorem Extends.trans {t : PublisherStateInternal} (h : Extends s s') (h' : Extends s' t) :
    Extends s t :=
  ⟨h'.record.trans h.record, h'.fencedBoots.trans h.fencedBoots,
    h'.publisherFenced.trans h.publisherFenced⟩

theorem stageWatermark_eq_ok (h : stageWatermark staged watermark = .ok staged') :
    watermark.publisher.valid = true ∧
      ∃ s', Extends (publisherOfWatermark ((staged[watermark.publisher]?).getD {}) watermark) s' ∧
        staged' = staged.insert watermark.publisher s' := by
  simp only [stageWatermark, status_bind_eq_ok, require_eq_ok, pure, Except.pure,
    Except.ok.injEq] at h
  obtain ⟨hv, -, rfl⟩ := h
  refine ⟨hv, _, ?_, rfl⟩
  constructor <;> rfl

/-- Staged publishers are entered under their own identity. -/
def Named (staged : Publishers) : Prop :=
  ∀ (id : PublisherId) (s : PublisherStateInternal), staged[id]? = some s →
    s.record.identity.id = id ∧ id.valid = true

theorem publisherOfWatermark_of_valid (h : s.record.identity.id.valid = true) :
    publisherOfWatermark s watermark = s := by
  simp [publisherOfWatermark, h]

theorem publisherOfWatermark_id (hw : watermark.publisher = id)
    (hs : s.record.identity.id = id ∨ s.record.identity.id.valid = false) :
    (publisherOfWatermark s watermark).record.identity.id = id := by
  unfold publisherOfWatermark
  split
  · next hv =>
    rcases hs with hs | hs
    · exact hs
    · rw [hs] at hv
      cases hv
  · exact hw

theorem named_stageWatermark (hn : Named staged) (h : stageWatermark staged watermark = .ok staged') :
    Named staged' := by
  obtain ⟨hv, s', he, rfl⟩ := stageWatermark_eq_ok h
  intro id s hs
  rw [OrdMap.getElem?_insert_eq] at hs
  split at hs
  · next hid =>
    obtain rfl := Option.some.inj hs
    subst hid
    refine ⟨?_, hv⟩
    rw [he.record]
    apply publisherOfWatermark_id rfl
    cases hk : staged[watermark.publisher]? with
    | none => exact Or.inr rfl
    | some t => exact Or.inl (hn _ t hk).1
  · exact hn id s hs

/-- What the watermark loop leaves of one publisher. -/
theorem stageWatermarks_spec (hn : Named staged)
    (h : watermarks.foldlM stageWatermark staged = .ok staged') (id : PublisherId) :
    (∀ s, staged[id]? = some s → ∃ s', staged'[id]? = some s' ∧ Extends s s') ∧
    (staged[id]? = none → firstWatermark watermarks id = none → staged'[id]? = none) ∧
    (staged[id]? = none → ∀ w, firstWatermark watermarks id = some w →
      ∃ s', staged'[id]? = some s' ∧ Extends (publisherOfWatermark {} w) s') := by
  induction watermarks generalizing staged with
  | nil =>
    obtain rfl := Except.ok.inj h
    exact ⟨fun s hs => ⟨s, hs, Extends.refl s⟩, fun hs _ => hs, fun _ w hw => by cases hw⟩
  | cons w ws ih =>
    rw [List.foldlM_cons, bind_eq_ok] at h
    obtain ⟨next, hw, hrest⟩ := h
    obtain ⟨h1, h2, h3⟩ := ih (named_stageWatermark hn hw) hrest
    obtain ⟨hv, t, ht, rfl⟩ := stageWatermark_eq_ok hw
    simp only [OrdMap.getElem?_insert_eq] at h1 h2 h3
    by_cases hid : w.publisher = id
    · subst hid
      simp only [if_true, Option.some.injEq, forall_eq', reduceCtorEq, false_implies] at h1 h2 h3
      obtain ⟨s', hs', hext⟩ := h1
      refine ⟨fun s hs => ⟨s', hs', ?_⟩, fun _ hf => ?_, fun hs w' hw' => ⟨s', hs', ?_⟩⟩
      · rw [hs, Option.getD_some, publisherOfWatermark_of_valid] at ht
        · exact ht.trans hext
        · rw [(hn _ s hs).1]
          exact hv
      · simp [firstWatermark] at hf
      · simp only [firstWatermark, List.find?_cons, beq_self_eq_true, Option.some.injEq] at hw'
        subst hw'
        rw [hs] at ht
        exact ht.trans hext
    · simp only [hid, if_false] at h1 h2 h3
      have hf : firstWatermark (w :: ws) id = firstWatermark ws id := by
        simp [firstWatermark, hid]
      rw [hf]
      exact ⟨h1, h2, h3⟩

/-- The publisher a fenced boot is entered under. -/
def fencedPublisher (s : PublisherStateInternal) (fenced : PublisherWatermark) :
    PublisherStateInternal :=
  let s := if s.record.identity.id.valid then s
    else { s with record.identity.id := fenced.publisher }
  { s with fencedBoots := s.fencedBoots.insert fenced.boot }

theorem stageFenced_eq_ok : stageFenced staged fenced = .ok staged' ↔
    (fenced.publisher.valid = true ∧ fenced.boot.valid = true) ∧
      staged' = staged.insert fenced.publisher
        (fencedPublisher ((staged[fenced.publisher]?).getD {}) fenced) := by
  simp only [stageFenced, status_bind_eq_ok, require_eq_ok, pure, Except.pure, Except.ok.injEq,
    Bool.and_eq_true, fencedPublisher, @eq_comm _ staged']

/-- What a publisher keeps of its record while fenced boots are added to it. -/
structure SameRecord (s s' : PublisherStateInternal) : Prop where
  boot : s'.record.identity.boot = s.record.identity.boot
  publisherFenced : s'.publisherFenced = s.publisherFenced
  epoch : s'.record.identity.epoch = s.record.identity.epoch

theorem sameRecord_fencedPublisher (s : PublisherStateInternal) (fenced : PublisherWatermark) :
    SameRecord s (fencedPublisher s fenced) := by
  unfold fencedPublisher
  dsimp only
  split <;> exact ⟨rfl, rfl, rfl⟩

theorem mem_fencedPublisher {boot : PublisherBootId} :
    boot ∈ (fencedPublisher s fenced).fencedBoots ↔ fenced.boot = boot ∨ boot ∈ s.fencedBoots := by
  have hb : (fencedPublisher s fenced).fencedBoots = s.fencedBoots.insert fenced.boot := by
    unfold fencedPublisher
    dsimp only
    split <;> rfl
  rw [hb]
  simp [Std.ExtTreeSet.mem_insert]

/-- A boot is listed as fenced for a publisher. -/
def FencedIn (fences : List PublisherWatermark) (id : PublisherId) (boot : PublisherBootId) : Prop :=
  ∃ f ∈ fences, f.publisher = id ∧ f.boot = boot

theorem fencedIn_cons {boot : PublisherBootId} : FencedIn (fenced :: fences) id boot ↔
    (fenced.publisher = id ∧ fenced.boot = boot) ∨ FencedIn fences id boot := by
  simp [FencedIn]

/-- What the fence loop leaves of one publisher. -/
theorem stageFences_spec (h : fences.foldlM stageFenced staged = .ok staged') (id : PublisherId) :
    (staged'[id]? = none ↔ staged[id]? = none ∧ ∀ boot, ¬ FencedIn fences id boot) ∧
    ∀ s', staged'[id]? = some s' →
      SameRecord ((staged[id]?).getD {}) s' ∧
      ∀ boot, boot ∈ s'.fencedBoots ↔
        FencedIn fences id boot ∨ boot ∈ ((staged[id]?).getD {}).fencedBoots := by
  induction fences generalizing staged with
  | nil =>
    obtain rfl := Except.ok.inj h
    have hn : ∀ boot, ¬ FencedIn [] id boot := by simp [FencedIn]
    refine ⟨⟨fun hs => ⟨hs, hn⟩, And.left⟩, fun s' hs => ?_⟩
    rw [hs]
    exact ⟨⟨rfl, rfl, rfl⟩, fun boot => by simp [hn boot]⟩
  | cons f fs ih =>
    rw [List.foldlM_cons, bind_eq_ok] at h
    obtain ⟨next, hf, hrest⟩ := h
    obtain ⟨-, rfl⟩ := stageFenced_eq_ok.mp hf
    obtain ⟨h1, h2⟩ := ih hrest
    simp only [OrdMap.getElem?_insert_eq] at h1 h2
    simp only [fencedIn_cons]
    by_cases hid : f.publisher = id
    · subst hid
      simp only [if_true, reduceCtorEq, false_and, iff_false, Option.getD_some] at h1 h2
      refine ⟨⟨fun hn => (h1 hn).elim, fun hn => (hn.2 f.boot (.inl ⟨rfl, rfl⟩)).elim⟩, ?_⟩
      intro s' hs'
      obtain ⟨hsame, hmem⟩ := h2 s' hs'
      have hr := sameRecord_fencedPublisher ((staged[f.publisher]?).getD {}) f
      refine ⟨⟨hsame.boot.trans hr.boot, hsame.publisherFenced.trans hr.publisherFenced,
        hsame.epoch.trans hr.epoch⟩, fun boot => ?_⟩
      rw [hmem boot, mem_fencedPublisher]
      simp only [true_and]
      tauto
    · simp only [hid, if_false] at h1 h2
      simp only [hid, false_and, false_or]
      exact ⟨h1, h2⟩

end Watermarks

namespace Impl
variable {r r' : Impl} {state : DurableState} {staged : Staged} {id : PublisherId}
  {s : PublisherStateInternal}

/-- The boot a file restores for a publisher: that of its first watermark. -/
def restoredBoot (state : DurableState) (id : PublisherId) : PublisherBootId :=
  ((firstWatermark state.publisherWatermarks id).map PublisherWatermark.boot).getD default

/-- What an import restores of a publisher. -/
structure Restored (state : DurableState) (id : PublisherId) (s : PublisherStateInternal) : Prop where
  boot : s.record.identity.boot = restoredBoot state id
  dead : s.record.state = .dead
  unfenced : s.publisherFenced = false
  fencedBoots : ∀ boot, boot ∈ s.fencedBoots ↔ FencedIn state.fencedBoots id boot ∨
    (boot = restoredBoot state id ∧ boot.valid = true)

theorem named_empty : Named ∅ := by
  intro id s hs
  simp at hs

theorem publisherOfWatermark_empty (w : PublisherWatermark) :
    (publisherOfWatermark {} w).record.identity.boot = w.boot ∧
      (publisherOfWatermark {} w).publisherFenced = false ∧
      (publisherOfWatermark {} w).fencedBoots = ∅ := ⟨rfl, rfl, rfl⟩

theorem stagePublishers_eq_ok {publishers : Publishers} (h : r.stagePublishers state = .ok publishers) :
    ∃ watermarked, state.publisherWatermarks.foldlM stageWatermark ∅ = .ok watermarked ∧
      state.fencedBoots.foldlM stageFenced watermarked = .ok publishers ∧
      publishers.size ≤ r.limits.maxPublishers := by
  simp only [stagePublishers, bind_eq_ok, require_eq_ok, exists_const, pure, Except.pure,
    Except.ok.injEq, decide_eq_true_eq] at h
  obtain ⟨watermarked, hw, fenced, hf, hs, rfl⟩ := h
  exact ⟨watermarked, hw, hf, hs⟩

/-- An import restores a publisher exactly when the file names it. -/
theorem restored_publisher (h : Imports r state staged) (id : PublisherId) :
    ((r.commit state staged).publishers[id]? = none ↔
      firstWatermark state.publisherWatermarks id = none ∧
        ∀ boot, ¬ FencedIn state.fencedBoots id boot) ∧
    ∀ s, (r.commit state staged).publishers[id]? = some s → Restored state id s := by
  obtain ⟨watermarked, hw, hf, -⟩ := stagePublishers_eq_ok h.publishers
  obtain ⟨-, hnone, hsome⟩ := stageWatermarks_spec named_empty hw id
  obtain ⟨hiff, hs⟩ := stageFences_spec hf id
  have hempty : (∅ : Publishers)[id]? = none := by simp
  have hcommit : (r.commit state staged).publishers[id]? =
      (staged.publishers[id]?).map unrestoredPublisher := Std.ExtTreeMap.getElem?_map
  -- what the watermark loop staged for this publisher
  have hbase : (watermarked[id]? = none ↔ firstWatermark state.publisherWatermarks id = none) ∧
      ((watermarked[id]?).getD {}).record.identity.boot = restoredBoot state id ∧
      ((watermarked[id]?).getD {}).publisherFenced = false ∧
      ((watermarked[id]?).getD {}).fencedBoots = ∅ := by
    cases hfw : firstWatermark state.publisherWatermarks id with
    | none =>
      have hn := hnone hempty hfw
      rw [hn]
      exact ⟨by simp, by simp [restoredBoot, hfw], rfl, rfl⟩
    | some w =>
      obtain ⟨s', hs', hext⟩ := hsome hempty w hfw
      obtain ⟨hb, hp, hfb⟩ := publisherOfWatermark_empty w
      rw [hs']
      refine ⟨by simp, ?_, hext.publisherFenced.trans hp, hext.fencedBoots.trans hfb⟩
      rw [Option.getD_some, hext.record, hb]
      simp [restoredBoot, hfw]
  obtain ⟨hwn, hboot, hpf, hfb⟩ := hbase
  rw [hcommit]
  refine ⟨?_, fun s hm => ?_⟩
  · rw [Option.map_eq_none_iff, hiff, hwn]
  · obtain ⟨t, ht, rfl⟩ := Option.map_eq_some_iff.mp hm
    obtain ⟨hsame, hmem⟩ := hs t ht
    refine ⟨hsame.boot.trans hboot, rfl, hsame.publisherFenced.trans hpf, fun boot => ?_⟩
    have htb : t.record.identity.boot = restoredBoot state id := hsame.boot.trans hboot
    have hunr : (unrestoredPublisher t).fencedBoots = if (restoredBoot state id).valid then
        t.fencedBoots.insert (restoredBoot state id) else t.fencedBoots := by
      unfold unrestoredPublisher
      rw [htb]
    rw [hunr]
    have hm' := hmem boot
    rw [hfb] at hm'
    simp only [Std.ExtTreeSet.not_mem_empty, or_false] at hm'
    by_cases hv : (restoredBoot state id).valid = true
    · rw [if_pos hv, Std.ExtTreeSet.mem_insert, hm']
      simp only [Std.LawfulEqCmp.compare_eq_iff_eq]
      constructor
      · rintro (rfl | hb)
        · exact .inr ⟨rfl, hv⟩
        · exact .inl hb
      · rintro (hb | ⟨rfl, -⟩)
        · exact .inr hb
        · exact .inl rfl
    · rw [if_neg hv, hm']
      constructor
      · exact .inl
      · rintro (hb | ⟨rfl, hb⟩)
        · exact hb
        · exact (hv hb).elim

end Impl

end CapabilityRegistry
