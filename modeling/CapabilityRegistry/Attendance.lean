import CapabilityRegistry.Registration

/-! Registered publishers and those who hold their boots. -/
namespace CapabilityRegistry

section Named
variable {staged staged' : Publishers} {fenced : PublisherWatermark}

theorem named_stageFenced (hn : Named staged) (h : stageFenced staged fenced = .ok staged') :
    Named staged' := by
  obtain ⟨⟨hv, -⟩, rfl⟩ := stageFenced_eq_ok.mp h
  intro id s hs
  rw [OrdMap.getElem?_insert_eq] at hs
  split at hs
  · next hid =>
    subst hid
    obtain rfl := Option.some.inj hs
    refine ⟨?_, hv⟩
    unfold fencedPublisher
    dsimp only
    split
    · next hk =>
      cases ht : staged[fenced.publisher]? with
      | none =>
        rw [ht] at hk
        cases hk
      | some t => exact (hn _ t ht).1
    · rfl
  · exact hn id s hs

theorem named_map (h : Named staged) {f : PublisherStateInternal → PublisherStateInternal}
    (hf : ∀ s, (f s).record.identity.id = s.record.identity.id) :
    Named (staged.map fun _ s => f s) := by
  intro id s hs
  have hs : (staged[id]?).map f = some s := Std.ExtTreeMap.getElem?_map.symm.trans hs
  obtain ⟨t, ht, rfl⟩ := Option.map_eq_some_iff.mp hs
  rw [hf]
  exact h id t ht

end Named

namespace Impl
variable {r r' : Impl} {id : PublisherId} {boot : PublisherBootId} {now : Timestamp}
  {publication q : Publication} {adapter reason : Text} {identity : PublisherIdentity}
  {publisher s : PublisherStateInternal} {held held' : PublisherId → PublisherBootId → Prop}

section Grants

/-- The boot a registration would be given, when it would be given one. -/
def grantedBoot (r : Impl) (identity : PublisherIdentity) (adapter : Text) :
    Option PublisherBootId :=
  if !identity.id.valid || adapter.isEmpty || !(adapter.length ≤ r.limits.maxMetadataBytes : Bool) then
    none
  else match r.publishers[identity.id]? with
  | none =>
    if r.publishers.size ≥ r.limits.maxPublishers || identity.boot.valid && identity.boot.value > 1
    then none else some .first
  | some state =>
    if state.publisherFenced then none
    else if !identity.boot.valid then
      some (if state.record.identity.boot.valid then state.record.identity.boot.next else .first)
    else if state.fencedBoots.contains identity.boot ||
        state.record.identity.boot != identity.boot then none
    else some identity.boot

theorem grantedBoot_of_accepted
    (h : (r.registerPublisherLocked now identity adapter).1.accepted = true) :
    r.grantedBoot identity adapter =
      some (r.registerPublisherLocked now identity adapter).1.assignedPublisher.boot := by
  unfold registerPublisherLocked grantedBoot at *
  split at h <;> rename_i hv
  · cases h
  split at h <;> rename_i ha
  · cases h
  simp only [hv, ha, Bool.false_eq_true, if_false, Bool.false_or]
  split at h
  · next hs =>
    split at h
    · cases h
    · next hroom =>
      split at h
      · cases h
      · next hboot => simp [hs, hroom, hboot, newPublisher]
  · next state hs =>
    split at h
    · cases h
    · next hf =>
      split at h
      · next hb => simp [hs, hf, hb, freshBoot]
      · next hb =>
        split at h
        · cases h
        · next hl =>
          split at h
          · cases h
          · next hi =>
            have hi : state.record.identity.boot = identity.boot := by simpa using hi
            simp [hs, hf, hb, hl, hi, reaffirm]

/-- A registration that is accepted reached a running registry. -/
theorem registerPublisher_of_accepted
    (h : (r.registerPublisher now identity adapter).1.accepted = true) :
    r.registerPublisher now identity adapter = r.registerPublisherLocked now identity adapter := by
  unfold registerPublisher at h ⊢
  split
  · next hs => simp [hs, applyCodeAccepted] at h
  · rfl

theorem registerPublisher_refused
    (h : (r.registerPublisher now identity adapter).1.accepted = false) :
    (r.registerPublisher now identity adapter).2 = r := by
  unfold registerPublisher at h ⊢
  split
  · rfl
  · next hs =>
    rw [if_neg hs] at h
    exact registerPublisherLocked_refused h

/-- A known publisher that names a boot is granted that boot if it is the current one and nothing
is fenced. -/
theorem grantedBoot_known (hs : r.publishers[identity.id]? = some s)
    (hv : identity.boot.valid = true) (h : r.grantedBoot identity adapter = some boot) :
    identity.boot = boot ∧ s.publisherFenced = false ∧ s.record.identity.boot = boot ∧
      boot ∉ s.fencedBoots := by
  simp only [grantedBoot, hs, hv] at h
  split at h
  · cases h
  · split at h
    · cases h
    · next hf =>
      split at h
      · next hn => cases hn
      · split at h
        · cases h
        · next hl =>
          obtain rfl := Option.some.inj h
          simp only [Bool.or_eq_true, not_or, Std.ExtTreeSet.contains_iff_mem, bne_iff_ne, ne_eq,
            Decidable.not_not] at hl
          exact ⟨rfl, by simpa using hf, hl.2, hl.1⟩

end Grants

section Standings

/-- Every publisher stands as it stood. -/
def SameStandings (r r' : Impl) : Prop :=
  ∀ id : PublisherId, Option.Rel SameStanding (r.publishers[id]?) (r'.publishers[id]?)

theorem SameStanding.refl (s : PublisherStateInternal) : SameStanding s s := ⟨rfl, rfl, rfl, rfl⟩

theorem sameStandings_of_eq (h : r'.publishers = r.publishers) : SameStandings r r' := by
  intro id
  rw [h]
  cases r.publishers[id]? with
  | none => exact .none
  | some s => exact .some (SameStanding.refl s)

theorem sameStandings_set (hs : r.publishers[id]? = some s) (h : SameStanding s publisher)
    (he : r'.publishers = (r.setPublisher id publisher).publishers) : SameStandings r r' := by
  intro id'
  rw [he, setPublisher_publishers]
  split
  · next hid =>
    subst hid
    rw [hs]
    exact .some h
  · exact sameStandings_of_eq rfl id'

theorem SameStandings.before (h : SameStandings r r') (hs : r'.publishers[id]? = some s) :
    ∃ t, r.publishers[id]? = some t ∧ SameStanding t s := by
  have hr := h id
  rw [hs] at hr
  generalize r.publishers[id]? = x at hr
  cases hr with
  | some hst => exact ⟨_, rfl, hst⟩

theorem SameStandings.later (h : SameStandings r r') (hs : r.publishers[id]? = some s) :
    ∃ t, r'.publishers[id]? = some t ∧ SameStanding s t := by
  have hr := h id
  rw [hs] at hr
  generalize r'.publishers[id]? = y at hr
  cases hr with
  | some hst => exact ⟨_, rfl, hst⟩

/-- A publication that registers no publisher leaves every publisher standing. -/
theorem sameStandings_apply [StdLib] (hk : ¬ (publication.kind = .registerPublisher ∧
    (r.applyLocked now publication).1.accepted = true)) :
    SameStandings r (r.applyLocked now publication).2 := by
  have h := ingested r now publication
  generalize r.applyLocked now publication = out at h hk
  cases h with
  | schema q running prepared kind =>
    unfold applySchema
    split
    · exact sameStandings_of_eq rfl
    · next bound hb =>
      obtain ⟨-, -, -, -, rfl⟩ := registerCapabilitySchemaLocked_eq_ok hb
      exact sameStandings_of_eq rfl
  | registration q running prepared kind =>
    have hr : (r.registerPublisherLocked now q.publisher q.reason).1.accepted = false :=
      Bool.eq_false_iff.mpr fun h => hk ⟨(prepare_eq_ok prepared).kind.symm.trans kind, h⟩
    simp only [applyRegistration, hr, registerPublisherLocked_refused hr]
    exact sameStandings_of_eq rfl
  | repeated q publisher result addressed authority verdict accepted =>
    exact sameStandings_set addressed.registered (sameStanding_setWatermark _ _) rfl
  | unsequenced q publisher result addressed authority verdict refused =>
    exact sameStandings_set addressed.registered (sameStanding_noteRejected _ _) rfl
  | handled q publisher addressed authority verdict =>
    obtain ⟨publisher', hs, hp⟩ := settle_publishers (r.applyPayload q).2 publisher
      (openWatermark publisher q.publisher) q (r.applyPayload q).1
    refine sameStandings_set addressed.registered hs (hp.trans ?_)
    simp only [setPublisher, (Impl.handled r q).sameAuthority.publishers]
  | _ => exact sameStandings_of_eq rfl

end Standings

section Attended

/-- Every registered publisher is attended by a holder of its boot, and what is held is the boot
of its publisher or dead. -/
structure Attended (r : Impl) (held : PublisherId → PublisherBootId → Prop) : Prop where
  named : Named r.publishers
  live : ∀ id s, r.publishers[id]? = some s → s.record.state = .registered →
    s.record.identity.boot ∉ s.fencedBoots ∧ held id s.record.identity.boot
  valid : ∀ id boot, held id boot → boot.valid = true
  held : ∀ id boot, held id boot → ∃ s, r.publishers[id]? = some s ∧
    (s.record.identity.boot = boot ∨ boot ∈ s.fencedBoots)

/-- What is dead can be let go. -/
theorem Attended.release (h : r.Attended held) (hle : ∀ id boot, held' id boot → held id boot)
    (hge : ∀ id boot, held id boot → held' id boot ∨ r.Dead id boot) : r.Attended held' where
  named := h.named
  live id s hs hr := by
    obtain ⟨hf, hh⟩ := h.live id s hs hr
    refine ⟨hf, (hge id _ hh).resolve_right ?_⟩
    rintro ⟨t, ht, hd⟩
    obtain rfl := Option.some.inj (hs.symm.trans ht)
    exact hf hd
  valid id boot hh := h.valid id boot (hle id boot hh)
  held id boot hh := h.held id boot (hle id boot hh)

theorem named_set (h : Named r.publishers) (hid : s.record.identity.id = id)
    (hv : id.valid = true) (he : r'.publishers = (r.setPublisher id s).publishers) :
    Named r'.publishers := by
  intro id' t ht
  rw [he, setPublisher_publishers] at ht
  split at ht
  · next hi =>
    subst hi
    obtain rfl := Option.some.inj ht
    exact ⟨hid, hv⟩
  · exact h id' t ht

theorem Attended.standings (h : r.Attended held) (hs : SameStandings r r') : r'.Attended held where
  named id s' hs' := by
    obtain ⟨s, hx, hst⟩ := hs.before hs'
    rw [hst.identity]
    exact h.named id s hx
  live id s' hs' hreg := by
    obtain ⟨s, hx, hst⟩ := hs.before hs'
    rw [hst.identity, hst.fencedBoots]
    exact h.live id s hx (hst.state.symm.trans hreg)
  valid := h.valid
  held id boot hh := by
    obtain ⟨s, hx, hc⟩ := h.held id boot hh
    obtain ⟨s', hs', hst⟩ := hs.later hx
    rw [← hst.identity, ← hst.fencedBoots] at hc
    exact ⟨s', hs', hc⟩

/-- One publisher is written: it is attended by the new holders, and what was held of it is dead
or its boot. -/
theorem Attended.set (h : r.Attended held)
    (he : r'.publishers = (r.setPublisher id s).publishers)
    (hid : s.record.identity.id = id) (hv : id.valid = true)
    (hle : ∀ id' boot, held' id' boot → held id' boot ∨ (id' = id ∧ s.record.identity.boot = boot ∧
      boot.valid = true))
    (hge : ∀ id' boot, held id' boot → held' id' boot ∨ r'.Dead id' boot)
    (hlive : s.record.state = .registered →
      s.record.identity.boot ∉ s.fencedBoots ∧ held' id s.record.identity.boot)
    (hheld : ∀ boot, held id boot → s.record.identity.boot = boot ∨ boot ∈ s.fencedBoots) :
    r'.Attended held' where
  named := named_set h.named hid hv he
  live id' t ht hreg := by
    have ht' := ht
    rw [he, setPublisher_publishers] at ht
    split at ht
    · next hi =>
      subst hi
      obtain rfl := Option.some.inj ht
      exact hlive hreg
    · obtain ⟨hf, hh⟩ := h.live id' t ht hreg
      refine ⟨hf, (hge id' _ hh).resolve_right ?_⟩
      rintro ⟨t', ht'', hd⟩
      obtain rfl := Option.some.inj (ht'.symm.trans ht'')
      exact hf hd
  valid id' boot hh := by
    rcases hle id' boot hh with hh | ⟨-, -, hb⟩
    · exact h.valid id' boot hh
    · exact hb
  held id' boot hh := by
    rw [he, setPublisher_publishers]
    split
    · next hi =>
      subst hi
      refine ⟨s, rfl, ?_⟩
      rcases hle id boot hh with hh | ⟨-, hb, -⟩
      · exact hheld boot hh
      · exact .inl hb
    · next hi =>
      rcases hle id' boot hh with hh | ⟨rfl, -, -⟩
      · exact h.held id' boot hh
      · exact absurd rfl hi

/-- What is held of a known publisher. -/
theorem Attended.current (h : r.Attended held) (hs : r.publishers[id]? = some s)
    (hh : held id boot) : s.record.identity.boot = boot ∨ boot ∈ s.fencedBoots := by
  obtain ⟨t, ht, hc⟩ := h.held id boot hh
  obtain rfl := Option.some.inj (hs.symm.trans ht)
  exact hc

theorem Attended.fence (h : r.Attended held) (id : PublisherId) (reason : Text) :
    (r.fencePublisher id reason).2.Attended held := by
  unfold fencePublisher
  split
  · exact h
  · next s hs =>
    split
    · exact h
    · obtain ⟨hid, hv⟩ := h.named id s hs
      refine h.set (s := fenceState reason s) rfl hid hv (fun _ _ hh => .inl hh)
        (fun _ _ hh => .inl hh) (fun hr => by cases hr) fun boot hh => ?_
      exact (h.current hs hh).imp_right mem_insert_if

/-- A boot that is held and retired is dead, and its publisher no longer registered under it. -/
theorem Attended.retire (h : r.Attended held) (hh : held id boot) (reason : Text) :
    (r.retirePublisherBoot id boot reason).2.Attended held ∧
      (r.retirePublisherBoot id boot reason).2.Dead id boot := by
  obtain ⟨s, hs, hc⟩ := h.held id boot hh
  have hb := h.valid id boot hh
  by_cases hf : boot ∈ s.fencedBoots
  · have he : (r.retirePublisherBoot id boot reason).2 = r := by
      simp [retirePublisherBoot, hs, hb, Std.ExtTreeSet.contains_iff_mem.mpr hf]
    rw [he]
    exact ⟨h, s, hs, hf⟩
  · have hcur := hc.resolve_right hf
    have he : (r.retirePublisherBoot id boot reason).2 =
        (r.setPublisher id (retireState boot reason s)).touch := by
      simp [retirePublisherBoot, hs, hb, hf]
    rw [he]
    obtain ⟨hid, hv⟩ := h.named id s hs
    refine ⟨?_, _, OrdMap.getElem?_insert_self _ _ _, Std.ExtTreeSet.mem_insert_self⟩
    refine h.set (s := retireState boot reason s) rfl ?_ hv (fun _ _ hh => .inl hh)
      (fun _ _ hh => .inl hh) (fun hr => ?_) fun b hb => ?_
    · simpa [retireState, hcur] using hid
    · simp [retireState, hcur] at hr
    · have hold := h.current hs hb
      simp only [retireState, hcur, if_true] at hold ⊢
      exact hold.imp_right fun hm => Std.ExtTreeSet.mem_insert.mpr (.inr hm)

theorem next_ne (boot : PublisherBootId) : boot.next ≠ boot := by
  intro h
  have hv : boot.value + 1 = boot.value := congrArg Gen.value h
  grind

/-- A registration that is given a boot in good order has the publisher attended by whoever takes
the boot. -/
theorem Attended.register (h : r.Attended held)
    (hacc : (r.registerPublisherLocked now identity adapter).1.accepted = true)
    (hboot : (r.registerPublisherLocked now identity adapter).1.assignedPublisher.boot = boot)
    (hv : boot.valid = true) (hd : ¬ r.Dead identity.id boot) :
    (r.registerPublisherLocked now identity adapter).2.Attended
        (fun id b => held id b ∨ (id = identity.id ∧ boot = b)) ∧
      (r.registerPublisherLocked now identity adapter).1.assignedPublisher.id = identity.id := by
  have hr := registers r now identity adapter
  generalize r.registerPublisherLocked now identity adapter = out at hr hacc hboot ⊢
  cases hr with
  | refused result refused => simp [refused] at hacc
  | first result valid bounded unknown room accepted assigned =>
    subst hboot
    simp only [assigned] at hv ⊢
    refine ⟨h.set rfl rfl valid ?_ (fun _ _ hh => .inl (.inl hh)) ?_ ?_, rfl⟩
    · rintro id b (hh | ⟨rfl, rfl⟩)
      · exact .inl hh
      · exact .inr ⟨rfl, rfl, hv⟩
    · exact fun _ => ⟨by simp [newPublisher], .inr ⟨rfl, rfl⟩⟩
    · intro b hh
      obtain ⟨s, hs, -⟩ := h.held _ b hh
      simp [hs] at unknown
  | fresh result state valid bounded known unfenced request accepted assigned =>
    subst hboot
    simp only [assigned] at hv hd ⊢
    obtain ⟨hid, -⟩ := h.named _ _ known
    refine ⟨h.set rfl hid valid ?_ (fun _ _ hh => .inl (.inl hh)) ?_ ?_, hid⟩
    · rintro id b (hh | ⟨rfl, rfl⟩)
      · exact .inl hh
      · exact .inr ⟨rfl, rfl, hv⟩
    · refine fun _ => ⟨fun hm => ?_, .inr ⟨rfl, rfl⟩⟩
      simp only [freshBoot] at hm hd
      split at hm
      · next hb =>
        simp only [hb, if_true] at hm hd
        rcases Std.ExtTreeSet.mem_insert.mp hm with he | hm
        · exact next_ne _ (Std.LawfulEqOrd.eq_of_compare he).symm
        · exact hd ⟨state, known, hm⟩
      · next hb =>
        simp only [hb] at hm hd
        exact hd ⟨state, known, hm⟩
    · intro b hh
      right
      have hb := h.valid _ b hh
      rcases h.current known hh with rfl | hm
      · simp only [freshBoot, hb, if_true]
        exact Std.ExtTreeSet.mem_insert_self
      · exact mem_insert_if hm
  | reaffirmed result state valid bounded known unfenced request live hb accepted assigned =>
    subst hboot
    simp only [assigned] at hv hd ⊢
    obtain ⟨hid, -⟩ := h.named _ _ known
    refine ⟨h.set rfl hid valid ?_ (fun _ _ hh => .inl (.inl hh)) ?_ ?_, hid⟩
    · rintro id b (hh | ⟨rfl, rfl⟩)
      · exact .inl hh
      · exact .inr ⟨rfl, rfl, hv⟩
    · refine fun _ => ⟨?_, .inr ⟨rfl, rfl⟩⟩
      exact hb.symm ▸ live
    · exact fun b hh => (h.current known hh : state.record.identity.boot = b ∨ _)

theorem named_commit {state : DurableState} {staged : Staged} (h : Imports r state staged) :
    Named (r.commit state staged).publishers := by
  obtain ⟨watermarked, hw, hf, -⟩ := stagePublishers_eq_ok h.publishers
  have hn : Named watermarked := foldlM_invariant named_empty (fun _ _ _ _ => named_stageWatermark) hw
  exact named_map (foldlM_invariant hn (fun _ _ _ _ => named_stageFenced) hf) fun _ => rfl

/-- After a reset of liveness nobody is registered, so nobody has to attend. -/
theorem attended_reset (h : Named r.publishers) (reason : Text) :
    (r.resetPublisherLiveness reason).Attended fun _ _ => False where
  named := named_map h fun s => by
    unfold resetState
    split <;> rfl
  live id s hs hr := by
    have hs : (r.publishers[id]?).map (resetState reason) = some s :=
      Std.ExtTreeMap.getElem?_map.symm.trans hs
    obtain ⟨t, -, rfl⟩ := Option.map_eq_some_iff.mp hs
    unfold resetState at hr
    split at hr
    · cases hr
    · next hn => exact absurd hr hn
  valid _ _ hh := hh.elim
  held _ _ hh := hh.elim

end Attended

end Impl

end CapabilityRegistry
