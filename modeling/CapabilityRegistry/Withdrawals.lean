import CapabilityRegistry.Acceptance

/-! Withdrawals: which records of a publisher's source class an accepted one retracts. -/
namespace CapabilityRegistry

namespace Impl
variable {r r' : Impl} {p : Publication} {limits : RegistryLimits}

/-- The record states something in the name of the publication's sender and source class. -/
def Speaks (p : Publication) (s : StoredRecord) : Prop :=
  s.record.source.publisher.id = p.publisher.id ∧
    s.record.source.sourceClass = p.capability.source.sourceClass

/-- Nothing the sender states through the source class about the key is current. -/
def Retracted (r : Impl) (p : Publication) : Prop :=
  ∀ s ∈ recordsAt r.keys (keyOf p.capability), Speaks p s → ¬ r.CurrentAt (keyOf p.capability) s

instance (p : Publication) (s : StoredRecord) : Decidable (Speaks p s) :=
  inferInstanceAs (Decidable (_ ∧ _))

instance (r : Impl) (p : Publication) : Decidable (r.Retracted p) :=
  inferInstanceAs (Decidable (∀ s ∈ _, Speaks p s → ¬ r.CurrentAt (keyOf p.capability) s))

/-- Whatever the sender states about the key and is current lies in the slot of the withdrawal, and
the withdrawal is not taken for a repetition of the last accepted sequence. -/
def Retractable (r : Impl) (p : Publication) : Prop :=
  ∀ s ∈ recordsAt r.keys (keyOf p.capability), Speaks p s → r.CurrentAt (keyOf p.capability) s →
    s.slot = sourceSlot p ∧
      ∀ publisher, r.publishers[p.publisher.id]? = some publisher →
        mark publisher p.publisher.boot < p.sequence

theorem current_of_currentAt {id : KeyId} {s : StoredRecord} (h : r.CurrentAt id s) :
    ∃ device, r.Current s device := by
  obtain ⟨device, -, hs⟩ := h
  exact ⟨device, currentStaleness_eq_none_iff.mp hs⟩

/-- A current record outside the slot of a new one is kept as it is. -/
theorem mem_of_thins {xs mid ys : List StoredRecord} {s t : StoredRecord}
    (hn : NewestUnmarked xs) (hthin : Thins xs mid)
    (hthin' : Thins (supersede t.slot mid ++ [t]) ys) (hs : s ∈ xs) (hp : s.persistent = .none)
    (hslot : s.slot ≠ t.slot) : s ∈ ys := by
  have hnew := (hn s hs).mp hp
  have hmid := hthin.newest s hs hnew
  have hkept : s ∈ supersede t.slot mid := by
    refine List.mem_map.mpr ⟨s, hmid, ?_⟩
    rw [if_neg hslot]
  refine hthin'.newest s (List.mem_append_left _ hkept) ?_
  rw [← Bool.not_eq_true, supersededIn_iff]
  rintro ⟨u, hu, hus, hlt⟩
  rcases List.mem_append.mp hu with hu | hu
  · have hsup : supersededIn (supersede t.slot mid) s = true := supersededIn_iff.mpr ⟨u, hu, hus, hlt⟩
    rw [supersededIn_supersede, hthin.superseded, hnew] at hsup
    cases hsup
  · obtain rfl := List.mem_singleton.mp hu
    exact hslot hus.symm

/-- What is unmarked after a record was stored is that record or lay outside its slot before. -/
theorem origin_of_thins {xs mid ys : List StoredRecord} {s t : StoredRecord}
    (hthin : Thins xs mid) (hthin' : Thins (supersede t.slot mid ++ [t]) ys) (hs : s ∈ ys)
    (hp : s.persistent = .none) : s = t ∨ (s ∈ xs ∧ s.slot ≠ t.slot) := by
  rcases List.mem_append.mp (hthin'.sublist.subset hs) with hm | hm
  · obtain ⟨u, hu, rfl⟩ := List.mem_map.mp hm
    by_cases he : u.slot = t.slot
    · rw [if_pos he] at hp
      have hraised : u.persistent = .none ∧ true = false :=
        (StalenessFlag.raise_eq_none_iff supersededByNewerEvidence_ne_none).mp hp
      cases hraised.2
    · rw [if_neg he]
      exact .inr ⟨hthin.sublist.subset hu, he⟩
  · exact .inl (List.mem_singleton.mp hm)

theorem alreadyRecorded_withdrawn {key : KeyState} {record : CapabilityRecord}
    (h : record.withdrawn = true) : alreadyRecorded key record = false := by
  unfold alreadyRecorded
  split
  · rfl
  · simp [h]

variable [StdLib]

/-- In every reachable registry an accepted withdrawal retracts exactly when everything it is to
retract lies in its own slot. -/
theorem withdrawal_retracts (h : Reachable limits r) (now : Timestamp)
    (hk : p.kind = .withdrawCapability)
    (hacc : (r.step (.apply now p)).1.accepted = true) :
    (r.after (.apply now p)).Retracted p ↔ r.Retractable p := by
  obtain ⟨ha, hslots⟩ := reachable_slotted h
  have hcap : p.kind.isCapability = true := by rw [hk]; rfl
  obtain ⟨hpub, hjudge⟩ := published ha hcap now hacc
  change Published r p (r.after (.apply now p)) at hpub
  change SameJudgement r (r.after (.apply now p)) at hjudge
  generalize r.after (.apply now p) = r' at hpub hjudge
  cases hpub with
  | duplicate publisher known spent keys =>
    simp only [Retracted, Retractable, keys, hjudge.currentAt]
    refine forall₂_congr fun s _ => forall₂_congr fun _ hc => iff_of_false (fun h => h) ?_
    rintro ⟨-, hlt⟩
    exact UInt64.lt_irrefl _ (spent ▸ hlt publisher known)
  | repeated q publisher record device key addressed authority beyond admitted known recorded =>
    have hw := prepare_withdrawn hcap addressed.prepared
    obtain ⟨value, -, rfl⟩ := (admitCapability_eq_ok admitted).value
    have hno : alreadyRecorded key (qualify { q.capability with value := value } device) = false :=
      alreadyRecorded_withdrawn (hw.trans (by rw [hk]; rfl))
    rw [hno] at recorded
    cases recorded
  | stored q publisher record device generation mid addressed authority beyond admitted fresh thins
      thins' =>
    have hw : q.capability.withdrawn = true :=
      (prepare_withdrawn hcap addressed.prepared).trans (by rw [hk]; rfl)
    have hslot := (prepare_target hcap addressed.prepared).2
    have hregistered := addressed.registered
    rw [(prepare_eq_ok addressed.prepared).publisher] at hregistered
    obtain ⟨t, htslot, htw, thins'⟩ : ∃ t : StoredRecord, t.slot = sourceSlot p ∧
        t.record.withdrawn = true ∧
        Thins (supersede t.slot mid ++ [t]) (recordsAt r'.keys (keyOf p.capability)) := by
      obtain ⟨value, -, rfl⟩ := (admitCapability_eq_ok admitted).value
      refine ⟨r.storedAs { q.capability with value := value } device generation, hslot, hw, ?_⟩
      rw [← hslot] at thins'
      exact thins'
    constructor
    · intro hret s hs hspeaks hcur
      obtain ⟨d, hd⟩ := current_of_currentAt hcur
      have hslot' : s.slot = sourceSlot p := by
        by_contra hne
        have hkept := mem_of_thins (hslots.newest _) thins thins' hs hd.persistent
          (fun he => hne (he.trans htslot))
        exact hret s hkept hspeaks (hjudge.currentAt.mpr hcur)
      refine ⟨hslot', fun known hknown => ?_⟩
      obtain rfl := Option.some.inj (hregistered.symm.trans hknown)
      exact beyond
    · intro hret s hs hspeaks hcur
      obtain ⟨d, hd⟩ := current_of_currentAt hcur
      rcases origin_of_thins thins thins' hs hd.persistent with rfl | ⟨hold, hne⟩
      · have hpresent := hd.present
        rw [htw] at hpresent
        cases hpresent
      · exact hne ((hret s hold hspeaks (hjudge.currentAt.mp hcur)).1.trans htslot.symm)

/-- A publisher states something and withdraws it. -/
def withdrawal (sequence : UInt64) (sender : PublisherIdentity) : Publication :=
  { kind := .withdrawCapability
    publisher := sender
    sequence
    capability := { Sample.capability with
      support := .unknown
      value := .none
      withdrawn := true } }

omit [StdLib] in
theorem withdrawal_retracts_probe :
    letI := StdLib.reference
    let r := (Impl.fresh {}).run (Sample.setup ++ [.apply Sample.now (Sample.evidence 2 Sample.capability)])
    (r.after (.apply Sample.now (withdrawal 3 Sample.publisher))).Retracted
        (withdrawal 3 Sample.publisher) ↔
      r.Retractable (withdrawal 3 Sample.publisher) := by
  let := StdLib.reference
  have hreach : Reachable {} ((Impl.fresh {}).run
      (Sample.setup ++ [.apply Sample.now (Sample.evidence 2 Sample.capability)])) := ⟨_, rfl⟩
  exact withdrawal_retracts hreach Sample.now rfl (by rw [Impl.fresh_eq]; decide +kernel)

/-- Curated knowledge published under one boot, and the boot that follows it. -/
def curatedThenRestarted : List Op :=
  Sample.setup ++
    [.apply Sample.now (Sample.evidence 2 { Sample.capability with
      source := { Sample.capability.source with
        sourceClass := .staticCuratedDatabase, provenance := .curatedStatic } }),
    Sample.registration]

/-- The withdrawal of that knowledge by the next boot. -/
def withdrawalOfNextBoot : Publication :=
  let withdrawal := withdrawal 1 { Sample.publisher with boot := ⟨2⟩ }
  { withdrawal with
    capability.source := { withdrawal.capability.source with
      sourceClass := .staticCuratedDatabase, provenance := .curatedStatic } }

omit [StdLib] in
/-- A withdrawal leaves what an earlier boot of the same publisher stated in force. -/
theorem withdrawal_misses_earlier_boot :
    letI := StdLib.reference
    ¬ ∀ (limits : RegistryLimits) (r : Impl) (now : Timestamp) (p : Publication),
      Reachable limits r → p.kind = .withdrawCapability →
      (r.step (.apply now p)).1.accepted = true → (r.after (.apply now p)).Retracted p := by
  let := StdLib.reference
  intro h
  obtain ⟨haccepted, hnot⟩ :
      let r := (Impl.fresh {}).run curatedThenRestarted
      (r.step (.apply Sample.now withdrawalOfNextBoot)).1.accepted = true ∧
        ¬ (r.after (.apply Sample.now withdrawalOfNextBoot)).Retracted withdrawalOfNextBoot := by
    rw [Impl.fresh_eq]
    decide +kernel
  exact hnot (h {} _ Sample.now withdrawalOfNextBoot ⟨_, rfl⟩ rfl haccepted)

end Impl

end CapabilityRegistry
