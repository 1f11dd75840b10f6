import CapabilityRegistry.Operations

/-! When a resolved capability or a subject is presented as real. -/
namespace CapabilityRegistry

/-- The provenance is neither synthetic nor unknown. -/
def genuine : ProvenanceClass → Bool
  | .synthetic | .unknownSource => false
  | _ => true

/-- The implementation's sort leaves no stale view ahead of a current one. -/
def CurrentFirst [StdLib] : Prop :=
  ∀ views, (StdLib.sortEvidence views).Pairwise fun a b =>
    isStale a.staleness = true → isStale b.staleness = true

namespace Impl
variable {r : Impl} {device : DeviceState} {capability : CapabilityId} {pinned : DeviceGeneration}
  {environment : EnvironmentContext} {key : KeyState} {s first : StoredRecord}
  {rest : List StoredRecord} {target : DeviceGeneration} {targetIsCurrent : Bool}

/-- Some retained record of the key that is not withdrawn has genuine provenance. -/
def Genuine (r : Impl) (device : DeviceState) (capability : CapabilityId) : Prop :=
  ∃ s ∈ recordsAt r.keys ⟨device.identity.id, capability⟩,
    s.record.withdrawn = false ∧ genuine s.record.source.provenance = true

instance : Decidable (r.Genuine device capability) :=
  inferInstanceAs (Decidable (∃ s ∈ recordsAt r.keys _, _ ∧ _))

/-- The key has had evidence, and none of its records is current at the target generation. -/
def Unobserved (r : Impl) (device : DeviceState) (capability : CapabilityId)
    (pinned : DeviceGeneration) : Prop :=
  ∃ key ∈ r.keys[KeyId.mk device.identity.id capability]?, key.hasEvidence = true ∧
    ∀ s ∈ key.records, r.computeStaleness s device
      (if pinned.valid then pinned else device.generation)
      ((if pinned.valid then pinned else device.generation) == device.generation) ≠ .none

theorem unmarked_of_current (h : r.computeStaleness s device target targetIsCurrent = .none) :
    s.persistent = .none ∧ s.record.withdrawn = false := by
  have h1 : StalenessFlag.withdrawn ≠ .none := by decide
  have h2 : StalenessFlag.deviceGenerationSuperseded ≠ .none := by decide
  have hraise : ∀ flags flag : StalenessFlag, ∀ c : Bool, flags.raise c flag = .none →
      flags = .none := by
    intro flags flag c hr
    cases c with
    | false => exact hr
    | true =>
      obtain ⟨f⟩ := flags
      simp only [StalenessFlag.raise, if_true, StalenessFlag.none, StalenessFlag.mk.injEq,
        UInt32.or_eq_zero_iff] at hr ⊢
      exact hr.1
  unfold computeStaleness at h
  have hflags : ((s.persistent.raise s.record.withdrawn .withdrawn).raise
      (s.record.deviceGeneration != target) .deviceGenerationSuperseded).raise
      (!targetIsCurrent) .deviceGenerationSuperseded = .none := by
    cases targetIsCurrent with
    | false => exact h
    | true =>
      simp only [if_true, currentAxisFlags] at h
      iterate 7 replace h := hraise _ _ _ h
      exact h
  have hw := hraise _ _ _ (hraise _ _ _ hflags)
  exact (StalenessFlag.raise_eq_none_iff h1).mp hw

theorem present_of_current (h : r.computeStaleness s device target targetIsCurrent = .none) :
    s.record.withdrawn = false := (unmarked_of_current h).2

theorem selectWinner_mem (first : StoredRecord) (rest : List StoredRecord) :
    selectWinner first rest ∈ first :: rest := by
  unfold selectWinner
  induction rest generalizing first with
  | nil => exact List.mem_cons_self
  | cons candidate rest ih =>
    rw [List.foldl_cons]
    rcases List.mem_cons.mp (ih (if authorityOrder candidate.record first.record == .lt then candidate
      else first)) with h | h
    · rw [h]
      split
      · exact List.mem_cons_of_mem _ List.mem_cons_self
      · exact List.mem_cons_self
    · exact List.mem_cons_of_mem _ (List.mem_cons_of_mem _ h)

theorem classifyTruth_real {declared : SupportState} {effective : EffectiveSupport}
    {evidence : List EvidenceView} (h : classifyTruth declared effective evidence = .real) :
    ∃ view, evidence.find? EvidenceView.winner = some view ∧
      genuine view.source.provenance = true := by
  unfold classifyTruth at h
  split at h
  · cases h
  · split at h
    · cases h
    · split at h
      · cases h
      · next view hv =>
        refine ⟨view, hv, ?_⟩
        unfold genuine
        split at h <;> simp_all

/-- The first view marked as the winner is current when a current one is marked. -/
theorem winner_current {evidence : List EvidenceView} {view marked : EvidenceView}
    (hsorted : evidence.Pairwise fun a b => isStale a.staleness = true → isStale b.staleness = true)
    (hfind : evidence.find? EvidenceView.winner = some view) (hm : marked ∈ evidence)
    (hw : marked.winner = true) (hc : isStale marked.staleness = false) :
    isStale view.staleness = false := by
  obtain ⟨-, before, after, rfl, hbefore⟩ := List.find?_eq_some_iff_append.mp hfind
  by_contra hstale
  have hstale : isStale view.staleness = true := Bool.eq_true_of_not_eq_false hstale
  rcases List.mem_append.mp hm with hm | hm
  · have hnot := hbefore marked hm
    rw [hw] at hnot
    cases hnot
  · rcases List.mem_cons.mp hm with rfl | hm
    · rw [hc] at hstale
      cases hstale
    · have hp := List.rel_of_pairwise_cons (List.pairwise_append.mp hsorted).2.1 hm hstale
      rw [hc] at hp
      cases hp

variable [StdLib]

/-- A key with current evidence is only real on genuine current evidence. -/
theorem genuine_of_resolveCurrent (hsort : CurrentFirst) {base : ResolvedCapability}
    (hcur : ((r.flagged key device target targetIsCurrent).filter fun e => e.2 == .none).map
      Prod.fst = first :: rest)
    (h : (r.resolveCurrent base key device (r.flagged key device target targetIsCurrent)
      environment first rest).truth = .real) :
    ∃ s ∈ key.records, s.record.withdrawn = false ∧
      genuine s.record.source.provenance = true := by
  obtain ⟨view, hfind, hg⟩ := classifyTruth_real h
  have hmem : ∀ v, v ∈ StdLib.sortEvidence ((r.flagged key device target targetIsCurrent).map
      fun e => markWinner (selectWinner first rest) (evidenceView e.1 e.2)) ↔
      ∃ s ∈ key.records, markWinner (selectWinner first rest) (evidenceView s
        (r.computeStaleness s device target targetIsCurrent)) = v := by
    intro v
    rw [(StdLib.sortEvidence_perm _).mem_iff]
    simp [flagged]
  -- the winner is current and its view is marked
  have hwin : selectWinner first rest ∈ key.records ∧ r.computeStaleness (selectWinner first rest)
      device target targetIsCurrent = .none := by
    have hm := selectWinner_mem first rest
    rw [← hcur] at hm
    obtain ⟨⟨s, flags⟩, he, hs⟩ := List.mem_map.mp hm
    obtain ⟨hf, hnone⟩ := List.mem_filter.mp he
    obtain ⟨t, ht, hte⟩ := List.mem_map.mp hf
    obtain ⟨rfl, rfl⟩ := Prod.mk.inj hte
    rw [← hs]
    exact ⟨ht, by simpa using hnone⟩
  obtain ⟨s, hs, rfl⟩ := (hmem view).mp (List.mem_of_find?_eq_some hfind)
  have hview := winner_current (hsort _) hfind ((hmem _).mpr ⟨_, hwin.1, rfl⟩)
    (by simp [markWinner, evidenceView])
    (by simp [markWinner, evidenceView, hwin.2, isStale])
  have hnone : r.computeStaleness s device target targetIsCurrent = .none := by
    simpa [markWinner, evidenceView, isStale] using hview
  exact ⟨s, hs, present_of_current hnone, hg⟩

/-- A key is real on genuine evidence, or when all it ever had is no longer current. -/
theorem genuine_or_unobserved_of_real (hsort : CurrentFirst)
    (h : (r.resolve device capability pinned environment).truth = .real) :
    r.Genuine device capability ∨ r.Unobserved device capability pinned := by
  unfold resolve at h
  dsimp only at h
  cases hk : r.keys[KeyId.mk device.identity.id capability]? with
  | none => simp [hk] at h
  | some key =>
    rw [hk] at h
    dsimp only at h
    split at h
    · next hnil =>
      right
      have hev : key.hasEvidence = true := by
        by_contra hne
        simp [resolveStale, hne] at h
      refine ⟨key, hk, hev, fun s hs hnone => ?_⟩
      have hmem : s ∈ ([] : List StoredRecord) := by
        rw [← hnil]
        refine List.mem_map.mpr ⟨(s, _), List.mem_filter.mpr ⟨List.mem_map.mpr ⟨s, hs, rfl⟩, ?_⟩, rfl⟩
        simpa using hnone
      cases hmem
    · next first rest hcons =>
      left
      obtain ⟨s, hs, hw, hg⟩ := genuine_of_resolveCurrent hsort hcons h
      refine ⟨s, ?_, hw, hg⟩
      rw [recordsAt_of_some hk]
      exact hs

/-- A key whose evidence is no longer current is presented as real, whatever it was. -/
theorem real_of_unobserved (h : r.Unobserved device capability pinned)
    (environment : EnvironmentContext) :
    (r.resolve device capability pinned environment).truth = .real := by
  obtain ⟨key, hk, hev, hstale⟩ := h
  have hnil : ((r.flagged key device (if pinned.valid then pinned else device.generation)
      ((if pinned.valid then pinned else device.generation) == device.generation)).filter
        fun e => e.2 == .none).map Prod.fst = [] := by
    rw [List.map_eq_nil_iff, List.filter_eq_nil_iff]
    intro e he
    obtain ⟨s, hs, rfl⟩ := List.mem_map.mp he
    simpa using hstale s hs
  have hk : r.keys[KeyId.mk device.identity.id capability]? = some key := hk
  simp only [resolve, hk, hnil, resolveStale, hev, if_true]

omit [StdLib] in
theorem classifySubject_real {views : List ResolvedCapability} :
    classifySubject views = .real ↔ ∃ v ∈ views, v.truth = .real := by
  unfold classifySubject
  constructor
  · intro h
    by_contra hne
    have hany : (views.any fun v => v.truth == .real) = false := by
      rw [List.any_eq_false]
      intro v hv ht
      exact hne ⟨v, hv, by simpa using ht⟩
    rw [hany] at h
    split at h
    · cases h
    · split at h
      · contradiction
      · split at h
        · cases h
        · split at h <;> cases h
  · rintro ⟨v, hv, ht⟩
    have hany : (views.any fun v => v.truth == .real) = true :=
      List.any_eq_true.mpr ⟨v, hv, by simp [ht]⟩
    have hempty : views.isEmpty = false := by
      cases views with
      | nil => cases hv
      | cons => rfl
    simp [hany, hempty]

/-- A capability indexed for the device. -/
def Owns (r : Impl) (device : DeviceState) (capability : CapabilityId) : Prop :=
  ∃ owned ∈ r.deviceKeys[device.identity.id]?, capability ∈ owned

theorem buildSubject_real :
    (r.buildSubject device environment).classification = .real ↔
      ∃ capability, r.Owns device capability ∧
        (r.resolve device capability default environment).truth = .real := by
  unfold buildSubject Owns
  cases hd : r.deviceKeys[device.identity.id]? with
  | none => simp
  | some owned =>
    dsimp only
    rw [classifySubject_real]
    simp only [List.mem_map, Std.ExtTreeSet.mem_toList, Option.mem_def, Option.some.injEq,
      exists_eq_left']
    constructor
    · rintro ⟨v, ⟨capability, hm, rfl⟩, ht⟩
      exact ⟨capability, hm, ht⟩
    · rintro ⟨capability, hm, ht⟩
      exact ⟨_, ⟨capability, hm, rfl⟩, ht⟩

/-- A key is presented as real without genuine evidence exactly when what it had is no longer
current and none of it is genuine, and a subject exactly when it owns such a key. -/
theorem presented_as_real_iff (hsort : CurrentFirst) (r : Impl) (device : DeviceState)
    (capability : CapabilityId) (pinned : DeviceGeneration) (environment : EnvironmentContext) :
    (((r.resolve device capability pinned environment).truth = .real →
        r.Genuine device capability) ↔
      ¬ (r.Unobserved device capability pinned ∧ ¬ r.Genuine device capability)) ∧
    (((∀ c, ¬ r.Genuine device c) →
        (r.buildSubject device environment).classification ≠ .real) ↔
      ¬ ((∀ c, ¬ r.Genuine device c) ∧ ∃ c, r.Owns device c ∧ r.Unobserved device c default)) := by
  constructor
  · constructor
    · rintro h ⟨hun, hng⟩
      exact hng (h (real_of_unobserved hun environment))
    · intro h hreal
      by_contra hng
      rcases genuine_or_unobserved_of_real hsort hreal with hg | hun
      · exact hng hg
      · exact h ⟨hun, hng⟩
  · constructor
    · rintro h ⟨hng, c, ho, hun⟩
      exact h hng (buildSubject_real.mpr ⟨c, ho, real_of_unobserved hun environment⟩)
    · intro h hng hreal
      obtain ⟨c, ho, ht⟩ := buildSubject_real.mp hreal
      rcases genuine_or_unobserved_of_real hsort ht with hg | hun
      · exact hng c hg
      · exact h ⟨hng, c, ho, hun⟩

/-- The sample evidence, as a synthetic source would publish it. -/
def syntheticCapability : CapabilityRecord :=
  { Sample.capability with
    source.sourceClass := .syntheticBackend
    source.provenance := .synthetic }

/-- A registry whose only evidence is synthetic and was published in an earlier epoch. -/
def syntheticPast : List Op :=
  Sample.setup ++
    [.apply Sample.now (Sample.evidence 2 syntheticCapability), .advanceCoordinatorEpoch]

omit [StdLib] in
/-- Synthetic evidence is presented as real once its epoch has passed. -/
theorem stale_synthetic_evidence_is_real :
    letI := StdLib.reference
    ¬ ∀ (limits : RegistryLimits) (r : Impl), Reachable limits r → ∀ (id : DeviceId),
      ∀ device ∈ r.devices[id]?, ∀ (capability : CapabilityId) (environment : EnvironmentContext),
        ((r.resolve device capability default environment).truth = .real →
          r.Genuine device capability) ∧
        ((∀ c, ¬ r.Genuine device c) →
          (r.buildSubject device environment).classification ≠ .real) := by
  let := StdLib.reference
  intro h
  have hreal : ∃ device ∈ ((Impl.fresh {}).run syntheticPast).devices[(Id.parse "dev.a" : DeviceId)]?,
      (((Impl.fresh {}).run syntheticPast).resolve device (Id.parse "cap.compute.fp64") default {}).truth
        = .real ∧
      ¬ ((Impl.fresh {}).run syntheticPast).Genuine device (Id.parse "cap.compute.fp64") := by
    rw [Impl.fresh_eq]
    decide +kernel
  obtain ⟨device, hd, ht, hg⟩ := hreal
  exact hg ((h {} _ ⟨syntheticPast, rfl⟩ _ device hd (Id.parse "cap.compute.fp64") {}).1 ht)

end Impl

/-- A library whose sort puts current views first and keeps the rest of the order. -/
@[reducible] def StdLib.currentFirst : StdLib :=
  { StdLib.reference with
    sortEvidence := fun views =>
      views.filter (fun view => !isStale view.staleness) ++
        views.filter (fun view => isStale view.staleness)
    sortEvidence_perm := fun views => by
      have h := List.filter_append_perm (fun view => !isStale view.staleness) views
      simpa using h }

theorem currentFirst_currentFirst : @CurrentFirst StdLib.currentFirst := by
  intro views
  refine List.pairwise_append.mpr ⟨?_, ?_, ?_⟩
  · refine List.pairwise_iff_forall_sublist.mpr fun {a b} hab hs => ?_
    have ha := (List.mem_filter.mp (hab.subset List.mem_cons_self)).2
    simp [hs] at ha
  · refine List.pairwise_iff_forall_sublist.mpr fun {a b} hab _ => ?_
    exact (List.mem_filter.mp (hab.subset (List.mem_cons_of_mem _ List.mem_cons_self))).2
  · intro a ha b _ hs
    have ha := (List.mem_filter.mp ha).2
    simp [hs] at ha

theorem Impl.presented_as_real_iff_syntheticPast :
    letI := StdLib.currentFirst
    ((((Impl.fresh {}).run Impl.syntheticPast).resolve (createDevice Sample.device)
      (Id.parse "cap.compute.fp64") default {}).truth = .real →
        ((Impl.fresh {}).run Impl.syntheticPast).Genuine (createDevice Sample.device)
          (Id.parse "cap.compute.fp64")) ↔
      ¬ (((Impl.fresh {}).run Impl.syntheticPast).Unobserved (createDevice Sample.device)
          (Id.parse "cap.compute.fp64") default ∧
        ¬ ((Impl.fresh {}).run Impl.syntheticPast).Genuine (createDevice Sample.device)
          (Id.parse "cap.compute.fp64")) := by
  let := StdLib.currentFirst
  exact (Impl.presented_as_real_iff currentFirst_currentFirst _ (createDevice Sample.device) _
    default {}).1

end CapabilityRegistry
