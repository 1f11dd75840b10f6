import CapabilityRegistry.Selection

/-! Which current record a resolution declares, which one ingestion compares with, and which
entries of the evidence are marked. -/
namespace CapabilityRegistry

/-- What ingestion ranks current records by: it looks at neither the precision nor the evidence
generation. -/
def ingestionOrder (left right : CapabilityRecord) : Ordering :=
  (compare right.source.authority left.source.authority).then <|
    (compare left.source.publisher.id right.source.publisher.id).then <|
      compare right.source.observationSequence left.source.observationSequence

section Orders
variable {s t w : StoredRecord}

theorem ingestionOrder_eq : ingestionOrder = compareLex
    (fun a b => compare b.source.authority a.source.authority) (compareLex
      (compareOn fun record => record.source.publisher.id)
      (fun a b => compare b.source.observationSequence a.source.observationSequence)) := rfl

instance : Std.TransCmp ingestionOrder := by
  rw [ingestionOrder_eq]
  have h1 := transCmp_swap fun record : CapabilityRecord => record.source.authority
  have h2 := transCmp_swap fun record : CapabilityRecord => record.source.observationSequence
  infer_instance

theorem beatsWinner_eq : beatsWinner s w = (onRecords ingestionOrder s w == .lt) := by
  have hsequence : compare w.record.source.observationSequence
      s.record.source.observationSequence = .lt ↔
      w.record.source.observationSequence < s.record.source.observationSequence :=
    compareOfLessAndEq_eq_lt
  rw [Bool.eq_iff_iff, beq_iff_eq]
  simp only [beatsWinner, onRecords, ingestionOrder, Ordering.then_eq_lt, Bool.or_eq_true,
    Bool.and_eq_true, decide_eq_true_eq, beq_iff_eq, compare_lt_iff_lt, compare_eq_iff_eq,
    Std.LawfulEqOrd.compare_eq_iff_eq, hsequence, @eq_comm _ w.record.source.authority]

end Orders

namespace Impl
variable {r : Impl} {device : DeviceState} {capability : CapabilityId} {pinned : DeviceGeneration}

/-- The retained records of a key that are current for the generation asked about. -/
def currentRecords (r : Impl) (device : DeviceState) (capability : CapabilityId)
    (pinned : DeviceGeneration) : List StoredRecord :=
  let target := if pinned.valid then pinned else device.generation
  (recordsAt r.keys (KeyId.mk device.identity.id capability)).filter fun s =>
    r.computeStaleness s device target (target == device.generation) == .none

/-- A record wins the resolution: it comes first by authority among the current ones. -/
def Declares (r : Impl) (device : DeviceState) (capability : CapabilityId)
    (pinned : DeviceGeneration) (w : StoredRecord) : Prop :=
  FirstBest (onRecords authorityOrder) (r.currentRecords device capability pinned) w

theorem currentRecords_of_key {key : KeyState}
    (hk : r.keys[KeyId.mk device.identity.id capability]? = some key) :
    r.currentRecords device capability pinned =
      ((r.flagged key device (if pinned.valid then pinned else device.generation)
        ((if pinned.valid then pinned else device.generation) == device.generation)).filter
          fun e => e.2 == .none).map Prod.fst := by
  simp only [currentRecords, recordsAt_of_some hk, flagged, List.filter_map, List.map_map]
  exact (List.map_id _).symm

theorem exists_declares (h : r.currentRecords device capability pinned ≠ []) :
    ∃ w, r.Declares device capability pinned w := by
  unfold Declares
  cases hcur : r.currentRecords device capability pinned with
  | nil => exact (h hcur).elim
  | cons first rest => exact ⟨_, selectWinner_firstBest first rest⟩

section Resolutions
variable [StdLib] {environment : EnvironmentContext} {w : StoredRecord}

/-- A resolution with current evidence, from the record that wins it. -/
theorem resolve_of_declares (h : r.Declares device capability pinned w) :
    ∃ key first rest, r.keys[KeyId.mk device.identity.id capability]? = some key ∧
      r.currentRecords device capability pinned = first :: rest ∧ selectWinner first rest = w ∧
      ∀ environment, r.resolve device capability pinned environment =
        r.resolveCurrent (answerBase device capability pinned key.schema) key device
          (r.flagged key device (if pinned.valid then pinned else device.generation)
            ((if pinned.valid then pinned else device.generation) == device.generation))
          environment first rest := by
  have hmem := h.mem
  cases hk : r.keys[KeyId.mk device.identity.id capability]? with
  | none => simp [currentRecords, recordsAt, hk] at hmem
  | some key =>
    cases hcur : r.currentRecords device capability pinned with
    | nil =>
      rw [hcur] at hmem
      cases hmem
    | cons first rest =>
      have hwin : selectWinner first rest = w := by
        have hfirst := selectWinner_firstBest first rest
        rw [← hcur] at hfirst
        exact hfirst.unique h
      refine ⟨key, first, rest, rfl, rfl, hwin, fun environment => ?_⟩
      rw [currentRecords_of_key hk] at hcur
      exact resolve_of_current hk hcur

/-- The answer is taken from a record: what it declares, and under which conditions. -/
structure TakenFrom (w : StoredRecord) (resolved : ResolvedCapability) : Prop where
  support : resolved.declaredSupport = w.record.support
  value : resolved.value = w.record.value
  conditions : resolved.conditions = w.record.conditions

/-- The one entry that is marked is the record's own. -/
def MarksOnly (w : StoredRecord) (resolved : ResolvedCapability) : Prop :=
  resolved.evidence.filter EvidenceView.winner = [{ evidenceView w .none with winner := true }]

/-- The records agree in what an entry of the evidence is marked by. -/
def sharesMark (w s : StoredRecord) : Bool :=
  s.record.source.publisher.id == w.record.source.publisher.id &&
    s.record.capabilityGeneration == w.record.capabilityGeneration &&
    s.record.source.nativeReference == w.record.source.nativeReference &&
    s.record.source.observationSequence == w.record.source.observationSequence

omit [StdLib] in
@[simp] theorem sharesMark_self : sharesMark w w = true := by simp [sharesMark]

omit [StdLib] in
theorem markWinner_self :
    markWinner w (evidenceView w .none) = { evidenceView w .none with winner := true } := by
  simp [markWinner, evidenceView]

omit [StdLib] in
theorem mem_currentRecords {s : StoredRecord} :
    s ∈ r.currentRecords device capability pinned ↔
      s ∈ recordsAt r.keys (KeyId.mk device.identity.id capability) ∧
        r.computeStaleness s device (if pinned.valid then pinned else device.generation)
          ((if pinned.valid then pinned else device.generation) == device.generation) = .none := by
  simp [currentRecords]

theorem takenFrom_of_declares (h : r.Declares device capability pinned w)
    (environment : EnvironmentContext) :
    TakenFrom w (r.resolve device capability pinned environment) := by
  obtain ⟨key, first, rest, -, -, rfl, hresolve⟩ := resolve_of_declares h
  rw [hresolve]
  exact ⟨rfl, rfl, rfl⟩

/-- The marked entries are those of the records that agree with the winning one in the mark. -/
theorem marked_perm (h : r.Declares device capability pinned w) (environment : EnvironmentContext) :
    ((r.resolve device capability pinned environment).evidence.filter EvidenceView.winner).Perm
      (((recordsAt r.keys (KeyId.mk device.identity.id capability)).filter (sharesMark w)).map
        fun s => markWinner w (evidenceView s
          (r.computeStaleness s device (if pinned.valid then pinned else device.generation)
            ((if pinned.valid then pinned else device.generation) == device.generation)))) := by
  obtain ⟨key, first, rest, hk, -, rfl, hresolve⟩ := resolve_of_declares h
  rw [hresolve, recordsAt_of_some hk]
  have hperm := (StdLib.sortEvidence_perm ((r.flagged key device
    (if pinned.valid then pinned else device.generation)
    ((if pinned.valid then pinned else device.generation) == device.generation)).map fun e =>
      markWinner (selectWinner first rest) (evidenceView e.1 e.2))).filter EvidenceView.winner
  refine hperm.trans (.of_eq ?_)
  rw [flagged, List.map_map, List.filter_map]
  rfl

/-- The winning record is the only one to be marked exactly if no other record of the key agrees
with it in the mark. -/
theorem one_winner_iff (hcur : r.currentRecords device capability pinned ≠ []) :
    ∃ w, r.Declares device capability pinned w ∧ ∀ environment,
      TakenFrom w (r.resolve device capability pinned environment) ∧
        (MarksOnly w (r.resolve device capability pinned environment) ↔
          (recordsAt r.keys (KeyId.mk device.identity.id capability)).countP (sharesMark w) =
            1) := by
  obtain ⟨w, hw⟩ := exists_declares hcur
  refine ⟨w, hw, fun environment => ⟨takenFrom_of_declares hw environment, ?_⟩⟩
  have hperm := marked_perm hw environment
  obtain ⟨hmem, hstale⟩ := mem_currentRecords.mp hw.mem
  rw [List.countP_eq_length_filter]
  constructor
  · intro hone
    have hlength := hperm.length_eq
    rw [MarksOnly] at hone
    rw [hone, List.length_map] at hlength
    exact hlength.symm
  · intro hlength
    obtain ⟨s, hs⟩ := List.length_eq_one_iff.mp hlength
    have hself : w ∈ (recordsAt r.keys (KeyId.mk device.identity.id capability)).filter
        (sharesMark w) := List.mem_filter.mpr ⟨hmem, sharesMark_self⟩
    rw [hs, List.mem_singleton] at hself
    subst hself
    rw [hs, List.map_singleton, hstale, markWinner_self] at hperm
    exact List.perm_singleton.mp hperm

omit [StdLib] in
theorem current_probe :
    letI := StdLib.reference
    ((Impl.fresh {}).run (Sample.setup ++
      [.apply Sample.now (Sample.evidence 2 Sample.capability)])).currentRecords
        (createDevice Sample.device) (Id.parse "cap.compute.fp64") default ≠ [] := by
  let := StdLib.reference
  rw [← List.isEmpty_eq_false_iff]
  rw [Impl.fresh_eq]
  decide +kernel

omit [StdLib] in
theorem one_winner_probe :
    letI := StdLib.reference
    let r := (Impl.fresh {}).run
      (Sample.setup ++ [.apply Sample.now (Sample.evidence 2 Sample.capability)])
    let device := createDevice Sample.device
    let capability := Id.parse "cap.compute.fp64"
    ∃ w, r.Declares device capability default w ∧ ∀ environment,
      TakenFrom w (r.resolve device capability default environment) ∧
        (MarksOnly w (r.resolve device capability default environment) ↔
          (recordsAt r.keys (KeyId.mk device.identity.id capability)).countP (sharesMark w) =
            1) := by
  let := StdLib.reference
  exact one_winner_iff current_probe

/-- Curated knowledge that a publisher states under one boot and again under the next, each time in
its second publication. -/
def curatedTwice : List Op :=
  let curated := { Sample.capability with
    source := { Sample.capability.source with
      sourceClass := .staticCuratedDatabase, provenance := .curatedStatic } }
  let next : PublisherIdentity := { Sample.publisher with boot := ⟨2⟩ }
  Sample.setup ++ [.apply Sample.now (Sample.evidence 2 curated), Sample.registration,
    .apply Sample.now { Sample.evidence 2 curated with publisher := next }]

omit [StdLib] in
/-- Both records are marked, as the second corroborates the first and takes over its generation. -/
theorem two_winners_marked :
    letI := StdLib.reference
    ¬ ∀ (limits : RegistryLimits) (r : Impl) (device : DeviceState) (capability : CapabilityId)
      (pinned : DeviceGeneration) (environment : EnvironmentContext), Reachable limits r →
      r.devices[device.identity.id]? = some device →
      r.currentRecords device capability pinned ≠ [] →
      ∃ w, r.Declares device capability pinned w ∧
        TakenFrom w (r.resolve device capability pinned environment) ∧
        MarksOnly w (r.resolve device capability pinned environment) := by
  let := StdLib.reference
  intro h
  obtain ⟨hdevice, hcurrent, hboth⟩ :
      ((Impl.fresh {}).run curatedTwice).devices[(createDevice Sample.device).identity.id]? =
        some (createDevice Sample.device) ∧
      (((Impl.fresh {}).run curatedTwice).currentRecords (createDevice Sample.device)
        (Id.parse "cap.compute.fp64") default).isEmpty = false ∧
      ∀ s ∈ recordsAt ((Impl.fresh {}).run curatedTwice).keys
          ⟨(createDevice Sample.device).identity.id, Id.parse "cap.compute.fp64"⟩,
        ((recordsAt ((Impl.fresh {}).run curatedTwice).keys
          ⟨(createDevice Sample.device).identity.id, Id.parse "cap.compute.fp64"⟩).filter
            (sharesMark s)).length = 2 := by
    rw [Impl.fresh_eq]
    decide +kernel
  obtain ⟨w, hw, -, hone⟩ := h {} _ _ _ default {} ⟨_, rfl⟩ hdevice
    (List.isEmpty_eq_false_iff.mp hcurrent)
  have hlength := (marked_perm hw {}).length_eq
  rw [MarksOnly] at hone
  rw [hone, List.length_map, hboth w (mem_currentRecords.mp hw.mem).1] at hlength
  cases hlength

end Resolutions

section Ingestions
variable {s t w : StoredRecord}

/-- Current evidence is evidence for the device's current generation. -/
theorem target_of_current (hcur : r.currentRecords device capability pinned ≠ []) :
    (if pinned.valid then pinned else device.generation) = device.generation := by
  obtain ⟨s, hs⟩ := List.exists_mem_of_ne_nil _ hcur
  obtain ⟨-, hstale⟩ := mem_currentRecords.mp hs
  by_contra hne
  have hflag : StalenessFlag.deviceGenerationSuperseded ≠ .none := by decide
  rw [beq_eq_false_iff_ne.mpr hne] at hstale
  simp [computeStaleness, StalenessFlag.raise_eq_none_iff, hflag] at hstale

theorem currentRecords_eq (hcur : r.currentRecords device capability pinned ≠ []) :
    r.currentRecords device capability pinned =
      (recordsAt r.keys (KeyId.mk device.identity.id capability)).filter fun s =>
        r.currentStaleness s device == .none := by
  simp only [currentRecords, target_of_current hcur, beq_self_eq_true, currentStaleness]

/-- The record ingestion compares with is the first by its own order among the current ones. -/
theorem currentWinnerRecord_firstBest (hcur : r.currentRecords device capability pinned ≠ []) :
    ∃ s, r.currentWinnerRecord device capability = some s ∧
      FirstBest (onRecords ingestionOrder) (r.currentRecords device capability pinned) s := by
  have heq := currentRecords_eq hcur
  rw [heq] at hcur ⊢
  have hscan : r.currentWinnerRecord device capability =
      (recordsAt r.keys (KeyId.mk device.identity.id capability)).foldl
        (FirstBest.keepSome (onRecords ingestionOrder) fun s =>
          r.currentStaleness s device == .none) none := by
    unfold currentWinnerRecord
    cases hk : r.keys[KeyId.mk device.identity.id capability]? with
    | none => simp [recordsAt, hk]
    | some key =>
      rw [recordsAt_of_some hk]
      change key.records.foldl _ none = _
      congr 1
      funext best s
      cases hs : r.currentStaleness s device == .none with
      | false => simp [FirstBest.keepSome, bne, hs]
      | true =>
        cases best with
        | none => simp [FirstBest.keepSome, bne, hs]
        | some w =>
          simp only [FirstBest.keepSome, FirstBest.keep, bne, hs, beatsWinner_eq, Option.map_some,
            Option.getD_some, if_true, Bool.not_true, Bool.false_eq_true, if_false]
          split <;> rfl
  obtain ⟨s, hs⟩ := FirstBest.exists_scanSome hcur
  exact ⟨s, hscan.trans hs, FirstBest.scanSome hs⟩

/-- Among the records of its authority the record is the most precise, and of those that are as
precise the one of the latest evidence generation. -/
def Foremost (xs : List StoredRecord) (s : StoredRecord) : Prop :=
  ∀ t ∈ xs, t.record.source.authority = s.record.source.authority →
    precisionClassRank t.record.precision < precisionClassRank s.record.precision ∨
      (precisionClassRank t.record.precision = precisionClassRank s.record.precision ∧
        t.record.source.evidenceGeneration ≤ s.record.source.evidenceGeneration)

theorem authorityOrder_eq_lt_iff : authorityOrder t.record s.record = .lt ↔
    s.record.source.authority < t.record.source.authority ∨
      (t.record.source.authority = s.record.source.authority ∧
        (precisionClassRank s.record.precision < precisionClassRank t.record.precision ∨
          (precisionClassRank t.record.precision = precisionClassRank s.record.precision ∧
            (s.record.source.evidenceGeneration < t.record.source.evidenceGeneration ∨
              (t.record.source.evidenceGeneration = s.record.source.evidenceGeneration ∧
                (compare t.record.source.publisher.id s.record.source.publisher.id).then
                  (compare s.record.source.observationSequence
                    t.record.source.observationSequence) = .lt))))) := by
  have hgeneration : compare s.record.source.evidenceGeneration
      t.record.source.evidenceGeneration = .lt ↔
      s.record.source.evidenceGeneration < t.record.source.evidenceGeneration :=
    compareOfLessAndEq_eq_lt
  simp only [authorityOrder, Ordering.then_eq_lt, compare_lt_iff_lt, compare_eq_iff_eq,
    Std.LawfulEqOrd.compare_eq_iff_eq, hgeneration, @eq_comm _ s.record.source.authority,
    @eq_comm _ (precisionClassRank s.record.precision),
    @eq_comm _ s.record.source.evidenceGeneration]

theorem ingestionOrder_eq_lt_iff : ingestionOrder t.record s.record = .lt ↔
    s.record.source.authority < t.record.source.authority ∨
      (t.record.source.authority = s.record.source.authority ∧
        (compare t.record.source.publisher.id s.record.source.publisher.id).then
          (compare s.record.source.observationSequence
            t.record.source.observationSequence) = .lt) := by
  simp only [ingestionOrder, Ordering.then_eq_lt, compare_lt_iff_lt, compare_eq_iff_eq,
    @eq_comm _ s.record.source.authority]

theorem not_beaten_iff_foremost {xs : List StoredRecord}
    (h : FirstBest (onRecords ingestionOrder) xs s) :
    (∀ t ∈ xs, onRecords authorityOrder t s ≠ .lt) ↔ Foremost xs s := by
  refine forall₂_congr fun t ht => ?_
  have hnot : ¬ ingestionOrder t.record s.record = .lt := h.not_beaten t ht
  rw [ingestionOrder_eq_lt_iff, not_or, not_and] at hnot
  obtain ⟨hle, htie⟩ := hnot
  rw [onRecords, Ne, authorityOrder_eq_lt_iff]
  constructor
  · intro hbeat hauthority
    rcases Nat.lt_trichotomy (precisionClassRank t.record.precision)
      (precisionClassRank s.record.precision) with hlt | heq | hgt
    · exact .inl hlt
    · refine .inr ⟨heq, Gen.not_lt.mp fun hlater => ?_⟩
      exact hbeat (.inr ⟨hauthority, .inr ⟨heq, .inl hlater⟩⟩)
    · exact (hbeat (.inr ⟨hauthority, .inl hgt⟩)).elim
  · rintro hforemost (hlt | ⟨hauthority, hrest⟩)
    · exact hle hlt
    -- what is left of the two orders is the same tie-break, and it was lost
    rcases hforemost hauthority with hprecision | ⟨hprecision, hgeneration⟩
    · rcases hrest with hlt | ⟨heq, -⟩
      · omega
      · omega
    · rcases hrest with hlt | ⟨-, hlater | ⟨-, hlast⟩⟩
      · omega
      · exact Gen.not_lt.mpr hgeneration hlater
      · exact htie hauthority hlast

/-- Ingestion compares with the record that resolution declares exactly if the one it compares with
is also the most precise of its authority, and the latest of those. -/
theorem ingestion_agrees_iff [StdLib] (hcur : r.currentRecords device capability pinned ≠ []) :
    ∃ w, r.Declares device capability pinned w ∧
      (∀ environment, TakenFrom w (r.resolve device capability pinned environment)) ∧
      (r.currentWinnerRecord device capability = some w ↔
        ∃ s, FirstBest (onRecords ingestionOrder) (r.currentRecords device capability pinned) s ∧
          Foremost (r.currentRecords device capability pinned) s) := by
  obtain ⟨w, hw⟩ := exists_declares hcur
  refine ⟨w, hw, takenFrom_of_declares hw, ?_⟩
  obtain ⟨s, hs, hfirst⟩ := currentWinnerRecord_firstBest hcur
  have hfine : ∀ x y, onRecords authorityOrder x y = .eq → onRecords ingestionOrder x y = .eq := by
    intro x y heq
    simp only [onRecords, authorityOrder, ingestionOrder, Ordering.then_eq_eq] at heq ⊢
    exact ⟨heq.1, heq.2.2.2⟩
  rw [hs, Option.some.injEq, hfirst.eq_iff_not_beaten hw hfine, not_beaten_iff_foremost hfirst]
  constructor
  · intro hforemost
    exact ⟨s, hfirst, hforemost⟩
  · rintro ⟨s', hfirst', hforemost⟩
    exact hfirst.unique hfirst' ▸ hforemost

theorem ingestion_agrees_probe :
    letI := StdLib.reference
    let r := (Impl.fresh {}).run
      (Sample.setup ++ [.apply Sample.now (Sample.evidence 2 Sample.capability)])
    let device := createDevice Sample.device
    let capability := Id.parse "cap.compute.fp64"
    ∃ w, r.Declares device capability default w ∧
      (∀ environment, TakenFrom w (r.resolve device capability default environment)) ∧
      (r.currentWinnerRecord device capability = some w ↔
        ∃ s, FirstBest (onRecords ingestionOrder) (r.currentRecords device capability default) s ∧
          Foremost (r.currentRecords device capability default) s) := by
  let := StdLib.reference
  exact ingestion_agrees_iff current_probe

/-- Two publishers probe the same capability, the second one more precisely. -/
def probedTwice : List Op :=
  let second : PublisherIdentity := { Sample.publisher with id := Id.parse "pub.b" }
  Sample.setup ++
    [.registerPublisher Sample.now { id := second.id } "adapter",
    .apply Sample.now (Sample.evidence 2 { Sample.capability with precision := .inferred }),
    .apply Sample.now { Sample.evidence 1 { Sample.capability with
      support := .unsupported, value := .none, precision := .exact } with publisher := second }]

/-- Ingestion goes on comparing with what the first publisher states, and resolution declares what
the second one does. -/
theorem ingestion_disagrees :
    letI := StdLib.reference
    ¬ ∀ (limits : RegistryLimits) (r : Impl) (device : DeviceState) (capability : CapabilityId)
      (pinned : DeviceGeneration), Reachable limits r →
      r.devices[device.identity.id]? = some device →
      r.currentRecords device capability pinned ≠ [] →
      ∃ w, r.Declares device capability pinned w ∧
        r.currentWinnerRecord device capability = some w := by
  let := StdLib.reference
  intro h
  obtain ⟨hdevice, hcurrent, hbeaten⟩ :
      ((Impl.fresh {}).run probedTwice).devices[(createDevice Sample.device).identity.id]? =
        some (createDevice Sample.device) ∧
      (((Impl.fresh {}).run probedTwice).currentRecords (createDevice Sample.device)
        (Id.parse "cap.compute.fp64") default).isEmpty = false ∧
      ∀ s ∈ ((Impl.fresh {}).run probedTwice).currentWinnerRecord (createDevice Sample.device)
          (Id.parse "cap.compute.fp64"),
        ∃ t ∈ ((Impl.fresh {}).run probedTwice).currentRecords (createDevice Sample.device)
          (Id.parse "cap.compute.fp64") default, onRecords authorityOrder t s = .lt := by
    rw [Impl.fresh_eq]
    decide +kernel
  obtain ⟨w, hw, hwins⟩ := h {} _ _ _ default ⟨_, rfl⟩ hdevice
    (List.isEmpty_eq_false_iff.mp hcurrent)
  obtain ⟨t, ht, hlt⟩ := hbeaten w hwins
  exact hw.not_beaten t ht hlt

end Ingestions

end Impl

end CapabilityRegistry
