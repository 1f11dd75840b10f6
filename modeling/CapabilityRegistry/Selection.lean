import CapabilityRegistry.Lib.FirstBest
import CapabilityRegistry.Truth

/-! The answer of a resolution is a function of what the current records state, in any order. -/
namespace CapabilityRegistry

/-- A record without the generation its key gave it, which is all that its arrival decided. -/
def CapabilityRecord.unnumbered (record : CapabilityRecord) : CapabilityRecord :=
  { record with capabilityGeneration := default }

/-- The implementation's sort leaves no view ahead of a current one that belongs before it. -/
def CurrentSorted [StdLib] : Prop :=
  ∀ views, (StdLib.sortEvidence views).Pairwise fun a b =>
    isStale b.staleness = false → evidenceOrdering b a = false

section Winner
variable {a b : CapabilityRecord} {first first' s t : StoredRecord}
  {rest rest' xs ys : List StoredRecord}

@[simp] theorem authorityOrder_unnumbered :
    authorityOrder a.unnumbered b.unnumbered = authorityOrder a b := rfl

@[simp] theorem assertion_unnumbered : assertion a.unnumbered = assertion a := rfl

theorem authorityOrder_eq : authorityOrder = compareLex
    (fun a b => compare b.source.authority a.source.authority) (compareLex
      (fun a b => compare (precisionClassRank b.precision) (precisionClassRank a.precision))
      (compareLex (fun a b => compare b.source.evidenceGeneration a.source.evidenceGeneration)
        (compareLex (compareOn fun record => record.source.publisher.id)
          (fun a b => compare b.source.observationSequence a.source.observationSequence)))) := rfl

theorem transCmp_swap {α β : Type} [Ord β] [Std.TransOrd β] (f : α → β) :
    Std.TransCmp fun a b => compare (f b) (f a) where
  eq_swap := Std.OrientedCmp.eq_swap
  isLE_trans h h' := Std.TransCmp.isLE_trans h' h

instance : Std.TransCmp authorityOrder := by
  rw [authorityOrder_eq]
  have h1 := transCmp_swap fun record : CapabilityRecord => record.source.authority
  have h2 := transCmp_swap fun record : CapabilityRecord => precisionClassRank record.precision
  have h3 := transCmp_swap fun record : CapabilityRecord => record.source.evidenceGeneration
  have h4 := transCmp_swap fun record : CapabilityRecord => record.source.observationSequence
  infer_instance

/-- An order of records as one of stored records. -/
def onRecords (cmp : CapabilityRecord → CapabilityRecord → Ordering) (s t : StoredRecord) :
    Ordering := cmp s.record t.record

instance {cmp : CapabilityRecord → CapabilityRecord → Ordering} [Std.TransCmp cmp] :
    Std.TransCmp (onRecords cmp) where
  eq_swap {_ _} := @Std.OrientedCmp.eq_swap _ cmp _ _ _
  isLE_trans {_ _ _} h h' := @Std.TransCmp.isLE_trans _ cmp _ _ _ _ h h'

theorem selectWinner_firstBest (first : StoredRecord) (rest : List StoredRecord) :
    FirstBest (onRecords authorityOrder) (first :: rest) (selectWinner first rest) :=
  FirstBest.scan first rest

/-- Nothing beats the winner. -/
theorem selectWinner_first (first : StoredRecord) (rest : List StoredRecord) :
    ∀ s ∈ first :: rest, authorityOrder s.record (selectWinner first rest).record ≠ .lt :=
  (selectWinner_firstBest first rest).not_beaten

/-- Every record of one list is stated in the other, under any generation. -/
def Covers (xs ys : List StoredRecord) : Prop :=
  ∀ s ∈ xs, ∃ t ∈ ys, t.record.unnumbered = s.record.unnumbered

/-- One record for each publisher and source class. -/
def OnePerSource (xs : List StoredRecord) : Prop :=
  ∀ s ∈ xs, ∀ t ∈ xs, s.record.source.publisher.id = t.record.source.publisher.id →
    s.record.source.sourceClass = t.record.source.sourceClass → s = t

theorem authorityOrder_of_unnumbered {a' b' : CapabilityRecord} (ha : a'.unnumbered = a.unnumbered)
    (hb : b'.unnumbered = b.unnumbered) : authorityOrder a' b' = authorityOrder a b := by
  rw [← authorityOrder_unnumbered, ha, hb, authorityOrder_unnumbered]

/-- Records that neither beats agree in their publisher and source class. -/
theorem same_source_of_authorityOrder (h : authorityOrder a b = .eq) :
    a.source.publisher.id = b.source.publisher.id ∧ a.source.sourceClass = b.source.sourceClass := by
  rw [authorityOrder_eq] at h
  simp only [compareLex_eq_eq] at h
  obtain ⟨hauthority, -, -, hid, -⟩ := h
  have hclass := Std.LawfulEqOrd.eq_of_compare hauthority
  exact ⟨Std.LawfulEqOrd.eq_of_compare hid, (sourceAuthority_injective hclass).symm⟩

theorem authority_le_of_authorityOrder (h : authorityOrder a b ≠ .lt) :
    a.source.authority ≤ b.source.authority := by
  by_contra hlt
  have hcmp : compare b.source.authority a.source.authority = .lt :=
    Nat.compare_eq_lt.mpr (Nat.lt_of_not_le hlt)
  exact h (by simp [authorityOrder, hcmp])

/-- The winner is the same in every order of candidates that no two of one source are among. -/
theorem selectWinner_unnumbered (h : Covers (first :: rest) (first' :: rest'))
    (h' : Covers (first' :: rest') (first :: rest)) (hone : OnePerSource (first :: rest)) :
    (selectWinner first rest).record.unnumbered =
      (selectWinner first' rest').record.unnumbered := by
  obtain ⟨t, ht, hte⟩ := h _ (Impl.selectWinner_mem first rest)
  obtain ⟨s, hs, hse⟩ := h' _ (Impl.selectWinner_mem first' rest')
  have hle := selectWinner_first first rest s hs
  have hge := selectWinner_first first' rest' t ht
  rw [authorityOrder_of_unnumbered hte rfl] at hge
  rw [authorityOrder_of_unnumbered hse rfl] at hle
  have heq : authorityOrder (selectWinner first rest).record
      (selectWinner first' rest').record = .eq := by
    cases ho : authorityOrder (selectWinner first rest).record
      (selectWinner first' rest').record with
    | lt => exact (hge ho).elim
    | eq => rfl
    | gt => exact (hle (Std.OrientedCmp.lt_of_gt ho)).elim
  rw [← authorityOrder_of_unnumbered rfl hse] at heq
  obtain ⟨hid, hclass⟩ := same_source_of_authorityOrder heq
  rw [hone _ (Impl.selectWinner_mem first rest) s hs hid hclass, hse]

end Winner

section Contradiction
variable {s t : StoredRecord} {xs ys : List StoredRecord}

/-- All candidates make the same assertion. -/
def agrees (xs : List StoredRecord) : Bool :=
  xs.all fun c => some (assertion c.record) == xs.head?.map fun h => assertion h.record

theorem agrees_iff : agrees xs = true ↔
    ∀ s ∈ xs, ∀ t ∈ xs, assertion s.record = assertion t.record := by
  cases xs with
  | nil => simp [agrees]
  | cons first rest =>
    simp only [agrees, List.all_eq_true, List.head?_cons, Option.map_some, beq_iff_eq,
      Option.some.injEq]
    constructor
    · intro h s hs t ht
      rw [h s hs, h t ht]
    · intro h s hs
      exact h s hs first List.mem_cons_self

theorem agrees_of_covers (h : Covers xs ys) (ha : agrees ys = true) : agrees xs = true := by
  rw [agrees_iff] at ha ⊢
  intro s hs t ht
  obtain ⟨s', hs', hse⟩ := h s hs
  obtain ⟨t', ht', hte⟩ := h t ht
  rw [← assertion_unnumbered, ← hse, ← assertion_unnumbered (a := t.record), ← hte]
  exact ha s' hs' t' ht'

theorem agrees_congr (h : Covers xs ys) (h' : Covers ys xs) : agrees xs = agrees ys := by
  rw [Bool.eq_iff_iff]
  exact ⟨agrees_of_covers h', agrees_of_covers h⟩

theorem covers_filter (h : Covers xs ys) {p : StoredRecord → Bool}
    (hp : ∀ s t : StoredRecord, t.record.unnumbered = s.record.unnumbered → p t = p s) :
    Covers (xs.filter p) (ys.filter p) := by
  intro s hs
  obtain ⟨hm, hps⟩ := List.mem_filter.mp hs
  obtain ⟨t, ht, hte⟩ := h s hm
  exact ⟨t, List.mem_filter.mpr ⟨ht, (hp s t hte).trans hps⟩, hte⟩

theorem all_of_covers (h : Covers xs ys) {p : StoredRecord → Bool}
    (hp : ∀ s t : StoredRecord, t.record.unnumbered = s.record.unnumbered → p t = p s)
    (ha : ys.all p = true) : xs.all p = true := by
  rw [List.all_eq_true] at ha ⊢
  intro s hs
  obtain ⟨t, ht, hte⟩ := h s hs
  rw [← hp s t hte]
  exact ha t ht

theorem source_of_unnumbered (h : t.record.unnumbered = s.record.unnumbered) :
    t.record.source = s.record.source := by
  have hsource : t.record.unnumbered.source = s.record.unnumbered.source := by rw [h]
  exact hsource

theorem assertion_of_unnumbered (h : t.record.unnumbered = s.record.unnumbered) :
    assertion t.record = assertion s.record := by
  rw [← assertion_unnumbered, h, assertion_unnumbered]

/-- The verdict on the contradiction is the same in every order of the candidates. -/
theorem classifyContradiction_congr (hw : s.record.unnumbered = t.record.unnumbered)
    (h : Covers xs ys) (h' : Covers ys xs) :
    classifyContradiction s xs = classifyContradiction t ys := by
  have hsource := source_of_unnumbered hw
  have hsame : ∀ u v : StoredRecord, v.record.unnumbered = u.record.unnumbered →
      (v.record.source.authority == s.record.source.authority) =
        (u.record.source.authority == s.record.source.authority) :=
    fun u v huv => by rw [source_of_unnumbered huv]
  have hdissent : ∀ u v : StoredRecord, v.record.unnumbered = u.record.unnumbered →
      (assertion v.record == assertion s.record || !provenanceIsReal v.record.source.provenance) =
        (assertion u.record == assertion s.record ||
          !provenanceIsReal u.record.source.provenance) :=
    fun u v huv => by rw [source_of_unnumbered huv, assertion_of_unnumbered huv]
  have hall := agrees_congr h h'
  have htop := agrees_congr (covers_filter h hsame) (covers_filter h' hsame)
  have hlive : (xs.all fun c => assertion c.record == assertion s.record ||
      !provenanceIsReal c.record.source.provenance) = ys.all fun c =>
      assertion c.record == assertion s.record || !provenanceIsReal c.record.source.provenance := by
    rw [Bool.eq_iff_iff]
    exact ⟨all_of_covers h' hdissent, all_of_covers h hdissent⟩
  simp only [agrees] at hall htop
  simp only [classifyContradiction, hall, htop, hlive]
  rw [hsource, assertion_of_unnumbered hw]

end Contradiction

/-- What a resolution says of the capability itself. -/
structure Verdict where
  declaredSupport : SupportState
  value : CapabilityValue
  precision : PrecisionClass
  conditions : ConditionPtr
  contradiction : ContradictionState
  effectiveSupport : EffectiveSupport
  truth : TruthClass

def ResolvedCapability.verdict (resolved : ResolvedCapability) : Verdict :=
  { declaredSupport := resolved.declaredSupport
    value := resolved.value
    precision := resolved.precision
    conditions := resolved.conditions
    contradiction := resolved.contradiction
    effectiveSupport := resolved.effectiveSupport
    truth := resolved.truth }

/-- The truth class that a winner of some provenance gives. -/
def truthOf (declared : SupportState) (effective : EffectiveSupport)
    (provenance : ProvenanceClass) : TruthClass :=
  if declared == .unsupported || effective == .unsupported then .unsupported
  else if effective == .unknown && declared == .unknown then .unknown
  else match provenance with
    | .synthetic => .synthetic
    | .unknownSource => .unknown
    | _ => .real

/-- The verdict on a winning record. -/
def verdictOf (winner : CapabilityRecord) (contradiction : ContradictionState)
    (quirks : List QuirkApplication) (environment : EnvironmentContext) : Verdict :=
  let effective := computeEffectiveSupport winner.support
    (evaluateCondition environment winner.conditions) quirks
  { declaredSupport := winner.support
    value := winner.value
    precision := winner.precision
    conditions := winner.conditions
    contradiction := contradiction
    effectiveSupport := effective
    truth := truthOf winner.support effective winner.source.provenance }

theorem verdictOf_unnumbered {winner winner' : CapabilityRecord}
    (h : winner.unnumbered = winner'.unnumbered) (contradiction : ContradictionState)
    (quirks : List QuirkApplication) (environment : EnvironmentContext) :
    verdictOf winner contradiction quirks environment =
      verdictOf winner' contradiction quirks environment := by
  have hsame : verdictOf winner.unnumbered contradiction quirks environment =
      verdictOf winner'.unnumbered contradiction quirks environment := by rw [h]
  exact hsame

theorem classifyTruth_of_find {declared : SupportState} {effective : EffectiveSupport}
    {evidence : List EvidenceView} {view : EvidenceView}
    (h : evidence.find? EvidenceView.winner = some view) :
    classifyTruth declared effective evidence =
      truthOf declared effective view.source.provenance := by
  cases hp : view.source.provenance <;> simp only [classifyTruth, truthOf, h, hp]

/-- A view that a current one is not put ahead of is current, and no less authoritative. -/
theorem of_not_evidenceOrdering {a b : EvidenceView} (ha : a.staleness = .none)
    (h : evidenceOrdering a b = false) (hwinner : a.winner = b.winner)
    (hgeneration : a.capabilityGeneration = b.capabilityGeneration) :
    b.staleness = .none ∧ a.source.authority ≤ b.source.authority := by
  unfold evidenceOrdering at h
  have hb : b.staleness = .none := by
    by_contra hne
    have hdiff : (a.staleness != b.staleness) = true := by
      rw [ha, bne_iff_ne]
      exact fun he => hne he.symm
    simp [ha, isStale, hne, Ne.symm hne] at h
  refine ⟨hb, ?_⟩
  by_contra hlt
  have hlt := Nat.lt_of_not_le hlt
  simp [ha, hb, hwinner, hgeneration, hlt, hlt.ne'] at h

namespace Impl
variable [StdLib] {r : Impl} {device : DeviceState} {capability : CapabilityId}
  {pinned target : DeviceGeneration} {environment : EnvironmentContext} {key : KeyState}
  {first : StoredRecord} {rest : List StoredRecord} {targetIsCurrent : Bool}

omit [StdLib] in
theorem mem_current {s : StoredRecord} :
    s ∈ ((r.flagged key device target targetIsCurrent).filter fun e => e.2 == .none).map Prod.fst ↔
      s ∈ key.records ∧ r.computeStaleness s device target targetIsCurrent = .none := by
  simp only [flagged, List.mem_map, List.mem_filter, beq_iff_eq]
  constructor
  · rintro ⟨e, ⟨⟨t, ht, rfl⟩, hnone⟩, rfl⟩
    exact ⟨ht, hnone⟩
  · rintro ⟨hs, hnone⟩
    exact ⟨_, ⟨⟨s, hs, rfl⟩, hnone⟩, rfl⟩

/-- Of the views that are marked as the winner the winner's own comes first. -/
theorem find_winner (hsort : CurrentSorted)
    (hcur : ((r.flagged key device target targetIsCurrent).filter fun e => e.2 == .none).map
      Prod.fst = first :: rest) (hone : OnePerSource (first :: rest)) :
    ∃ view, (StdLib.sortEvidence ((r.flagged key device target targetIsCurrent).map fun e =>
        markWinner (selectWinner first rest) (evidenceView e.1 e.2))).find? EvidenceView.winner =
        some view ∧
      view.source.provenance = (selectWinner first rest).record.source.provenance := by
  have hwin := selectWinner_mem first rest
  have hwinner := hwin
  rw [← hcur, mem_current] at hwinner
  have hmem : ∀ v, v ∈ StdLib.sortEvidence ((r.flagged key device target targetIsCurrent).map
      fun e => markWinner (selectWinner first rest) (evidenceView e.1 e.2)) ↔
      ∃ s ∈ key.records, markWinner (selectWinner first rest) (evidenceView s
        (r.computeStaleness s device target targetIsCurrent)) = v := by
    intro v
    rw [(StdLib.sortEvidence_perm _).mem_iff]
    simp [flagged]
  have hown := (hmem _).mpr ⟨_, hwinner.1, rfl⟩
  have hmarked : (markWinner (selectWinner first rest) (evidenceView (selectWinner first rest)
      (r.computeStaleness (selectWinner first rest) device target targetIsCurrent))).winner =
      true := by simp [markWinner, evidenceView]
  have hsorted := hsort ((r.flagged key device target targetIsCurrent).map fun e =>
    markWinner (selectWinner first rest) (evidenceView e.1 e.2))
  generalize StdLib.sortEvidence ((r.flagged key device target targetIsCurrent).map fun e =>
    markWinner (selectWinner first rest) (evidenceView e.1 e.2)) = views at hmem hown hsorted ⊢
  cases hf : views.find? EvidenceView.winner with
  | none =>
    have hnone := List.find?_eq_none.mp hf _ hown
    exact (hnone hmarked).elim
  | some view =>
    refine ⟨view, rfl, ?_⟩
    obtain ⟨hw, before, after, rfl, hbefore⟩ := List.find?_eq_some_iff_append.mp hf
    rcases List.mem_append.mp hown with hm | hm
    · have hnot := hbefore _ hm
      rw [hmarked] at hnot
      cases hnot
    rcases List.mem_cons.mp hm with heq | hm
    · rw [← heq]
      rfl
    -- the winner's own view comes later, so the comparator does not put it first
    have hrel := List.rel_of_pairwise_cons (List.pairwise_append.mp hsorted).2.1 hm
    obtain ⟨s, hs, rfl⟩ := (hmem view).mp (by simp)
    have hmark := hw
    simp only [markWinner, Bool.and_eq_true, beq_iff_eq] at hmark
    obtain ⟨⟨⟨hid, hgeneration⟩, -⟩, -⟩ := hmark
    have hnone : isStale (markWinner (selectWinner first rest) (evidenceView (selectWinner first rest)
        (r.computeStaleness (selectWinner first rest) device target targetIsCurrent))).staleness =
        false := by simp [markWinner, evidenceView, hwinner.2, isStale]
    obtain ⟨hcurrent, hauthority⟩ :=
      of_not_evidenceOrdering hwinner.2 (hrel hnone) (hmarked.trans hw.symm) hgeneration.symm
    have hs' : s ∈ first :: rest := by
      rw [← hcur, mem_current]
      exact ⟨hs, hcurrent⟩
    have hle := authority_le_of_authorityOrder (selectWinner_first first rest s hs')
    have hclass := sourceAuthority_injective (Nat.le_antisymm hle hauthority)
    have heq := hone s hs' _ hwin hid hclass
    rw [heq]
    rfl

omit [StdLib] in
theorem gatherQuirks_congr {r' : Impl} (hl : r'.limits = r.limits) (hq : r'.quirks = r.quirks)
    (device : DeviceState) (capability : CapabilityId) (environment : EnvironmentContext) :
    r'.gatherQuirks device capability environment = r.gatherQuirks device capability environment := by
  simp only [gatherQuirks, hl, hq]

/-- The fields of an answer that say what was asked about. -/
def answerBase (device : DeviceState) (capability : CapabilityId) (pinned : DeviceGeneration)
    (schema : CapabilitySchemaId) : ResolvedCapability :=
  { device := device.identity.id
    deviceGeneration := device.generation
    deviceBoot := device.boot
    capability := capability
    firmwareGeneration := device.software.firmwareGeneration
    driverGeneration := device.software.driverGeneration
    runtimeGeneration := device.software.runtimeGeneration
    current := (if pinned.valid then pinned else device.generation) == device.generation
    known := true
    schema := schema }

theorem resolve_of_current
    (hk : r.keys[KeyId.mk device.identity.id capability]? = some key)
    (hcur : ((r.flagged key device (if pinned.valid then pinned else device.generation)
      ((if pinned.valid then pinned else device.generation) == device.generation)).filter
        fun e => e.2 == .none).map Prod.fst = first :: rest) :
    r.resolve device capability pinned environment =
      r.resolveCurrent (answerBase device capability pinned key.schema) key device
        (r.flagged key device (if pinned.valid then pinned else device.generation)
          ((if pinned.valid then pinned else device.generation) == device.generation))
        environment first rest := by
  simp only [resolve, hk, hcur, answerBase]

/-- The verdict on a key with current evidence is the one on its winner. -/
theorem verdict_of_current (hsort : CurrentSorted)
    (hk : r.keys[KeyId.mk device.identity.id capability]? = some key)
    (hcur : ((r.flagged key device (if pinned.valid then pinned else device.generation)
      ((if pinned.valid then pinned else device.generation) == device.generation)).filter
        fun e => e.2 == .none).map Prod.fst = first :: rest)
    (hone : OnePerSource (first :: rest)) :
    (r.resolve device capability pinned environment).verdict =
      verdictOf (selectWinner first rest).record
        (classifyContradiction (selectWinner first rest) (first :: rest))
        (r.gatherQuirks device capability environment) environment := by
  obtain ⟨view, hfind, hprovenance⟩ := find_winner hsort hcur hone
  rw [resolve_of_current hk hcur]
  simp only [resolveCurrent, answerBase, ResolvedCapability.verdict, verdictOf,
    classifyTruth_of_find hfind, hprovenance]

end Impl

section Sorted
variable {a b : EvidenceView}

/-- The comparator on views of one staleness, as an ordering. -/
def currentOrder : EvidenceView → EvidenceView → Ordering :=
  compareLex (fun a b => compare b.winner a.winner) <|
    compareLex (fun a b => compare b.capabilityGeneration a.capabilityGeneration) <|
      compareLex (fun a b => compare b.source.authority a.source.authority) <|
        compareLex (compareOn fun view => view.source.publisher.id)
          (fun a b => compare b.source.observationSequence a.source.observationSequence)

instance : Std.TransCmp currentOrder := by
  have h1 := transCmp_swap EvidenceView.winner
  have h2 := transCmp_swap EvidenceView.capabilityGeneration
  have h3 := transCmp_swap fun view : EvidenceView => view.source.authority
  have h4 := transCmp_swap fun view : EvidenceView => view.source.observationSequence
  exact inferInstanceAs (Std.TransCmp (compareLex _ (compareLex _ (compareLex _ (compareLex _ _)))))

/-- One rung of the comparator: it decides on a field, or passes on to the next one. -/
theorem rung {α : Type} [DecidableEq α] {x y : α} {d e : Bool} {c o : Ordering}
    (hc : c = .eq ↔ x = y) (hd : x ≠ y → d = (c == .lt)) (he : e = (o == .lt)) :
    (if x != y then d else e) = (c.then o == .lt) := by
  by_cases hxy : x = y
  · rw [hc.mpr hxy, if_neg (by simp [hxy]), he]
    rfl
  · rw [if_pos (by simp [hxy]), hd hxy]
    cases c with
    | eq => exact (hxy (hc.mp rfl)).elim
    | _ => rfl

theorem compare_swap_eq_iff {α : Type} [Ord α] [Std.LawfulEqOrd α] {x y : α} :
    compare y x = .eq ↔ x = y := Std.LawfulEqOrd.compare_eq_iff_eq.trans eq_comm

/-- Between views of one staleness the comparator is a lexicographic order. -/
theorem evidenceOrdering_eq_currentOrder (h : a.staleness = b.staleness) :
    evidenceOrdering a b = (currentOrder a b == .lt) := by
  simp only [evidenceOrdering, h, bne_self_eq_false, Bool.false_eq_true, if_false, currentOrder,
    compareLex, compareOn]
  refine rung compare_swap_eq_iff (fun hne => ?_) ?_
  · cases ha : a.winner <;> cases hb : b.winner <;> simp_all; rfl
  refine rung compare_swap_eq_iff (fun _ => ?_) ?_
  · rw [Bool.eq_iff_iff, decide_eq_true_iff, beq_iff_eq, Gen.lt_def]
    exact compareOfLessAndEq_eq_lt.symm
  refine rung compare_swap_eq_iff (fun _ => ?_) ?_
  · rw [Bool.eq_iff_iff, decide_eq_true_iff, beq_iff_eq]
    exact compare_lt_iff_lt.symm
  refine rung Std.LawfulEqOrd.compare_eq_iff_eq (fun _ => rfl) ?_
  rw [Bool.eq_iff_iff, decide_eq_true_iff, beq_iff_eq]
  exact compareOfLessAndEq_eq_lt.symm

end Sorted

/-- A library whose sort puts the current views first, in the order of the comparator. -/
@[reducible] def StdLib.currentSorted : StdLib :=
  { StdLib.reference with
    sortEvidence := fun views =>
      SortLib.sortWith currentOrder (views.filter fun view => !isStale view.staleness) ++
        views.filter fun view => isStale view.staleness
    sortEvidence_perm := fun views => by
      have h := List.filter_append_perm (fun view => !isStale view.staleness) views
      have hsort := SortLib.sortWith_perm currentOrder
        (views.filter fun view => !isStale view.staleness)
      refine (hsort.append_right _).trans ?_
      simpa using h }

theorem currentSorted_currentSorted : @CurrentSorted StdLib.currentSorted := by
  intro views
  refine List.pairwise_append.mpr ⟨?_, ?_, ?_⟩
  · refine (SortLib.sortWith_pairwise currentOrder _).imp_of_mem fun {a b} ha hb hab _ => ?_
    rw [SortLib.mem_sortWith] at ha hb
    have hsa : a.staleness = .none := by simpa [isStale] using (List.mem_filter.mp ha).2
    have hsb : b.staleness = .none := by simpa [isStale] using (List.mem_filter.mp hb).2
    rw [evidenceOrdering_eq_currentOrder (hsb.trans hsa.symm), beq_eq_false_iff_ne]
    intro hlt
    exact hab (Std.OrientedCmp.gt_of_lt hlt)
  · refine List.pairwise_iff_forall_sublist.mpr fun {a b} hab hs => ?_
    have hb := (List.mem_filter.mp (hab.subset (List.mem_cons_of_mem _ List.mem_cons_self))).2
    simp [hs] at hb
  · intro a _ b hb hs
    have hb := (List.mem_filter.mp hb).2
    simp [hs] at hb

end CapabilityRegistry
