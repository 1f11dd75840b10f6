import CapabilityRegistry.Listings
import CapabilityRegistry.Values

/-! Comparing two devices: what a comparison lists, its mirror image, and when answers that agree
are reported as equivalent. -/
namespace CapabilityRegistry

section Differences
variable {left right : ResolvedCapability}

/-- Two answers agree in every respect a comparison looks at. -/
structure ResolvedCapability.Agrees (left right : ResolvedCapability) : Prop where
  effectiveSupport : left.effectiveSupport = right.effectiveSupport
  declaredSupport : left.declaredSupport = right.declaredSupport
  value : left.value.beq right.value = true
  conditions : describeCondition left.conditions = describeCondition right.conditions
  truth : left.truth = right.truth
  contradiction : left.contradiction = right.contradiction
  precision : left.precision = right.precision
  staleness : left.staleness = right.staleness

theorem ResolvedCapability.agrees_self (view : ResolvedCapability) : view.Agrees view :=
  ⟨rfl, rfl, view.value.beq_self, rfl, rfl, rfl, rfl, rfl⟩

theorem not_stale {flags : StalenessFlag} : isStale flags = false ↔ flags = .none := by
  simp [isStale]

/-- Agreement is found equivalent unless a side is stale, and nothing else is. -/
theorem firstDifference_equivalent_iff : (firstDifference left right).1 = .equivalent ↔
    left.Agrees right ∧ isStale left.staleness = false := by
  constructor
  · intro h
    unfold firstDifference at h
    dsimp only at h
    split_ifs at h with he hd hv hc ht hx hp hs
    simp only [bne_iff_ne, ne_eq, not_not] at he hd hc ht hx hp
    simp only [Bool.or_eq_true, not_or, Bool.not_eq_true] at hs
    have hsame := (not_stale.mp hs.1).trans (not_stale.mp hs.2).symm
    exact ⟨⟨he, hd, by simpa using hv, hc, ht, hx, hp, hsame⟩, hs.1⟩
  · rintro ⟨h, hs⟩
    have hs' : isStale right.staleness = false := h.staleness ▸ hs
    simp [firstDifference, h.effectiveSupport, h.declaredSupport, h.value, h.conditions, h.truth,
      h.contradiction, h.precision, hs, hs']

/-- Attributing a difference to an axis makes no difference of an equivalence, and keeps every
other one a difference. -/
theorem attributeDifference_equivalent_iff (difference : CapabilityDifferenceKind × Text) :
    (attributeDifference left right difference).1 = .equivalent ↔
      difference.1 = .equivalent := by
  by_cases hd : difference.1 = .equivalent
  · simp [attributeDifference, hd]
  · refine iff_of_false (fun h => ?_) hd
    unfold attributeDifference at h
    dsimp only at h
    split_ifs at h <;> exact hd h

/-- A detail that names the two sides in one order, and the detail that names them in the other. -/
inductive MirroredDetail : Text → Text → Prop
  | same (detail : Text) : MirroredDetail detail detail
  | versus (a b note : Text) :
      MirroredDetail (a ++ " vs " ++ b ++ note) (b ++ " vs " ++ a ++ note)

theorem MirroredDetail.append {a b : Text} (h : MirroredDetail a b) (note : Text) :
    MirroredDetail (a ++ note) (b ++ note) := by
  cases h with
  | same => exact .same _
  | versus x y first =>
    rw [List.append_assoc _ first note, List.append_assoc _ first note]
    exact .versus x y (first ++ note)

theorem mirroredDetail_versus (a b : Text) :
    MirroredDetail (a ++ " vs " ++ b) (b ++ " vs " ++ a) := by
  have h := MirroredDetail.versus a b []
  rwa [List.append_nil, List.append_nil] at h

/-- Found from the other side, the first difference is of the same kind. -/
theorem firstDifference_swap (left right : ResolvedCapability) :
    (firstDifference right left).1 = (firstDifference left right).1 ∧
      MirroredDetail (firstDifference left right).2 (firstDifference right left).2 := by
  unfold firstDifference
  dsimp only
  rw [bne_comm (a := right.effectiveSupport), bne_comm (a := right.declaredSupport),
    CapabilityValue.beq_comm right.value, bne_comm (a := describeCondition right.conditions),
    bne_comm (a := right.truth), bne_comm (a := right.contradiction),
    bne_comm (a := right.precision), Bool.or_comm (isStale right.staleness)]
  split_ifs
  all_goals first
    | exact ⟨rfl, mirroredDetail_versus _ _⟩
    | exact ⟨rfl, .same _⟩

theorem attributeDifference_swap {difference mirrored : CapabilityDifferenceKind × Text}
    (hk : mirrored.1 = difference.1) (hd : MirroredDetail difference.2 mirrored.2) :
    (attributeDifference right left mirrored).1 = (attributeDifference left right difference).1 ∧
      MirroredDetail (attributeDifference left right difference).2
        (attributeDifference right left mirrored).2 := by
  have hgated : ∀ axis, (viewGateAxis right axis || viewGateAxis left axis) =
      (viewGateAxis left axis || viewGateAxis right axis) := fun _ => Bool.or_comm _ _
  have hdeclared : (right.declaredSupport != left.declaredSupport) =
      (left.declaredSupport != right.declaredSupport) := bne_comm
  simp only [attributeDifference, hk, hgated, hdeclared]
  split_ifs
  · exact ⟨rfl, hd.append _⟩
  · exact ⟨rfl, hd.append _⟩
  · exact ⟨rfl, hd.append _⟩
  · exact ⟨hk, hd⟩
  · exact ⟨hk, hd⟩

end Differences

section Entries
variable {α β : Type}

/-- A loop that keeps every result keeps those of a first part of its container. -/
theorem collect_every (limit : Nat) (f : α → β) (xs : List α) (out : List β) :
    collect limit (fun x => some (f x)) xs out =
      out ++ (xs.take (max 1 (limit - out.length))).map f := by
  induction xs generalizing out with
  | nil => simp [collect]
  | cons x xs ih =>
    rw [collect]
    dsimp only
    split
    · next hfull =>
      rw [Nat.max_eq_left (by omega)]
      rfl
    · next hroom =>
      have hleft : limit - out.length = (limit - (out.length + 1)) + 1 := by omega
      have hmore : max 1 (limit - (out.length + 1)) = limit - (out.length + 1) := by omega
      rw [ih, List.length_append, List.length_singleton, List.append_assoc, hmore,
        Nat.max_eq_right (by omega), hleft, List.take_succ_cons]
      rfl

instance : Std.TransCmp differenceOrder :=
  inferInstanceAs (Std.TransCmp (compareLex (compareOn CapabilityDifference.capability)
    (compareOn fun difference => CodeEnum.code difference.kind)))

theorem compared_insert (c : CapabilityId) (xs : List CapabilityId)
    (compared : Std.ExtTreeSet CapabilityId) :
    c ∈ xs.foldl (fun compared capability => compared.insert capability) compared ↔
      c ∈ xs ∨ c ∈ compared := by
  induction xs generalizing compared with
  | nil => simp
  | cons x xs ih =>
    rw [List.foldl_cons, ih, Std.ExtTreeSet.mem_insert, Std.LawfulEqOrd.compare_eq_iff_eq,
      List.mem_cons, eq_comm (a := x)]
    tauto

end Entries

/-- The request with its sides exchanged. -/
def ComparisonRequest.swap (request : ComparisonRequest) : ComparisonRequest :=
  { left := request.right
    right := request.left
    leftGeneration := request.rightGeneration
    rightGeneration := request.leftGeneration
    environment := request.environment }

def CapabilityDifferenceKind.mirror : CapabilityDifferenceKind → CapabilityDifferenceKind
  | .onlyInLeft => .onlyInRight
  | .onlyInRight => .onlyInLeft
  | kind => kind

theorem kind_firstDifference_mirror (left right : ResolvedCapability) :
    (attributeDifference left right (firstDifference left right)).1.mirror =
      (attributeDifference left right (firstDifference left right)).1 := by
  have hfirst : (firstDifference left right).1.mirror = (firstDifference left right).1 := by
    unfold firstDifference
    dsimp only
    split_ifs <;> rfl
  unfold attributeDifference
  dsimp only
  split_ifs
  · rfl
  · rfl
  · rfl
  · exact hfirst
  · exact hfirst

structure CapabilityDifference.Mirrors (difference mirrored : CapabilityDifference) : Prop where
  capability : mirrored.capability = difference.capability
  kind : mirrored.kind = difference.kind.mirror
  leftEffective : mirrored.leftEffective = difference.rightEffective
  rightEffective : mirrored.rightEffective = difference.leftEffective
  detail : MirroredDetail difference.detail mirrored.detail

theorem mirror_eq_equivalent {kind : CapabilityDifferenceKind} :
    kind.mirror = .equivalent ↔ kind = .equivalent := by
  cases kind <;> simp [CapabilityDifferenceKind.mirror]

/-- Mirrored entries list the same capabilities as equivalent. -/
theorem equivalents_of_mirrors {differences mirrored : List CapabilityDifference}
    (h : List.Forall₂ CapabilityDifference.Mirrors differences mirrored) :
    (mirrored.filter fun d => d.kind == .equivalent).map CapabilityDifference.capability =
      (differences.filter fun d => d.kind == .equivalent).map CapabilityDifference.capability := by
  induction h with
  | nil => rfl
  | cons hm _ ih =>
    simp only [List.filter_cons, hm.kind, beq_iff_eq, mirror_eq_equivalent]
    split_ifs
    · rw [List.map_cons, List.map_cons, hm.capability, ih]
    · exact ih

namespace DeviceComparison

structure Mirrors (comparison mirrored : DeviceComparison) : Prop where
  left : mirrored.left = comparison.right
  right : mirrored.right = comparison.left
  leftGeneration : mirrored.leftGeneration = comparison.rightGeneration
  rightGeneration : mirrored.rightGeneration = comparison.leftGeneration
  leftSoftware : mirrored.leftSoftware = comparison.rightSoftware
  rightSoftware : mirrored.rightSoftware = comparison.leftSoftware
  differences : List.Forall₂ CapabilityDifference.Mirrors comparison.differences
    mirrored.differences
  equivalent : mirrored.equivalent = comparison.equivalent
  explanation : mirrored.explanation = comparison.explanation

/-- The comparison reports the capability as equivalent. -/
def ReportsEquivalent (comparison : DeviceComparison) (capability : CapabilityId) : Prop :=
  ∃ difference ∈ comparison.differences,
    difference.capability = capability ∧ difference.kind = .equivalent

end DeviceComparison

namespace Impl
variable [StdLib] {r : Impl} {limits : RegistryLimits} {request : ComparisonRequest}
  {left right : DeviceState} {comparison : DeviceComparison}

section Swapping

omit [StdLib] in
theorem mem_comparedCapabilities (capability : CapabilityId) :
    capability ∈ r.comparedCapabilities request ↔
      capability ∈ r.ownedCapabilities request.left ∨
        capability ∈ r.ownedCapabilities request.right := by
  rw [comparedCapabilities, compared_insert, List.mem_append]
  simp

omit [StdLib] in
/-- The same capabilities are compared from either side. -/
theorem comparedCapabilities_swap :
    r.comparedCapabilities request.swap = r.comparedCapabilities request := by
  refine Std.ExtTreeSet.ext_mem fun capability => ?_
  rw [mem_comparedCapabilities, mem_comparedCapabilities]
  exact or_comm

/-- One capability compared from the other side is compared the same way. -/
theorem compareCapability_swap (r : Impl) (request : ComparisonRequest) (left right : DeviceState)
    (capability : CapabilityId) :
    (r.compareCapability request left right capability).Mirrors
      (r.compareCapability request.swap right left capability) := by
  obtain ⟨hk, hd⟩ := firstDifference_swap
    (r.resolve left capability request.leftGeneration request.environment)
    (r.resolve right capability request.rightGeneration request.environment)
  obtain ⟨hkind, hdetail⟩ := attributeDifference_swap hk hd
  have hviews := hkind.trans (kind_firstDifference_mirror _ _).symm
  unfold compareCapability
  cases hl : r.keys.contains (KeyId.mk request.left capability) <;>
    cases hr : r.keys.contains (KeyId.mk request.right capability) <;>
    simp only [ComparisonRequest.swap, hl, hr, Bool.not_true, Bool.not_false, Bool.and_true,
      Bool.and_false, if_true, if_false, Bool.false_eq_true]
  · exact ⟨rfl, hviews, rfl, rfl, hdetail⟩
  · exact ⟨rfl, rfl, rfl, rfl, .same _⟩
  · exact ⟨rfl, rfl, rfl, rfl, .same _⟩
  · exact ⟨rfl, hviews, rfl, rfl, hdetail⟩

end Swapping

section Reports

/-- The comparison as it is before its bound is looked at: one entry for a compared capability. -/
def differencesOf (r : Impl) (request : ComparisonRequest) (left right : DeviceState) :
    List CapabilityDifference :=
  ((r.comparedCapabilities request).toList.take (max 1 r.limits.maxComparisonEntries)).map
    (r.compareCapability request left right)

theorem compareCapability_capability (r : Impl) (request : ComparisonRequest)
    (left right : DeviceState) (capability : CapabilityId) :
    (r.compareCapability request left right capability).capability = capability := by
  unfold compareCapability
  dsimp only
  split_ifs <;> rfl

omit [StdLib] in
theorem ordered_comparedCapabilities : ((r.comparedCapabilities request).toList.take
    (max 1 r.limits.maxComparisonEntries)).Pairwise fun a b => compare a b = .lt :=
  List.Pairwise.sublist (List.take_sublist _ _) (r.comparedCapabilities request).ordered_toList

/-- The entries come out in the order they are looked up in. -/
theorem sort_differencesOf : SortLib.sortWith differenceOrder (r.differencesOf request left right) =
    r.differencesOf request left right := by
  refine SortLib.sortWith_stable.eq_self (SortLib.sortWith_pairwise _ _) ?_
  refine List.pairwise_map.mpr (ordered_comparedCapabilities.imp fun {a b} hab => ?_)
  simp [differenceOrder, compareCapability_capability, hab]

/-- What a comparison of two registered devices answers. -/
def comparisonOf (r : Impl) (request : ComparisonRequest) (left right : DeviceState) :
    DeviceComparison :=
  { left := request.left
    right := request.right
    leftGeneration := left.generation
    rightGeneration := right.generation
    leftSoftware := describeDriver left.software
    rightSoftware := describeDriver right.software
    differences := r.differencesOf request left right
    equivalent := SortLib.sortWith compare (((r.differencesOf request left right).filter fun d =>
      d.kind == .equivalent).map CapabilityDifference.capability)
    explanation := "comparison is factual: the registry reports differences, never an ordering" }

omit [StdLib] in
theorem findDevice_eq_ok {id : DeviceId} {device : DeviceState} :
    r.findDevice id = .ok device ↔ r.devices[id]? = some device := by
  unfold findDevice
  cases r.devices[id]? <;> simp

theorem compareDevices_eq (hl : request.left.valid = true) (hr : request.right.valid = true)
    (hleft : r.devices[request.left]? = some left)
    (hright : r.devices[request.right]? = some right) :
    r.compareDevices request = .ok (r.comparisonOf request left right) := by
  have hlisted : collect r.limits.maxComparisonEntries
      (fun capability => some (r.compareCapability request left right capability))
      (r.comparedCapabilities request).toList [] = r.differencesOf request left right :=
    collect_every _ _ _ _
  simp only [compareDevices, hl, hr, findDevice_eq_ok.mpr hleft, findDevice_eq_ok.mpr hright]
  change Except.ok _ = _
  rw [hlisted, sort_differencesOf]
  rfl

theorem compareDevices_eq_ok : r.compareDevices request = .ok comparison ↔
    (request.left.valid = true ∧ request.right.valid = true) ∧
      ∃ left right, r.devices[request.left]? = some left ∧
        r.devices[request.right]? = some right ∧
        comparison = r.comparisonOf request left right := by
  constructor
  · intro h
    have hc := h
    simp only [compareDevices, bind_eq_ok, require_eq_ok, Bool.and_eq_true,
      findDevice_eq_ok] at hc
    obtain ⟨-, ⟨hl, hr⟩, left, hleft, right, hright, -⟩ := hc
    rw [compareDevices_eq hl hr hleft hright] at h
    exact ⟨⟨hl, hr⟩, left, right, hleft, hright, (Except.ok.inj h).symm⟩
  · rintro ⟨⟨hl, hr⟩, left, right, hleft, hright, rfl⟩
    exact compareDevices_eq hl hr hleft hright

/-- The comparison from the other side is the mirror image. -/
theorem comparisonOf_swap : (r.comparisonOf request left right).Mirrors
    (r.comparisonOf request.swap right left) := by
  have hentries : List.Forall₂ CapabilityDifference.Mirrors (r.differencesOf request left right)
      (r.differencesOf request.swap right left) := by
    rw [differencesOf, differencesOf, comparedCapabilities_swap, List.forall₂_map_left_iff,
      List.forall₂_map_right_iff]
    exact List.forall₂_same.mpr fun capability _ => compareCapability_swap r request left right _
  exact ⟨rfl, rfl, rfl, rfl, rfl, rfl, hentries, congrArg (SortLib.sortWith compare)
    (equivalents_of_mirrors hentries), rfl⟩

/-- Both devices have knowledge of the capability. -/
def KnownOnBothSides (r : Impl) (request : ComparisonRequest) (capability : CapabilityId) : Prop :=
  (r.keys[KeyId.mk request.left capability]?).isSome = true ∧
    (r.keys[KeyId.mk request.right capability]?).isSome = true

/-- The answers for the two sides of a comparison agree. -/
def SidesAgree (r : Impl) (request : ComparisonRequest) (left right : DeviceState)
    (capability : CapabilityId) : Prop :=
  (r.resolve left capability request.leftGeneration request.environment).Agrees
    (r.resolve right capability request.rightGeneration request.environment)

/-- The comparison has a mirror image, reports as equivalent exactly the capabilities known on both
sides whose answers agree, and finds a device equivalent to itself. -/
structure ComparesFaithfully (r : Impl) (request : ComparisonRequest) (left right : DeviceState)
    (comparison : DeviceComparison) : Prop where
  mirrored : ∃ mirrored, r.compareDevices request.swap = .ok mirrored ∧
    comparison.Mirrors mirrored
  exact : ∀ capability, r.KnownOnBothSides request capability →
    (comparison.ReportsEquivalent capability ↔ r.SidesAgree request left right capability)
  listed : ∀ capability, capability ∈ comparison.equivalent ↔
    comparison.ReportsEquivalent capability
  reflexive : request.left = request.right → request.leftGeneration = request.rightGeneration →
    ∀ capability, r.KnownOnBothSides request capability → comparison.ReportsEquivalent capability

/-- An agreement that a comparison has to report is on current evidence, and is not beyond the
comparison's bound. -/
def AgreesOnCurrentEvidence (r : Impl) (request : ComparisonRequest) (left right : DeviceState) :
    Prop :=
  ∀ capability, r.KnownOnBothSides request capability →
    r.SidesAgree request left right capability →
    r.hasCurrent left request.leftGeneration capability = true ∧
      r.hasCurrent right request.rightGeneration capability = true ∧
      capability ∈ (r.comparedCapabilities request).toList.take
        (max 1 r.limits.maxComparisonEntries)

/-- On a key the answer is stale exactly when there is no current evidence. -/
theorem isStale_resolve {device : DeviceState} {key : KeyState} {capability : CapabilityId}
    (hk : r.keys[KeyId.mk device.identity.id capability]? = some key)
    (pinned : DeviceGeneration) (environment : EnvironmentContext) :
    isStale (r.resolve device capability pinned environment).staleness =
      !r.hasCurrent device pinned capability := by
  by_cases hcur : r.currentRecords device capability pinned = []
  · simp [hasCurrent, hcur, (resolve_stale environment hk hcur).2]
  · simp [hasCurrent, hcur, (resolve_current environment hcur).2, isStale]

/-- What is reported as equivalent: what is compared, agrees and is not stale. -/
theorem reportsEquivalent_iff {capability : CapabilityId}
    (hknown : r.KnownOnBothSides request capability) :
    (r.comparisonOf request left right).ReportsEquivalent capability ↔
      capability ∈ (r.comparedCapabilities request).toList.take
        (max 1 r.limits.maxComparisonEntries) ∧
      r.SidesAgree request left right capability ∧ isStale
        (r.resolve left capability request.leftGeneration request.environment).staleness =
          false := by
  have hentry : (r.compareCapability request left right capability).kind = .equivalent ↔
      r.SidesAgree request left right capability ∧ isStale
        (r.resolve left capability request.leftGeneration request.environment).staleness =
          false := by
    obtain ⟨hl, hr⟩ := hknown
    rw [← Std.ExtTreeMap.contains_eq_isSome_getElem?] at hl hr
    simp only [compareCapability, hl, hr, Bool.not_true, Bool.and_false, Bool.false_and,
      Bool.false_eq_true, if_false]
    rw [attributeDifference_equivalent_iff, firstDifference_equivalent_iff]
    rfl
  rw [← hentry]
  constructor
  · rintro ⟨difference, hm, hc, hkind⟩
    obtain ⟨c, hcompared, rfl⟩ := List.mem_map.mp hm
    rw [compareCapability_capability] at hc
    subst hc
    exact ⟨hcompared, hkind⟩
  · rintro ⟨hcompared, hkind⟩
    exact ⟨_, List.mem_map.mpr ⟨capability, hcompared, rfl⟩, compareCapability_capability _ _ _ _ _,
      hkind⟩

/-- A device with one capability, compared with itself. -/
def selfComparison : ComparisonRequest := { left := Id.parse "dev.a", right := Id.parse "dev.a" }

omit [StdLib] in
/-- A device that is not registered is compared with nothing. -/
example : letI := StdLib.reference
    ((Impl.fresh {}).compareDevices selfComparison).isOk = false := by
  decide +kernel

/-- The only evidence of the device is taken back. -/
def probedAndWithdrawn : List Op := probedDevice ++
  [.apply Sample.now
    { kind := .withdrawCapability
      publisher := Sample.publisher
      sequence := 3
      capability := { Sample.capability with
        support := .unknown
        value := .none
        withdrawn := true } }]

end Reports

end Impl

end CapabilityRegistry
