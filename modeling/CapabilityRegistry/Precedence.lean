import CapabilityRegistry.Declarations
import CapabilityRegistry.Winners

/-! The precedence of quirks over declared support, and what the bound on gathered quirks does to
it. -/
namespace CapabilityRegistry

namespace Impl
variable {r : Impl} {device : DeviceState} {capability : CapabilityId} {pinned : DeviceGeneration}
  {environment : EnvironmentContext}

/-- A stored quirk that is not withdrawn, impacts the capability and applies to the device has one
of these severities. -/
def Afflicts (r : Impl) (device : DeviceState) (capability : CapabilityId)
    (environment : EnvironmentContext) (severities : List QuirkSeverity) : Prop :=
  ∃ (id : QuirkId) (quirk : QuirkRecord), r.quirks[id]? = some quirk ∧ quirk.withdrawn = false ∧
    capability ∈ quirk.impactedCapabilities ∧
    (evaluateQuirk quirk device.identity device.software environment).result = .applies ∧
    quirk.severity ∈ severities

/-- The most severe applicable quirk decides on the effective support. -/
structure Precedence (r : Impl) (device : DeviceState) (capability : CapabilityId)
    (environment : EnvironmentContext) (effective : EffectiveSupport) : Prop where
  blocked : effective = .blockedByQuirk ↔
    r.Afflicts device capability environment [.unusable, .fatal]
  caveat : effective = .supportedWithCaveat ↔
    ¬ r.Afflicts device capability environment [.unusable, .fatal] ∧
      r.Afflicts device capability environment [.caveat, .degraded]
  supported : effective = .supported ↔
    ¬ r.Afflicts device capability environment [.unusable, .fatal] ∧
      ¬ r.Afflicts device capability environment [.caveat, .degraded]

/-- What a quirk does to the capability of the device, if it may apply there at all. -/
def matchQuirk (device : DeviceState) (capability : CapabilityId) (environment : EnvironmentContext)
    (quirk : QuirkRecord) : Option QuirkApplication :=
  if quirk.withdrawn || !quirk.impactedCapabilities.contains capability then none
  else if (evaluateQuirk quirk device.identity device.software environment).result == .doesNotApply
  then none
  else some (evaluateQuirk quirk device.identity device.software environment)

/-- The quirks that may apply, in the order of their identifiers. -/
def matchingQuirks (r : Impl) (device : DeviceState) (capability : CapabilityId)
    (environment : EnvironmentContext) : List QuirkApplication :=
  (r.quirks.toList.map Prod.snd).filterMap (matchQuirk device capability environment)

/-- The first of the quirks include one as severe as any of them. -/
structure SevereEarly (bound : Nat) (quirks : List QuirkApplication) : Prop where
  blocks : quirks.any quirkBlocks = true → (quirks.take bound).any quirkBlocks = true
  caveats : quirks.any quirkBlocks = false → quirks.any quirkCaveats = true →
    (quirks.take bound).any quirkCaveats = true

section Gathering
variable {limit : Nat} {quirk : QuirkRecord} {quirks : List QuirkRecord}
  {applications deferred : List QuirkApplication} {severities : List QuirkSeverity}

theorem gatherQuirksLoop_skip (h : matchQuirk device capability environment quirk = none) :
    gatherQuirksLoop device capability environment limit (quirk :: quirks) applications deferred =
      gatherQuirksLoop device capability environment limit quirks applications deferred := by
  unfold matchQuirk at h
  rw [gatherQuirksLoop]
  split at h
  · next hskip => rw [if_pos hskip]
  · next hskip =>
    split at h
    · next hnot => simp only [if_neg hskip, hnot, if_true]
    · cases h

theorem gatherQuirksLoop_take {application : QuirkApplication}
    (h : matchQuirk device capability environment quirk = some application) :
    ∃ applications' deferred' : List QuirkApplication,
      (applications' ++ deferred').Perm (applications ++ deferred ++ [application]) ∧
      gatherQuirksLoop device capability environment limit (quirk :: quirks) applications deferred =
        if applications'.length + deferred'.length ≥ limit then (applications', deferred')
        else
          gatherQuirksLoop device capability environment limit quirks applications' deferred' := by
  unfold matchQuirk at h
  split at h
  · cases h
  next hskip =>
  split at h
  · cases h
  next hnot =>
  have heq := Option.some.inj h
  rw [gatherQuirksLoop, if_neg hskip]
  rw [heq] at hnot ⊢
  by_cases hunknown : (application.result == .unknown) = true
  · refine ⟨applications, deferred ++ [application], .of_eq (List.append_assoc ..).symm, ?_⟩
    simp only [if_neg hnot, if_pos hunknown]
  · refine ⟨applications ++ [application], deferred, ?_, ?_⟩
    · simpa using (List.perm_append_singleton application deferred).symm.append_left applications
    · simp only [if_neg hnot, if_neg hunknown]

/-- The scan gathers the first quirks that match: as many as the bound has room for, and at least
one. -/
theorem gatherQuirksLoop_perm :
    ((gatherQuirksLoop device capability environment limit quirks applications deferred).1 ++
        (gatherQuirksLoop device capability environment limit quirks applications deferred).2).Perm
      (applications ++ deferred ++
        (quirks.filterMap (matchQuirk device capability environment)).take
          (max 1 (limit - (applications.length + deferred.length)))) := by
  induction quirks generalizing applications deferred with
  | nil => simp [gatherQuirksLoop]
  | cons quirk rest ih =>
    cases hm : matchQuirk device capability environment quirk with
    | none =>
      rw [gatherQuirksLoop_skip hm, List.filterMap_cons_none hm]
      exact ih
    | some application =>
      obtain ⟨applications', deferred', hperm, hstep⟩ := gatherQuirksLoop_take hm
      have hlength := hperm.length_eq
      simp only [List.length_append, List.length_singleton] at hlength
      rw [hstep, List.filterMap_cons_some hm]
      split
      · next hfull =>
        have hone : max 1 (limit - (applications.length + deferred.length)) = 1 := by omega
        rw [hone, List.take_succ_cons, List.take_zero]
        exact hperm
      · next hroom =>
        have hmore : max 1 (limit - (applications.length + deferred.length)) =
            max 1 (limit - (applications'.length + deferred'.length)) + 1 := by omega
        rw [hmore, List.take_succ_cons]
        refine ih.trans ((hperm.append_right _).trans (.of_eq ?_))
        simp

theorem gatherQuirks_perm : (r.gatherQuirks device capability environment).Perm
    ((r.matchingQuirks device capability environment).take (max 1 r.limits.maxQueryResults)) := by
  unfold gatherQuirks
  refine ((SortLib.sortWith_perm ..).append (SortLib.sortWith_perm ..)).trans ?_
  exact gatherQuirksLoop_perm

theorem any_gathered (p : QuirkApplication → Bool) :
    (r.gatherQuirks device capability environment).any p =
      ((r.matchingQuirks device capability environment).take
        (max 1 r.limits.maxQueryResults)).any p := by
  rw [Bool.eq_iff_iff, List.any_eq_true, List.any_eq_true]
  simp only [gatherQuirks_perm.mem_iff]

theorem matchQuirk_eq_some {application : QuirkApplication} :
    matchQuirk device capability environment quirk = some application ↔
      quirk.withdrawn = false ∧ capability ∈ quirk.impactedCapabilities ∧
        (evaluateQuirk quirk device.identity device.software environment).result ≠ .doesNotApply ∧
        evaluateQuirk quirk device.identity device.software environment = application := by
  unfold matchQuirk
  split
  · next hskip =>
    refine iff_of_false nofun ?_
    rintro ⟨hw, hc, -⟩
    simp [hw, hc] at hskip
  · next hskip =>
    split <;> simp_all

theorem afflicts_iff : r.Afflicts device capability environment severities ↔
    ∃ a ∈ r.matchingQuirks device capability environment,
      a.result = .applies ∧ a.severity ∈ severities := by
  simp only [matchingQuirks, List.mem_filterMap, List.mem_map, Prod.exists, exists_eq_right,
    OrdMap.mem_toList, matchQuirk_eq_some]
  constructor
  · rintro ⟨id, quirk, hq, hw, hc, hr, hs⟩
    refine ⟨_, ⟨quirk, ⟨id, hq⟩, hw, hc, ?_, rfl⟩, hr, hs⟩
    simp [hr]
  · rintro ⟨-, ⟨quirk, ⟨id, hq⟩, hw, hc, -, rfl⟩, hr, hs⟩
    exact ⟨id, quirk, hq, hw, hc, hr, hs⟩

theorem blocks_iff : r.Afflicts device capability environment [.unusable, .fatal] ↔
    (r.matchingQuirks device capability environment).any quirkBlocks = true := by
  simp [afflicts_iff, quirkBlocks]

theorem caveats_iff : r.Afflicts device capability environment [.caveat, .degraded] ↔
    (r.matchingQuirks device capability environment).any quirkCaveats = true := by
  simp [afflicts_iff, quirkCaveats]

end Gathering

/-- The assertion is one of support. -/
def declaresSupport : SupportState → Bool
  | .disabled | .unsupported | .unknown | .revalidationRequired => false
  | _ => true

/-- Support whose conditions are met is qualified by quirks alone. -/
theorem computeEffectiveSupport_eq {declared : SupportState} {outcome : ConditionOutcome}
    (hdeclared : declaresSupport declared = true) (hunmet : outcome ≠ .unsatisfied)
    (hunknown : outcome ≠ .unknown) (quirks : List QuirkApplication) :
    computeEffectiveSupport declared outcome quirks =
      if quirks.any quirkBlocks then .blockedByQuirk
      else if quirks.any quirkCaveats then .supportedWithCaveat else .supported := by
  unfold computeEffectiveSupport
  split <;> try cases hdeclared
  split
  · exact (hunmet rfl).elim
  · exact (hunknown rfl).elim
  · rfl

/-- The first quirks decide like all of them exactly if they include one of the most severe. -/
theorem precedence_take_iff {bound : Nat} :
    r.Precedence device capability environment
      (if ((r.matchingQuirks device capability environment).take bound).any quirkBlocks then
        .blockedByQuirk
      else if ((r.matchingQuirks device capability environment).take bound).any quirkCaveats then
        .supportedWithCaveat
      else .supported) ↔
      SevereEarly bound (r.matchingQuirks device capability environment) := by
  have hsub : ∀ p, ((r.matchingQuirks device capability environment).take bound).any p = true →
      (r.matchingQuirks device capability environment).any p = true := by
    intro p hp
    obtain ⟨a, ha, hpa⟩ := List.any_eq_true.mp hp
    exact List.any_eq_true.mpr ⟨a, List.mem_of_mem_take ha, hpa⟩
  constructor
  · rintro ⟨hblocked, hcaveat, -⟩
    rw [blocks_iff] at hblocked hcaveat
    rw [caveats_iff] at hcaveat
    refine ⟨fun hall => ?_, fun hnone hall => ?_⟩
    · by_contra hearly
      have heffective := hblocked.mpr hall
      rw [if_neg hearly] at heffective
      split at heffective <;> cases heffective
    · by_contra hearly
      have heffective := hcaveat.mpr ⟨by simp [hnone], hall⟩
      rw [if_neg hearly] at heffective
      split at heffective <;> cases heffective
  · rintro ⟨hblocks, hcaveats⟩
    have hsame : ((r.matchingQuirks device capability environment).take bound).any quirkBlocks =
        (r.matchingQuirks device capability environment).any quirkBlocks :=
      Bool.eq_iff_iff.mpr ⟨hsub _, hblocks⟩
    rw [hsame]
    cases hall : (r.matchingQuirks device capability environment).any quirkBlocks with
    | true => constructor <;> simp [blocks_iff, hall]
    | false =>
      have hsame' : ((r.matchingQuirks device capability environment).take bound).any
          quirkCaveats = (r.matchingQuirks device capability environment).any quirkCaveats :=
        Bool.eq_iff_iff.mpr ⟨hsub _, hcaveats hall⟩
      rw [hsame']
      cases hsome : (r.matchingQuirks device capability environment).any quirkCaveats <;>
        constructor <;> simp [blocks_iff, caveats_iff, hall, hsome]

/-- An answer without current evidence is none of the three. -/
theorem not_precedence_revalidationRequired :
    ¬ r.Precedence device capability environment .revalidationRequired := by
  rintro ⟨hblocked, hcaveat, hsupported⟩
  by_cases hb : r.Afflicts device capability environment [.unusable, .fatal]
  · cases hblocked.mpr hb
  · by_cases hc : r.Afflicts device capability environment [.caveat, .degraded]
    · cases hcaveat.mpr ⟨hb, hc⟩
    · cases hsupported.mpr ⟨hb, hc⟩

variable [StdLib]

/-- Without current evidence there is nothing to support, or it has to be revalidated. -/
theorem resolve_of_stale (h : r.currentRecords device capability pinned = []) :
    (r.resolve device capability pinned environment).declaredSupport = .unknown ∨
      (r.resolve device capability pinned environment).effectiveSupport =
        .revalidationRequired := by
  cases hk : r.keys[KeyId.mk device.identity.id capability]? with
  | none =>
    left
    simp only [resolve, hk]
  | some key =>
    right
    rw [currentRecords_of_key hk] at h
    simp only [resolve, hk, h, resolveStale]

theorem precedence_of_current_iff (hcur : r.currentRecords device capability pinned ≠ [])
    (hdeclared : declaresSupport (r.resolve device capability pinned environment).declaredSupport)
    (hunmet : (r.resolve device capability pinned environment).conditionOutcome ≠ .unsatisfied)
    (hunknown : (r.resolve device capability pinned environment).conditionOutcome ≠ .unknown) :
    r.Precedence device capability environment
        (r.resolve device capability pinned environment).effectiveSupport ↔
      SevereEarly (max 1 r.limits.maxQueryResults)
        (r.matchingQuirks device capability environment) := by
  obtain ⟨w, hw⟩ := exists_declares hcur
  obtain ⟨key, first, rest, -, -, rfl, hresolve⟩ := resolve_of_declares hw
  rw [hresolve] at hdeclared hunmet hunknown ⊢
  simp only [resolveCurrent, answerBase] at hdeclared hunmet hunknown ⊢
  rw [computeEffectiveSupport_eq hdeclared hunmet hunknown, any_gathered, any_gathered,
    precedence_take_iff]

/-- Quirks take precedence as documented exactly on current evidence, and while the gathered quirks
include one of the most severe. -/
theorem precedence_iff
    (hdeclared : declaresSupport (r.resolve device capability pinned environment).declaredSupport)
    (hunmet : (r.resolve device capability pinned environment).conditionOutcome ≠ .unsatisfied)
    (hunknown : (r.resolve device capability pinned environment).conditionOutcome ≠ .unknown) :
    r.Precedence device capability environment
        (r.resolve device capability pinned environment).effectiveSupport ↔
      r.currentRecords device capability pinned ≠ [] ∧
        SevereEarly (max 1 r.limits.maxQueryResults)
          (r.matchingQuirks device capability environment) := by
  by_cases hcur : r.currentRecords device capability pinned = []
  · refine iff_of_false ?_ fun h => h.1 hcur
    rcases resolve_of_stale hcur with hnone | hstale
    · rw [hnone] at hdeclared
      cases hdeclared
    · rw [hstale]
      exact not_precedence_revalidationRequired
  · rw [precedence_of_current_iff hcur hdeclared hunmet hunknown]
    exact (and_iff_right hcur).symm

end Impl

namespace Sample

/-- A second quirk of the same capability, which changes nothing. -/
def notice (sequence : UInt64) : Publication :=
  let publication := quirkPublication .publishQuirk sequence
  { publication with
    quirk := { publication.quirk with id := Id.parse "quirk.0", severity := .informational } }

/-- Live evidence, and a fatal quirk beside one that is for information only. -/
def afflicted : List Op :=
  setup ++ [.apply now (evidence 2 capability),
    .apply now (quirkPublication .publishQuirk 3), .apply now (notice 4)]

end Sample

namespace Impl

theorem precedence_afflicted :
    letI := StdLib.reference
    let r := (Impl.fresh {}).run Sample.afflicted
    let device := createDevice Sample.device
    let capability := Id.parse "cap.compute.fp64"
    r.Precedence device capability {} (r.resolve device capability default {}).effectiveSupport ↔
      r.currentRecords device capability default ≠ [] ∧
        SevereEarly (max 1 r.limits.maxQueryResults) (r.matchingQuirks device capability {}) := by
  let := StdLib.reference
  obtain ⟨hdeclared, hunmet, hunknown⟩ :
      let v := ((Impl.fresh {}).run Sample.afflicted).resolve (createDevice Sample.device)
        (Id.parse "cap.compute.fp64") default {}
      declaresSupport v.declaredSupport ∧ v.conditionOutcome ≠ .unsatisfied ∧
        v.conditionOutcome ≠ .unknown := by
    rw [Impl.fresh_eq]
    decide +kernel
  exact precedence_iff hdeclared hunmet hunknown

/-- Gathering one quirk only, the resolution overlooks the fatal one. -/
theorem fatal_quirk_is_overlooked :
    letI := StdLib.reference
    ¬ ∀ (limits : RegistryLimits) (r : Impl) (device : DeviceState) (capability : CapabilityId)
      (pinned : DeviceGeneration) (environment : EnvironmentContext), Reachable limits r →
      r.devices[device.identity.id]? = some device →
      declaresSupport (r.resolve device capability pinned environment).declaredSupport = true →
      (r.resolve device capability pinned environment).conditionOutcome ≠ .unsatisfied →
      (r.resolve device capability pinned environment).conditionOutcome ≠ .unknown →
      r.Precedence device capability environment
        (r.resolve device capability pinned environment).effectiveSupport := by
  let := StdLib.reference
  intro h
  obtain ⟨hdevice, hcurrent, hdeclared, hunmet, hunknown, hall, hfirst⟩ :
      ((Impl.fresh { maxQueryResults := 1 }).run Sample.afflicted).devices[
        (createDevice Sample.device).identity.id]? = some (createDevice Sample.device) ∧
      (((Impl.fresh { maxQueryResults := 1 }).run Sample.afflicted).currentRecords
        (createDevice Sample.device) (Id.parse "cap.compute.fp64") default).isEmpty = false ∧
      declaresSupport (((Impl.fresh { maxQueryResults := 1 }).run Sample.afflicted).resolve
        (createDevice Sample.device) (Id.parse "cap.compute.fp64") default {}).declaredSupport ∧
      (((Impl.fresh { maxQueryResults := 1 }).run Sample.afflicted).resolve
        (createDevice Sample.device) (Id.parse "cap.compute.fp64") default {}).conditionOutcome ≠
          .unsatisfied ∧
      (((Impl.fresh { maxQueryResults := 1 }).run Sample.afflicted).resolve
        (createDevice Sample.device) (Id.parse "cap.compute.fp64") default {}).conditionOutcome ≠
          .unknown ∧
      (((Impl.fresh { maxQueryResults := 1 }).run Sample.afflicted).matchingQuirks
        (createDevice Sample.device) (Id.parse "cap.compute.fp64") {}).any quirkBlocks = true ∧
      ((((Impl.fresh { maxQueryResults := 1 }).run Sample.afflicted).matchingQuirks
        (createDevice Sample.device) (Id.parse "cap.compute.fp64") {}).take (max 1
          ((Impl.fresh { maxQueryResults := 1 }).run Sample.afflicted).limits.maxQueryResults)).any
            quirkBlocks = false := by
    rw [Impl.fresh_eq]
    decide +kernel
  have hlaw := h { maxQueryResults := 1 } _ _ _ default {} ⟨_, rfl⟩ hdevice hdeclared hunmet
    hunknown
  rw [precedence_of_current_iff (List.isEmpty_eq_false_iff.mp hcurrent) hdeclared hunmet hunknown]
    at hlaw
  rw [hlaw.blocks hall] at hfirst
  cases hfirst

end Impl

end CapabilityRegistry
