import CapabilityRegistry.Lib.Kleene
import CapabilityRegistry.Trees
import CapabilityRegistry.Operations

/-! What conditions and quirks decide, and whether learning more keeps it. -/
namespace CapabilityRegistry

section Conditions
variable {env env' : EnvironmentContext} {c : ConditionPtr} {key value : Text}

/-- Every fact of the smaller environment is one of this environment, with the same value. -/
def EnvironmentContext.Extends (env' env : EnvironmentContext) : Prop :=
  ∀ key value, env.find key = some value → env'.find key = some value

/-- An outcome that decides the condition. -/
def ConditionOutcome.decided : ConditionOutcome → Bool
  | .satisfied | .unsatisfied => true
  | .unknown | .notApplicable => false

/-- No feature gate of the condition is absent from the smaller environment and supplied by
the larger one. -/
def ConditionPtr.GatesSettled (env env' : EnvironmentContext) (c : ConditionPtr) : Prop :=
  ∀ key value children, (ConditionPtr.node .requiredFeatureGate key value children).Inside c →
    (env'.find (EnvKeys.kFeatureGatePrefix ++ key)).isSome = true →
      (env.find (EnvKeys.kFeatureGatePrefix ++ key)).isSome = true

theorem EnvironmentContext.Extends.below (h : env'.Extends env) (key : Text) :
    Kleene.Below none (env.find key) (env'.find key) := by
  cases hf : env.find key with
  | none => exact .inl rfl
  | some value => exact .inr (h key value hf).symm

theorem evaluateVersionMinimum_below (h : env'.Extends env) :
    Kleene.Below .unknown (evaluateVersionMinimum env key value)
      (evaluateVersionMinimum env' key value) := by
  unfold evaluateVersionMinimum
  rcases h.below key with hf | hf
  · rw [hf]
    exact .inl rfl
  · rw [hf]
    exact .refl _ _

theorem evaluateGenerationMinimum_below (h : env'.Extends env) :
    Kleene.Below .unknown (evaluateGenerationMinimum env key value)
      (evaluateGenerationMinimum env' key value) := by
  unfold evaluateGenerationMinimum
  rcases h.below key with hf | hf
  · rw [hf]
    exact .inl rfl
  · rw [hf]
    exact .refl _ _

theorem evaluateEquality_below (h : env'.Extends env) :
    Kleene.Below .unknown (evaluateEquality env key value) (evaluateEquality env' key value) := by
  unfold evaluateEquality
  rcases h.below key with hf | hf
  · rw [hf]
    exact .inl rfl
  · rw [hf]
    exact .refl _ _

theorem allOfOutcome_eq (outcomes : List ConditionOutcome) :
    allOfOutcome outcomes = Kleene.dominate .unsatisfied .unknown .satisfied outcomes := by
  simp only [allOfOutcome, Kleene.dominate, List.contains_iff_mem]

theorem anyOfOutcome_eq (outcomes : List ConditionOutcome) :
    anyOfOutcome outcomes = Kleene.dominate .satisfied .unknown .unsatisfied outcomes := by
  simp only [anyOfOutcome, Kleene.dominate, List.contains_iff_mem]

/-- A condition whose gates are settled keeps what it decides. -/
theorem evaluateCondition_below (h : env'.Extends env) (hg : c.GatesSettled env env') :
    Kleene.Below .unknown (evaluateCondition env c) (evaluateCondition env' c) := by
  induction c using ConditionPtr.induct with
  | null => exact .refl _ _
  | node kind key value children ih =>
    have hall (hl : kind.isLogical = true) : List.Forall₂ (Kleene.Below .unknown)
        (evaluateConditions env children) (evaluateConditions env' children) := by
      rw [evaluateConditions_eq, evaluateConditions_eq, List.forall₂_map_left_iff,
        List.forall₂_map_right_iff, List.forall₂_same]
      exact fun child hm => ih child hm fun key value children hi =>
        hg key value children (.child hl hm hi)
    cases kind with
    | always => exact .refl _ _
    | allOf =>
      rw [evaluateCondition, evaluateCondition, allOfOutcome_eq, allOfOutcome_eq]
      exact Kleene.dominate_below (by decide) (hall rfl)
    | anyOf =>
      rw [evaluateCondition, evaluateCondition, anyOfOutcome_eq, anyOfOutcome_eq]
      exact Kleene.dominate_below (by decide) (hall rfl)
    | not =>
      rw [evaluateCondition, evaluateCondition]
      have hc := hall rfl
      generalize evaluateConditions env children = xs at hc ⊢
      generalize evaluateConditions env' children = ys at hc ⊢
      cases hc with
      | nil => exact .refl _ _
      | cons hab _ => exact hab.map rfl
    | requiredFeatureGate =>
      rw [evaluateCondition, evaluateCondition]
      rcases h.below (EnvKeys.kFeatureGatePrefix ++ key) with hf | hf
      · have hf' : (env'.find (EnvKeys.kFeatureGatePrefix ++ key)).isSome = false := by
          by_contra hs
          have := hg key value children (.self _) (Bool.eq_true_of_not_eq_false hs)
          simp [hf] at this
        rw [hf, hf']
        exact .refl _ _
      · rw [hf]
        exact .refl _ _
    | minPlatformGeneration => exact evaluateGenerationMinimum_below h
    | requiredDeviceGeneration => exact evaluateGenerationMinimum_below h
    | minDriverVersion => exact evaluateVersionMinimum_below h
    | minFirmwareVersion => exact evaluateVersionMinimum_below h
    | minRuntimeVersion => exact evaluateVersionMinimum_below h
    | requiredKernelVersion => exact evaluateVersionMinimum_below h
    | _ => exact evaluateEquality_below h

/-- Whatever a condition and the conditions inside it decide is kept by adding facts exactly when
no feature gate among them is supplied by the added facts. -/
theorem decisions_are_kept_iff (h : env'.Extends env) (c : ConditionPtr) :
    (∀ part, part.Inside c → (evaluateCondition env part).decided = true →
      evaluateCondition env' part = evaluateCondition env part) ↔ c.GatesSettled env env' := by
  constructor
  · intro hkept key value children hi hs
    by_contra hn
    have hk := hkept _ hi
    simp only [evaluateCondition, hs, if_true, if_neg hn] at hk
    cases hk rfl
  · intro hg part hi hd
    have hp : part.GatesSettled env env' := by
      intro key value children hin
      exact hg key value children (hin.trans hi)
    exact (evaluateCondition_below h hp).eq fun hu => by simp [hu, ConditionOutcome.decided] at hd

/-- A feature gate without its fact, and the environment that supplies it. -/
def gateCondition : ConditionPtr := .node .requiredFeatureGate "mig" [] []

def gateSupplied : EnvironmentContext :=
  ({} : EnvironmentContext).set (EnvKeys.kFeatureGatePrefix ++ "mig") "present"

theorem extends_empty (env : EnvironmentContext) : env.Extends {} := by
  intro key value hf
  simp [EnvironmentContext.find] at hf

theorem decisions_are_kept_iff_gateCondition :
    (∀ part, part.Inside gateCondition → (evaluateCondition {} part).decided = true →
      evaluateCondition gateSupplied part = evaluateCondition {} part) ↔
      gateCondition.GatesSettled {} gateSupplied :=
  decisions_are_kept_iff (extends_empty gateSupplied) gateCondition

/-- An absent feature gate decides its condition, and supplying the gate turns the decision. -/
theorem absent_gate_decides :
    ¬ ∀ (limits : RegistryLimits) (c : ConditionPtr) (env env' : EnvironmentContext),
      validateCondition c limits = .ok () → env'.Extends env →
      (evaluateCondition env c).decided = true →
      evaluateCondition env' c = evaluateCondition env c := by
  intro hall
  have hv : validateCondition gateCondition {} = .ok () := by decide
  have hd : (evaluateCondition {} gateCondition).decided = true := by decide
  have hne : evaluateCondition gateSupplied gateCondition ≠ evaluateCondition {} gateCondition := by
    decide
  exact hne (hall {} gateCondition {} gateSupplied hv (extends_empty _) hd)

end Conditions

section Quirks
variable {Tag : Type} {selected : List (Id Tag)} {id id' : Id Tag} {text unknownText : Text}
  {observed observed' axis : Text}

/-- What a quirk is evaluated against. -/
structure Description where
  device : DeviceIdentity := {}
  software : DeviceSoftwareState := {}
  environment : EnvironmentContext := {}

/-- The description fills in levels, versions and facts that were unknown in the other one. -/
structure Description.Completes (y x : Description) : Prop where
  id : y.device.id = x.device.id
  vendor : y.device.hardware.vendor = x.device.hardware.vendor
  family : Kleene.Below default x.device.hardware.family y.device.hardware.family
  model : Kleene.Below default x.device.hardware.model y.device.hardware.model
  architecture : Kleene.Below default x.device.hardware.architecture y.device.hardware.architecture
  revision : Kleene.Below default x.device.hardware.revision y.device.hardware.revision
  driver : Kleene.Below [] x.software.driver.version y.software.driver.version
  firmware : Kleene.Below [] x.software.firmware.version y.software.firmware.version
  runtime : Kleene.Below [] x.software.runtime.version y.software.runtime.version
  environment : y.environment.Extends x.environment

/-- A selector of a quirk: whether the quirk restricts it, whether the description has what it
reads, and its verdict. -/
structure Selector where
  restricted : Bool
  known : Bool
  verdict : SelectorVerdict

/-- The selectors of `evaluate_quirk`, in source order. -/
def QuirkApplicability.selectors (a : QuirkApplicability) (x : Description) : List Selector :=
  let hardware := x.device.hardware
  let software := x.software
  [⟨!a.devices.isEmpty, x.device.id.valid, selectDevice a.devices x.device.id⟩,
    ⟨!a.vendors.isEmpty, hardware.vendor.valid,
      selectKnown a.vendors hardware.vendor "vendor not selected"⟩,
    ⟨!a.families.isEmpty, hardware.family.valid,
      selectKnown a.families hardware.family "family not selected"⟩,
    ⟨!a.models.isEmpty, hardware.model.valid,
      selectKnown a.models hardware.model "model not selected"⟩,
    ⟨!a.architectures.isEmpty, hardware.architecture.valid,
      selectOrDefer a.architectures hardware.architecture "device architecture unknown"
        "architecture not selected"⟩,
    ⟨!a.revisions.isEmpty, hardware.revision.valid,
      selectOrDefer a.revisions hardware.revision "device revision unknown"
        "revision not selected"⟩,
    ⟨!a.revisionRanges.isEmpty, hardware.revision.valid,
      selectRevisionRanges a.revisionRanges hardware.revision⟩,
    ⟨!a.driverRanges.isEmpty, !software.driver.version.isEmpty,
      selectRanges a.driverRanges software.driver.version "driver"⟩,
    ⟨!a.firmwareRanges.isEmpty, !software.firmware.version.isEmpty,
      selectRanges a.firmwareRanges software.firmware.version "firmware"⟩,
    ⟨!a.runtimeRanges.isEmpty, !software.runtime.version.isEmpty,
      selectRanges a.runtimeRanges software.runtime.version "runtime"⟩,
    ⟨!a.platformConditions.isNull,
      evaluateCondition x.environment a.platformConditions != .unknown,
      selectConditions a.platformConditions x.environment⟩]

/-- What a selector says about the whole quirk. -/
def SelectorVerdict.result : SelectorVerdict → QuirkApplicabilityResult
  | .refuted _ => .doesNotApply
  | .matched => .applies
  | .deferred _ => .unknown

/-- The result of `evaluate_quirk` on a description. -/
def QuirkRecord.result (quirk : QuirkRecord) (x : Description) : QuirkApplicabilityResult :=
  (evaluateQuirk quirk x.device x.software x.environment).result

theorem combineVerdicts_result (deferred : Option Text) (verdicts : List SelectorVerdict) :
    (combineVerdicts deferred verdicts).1 =
      Kleene.dominate .doesNotApply .unknown .applies
        (deferred.toList.map (fun _ => .unknown) ++ verdicts.map SelectorVerdict.result) := by
  induction verdicts generalizing deferred with
  | nil => cases deferred <;> rfl
  | cons v vs ih =>
    cases v with
    | refuted reason => simp [combineVerdicts, Kleene.dominate, SelectorVerdict.result]
    | matched =>
      rw [combineVerdicts, ih]
      cases deferred <;> simp [Kleene.dominate, SelectorVerdict.result]
    | deferred reason =>
      rw [combineVerdicts, ih]
      cases deferred <;> simp [Kleene.dominate, SelectorVerdict.result]

/-- A quirk applies when every selector matches, and does not as soon as one refutes it. -/
theorem QuirkRecord.result_eq (quirk : QuirkRecord) (x : Description) :
    quirk.result x = Kleene.dominate .doesNotApply .unknown .applies
      ((quirk.applicability.selectors x).map fun s => s.verdict.result) := by
  have h := combineVerdicts_result none
    ((quirk.applicability.selectors x).map fun s => s.verdict)
  rw [List.map_map] at h
  exact h

theorem selectOrDefer_below (h : Kleene.Below default id id') :
    Kleene.Below .unknown (selectOrDefer selected id unknownText text).result
      (selectOrDefer selected id' unknownText text).result := by
  rcases h with rfl | rfl
  · unfold selectOrDefer
    by_cases hs : selected.isEmpty = true
    · simp only [hs, if_true]
      exact .refl _ _
    · simp only [if_neg hs, Id.valid_default, Bool.not_false, if_true]
      exact .inl rfl
  · exact .refl _ _

theorem selectKnown_below (h : Kleene.Below default id id')
    (hk : selected.isEmpty = true ∨ id.valid = true) :
    Kleene.Below .unknown (selectKnown selected id text).result
      (selectKnown selected id' text).result := by
  rcases h with rfl | rfl
  · have hs : selected.isEmpty = true := hk.resolve_right (by simp)
    simp only [selectKnown, hs, if_true]
    exact .refl _ _
  · exact .refl _ _

theorem selectRevisionRanges_below {ranges : List RevisionRange} {id id' : HardwareRevisionId}
    (h : Kleene.Below default id id') :
    Kleene.Below .unknown (selectRevisionRanges ranges id).result
      (selectRevisionRanges ranges id').result := by
  rcases h with rfl | rfl
  · unfold selectRevisionRanges
    by_cases hr : ranges.isEmpty = true
    · simp only [hr, if_true]
      exact .refl _ _
    · simp only [if_neg hr, Id.valid_default, Bool.not_false, if_true]
      exact .inl rfl
  · exact .refl _ _

theorem selectRanges_below {ranges : List VersionRange} (h : Kleene.Below [] observed observed') :
    Kleene.Below .unknown (selectRanges ranges observed axis).result
      (selectRanges ranges observed' axis).result := by
  rcases h with rfl | rfl
  · unfold selectRanges
    by_cases hr : ranges.isEmpty = true
    · simp only [hr, if_true]
      exact .refl _ _
    · simp only [if_neg hr, List.isEmpty_nil, if_true]
      exact .inl rfl
  · exact .refl _ _

theorem selectConditions_below {conditions : ConditionPtr} {env env' : EnvironmentContext}
    (h : Kleene.Below .unknown (evaluateCondition env conditions)
      (evaluateCondition env' conditions)) :
    Kleene.Below .unknown (selectConditions conditions env).result
      (selectConditions conditions env').result := by
  unfold selectConditions
  by_cases hn : conditions.isNull = true
  · simp only [hn, if_true]
    exact .refl _ _
  · simp only [if_neg hn]
    rcases h with h | h
    · rw [h]
      exact .inl rfl
    · rw [h]
      exact .refl _ _

variable {quirk : QuirkRecord} {x y : Description} {limits : RegistryLimits}

/-- A quirk restricted on no level the description lacks keeps its verdict. -/
theorem QuirkRecord.result_below (h : y.Completes x)
    (hf : quirk.applicability.families.isEmpty = true ∨ x.device.hardware.family.valid = true)
    (hm : quirk.applicability.models.isEmpty = true ∨ x.device.hardware.model.valid = true)
    (hg : quirk.applicability.platformConditions.GatesSettled x.environment y.environment) :
    Kleene.Below .unknown (quirk.result x) (quirk.result y) := by
  rw [QuirkRecord.result_eq, QuirkRecord.result_eq]
  refine Kleene.dominate_below (by decide) ?_
  simp only [QuirkApplicability.selectors, List.map_cons, List.map_nil, h.id, h.vendor]
  exact .cons (.refl _ _) <| .cons (.refl _ _) <| .cons (selectKnown_below h.family hf) <|
    .cons (selectKnown_below h.model hm) <| .cons (selectOrDefer_below h.architecture) <|
    .cons (selectOrDefer_below h.revision) <| .cons (selectRevisionRanges_below h.revision) <|
    .cons (selectRanges_below h.driver) <| .cons (selectRanges_below h.firmware) <|
    .cons (selectRanges_below h.runtime) <|
    .cons (selectConditions_below (evaluateCondition_below h.environment hg)) .nil

/-- What is asked of a quirk on a description and a completion of it: a decided verdict is kept, a
selector that lacks what it reads is unknown, and adding facts keeps what conditions decide. -/
structure QuirkRecord.KnowledgeMonotone (quirk : QuirkRecord) (x y : Description) : Prop where
  kept : quirk.result x ≠ .unknown → quirk.result y = quirk.result x
  lacking : ∀ s ∈ quirk.applicability.selectors x, s.restricted = true → s.known = false →
    s.verdict.result = .unknown
  conditions : ∀ part, part.Inside quirk.applicability.platformConditions →
    (evaluateCondition x.environment part).decided = true →
    evaluateCondition y.environment part = evaluateCondition x.environment part

theorem restricted_to_known (h : (!selected.isEmpty) = true → id.valid = false →
    (selectKnown selected id text).result = .unknown) :
    selected.isEmpty = true ∨ id.valid = true := by
  by_contra hn
  rw [not_or, Bool.not_eq_true, Bool.not_eq_true] at hn
  have hk := h (by simp [hn.1]) hn.2
  simp [selectKnown, hn.1, hn.2, SelectorVerdict.result] at hk

theorem valid_ids_of_validateDeviceIdentity {identity : DeviceIdentity}
    (h : validateDeviceIdentity identity limits = .ok ()) :
    identity.id.valid = true ∧ identity.hardware.vendor.valid = true := by
  simp only [validateDeviceIdentity, validateHardwareIdentity, status_bind_eq_ok,
    require_eq_ok] at h
  exact ⟨h.1, h.2.2.2.2.2.2.2.1⟩

/-- A quirk of one hardware family. -/
def familyQuirk : QuirkRecord :=
  { id := Id.parse "quirk.a"
    quirkGeneration := .first
    title := "title"
    impactedCapabilities := [Id.parse "cap.compute.fp64"]
    source :=
      { publisher := Sample.publisher, adapter := "probe", sourceClass := .hardwareProbe,
        provenance := .realLiveHardware }
    applicability := { families := [Id.parse "family.a"] } }

/-- A device known by its model alone, and with its family filled in. -/
def modelOnly : Description :=
  { device :=
      { id := Id.parse "dev.a"
        incarnation := Id.parse "inc.a"
        hardware :=
          { vendor := Id.parse "vendor.a", model := Id.parse "model.a", hardwareClass := .gpu } } }

def familyFilledIn : Description :=
  { modelOnly with device.hardware.family := Id.parse "family.a" }

theorem familyFilledIn_completes : familyFilledIn.Completes modelOnly :=
  ⟨rfl, rfl, .inl rfl, .refl _ _, .refl _ _, .refl _ _, .refl _ _, .refl _ _, .refl _ _,
    fun _ _ h => h⟩

end Quirks

end CapabilityRegistry
