import CapabilityRegistry.QueryCodec
import CapabilityRegistry.Trees
import CapabilityRegistry.Versions

/-! Letter case in conditions and in the facts they are evaluated against. -/
namespace CapabilityRegistry

section Bytes
variable {text : Text}

theorem asciiLowerByte_classes (c : UInt8) :
    (isDigit (asciiLowerByte c) = isDigit c ∧ isSpace (asciiLowerByte c) = isSpace c ∧
      (isDigit c = true → asciiLowerByte c = c)) ∧
      (asciiLowerByte c == '-'.toUInt8) = (c == '-'.toUInt8) ∧
        (asciiLowerByte c == '+'.toUInt8) = (c == '+'.toUInt8) := by
  revert c
  decide +kernel

theorem isDigit_lower (c : UInt8) : isDigit (asciiLowerByte c) = isDigit c :=
  (asciiLowerByte_classes c).1.1

theorem isSpace_lower (c : UInt8) : isSpace (asciiLowerByte c) = isSpace c :=
  (asciiLowerByte_classes c).1.2.1

theorem asciiLowerByte_of_isDigit (c : UInt8) (h : isDigit c = true) : asciiLowerByte c = c :=
  (asciiLowerByte_classes c).1.2.2 h

theorem asciiLowerByte_sign (c : UInt8) :
    (asciiLowerByte c == '-'.toUInt8) = (c == '-'.toUInt8) ∧
      (asciiLowerByte c == '+'.toUInt8) = (c == '+'.toUInt8) :=
  (asciiLowerByte_classes c).2

@[simp] theorem asciiLower_nil : asciiLower [] = [] := rfl

@[simp] theorem asciiLower_cons (c : UInt8) (cs : Text) :
    asciiLower (c :: cs) = asciiLowerByte c :: asciiLower cs := rfl

@[simp] theorem asciiLower_append (a b : Text) :
    asciiLower (a ++ b) = asciiLower a ++ asciiLower b := List.map_append

theorem dropWhile_lower {p : UInt8 → Bool} (hp : ∀ c, p (asciiLowerByte c) = p c) (text : Text) :
    (asciiLower text).dropWhile p = asciiLower (text.dropWhile p) := by
  have hcomp : p ∘ asciiLowerByte = p := funext hp
  rw [asciiLower, List.dropWhile_map, hcomp]
  rfl

theorem takeWhile_isDigit_lower (text : Text) :
    (asciiLower text).takeWhile isDigit = text.takeWhile isDigit := by
  induction text with
  | nil => rfl
  | cons c cs ih =>
    rw [asciiLower_cons, List.takeWhile_cons, List.takeWhile_cons, isDigit_lower, ih]
    split
    · next hd => rw [asciiLowerByte_of_isDigit c hd]
    · rfl

theorem scanDigits_lower (value : UInt64) (text : Text) :
    scanDigits value (asciiLower text) =
      ((scanDigits value text).1, asciiLower (scanDigits value text).2) := by
  induction text generalizing value with
  | nil => rfl
  | cons c cs ih =>
    rw [asciiLower_cons]
    by_cases hd : isDigit c = true
    · rw [asciiLowerByte_of_isDigit c hd]
      simp only [scanDigits, hd, if_true]
      split_ifs
      · rw [dropWhile_lower isDigit_lower]
      · rw [ih]
    · simp only [scanDigits, isDigit_lower, if_neg hd, asciiLower_cons]

theorem scanComponents_lower (wanted : Nat) (text : Text) :
    scanComponents wanted (asciiLower text) = scanComponents wanted text := by
  induction wanted generalizing text with
  | zero => rfl
  | succ wanted ih =>
    have hd := dropWhile_lower (p := fun c => !isDigit c) (fun c => by rw [isDigit_lower]) text
    simp only [scanComponents, hd]
    cases text.dropWhile fun c => !isDigit c with
    | nil => simp only [asciiLower_nil]
    | cons c cs =>
      have hs := scanDigits_lower 0 (c :: cs)
      rw [asciiLower_cons] at hs
      simp only [asciiLower_cons, hs, ih]

theorem stoull_lower (text : Text) : stoull (asciiLower text) = stoull text := by
  unfold stoull
  rw [dropWhile_lower isSpace_lower]
  cases text.dropWhile isSpace with
  | nil => rfl
  | cons c cs =>
    obtain ⟨hminus, hplus⟩ := asciiLowerByte_sign c
    simp only [asciiLower_cons, hminus, hplus]
    split
    · simp only [takeWhile_isDigit_lower]
    · split
      · simp only [takeWhile_isDigit_lower]
      · have ht := takeWhile_isDigit_lower (c :: cs)
        rw [asciiLower_cons] at ht
        simp only [ht]

end Bytes

namespace SoftwareVersion
variable {a a' b : SoftwareVersion}

/-- A version is read from the digits of its text alone. -/
theorem components_parse_lower (text : Text) :
    (parse (asciiLower text)).components = (parse text).components := by
  rw [components_parse, components_parse, length_asciiLower, parseComponents, parseComponents,
    scanComponents_lower]

theorem compare_congr_right (h : a'.components = a.components) : compare b a' = compare b a := by
  unfold compare
  rw [valid_eq a, valid_eq a', h]

end SoftwareVersion

section Environments
variable {env : EnvironmentContext} {key value : Text} {facts facts' : List (Text × Text)}

def EnvironmentContext.setPlatformSetting (env : EnvironmentContext) (name value : Text) :
    EnvironmentContext :=
  env.set (EnvKeys.kPlatformSettingPrefix ++ name) value

def EnvironmentContext.addFeatureGate (env : EnvironmentContext) (gate : Text) :
    EnvironmentContext :=
  env.set (EnvKeys.kFeatureGatePrefix ++ gate) "present"

/-- Facts that differ in letter case alone build the same environment. -/
theorem setAll_congr (h : facts.map foldFact = facts'.map foldFact) :
    EnvironmentContext.setAll facts = EnvironmentContext.setAll facts' := by
  have hf : (EnvironmentContext.setAll facts).facts = (EnvironmentContext.setAll facts').facts := by
    rw [setAll_facts, setAll_facts, h]
  cases hs : EnvironmentContext.setAll facts
  cases hs' : EnvironmentContext.setAll facts'
  rw [hs, hs'] at hf
  cases hf
  rfl

/-- What is set under a name is found under that name exactly when it has no capitals. -/
theorem find_set_isSome_iff (facts : List (Text × Text)) (key value : Text) :
    (((EnvironmentContext.setAll facts).set key value).find key).isSome = true ↔
      asciiLower key = key := by
  constructor
  · intro h
    obtain ⟨v, hv⟩ := Option.isSome_iff_exists.mp h
    exact ((setAll_folded facts).set key value (key, v) (OrdMap.mem_toList.mpr hv)).1
  · intro h
    simp [EnvironmentContext.find, EnvironmentContext.set, h]

end Environments

mutual

/-- The condition with every key and value folded to lower case. -/
def ConditionPtr.foldCase : ConditionPtr → ConditionPtr
  | .null => .null
  | .node kind key value children =>
    .node kind (asciiLower key) (asciiLower value) (foldCases children)

def foldCases : List ConditionPtr → List ConditionPtr
  | [] => []
  | c :: cs => c.foldCase :: foldCases cs

end

theorem foldCases_eq (cs : List ConditionPtr) : foldCases cs = cs.map ConditionPtr.foldCase := by
  induction cs with
  | nil => rfl
  | cons c cs ih => rw [foldCases, ih, List.map_cons]

/-- The kinds that look a fact up under a name of their own. -/
def ConditionKind.isNamed : ConditionKind → Bool
  | .requiredFeatureGate | .requiredPlatformSetting => true
  | _ => false

section Conditions
variable {env : EnvironmentContext} {c c' : ConditionPtr} {key value : Text}

/-- The names of the gates and settings a condition reads have no capitals. -/
def ConditionPtr.NamesLower (c : ConditionPtr) : Prop :=
  ∀ kind key value children, kind.isNamed = true →
    (ConditionPtr.node kind key value children).Inside c → asciiLower key = key

/-- A gate or setting that is supplied under the name the condition uses is found. -/
structure ConditionPtr.NamesFound (c : ConditionPtr) : Prop where
  gate : ∀ facts key value children,
    (ConditionPtr.node .requiredFeatureGate key value children).Inside c →
    evaluateCondition ((EnvironmentContext.setAll facts).addFeatureGate key)
      (.node .requiredFeatureGate key value children) = .satisfied
  setting : ∀ facts key value children supplied,
    (ConditionPtr.node .requiredPlatformSetting key value children).Inside c →
    evaluateCondition ((EnvironmentContext.setAll facts).setPlatformSetting key supplied)
      (.node .requiredPlatformSetting key value children) ≠ .unknown

theorem evaluateVersionMinimum_lower :
    evaluateVersionMinimum env key (asciiLower value) = evaluateVersionMinimum env key value := by
  unfold evaluateVersionMinimum
  have hc := SoftwareVersion.components_parse_lower value
  simp only [SoftwareVersion.compare_congr_right hc,
    SoftwareVersion.valid_eq (SoftwareVersion.parse value),
    SoftwareVersion.valid_eq (SoftwareVersion.parse (asciiLower value)), hc]

theorem evaluateGenerationMinimum_lower :
    evaluateGenerationMinimum env key (asciiLower value) =
      evaluateGenerationMinimum env key value := by
  unfold evaluateGenerationMinimum
  rw [stoull_lower]

theorem evaluateEquality_lower :
    evaluateEquality env key (asciiLower value) = evaluateEquality env key value := by
  unfold evaluateEquality
  cases env.find key with
  | none => rfl
  | some observed =>
    dsimp only
    rw [equalsAsciiCi, equalsAsciiCi, asciiLower_lower]

/-- Folding the texts of a condition with lower-case names does not change its outcome. -/
theorem evaluateCondition_foldCase (h : c.NamesLower) :
    evaluateCondition env c.foldCase = evaluateCondition env c := by
  induction c using ConditionPtr.induct with
  | null => rfl
  | node kind key value children ih =>
    have hall (hl : kind.isLogical = true) : evaluateConditions env (foldCases children) =
        evaluateConditions env children := by
      rw [foldCases_eq, evaluateConditions_eq, evaluateConditions_eq, List.map_map]
      exact List.map_congr_left fun child hm => ih child hm fun kind key value children hn hi =>
        h kind key value children hn (.child hl hm hi)
    rw [ConditionPtr.foldCase]
    cases kind with
    | always => rfl
    | allOf => rw [evaluateCondition, evaluateCondition, hall rfl]
    | anyOf => rw [evaluateCondition, evaluateCondition, hall rfl]
    | not => rw [evaluateCondition, evaluateCondition, hall rfl]
    | requiredFeatureGate =>
      rw [evaluateCondition, evaluateCondition, h _ _ _ _ rfl (.self _)]
    | requiredPlatformSetting =>
      rw [evaluateCondition, evaluateCondition, h _ _ _ _ rfl (.self _)]
      exact evaluateEquality_lower
    | minPlatformGeneration => exact evaluateGenerationMinimum_lower
    | requiredDeviceGeneration => exact evaluateGenerationMinimum_lower
    | minDriverVersion => exact evaluateVersionMinimum_lower
    | minFirmwareVersion => exact evaluateVersionMinimum_lower
    | minRuntimeVersion => exact evaluateVersionMinimum_lower
    | requiredKernelVersion => exact evaluateVersionMinimum_lower
    | _ => exact evaluateEquality_lower

theorem lower_of_prefixed {front : Text} (hf : asciiLower front = front) :
    asciiLower (front ++ key) = front ++ key ↔ asciiLower key = key := by
  rw [asciiLower_append, hf, List.append_cancel_left_eq]

theorem ConditionPtr.namesFound_iff : c.NamesFound ↔ c.NamesLower := by
  have hgate : asciiLower EnvKeys.kFeatureGatePrefix = EnvKeys.kFeatureGatePrefix := by
    decide
  have hsetting : asciiLower EnvKeys.kPlatformSettingPrefix = EnvKeys.kPlatformSettingPrefix := by
    decide
  constructor
  · intro hfound kind key value children hn hi
    cases kind with
    | requiredFeatureGate =>
      have hs := hfound.gate [] key value children hi
      rw [← lower_of_prefixed hgate, ← find_set_isSome_iff [] _ "present"]
      by_contra hnone
      rw [evaluateCondition, EnvironmentContext.addFeatureGate, if_neg hnone] at hs
      cases hs
    | requiredPlatformSetting =>
      have hs := hfound.setting [] key value children [] hi
      rw [← lower_of_prefixed hsetting, ← find_set_isSome_iff [] _ []]
      by_contra hnone
      rw [evaluateCondition, EnvironmentContext.setPlatformSetting, evaluateEquality,
        Option.not_isSome_iff_eq_none.mp hnone] at hs
      exact hs rfl
    | _ => cases hn
  · intro hlower
    refine ⟨fun facts key value children hi => ?_, fun facts key value children supplied hi => ?_⟩
    · have hf := (find_set_isSome_iff facts (EnvKeys.kFeatureGatePrefix ++ key) "present").mpr
        ((lower_of_prefixed hgate).mpr (hlower _ _ _ _ rfl hi))
      rw [evaluateCondition, EnvironmentContext.addFeatureGate, if_pos hf]
    · have hf := (find_set_isSome_iff facts (EnvKeys.kPlatformSettingPrefix ++ key) supplied).mpr
        ((lower_of_prefixed hsetting).mpr (hlower _ _ _ _ rfl hi))
      obtain ⟨v, hv⟩ := Option.isSome_iff_exists.mp hf
      rw [evaluateCondition, EnvironmentContext.setPlatformSetting, evaluateEquality, hv]
      dsimp only
      split <;> decide

/-- Two conditions that differ in letter case alone have one outcome in environments whose facts
differ in letter case alone, and find what is supplied under their own names, exactly when the
gates and settings they name have lower-case names. -/
theorem case_is_ignored_iff (h : c.foldCase = c'.foldCase) :
    (∀ facts facts' : List (Text × Text), facts.map foldFact = facts'.map foldFact →
      evaluateCondition (EnvironmentContext.setAll facts) c =
        evaluateCondition (EnvironmentContext.setAll facts') c') ∧ c.NamesFound ∧ c'.NamesFound ↔
      c.NamesLower ∧ c'.NamesLower := by
  rw [ConditionPtr.namesFound_iff, ConditionPtr.namesFound_iff]
  constructor
  · exact fun hall => hall.2
  · rintro ⟨hc, hc'⟩
    refine ⟨fun facts facts' hf => ?_, hc, hc'⟩
    calc evaluateCondition (EnvironmentContext.setAll facts) c
        = evaluateCondition (EnvironmentContext.setAll facts') c := by rw [setAll_congr hf]
      _ = evaluateCondition (EnvironmentContext.setAll facts') c.foldCase :=
          (evaluateCondition_foldCase hc).symm
      _ = evaluateCondition (EnvironmentContext.setAll facts') c' := by
          rw [h, evaluateCondition_foldCase hc']

/-- A gate, and the same gate with its name in capitals. -/
def gateNamed (name : Text) : ConditionPtr := .node .requiredFeatureGate name [] []

theorem case_is_ignored_iff_gateNamed :
    (∀ facts facts' : List (Text × Text), facts.map foldFact = facts'.map foldFact →
      evaluateCondition (EnvironmentContext.setAll facts) (gateNamed "mig") =
        evaluateCondition (EnvironmentContext.setAll facts') (gateNamed "MIG")) ∧
      (gateNamed "mig").NamesFound ∧ (gateNamed "MIG").NamesFound ↔
      (gateNamed "mig").NamesLower ∧ (gateNamed "MIG").NamesLower :=
  case_is_ignored_iff (by
    have hname : asciiLower "mig" = asciiLower "MIG" := by decide
    simp only [gateNamed, ConditionPtr.foldCase, hname])

/-- A gate supplied under the very name of the condition is not found when the name has capitals,
and writing the name in lower case changes the outcome. -/
theorem capitals_hide_gate :
    ¬ ∀ (limits : RegistryLimits) (c c' : ConditionPtr) (facts facts' : List (Text × Text)),
      validateCondition c limits = .ok () → c.foldCase = c'.foldCase →
      facts.map foldFact = facts'.map foldFact →
      evaluateCondition (EnvironmentContext.setAll facts) c =
        evaluateCondition (EnvironmentContext.setAll facts') c' := by
  intro hall
  let facts : List (Text × Text) := [(EnvKeys.kFeatureGatePrefix ++ "MIG", "present")]
  have hv : validateCondition (gateNamed "MIG") {} = .ok () := by decide
  have hname : asciiLower "MIG" = asciiLower "mig" := by decide
  have hne : evaluateCondition (EnvironmentContext.setAll facts) (gateNamed "MIG") ≠
      evaluateCondition (EnvironmentContext.setAll facts) (gateNamed "mig") := by
    decide
  exact hne (hall {} _ _ facts facts hv
    (by simp only [gateNamed, ConditionPtr.foldCase, hname]) rfl)

end Conditions

end CapabilityRegistry
