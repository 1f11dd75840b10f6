import CapabilityRegistry.Condition
import CapabilityRegistry.Versions

/-! Generation minimums: which texts denote a number, and when a leaf judges by the numbers its two
texts denote. -/
namespace CapabilityRegistry

section Numerals
variable {c : UInt8} {n : Nat} {text required observed : Text}

/-- A text in full denotes a natural number below `2 ^ 64`. -/
def Denotes (text : Text) (n : Nat) : Prop :=
  text ≠ [] ∧ text.all isDigit = true ∧ numeral text = n ∧ n < 2 ^ 64

/-- A text without one leading sign. -/
def unsigned : Text → Text
  | [] => []
  | c :: cs => if c == '-'.toUInt8 then cs else if c == '+'.toUInt8 then cs else c :: cs

/-- The digits a text goes on with after blanks and a sign. -/
def openingRun (text : Text) : Text := (unsigned (text.dropWhile isSpace)).takeWhile isDigit

/-- A text opens, after blanks and a sign, with digits that denote a number below `2 ^ 64`. -/
def opensNumeral (text : Text) : Bool :=
  !(openingRun text).isEmpty && numeral (openingRun text) < 2 ^ 64

/-- What is read of a run of digits that a sign may stand before. -/
def readRun (negative : Bool) (run : Text) : Option UInt64 :=
  if run.isEmpty || numeral run ≥ 2 ^ 64 then none
  else some (if negative then 0 - (numeral run).toUInt64 else (numeral run).toUInt64)

theorem stoull_eq (text : Text) : stoull text =
    readRun ((text.dropWhile isSpace).head? == some '-'.toUInt8) (openingRun text) := by
  unfold stoull openingRun
  cases text.dropWhile isSpace with
  | nil => rfl
  | cons c cs =>
    cases hm : c == '-'.toUInt8 with
    | true =>
      have hc : (c :: cs).head? == some '-'.toUInt8 := hm
      simp only [unsigned, hm, if_true, hc]
      rfl
    | false =>
      have hc : ((c :: cs).head? == some '-'.toUInt8) = false := hm
      cases hp : c == '+'.toUInt8 <;>
        · simp only [unsigned, hm, hp, hc, if_true, Bool.false_eq_true, if_false]
          rfl

theorem isSome_stoull (text : Text) : (stoull text).isSome = opensNumeral text := by
  rw [stoull_eq, readRun, opensNumeral]
  by_cases hr : (openingRun text).isEmpty = true
  · simp only [hr, Bool.true_or, if_true, Bool.not_true, Bool.false_and]
    rfl
  · by_cases hn : numeral (openingRun text) < 2 ^ 64
    · simp only [hr, hn, not_le.mpr hn]
      rfl
    · simp only [hr, hn, not_lt.mp hn]
      rfl

theorem not_blank_or_sign (h : isDigit c = true) :
    isSpace c = false ∧ (c == '-'.toUInt8) = false ∧ (c == '+'.toUInt8) = false := by
  revert c
  decide +kernel

theorem dropWhile_isSpace_of_digits (h : text.all isDigit = true) :
    text.dropWhile isSpace = text := by
  cases text with
  | nil => rfl
  | cons c cs =>
    have hc := not_blank_or_sign (List.all_eq_true.mp h c List.mem_cons_self)
    exact List.dropWhile_cons_of_neg (by rw [hc.1]; exact Bool.false_ne_true)

theorem openingRun_of_digits (h : text.all isDigit = true) : openingRun text = text := by
  rw [openingRun, dropWhile_isSpace_of_digits h]
  cases text with
  | nil => rfl
  | cons c cs =>
    have hc := not_blank_or_sign (List.all_eq_true.mp h c List.mem_cons_self)
    rw [unsigned, hc.2.1, hc.2.2]
    exact List.takeWhile_eq_self_iff.mpr (List.all_eq_true.mp h)

theorem Denotes.opens (h : Denotes text n) : opensNumeral text = true := by
  obtain ⟨hne, hall, rfl, hlt⟩ := h
  rw [opensNumeral, openingRun_of_digits hall, List.isEmpty_eq_false_iff.mpr hne]
  exact decide_eq_true hlt

theorem denotes_of_opens (h : opensNumeral text = true) (hall : text.all isDigit = true) :
    Denotes text (numeral text) := by
  rw [opensNumeral, openingRun_of_digits hall, Bool.and_eq_true] at h
  exact ⟨by simpa using h.1, hall, rfl, of_decide_eq_true h.2⟩

theorem Denotes.unique {m : Nat} (h : Denotes text n) (h' : Denotes text m) : n = m :=
  h.2.2.1.symm.trans h'.2.2.1

/-- Digits and nothing else are read as the number they denote. -/
theorem stoull_of_denotes (h : Denotes text n) : stoull text = some n.toUInt64 := by
  obtain ⟨hne, hall, rfl, hlt⟩ := h
  have hsign : (text.head? == some '-'.toUInt8) = false := by
    obtain ⟨c, cs, rfl⟩ := List.exists_cons_of_ne_nil hne
    exact (not_blank_or_sign (List.all_eq_true.mp hall c List.mem_cons_self)).2.1
  rw [stoull_eq, dropWhile_isSpace_of_digits hall, hsign, openingRun_of_digits hall, readRun,
    if_neg (by simpa [hne] using hlt)]
  rfl

/-- The verdict a generation minimum is to give: by the numbers, and unknown without them. -/
structure ExactVerdict (required observed : Text) (outcome : ConditionOutcome) : Prop where
  satisfied : outcome = .satisfied ↔ ∃ r o, Denotes required r ∧ Denotes observed o ∧ r ≤ o
  unsatisfied : outcome = .unsatisfied ↔ ∃ r o, Denotes required r ∧ Denotes observed o ∧ o < r
  unknown : outcome = .unknown ↔ ¬ ((∃ r, Denotes required r) ∧ ∃ o, Denotes observed o)

/-- Texts that both open with a number are digits in full. -/
def PlainNumerals (required observed : Text) : Prop :=
  opensNumeral required = true → opensNumeral observed = true →
    required.all isDigit = true ∧ observed.all isDigit = true

/-- The outcome by what is read of the two texts. -/
def generationOutcome : Option UInt64 → Option UInt64 → ConditionOutcome
  | some required, some actual => if actual ≥ required then .satisfied else .unsatisfied
  | _, _ => .unknown

theorem evaluateGenerationMinimum_eq {env : EnvironmentContext} {key : Text}
    (h : env.find key = some observed) : evaluateGenerationMinimum env key required =
      generationOutcome (stoull required) (stoull observed) := by
  rw [evaluateGenerationMinimum, h]
  dsimp only
  cases stoull required <;> cases stoull observed <;> rfl

/-- By the numbers two texts denote, the verdict is exact. -/
theorem exactVerdict_of_denotes {r o : Nat} (hr : Denotes required r) (ho : Denotes observed o) :
    ExactVerdict required observed (generationOutcome (stoull required) (stoull observed)) := by
  have hge : o.toUInt64 ≥ r.toUInt64 ↔ r ≤ o := by
    rw [ge_iff_le, UInt64.le_iff_toNat_le]
    change r % 2 ^ 64 ≤ o % 2 ^ 64 ↔ _
    rw [Nat.mod_eq_of_lt hr.2.2.2, Nat.mod_eq_of_lt ho.2.2.2]
  have hnumbers : ∀ P : Nat → Nat → Prop,
      (∃ r o, Denotes required r ∧ Denotes observed o ∧ P r o) ↔ P r o := by
    intro P
    constructor
    · rintro ⟨r', o', hr', ho', h⟩
      rwa [hr.unique hr', ho.unique ho']
    · exact fun h => ⟨r, o, hr, ho, h⟩
  rw [stoull_of_denotes hr, stoull_of_denotes ho, generationOutcome]
  refine ⟨?_, ?_, ?_⟩
  · rw [hnumbers fun r o => r ≤ o, ← hge]
    split <;> simp_all
  · rw [hnumbers fun r o => o < r, ← not_le, ← hge]
    split <;> simp_all
  · refine iff_of_false ?_ fun h => h ⟨⟨r, hr⟩, o, ho⟩
    split <;> simp

/-- Without two numbers the verdict is exact if it is unknown. -/
theorem exactVerdict_unknown (h : ¬ ((∃ r, Denotes required r) ∧ ∃ o, Denotes observed o)) :
    ExactVerdict required observed .unknown := by
  refine ⟨iff_of_false (by simp) ?_, iff_of_false (by simp) ?_, iff_of_true rfl h⟩
  · rintro ⟨r, o, hr, ho, -⟩
    exact h ⟨⟨r, hr⟩, o, ho⟩
  · rintro ⟨r, o, hr, ho, -⟩
    exact h ⟨⟨r, hr⟩, o, ho⟩

/-- The fact a generation minimum looks at. -/
def generationKey : ConditionKind → Option Text
  | .minPlatformGeneration => some EnvKeys.kPlatformGeneration
  | .requiredDeviceGeneration => some EnvKeys.kDeviceGeneration
  | _ => none

/-- A generation minimum judges exactly by the numbers its two texts denote as long as not both open
with a number of which one has more to it. -/
theorem generation_minimum_exact_iff {env : EnvironmentContext} {kind : ConditionKind}
    {key value observed envKey : Text} {children : List ConditionPtr}
    (hkind : generationKey kind = some envKey) (hfact : env.find envKey = some observed) :
    ExactVerdict value observed (evaluateCondition env (.node kind key value children)) ↔
      PlainNumerals value observed := by
  have houtcome : evaluateCondition env (.node kind key value children) =
      generationOutcome (stoull value) (stoull observed) := by
    rw [← evaluateGenerationMinimum_eq hfact]
    cases kind <;> cases hkind <;> rw [evaluateCondition]
  rw [houtcome]
  constructor
  · intro h hopens hopens'
    rw [← isSome_stoull] at hopens hopens'
    obtain ⟨r, hr⟩ := Option.isSome_iff_exists.mp hopens
    obtain ⟨o, ho⟩ := Option.isSome_iff_exists.mp hopens'
    have hknown : generationOutcome (stoull value) (stoull observed) ≠ .unknown := by
      rw [hr, ho, generationOutcome]
      split <;> simp
    obtain ⟨⟨n, hn⟩, m, hm⟩ := not_not.mp (mt h.unknown.mpr hknown)
    exact ⟨hn.2.1, hm.2.1⟩
  · intro h
    by_cases hboth : opensNumeral value = true ∧ opensNumeral observed = true
    · obtain ⟨hv, ho⟩ := h hboth.1 hboth.2
      exact exactVerdict_of_denotes (denotes_of_opens hboth.1 hv) (denotes_of_opens hboth.2 ho)
    · have hunknown : generationOutcome (stoull value) (stoull observed) = .unknown := by
        rw [← isSome_stoull, ← isSome_stoull] at hboth
        cases hv : stoull value with
        | none => rfl
        | some r =>
          cases ho : stoull observed with
          | none => rfl
          | some o => exact absurd (by simp [hv, ho]) hboth
      rw [hunknown]
      exact exactVerdict_unknown fun hd =>
        hboth ⟨hd.1.choose_spec.opens, hd.2.choose_spec.opens⟩

end Numerals

section Samples

def platformAt (generation : Text) : EnvironmentContext :=
  EnvironmentContext.set {} EnvKeys.kPlatformGeneration generation

theorem find_platformAt (generation : Text) :
    (platformAt generation).find EnvKeys.kPlatformGeneration = some (asciiLower generation) := by
  have hkey : asciiLower EnvKeys.kPlatformGeneration = EnvKeys.kPlatformGeneration := by decide
  rw [platformAt, EnvironmentContext.set, EnvironmentContext.find, hkey]
  exact Std.ExtTreeMap.getElem?_insert_self

def atLeastFive : ConditionPtr := .node .minPlatformGeneration [] "5" []

theorem generation_minimum_exact_seven :
    ExactVerdict "5" "7" (evaluateCondition (platformAt "7") atLeastFive) :=
  (generation_minimum_exact_iff rfl (find_platformAt "7")).mpr fun _ _ => by decide

/-- A letter after the number does not keep a platform from meeting the requirement. -/
theorem trailing_letter_satisfies :
    validateCondition atLeastFive {} = .ok () ∧
    evaluateCondition (platformAt "9b") atLeastFive = .satisfied ∧
    ¬ ∃ n, Denotes "9b" n := by
  refine ⟨by decide, ?_, fun h => ?_⟩
  · have hfact := find_platformAt "9b"
    have houtcome := @evaluateGenerationMinimum_eq "5" _ _ _ hfact
    rw [atLeastFive, evaluateCondition]
    exact houtcome.trans (by decide)
  · obtain ⟨n, -, hall, -⟩ := h
    exact absurd hall (by decide)

end Samples

end CapabilityRegistry
