import CapabilityRegistry.Lib.Comparators
import CapabilityRegistry.SoftwareVersion

/-! Software versions: what their digits parse to, the order of their precedence, and intervals. -/
namespace CapabilityRegistry

section Digits
variable {c : UInt8} {n : Nat} {run rest text : Text}

/-- The number a run of digits continues to from `n`. -/
def numeralFrom (n : Nat) (run : Text) : Nat :=
  run.foldl (fun n c => n * 10 + (c - '0'.toUInt8).toNat) n

/-- The number a run of digits denotes. -/
def numeral (run : Text) : Nat := numeralFrom 0 run

/-- The component a number is kept as. -/
def saturated (n : Nat) : UInt64 := (min n 18446744073709551615).toUInt64

/-- The maximal runs of digits of a text. -/
def digitRuns (text : Text) : List Text :=
  (text.splitOnP fun c => !isDigit c).filter fun run => !run.isEmpty

theorem le_numeralFrom (n : Nat) (run : Text) : n ≤ numeralFrom n run := by
  induction run generalizing n with
  | nil => exact le_refl n
  | cons c run ih => exact le_trans (by omega) (ih (n * 10 + (c - '0'.toUInt8).toNat))

theorem digit_le (h : isDigit c = true) : (c - '0'.toUInt8).toNat ≤ 9 := by
  revert c
  decide +kernel

theorem saturated_of_ge (h : 18446744073709551615 ≤ n) :
    saturated n = 18446744073709551615 := by
  rw [saturated, min_eq_right h]
  rfl

theorem saturated_toNat (v : UInt64) : saturated v.toNat = v := by
  have hv := v.toNat_lt
  rw [saturated, min_eq_left (by omega)]
  exact UInt64.ofNat_toNat

/-- The saturation test is exact: it holds back the digits that leave 64 bits and no others. -/
theorem saturates_iff {value : UInt64} (h : isDigit c = true) :
    value > (18446744073709551615 - (c - '0'.toUInt8).toUInt64) / 10 ↔
      18446744073709551615 < value.toNat * 10 + (c - '0'.toUInt8).toNat := by
  have hd : (c - '0'.toUInt8).toUInt64.toNat = (c - '0'.toUInt8).toNat := UInt8.toNat_toUInt64 _
  have h9 := digit_le h
  have hle : (c - '0'.toUInt8).toUInt64 ≤ 18446744073709551615 := by
    rw [UInt64.le_iff_toNat_le, hd]
    exact le_trans h9 (by decide)
  rw [gt_iff_lt, UInt64.lt_iff_toNat_lt, UInt64.toNat_div, UInt64.toNat_sub_of_le _ _ hle, hd]
  change (18446744073709551615 - (c - '0'.toUInt8).toNat) / 10 < value.toNat ↔ _
  omega

/-- A step that does not saturate does not wrap. -/
theorem toNat_step {value : UInt64} (hd : isDigit c = true)
    (h : ¬ value > (18446744073709551615 - (c - '0'.toUInt8).toUInt64) / 10) :
    (value * 10 + (c - '0'.toUInt8).toUInt64).toNat =
      value.toNat * 10 + (c - '0'.toUInt8).toNat := by
  rw [saturates_iff hd] at h
  rw [UInt64.toNat_add, UInt64.toNat_mul, UInt8.toNat_toUInt64]
  change (value.toNat * 10 % 2 ^ 64 + _) % 2 ^ 64 = _
  omega

/-- The inner loop reads one run of digits, of any length, and leaves what follows it. -/
theorem scanDigits_eq (value : UInt64) (text : Text) : scanDigits value text =
    (saturated (numeralFrom value.toNat (text.takeWhile isDigit)), text.dropWhile isDigit) := by
  induction text generalizing value with
  | nil => rw [scanDigits, List.takeWhile_nil, numeralFrom, List.foldl_nil, saturated_toNat,
      List.dropWhile_nil]
  | cons c cs ih =>
    by_cases hd : isDigit c = true
    · rw [scanDigits, if_pos hd, List.takeWhile_cons_of_pos hd, List.dropWhile_cons_of_pos hd]
      dsimp only
      split
      · next hs =>
        have hlt := (saturates_iff hd).mp hs
        have hle := le_numeralFrom (value.toNat * 10 + (c - '0'.toUInt8).toNat)
          (cs.takeWhile isDigit)
        rw [numeralFrom, List.foldl_cons, ← numeralFrom, saturated_of_ge (by omega)]
      · next hs =>
        rw [ih, toNat_step hd hs]
        rfl
    · rw [scanDigits, if_neg hd, List.takeWhile_cons_of_neg hd, List.dropWhile_cons_of_neg hd,
        numeralFrom, List.foldl_nil, saturated_toNat]

theorem scanDigits_append (hrun : run.all isDigit = true)
    (hrest : rest.head?.all (fun c => !isDigit c) = true) :
    scanDigits 0 (run ++ rest) = (saturated (numeral run), rest) := by
  have hall : ∀ c ∈ run, isDigit c = true := List.all_eq_true.mp hrun
  have hhead : rest.takeWhile isDigit = [] ∧ rest.dropWhile isDigit = rest := by
    cases rest with
    | nil => exact ⟨rfl, rfl⟩
    | cons c cs =>
      have hc : ¬ isDigit c = true := by simpa using hrest
      exact ⟨List.takeWhile_cons_of_neg hc, List.dropWhile_cons_of_neg hc⟩
  rw [scanDigits_eq, List.takeWhile_append_of_pos hall, List.dropWhile_append_of_pos hall,
    hhead.1, hhead.2, List.append_nil]
  rfl

theorem digitRuns_cons_of_not (h : isDigit c = false) (text : Text) :
    digitRuns (c :: text) = digitRuns text := by
  rw [digitRuns, List.splitOnP_cons_eq_if_modifyHead, if_pos (by rw [h]; rfl)]
  rfl

theorem digitRuns_dropWhile (text : Text) :
    digitRuns (text.dropWhile fun c => !isDigit c) = digitRuns text := by
  induction text with
  | nil => rfl
  | cons c text ih =>
    cases hc : isDigit c with
    | true => rw [List.dropWhile_cons_of_neg (by simp [hc])]
    | false => rw [List.dropWhile_cons_of_pos (by simp [hc]), digitRuns_cons_of_not hc, ih]

/-- A text that opens with a digit has the run of it as its first. -/
theorem digitRuns_cons (h : isDigit c = true) : digitRuns (c :: text) =
    (c :: text).takeWhile isDigit :: digitRuns ((c :: text).dropWhile isDigit) := by
  have hsplit := List.takeWhile_append_dropWhile (p := isDigit) (l := c :: text)
  have hrun : ∀ d ∈ (c :: text).takeWhile isDigit, (!isDigit d) = false := fun d hd => by
    rw [List.mem_takeWhile_imp hd]
    rfl
  have hne : ((c :: text).takeWhile isDigit).isEmpty = false := by
    rw [List.takeWhile_cons_of_pos h]
    rfl
  cases hrest : (c :: text).dropWhile isDigit with
  | nil =>
    rw [hrest, List.append_nil] at hsplit
    rw [hsplit] at hrun hne ⊢
    rw [digitRuns, List.splitOnP_eq_singleton hrun, List.filter_cons_of_pos (by rw [hne]; rfl)]
    rfl
  | cons d ds =>
    have hd : isDigit d = false := by
      have := List.head?_dropWhile_not isDigit (c :: text)
      rw [hrest] at this
      simpa using this
    rw [hrest] at hsplit
    rw [digitRuns_cons_of_not hd]
    conv_lhs => rw [← hsplit]
    rw [digitRuns, List.splitOnP_append_cons _ _ (by rw [hd]; rfl),
      List.splitOnP_eq_singleton hrun, List.singleton_append, List.filter_cons_of_pos (by rw [hne]; rfl)]
    rfl

/-- A text has a run of digits exactly if it has a digit. -/
theorem any_isDigit_iff (text : Text) : (!(digitRuns text).isEmpty) = text.any isDigit := by
  induction text with
  | nil => rfl
  | cons c text ih =>
    cases hc : isDigit c with
    | true => rw [digitRuns_cons hc, List.any_cons, hc]; rfl
    | false => rw [digitRuns_cons_of_not hc, ih, List.any_cons, hc, Bool.false_or]

/-- The outer loop reads the runs of a text in turn, as many as are wanted. -/
theorem scanComponents_eq (wanted : Nat) (text : Text) : scanComponents wanted text =
    ((digitRuns text).take wanted).map fun run => saturated (numeral run) := by
  induction wanted generalizing text with
  | zero => rfl
  | succ wanted ih =>
    rw [scanComponents, ← digitRuns_dropWhile text]
    cases hdrop : text.dropWhile fun c => !isDigit c with
    | nil => rfl
    | cons c cs =>
      have hc : isDigit c = true := by
        have := List.head?_dropWhile_not (fun c => !isDigit c) text
        rw [hdrop] at this
        simpa using this
      simp only [digitRuns_cons hc, List.take_succ_cons, List.map_cons, scanDigits_eq, ih]
      rfl

end Digits

namespace SoftwareVersion
variable {a b v : SoftwareVersion}

theorem valid_eq (v : SoftwareVersion) : v.valid = !v.components.isEmpty := by
  rcases v.parsed with ⟨hr, hc⟩ | ⟨hr, -, -, hc⟩
  · simp [valid, hr, hc]
  · rw [valid, List.isEmpty_eq_false_iff.mpr hr, List.isEmpty_eq_false_iff.mpr hc]

theorem components_parse (text : Text) :
    (parse text).components = if text.length ≤ 128 then parseComponents text else [] := by
  unfold parse
  split
  · next h => rw [if_pos h.2.1]
  · next h =>
    split
    · next hl =>
      by_contra hne
      refine h ⟨?_, hl, fun he => hne he.symm⟩
      rintro rfl
      exact hne rfl
    · rfl

/-- The texts that parse to a version are the ones with a digit in 128 bytes. -/
theorem valid_parse (text : Text) : (parse text).valid = isParseable text := by
  rw [valid_eq, components_parse, isParseable]
  by_cases hl : text.length ≤ 128
  · rw [if_pos hl, decide_eq_true hl, Bool.true_and, parseComponents, scanComponents_eq,
      List.isEmpty_map, ← any_isDigit_iff]
    cases digitRuns text <;> rfl
  · rw [if_neg hl, decide_eq_false hl]
    rfl

/-- The components as a sequence that goes on with zeros. -/
def padded (components : List UInt64) (i : ℕ) : ℕ := (components.getD i 0).toNat

/-- The place of a version in the order of precedence; the unset one comes before all others. -/
noncomputable def rank (v : SoftwareVersion) : WithBot (Lex (ℕ → ℕ)) :=
  if v.valid then (toLex (padded v.components) : Lex (ℕ → ℕ)) else ⊥

theorem padded_lt_iff {ls rs : List UInt64} : toLex (padded ls) < toLex (padded rs) ↔
    ls.headD 0 < rs.headD 0 ∨ ls.headD 0 = rs.headD 0 ∧
      toLex (padded ls.tail) < toLex (padded rs.tail) := by
  have hhead : ∀ cs : List UInt64, padded cs 0 = (cs.headD 0).toNat := fun cs => by
    cases cs <;> rfl
  have htail : ∀ cs : List UInt64, (fun i => padded cs (i + 1)) = padded cs.tail := fun cs => by
    cases cs <;> rfl
  rw [Comparators.toLex_lt_iff_head, hhead, hhead, htail, htail, ← UInt64.lt_iff_toNat_lt,
    UInt64.toNat_inj]

/-- One rung of the comparison decides on the two heads or passes on to the tails. -/
theorem compareComponents_rung {ls rs : List UInt64} (h : ls ≠ [] ∨ rs ≠ []) :
    compareComponents ls rs = if ls.headD 0 < rs.headD 0 then -1
      else if ls.headD 0 > rs.headD 0 then 1 else compareComponents ls.tail rs.tail := by
  cases ls <;> cases rs
  · simp at h
  all_goals rw [compareComponents]; rfl

theorem rung_signs (x y : UInt64) (d : Int) :
    ((if x < y then -1 else if x > y then 1 else d) < 0 ↔ x < y ∨ x = y ∧ d < 0) ∧
    (0 < (if x < y then -1 else if x > y then 1 else d) ↔ y < x ∨ y = x ∧ 0 < d) := by
  simp only [gt_iff_lt, UInt64.lt_iff_toNat_lt, ← UInt64.toNat_inj]
  split_ifs <;> omega

theorem compareComponents_signs (ls rs : List UInt64) :
    (compareComponents ls rs < 0 ↔ toLex (padded ls) < toLex (padded rs)) ∧
      (0 < compareComponents ls rs ↔ toLex (padded rs) < toLex (padded ls)) := by
  induction hn : ls.length + rs.length using Nat.strong_induction_on generalizing ls rs with
  | _ n ih =>
    by_cases h : ls ≠ [] ∨ rs ≠ []
    · have hshort : ls.tail.length + rs.tail.length < n := by
        rw [List.length_tail, List.length_tail]
        rcases h with h | h <;> have := List.length_pos_iff.mpr h <;> omega
      obtain ⟨hneg, hpos⟩ := ih _ hshort ls.tail rs.tail rfl
      obtain ⟨hneg', hpos'⟩ :=
        rung_signs (ls.headD 0) (rs.headD 0) (compareComponents ls.tail rs.tail)
      rw [compareComponents_rung h, hneg', hpos', hneg, hpos, @padded_lt_iff ls, @padded_lt_iff rs]
      exact ⟨Iff.rfl, Iff.rfl⟩
    · push Not at h
      obtain ⟨rfl, rfl⟩ := h
      rw [compareComponents]
      exact ⟨iff_of_false (lt_irrefl 0) (lt_irrefl _), iff_of_false (lt_irrefl 0) (lt_irrefl _)⟩

/-- Versions compare by their rank. -/
theorem compare_ranks : Comparators.Ranks compare rank := by
  have hboth : ∀ a b : SoftwareVersion, (compare a b < 0 ↔ rank a < rank b) ∧
      (0 < compare a b ↔ rank b < rank a) := by
    intro a b
    unfold compare rank
    cases a.valid <;> cases b.valid
    case true.true =>
      simp only [Bool.not_true, Bool.and_self, Bool.false_eq_true, if_false, if_true,
        WithBot.coe_lt_coe]
      exact compareComponents_signs _ _
    all_goals simp
  exact ⟨fun a b => (hboth a b).1, fun a b => (hboth a b).2⟩

theorem compare_self (v : SoftwareVersion) : compare v v = 0 := compare_ranks.eq_zero_iff.mpr rfl

theorem compare_eq_zero_comm (a b : SoftwareVersion) : compare a b = 0 ↔ compare b a = 0 := by
  rw [compare_ranks.eq_zero_iff, compare_ranks.eq_zero_iff, eq_comm]

end SoftwareVersion

namespace VersionRange
variable {range : VersionRange} {v : SoftwareVersion}

/-- The members of a range are the versions between its bounds. -/
theorem contains_iff : range.contains v = true ↔ v.valid = true ∧
    (range.minimum.valid = true → 0 ≤ SoftwareVersion.compare v range.minimum) ∧
    (range.maximum.valid = true → SoftwareVersion.compare v range.maximum ≤ 0 ∧
      (SoftwareVersion.compare v range.maximum = 0 → range.includeMaximum = true)) := by
  unfold contains
  cases v.valid with
  | false => simp
  | true =>
    dsimp only
    split_ifs <;> simp_all

theorem valid_iff : range.valid = true ↔
    (range.minimum.valid = true → range.maximum.valid = true →
      SoftwareVersion.compare range.minimum range.maximum ≤ 0 ∧
        (SoftwareVersion.compare range.minimum range.maximum = 0 → range.includeMaximum = true)) := by
  unfold valid
  dsimp only
  cases range.minimum.valid <;> cases range.maximum.valid
  case true.true =>
    split_ifs <;> simp_all
  all_goals simp

/-- Between two members of a range lie members. -/
theorem contains_convex (range : VersionRange) :
    Comparators.ConvexIn SoftwareVersion.compare {v | v.valid = true}
      fun v => range.contains v = true := by
  have ranks := SoftwareVersion.compare_ranks
  intro v _ w _ u hu hv hw hvu huw
  rw [contains_iff] at hv hw ⊢
  rw [ranks.nonpos_iff] at hvu huw
  refine ⟨hu, fun hmin => ?_, fun hmax => ⟨?_, fun heq => (hw.2.2 hmax).2 ?_⟩⟩
  · exact ranks.nonneg_iff.mpr ((ranks.nonneg_iff.mp (hv.2.1 hmin)).trans hvu)
  · exact ranks.nonpos_iff.mpr (huw.trans (ranks.nonpos_iff.mp (hw.2.2 hmax).1))
  · have hle := ranks.nonpos_iff.mp (hw.2.2 hmax).1
    exact ranks.eq_zero_iff.mpr (hle.antisymm (ranks.eq_zero_iff.mp heq ▸ huw))

/-- A range that is not inverted contains its own minimum. -/
theorem contains_minimum (h : range.valid = true) (hmin : range.minimum.valid = true) :
    range.contains range.minimum = true := by
  refine contains_iff.mpr ⟨hmin, fun _ => ?_, valid_iff.mp h hmin⟩
  rw [SoftwareVersion.compare_self]

end VersionRange

/-- Comparison orders the versions. A run of digits, of any length, parses to the number it denotes
or to the largest component; a text of at most 128 bytes parses to its first eight runs, a longer
one to no version. Intervals are convex, and one with a minimum that is not inverted has a member. -/
theorem software_versions_ordered :
    Comparators.TotalPreorderOn SoftwareVersion.compare Set.univ ∧
    (∀ run rest : Text, run.all isDigit = true →
      rest.head?.all (fun c => !isDigit c) = true →
      scanDigits 0 (run ++ rest) = ((min (numeral run) (2 ^ 64 - 1)).toUInt64, rest)) ∧
    (∀ text : Text, (SoftwareVersion.parse text).components =
      if text.length ≤ 128 then
        ((digitRuns text).take 8).map fun run => (min (numeral run) (2 ^ 64 - 1)).toUInt64
      else []) ∧
    (∀ range : VersionRange,
      Comparators.ConvexIn SoftwareVersion.compare {v | v.valid = true}
        fun v => range.contains v = true) ∧
    ∀ range : VersionRange, range.valid = true → range.minimum.valid = true →
      ∃ v, range.contains v = true := by
  refine ⟨SoftwareVersion.compare_ranks.totalPreorderOn _, fun run rest => scanDigits_append,
    fun text => ?_, VersionRange.contains_convex, fun range h hmin => ?_⟩
  · rw [SoftwareVersion.components_parse, parseComponents, scanComponents_eq]
    rfl
  · exact ⟨_, VersionRange.contains_minimum h hmin⟩

theorem software_versions_ordered_sample :
    scanDigits 0 (("18446744073709551616" : Text) ++ ("-rc2" : Text)) =
      ((min (numeral "18446744073709551616") (2 ^ 64 - 1)).toUInt64, ("-rc2" : Text)) ∧
    ∃ v, VersionRange.contains ⟨.parse "1.5", default, false⟩ v = true :=
  ⟨software_versions_ordered.2.1 "18446744073709551616" "-rc2" (by decide) (by decide),
    software_versions_ordered.2.2.2.2 _ (by decide) (by decide)⟩

/-- A run of 129 digits is read as no version at all. -/
theorem long_run_is_no_version :
    (List.replicate 129 '1'.toUInt8).all isDigit = true ∧
    (SoftwareVersion.parse (List.replicate 129 '1'.toUInt8)).components ≠
      [(min (numeral (List.replicate 129 '1'.toUInt8)) (2 ^ 64 - 1)).toUInt64] := by
  refine ⟨by decide, ?_⟩
  rw [SoftwareVersion.components_parse, if_neg (by simp)]
  exact (List.cons_ne_nil _ _).symm

end CapabilityRegistry
