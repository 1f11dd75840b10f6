import CapabilityRegistry.Quirk
import CapabilityRegistry.Versions

/-! Revision texts: the comparison that stepping ranges are checked and evaluated with, and when it
orders the revisions it meets. -/
namespace CapabilityRegistry

open SoftwareVersion (isParseable)

section Tokens
variable {a b c : Text} {S : Set Text}

/-- Texts with a number compare as versions. -/
theorem compareRevisionToken_of_numbered (ha : isParseable a = true) (hb : isParseable b = true) :
    compareRevisionToken a b = SoftwareVersion.compare (.parse a) (.parse b) := by
  simp [compareRevisionToken, SoftwareVersion.valid_parse, ha, hb]

/-- Any other two texts compare by their bytes. -/
theorem nonpos_of_plain (h : ¬ (isParseable a = true ∧ isParseable b = true)) :
    compareRevisionToken a b ≤ 0 ↔ compare a b ≠ .gt := by
  unfold compareRevisionToken
  simp only [SoftwareVersion.valid_parse, Bool.and_eq_true, if_neg h]
  cases compare a b <;> decide

theorem sign_swap_compareRevisionToken (a b : Text) :
    (compareRevisionToken b a).sign = -(compareRevisionToken a b).sign := by
  by_cases h : isParseable a = true ∧ isParseable b = true
  · rw [compareRevisionToken_of_numbered h.1 h.2, compareRevisionToken_of_numbered h.2 h.1]
    exact SoftwareVersion.compare_ranks.sign_swap _ _
  · have h' : ¬ (isParseable b = true ∧ isParseable a = true) := fun h' => h h'.symm
    unfold compareRevisionToken
    simp only [SoftwareVersion.valid_parse, Bool.and_eq_true, if_neg h, if_neg h',
      Std.OrientedOrd.eq_swap (a := b) (b := a)]
    cases compare a b <;> rfl

/-- No text without a number stands, byte by byte, between two texts with numbers that do not
grow from the first to the second. -/
def SteadyRevisions (S : Set Text) : Prop :=
  ∀ x ∈ S, ∀ u ∈ S, ∀ y ∈ S, isParseable x = true → isParseable u = false → isParseable y = true →
    compare x u = .lt → compare u y = .lt →
      SoftwareVersion.compare (.parse x) (.parse y) < 0

theorem lt_of_mixed (h : isParseable a ≠ isParseable b) (hab : compare a b ≠ .gt) :
    compare a b = .lt := by
  cases hc : compare a b with
  | lt => rfl
  | eq => exact absurd (congrArg isParseable (Std.LawfulEqOrd.eq_of_compare hc)) h
  | gt => exact absurd hc hab

theorem not_gt_trans (hab : compare a b ≠ .gt) (hbc : compare b c ≠ .gt) : compare a c ≠ .gt := by
  have h := Std.TransOrd.isLE_trans (Ordering.isLE_iff_ne_gt.mpr hab)
    (Ordering.isLE_iff_ne_gt.mpr hbc)
  exact Ordering.isLE_iff_ne_gt.mp h

/-- Among steady revisions the comparison is transitive: a triple compares by bytes, or as versions,
or has one text without a number, on either side of the two others or between them. -/
theorem compareRevisionToken_trans (hs : SteadyRevisions S) (ha : a ∈ S) (hb : b ∈ S) (hc : c ∈ S)
    (hab : compareRevisionToken a b ≤ 0) (hbc : compareRevisionToken b c ≤ 0) :
    compareRevisionToken a c ≤ 0 := by
  have ranks := SoftwareVersion.compare_ranks
  cases na : isParseable a <;> cases nb : isParseable b <;> cases nc : isParseable c
  case true.true.true =>
    rw [compareRevisionToken_of_numbered na nb, ranks.nonpos_iff] at hab
    rw [compareRevisionToken_of_numbered nb nc, ranks.nonpos_iff] at hbc
    rw [compareRevisionToken_of_numbered na nc, ranks.nonpos_iff]
    exact hab.trans hbc
  case true.true.false =>
    rw [compareRevisionToken_of_numbered na nb] at hab
    rw [nonpos_of_plain (by simp [nc])] at hbc ⊢
    intro hgt
    have hlt := hs b hb c hc a ha nb nc na (lt_of_mixed (by simp [nb, nc]) hbc)
      (Std.OrientedCmp.lt_of_gt hgt)
    exact absurd (ranks.nonpos_iff.mp hab) (not_le.mpr ((ranks.neg_iff _ _).mp hlt))
  case false.true.true =>
    rw [compareRevisionToken_of_numbered nb nc] at hbc
    rw [nonpos_of_plain (by simp [na])] at hab ⊢
    intro hgt
    have hlt := hs c hc a ha b hb nc na nb (Std.OrientedCmp.lt_of_gt hgt)
      (lt_of_mixed (by simp [na, nb]) hab)
    exact absurd (ranks.nonpos_iff.mp hbc) (not_le.mpr ((ranks.neg_iff _ _).mp hlt))
  case true.false.true =>
    rw [nonpos_of_plain (by simp [nb])] at hab hbc
    rw [compareRevisionToken_of_numbered na nc]
    exact (hs a ha b hb c hc na nb nc (lt_of_mixed (by simp [na, nb]) hab)
      (lt_of_mixed (by simp [nb, nc]) hbc)).le
  all_goals
    rw [nonpos_of_plain (by simp [na, nb, nc])] at hab hbc ⊢
    exact not_gt_trans hab hbc

/-- A comparison that orders a set of revisions finds them steady. -/
theorem steadyRevisions_of_ordered
    (h : Comparators.TotalPreorderOn compareRevisionToken S) : SteadyRevisions S := by
  intro x hx u hu y hy nx nu ny hxu huy
  have hxu' : compareRevisionToken x u ≤ 0 := (nonpos_of_plain (by simp [nu])).mpr (by simp [hxu])
  have huy' : compareRevisionToken u y ≤ 0 := (nonpos_of_plain (by simp [nu])).mpr (by simp [huy])
  have hyu : ¬ compareRevisionToken y u ≤ 0 := by
    rw [nonpos_of_plain (by simp [nu]), not_not]
    exact Std.OrientedCmp.gt_of_lt huy
  have hxy := h.trans x hx u hu y hy hxu' huy'
  have hyx : ¬ compareRevisionToken y x ≤ 0 := fun hyx => hyu (h.trans y hy x hx u hu hyx hxu')
  rw [← h.nonneg_iff hx hy, not_le, compareRevisionToken_of_numbered nx ny] at hyx
  exact hyx

end Tokens

section Ranges
variable {limits : RegistryLimits} {ranges : List RevisionRange}

/-- The revisions a stepping range selects. -/
def RevisionRange.Selects (range : RevisionRange) (token : Text) : Prop :=
  0 ≤ compareRevisionToken token range.minimum ∧ compareRevisionToken token range.maximum ≤ 0

theorem selectRevisionRanges_eq_matched {revision : HardwareRevisionId} (hne : ranges ≠ [])
    (hv : revision.valid = true) : selectRevisionRanges ranges revision = .matched ↔
      ∃ range ∈ ranges, range.Selects revision.str := by
  rw [selectRevisionRanges, if_neg (by simpa using hne), if_neg (by simp [hv])]
  split
  · next h =>
    refine iff_of_true rfl ?_
    simpa [RevisionRange.Selects] using h
  · next h =>
    refine iff_of_false (by simp) ?_
    simpa [RevisionRange.Selects] using h

/-- The comparison orders a set of revisions, and every accepted range with bounds among them is
convex there, exactly if the revisions are steady. -/
theorem revisions_ordered_iff (S : Set Text) :
    (Comparators.TotalPreorderOn compareRevisionToken S ∧
      ∀ limits applicability, validateQuirkApplicability applicability limits = .ok () →
        ∀ range ∈ applicability.revisionRanges, range.minimum ∈ S → range.maximum ∈ S →
          Comparators.ConvexIn compareRevisionToken S range.Selects) ↔ SteadyRevisions S := by
  constructor
  · exact fun h => steadyRevisions_of_ordered h.1
  · intro h
    have hordered := Comparators.TotalPreorderOn.of_swap
      (fun a _ b _ => sign_swap_compareRevisionToken a b)
      fun a ha b hb c hc => compareRevisionToken_trans h ha hb hc
    exact ⟨hordered, fun _ _ _ range _ hmin hmax => hordered.convexIn_interval hmin hmax⟩

end Ranges

section Samples

theorem compareRevisionToken_of_single {a b : Text} {n m : UInt64}
    (ha : (SoftwareVersion.parse a).components = [n])
    (hb : (SoftwareVersion.parse b).components = [m]) :
    compareRevisionToken a b = if n < m then -1 else if n > m then 1 else 0 := by
  have va : (SoftwareVersion.parse a).valid = true := by rw [SoftwareVersion.valid_eq, ha]; rfl
  have vb : (SoftwareVersion.parse b).valid = true := by rw [SoftwareVersion.valid_eq, hb]; rfl
  simp [compareRevisionToken, SoftwareVersion.compare, va, vb, ha, hb,
    SoftwareVersion.compareComponents]

def steppings : QuirkApplicability := { revisionRanges := [⟨"a1", "b2"⟩] }

theorem selects_low (h : compareRevisionToken "a1" "b2" ≤ 0) :
    (⟨"a1", "b2"⟩ : RevisionRange).Selects "a1" := by
  refine ⟨?_, h⟩
  have ha1 : (SoftwareVersion.parse "a1").components = [1] := by decide
  rw [compareRevisionToken_of_single ha1 ha1]
  decide

/-- Three revisions in a circle, and an accepted range that matches the devices of two revisions
but not those of one between them. -/
theorem stepping_range_skips_revision :
    ¬ Comparators.TotalPreorderOn compareRevisionToken Set.univ ∧
    validateQuirkApplicability steppings {} = .ok () ∧
    compareRevisionToken "a1" "a10" ≤ 0 ∧ compareRevisionToken "a10" "azz" ≤ 0 ∧
    selectRevisionRanges steppings.revisionRanges (.parse "a1") = .matched ∧
    selectRevisionRanges steppings.revisionRanges (.parse "azz") = .matched ∧
    selectRevisionRanges steppings.revisionRanges (.parse "a10") ≠ .matched := by
  have ha1 : (SoftwareVersion.parse "a1").components = [1] := by decide
  have ha10 : (SoftwareVersion.parse "a10").components = [10] := by decide
  have hb2 : (SoftwareVersion.parse "b2").components = [2] := by decide
  have hlow : compareRevisionToken "a1" "b2" ≤ 0 := by
    rw [compareRevisionToken_of_single ha1 hb2]
    decide
  have hup : compareRevisionToken "b2" "a10" ≤ 0 := by
    rw [compareRevisionToken_of_single hb2 ha10]
    decide
  have hplain : compareRevisionToken "a10" "azz" ≤ 0 := by decide
  have hback : ¬ compareRevisionToken "b2" "azz" ≤ 0 := by decide
  refine ⟨fun h => hback (h.trans _ trivial _ trivial _ trivial hup hplain), ?_, ?_, hplain, ?_⟩
  · have hrange : checkRevisionRange {} ⟨"a1", "b2"⟩ = .ok () := by
      simp only [checkRevisionRange, status_bind_eq_ok, require_eq_ok]
      exact ⟨by decide, by decide, by simpa using hlow⟩
    simp only [validateQuirkApplicability, status_bind_eq_ok, checkAll_eq_ok]
    refine ⟨by decide, by decide, by decide, by decide, by decide, by decide, by decide, ?_,
      by decide, by decide, by decide, by decide⟩
    intro range hr
    cases List.mem_singleton.mp hr
    exact hrange
  · rw [compareRevisionToken_of_single ha1 ha10]
    decide
  · have hne : steppings.revisionRanges ≠ [] := List.cons_ne_nil _ _
    refine ⟨?_, ?_, ?_⟩
    · rw [selectRevisionRanges_eq_matched hne (by decide)]
      exact ⟨_, List.mem_singleton_self _, selects_low hlow⟩
    · rw [selectRevisionRanges_eq_matched hne (by decide)]
      exact ⟨_, List.mem_singleton_self _, by decide, by decide⟩
    · rw [Ne, selectRevisionRanges_eq_matched hne (by decide)]
      rintro ⟨range, hr, hs⟩
      cases List.mem_singleton.mp hr
      have hhigh : compareRevisionToken "a10" "b2" ≤ 0 := hs.2
      rw [compareRevisionToken_of_single ha10 hb2] at hhigh
      exact absurd hhigh (by decide)

end Samples

end CapabilityRegistry
