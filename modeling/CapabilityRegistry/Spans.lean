import CapabilityRegistry.Values

/-! Numeric ranges: the widths that validation computes, and when none of them overflows. -/
namespace CapabilityRegistry

section Spans
variable {limits : RegistryLimits} {range : NumericRangeValue} {value v : CapabilityValue}
variable {fields pre post : List RecordField} {name : Text}

/-- The difference of the endpoints, as a mathematical integer. -/
def NumericRangeValue.span (range : NumericRangeValue) : Int :=
  range.maximum.toInt - range.minimum.toInt

/-- The signed 64-bit subtraction of the endpoints does not overflow. -/
def NumericRangeValue.Fits (range : NumericRangeValue) : Prop :=
  -2 ^ 63 ≤ range.span ∧ range.span < 2 ^ 63

mutual

/-- The ranges whose width `validate_value` computes, in order: those that pass the tests before it,
where the validation comes to them at all. -/
def measured (limits : RegistryLimits) : CapabilityValue → List NumericRangeValue
  | .numericRange range =>
    if !(range.minimum > range.maximum) && !(range.step ≤ 0) then [range] else []
  | .record fields =>
    if 1 ≤ limits.maxRecordDepth && fields.length ≤ limits.maxRecordFields then
      measuredFields limits 1 none fields
    else []
  | _ => []

def measuredFields (limits : RegistryLimits) (depth : Nat) (previous : Option Text) :
    List RecordField → List NumericRangeValue
  | [] => []
  | field :: rest =>
    if isCanonicalToken field.name && sortedAfter previous field.name then
      measuredField limits depth field ++
        if (validateField limits depth field).isOk then
          measuredFields limits depth (some field.name) rest
        else []
    else []

def measuredField (limits : RegistryLimits) (depth : Nat) : RecordField → List NumericRangeValue
  | .null _ => []
  | .field _ value =>
    measured limits value ++
      if (validateValue limits value).isOk then measuredNested limits depth value else []

/-- The second look at a record measures again. -/
def measuredNested (limits : RegistryLimits) (depth : Nat) :
    CapabilityValue → List NumericRangeValue
  | .record fields =>
    if depth + 1 ≤ limits.maxRecordDepth && fields.length ≤ limits.maxRecordFields then
      measuredFields limits (depth + 1) none fields
    else []
  | _ => []

end

/-- The validation of a value comes to an ordered range with a positive step. What stands before
the field of a record that the range is in has been accepted. -/
inductive ComesTo (limits : RegistryLimits) : CapabilityValue → NumericRangeValue → Prop
  | here {range : NumericRangeValue} (ordered : range.minimum ≤ range.maximum)
    (step : 0 < range.step) : ComesTo limits (.numericRange range) range
  | inside {pre post : List RecordField} {name : Text} {value : CapabilityValue}
    {range : NumericRangeValue} (depth : 1 ≤ limits.maxRecordDepth)
    (count : (pre ++ .field name value :: post).length ≤ limits.maxRecordFields)
    (before : validateFields limits 1 none (pre ++ [.field name .none]) = .ok ())
    (comes : ComesTo limits value range) :
    ComesTo limits (.record (pre ++ .field name value :: post)) range

theorem isOk_iff {s : Status} : s.isOk = true ↔ s = .ok () := by
  rcases s with e | u
  · exact iff_of_false Bool.false_ne_true (by simp)
  · exact iff_of_true rfl rfl

theorem not_gt_iff : (!(range.minimum > range.maximum) && !(range.step ≤ 0)) = true ↔
    range.minimum ≤ range.maximum ∧ 0 < range.step := by
  simp [Int64.not_lt, Int64.not_le]

theorem span_nonneg (h : range.minimum ≤ range.maximum) : 0 ≤ range.span := by
  have := Int64.le_iff_toInt_le.mp h
  unfold NumericRangeValue.span
  omega

/-- The wrapped width of an ordered range is negative exactly if the width does not fit. -/
theorem width_nonneg_iff (h : range.minimum ≤ range.maximum) :
    ¬ range.maximum - range.minimum < 0 ↔ range.span < 2 ^ 63 := by
  have hnonneg := span_nonneg h
  have hmax := range.maximum.toInt_lt
  have hmin := range.minimum.le_toInt
  rw [Int64.lt_iff_toInt_lt, Int64.toInt_sub]
  change ¬ (range.span.bmod (2 ^ 64)) < (0 : Int64).toInt ↔ _
  have hspan : range.span < 2 ^ 64 := by
    unfold NumericRangeValue.span
    omega
  have hzero : (0 : Int64).toInt = 0 := by decide
  rw [hzero, Int.bmod_def]
  omega

theorem validateNumericRange_eq_ok : validateNumericRange range = .ok () ↔
    range.minimum ≤ range.maximum ∧ 0 < range.step ∧ range.span < 2 ^ 63 := by
  simp only [validateNumericRange, status_bind_eq_ok, require_eq_ok]
  constructor
  · rintro ⟨hmin, hstep, hwidth⟩
    have h := not_gt_iff.mp (by rw [hmin, hstep]; rfl)
    exact ⟨h.1, h.2, (width_nonneg_iff h.1).mp (by simpa using hwidth)⟩
  · rintro ⟨hmin, hstep, hspan⟩
    have h := not_gt_iff.mpr ⟨hmin, hstep⟩
    rw [Bool.and_eq_true] at h
    exact ⟨h.1, h.2, by simpa using (width_nonneg_iff hmin).mpr hspan⟩

theorem measured_numericRange {r : NumericRangeValue} :
    range ∈ measured limits (.numericRange r) ↔
      range = r ∧ r.minimum ≤ r.maximum ∧ 0 < r.step := by
  rw [measured]
  split
  · next h => simp [not_gt_iff.mp h]
  · next h => simpa using fun _ => mt not_gt_iff.mpr h

/-- What the second look at fields with accepted values measures fits. -/
theorem fits_of_measuredFields {depth : Nat} {previous : Option Text}
    (hfits : ∀ name v, .field name v ∈ fields → (∀ range ∈ measured limits v, range.Fits) ∧
      ∀ depth, ∀ range ∈ measuredNested limits depth v, range.Fits) :
    ∀ range ∈ measuredFields limits depth previous fields, range.Fits := by
  induction fields generalizing previous with
  | nil => simp [measuredFields]
  | cons field rest ih =>
    intro range hr
    rw [measuredFields] at hr
    split at hr
    · rcases List.mem_append.mp hr with hr | hr
      · cases field with
        | null name => simp [measuredField] at hr
        | field name v =>
          have hv := hfits name v List.mem_cons_self
          rw [measuredField] at hr
          rcases List.mem_append.mp hr with hr | hr
          · exact hv.1 range hr
          · split at hr
            · exact hv.2 depth range hr
            · cases hr
      · split at hr
        · exact ih (fun name v hv => hfits name v (List.mem_cons_of_mem _ hv)) range hr
        · cases hr
    · cases hr

/-- An accepted value holds no range that does not fit, at either look. -/
theorem fits_of_accepted (h : validateValue limits value = .ok ()) :
    (∀ range ∈ measured limits value, range.Fits) ∧
      ∀ depth, ∀ range ∈ measuredNested limits depth value, range.Fits := by
  induction value using CapabilityValue.induct with
  | flat value hk =>
    cases value with
    | record fields => exact absurd rfl hk
    | numericRange r =>
      refine ⟨fun range hr => ?_, fun _ => nofun⟩
      obtain ⟨rfl, hmin, -⟩ := measured_numericRange.mp hr
      have hok := validateNumericRange_eq_ok.mp h
      have hnonneg := span_nonneg hmin
      exact ⟨by omega, hok.2.2⟩
    | _ => exact ⟨nofun, fun _ => nofun⟩
  | record fields ih =>
    simp only [validateValue, status_bind_eq_ok] at h
    have hfits : ∀ name v, .field name v ∈ fields →
        (∀ range ∈ measured limits v, range.Fits) ∧
          ∀ depth, ∀ range ∈ measuredNested limits depth v, range.Fits := by
      intro name v hv
      obtain ⟨name', v', he, -, hok⟩ := spec_of_validateFields h.2.2 _ hv
      cases he
      exact ih name v hv hok
    refine ⟨fun range hr => ?_, fun depth range hr => ?_⟩
    · rw [measured] at hr
      split at hr
      · exact fits_of_measuredFields hfits range hr
      · cases hr
    · rw [measuredNested] at hr
      split at hr
      · exact fits_of_measuredFields hfits range hr
      · cases hr

/-- A range that does not fit is first measured in a field that everything before is accepted of. -/
theorem exists_field_of_measuredFields {previous : Option Text}
    (hr : range ∈ measuredFields limits 1 previous fields) (hfit : ¬ range.Fits) :
    ∃ pre name v post, fields = pre ++ .field name v :: post ∧ range ∈ measured limits v ∧
      validateFields limits 1 previous (pre ++ [.field name .none]) = .ok () := by
  induction fields generalizing previous with
  | nil => cases hr
  | cons field rest ih =>
    rw [measuredFields] at hr
    split at hr
    · next hname =>
      rw [Bool.and_eq_true] at hname
      rcases List.mem_append.mp hr with hr | hr
      · cases field with
        | null name => cases hr
        | field name v =>
          rw [measuredField] at hr
          rcases List.mem_append.mp hr with hr | hr
          · refine ⟨[], name, v, rest, rfl, hr, ?_⟩
            simp only [List.nil_append, validateFields, status_bind_eq_ok, require_eq_ok]
            exact ⟨hname.1, hname.2, rfl, trivial⟩
          · split at hr
            · next hok => exact absurd ((fits_of_accepted (isOk_iff.mp hok)).2 1 range hr) hfit
            · cases hr
      · split at hr
        · next hok =>
          obtain ⟨pre, name, v, post, rfl, hv, hpre⟩ := ih hr
          refine ⟨field :: pre, name, v, post, rfl, hv, ?_⟩
          simp only [List.cons_append, validateFields, status_bind_eq_ok, require_eq_ok]
          exact ⟨hname.1, hname.2, isOk_iff.mp hok, hpre⟩
        · cases hr
    · cases hr

theorem comesTo_of_measured (hr : range ∈ measured limits value) (hfit : ¬ range.Fits) :
    ComesTo limits value range := by
  induction value using CapabilityValue.induct with
  | flat value hk =>
    cases value with
    | record fields => exact absurd rfl hk
    | numericRange r =>
      obtain ⟨rfl, hmin, hstep⟩ := measured_numericRange.mp hr
      exact .here hmin hstep
    | _ => cases hr
  | record fields ih =>
    rw [measured] at hr
    split at hr
    · next hlimits =>
      simp only [Bool.and_eq_true, decide_eq_true_eq] at hlimits
      obtain ⟨pre, name, v, post, rfl, hv, hpre⟩ := exists_field_of_measuredFields hr hfit
      exact .inside hlimits.1 hlimits.2 hpre (ih name v (by simp) hv)
    · cases hr

theorem measuredFields_of_before {previous : Option Text}
    (h : validateFields limits 1 previous (pre ++ [.field name .none]) = .ok ())
    (hr : range ∈ measured limits v) :
    range ∈ measuredFields limits 1 previous (pre ++ .field name v :: post) := by
  induction pre generalizing previous with
  | nil =>
    simp only [List.nil_append, validateFields, status_bind_eq_ok, require_eq_ok] at h
    rw [List.nil_append, measuredFields, if_pos (by rw [Bool.and_eq_true]; exact ⟨h.1, h.2.1⟩)]
    exact List.mem_append_left _ (List.mem_append_left _ hr)
  | cons field pre ih =>
    simp only [List.cons_append, validateFields, status_bind_eq_ok, require_eq_ok] at h
    obtain ⟨hname, hsorted, hfield, hrest⟩ := h
    rw [List.cons_append, measuredFields, if_pos (by rw [Bool.and_eq_true]; exact ⟨hname, hsorted⟩),
      if_pos (isOk_iff.mpr hfield)]
    exact List.mem_append_right _ (ih hrest)

theorem measured_of_comesTo (h : ComesTo limits value range) : range ∈ measured limits value := by
  induction h with
  | here ordered step => exact measured_numericRange.mpr ⟨rfl, ordered, step⟩
  | inside depth count before _ ih =>
    rw [measured, if_pos (by simpa using ⟨depth, by simpa using count⟩)]
    exact measuredFields_of_before before ih

theorem ComesTo.ordered (h : ComesTo limits value range) : range.minimum ≤ range.maximum := by
  induction h with
  | here ordered step => exact ordered
  | inside _ _ _ _ ih => exact ih

end Spans

section Samples

def widestRange : NumericRangeValue := ⟨Int64.minValue, Int64.maxValue, 1⟩

end Samples

end CapabilityRegistry
