import CapabilityRegistry.Value

/-! Canonical values: what normalization returns, it leaves as it is. -/
namespace CapabilityRegistry

section Sorting
variable {α : Type} [Ord α] [Std.TransOrd α]

theorem isLE_total (a b : α) : ((compare a b).isLE || (compare b a).isLE) = true := by
  have h : compare a b = (compare b a).swap := Std.OrientedCmp.eq_swap
  rw [h]
  cases compare b a <;> rfl

theorem sorted_mergeSort (xs : List α) :
    (xs.mergeSort fun a b => (compare a b).isLE).Pairwise fun a b => (compare a b).isLE = true :=
  List.pairwise_mergeSort (fun _ _ _ => Std.TransCmp.isLE_trans) isLE_total xs

theorem sortUnique_sortUnique [DecidableEq α] (xs : List α) :
    sortUnique (sortUnique xs) = sortUnique xs := by
  have hs : (sortUnique xs).Pairwise fun a b => (compare a b).isLE = true :=
    (sorted_mergeSort xs).sublist (List.destutter_sublist _ _)
  unfold sortUnique at hs ⊢
  rw [List.mergeSort_of_pairwise hs]
  exact List.destutter_idem _ _

/-- Sorting by a name that is a total preorder leaves a sorted list as it is. -/
theorem mergeSort_mergeSort {β : Type} (name : β → α) (xs : List β) :
    ((xs.mergeSort fun a b => (compare (name a) (name b)).isLE).mergeSort
      fun a b => (compare (name a) (name b)).isLE) =
      xs.mergeSort fun a b => (compare (name a) (name b)).isLE :=
  List.mergeSort_of_pairwise
    (List.pairwise_mergeSort (fun _ _ _ => Std.TransCmp.isLE_trans) (fun _ _ => isLE_total _ _) xs)

end Sorting

section Values
variable {limits : RegistryLimits} {value result : CapabilityValue} {fields : List RecordField}

/-- The value is its own normal form. -/
def Canonical (limits : RegistryLimits) (value : CapabilityValue) : Prop :=
  normalizeValue limits value = .ok value

/-- The field is its own normal form. -/
def CanonicalField (limits : RegistryLimits) (field : RecordField) : Prop :=
  normalizeField limits field = .ok field

theorem normalizeFields_of_canonical (h : ∀ f ∈ fields, CanonicalField limits f) :
    normalizeFields limits fields = .ok fields := by
  induction fields with
  | nil => rfl
  | cons f fs ih =>
    have hf : normalizeField limits f = .ok f := h f List.mem_cons_self
    have hfs := ih fun g hg => h g (List.mem_cons_of_mem _ hg)
    simp only [normalizeFields, hf, hfs]
    rfl

/-- A record of canonical fields, in order and without a name twice, is canonical. -/
theorem canonical_record (hf : ∀ f ∈ fields, CanonicalField limits f)
    (hs : (fields.mergeSort fun a b => (compare a.name b.name).isLE) = fields)
    (hd : hasAdjacentDuplicateNames fields = false)
    (hv : validateValue limits (.record fields) = .ok ()) :
    Canonical limits (.record fields) := by
  simp only [Canonical, normalizeValue, bind_eq_ok, require_eq_ok]
  refine ⟨fields, normalizeFields_of_canonical hf, (), ?_, (), ?_, ?_⟩
  · rw [hs, hd]
    rfl
  · rw [hs]
    exact hv
  · rw [hs]
    rfl

/-- A value that is only validated is left as it is. -/
theorem canonical_of_validated
    (h : normalizeValue limits value = (do validateValue limits value; pure value))
    (hr : normalizeValue limits value = .ok result) : Canonical limits result := by
  rw [h, bind_eq_ok] at hr
  obtain ⟨u, hv, hr⟩ := hr
  obtain rfl := Except.ok.inj hr
  rw [Canonical, h, bind_eq_ok]
  exact ⟨u, hv, rfl⟩

mutual

/-- The normal form of a value is canonical, by recursion on the fields of records. -/
theorem canonical_normalizeValue (value result : CapabilityValue)
    (h : normalizeValue limits value = .ok result) : Canonical limits result := by
  cases value with
  | featureSet features =>
    simp only [normalizeValue, bind_eq_ok, pure, Except.pure, Except.ok.injEq] at h
    obtain ⟨u, hv, rfl⟩ := h
    simp only [Canonical, normalizeValue, sortUnique_sortUnique, bind_eq_ok]
    exact ⟨u, hv, rfl⟩
  | architectureSet architectures =>
    simp only [normalizeValue, bind_eq_ok, pure, Except.pure, Except.ok.injEq] at h
    obtain ⟨u, hv, rfl⟩ := h
    simp only [Canonical, normalizeValue, sortUnique_sortUnique, bind_eq_ok]
    exact ⟨u, hv, rfl⟩
  | record fields =>
    simp only [normalizeValue, bind_eq_ok, require_eq_ok, Bool.not_eq_true', pure, Except.pure,
      Except.ok.injEq] at h
    obtain ⟨normalized, hn, u, hd, v, hv, rfl⟩ := h
    refine canonical_record (fun f hf => ?_) (mergeSort_mergeSort RecordField.name _) hd hv
    exact canonical_normalizeFields fields normalized hn f
      ((List.mergeSort_perm _ _).mem_iff.mp hf)
  | _ => exact canonical_of_validated rfl h

theorem canonical_normalizeFields : ∀ fields normalized : List RecordField,
    normalizeFields limits fields = .ok normalized → ∀ f ∈ normalized, CanonicalField limits f
  | [], normalized, h, f, hf => by
    obtain rfl := Except.ok.inj h
    cases hf
  | field :: rest, normalized, h, f, hf => by
    simp only [normalizeFields, bind_eq_ok, pure, Except.pure, Except.ok.injEq] at h
    obtain ⟨g, hg, gs, hgs, rfl⟩ := h
    rcases List.mem_cons.mp hf with rfl | hf
    · exact canonical_normalizeField field _ hg
    · exact canonical_normalizeFields rest gs hgs f hf

theorem canonical_normalizeField : ∀ field result : RecordField,
    normalizeField limits field = .ok result → CanonicalField limits result
  | .null name, result, h => by
    obtain rfl := Except.ok.inj h
    rfl
  | .field name value, result, h => by
    simp only [normalizeField, bind_eq_ok, pure, Except.pure, Except.ok.injEq] at h
    obtain ⟨normalized, hn, rfl⟩ := h
    have hc := canonical_normalizeValue value normalized hn
    simp only [CanonicalField, normalizeField, bind_eq_ok]
    exact ⟨normalized, hc, rfl⟩

end

end Values

end CapabilityRegistry
