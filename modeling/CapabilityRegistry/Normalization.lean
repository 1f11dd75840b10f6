import CapabilityRegistry.Lib.Sort
import CapabilityRegistry.Values

/-! Normalization of capability values: its results are the values that validation accepts, and it
forgets the order of fields and the order and repetition of set members. -/
namespace CapabilityRegistry

open SortLib (Ascending sortWith)

section Sorted
variable {limits : RegistryLimits} {fields fs gs : List RecordField}

/-- A loop that holds every element against the one before it accepts ascending keys only. -/
theorem isChain_of_checks {α β : Type} [Ord α] (key : β → α) {loop : Option α → List β → Status}
    (hloop : ∀ previous x rest, loop previous (x :: rest) = .ok () →
      sortedAfter previous (key x) = true ∧ loop (some (key x)) rest = .ok ())
    {previous : Option α} {xs : List β} (h : loop previous xs = .ok ()) :
    (previous.toList ++ xs.map key).IsChain fun a b => compare a b = .lt := by
  induction xs generalizing previous with
  | nil => cases previous <;> simp
  | cons x rest ih =>
    obtain ⟨hx, hrest⟩ := hloop previous x rest h
    have hchain := ih hrest
    cases previous with
    | none => exact hchain
    | some p => exact List.isChain_cons_cons.mpr ⟨by simpa [sortedAfter] using hx, hchain⟩

theorem ascending_of_validateFeatures {features : List Text}
    (h : validateFeatures none features = .ok ()) : Ascending compare features := by
  have hchain := isChain_of_checks id (fun previous x rest h => by
    simp only [validateFeatures, status_bind_eq_ok, require_eq_ok] at h
    exact h.2) h
  rw [List.map_id] at hchain
  exact SortLib.ascending_of_isChain hchain

theorem ascending_of_validateArchitectures {architectures : List ArchitectureId}
    (h : validateArchitectures none architectures = .ok ()) : Ascending compare architectures := by
  have hchain := isChain_of_checks id (fun previous x rest h => by
    simp only [validateArchitectures, status_bind_eq_ok, require_eq_ok] at h
    exact h.2) h
  rw [List.map_id] at hchain
  exact SortLib.ascending_of_isChain hchain

theorem ascending_of_validateFields {depth : Nat}
    (h : validateFields limits depth none fields = .ok ()) :
    Ascending (compareOn RecordField.name) fields := by
  have hchain := isChain_of_checks RecordField.name (fun previous x rest h => by
    simp only [validateFields, status_bind_eq_ok, require_eq_ok] at h
    exact ⟨h.2.1, h.2.2.2⟩) h
  exact List.pairwise_map.mp (SortLib.ascending_of_isChain hchain)

section Sets
variable {α : Type} [Ord α] [DecidableEq α] {xs ys : List α} {a : α}

theorem mem_sortUnique : a ∈ sortUnique xs ↔ a ∈ xs :=
  SortLib.mem_destutter_ne.trans (List.mergeSort_perm xs _).mem_iff

variable [Std.TransOrd α]

theorem sortUnique_of_ascending (h : Ascending compare xs) : sortUnique xs = xs := by
  have hsort : (xs.mergeSort fun a b => (compare a b).isLE) = xs := SortLib.sortWith_of_ascending h
  rw [sortUnique, hsort]
  exact List.destutter_of_isChain _ xs h.nodup.isChain

theorem ascending_sortUnique [Std.LawfulEqOrd α] (xs : List α) :
    Ascending compare (sortUnique xs) :=
  SortLib.ascending_destutter (SortLib.sortWith_pairwise compare xs)

/-- Only the members of a set matter to its sorted form. -/
theorem sortUnique_congr [Std.LawfulEqOrd α] (h : ∀ a, a ∈ xs ↔ a ∈ ys) :
    sortUnique xs = sortUnique ys :=
  (ascending_sortUnique xs).eq_of_mem_iff (ascending_sortUnique ys) fun a => by
    rw [mem_sortUnique, mem_sortUnique, h]

end Sets

theorem hasAdjacentDuplicateNames_eq_false : hasAdjacentDuplicateNames fields = false ↔
    fields.IsChain fun a b => a.name ≠ b.name := by
  induction fields with
  | nil => simp [hasAdjacentDuplicateNames]
  | cons a fields ih =>
    cases fields with
    | nil => simp [hasAdjacentDuplicateNames]
    | cons b rest =>
      rw [hasAdjacentDuplicateNames, Bool.or_eq_false_iff, ih, List.isChain_cons_cons]
      simp

/-- Sorted fields without adjacent duplicates ascend by name. -/
theorem ascending_of_sorted
    (h : hasAdjacentDuplicateNames (sortWith (compareOn RecordField.name) fields) = false) :
    Ascending (compareOn RecordField.name) (sortWith (compareOn RecordField.name) fields) := by
  have hsorted := (SortLib.sortWith_pairwise (compareOn RecordField.name) fields).isChain
  have hne := hasAdjacentDuplicateNames_eq_false.mp h
  refine SortLib.ascending_of_isChain (List.isChain_iff_getElem.mpr fun i hi => ?_)
  have hle := List.isChain_iff_getElem.mp hsorted i hi
  have hnames := List.isChain_iff_getElem.mp hne i hi
  rw [compareOn] at hle ⊢
  cases hc : compare (sortWith (compareOn RecordField.name) fields)[i].name
      (sortWith (compareOn RecordField.name) fields)[i + 1].name with
  | lt => rfl
  | eq => exact absurd (Std.LawfulEqOrd.eq_of_compare hc) hnames
  | gt => exact absurd hc hle

end Sorted

section Accepted
variable {limits : RegistryLimits} {fields : List RecordField} {value : CapabilityValue}

theorem normalizeFields_of_accepted (hfields : ∀ field ∈ fields, ∃ name v, field = .field name v ∧
    normalizeValue limits v = .ok v) : normalizeFields limits fields = .ok fields := by
  induction fields with
  | nil => rfl
  | cons field rest ih =>
    obtain ⟨⟨name, v, rfl, hv⟩, hrest⟩ := List.forall_mem_cons.mp hfields
    rw [normalizeFields, normalizeField, hv, ih hrest]
    rfl

/-- A value that validation accepts is its own normal form. -/
theorem normalizeValue_of_validateValue (h : validateValue limits value = .ok ()) :
    normalizeValue limits value = .ok value := by
  induction value using CapabilityValue.induct with
  | flat value hk =>
    cases value with
    | record fields => exact absurd rfl hk
    | featureSet features =>
      have hs : sortUnique features = features := by
        simp only [validateValue, status_bind_eq_ok] at h
        exact sortUnique_of_ascending (ascending_of_validateFeatures h.2)
      rw [normalizeValue, hs, h]
      rfl
    | architectureSet architectures =>
      have hs : sortUnique architectures = architectures := by
        simp only [validateValue, status_bind_eq_ok] at h
        exact sortUnique_of_ascending (ascending_of_validateArchitectures h.2)
      rw [normalizeValue, hs, h]
      rfl
    | _ =>
      rw [normalizeValue, h]
      all_goals first | rfl | simp
  | record fields ih =>
    have hfields := h
    simp only [validateValue, status_bind_eq_ok] at hfields
    have hascending := ascending_of_validateFields hfields.2.2
    have hnormal : normalizeFields limits fields = .ok fields := by
      refine normalizeFields_of_accepted fun field hf => ?_
      obtain ⟨name, v, rfl, -, hv⟩ := spec_of_validateFields hfields.2.2 field hf
      exact ⟨name, v, rfl, ih name v hf hv⟩
    have hsort : (fields.mergeSort fun a b => (compare a.name b.name).isLE) = fields :=
      SortLib.sortWith_of_ascending hascending
    have hnodup : hasAdjacentDuplicateNames fields = false :=
      hasAdjacentDuplicateNames_eq_false.mpr (hascending.isChain.imp fun {a b} hlt he => by
        have hself : compare a.name b.name = .lt := hlt
        rw [he, Std.ReflOrd.compare_self] at hself
        cases hself)
    simp only [normalizeValue, bind_eq_ok, require_eq_ok]
    refine ⟨fields, hnormal, (), ?_, (), ?_, ?_⟩
    · rw [hsort, hnodup]
      rfl
    · rw [hsort]
      exact h
    · rw [hsort]
      rfl

end Accepted

section Rearranged
variable {limits : RegistryLimits} {fs gs ns : List RecordField} {a b v w : CapabilityValue}

/-- Two values differ only in the order or repetition of set members and the order of record
fields, at any depth. -/
inductive Rearranged : CapabilityValue → CapabilityValue → Prop
  | refl (value : CapabilityValue) : Rearranged value value
  | trans {a b c : CapabilityValue} : Rearranged a b → Rearranged b c → Rearranged a c
  | featureSet {xs ys : List Text} (members : ∀ x, x ∈ xs ↔ x ∈ ys) :
    Rearranged (.featureSet xs) (.featureSet ys)
  | architectureSet {xs ys : List ArchitectureId} (members : ∀ x, x ∈ xs ↔ x ∈ ys) :
    Rearranged (.architectureSet xs) (.architectureSet ys)
  | order {fs gs : List RecordField} (perm : fs.Perm gs) : Rearranged (.record fs) (.record gs)
  | field (before after : List RecordField) (name : Text) {v w : CapabilityValue} :
    Rearranged v w →
      Rearranged (.record (before ++ .field name v :: after))
        (.record (before ++ .field name w :: after))

theorem normalizeFields_eq_ok : normalizeFields limits fs = .ok ns ↔
    List.Forall₂ (fun f n => normalizeField limits f = .ok n) fs ns := by
  induction fs generalizing ns with
  | nil => simp [normalizeFields, eq_comm]
  | cons f fs ih =>
    simp only [normalizeFields, bind_eq_ok, ih, List.forall₂_cons_left_iff]
    constructor
    · rintro ⟨n, hn, rest, hrest, he⟩
      cases he
      exact ⟨n, rest, hn, hrest, rfl⟩
    · rintro ⟨n, rest, hn, hrest, rfl⟩
      exact ⟨n, hn, rest, hrest, rfl⟩

/-- The order of its fields is forgotten by a record's normal form. -/
theorem normalizeValue_of_perm (hp : fs.Perm gs) (h : normalizeValue limits (.record gs) = .ok v) :
    normalizeValue limits (.record fs) = .ok v := by
  simp only [normalizeValue, bind_eq_ok, require_eq_ok, normalizeFields_eq_ok] at h ⊢
  obtain ⟨ms, hms, u, hdup, hrest⟩ := h
  obtain ⟨ns, hns, hperm⟩ := List.perm_comp_forall₂ hp hms
  have hascending : Ascending (compareOn RecordField.name)
      (sortWith (compareOn RecordField.name) ms) := ascending_of_sorted (Bool.not_inj hdup)
  have hsort : (ms.mergeSort fun a b => (compare a.name b.name).isLE) =
      ns.mergeSort fun a b => (compare a.name b.name).isLE :=
    hascending.eq_of_perm (SortLib.sortWith_pairwise (compareOn RecordField.name) ns)
      ((SortLib.sortWith_perm _ ms).trans (hperm.symm.trans (SortLib.sortWith_perm _ ns).symm))
  rw [hsort] at hdup hrest
  exact ⟨ns, hns, u, hdup, hrest⟩

theorem normalizeFields_congr {before after : List RecordField} {name : Text}
    (h : ∀ r, normalizeValue limits v = .ok r ↔ normalizeValue limits w = .ok r) :
    normalizeFields limits (before ++ .field name v :: after) = .ok ns ↔
      normalizeFields limits (before ++ .field name w :: after) = .ok ns := by
  induction before generalizing ns with
  | nil => simp only [List.nil_append, normalizeFields, normalizeField, bind_eq_ok, h]
  | cons f before ih => simp only [List.cons_append, normalizeFields, bind_eq_ok, ih]

/-- Rearranged values have the same normal form or none. -/
theorem Rearranged.normalizeValue_iff (h : Rearranged a b) (r : CapabilityValue) :
    normalizeValue limits a = .ok r ↔ normalizeValue limits b = .ok r := by
  induction h generalizing r with
  | refl => rfl
  | trans _ _ ihab ihbc => exact (ihab r).trans (ihbc r)
  | featureSet members => rw [normalizeValue, normalizeValue, sortUnique_congr members]
  | architectureSet members => rw [normalizeValue, normalizeValue, sortUnique_congr members]
  | order perm => exact ⟨normalizeValue_of_perm perm.symm, normalizeValue_of_perm perm⟩
  | field before after name _ ih => simp only [normalizeValue, bind_eq_ok, normalizeFields_congr ih]

end Rearranged

/-- Normalization is a canonical form: its results are accepted and are their own normal forms, so
are the values that validation accepts, and rearranged values are both refused or have one normal
form. -/
theorem normalization_canonical (limits : RegistryLimits) :
    (∀ value result, normalizeValue limits value = .ok result →
      validateValue limits result = .ok () ∧ normalizeValue limits result = .ok result) ∧
    (∀ value, validateValue limits value = .ok () → normalizeValue limits value = .ok value) ∧
    ∀ a b, Rearranged a b → ∀ result,
      (normalizeValue limits a = .ok result ↔ normalizeValue limits b = .ok result) := by
  refine ⟨fun value result h => ?_, fun value => normalizeValue_of_validateValue, fun a b h =>
    h.normalizeValue_iff⟩
  have hv := validateValue_of_normalizeValue h
  exact ⟨hv, normalizeValue_of_validateValue hv⟩

section Samples

def tidyValue : CapabilityValue :=
  .record [.field "formats" (.featureSet ["fp16", "int8"]), .field "tensor" (.boolean true)]

def untidyValue : CapabilityValue :=
  .record [.field "tensor" (.boolean true), .field "formats" (.featureSet ["int8", "fp16", "int8"])]

theorem untidyValue_rearranged : Rearranged untidyValue tidyValue := by
  refine .trans (.order (List.Perm.swap _ _ [])) (.field [] _ "formats" (.featureSet fun x => ?_))
  simp only [List.mem_cons, List.not_mem_nil, or_false]
  tauto

theorem normalization_canonical_untidy :
    normalizeValue {} tidyValue = .ok tidyValue ∧ normalizeValue {} untidyValue = .ok tidyValue := by
  have hv : validateValue {} tidyValue = .ok () := by decide
  have h := (normalization_canonical {}).2.1 tidyValue hv
  exact ⟨h, ((normalization_canonical {}).2.2 _ _ untidyValue_rearranged _).mpr h⟩

end Samples

end CapabilityRegistry
