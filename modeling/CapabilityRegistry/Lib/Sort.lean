import Mathlib

/-! Sorting by a comparison: what merge sort satisfies, and what a stable sort is determined by. -/

namespace SortLib
variable {α : Type} (cmp : α → α → Ordering)

def sortWith (xs : List α) : List α := xs.mergeSort fun a b => (cmp a b).isLE

theorem sortWith_perm (xs : List α) : (sortWith cmp xs).Perm xs := List.mergeSort_perm xs _

@[simp] theorem mem_sortWith {xs : List α} {a : α} : a ∈ sortWith cmp xs ↔ a ∈ xs :=
  (sortWith_perm cmp xs).mem_iff

theorem sortWith_pairwise [Std.TransCmp cmp] (xs : List α) :
    (sortWith cmp xs).Pairwise fun a b => cmp a b ≠ .gt := by
  have total : ∀ a b, (cmp a b).isLE || (cmp b a).isLE := by
    intro a b
    have h : cmp a b = (cmp b a).swap := Std.OrientedCmp.eq_swap
    rw [h]
    cases cmp b a <;> rfl
  have sorted := List.pairwise_mergeSort (fun _ _ _ => Std.TransCmp.isLE_trans) total xs
  exact sorted.imp fun h => by simpa [Ordering.isLE_iff_ne_gt] using h

section Stability
variable {cmp} {sort : List α → List α} {xs ys : List α}

/-- The elements a comparison does not tell apart from one. -/
def peers (cmp : α → α → Ordering) (a : α) (xs : List α) : List α :=
  xs.filter fun x => cmp a x == .eq

/-- A stable sort keeps the order of elements that compare equal. -/
def Stable (cmp : α → α → Ordering) (sort : List α → List α) : Prop :=
  ∀ xs a, peers cmp a (sort xs) = peers cmp a xs

theorem mem_peers {a x : α} : x ∈ peers cmp a xs ↔ x ∈ xs ∧ cmp a x = .eq := by
  simp [peers]

/-- Two lists in order with the same elements of every class, in the same order, are the same. -/
theorem eq_of_peers [Std.TransCmp cmp] (hx : xs.Pairwise fun a b => cmp a b ≠ .gt)
    (hy : ys.Pairwise fun a b => cmp a b ≠ .gt) (h : ∀ a, peers cmp a xs = peers cmp a ys) :
    xs = ys := by
  induction xs generalizing ys with
  | nil =>
    cases ys with
    | nil => rfl
    | cons y ys =>
      have hm : y ∈ peers cmp y (y :: ys) := mem_peers.mpr ⟨List.mem_cons_self, Std.ReflCmp.compare_self⟩
      rw [← h y] at hm
      cases hm
  | cons x xs ih =>
    cases ys with
    | nil =>
      have hm : x ∈ peers cmp x (x :: xs) := mem_peers.mpr ⟨List.mem_cons_self, Std.ReflCmp.compare_self⟩
      rw [h x] at hm
      cases hm
    | cons y ys =>
      have hxy : cmp x y ≠ .gt := by
        have hm : y ∈ peers cmp y (x :: xs) := by
          rw [h y]
          exact mem_peers.mpr ⟨List.mem_cons_self, Std.ReflCmp.compare_self⟩
        rcases List.mem_cons.mp (mem_peers.mp hm).1 with rfl | hm
        · simp [Std.ReflCmp.compare_self]
        · exact (List.pairwise_cons.mp hx).1 y hm
      have hyx : cmp y x ≠ .gt := by
        have hm : x ∈ peers cmp x (y :: ys) := by
          rw [← h x]
          exact mem_peers.mpr ⟨List.mem_cons_self, Std.ReflCmp.compare_self⟩
        rcases List.mem_cons.mp (mem_peers.mp hm).1 with rfl | hm
        · simp [Std.ReflCmp.compare_self]
        · exact (List.pairwise_cons.mp hy).1 x hm
      have heq : cmp x y = .eq := by
        have hswap : cmp y x = (cmp x y).swap := Std.OrientedCmp.eq_swap
        rw [hswap] at hyx
        cases hc : cmp x y with
        | lt => simp [hc] at hyx
        | eq => rfl
        | gt => exact (hxy hc).elim
      have hhead := h x
      simp only [peers, List.filter_cons, heq, Std.ReflCmp.compare_self, beq_self_eq_true,
        if_true, List.cons.injEq] at hhead
      obtain ⟨rfl, -⟩ := hhead
      refine congrArg (x :: ·) (ih (List.pairwise_cons.mp hx).2 (List.pairwise_cons.mp hy).2 fun a => ?_)
      have ha := h a
      simp only [peers, List.filter_cons] at ha
      split at ha
      · exact (List.cons.inj ha).2
      · exact ha

/-- A stable sort leaves a list that is in order as it is. -/
theorem Stable.eq_self [Std.TransCmp cmp] (h : Stable cmp sort)
    (hs : (sort xs).Pairwise fun a b => cmp a b ≠ .gt) (hx : xs.Pairwise fun a b => cmp a b ≠ .gt) :
    sort xs = xs := eq_of_peers hs hx (h xs)

/-- Merge sort is stable. -/
theorem sortWith_stable [Std.TransCmp cmp] : Stable cmp (sortWith cmp) := by
  intro xs a
  have htotal : ∀ a b, (cmp a b).isLE || (cmp b a).isLE := by
    intro a b
    have h : cmp a b = (cmp b a).swap := Std.OrientedCmp.eq_swap
    rw [h]
    cases cmp b a <;> rfl
  have hpeers : (peers cmp a xs).Pairwise fun x y => (cmp x y).isLE := by
    refine List.pairwise_of_forall_mem_list fun x hx y hy => ?_
    have hxa : cmp x a = .eq := Std.OrientedCmp.eq_comm.mp (mem_peers.mp hx).2
    have hxy : cmp x y = .eq := Std.TransCmp.eq_trans hxa (mem_peers.mp hy).2
    rw [hxy]
    rfl
  have hsub : (peers cmp a xs).Sublist (sortWith cmp xs) :=
    List.sublist_mergeSort (fun _ _ _ => Std.TransCmp.isLE_trans) htotal hpeers List.filter_sublist
  have hself : peers cmp a (peers cmp a xs) = peers cmp a xs := by simp [peers]
  have hsub' : (peers cmp a xs).Sublist (peers cmp a (sortWith cmp xs)) := by
    rw [← hself]
    exact hsub.filter _
  exact (hsub'.eq_of_length ((sortWith_perm cmp xs).filter _).length_eq.symm).symm

end Stability

section Ascending
variable {cmp} {xs ys : List α} {a : α}

/-- Every element is strictly below the ones after it. -/
def Ascending (cmp : α → α → Ordering) (xs : List α) : Prop := xs.Pairwise fun a b => cmp a b = .lt

theorem Ascending.sorted (h : Ascending cmp xs) : xs.Pairwise fun a b => cmp a b ≠ .gt :=
  h.imp fun hlt => by simp [hlt]

/-- A list whose neighbours ascend ascends as a whole. -/
theorem ascending_of_isChain [Std.TransCmp cmp] (h : xs.IsChain fun a b => cmp a b = .lt) :
    Ascending cmp xs := by
  have : IsTrans α fun a b => cmp a b = .lt := ⟨fun _ _ _ => Std.TransCmp.lt_trans⟩
  exact List.isChain_iff_pairwise.mp h

theorem sortWith_of_ascending (h : Ascending cmp xs) : sortWith cmp xs = xs :=
  List.mergeSort_of_pairwise (h.imp fun hlt => by simp [hlt])

/-- An ascending list is the only sorted order of its elements. -/
theorem Ascending.eq_of_perm [Std.TransCmp cmp] (h : Ascending cmp xs)
    (hs : ys.Pairwise fun a b => cmp a b ≠ .gt) (hp : xs.Perm ys) : xs = ys := by
  refine List.Perm.eq_of_pairwise (fun a b ha hb hab hba => ?_) h.sorted hs hp
  by_contra hne
  have hmem := hp.mem_iff.mpr hb
  rcases List.pairwise_iff_getElem.mp h, List.getElem_of_mem ha, List.getElem_of_mem hmem with
    ⟨hlt, ⟨i, hi, rfl⟩, ⟨j, hj, rfl⟩⟩
  rcases Nat.lt_trichotomy i j with hij | rfl | hij
  · exact hba (Std.OrientedCmp.gt_of_lt (hlt i j hi hj hij))
  · exact hne rfl
  · exact hab (Std.OrientedCmp.gt_of_lt (hlt j i hj hi hij))

theorem Ascending.nodup [Std.TransCmp cmp] (h : Ascending cmp xs) : xs.Nodup := by
  refine h.imp fun {a b} hlt => ?_
  rintro rfl
  rw [@Std.ReflCmp.compare_self _ cmp _ a] at hlt
  cases hlt

/-- An ascending list is determined by its members. -/
theorem Ascending.eq_of_mem_iff [Std.TransCmp cmp] (hx : Ascending cmp xs) (hy : Ascending cmp ys)
    (h : ∀ a, a ∈ xs ↔ a ∈ ys) : xs = ys :=
  hx.eq_of_perm hy.sorted ((List.perm_ext_iff_of_nodup hx.nodup hy.nodup).mpr h)

theorem mem_destutter'_ne [DecidableEq α] {b : α} :
    b ∈ xs.destutter' (· ≠ ·) a ↔ b ∈ a :: xs := by
  induction xs generalizing a with
  | nil => rfl
  | cons x xs ih =>
    by_cases hax : a ≠ x
    · rw [List.destutter'_cons_pos _ hax, List.mem_cons, ih, ← List.mem_cons]
    · rw [List.destutter'_cons_neg _ hax, ih, not_not.mp hax]
      simp

/-- Dropping repeated neighbours drops no member. -/
theorem mem_destutter_ne [DecidableEq α] : a ∈ xs.destutter (· ≠ ·) ↔ a ∈ xs := by
  cases xs with
  | nil => rfl
  | cons x xs => exact mem_destutter'_ne

/-- Sorting and dropping repeated neighbours leaves an ascending list. -/
theorem ascending_destutter [DecidableEq α] [Std.TransCmp cmp] [Std.LawfulEqCmp cmp]
    (h : xs.Pairwise fun a b => cmp a b ≠ .gt) : Ascending cmp (xs.destutter (· ≠ ·)) := by
  refine ascending_of_isChain ?_
  have hsorted := (h.sublist (List.destutter_sublist (· ≠ ·) xs)).isChain
  refine List.isChain_iff_getElem.mpr fun i hi => ?_
  have hle := List.isChain_iff_getElem.mp hsorted i hi
  have hne := List.isChain_iff_getElem.mp (List.isChain_destutter (· ≠ ·) xs) i hi
  cases hc : cmp (xs.destutter (· ≠ ·))[i] (xs.destutter (· ≠ ·))[i + 1] with
  | lt => rfl
  | eq => exact absurd (Std.LawfulEqCmp.eq_of_compare hc) hne
  | gt => exact absurd hc hle

end Ascending

end SortLib
