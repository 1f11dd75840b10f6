import CapabilityRegistry.Lib.OrdMap

/-! Ordered maps laid out from a sorted list without comparing its keys. -/

namespace OrdMap
open Std.DTreeMap.Internal

section Layout
variable {α β : Type} {xs : List (α × β)} {n : Nat}

/-- The tree with the middle entry at its root; the first argument bounds its height. -/
def treeOf : Nat → List (α × β) → Impl α fun _ => β
  | 0, _ => .leaf
  | n + 1, xs =>
    match xs.drop (xs.length / 2) with
    | [] => .leaf
    | e :: right => .inner xs.length e.1 e.2 (treeOf n (xs.take (xs.length / 2))) (treeOf n right)

theorem toListModel_treeOf (h : xs.length ≤ n) :
    (treeOf n xs).toListModel = xs.map fun e => ⟨e.1, e.2⟩ := by
  induction n generalizing xs with
  | zero => simp [List.length_eq_zero_iff.mp (Nat.le_zero.mp h), treeOf]
  | succ n ih =>
    have hsplit := List.take_append_drop (xs.length / 2) xs
    rw [treeOf]
    cases hd : xs.drop (xs.length / 2) with
    | nil =>
      have hlen := congrArg List.length hd
      rw [List.length_drop, List.length_nil] at hlen
      have hnil : xs = [] := List.length_eq_zero_iff.mp (by omega)
      simp [hnil]
    | cons e right =>
      have hlen := congrArg List.length hd
      rw [List.length_drop, List.length_cons] at hlen
      rw [Impl.toListModel_inner, ih (by rw [List.length_take]; omega), ih (by omega)]
      conv_rhs => rw [← hsplit, hd, List.map_append, List.map_cons]

theorem size_treeOf (h : xs.length ≤ n) : (treeOf n xs).size = xs.length := by
  cases n with
  | zero => exact (Nat.le_zero.mp h).symm
  | succ n =>
    rw [treeOf]
    cases hd : xs.drop (xs.length / 2) with
    | nil =>
      have hlen := congrArg List.length hd
      rw [List.length_drop, List.length_nil] at hlen
      rw [Impl.size_leaf]
      omega
    | cons e right => rfl

theorem balanced_treeOf (h : xs.length ≤ n) : (treeOf n xs).Balanced := by
  induction n generalizing xs with
  | zero => exact .leaf
  | succ n ih =>
    rw [treeOf]
    cases hd : xs.drop (xs.length / 2) with
    | nil => exact .leaf
    | cons e right =>
      have hlen := congrArg List.length hd
      rw [List.length_drop, List.length_cons] at hlen
      have hleft : (xs.take (xs.length / 2)).length = xs.length / 2 := by
        rw [List.length_take]
        omega
      refine .inner (ih (by omega)) (ih (by omega)) ?_ ?_
      · rw [size_treeOf (by omega), size_treeOf (by omega), Impl.BalancedAtRoot, delta, hleft]
        omega
      · rw [size_treeOf (by omega), size_treeOf (by omega), hleft]
        omega

end Layout

section Sorted
variable {α β γ : Type} [Ord α]

/-- The keys of these entries increase. -/
def Increasing (xs : List (α × β)) : Prop := xs.IsChain fun a b => compare a.1 b.1 = .lt

variable {xs : List (α × β)} [Std.TransOrd α]

theorem Increasing.pairwise (h : Increasing xs) :
    xs.Pairwise fun a b => compare a.1 b.1 = .lt := by
  have htrans : IsTrans (α × β) fun a b => compare a.1 b.1 = .lt :=
    ⟨fun _ _ _ => Std.TransCmp.lt_trans⟩
  exact List.isChain_iff_pairwise.mp h

def ofSorted (xs : List (α × β)) (h : Increasing xs) : Std.ExtTreeMap α β :=
  ⟨.mk ⟨treeOf xs.length xs, .wf (balanced_treeOf (Nat.le_refl _)) (by
    rw [Impl.Ordered, toListModel_treeOf (Nat.le_refl _), List.pairwise_map]
    exact h.pairwise)⟩⟩

theorem toList_ofSorted (h : Increasing xs) : (ofSorted xs h).toList = xs := by
  change Impl.Const.toList (treeOf xs.length xs) = xs
  rw [Impl.Const.toList_eq_toListModel_map, toListModel_treeOf (Nat.le_refl _), List.map_map]
  exact List.map_id _

variable [Std.LawfulEqOrd α] {key : γ → α} {value : γ → β} {list sorted : List γ}

theorem toList_foldl_insertIfNew {m : Std.ExtTreeMap α β} (hm : ∀ x ∈ list, m[key x]? = none)
    (hn : (list.map key).Nodup) :
    (list.foldl (fun m x => m.insertIfNew (key x) (value x)) m).toList.Perm
      (list.map (fun x => (key x, value x)) ++ m.toList) := by
  induction list generalizing m with
  | nil => exact .refl _
  | cons x list ih =>
    rw [List.map_cons, List.nodup_cons] at hn
    have hx := hm x List.mem_cons_self
    rw [List.foldl_cons, insertIfNew_of_none _ hx]
    refine (ih (fun y hy => ?_) hn.2).trans ?_
    · rw [Std.ExtTreeMap.getElem?_insert, if_neg]
      · exact hm y (List.mem_cons_of_mem _ hy)
      · intro he
        exact hn.1 (Std.LawfulEqOrd.eq_of_compare he ▸ List.mem_map_of_mem hy)
    · refine ((toList_insert_perm_of_none hx).append_left _).trans ?_
      rw [List.map_cons, List.cons_append]
      exact List.perm_middle

/-- Entering a list in any order gives the map of the sorted list. -/
theorem foldl_insertIfNew_eq_ofSorted (hp : sorted.Perm list)
    (h : Increasing (sorted.map fun x => (key x, value x))) :
    list.foldl (fun m x => m.insertIfNew (key x) (value x)) ∅ = ofSorted _ h := by
  have hn : (list.map key).Nodup := by
    refine (hp.map key).nodup_iff.mp ?_
    have hpair := h.pairwise
    rw [List.pairwise_map] at hpair
    rw [List.Nodup, List.pairwise_map]
    refine hpair.imp fun {a b} hlt he => ?_
    have heq : compare (key a) (key b) = .eq := Std.LawfulEqOrd.compare_eq_iff_eq.mpr he
    cases heq.symm.trans hlt
  refine Std.ExtTreeMap.ext_toList ?_
  have hempty : (∅ : Std.ExtTreeMap α β).toList = [] := Std.ExtTreeMap.toList_eq_nil_iff.mpr rfl
  rw [toList_ofSorted]
  refine (toList_foldl_insertIfNew (by simp) hn).trans ?_
  rw [hempty, List.append_nil]
  exact (hp.map _).symm

end Sorted

end OrdMap
