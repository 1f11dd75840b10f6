import Mathlib

/-! The orders that comparators make of a set: three-way comparisons that answer with a sign, and
the strict comparators that sorting takes. -/
namespace Comparators

section Signed
variable {α L : Type} [LinearOrder L] {cmp : α → α → Int} {rank : α → L} {S T : Set α} {a b : α}

/-- A three-way comparison orders a set. -/
structure TotalPreorderOn (cmp : α → α → Int) (S : Set α) : Prop where
  refl : ∀ a ∈ S, cmp a a = 0
  swap : ∀ a ∈ S, ∀ b ∈ S, (cmp b a).sign = -(cmp a b).sign
  trans : ∀ a ∈ S, ∀ b ∈ S, ∀ c ∈ S, cmp a b ≤ 0 → cmp b c ≤ 0 → cmp a c ≤ 0
  total : ∀ a ∈ S, ∀ b ∈ S, cmp a b ≤ 0 ∨ cmp b a ≤ 0

/-- Whatever lies between two members is a member. -/
def ConvexIn (cmp : α → α → Int) (S : Set α) (member : α → Prop) : Prop :=
  ∀ x ∈ S, ∀ y ∈ S, ∀ z ∈ S, member x → member y → cmp x z ≤ 0 → cmp z y ≤ 0 → member z

/-- Once the signs are antisymmetric, reflexivity and totality follow. -/
theorem TotalPreorderOn.of_swap
    (swap : ∀ a ∈ S, ∀ b ∈ S, (cmp b a).sign = -(cmp a b).sign)
    (trans : ∀ a ∈ S, ∀ b ∈ S, ∀ c ∈ S, cmp a b ≤ 0 → cmp b c ≤ 0 → cmp a c ≤ 0) :
    TotalPreorderOn cmp S where
  refl a ha := by
    have h := swap a ha a ha
    exact Int.sign_eq_zero_iff_zero.mp (by omega)
  swap := swap
  trans := trans
  total a ha b hb := by
    have h := swap a ha b hb
    rcases le_or_gt (cmp a b) 0 with hab | hab
    · exact Or.inl hab
    · right
      rw [Int.sign_eq_one_of_pos hab] at h
      exact (Int.sign_eq_neg_one_iff_neg.mp h).le

namespace TotalPreorderOn

theorem nonneg_iff (h : TotalPreorderOn cmp S) (ha : a ∈ S) (hb : b ∈ S) :
    0 ≤ cmp a b ↔ cmp b a ≤ 0 := by
  have hs := h.swap a ha b hb
  constructor
  · intro hab
    rcases hab.eq_or_lt with he | hlt
    · rw [← he, Int.sign_zero, neg_zero] at hs
      exact (Int.sign_eq_zero_iff_zero.mp hs).le
    · rw [Int.sign_eq_one_of_pos hlt] at hs
      exact (Int.sign_eq_neg_one_iff_neg.mp hs).le
  · intro hba
    by_contra hab
    rw [Int.sign_eq_neg_one_of_neg (not_le.mp hab), neg_neg] at hs
    exact absurd (Int.sign_eq_one_iff_pos.mp hs) (not_lt.mpr hba)

theorem mono (h : TotalPreorderOn cmp S) (hT : T ⊆ S) : TotalPreorderOn cmp T where
  refl a ha := h.refl a (hT ha)
  swap a ha b hb := h.swap a (hT ha) b (hT hb)
  trans a ha b hb c hc := h.trans a (hT ha) b (hT hb) c (hT hc)
  total a ha b hb := h.total a (hT ha) b (hT hb)

/-- An interval between two bounds of the ordered set is convex. -/
theorem convexIn_interval (h : TotalPreorderOn cmp S) {low high : α} (hlow : low ∈ S)
    (hhigh : high ∈ S) : ConvexIn cmp S fun x => 0 ≤ cmp x low ∧ cmp x high ≤ 0 := by
  rintro x hx y hy z hz ⟨hxl, -⟩ ⟨-, hyh⟩ hxz hzy
  refine ⟨(h.nonneg_iff hz hlow).mpr ?_, h.trans z hz y hy high hhigh hzy hyh⟩
  exact h.trans low hlow x hx z hz ((h.nonneg_iff hx hlow).mp hxl) hxz

end TotalPreorderOn

/-- A comparison by the rank of its arguments in a linear order. -/
structure Ranks (cmp : α → α → Int) (rank : α → L) : Prop where
  neg_iff : ∀ a b, cmp a b < 0 ↔ rank a < rank b
  pos_iff : ∀ a b, 0 < cmp a b ↔ rank b < rank a

namespace Ranks

theorem nonpos_iff (h : Ranks cmp rank) : cmp a b ≤ 0 ↔ rank a ≤ rank b := by
  rw [← not_lt, h.pos_iff, not_lt]

theorem nonneg_iff (h : Ranks cmp rank) : 0 ≤ cmp a b ↔ rank b ≤ rank a := by
  rw [← not_lt, h.neg_iff, not_lt]

theorem eq_zero_iff (h : Ranks cmp rank) : cmp a b = 0 ↔ rank a = rank b := by
  rw [le_antisymm_iff, le_antisymm_iff, h.nonpos_iff, h.nonneg_iff]

theorem sign_swap (h : Ranks cmp rank) (a b : α) : (cmp b a).sign = -(cmp a b).sign := by
  rcases lt_trichotomy (rank a) (rank b) with hlt | heq | hgt
  · rw [Int.sign_eq_one_of_pos ((h.pos_iff b a).mpr hlt),
      Int.sign_eq_neg_one_of_neg ((h.neg_iff a b).mpr hlt)]
    rfl
  · rw [h.eq_zero_iff.mpr heq, h.eq_zero_iff.mpr heq.symm]
    rfl
  · rw [Int.sign_eq_neg_one_of_neg ((h.neg_iff b a).mpr hgt),
      Int.sign_eq_one_of_pos ((h.pos_iff a b).mpr hgt)]

theorem comp {β : Type} (h : Ranks cmp rank) (f : β → α) :
    Ranks (fun x y => cmp (f x) (f y)) (rank ∘ f) :=
  ⟨fun x y => h.neg_iff (f x) (f y), fun x y => h.pos_iff (f x) (f y)⟩

theorem compare_zero_eq (h : Ranks cmp rank) (a b : α) :
    compare (cmp a b) 0 = compare (rank a) (rank b) := by
  rcases lt_trichotomy (rank a) (rank b) with hlt | heq | hgt
  · rw [compare_lt_iff_lt.mpr hlt, compare_lt_iff_lt.mpr ((h.neg_iff a b).mpr hlt)]
  · rw [compare_eq_iff_eq.mpr heq, compare_eq_iff_eq.mpr (h.eq_zero_iff.mpr heq)]
  · rw [compare_gt_iff_gt.mpr hgt, compare_gt_iff_gt.mpr ((h.pos_iff a b).mpr hgt)]

theorem transCmp (h : Ranks cmp rank) : Std.TransCmp fun a b => compare (cmp a b) 0 := by
  have hrank : (fun a b => compare (cmp a b) 0) = compareOn rank :=
    funext fun a => funext fun b => h.compare_zero_eq a b
  rw [hrank]
  infer_instance

/-- What compares by rank orders everything. -/
theorem totalPreorderOn (h : Ranks cmp rank) (S : Set α) : TotalPreorderOn cmp S := by
  refine .of_swap (fun a _ b _ => h.sign_swap a b) fun a _ b _ c _ hab hbc => ?_
  rw [h.nonpos_iff] at hab hbc ⊢
  exact hab.trans hbc

end Ranks

/-- One sequence is below another from its first element on, or after an equal one. -/
theorem toLex_lt_iff_head {f g : ℕ → ℕ} : toLex f < toLex g ↔
    f 0 < g 0 ∨ f 0 = g 0 ∧ toLex (fun i => f (i + 1)) < toLex fun i => g (i + 1) := by
  constructor
  · rintro ⟨i, heq, hlt⟩
    cases i with
    | zero => exact Or.inl hlt
    | succ i =>
      refine Or.inr ⟨heq 0 i.succ_pos, i, fun j hj => ?_, hlt⟩
      exact heq (j + 1) (Nat.succ_lt_succ hj)
  · rintro (hlt | ⟨h0, i, heq, hlt⟩)
    · exact ⟨0, fun j hj => absurd hj (Nat.not_lt_zero j), hlt⟩
    · refine ⟨i + 1, fun j hj => ?_, hlt⟩
      cases j with
      | zero => exact h0
      | succ j => exact heq j (Nat.lt_of_succ_lt_succ hj)

end Signed

section Strict
variable {α : Type} {lt : α → α → Bool} {cmp : α → α → Ordering} {S : Set α} {a b : α}

/-- Neither element comes before the other. -/
def Incomparable (lt : α → α → Bool) (a b : α) : Prop := lt a b = false ∧ lt b a = false

/-- What sorting asks of the comparator on the elements it sorts. -/
structure StrictWeakOrderOn (lt : α → α → Bool) (S : Set α) : Prop where
  irrefl : ∀ a ∈ S, lt a a = false
  asymm : ∀ a ∈ S, ∀ b ∈ S, lt a b = true → lt b a = false
  trans : ∀ a ∈ S, ∀ b ∈ S, ∀ c ∈ S, lt a b = true → lt b c = true → lt a c = true
  incomparable_trans : ∀ a ∈ S, ∀ b ∈ S, ∀ c ∈ S,
    Incomparable lt a b → Incomparable lt b c → Incomparable lt a c

variable [Std.TransCmp cmp]

theorem incomparable_iff (h : ∀ a ∈ S, ∀ b ∈ S, lt a b = (cmp a b == .lt)) (ha : a ∈ S)
    (hb : b ∈ S) : Incomparable lt a b ↔ cmp a b = .eq := by
  rw [Incomparable, h a ha b hb, h b hb a ha, @Std.OrientedCmp.eq_swap _ cmp _ b a]
  cases cmp a b <;> decide

/-- A comparator that agrees with a transitive comparison is a strict weak order. -/
theorem StrictWeakOrderOn.of_cmp (h : ∀ a ∈ S, ∀ b ∈ S, lt a b = (cmp a b == .lt)) :
    StrictWeakOrderOn lt S where
  irrefl a ha := by
    rw [h a ha a ha, @Std.ReflCmp.compare_self _ cmp _ a]
    rfl
  asymm a ha b hb hab := by
    rw [h a ha b hb, beq_iff_eq] at hab
    rw [h b hb a ha, Std.OrientedCmp.gt_of_lt hab]
    rfl
  trans a ha b hb c hc hab hbc := by
    rw [h a ha b hb, beq_iff_eq] at hab
    rw [h b hb c hc, beq_iff_eq] at hbc
    rw [h a ha c hc, beq_iff_eq]
    exact Std.TransCmp.lt_trans hab hbc
  incomparable_trans a ha b hb c hc hab hbc := by
    rw [incomparable_iff h ha hb] at hab
    rw [incomparable_iff h hb hc] at hbc
    exact (incomparable_iff h ha hc).mpr (Std.TransCmp.eq_trans hab hbc)

end Strict

section Verdicts
variable {α : Type} {x y : α} {d e e' : Bool} {c : Ordering}

/-- What a strict comparator and an equality say of two elements together. -/
def verdict (lt eq : Bool) : Ordering := if lt then .lt else if eq then .eq else .gt

theorem verdict_of_cmp (hlt : d = (c == .lt)) (heq : e = (c == .eq)) : verdict d e = c := by
  subst hlt heq
  cases c <;> rfl

/-- One rung of a comparator and of an equality: it decides on a field, or passes on. -/
theorem verdict_rung [BEq α] [LawfulBEq α] (hc : c = .eq ↔ x = y) (hd : x ≠ y → d = (c == .lt)) :
    verdict (if x != y then d else e) (x == y && e') = c.then (verdict e e') := by
  by_cases hxy : x = y
  · rw [hc.mpr hxy, if_neg (by simp [hxy]), beq_iff_eq.mpr hxy, Bool.true_and]
    rfl
  · rw [if_pos (by simp [hxy]), hd hxy, beq_eq_false_iff_ne.mpr hxy, Bool.false_and]
    cases c with
    | eq => exact (hxy (hc.mp rfl)).elim
    | _ => rfl

end Verdicts

end Comparators
