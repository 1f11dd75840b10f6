import Mathlib

/-! The first of the best elements of a list, as a scan that keeps the best one so far finds it. -/

/-- An element that beats everything before it and that nothing behind it beats. -/
def FirstBest {α : Type} (cmp : α → α → Ordering) (xs : List α) (best : α) : Prop :=
  ∃ before after, xs = before ++ best :: after ∧ (∀ x ∈ before, cmp best x = .lt) ∧
    ∀ x ∈ after, cmp x best ≠ .lt

namespace FirstBest
variable {α : Type} {cmp cmp' : α → α → Ordering} {xs rest : List α} {a b x : α}

/-- One step of a scan: an element replaces the best one so far if it beats it. -/
def keep (cmp : α → α → Ordering) (best x : α) : α := if cmp x best == .lt then x else best

/-- A step of a scan that has not found anything yet takes the first element that passes a test. -/
def keepSome (cmp : α → α → Ordering) (p : α → Bool) (best : Option α) (x : α) : Option α :=
  if p x then some ((best.map fun b => keep cmp b x).getD x) else best

theorem mem (h : FirstBest cmp xs a) : a ∈ xs := by
  obtain ⟨before, after, rfl, -⟩ := h
  simp

theorem not_beaten [Std.OrientedCmp cmp] (h : FirstBest cmp xs a) : ∀ x ∈ xs, cmp x a ≠ .lt := by
  obtain ⟨before, after, rfl, hbefore, hafter⟩ := h
  intro x hx
  rcases List.mem_append.mp hx with hx | hx
  · exact Std.OrientedCmp.not_lt_of_lt (hbefore x hx)
  · rcases List.mem_cons.mp hx with rfl | hx
    · simp [Std.ReflCmp.compare_self]
    · exact hafter x hx

theorem unique (ha : FirstBest cmp xs a) (hb : FirstBest cmp xs b) : a = b := by
  obtain ⟨before, after, rfl, hbefore, hafter⟩ := ha
  obtain ⟨before', after', heq, hbefore', hafter'⟩ := hb
  rcases List.append_eq_append_iff.mp heq with ⟨mid, rfl, hmid⟩ | ⟨mid, rfl, hmid⟩
  · cases mid with
    | nil => exact (List.cons.inj hmid).1
    | cons c mid =>
      obtain ⟨rfl, rfl⟩ := List.cons.inj hmid
      exact (hafter b (by simp) (hbefore' a (by simp))).elim
  · cases mid with
    | nil => exact (List.cons.inj hmid).1.symm
    | cons c mid =>
      obtain ⟨rfl, rfl⟩ := List.cons.inj hmid
      exact (hafter' a (by simp) (hbefore b (by simp))).elim

theorem singleton (a : α) : FirstBest cmp [a] a := ⟨[], [], rfl, by simp, by simp⟩

theorem keep_append [Std.TransCmp cmp] (h : FirstBest cmp xs a) (x : α) :
    FirstBest cmp (xs ++ [x]) (keep cmp a x) := by
  obtain ⟨before, after, rfl, hbefore, hafter⟩ := h
  unfold keep
  split
  · next hlt =>
    have hlt : cmp x a = .lt := beq_iff_eq.mp hlt
    refine ⟨before ++ a :: after, [], by simp, fun y hy => ?_, by simp⟩
    rcases List.mem_append.mp hy with hy | hy
    · exact Std.TransCmp.lt_trans hlt (hbefore y hy)
    · rcases List.mem_cons.mp hy with rfl | hy
      · exact hlt
      · have hle : (cmp a y).isLE = true := by
          by_contra hgt
          exact hafter y hy (Std.OrientedCmp.lt_of_not_isLE hgt)
        exact Std.TransCmp.lt_of_lt_of_isLE hlt hle
  · next hnot =>
    refine ⟨before, after ++ [x], by simp, hbefore, fun y hy => ?_⟩
    rcases List.mem_append.mp hy with hy | hy
    · exact hafter y hy
    · obtain rfl := List.mem_singleton.mp hy
      exact fun he => hnot (beq_iff_eq.mpr he)

theorem foldl_keep [Std.TransCmp cmp] (h : FirstBest cmp xs a) (rest : List α) :
    FirstBest cmp (xs ++ rest) (rest.foldl (keep cmp) a) := by
  induction rest generalizing xs a with
  | nil => simpa using h
  | cons x rest ih =>
    have hstep := ih (h.keep_append x)
    rwa [List.append_assoc] at hstep

/-- A scan finds the first of the best. -/
theorem scan [Std.TransCmp cmp] (a : α) (rest : List α) :
    FirstBest cmp (a :: rest) (rest.foldl (keep cmp) a) := foldl_keep (singleton a) rest

theorem foldl_keepSome (p : α → Bool) (xs : List α) (best : Option α) :
    xs.foldl (keepSome cmp p) best = match best, xs.filter p with
      | some b, ys => some (ys.foldl (keep cmp) b)
      | none, [] => none
      | none, y :: ys => some (ys.foldl (keep cmp) y) := by
  induction xs generalizing best with
  | nil => cases best <;> rfl
  | cons x xs ih =>
    rw [List.foldl_cons, ih]
    cases hp : p x <;> cases best <;> simp [keepSome, hp]

/-- A scan of the elements that pass a test finds the first of the best among them. -/
theorem scanSome [Std.TransCmp cmp] {p : α → Bool}
    (h : xs.foldl (keepSome cmp p) none = some a) : FirstBest cmp (xs.filter p) a := by
  rw [foldl_keepSome] at h
  split at h
  · next heq => cases heq
  · cases h
  · next y ys _ hys =>
    rw [hys]
    obtain rfl := Option.some.inj h
    exact scan y ys

theorem exists_scanSome {p : α → Bool} (h : xs.filter p ≠ []) :
    ∃ a, xs.foldl (keepSome cmp p) none = some a := by
  rw [foldl_keepSome]
  cases hys : xs.filter p with
  | nil => exact (h hys).elim
  | cons y ys => exact ⟨_, rfl⟩

/-- Under an order that separates more, the first best stays the same exactly if nothing beats it
there. -/
theorem eq_iff_not_beaten [Std.OrientedCmp cmp'] (ha : FirstBest cmp xs a)
    (hb : FirstBest cmp' xs b) (hfine : ∀ x y, cmp' x y = .eq → cmp x y = .eq) :
    a = b ↔ ∀ x ∈ xs, cmp' x a ≠ .lt := by
  constructor
  · rintro rfl
    exact hb.not_beaten
  · intro hnot
    obtain ⟨before, after, rfl, hbefore, hafter⟩ := ha
    refine unique ⟨before, after, rfl, fun x hx => ?_, fun x hx => hnot x (by simp [hx])⟩ hb
    cases ho : cmp' a x with
    | lt => rfl
    | eq =>
      have hlt := hbefore x hx
      rw [hfine a x ho] at hlt
      cases hlt
    | gt => exact (hnot x (by simp [hx]) (Std.OrientedCmp.lt_of_gt ho)).elim

end FirstBest
