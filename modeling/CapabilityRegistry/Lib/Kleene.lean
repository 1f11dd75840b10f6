import Mathlib.Data.List.Forall2

/-! Strong Kleene connectives over a list, and the order of knowledge they respect. -/
namespace Kleene
variable {α β : Type} {u d e a b c : α} {xs ys : List α}

/-- Learning more takes `a` to `b`: the unknown value may become anything, any other stays. -/
def Below (u a b : α) : Prop := a = u ∨ a = b

theorem Below.refl (u a : α) : Below u a a := .inr rfl

theorem Below.trans (h : Below u a b) (h' : Below u b c) : Below u a c := by
  rcases h with rfl | rfl
  · exact .inl rfl
  · exact h'

theorem Below.eq (h : Below u a b) (ha : a ≠ u) : b = a := (h.resolve_left ha).symm

theorem Below.map {v : β} {f : α → β} (h : Below u a b) (hf : f u = v) : Below v (f a) (f b) := by
  rcases h with rfl | rfl
  · exact .inl hf
  · exact .refl _ _

theorem mem_of_below (h : List.Forall₂ (Below u) xs ys) (hd : d ≠ u) (hm : d ∈ xs) : d ∈ ys := by
  induction h with
  | nil => exact hm
  | cons hab hrest ih =>
    rcases List.mem_cons.mp hm with rfl | hm
    · rw [hab.eq hd]
      exact List.mem_cons_self
    · exact List.mem_cons_of_mem _ (ih hm)

theorem eq_of_below (h : List.Forall₂ (Below u) xs ys) (hu : u ∉ xs) : ys = xs := by
  induction h with
  | nil => rfl
  | cons hab hrest ih =>
    rw [List.mem_cons, not_or] at hu
    rw [hab.eq fun he => hu.1 he.symm, ih hu.2]

variable [DecidableEq α]

/-- The dominating value when a member has it, else the unknown one when a member has that. -/
def dominate (d u e : α) (xs : List α) : α := if d ∈ xs then d else if u ∈ xs then u else e

theorem dominate_below (hd : d ≠ u) (h : List.Forall₂ (Below u) xs ys) :
    Below u (dominate d u e xs) (dominate d u e ys) := by
  by_cases hm : d ∈ xs
  · simp only [dominate, hm, mem_of_below h hd hm, if_true]
    exact .refl _ _
  · by_cases hu : u ∈ xs
    · simp only [dominate, hm, hu, if_true, if_false]
      exact .inl rfl
    · rw [eq_of_below h hu]
      exact .refl _ _

end Kleene
