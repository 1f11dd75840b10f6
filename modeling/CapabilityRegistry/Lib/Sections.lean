import Mathlib

/-! Lists of elements written one after the other, without their counts. -/
namespace Sections
variable {α β φ κ ω : Type} {feed : α → List β} {Follows Starts : List β → Prop}
  {xs ys : List α} {s t : List β}

/-- What holds of a tail and is kept by an element written before it holds of a whole section. -/
theorem flatMap_append_ind {P : List β → Prop} (hs : P s) (hcons : ∀ a t, P t → P (feed a ++ t)) :
    P (xs.flatMap feed ++ s) := by
  induction xs with
  | nil => exact hs
  | cons x xs ih =>
    rw [List.flatMap_cons, List.append_assoc]
    exact hcons x _ ih

/-- The elements of a section are told from what follows the section, and from each other. -/
structure Separated (feed : α → List β) (Follows Starts : List β → Prop) : Prop where
  follows : ∀ a t, Follows t → Follows (feed a ++ t)
  starts : ∀ a t, Follows t → Starts (feed a ++ t)
  head : ∀ a b s t, Follows s → Follows t → feed a ++ s = feed b ++ t → feed a = feed b

/-- Elements of one length are told from each other. -/
theorem head_of_length (h : ∀ a b, (feed a).length = (feed b).length) (a b : α) (s t : List β)
    (he : feed a ++ s = feed b ++ t) : feed a = feed b := by
  exact List.append_inj_left he (h a b)

namespace Separated

theorem follows_section (h : Separated feed Follows Starts) (xs : List α) (hs : Follows s) :
    Follows (xs.flatMap feed ++ s) := by
  exact flatMap_append_ind hs h.follows

/-- A section and what follows it are read back from the whole. -/
theorem split (h : Separated feed Follows Starts) (hs : Follows s) (ht : Follows t)
    (hs' : ¬ Starts s) (ht' : ¬ Starts t) (he : xs.flatMap feed ++ s = ys.flatMap feed ++ t) :
    xs.map feed = ys.map feed ∧ s = t := by
  induction xs generalizing ys with
  | nil =>
    cases ys with
    | nil => exact ⟨rfl, he⟩
    | cons y ys =>
      rw [List.flatMap_cons, List.append_assoc] at he
      have hstarts := h.starts y _ (h.follows_section ys ht)
      rw [← he] at hstarts
      exact absurd hstarts hs'
  | cons x xs ih =>
    cases ys with
    | nil =>
      rw [List.flatMap_cons, List.append_assoc] at he
      have hstarts := h.starts x _ (h.follows_section xs hs)
      rw [he] at hstarts
      exact absurd hstarts ht'
    | cons y ys =>
      rw [List.flatMap_cons, List.flatMap_cons, List.append_assoc, List.append_assoc] at he
      have hhead := h.head x y _ _ (h.follows_section xs hs) (h.follows_section ys ht) he
      rw [hhead] at he
      obtain ⟨hmap, hrest⟩ := ih (List.append_cancel_left he)
      exact ⟨by rw [List.map_cons, List.map_cons, hhead, hmap], hrest⟩

end Separated

/-- Lists whose elements agree in two respects, place by place, agree in what these determine. -/
theorem map_eq_of_maps {f : α → φ} {u : α → κ} {g : α → ω}
    (h : ∀ a b, f a = f b → u a = u b → g a = g b) (hf : xs.map f = ys.map f)
    (hu : xs.map u = ys.map u) : xs.map g = ys.map g := by
  induction xs generalizing ys with
  | nil =>
    obtain rfl := List.map_eq_nil_iff.mp hf.symm
    rfl
  | cons x xs ih =>
    cases ys with
    | nil => cases hf
    | cons y ys =>
      simp only [List.map_cons, List.cons.injEq] at hf hu ⊢
      exact ⟨h x y hf.1 hu.1, ih hf.2 hu.2⟩

theorem eq_of_maps {f : α → φ} {u : α → κ} (h : ∀ a b, f a = f b → u a = u b → a = b)
    (hf : xs.map f = ys.map f) (hu : xs.map u = ys.map u) : xs = ys := by
  have hid := map_eq_of_maps (g := id) h hf hu
  rwa [List.map_id, List.map_id] at hid

/-- What is found first under a key agrees in what determines the key. -/
theorem find?_eq_of_map [DecidableEq κ] {f : α → φ} {key : α → κ}
    (hkey : ∀ a b, f a = f b → key a = key b) (hf : xs.map f = ys.map f) (k : κ) :
    (xs.find? fun a => key a = k).map f = (ys.find? fun a => key a = k).map f := by
  induction xs generalizing ys with
  | nil =>
    obtain rfl := List.map_eq_nil_iff.mp hf.symm
    rfl
  | cons x xs ih =>
    cases ys with
    | nil => cases hf
    | cons y ys =>
      simp only [List.map_cons, List.cons.injEq] at hf
      rw [List.find?_cons, List.find?_cons, hkey x y hf.1]
      split
      · exact congrArg some hf.1
      · exact ih hf.2

/-- Elements that are found under the same keys, place by place, are found alike. -/
theorem map_eq_of_found {f : α → φ} (found : κ → Option ω) (key : α → κ) {w : α → ω}
    (hkey : ∀ a b, f a = f b → key a = key b) (hf : xs.map f = ys.map f)
    (hxs : ∀ a ∈ xs, found (key a) = some (w a)) (hys : ∀ b ∈ ys, found (key b) = some (w b)) :
    xs.map w = ys.map w := by
  induction xs generalizing ys with
  | nil =>
    obtain rfl := List.map_eq_nil_iff.mp hf.symm
    rfl
  | cons x xs ih =>
    cases ys with
    | nil => cases hf
    | cons y ys =>
      simp only [List.map_cons, List.cons.injEq] at hf ⊢
      have hx := hxs x List.mem_cons_self
      rw [hkey x y hf.1, hys y List.mem_cons_self] at hx
      exact ⟨(Option.some.inj hx).symm, ih hf.2 (fun a ha => hxs a (List.mem_cons_of_mem _ ha))
        fun b hb => hys b (List.mem_cons_of_mem _ hb)⟩

/-- Lists of elements with the same keys, place by place, that agree key by key are the same. -/
theorem eq_of_filters [DecidableEq κ] {key : α → κ} (hkey : xs.map key = ys.map key)
    (h : ∀ k, xs.filter (fun a => key a = k) = ys.filter fun a => key a = k) : xs = ys := by
  induction xs generalizing ys with
  | nil => exact (List.map_eq_nil_iff.mp hkey.symm).symm
  | cons x xs ih =>
    cases ys with
    | nil => cases hkey
    | cons y ys =>
      simp only [List.map_cons, List.cons.injEq] at hkey
      obtain ⟨hxy, hrest⟩ := hkey
      have hhead := h (key x)
      simp only [List.filter_cons, hxy, decide_true, if_true, List.cons.injEq] at hhead
      obtain ⟨rfl, -⟩ := hhead
      refine congrArg (x :: ·) (ih hrest fun k => ?_)
      have hk := h k
      simp only [List.filter_cons] at hk
      split at hk
      · exact (List.cons.inj hk).2
      · exact hk

end Sections
