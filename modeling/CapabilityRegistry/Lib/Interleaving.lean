import Mathlib.Data.List.Induction
import CapabilityRegistry.Lib.Machine

/-! Interleavings of agents whose acts reach no other agent's part of the state. -/

namespace Interleaving
variable {State Act Label Agent View : Type} [DecidableEq Agent] {step : State → Act → State}
  {label : Act → Label} {owner : Label → Agent} {s t : State} {x y : Act} {xs ys zs : List Act}
  {a : Agent} {l : Label} {ls : List Label}

/-- What one agent does in a list of acts, in its order. -/
def own (label : Act → Label) (owner : Label → Agent) (a : Agent) (xs : List Act) : List Label :=
  (xs.map label).filter fun l => owner l = a

/-- Both lists keep the order of every agent's own acts. -/
def Interleaves (label : Act → Label) (owner : Label → Agent) (xs ys : List Act) : Prop :=
  ∀ a, own label owner a xs = own label owner a ys

theorem own_cons_self (h : owner (label x) = a) :
    own label owner a (x :: xs) = label x :: own label owner a xs := by
  simp [own, h]

theorem own_cons_other (h : owner (label x) ≠ a) :
    own label owner a (x :: xs) = own label owner a xs := by
  simp [own, h]

theorem own_append : own label owner a (xs ++ ys) = own label owner a xs ++ own label owner a ys := by
  simp [own]

/-- The acts of an agent up to one of them are found in every list that begins with them. -/
theorem own_prefix_split (h : ls ++ [l] <+: own label owner a xs) :
    ∃ before x after, xs = before ++ x :: after ∧ label x = l ∧
      own label owner a before = ls := by
  induction xs generalizing ls with
  | nil =>
    obtain ⟨rest, hr⟩ := h
    simp [own] at hr
  | cons x xs ih =>
    by_cases hx : owner (label x) = a
    · rw [own_cons_self hx] at h
      cases ls with
      | nil =>
        obtain ⟨rest, hr⟩ := h
        exact ⟨[], x, xs, rfl, (List.cons.inj hr).1.symm, rfl⟩
      | cons l' ls =>
        obtain ⟨rfl, htail⟩ := List.cons_prefix_cons.mp h
        obtain ⟨before, y, after, rfl, hy, hb⟩ := ih htail
        refine ⟨x :: before, y, after, rfl, hy, ?_⟩
        rw [own_cons_self hx, hb]
    · rw [own_cons_other hx] at h
      obtain ⟨before, y, after, rfl, hy, hb⟩ := ih h
      refine ⟨x :: before, y, after, rfl, hy, ?_⟩
      rw [own_cons_other hx, hb]

/-- A good act leaves the views of the other agents and moves its own agent's view in a way that
this view and the label of the act determine. -/
structure Independent (step : State → Act → State) (label : Act → Label) (owner : Label → Agent)
    (Good : State → Act → Prop) (Inv : State → Prop) (view : Agent → State → View) : Prop where
  keep : ∀ {s x}, Inv s → Good s x → Inv (step s x)
  frame : ∀ {s x a}, Inv s → Good s x → owner (label x) ≠ a → view a (step s x) = view a s
  own : ∀ {s t x y}, Inv s → Inv t → Good s x → Good t y → label x = label y →
    view (owner (label x)) s = view (owner (label x)) t →
    view (owner (label x)) (step s x) = view (owner (label x)) (step t y)

variable {Good Ready : State → Act → Prop} {Inv : State → Prop} {view : Agent → State → View}

namespace Independent

theorem view_foreign (h : Independent step label owner Good Inv view) (hs : Inv s)
    (hx : Machine.Along step Good s xs) (ho : Interleaving.own label owner a xs = []) :
    view a (xs.foldl step s) = view a s := by
  induction xs generalizing s with
  | nil => rfl
  | cons x xs ih =>
    by_cases hown : owner (label x) = a
    · rw [own_cons_self hown] at ho
      cases ho
    · rw [own_cons_other hown] at ho
      rw [List.foldl_cons, ih (h.keep hs hx.1) hx.2 ho, h.frame hs hx.1 hown]

/-- An agent's view only depends on what the agent did, by induction on one run and, where it does
something itself, on the other run up to its next act there. -/
theorem view_eq (h : Independent step label owner Good Inv view) (hs : Inv s) (ht : Inv t)
    (hv : view a s = view a t) (hx : Machine.Along step Good s xs)
    (hy : Machine.Along step Good t ys)
    (ho : Interleaving.own label owner a xs = Interleaving.own label owner a ys) :
    view a (xs.foldl step s) = view a (ys.foldl step t) := by
  induction xs generalizing s t ys with
  | nil => rw [h.view_foreign ht hy ho.symm, ← hv]; rfl
  | cons x xs ih =>
    by_cases hown : owner (label x) = a
    · induction ys generalizing t with
      | nil =>
        rw [own_cons_self hown] at ho
        cases ho
      | cons y ys ihy =>
        by_cases hown' : owner (label y) = a
        · rw [own_cons_self hown, own_cons_self hown'] at ho
          obtain ⟨hl, ho⟩ := List.cons.inj ho
          subst hown
          have hstep := h.own hs ht hx.1 hy.1 hl hv
          have hrest := ih (h.keep hs hx.1) (h.keep ht hy.1) hstep hx.2 hy.2 ho
          exact hrest
        · rw [own_cons_other hown'] at ho
          exact ihy (h.keep ht hy.1) (hv.trans (h.frame ht hy.1 hown').symm) hy.2 ho
    · rw [own_cons_other hown] at ho
      exact ih (h.keep hs hx.1) ht ((h.frame hs hx.1 hown).trans hv) hx.2 hy ho

/-- An order in which every act is good stays so under every other order, where the view of its
agent decides whether a ready act is good. By induction on the other order from its end. -/
theorem along (h : Independent step label owner Good Inv view)
    (hgood : ∀ {s t x y}, Inv s → Inv t → Good s x → label x = label y →
      view (owner (label x)) s = view (owner (label x)) t → Ready t y → Good t y)
    (hs : Inv s) (hx : Machine.Along step Good s xs) (hr : Machine.Along step Ready s ys)
    (ho : ∀ a, Interleaving.own label owner a ys <+: Interleaving.own label owner a xs) :
    Machine.Along step Good s ys := by
  induction ys using List.reverseRecOn with
  | nil => trivial
  | append_singleton ys y ih =>
    rw [Machine.along_append] at hr ⊢
    have hys : Machine.Along step Good s ys := by
      refine ih hr.1 fun a => List.IsPrefix.trans ?_ (ho a)
      rw [own_append]
      exact List.prefix_append _ _
    refine ⟨hys, ?_, trivial⟩
    have hpre := ho (owner (label y))
    rw [own_append, own_cons_self rfl] at hpre
    obtain ⟨before, x, after, rfl, hl, hb⟩ := own_prefix_split hpre
    rw [Machine.along_append] at hx
    have hinv : ∀ {zs}, Machine.Along step Good s zs → Inv (zs.foldl step s) :=
      fun hz => hz.invariant hs fun _ _ => h.keep
    have hview := h.view_eq hs hs rfl hx.1 hys hb
    exact hgood (hinv hx.1) (hinv hys) hx.2.1 hl (hl ▸ hview) hr.2.1

end Independent

end Interleaving
