import Mathlib.Data.List.Basic

/-! Runs of a deterministic machine and the rules that carry an invariant along them. -/
namespace Machine

section Runs
variable {State Op : Type} {step : State → Op → State} {Good Better : State → Op → Prop}
  {P Q : State → Prop} {s : State} {op : Op} {ops ops' : List Op}

/-- Every call of a run meets a condition in the state it is made in. -/
def Along (step : State → Op → State) (Good : State → Op → Prop) : State → List Op → Prop
  | _, [] => True
  | s, op :: ops => Good s op ∧ Along step Good (step s op) ops

theorem along_append :
    Along step Good s (ops ++ ops') ↔
      Along step Good s ops ∧ Along step Good (ops.foldl step s) ops' := by
  induction ops generalizing s with
  | nil => simp [Along]
  | cons op ops ih => simp [Along, ih, and_assoc]

theorem Along.mono (h : Along step Good s ops) (hb : ∀ s op, Good s op → Better s op) :
    Along step Better s ops := by
  induction ops generalizing s with
  | nil => trivial
  | cons op ops ih => exact ⟨hb _ _ h.1, ih h.2⟩

theorem along_of_forall (h : ∀ s op, Good s op) (s : State) (ops : List Op) :
    Along step Good s ops := by
  induction ops generalizing s with
  | nil => trivial
  | cons op ops ih => exact ⟨h _ _, ih _⟩

/-- A property kept by every good call holds after a run of good calls. -/
theorem Along.invariant (h : Along step Good s ops) (hs : P s)
    (hstep : ∀ s op, P s → Good s op → P (step s op)) : P (ops.foldl step s) := by
  induction ops generalizing s with
  | nil => exact hs
  | cons op ops ih => exact ih h.2 (hstep _ _ hs h.1)

/-- When the good calls keep an invariant and every other call spoils what it shows, all calls of a
run are good exactly when that holds after every part of the run. -/
theorem along_iff_shows (hs : P s) (hkeep : ∀ s op, P s → Good s op → P (step s op))
    (hshow : ∀ s, P s → Q s) (hspoil : ∀ s op, P s → ¬ Good s op → ¬ Q (step s op)) :
    Along step Good s ops ↔ ∀ ops', ops' <+: ops → Q (ops'.foldl step s) := by
  induction ops generalizing s with
  | nil => exact iff_of_true trivial fun ops' h => by rw [List.prefix_nil.mp h]; exact hshow s hs
  | cons op ops ih =>
    constructor
    · rintro ⟨hg, hrest⟩ ops' h
      cases ops' with
      | nil => exact hshow s hs
      | cons op' ops' =>
        obtain ⟨rfl, hp⟩ := List.cons_prefix_cons.mp h
        exact (ih (hkeep s op' hs hg)).mp hrest ops' hp
    · intro h
      have hg : Good s op := by
        by_contra hg
        exact hspoil s op hs hg (h [op] (List.cons_prefix_cons.mpr ⟨rfl, List.nil_prefix⟩))
      refine ⟨hg, (ih (hkeep s op hs hg)).mpr fun ops' hp => ?_⟩
      exact h (op :: ops') (List.cons_prefix_cons.mpr ⟨rfl, hp⟩)

/-- When a property is kept by the good calls and by no others, it holds after every part of a run
exactly when all calls of the run are good. -/
theorem along_iff (hs : P s) (hstep : ∀ s op, P s → (P (step s op) ↔ Good s op)) :
    Along step Good s ops ↔ ∀ ops', ops' <+: ops → P (ops'.foldl step s) :=
  along_iff_shows hs (fun s op h => (hstep s op h).mpr) (fun _ h => h)
    fun s op h => mt (hstep s op h).mp

/-- A property kept by every call holds after every run. -/
theorem run_invariant (hs : P s) (hstep : ∀ s op, P s → P (step s op)) (ops : List Op) :
    P (ops.foldl step s) :=
  (@along_of_forall _ _ step (fun _ _ => True) (fun _ _ => trivial) s ops).invariant hs
    fun s op h _ => hstep s op h

/-- A property kept by every good call holds at every call of a run of good calls. -/
theorem Along.with_invariant (h : Along step Good s ops) (hs : P s)
    (hstep : ∀ s op, P s → Good s op → P (step s op)) :
    Along step (fun s op => P s ∧ Good s op) s ops := by
  induction ops generalizing s with
  | nil => trivial
  | cons op ops ih => exact ⟨⟨hs, h.1⟩, ih h.2 (hstep _ _ hs h.1)⟩

end Runs

section Counters
variable {State Op : Type} {step : State → Op → State} {Good : State → Op → Prop}
  {P : State → Prop} {s t u : State} {ops : List Op} {count : State → Nat}
  {Same : State → State → Prop}

/-- The counter went up, or it stands where it stood and the two states look the same. -/
def Counts (count : State → Nat) (Same : State → State → Prop) (s t : State) : Prop :=
  count s < count t ∨ (count t = count s ∧ Same s t)

theorem Counts.trans (ht : ∀ s t u, Same s t → Same t u → Same s u) (h : Counts count Same s t)
    (h' : Counts count Same t u) : Counts count Same s u := by
  rcases h with h | ⟨he, hs⟩
  · rcases h' with h' | ⟨he', -⟩
    · exact .inl (Nat.lt_trans h h')
    · exact .inl (by omega)
  · rcases h' with h' | ⟨he', hs'⟩
    · exact .inl (by omega)
    · exact .inr ⟨he'.trans he, ht s t u hs hs'⟩

/-- A counter that every good call keeps count with detects every change of a run. -/
theorem Along.detects (h : Along step Good s ops) (hp : P s) (hr : ∀ s, Same s s)
    (ht : ∀ s t u, Same s t → Same t u → Same s u)
    (hkeep : ∀ s op, P s → Good s op → P (step s op))
    (hcount : ∀ s op, P s → Good s op → Counts count Same s (step s op))
    (he : count (ops.foldl step s) = count s) : Same s (ops.foldl step s) := by
  have hrun : P (ops.foldl step s) ∧ Counts count Same s (ops.foldl step s) :=
    h.invariant (P := fun t => P t ∧ Counts count Same s t) ⟨hp, .inr ⟨rfl, hr s⟩⟩
      fun t op ht' hg => ⟨hkeep t op ht'.1 hg, ht'.2.trans ht (hcount t op ht'.1 hg)⟩
  rcases hrun.2 with hlt | ⟨-, hs⟩
  · omega
  · exact hs

end Counters

end Machine
