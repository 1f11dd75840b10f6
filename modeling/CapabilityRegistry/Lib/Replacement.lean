import Mathlib

/-! Replacing a file by a copy that is written beside it and renamed over it. -/
namespace Replacement

/-- What each name of a directory holds. -/
abbrev Files (Name Byte : Type) := Name → Option (List Byte)

inductive Call (Name Byte : Type)
  | create (name : Name)
  | append (name : Name) (bytes : List Byte)
  | remove (name : Name)
  | rename (source target : Name)

section Calls
variable {Name Byte : Type} [DecidableEq Name] {files : Files Name Byte} {name copy target : Name}
  {bytes front : List Byte} {sizes : List Nat} {calls part : List (Call Name Byte)}

/-- A created file is empty, whatever the name held; a renamed one takes the place of its target. -/
def after (files : Files Name Byte) : Call Name Byte → Files Name Byte
  | .create name => Function.update files name (some [])
  | .append name bytes => Function.update files name ((files name).map (· ++ bytes))
  | .remove name => Function.update files name none
  | .rename source target =>
    Function.update (Function.update files target (files source)) source none

def run (files : Files Name Byte) (calls : List (Call Name Byte)) : Files Name Byte :=
  calls.foldl after files

theorem run_append (files : Files Name Byte) (calls calls' : List (Call Name Byte)) :
    run files (calls ++ calls') = run (run files calls) calls' := List.foldl_append ..

/-- The call leaves what the name holds alone. -/
def Call.Spares (name : Name) : Call Name Byte → Prop
  | .create other | .append other _ | .remove other => other ≠ name
  | .rename source target => source ≠ name ∧ target ≠ name

theorem after_of_spares {call : Call Name Byte} (h : call.Spares name) :
    after files call name = files name := by
  cases call with
  | create other | append other _ | remove other => exact Function.update_of_ne (Ne.symm h) _ _
  | rename source target =>
    rw [after, Function.update_of_ne (Ne.symm h.1), Function.update_of_ne (Ne.symm h.2)]

theorem run_of_spares (h : ∀ call ∈ calls, call.Spares name) : run files calls name = files name := by
  induction calls generalizing files with
  | nil => rfl
  | cons call calls ih =>
    rw [List.forall_mem_cons] at h
    exact (ih h.2).trans (after_of_spares h.1)

/-- The bytes reach the file in pieces of these sizes. -/
def pieces (name : Name) (bytes : List Byte) : List Nat → List (Call Name Byte)
  | [] => []
  | size :: sizes => .append name (bytes.take size) :: pieces name (bytes.drop size) sizes

omit [DecidableEq Name] in
theorem spares_pieces (h : copy ≠ target) :
    ∀ call ∈ (pieces copy bytes sizes : List (Call Name Byte)), call.Spares target := by
  induction sizes generalizing bytes with
  | nil => simp [pieces]
  | cons size sizes ih => exact List.forall_mem_cons.mpr ⟨h, ih⟩

theorem run_pieces (h : files copy = some front) :
    run files (pieces copy bytes sizes) copy = some (front ++ bytes.take sizes.sum) := by
  induction sizes generalizing files front bytes with
  | nil => simpa [pieces, run] using h
  | cons size sizes ih =>
    have hnext : after files (.append copy (bytes.take size)) copy =
        some (front ++ bytes.take size) := by
      rw [after, Function.update_self, h, Option.map_some]
    rw [pieces, run, List.foldl_cons, ← run, ih hnext, List.append_assoc, ← List.take_add,
      List.sum_cons]

/-- The copy with all the bytes in it. -/
def copied (copy : Name) (bytes : List Byte) (sizes : List Nat) : List (Call Name Byte) :=
  .create copy :: pieces copy bytes sizes ++ [.append copy (bytes.drop sizes.sum)]

/-- The copy is written and renamed. -/
def replace (copy target : Name) (bytes : List Byte) (sizes : List Nat) : List (Call Name Byte) :=
  copied copy bytes sizes ++ [.rename copy target]

omit [DecidableEq Name] in
theorem spares_copied (h : copy ≠ target) :
    ∀ call ∈ (copied copy bytes sizes : List (Call Name Byte)), call.Spares target := by
  intro call hm
  rcases List.mem_append.mp hm with hm | hm
  · rcases List.mem_cons.mp hm with rfl | hm
    · exact h
    · exact spares_pieces h call hm
  · rw [List.mem_singleton] at hm
    subst hm
    exact h

theorem run_copied : run files (copied copy bytes sizes) copy = some bytes := by
  have hbegun : run files (.create copy :: pieces copy bytes sizes) copy =
      some (bytes.take sizes.sum) := by
    rw [run, List.foldl_cons, ← run]
    change _ = some ([] ++ bytes.take sizes.sum)
    exact run_pieces (by rw [after, Function.update_self])
  rw [copied, run_append]
  generalize run files (.create copy :: pieces copy bytes sizes) = begun at hbegun
  rw [run, List.foldl_cons, List.foldl_nil, after, Function.update_self, hbegun, Option.map_some,
    List.take_append_drop]

theorem run_replace (h : copy ≠ target) :
    run files (replace copy target bytes sizes) target = some bytes := by
  rw [replace, run_append]
  have hcopy : run files (copied copy bytes sizes) copy = some bytes := run_copied
  generalize run files (copied copy bytes sizes) = written at hcopy
  rw [run, List.foldl_cons, List.foldl_nil, after, Function.update_of_ne h.symm,
    Function.update_self, hcopy]

omit [DecidableEq Name] in
/-- Only the last call of a replacement touches the target. -/
theorem part_of_replace (h : copy ≠ target) (hp : part <+: replace copy target bytes sizes) :
    part = replace copy target bytes sizes ∨ ∀ call ∈ part, call.Spares target := by
  rcases List.prefix_concat_iff.mp hp with he | hp
  · exact .inl he
  · exact .inr fun call hm => spares_copied h call (hp.subset hm)

end Calls

section Histories
variable {Name Byte : Type} [DecidableEq Name] {files : Files Name Byte} {copy target : Name}

/-- Calls that put an image in the place of the target as their last act, or none of which touches
the target. -/
inductive Undertaking (target : Name) : List (Call Name Byte) → Option (List Byte) → Prop
  | idle {calls : List (Call Name Byte)} (spares : ∀ call ∈ calls, call.Spares target) :
    Undertaking target calls none
  | replaced {copy : Name} {bytes : List Byte} {sizes : List Nat} (apart : copy ≠ target) :
    Undertaking target (replace copy target bytes sizes) (some bytes)

variable {calls part : List (Call Name Byte)} {image : Option (List Byte)}

theorem Undertaking.run (h : Undertaking target calls image) (files : Files Name Byte) :
    run files calls target = image.or (files target) := by
  cases h with
  | idle spares => exact run_of_spares spares
  | replaced apart => exact run_replace apart

omit [DecidableEq Name] in
/-- Cut short, an undertaking has come to its end or done nothing to the target. -/
theorem Undertaking.cut (h : Undertaking target calls image) (hp : part <+: calls) :
    (part = calls ∧ image.isSome = true) ∨ Undertaking target part none := by
  cases h with
  | idle spares => exact .inr (.idle fun call hm => spares call (hp.subset hm))
  | replaced apart =>
    rcases part_of_replace apart hp with he | hs
    · exact .inl ⟨he, rfl⟩
    · exact .inr (.idle hs)

variable {Event : Type} {acts : Event → List (Call Name Byte)} {puts : Event → Option (List Byte)}
  {events : List Event}

/-- What the target holds after a history, each event of it at once. -/
def settle (puts : Event → Option (List Byte)) (held : Option (List Byte)) (events : List Event) :
    Option (List Byte) :=
  events.foldl (fun held event => (puts event).or held) held

theorem run_history (h : ∀ event, Undertaking target (acts event) (puts event))
    (files : Files Name Byte) (events : List Event) :
    run files (events.flatMap acts) target = settle puts (files target) events := by
  induction events generalizing files with
  | nil => rfl
  | cons event events ih =>
    rw [List.flatMap_cons, run_append, ih, (h event).run files, settle, settle, List.foldl_cons]

/-- At every point of a history of undertakings the target holds what an initial part of the
history leaves. -/
theorem history_is_atomic (h : ∀ event, Undertaking target (acts event) (puts event))
    (hp : part <+: events.flatMap acts) :
    ∃ done, done <+: events ∧ run files part target = settle puts (files target) done := by
  induction events generalizing files part with
  | nil =>
    rw [List.flatMap_nil, List.prefix_nil] at hp
    exact ⟨[], List.prefix_rfl, hp ▸ rfl⟩
  | cons event events ih =>
    rw [List.flatMap_cons] at hp
    rcases le_total part.length (acts event).length with hle | hle
    · have hpart := List.prefix_of_prefix_length_le hp (List.prefix_append _ _) hle
      rcases (h event).cut hpart with ⟨rfl, -⟩ | hidle
      · exact ⟨[event], List.prefix_append [event] events, (h event).run files⟩
      · exact ⟨[], List.nil_prefix, hidle.run files⟩
    · obtain ⟨later, rfl⟩ := List.prefix_of_prefix_length_le (List.prefix_append _ _) hp hle
      rw [List.prefix_append_right_inj] at hp
      obtain ⟨done, hdone, hrun⟩ := ih hp
      refine ⟨event :: done, (List.prefix_cons_inj event).mpr hdone, ?_⟩
      rw [run_append, hrun, (h event).run files, settle, settle, List.foldl_cons]

/-- What the target holds was there at first, or one of the events put it there. -/
theorem settle_cases (puts : Event → Option (List Byte)) (held : Option (List Byte))
    (events : List Event) :
    settle puts held events = held ∨
      ∃ event ∈ events, (puts event).isSome = true ∧ settle puts held events = puts event := by
  induction events generalizing held with
  | nil => exact .inl rfl
  | cons event events ih =>
    rw [settle, List.foldl_cons, ← settle]
    rcases ih ((puts event).or held) with he | ⟨last, hm, hsome, he⟩
    · cases hput : puts event with
      | none => exact .inl (by rw [hput] at he; exact he)
      | some image =>
        refine .inr ⟨event, List.mem_cons_self, ?_, ?_⟩
        · rw [hput]
          rfl
        · rw [← hput, he, hput]
          rfl
    · exact .inr ⟨last, List.mem_cons_of_mem _ hm, hsome, he⟩

end Histories

end Replacement
