import CapabilityRegistry.Lib.Replacement
import CapabilityRegistry.Incarnations

/-! The state file, call by call: how a save replaces it and how it is read back. -/
namespace CapabilityRegistry
open Replacement

/-- How the calls of a save end: whether the temporary file opens, in which pieces bytes reach it,
whether `fwrite`, `fflush` and `fclose` all succeed, and whether the two renamings do. -/
structure SaveCalls where
  opens : Bool := true
  sizes : List Nat := []
  writes : Bool := true
  renames : Bool := true
  removes : Bool := true

namespace FileStateStore
variable (path : Text) (options : PersistOptions)

def temporary : Text := path ++ ".tmp"

/-- `save`: what it calls, and what it answers. The removal of a file that could not be used is not
looked at. -/
def saving (io : SaveCalls) (state : DurableState) : List (Call Text UInt8) × Status :=
  match encodeDurableState options state with
  | .error e => ([], .error e)
  | .ok bytes =>
    let discarded := if io.removes then [Call.remove (temporary path)] else []
    if !io.opens then
      ([], .error ⟨.ioFailure, "cannot open temporary state file " ++ temporary path⟩)
    else if !io.writes then
      (.create (temporary path) :: pieces (temporary path) bytes io.sizes ++ discarded,
        .error ⟨.ioFailure, "failed to write temporary state file"⟩)
    else if !io.renames then
      (copied (temporary path) bytes io.sizes ++ discarded,
        .error ⟨.ioFailure, "atomic replacement of " ++ path ++ (" failed" : Text)⟩)
    else (replace (temporary path) path bytes io.sizes, .ok ())

/-- The loop of `load`: pieces are taken in as long as they fit. -/
def gather : List UInt8 → List (List UInt8) → Except Error (List UInt8)
  | bytes, [] => .ok bytes
  | bytes, piece :: more =>
    if bytes.length + piece.length > options.bound then
      .error ⟨.limitExceeded, "state file exceeds the configured byte bound"⟩
    else gather (bytes ++ piece) more

/-- `load` of a file that is there. -/
def loading (read : List (List UInt8)) (failed : Bool) : Except Error DurableState := do
  let bytes ← gather options [] read
  require (!failed) .ioFailure ("failed while reading state file " ++ path)
  decodeDurableState options bytes

end FileStateStore

/-- A save that comes to its end, or one that a crash cuts short after so many of its calls. -/
inductive StoreEvent
  | save (io : SaveCalls) (state : DurableState)
  | crash (io : SaveCalls) (state : DurableState) (done : Nat)

namespace StoreEvent
variable (path : Text) (options : PersistOptions)

def calls : StoreEvent → List (Call Text UInt8)
  | .save io state => (FileStateStore.saving path options io state).1
  | .crash io state done => (FileStateStore.saving path options io state).1.take done

def state : StoreEvent → DurableState
  | .save _ state | .crash _ state _ => state

/-- What the event puts in the place of the state file. A save cut short does so if all of its
calls were made. -/
def image : StoreEvent → Option (List UInt8)
  | .save io state =>
    if (FileStateStore.saving path options io state).2.isOk then
      (encodeDurableState options state).toOption
    else none
  | .crash io state done =>
    if (FileStateStore.saving path options io state).2.isOk &&
        (FileStateStore.saving path options io state).1.length ≤ done then
      (encodeDurableState options state).toOption
    else none

end StoreEvent

section Saves
variable {path : Text} {options : PersistOptions} {io : SaveCalls} {state : DurableState}
  {bytes : List UInt8}

theorem temporary_ne : FileStateStore.temporary path ≠ path := by
  intro he
  have hlen := congrArg List.length he
  rw [FileStateStore.temporary, List.length_append] at hlen
  have hpos : 0 < (".tmp" : Text).length := by decide
  omega

/-- A save either replaces the state file, and answers so, or leaves it alone. -/
theorem saving_cases (path : Text) (options : PersistOptions) (io : SaveCalls) (state : DurableState) :
    (∃ bytes, encodeDurableState options state = .ok bytes ∧
      FileStateStore.saving path options io state =
        (replace (FileStateStore.temporary path) path bytes io.sizes, .ok ())) ∨
    ((FileStateStore.saving path options io state).2.isOk = false ∧
      ∀ call ∈ (FileStateStore.saving path options io state).1, call.Spares path) := by
  have hdiscarded : ∀ call ∈ (if io.removes then [Call.remove (FileStateStore.temporary path)]
      else [] : List (Call Text UInt8)), call.Spares path := by
    split
    · exact List.forall_mem_singleton.mpr temporary_ne
    · simp
  unfold FileStateStore.saving
  cases encodeDurableState options state with
  | error e => exact .inr ⟨rfl, by simp⟩
  | ok bytes =>
    dsimp only
    split
    · exact .inr ⟨rfl, by simp⟩
    · split
      · refine .inr ⟨rfl, List.forall_mem_append.mpr ⟨?_, hdiscarded⟩⟩
        exact List.forall_mem_cons.mpr ⟨temporary_ne, spares_pieces temporary_ne⟩
      · split
        · exact .inr ⟨rfl, List.forall_mem_append.mpr ⟨spares_copied temporary_ne, hdiscarded⟩⟩
        · exact .inl ⟨bytes, rfl, rfl⟩

/-- The events of a store put a whole image in place as the last call of a save, or do nothing to
the state file. -/
theorem undertaking (path : Text) (options : PersistOptions) (event : StoreEvent) :
    Undertaking path (event.calls path options) (event.image path options) := by
  cases event with
  | save io state =>
    rcases saving_cases path options io state with
      ⟨bytes, he, hs⟩ | ⟨hfailed, hspares⟩
    · simp only [StoreEvent.calls, StoreEvent.image, hs, he]
      exact .replaced temporary_ne
    · simp only [StoreEvent.calls, StoreEvent.image, hfailed]
      exact .idle hspares
  | crash io state done =>
    rcases saving_cases path options io state with
      ⟨bytes, he, hs⟩ | ⟨hfailed, hspares⟩
    · simp only [StoreEvent.calls, StoreEvent.image, hs, he]
      by_cases hdone : (replace (FileStateStore.temporary path) path bytes io.sizes).length ≤ done
      · rw [List.take_of_length_le hdone, decide_eq_true hdone]
        exact .replaced temporary_ne
      · rw [decide_eq_false hdone, Bool.and_false]
        rcases part_of_replace temporary_ne (List.take_prefix done _) with hall | hspares
        · exact (hdone (List.take_eq_self_iff _ |>.mp hall)).elim
        · exact .idle hspares
    · simp only [StoreEvent.calls, StoreEvent.image, hfailed]
      exact .idle fun call hm => hspares call (List.mem_of_mem_take hm)

/-- What an event puts in place is the whole encoding of its state. -/
theorem image_whole {event : StoreEvent} (h : (event.image path options).isSome = true) :
    event.image path options = (encodeDurableState options event.state).toOption := by
  cases event with
  | save io state =>
    simp only [StoreEvent.image, StoreEvent.state] at h ⊢
    split at h
    · next hok => rw [if_pos hok]
    · cases h
  | crash io state done =>
    simp only [StoreEvent.image, StoreEvent.state] at h ⊢
    split at h
    · next hok => rw [if_pos hok]
    · cases h

/-- A save that comes to its end is the save at once of the installations, which is told only
whether it can write. -/
theorem save_at_once :
    (FileStateStore.save options (FileStateStore.saving path options io state).2 state).toOption =
      (StoreEvent.save io state).image path options := by
  rcases saving_cases path options io state with
    ⟨bytes, he, hs⟩ | ⟨hfailed, -⟩
  · simp only [FileStateStore.save, StoreEvent.image, hs, he]
    rfl
  · rw [StoreEvent.image, hfailed, if_neg Bool.false_ne_true]
    cases hanswer : (FileStateStore.saving path options io state).2 with
    | ok => simp [hanswer, Except.isOk, Except.toBool] at hfailed
    | error e =>
      unfold FileStateStore.save
      cases encodeDurableState options state <;> rfl

/-- What an installation writes at once is what the calls of the save leave in its state file. -/
theorem installation_write (i : Installation) {files : Files Text UInt8}
    (hfile : files i.path = i.file) :
    (i.write (FileStateStore.save {} (FileStateStore.saving i.path {} io state).2 state).toOption).file =
      run files (FileStateStore.saving i.path {} io state).1 i.path := by
  have hrun := (undertaking i.path {} (.save io state)).run files
  rw [Installation.write, save_at_once, ← hfile]
  exact hrun.symm

theorem gather_eq (read : List (List UInt8)) (bytes : List UInt8)
    (hfits : bytes.length ≤ options.bound) : FileStateStore.gather options bytes read =
      if (bytes ++ read.flatten).length ≤ options.bound then .ok (bytes ++ read.flatten)
      else .error ⟨.limitExceeded, "state file exceeds the configured byte bound"⟩ := by
  induction read generalizing bytes with
  | nil => simp [FileStateStore.gather, hfits]
  | cons piece more ih =>
    rw [FileStateStore.gather, List.flatten_cons, ← List.append_assoc]
    by_cases hroom : bytes.length + piece.length > options.bound
    · rw [if_pos hroom, if_neg]
      rw [List.length_append, List.length_append]
      omega
    · rw [if_neg hroom]
      exact ih (bytes ++ piece) (by rw [List.length_append]; omega)

/-- In whatever pieces the file is read, the same is loaded. -/
theorem loading_eq (read : List (List UInt8)) : FileStateStore.loading path options read false =
    FileStateStore.load options (.ok ()) read.flatten := by
  unfold FileStateStore.loading FileStateStore.load
  rw [gather_eq read [] (Nat.zero_le _), List.nil_append]
  by_cases hfits : read.flatten.length ≤ options.bound
  · rw [if_pos hfits, decide_eq_true hfits]
    rfl
  · rw [if_neg hfits, decide_eq_false hfits]
    rfl

/-- Two processes that save to one path share the temporary file: once the second has opened it, the
first renames an empty one. -/
theorem saves_of_two_processes_tear (files : Files Text UInt8) (sizes : List Nat) :
    run files (copied (FileStateStore.temporary path) bytes sizes ++
      [.create (FileStateStore.temporary path), .rename (FileStateStore.temporary path) path]) path =
        some [] := by
  rw [run_append]
  simp only [run, List.foldl_cons, List.foldl_nil, Replacement.after, Function.update_self,
    Function.update_of_ne temporary_ne.symm]

end Saves

section Samples

/-- A save that a crash cuts short, then one that cannot rename. -/
def unluckySaves : List StoreEvent :=
  [.crash { sizes := [3, 5] } blankState 3, .save { renames := false } blankState]

end Samples

end CapabilityRegistry
