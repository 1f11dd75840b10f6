import CapabilityRegistry.Slots
import CapabilityRegistry.Typing

/-! The serials of records: which numbers are handed out, and when one is handed out twice. -/
namespace CapabilityRegistry

/-- The call restores a saved state. -/
def Op.isImport : Op → Bool
  | .importDurableState _ => true
  | _ => false

/-- The serials of the records of one key. -/
def serialsAt (keys : Std.ExtTreeMap KeyId KeyState) (id : KeyId) : List Nat :=
  (recordsAt keys id).map StoredRecord.serial

section Uniqueness
variable {keys keys' : Std.ExtTreeMap KeyId KeyState} {id target : KeyId} {n : Nat}

/-- No two retained records carry the same serial. -/
structure SerialsUnique (keys : Std.ExtTreeMap KeyId KeyState) : Prop where
  within : ∀ id, (serialsAt keys id).Nodup
  across : ∀ {id id' n}, n ∈ serialsAt keys id → n ∈ serialsAt keys id' → id = id'

/-- Nothing but one record was added, under a certain serial. -/
def GrowsBy (keys : Std.ExtTreeMap KeyId KeyState) (target : KeyId) (n : Nat)
    (keys' : Std.ExtTreeMap KeyId KeyState) : Prop :=
  ∀ id, (serialsAt keys' id).Sublist (serialsAt keys id ++ if target = id then [n] else [])

theorem serialsUnique_empty : SerialsUnique ∅ := by
  have hnone : ∀ id, serialsAt ∅ id = [] := fun id => by simp [serialsAt, recordsAt]
  constructor
  · intro id
    rw [hnone]
    exact List.nodup_nil
  · intro id id' n h
    rw [hnone] at h
    cases h

theorem SerialsUnique.sublist (h : SerialsUnique keys)
    (hs : ∀ id, (serialsAt keys' id).Sublist (serialsAt keys id)) : SerialsUnique keys' :=
  ⟨fun id => (h.within id).sublist (hs id),
    fun hn hn' => h.across ((hs _).subset hn) ((hs _).subset hn')⟩

theorem GrowsBy.mem (h : GrowsBy keys target n keys') {m : Nat} (hm : m ∈ serialsAt keys' id) :
    m ∈ serialsAt keys id ∨ (target = id ∧ m = n) := by
  rcases List.mem_append.mp ((h id).subset hm) with hold | hnew
  · exact .inl hold
  · split at hnew
    · next he => exact .inr ⟨he, List.mem_singleton.mp hnew⟩
    · cases hnew

/-- A record under a serial that no other record carries is told apart from all others. -/
theorem SerialsUnique.grow (h : SerialsUnique keys) (hg : GrowsBy keys target n keys')
    (hn : ∀ id, n ∉ serialsAt keys id) : SerialsUnique keys' := by
  constructor
  · intro id
    refine List.Nodup.sublist (hg id) ?_
    split
    · exact (h.within id).append (List.nodup_singleton n)
        (List.disjoint_singleton.mpr (hn id))
    · rw [List.append_nil]
      exact h.within id
  · intro id id' m hm hm'
    rcases hg.mem hm with hold | ⟨rfl, rfl⟩
    · rcases hg.mem hm' with hold' | ⟨rfl, rfl⟩
      · exact h.across hold hold'
      · exact (hn id hold).elim
    · rcases hg.mem hm' with hold' | ⟨rfl, -⟩
      · exact (hn id' hold').elim
      · rfl

end Uniqueness

section Restoring
variable {limits : RegistryLimits} {subjects : StagedSubjects} {schemas : StagedSchemas}
  {staged staged' : StagedKeys} {record : CapabilityRecord} {records : List CapabilityRecord}
  {start : Nat}

/-- The staged records are told apart by serials above the one the import began with. -/
structure StagedSerials (start : Nat) (staged : StagedKeys) : Prop where
  unique : SerialsUnique staged.keys
  issued : ∀ id, ∀ n ∈ serialsAt staged.keys id, start < n ∧ n ≤ staged.nextSerial
  started : start ≤ staged.nextSerial

theorem stagedSerials_empty : StagedSerials start { nextSerial := start } :=
  ⟨serialsUnique_empty, fun id n hn => by simp [serialsAt, recordsAt] at hn, le_refl _⟩

theorem growsBy_restoreRecord (staged : StagedKeys) (record : CapabilityRecord) (n : Nat) :
    GrowsBy staged.keys (keyOf record) n (staged.keys.insert (keyOf record)
      (restoreRecord (stagedKey staged.keys record) record n)) := by
  intro id
  rw [serialsAt, recordsAt_restoreRecord]
  split
  · rw [List.map_append, map_serial_supersede]
    exact List.Sublist.refl _
  · rw [List.append_nil]
    exact List.Sublist.refl _

theorem stagedSerials_stageRecord (hs : StagedSerials start staged)
    (h : stageRecord limits subjects schemas staged record = .ok staged') :
    StagedSerials start staged' := by
  obtain ⟨-, -, -, rfl⟩ := Impl.stageRecord_eq_ok.mp h
  have hg := growsBy_restoreRecord staged record (staged.nextSerial + 1)
  refine ⟨hs.unique.grow hg fun id hn => ?_, fun id n hn => ?_, hs.started.trans (Nat.le_succ _)⟩
  · exact Nat.lt_irrefl _ (hs.issued id _ hn).2
  · have hstarted := hs.started
    rcases hg.mem hn with hold | ⟨-, rfl⟩
    · exact ⟨(hs.issued id n hold).1, (hs.issued id n hold).2.trans (Nat.le_succ _)⟩
    · exact ⟨Nat.lt_succ_of_le hstarted, le_refl _⟩

theorem stagedSerials_stageRecords
    (h : stageRecords limits subjects schemas { nextSerial := start } records = (.ok (), staged)) :
    StagedSerials start staged :=
  foldlM_invariant stagedSerials_empty (fun _ _ _ _ => stagedSerials_stageRecord)
    (Impl.stageRecords_eq_ok.mp h)

end Restoring

namespace Impl
variable [StdLib] {r r' : Impl} {op : Op} {id : KeyId}

/-- The serials that one call hands out. Ingestion advances the counter after it has taken a number,
an import before. -/
def serialsHandedOut (r : Impl) (op : Op) : List Nat :=
  List.range' (if op.isImport then r.nextSerial + 1 else r.nextSerial)
    ((r.after op).nextSerial - r.nextSerial)

/-- The key that a publication is evidence for. -/
def Concerns (r : Impl) (op : Op) (id : KeyId) : Prop :=
  ∃ now publication q publisher, op = .apply now publication ∧
    Addressed r publication q publisher ∧ keyOf q.capability = id

omit [StdLib] in
theorem Concerns.unique {id' : KeyId} (h : r.Concerns op id) (h' : r.Concerns op id') :
    id = id' := by
  obtain ⟨now, publication, q, publisher, rfl, addressed, rfl⟩ := h
  obtain ⟨_, _, q', _, he, addressed', rfl⟩ := h'
  obtain ⟨-, rfl⟩ := Op.apply.inj he
  have hq : q = q' := Except.ok.inj (addressed.prepared.symm.trans addressed'.prepared)
  rw [hq]

omit [StdLib] in
theorem RecordsMove.serials (h : RecordsMove r op r' id) :
    (serialsAt r'.keys id).Sublist (serialsAt r.keys id) ∨
      (r'.nextSerial = r.nextSerial + 1 ∧ r.Concerns op id ∧
        (serialsAt r'.keys id).Sublist (serialsAt r.keys id ++ [r.nextSerial])) := by
  cases h with
  | kept op r' id sub => exact .inl (sub.map _)
  | stored now publication q publisher record device generation mid r' addressed authority kind
      admits sub sub' serial =>
    refine .inr ⟨serial, ⟨now, publication, q, publisher, rfl, addressed, rfl⟩, ?_⟩
    have hserials := sub'.map StoredRecord.serial
    rw [List.map_append, map_serial_supersede] at hserials
    exact hserials.trans ((sub.map _).append (List.Sublist.refl _))

/-- A call that imports nothing keeps the serials, or adds one record under the serial that it
hands out. -/
theorem serials_after (ha : r.Accounted) (hop : op.isImport = false) :
    ((r.after op).nextSerial = r.nextSerial ∧
      ∀ id, (serialsAt (r.after op).keys id).Sublist (serialsAt r.keys id)) ∨
    ((r.after op).nextSerial = r.nextSerial + 1 ∧
      ∃ target, GrowsBy r.keys target r.nextSerial (r.after op).keys) := by
  have himport : ∀ state, op ≠ .importDurableState state := by
    rintro state rfl
    cases hop
  have hmove : ∀ id, RecordsMove r op (r.after op) id := by
    refine recordsMove ha ?_
    rintro ⟨state, -, -, rfl, -⟩
    cases hop
  rcases nextSerial_moves himport with hn | hn
  · refine .inl ⟨hn, fun id => (hmove id).serials.resolve_right ?_⟩
    rintro ⟨hnext, -⟩
    omega
  · refine .inr ⟨hn, ?_⟩
    by_cases htarget : ∃ target, r.Concerns op target
    · obtain ⟨target, htarget⟩ := htarget
      refine ⟨target, fun id => ?_⟩
      rcases (hmove id).serials with hsub | ⟨-, hid, hsub⟩
      · exact hsub.trans (List.sublist_append_left _ _)
      · rw [if_pos (htarget.unique hid)]
        exact hsub
    · refine ⟨⟨default, default⟩, fun id => ?_⟩
      rcases (hmove id).serials with hsub | ⟨-, hid, -⟩
      · exact hsub.trans (List.sublist_append_left _ _)
      · exact (htarget ⟨id, hid⟩).elim

/-- After an import the retained serials are the old ones, or new ones above the old counter. -/
theorem serials_imported (r : Impl) (state : DurableState) :
    r.nextSerial ≤ (r.after (.importDurableState state)).nextSerial ∧
      ((r.after (.importDurableState state)).keys = r.keys ∨
        (SerialsUnique (r.after (.importDurableState state)).keys ∧
          ∀ id, ∀ n ∈ serialsAt (r.after (.importDurableState state)).keys id,
            r.nextSerial < n ∧ n ≤ (r.after (.importDurableState state)).nextSerial)) := by
  have hafter : r.after (.importDurableState state) = (r.importDurableState state).2 := rfl
  rw [hafter]
  rcases hi : r.importDurableState state with ⟨e | report, r'⟩
  · have hn := importRefused_nextSerial hi
    obtain ⟨serial, rfl⟩ := importDurableState_eq_error hi
    exact ⟨hn, .inl rfl⟩
  · obtain ⟨staged, him, -, rfl⟩ := importDurableState_eq_ok.mp hi
    have hs := stagedSerials_stageRecords him.records
    exact ⟨hs.started, .inr ⟨hs.unique, hs.issued⟩⟩

end Impl

section Handing
variable [StdLib] {r : Impl} {op : Op} {state : DurableState} {n : Nat}

theorem serialsHandedOut_none (hn : (r.after op).nextSerial = r.nextSerial) :
    r.serialsHandedOut op = [] := by
  rw [Impl.serialsHandedOut, hn, Nat.sub_self, List.range'_zero]

theorem serialsHandedOut_one (hop : op.isImport = false)
    (hn : (r.after op).nextSerial = r.nextSerial + 1) : r.serialsHandedOut op = [r.nextSerial] := by
  rw [Impl.serialsHandedOut, hn, hop, Nat.add_sub_cancel_left]
  rfl

theorem mem_serialsHandedOut_import : n ∈ r.serialsHandedOut (.importDurableState state) ↔
    r.nextSerial < n ∧ n ≤ (r.after (.importDurableState state)).nextSerial := by
  have hle := (Impl.serials_imported r state).1
  simp only [Impl.serialsHandedOut, Op.isImport, if_true, List.mem_range'_1]
  omega

end Handing

/-- A registry with the serials it has handed out so far, and whether an import handed out any. -/
structure Tally where
  registry : Impl
  serials : List Nat := []
  restored : Bool := false

section Tallies
variable [StdLib] {limits : RegistryLimits} {t : Tally} {op : Op} {ops : List Op}

def Tally.after (t : Tally) (op : Op) : Tally where
  registry := t.registry.after op
  serials := t.serials ++ t.registry.serialsHandedOut op
  restored := t.restored || (op.isImport && !(t.registry.serialsHandedOut op).isEmpty)

theorem registry_foldl_after (t : Tally) (ops : List Op) :
    (ops.foldl Tally.after t).registry = t.registry.run ops := by
  induction ops generalizing t with
  | nil => rfl
  | cons op ops ih => exact ih (t.after op)

/-- The call ingests no record once an import has handed out serials. -/
def IngestsFirst (t : Tally) (op : Op) : Prop :=
  t.restored = true → op.isImport = false → t.registry.serialsHandedOut op = []

/-- Every serial handed out is greater than all before, and no two retained records share one. -/
def Tally.Distinct (t : Tally) : Prop :=
  t.serials.Pairwise (· < ·) ∧ SerialsUnique t.registry.keys

/-- What a run keeps that ingests its records before it imports any. The counter is behind every
serial handed out, but on the last one after an import. -/
structure Tally.Orderly (t : Tally) : Prop where
  accounted : t.registry.Accounted
  increasing : t.serials.Pairwise (· < ·)
  unique : SerialsUnique t.registry.keys
  retained : ∀ id, ∀ n ∈ serialsAt t.registry.keys id, n ∈ t.serials
  issued : ∀ n ∈ t.serials, n < t.registry.nextSerial ∨
    (t.restored = true ∧ n = t.registry.nextSerial)
  latest : t.restored = true → t.registry.nextSerial ∈ t.serials

theorem Tally.Orderly.ingested (h : t.Orderly) (hop : op.isImport = false)
    (hfirst : IngestsFirst t op) : (t.after op).Orderly := by
  have hacc := h.accounted.after op
  rcases Impl.serials_after h.accounted hop with ⟨hn, hsub⟩ | ⟨hn, target, hg⟩
  · have hnone := serialsHandedOut_none hn
    have hafter : t.after op = { t with registry := t.registry.after op } := by
      simp [Tally.after, hnone]
    rw [hafter]
    refine ⟨hacc, h.increasing, h.unique.sublist hsub,
      fun id n hm => h.retained id n ((hsub id).subset hm), ?_, ?_⟩
    · rw [hn]
      exact h.issued
    · rw [hn]
      exact h.latest
  · have hone := serialsHandedOut_one hop hn
    have hfree : t.restored = false := by
      rw [Bool.eq_false_iff]
      intro hrestored
      rw [hfirst hrestored hop] at hone
      cases hone
    have hlt : ∀ n ∈ t.serials, n < t.registry.nextSerial := by
      intro n hm
      refine (h.issued n hm).resolve_right ?_
      rintro ⟨hrestored, -⟩
      rw [hfree] at hrestored
      cases hrestored
    have hafter : t.after op = { registry := t.registry.after op
                                 serials := t.serials ++ [t.registry.nextSerial] } := by
      simp [Tally.after, hone, hop, hfree]
    rw [hafter]
    refine ⟨hacc, ?_, h.unique.grow hg fun id hm => ?_, fun id n hm => ?_, fun n hm => .inl ?_, ?_⟩
    · refine List.pairwise_append.mpr ⟨h.increasing, List.pairwise_singleton _ _, ?_⟩
      intro n hm m hm'
      obtain rfl := List.mem_singleton.mp hm'
      exact hlt n hm
    · exact Nat.lt_irrefl _ (hlt _ (h.retained id _ hm))
    · rcases hg.mem hm with hold | ⟨-, rfl⟩
      · exact List.mem_append_left _ (h.retained id n hold)
      · exact List.mem_append_right _ (List.mem_singleton_self _)
    · rw [hn]
      rcases List.mem_append.mp hm with hold | hnew
      · exact (hlt n hold).trans (Nat.lt_succ_self _)
      · obtain rfl := List.mem_singleton.mp hnew
        exact Nat.lt_succ_self _
    · intro hrestored
      cases hrestored

theorem restored_import {state : DurableState} :
    (t.after (.importDurableState state)).restored = true ↔ t.restored = true ∨
      t.registry.nextSerial < (t.registry.after (.importDurableState state)).nextSerial := by
  have hle := (Impl.serials_imported t.registry state).1
  have hsome : t.registry.serialsHandedOut (.importDurableState state) ≠ [] ↔
      t.registry.nextSerial < (t.registry.after (.importDurableState state)).nextSerial := by
    rw [ne_eq, List.eq_nil_iff_forall_not_mem]
    constructor
    · intro h
      by_contra hlt
      refine h fun n hm => ?_
      have := mem_serialsHandedOut_import.mp hm
      omega
    · exact fun hlt h => h _ (mem_serialsHandedOut_import.mpr ⟨hlt, le_refl _⟩)
  rw [← hsome]
  simp [Tally.after, Op.isImport]

theorem Tally.Orderly.imported (h : t.Orderly) (state : DurableState) :
    (t.after (.importDurableState state)).Orderly := by
  obtain ⟨hle, hkeys⟩ := Impl.serials_imported t.registry state
  have hold : ∀ n ∈ t.serials, n ≤ t.registry.nextSerial := by
    intro n hm
    rcases h.issued n hm with hlt | ⟨-, rfl⟩
    · exact hlt.le
    · exact le_refl _
  refine ⟨h.accounted.after _, ?_, ?_, ?_, ?_, ?_⟩
  · refine List.pairwise_append.mpr ⟨h.increasing, List.pairwise_lt_range' _ (by decide), ?_⟩
    intro n hm m hm'
    exact (hold n hm).trans_lt (mem_serialsHandedOut_import.mp hm').1
  · rcases hkeys with hsame | ⟨hunique, -⟩
    · exact hsame ▸ h.unique
    · exact hunique
  · intro id n hm
    rcases hkeys with hsame | ⟨-, hissued⟩
    · exact List.mem_append_left _ (h.retained id n (hsame ▸ hm))
    · exact List.mem_append_right _ (mem_serialsHandedOut_import.mpr (hissued id n hm))
  · intro n hm
    have hbound : n ≤ (t.after (.importDurableState state)).registry.nextSerial := by
      rcases List.mem_append.mp hm with hm | hm
      · exact (hold n hm).trans hle
      · exact (mem_serialsHandedOut_import.mp hm).2
    rcases hbound.lt_or_eq with hlt | he
    · exact .inl hlt
    · refine .inr ⟨restored_import.mpr ?_, he⟩
      rcases hle.lt_or_eq with hmoved | hsame
      · exact .inr hmoved
      · have hnext : (t.after (.importDurableState state)).registry.nextSerial =
            t.registry.nextSerial := hsame.symm
        rcases List.mem_append.mp hm with hm | hm
        · rcases h.issued n hm with hlt | ⟨hrestored, -⟩
          · omega
          · exact .inl hrestored
        · have := (mem_serialsHandedOut_import.mp hm).1
          omega
  · intro hrestored
    rcases hle.lt_or_eq with hmoved | hsame
    · exact List.mem_append_right _ (mem_serialsHandedOut_import.mpr ⟨hmoved, le_refl _⟩)
    · have hbefore := (restored_import.mp hrestored).resolve_right (by rw [hsame]; exact lt_irrefl _)
      have hnext : (t.after (.importDurableState state)).registry.nextSerial =
          t.registry.nextSerial := hsame.symm
      rw [hnext]
      exact List.mem_append_left _ (h.latest hbefore)

/-- A record that is ingested after an import gets a serial that was handed out before. -/
theorem Tally.Orderly.not_distinct (h : t.Orderly) (hfirst : ¬ IngestsFirst t op) :
    ¬ (t.after op).Distinct := by
  simp only [IngestsFirst, Classical.not_imp] at hfirst
  obtain ⟨hrestored, hop, hsome⟩ := hfirst
  rcases Impl.serials_after h.accounted hop with ⟨hn, -⟩ | ⟨hn, -⟩
  · exact (hsome (serialsHandedOut_none hn)).elim
  · rintro ⟨hincreasing, -⟩
    have hlast : t.serials ++ [t.registry.nextSerial] = (t.after op).serials := by
      rw [← serialsHandedOut_one hop hn]
      rfl
    rw [← hlast] at hincreasing
    have hlt := (List.pairwise_append.mp hincreasing).2.2 _ (h.latest hrestored) _
      (List.mem_singleton_self _)
    exact Nat.lt_irrefl _ hlt

omit [StdLib] in
theorem orderly_fresh (limits : RegistryLimits) : Tally.Orderly { registry := .fresh limits } := by
  refine ⟨Impl.accounted_fresh limits, List.Pairwise.nil, serialsUnique_empty, ?_, ?_, ?_⟩
  · intro id n hm
    simp [Impl.fresh, serialsAt, recordsAt] at hm
  · intro n hm
    cases hm
  · intro hrestored
    cases hrestored

end Tallies

section Samples

/-- A restart from a saved record, and the same evidence again from a publisher of the new run. -/
def restartedIngestion : List Op := [
  .importDurableState (Impl.typedFile (.boolean true)), Sample.registration,
  .apply Sample.now (Sample.evidence 1 Sample.capability)]

example : letI := StdLib.reference
    serialsAt (Impl.fresh {}).keys ⟨Id.parse "dev.a", Id.parse "cap.compute.fp64"⟩ = [] := by
  decide +kernel

end Samples

end CapabilityRegistry
