import Mathlib

/-! Ordered maps: lookup equations, maps entered from a list of their values, and a measure summed
over the entries of a map. -/

namespace OrdMap
variable {α β γ : Type} [Ord α] [Std.TransOrd α] [Std.LawfulEqOrd α]

section Lookup
variable (m : Std.ExtTreeMap α β)

theorem getElem?_insert_self (k : α) (v : β) : (m.insert k v)[k]? = some v := by
  simp

theorem getElem?_insert_eq [DecidableEq α] (k k' : α) (v : β) :
    (m.insert k v)[k']? = if k = k' then some v else m[k']? := by
  simp [Std.ExtTreeMap.getElem?_insert]

theorem getElem?_insertIfNew_eq [DecidableEq α] (k k' : α) (v : β) :
    (m.insertIfNew k v)[k']? = if k = k' then some ((m[k]?).getD v) else m[k']? := by
  by_cases h : k = k'
  · subst h
    cases hk : m[k]? with
    | none => grind
    | some w => grind
  · grind

theorem insertIfNew_of_none {k : α} {v : β} (h : m[k]? = none) :
    m.insertIfNew k v = m.insert k v := by
  apply Std.ExtTreeMap.ext_getElem?
  intro a
  grind

theorem insertIfNew_of_some {k : α} {v w : β} (h : m[k]? = some w) : m.insertIfNew k v = m := by
  apply Std.ExtTreeMap.ext_getElem?
  intro a
  grind

theorem modify_of_some {k : α} {f : β → β} {v : β} (h : m[k]? = some v) :
    m.modify k f = m.insert k (f v) := by
  apply Std.ExtTreeMap.ext_getElem?
  intro a
  simp only [Std.ExtTreeMap.getElem?_modify, Std.ExtTreeMap.getElem?_insert]
  split
  · rw [h]
    rfl
  · rfl

/-- Writing back what a key already holds changes nothing. -/
theorem insert_of_some {k : α} {v : β} (h : m[k]? = some v) : m.insert k v = m := by
  apply Std.ExtTreeMap.ext_getElem?
  intro a
  rw [Std.ExtTreeMap.getElem?_insert]
  split
  · next he => rw [← Std.LawfulEqOrd.eq_of_compare he, h]
  · rfl

end Lookup

section Entries
variable {m : Std.ExtTreeMap α β}

theorem nodup_toList (m : Std.ExtTreeMap α β) : m.toList.Nodup := by
  have h := m.distinct_keys_toList
  refine h.imp fun {a b} hab he => hab ?_
  rw [he]
  exact Std.ReflCmp.compare_self

theorem mem_toList {e : α × β} : e ∈ m.toList ↔ m[e.1]? = some e.2 :=
  Std.ExtTreeMap.mem_toList_iff_getElem?_eq_some

/-- A list without repetitions that lists a map's entries is the map's entry list. -/
theorem toList_perm {xs : List (α × β)} (hn : xs.Nodup)
    (h : ∀ e, e ∈ xs ↔ m[e.1]? = some e.2) : m.toList.Perm xs :=
  (List.perm_ext_iff_of_nodup (nodup_toList m) hn).mpr fun e => mem_toList.trans (h e).symm

theorem toList_insert_perm_of_none {k : α} {v : β} (h : m[k]? = none) :
    (m.insert k v).toList.Perm ((k, v) :: m.toList) := by
  apply toList_perm
  · refine List.nodup_cons.mpr ⟨fun hm => ?_, nodup_toList m⟩
    rw [mem_toList, h] at hm
    cases hm
  · rintro ⟨a, b⟩
    simp only [List.mem_cons, Prod.mk.injEq, mem_toList, Std.ExtTreeMap.getElem?_insert]
    split
    · next he =>
      obtain rfl := Std.LawfulEqOrd.eq_of_compare he
      simp only [h, reduceCtorEq, or_false, true_and, Option.some.injEq]
      exact eq_comm
    · next he =>
      have hne : a ≠ k := by rintro rfl; exact he Std.ReflCmp.compare_self
      simp [hne]

theorem toList_perm_erase {k : α} {v : β} (h : m[k]? = some v) :
    m.toList.Perm ((k, v) :: (m.erase k).toList) := by
  apply toList_perm
  · refine List.nodup_cons.mpr ⟨fun hm => ?_, nodup_toList _⟩
    rw [mem_toList] at hm
    simp at hm
  · rintro ⟨a, b⟩
    simp only [List.mem_cons, Prod.mk.injEq, mem_toList, Std.ExtTreeMap.getElem?_erase]
    split
    · next he =>
      obtain rfl := Std.LawfulEqOrd.eq_of_compare he
      simp only [h, reduceCtorEq, or_false, true_and, Option.some.injEq]
      exact eq_comm
    · next he =>
      have hne : a ≠ k := by rintro rfl; exact he Std.ReflCmp.compare_self
      simp [hne]

/-- A map lists one entry at most under a key. -/
theorem filter_toList [DecidableEq α] (m : Std.ExtTreeMap α β) (k : α) :
    m.toList.filter (fun e => e.1 = k) = ((m[k]?).map fun v => (k, v)).toList := by
  cases hk : m[k]? with
  | none =>
    refine List.filter_eq_nil_iff.mpr ?_
    rintro ⟨a, b⟩ he hd
    obtain rfl : a = k := by simpa using hd
    rw [mem_toList, hk] at he
    cases he
  | some v =>
    have hrest : (m.erase k).toList.filter (fun e => e.1 = k) = [] := by
      refine List.filter_eq_nil_iff.mpr ?_
      rintro ⟨a, b⟩ he hd
      obtain rfl : a = k := by simpa using hd
      rw [mem_toList] at he
      simp at he
    have hperm := (toList_perm_erase hk).filter fun e => e.1 = k
    rw [List.filter_cons_of_pos (by simp), hrest] at hperm
    exact List.perm_singleton.mp hperm

end Entries

section Values
variable [DecidableEq α] {m base : Std.ExtTreeMap α β} {key : β → α} {xs : List β}

/-- The values of a list, each entered under its own key unless the key is taken. -/
def enter (key : β → α) (base : Std.ExtTreeMap α β) (xs : List β) : Std.ExtTreeMap α β :=
  xs.foldl (fun m b => m.insertIfNew (key b) b) base

theorem getElem?_enter (key : β → α) (base : Std.ExtTreeMap α β) (xs : List β) (k : α) :
    (enter key base xs)[k]? = (base[k]?).or (xs.find? fun b => key b = k) := by
  induction xs generalizing base with
  | nil => simp [enter]
  | cons x xs ih =>
    have hstep : enter key base (x :: xs) = enter key (base.insertIfNew (key x) x) xs := rfl
    rw [hstep, ih, getElem?_insertIfNew_eq, List.find?_cons]
    by_cases he : key x = k
    · subst he
      cases base[key x]? <;> simp
    · simp [he]

/-- A map whose values carry their own keys is entered again from its values. -/
theorem enter_values (hn : ∀ (k : α) (v : β), m[k]? = some v → key v = k)
    (hx : ∀ v, v ∈ xs ↔ ∃ k : α, m[k]? = some v)
    (hb : ∀ (k : α) (v : β), base[k]? = some v → m[k]? = some v) :
    enter key base xs = m := by
  apply Std.ExtTreeMap.ext_getElem?
  intro k
  have hfind : (xs.find? fun b => key b = k) = m[k]? := by
    cases hm : m[k]? with
    | none =>
      refine List.find?_eq_none.mpr fun v hv hk => ?_
      obtain ⟨k', hk'⟩ := (hx v).mp hv
      have he : key v = k := by simpa using hk
      rw [← he, hn k' v hk', hk'] at hm
      cases hm
    | some v =>
      cases hf : xs.find? fun b => key b = k with
      | none =>
        have hnot := List.find?_eq_none.mp hf v ((hx v).mpr ⟨k, hm⟩)
        exact (hnot (by simpa using hn k v hm)).elim
      | some w =>
        obtain ⟨k', hk'⟩ := (hx w).mp (List.mem_of_find?_eq_some hf)
        have he : key w = k := by simpa using List.find?_some hf
        rw [hn k' w hk'] at he
        rw [← hm, ← he, hk']
  rw [getElem?_enter, hfind]
  cases hk : base[k]? with
  | none => rfl
  | some v => rw [Option.some_or, hb k v hk]

theorem key_enter (hn : ∀ (k : α) (v : β), base[k]? = some v → key v = k) :
    ∀ (k : α) (v : β), (enter key base xs)[k]? = some v → key v = k := by
  intro k v hv
  rw [getElem?_enter] at hv
  cases hb : base[k]? with
  | none =>
    rw [hb, Option.none_or] at hv
    simpa using List.find?_some hv
  | some w =>
    rw [hb, Option.some_or] at hv
    exact hn k v (hb.trans hv)

end Values

section Listed
variable {m : Std.ExtTreeMap α β}

/-- The entries of a list entered one after another, a later one over an earlier one. -/
def enterAll (m : Std.ExtTreeMap α β) (entries : List (α × β)) : Std.ExtTreeMap α β :=
  entries.foldl (fun m e => m.insert e.1 e.2) m

theorem mem_toList_enterAll {entries : List (α × β)} {e : α × β}
    (h : e ∈ (enterAll m entries).toList) : e ∈ entries ∨ e ∈ m.toList := by
  induction entries generalizing m with
  | nil => exact .inr h
  | cons entry entries ih =>
    rcases ih h with hlisted | hbefore
    · exact .inl (List.mem_cons_of_mem entry hlisted)
    · rw [mem_toList, Std.ExtTreeMap.getElem?_insert] at hbefore
      split at hbefore
      · next he =>
        have hkey := Std.LawfulEqOrd.eq_of_compare he
        exact .inl (List.mem_cons.mpr (.inl (Prod.ext hkey (Option.some.inj hbefore)).symm))
      · exact .inr (mem_toList.mpr hbefore)

theorem mem_of_mem_toList_enterAll {entries : List (α × β)} {e : α × β}
    (h : e ∈ (enterAll ∅ entries).toList) : e ∈ entries := by
  rcases mem_toList_enterAll h with hlisted | hnone
  · exact hlisted
  · rw [mem_toList] at hnone
    simp at hnone

omit [Std.LawfulEqOrd α] in
theorem length_toList_enterAll (m : Std.ExtTreeMap α β) (entries : List (α × β)) :
    (enterAll m entries).toList.length ≤ m.toList.length + entries.length := by
  induction entries generalizing m with
  | nil => exact Nat.le_refl _
  | cons entry entries ih =>
    have hrest := ih (m.insert entry.1 entry.2)
    have hone := Std.ExtTreeMap.size_insert_le (t := m) (k := entry.1) (v := entry.2)
    simp only [Std.ExtTreeMap.length_toList, List.length_cons] at hrest hone ⊢
    exact hrest.trans (by omega)

/-- A map entered from its own entries. -/
theorem enterAll_toList [DecidableEq α] (m : Std.ExtTreeMap α β) : enterAll ∅ m.toList = m := by
  have hmany : ∀ (base : Std.ExtTreeMap α β) (entries : List (α × β)),
      enterAll base entries = base.insertMany entries := by
    intro base entries
    induction entries generalizing base with
    | nil => exact Std.ExtTreeMap.insertMany_nil.symm
    | cons entry entries ih =>
      rw [Std.ExtTreeMap.insertMany_cons]
      exact ih _
  rw [hmany]
  apply Std.ExtTreeMap.ext_getElem?
  intro a
  cases ha : m[a]? with
  | some b =>
    exact Std.ExtTreeMap.getElem?_insertMany_list_of_mem Std.ReflCmp.compare_self
      m.distinct_keys_toList (mem_toList.mpr ha)
  | none =>
    rw [← Option.not_isSome_iff_eq_none, ← hmany]
    intro hsome
    obtain ⟨b, hb⟩ := Option.isSome_iff_exists.mp hsome
    have hentry : (a, b) ∈ (enterAll ∅ m.toList).toList := mem_toList.mpr hb
    have hlisted := mem_toList.mp (mem_of_mem_toList_enterAll hentry)
    rw [ha] at hlisted
    cases hlisted
end Listed

section Total
variable {m : Std.ExtTreeMap α β} {f g : β → Nat}

/-- A measure of the values, summed over a map. -/
def total (f : β → Nat) (m : Std.ExtTreeMap α β) : Nat := (m.toList.map fun e => f e.2).sum

omit [Std.LawfulEqOrd α] in
@[simp] theorem total_empty : total f (∅ : Std.ExtTreeMap α β) = 0 := by
  have h : (∅ : Std.ExtTreeMap α β).toList = [] := Std.ExtTreeMap.toList_eq_nil_iff.mpr rfl
  simp [total, h]

theorem total_insert_of_none {k : α} {v : β} (h : m[k]? = none) :
    total f (m.insert k v) = f v + total f m := by
  simpa [total] using ((toList_insert_perm_of_none h).map fun e => f e.2).sum_eq

theorem total_insert_of_some {k : α} {v w : β} (h : m[k]? = some w) :
    total f (m.insert k v) + f w = f v + total f m := by
  have hm : total f m = f w + total f (m.erase k) := by
    simpa [total] using ((toList_perm_erase h).map fun e => f e.2).sum_eq
  have hi : total f (m.insert k v) = f v + total f ((m.insert k v).erase k) := by
    have hk : (m.insert k v)[k]? = some v := by simp
    simpa [total] using ((toList_perm_erase hk).map fun e => f e.2).sum_eq
  have he : (m.insert k v).erase k = m.erase k := by
    apply Std.ExtTreeMap.ext_getElem?
    intro a
    simp only [Std.ExtTreeMap.getElem?_erase, Std.ExtTreeMap.getElem?_insert]
    split <;> rfl
  rw [he] at hi
  omega

theorem le_total {k : α} {v : β} (h : m[k]? = some v) : f v ≤ total f m := by
  have hm := ((toList_perm_erase h).map fun e => f e.2).sum_eq
  simp only [List.map_cons, List.sum_cons] at hm
  unfold total
  omega

omit [Std.LawfulEqOrd α] in
theorem total_map {h : α → β → β} : total f (m.map h) = (m.toList.map fun e => f (h e.1 e.2)).sum := by
  simp [total, Function.comp_def]

omit [Std.LawfulEqOrd α] in
theorem total_map_le {h : α → β → β} (hle : ∀ k v, f (h k v) ≤ f v) :
    total f (m.map h) ≤ total f m := by
  rw [total_map]
  exact List.sum_le_sum fun e _ => hle e.1 e.2

theorem total_map_lt {h : α → β → β} (hle : ∀ k v, f (h k v) ≤ f v) {k : α} {v : β}
    (hk : m[k]? = some v) (hlt : f (h k v) < f v) : total f (m.map h) < total f m := by
  rw [total_map]
  exact List.sum_lt_sum _ _ (fun e _ => hle e.1 e.2) ⟨(k, v), mem_toList.mpr hk, hlt⟩

end Total

end OrdMap
