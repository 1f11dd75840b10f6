import Mathlib

/-! Nested bracketed lists printed with a separator, around texts that are printed as they are. -/

/-- The marks of a printed tree. Some brackets hold a list, others a single element; the elements of
a list are separated by the comma and a gap, and each begins with one of the heads. -/
structure Punctuation (β : Type) where
  opening : β
  closing : β
  comma : β
  gap : List β
  Head : List β → Prop
  comma_ne : comma ≠ closing
  opening_ne : opening ≠ closing
  quiet_gap : comma ∉ gap ∧ closing ∉ gap
  head_ne : ∀ h, Head h → h ≠ []
  quiet_head : ∀ h, Head h → comma ∉ h ∧ closing ∉ h

namespace Punctuation
variable {α β : Type} (P : Punctuation β) {σ : List Bool} {k k' s t t' : List β} {b : Bool}

/-- The texts that may follow an element inside the open brackets, the innermost first; a bracket
that holds a list is marked. -/
inductive Follows : List Bool → List β → Prop
  | done : Follows [] []
  | close {σ : List Bool} {k : List β} (b : Bool) (after : Follows σ k) :
      Follows (b :: σ) (P.closing :: k)
  | next {σ : List Bool} {h k : List β} (head : P.Head h) :
      Follows (true :: σ) (P.comma :: (P.gap ++ h) ++ k)

/-- A text that no element boundary can be read into at the open brackets: inside a list it holds no
separator with the beginning of an element, and where lists are nested its brackets are even. -/
structure Free [DecidableEq β] (σ : List Bool) (t : List β) : Prop where
  unseparated : true ∈ σ → ∀ h, P.Head h → ¬ (P.comma :: (P.gap ++ h)) <:+: t
  even : 2 ≤ σ.count true → t.count P.opening = t.count P.closing

variable {P}

/-- What follows an element closes some brackets, and then ends or goes on in a list. -/
theorem Follows.cases_closings (h : P.Follows σ k) : ∃ n rest,
    k = List.replicate n P.closing ++ rest ∧
      ((rest = [] ∧ n = σ.length) ∨ (σ[n]? = some true ∧ ∃ h tail, P.Head h ∧
        rest = P.comma :: (P.gap ++ h) ++ tail)) := by
  induction h with
  | done => exact ⟨0, [], rfl, .inl ⟨rfl, rfl⟩⟩
  | close b after ih =>
    obtain ⟨n, rest, rfl, hrest⟩ := ih
    refine ⟨n + 1, rest, rfl, hrest.imp ?_ ?_⟩
    · rintro ⟨rfl, rfl⟩
      exact ⟨rfl, rfl⟩
    · rintro ⟨hn, hlist⟩
      exact ⟨by simpa using hn, hlist⟩
  | next head => exact ⟨0, _, rfl, .inr ⟨rfl, _, _, head, rfl⟩⟩

/-- Inside a bracket something follows, and it begins with a mark. -/
theorem Follows.head_mark (h : P.Follows (b :: σ) k) :
    ∃ c rest, k = c :: rest ∧ (c = P.comma ∨ c = P.closing) := by
  cases h with
  | close b after => exact ⟨_, _, rfl, .inr rfl⟩
  | next head => exact ⟨_, _, rfl, .inl rfl⟩

theorem two_le_count {m n : Nat} (hm : σ[m]? = some true) (hn : σ[n]? = some true) (hne : m < n) :
    2 ≤ σ.count true := by
  induction σ generalizing m n with
  | nil => simp at hm
  | cons b σ ih =>
    cases n with
    | zero => omega
    | succ n =>
      have hn : σ[n]? = some true := by simpa using hn
      cases m with
      | zero =>
        obtain rfl : b = true := by simpa using hm
        have hpos : 0 < σ.count true := List.count_pos_iff.mpr (List.mem_of_getElem? hn)
        rw [List.count_cons_self]
        omega
      | succ m =>
        have hm : σ[m]? = some true := by simpa using hm
        exact (ih hm hn (Nat.lt_of_succ_lt_succ hne)).trans (List.count_le_count_cons)

theorem replicate_append_inj {c : β} {m n : Nat} {r r' : List β} (hr : r.head? ≠ some c)
    (hr' : r'.head? ≠ some c) (h : List.replicate m c ++ r = List.replicate n c ++ r') :
    m = n ∧ r = r' := by
  induction m generalizing n with
  | zero =>
    cases n with
    | zero => exact ⟨rfl, h⟩
    | succ n => exact (hr (by simp_all [List.replicate_succ])).elim
  | succ m ih =>
    cases n with
    | zero => exact (hr' (by simp_all [List.replicate_succ, eq_comm])).elim
    | succ n =>
      obtain ⟨rfl, hrest⟩ := ih (List.cons.inj h).2
      exact ⟨rfl, hrest⟩

/-- When one continuation overruns the other by closing brackets only, they go on in two lists. -/
theorem nested_of_closings {n : Nat} (hk : P.Follows σ k) (hk' : P.Follows σ k') (hn : 0 < n)
    (h : k = List.replicate n P.closing ++ k') : 2 ≤ σ.count true := by
  obtain ⟨m, rest, rfl, hrest⟩ := hk.cases_closings
  obtain ⟨m', rest', rfl, hrest'⟩ := hk'.cases_closings
  rw [← List.append_assoc, List.replicate_append_replicate] at h
  have hquiet : ∀ {m : Nat} {rest : List β}, ((rest = [] ∧ m = σ.length) ∨ (σ[m]? = some true ∧
      ∃ h tail, P.Head h ∧ rest = P.comma :: (P.gap ++ h) ++ tail)) →
      rest.head? ≠ some P.closing := by
    rintro m rest (⟨rfl, -⟩ | ⟨-, h, tail, -, rfl⟩)
    · simp
    · simpa using P.comma_ne
  obtain ⟨rfl, rfl⟩ := replicate_append_inj (hquiet hrest) (hquiet hrest') h
  rcases hrest with ⟨rfl, hm⟩ | ⟨hm, hlist⟩
  · rcases hrest' with ⟨-, hm'⟩ | ⟨-, _, _, -, hcons⟩
    · omega
    · cases hcons
  · rcases hrest' with ⟨rfl, -⟩ | ⟨hm', -⟩
    · obtain ⟨_, _, -, hnil⟩ := hlist
      cases hnil
    · exact two_le_count hm' hm (Nat.lt_add_of_pos_left hn)

/-- What one continuation has in front of the other: a boundary between elements, or, among nested
lists, closing brackets. -/
theorem Follows.overrun (hk : P.Follows σ k) (hk' : P.Follows σ k') (h : k = s ++ k')
    (hs : s ≠ []) :
    (true ∈ σ ∧ ∃ h, P.Head h ∧ (P.comma :: (P.gap ++ h)) <:+: s) ∨
      (2 ≤ σ.count true ∧ ∃ n, 0 < n ∧ s = List.replicate n P.closing) := by
  obtain ⟨n, rest, hn, hrest⟩ := hk.cases_closings
  rw [h] at hn
  rcases List.append_eq_append_iff.mp hn with ⟨bs, hbs, rfl⟩ | ⟨s', rfl, hs'⟩
  · obtain ⟨-, hclosings, -⟩ := List.append_eq_replicate_iff.mp hbs.symm
    have hpos : 0 < s.length := List.length_pos_iff.mpr hs
    rw [hclosings] at h
    exact .inr ⟨nested_of_closings hk hk' hpos h, s.length, hpos, hclosings⟩
  · cases s' with
    | nil =>
      rw [List.append_nil] at h hs ⊢
      have hpos : 0 < n := Nat.pos_of_ne_zero fun hn => hs (by rw [hn, List.replicate_zero])
      exact .inr ⟨nested_of_closings hk hk' hpos h, n, hpos, rfl⟩
    | cons c s' =>
      rcases hrest with ⟨rfl, -⟩ | ⟨hlist, hd, tail, hhead, rfl⟩
      · cases hs'
      · refine .inl ⟨List.mem_of_getElem? hlist, hd, hhead, ?_⟩
        rw [List.cons_append, List.cons_append, List.cons.injEq] at hs'
        obtain ⟨rfl, hs'⟩ := hs'
        rcases List.append_eq_append_iff.mp hs' with ⟨u, rfl, -⟩ | ⟨u, hu, hk''⟩
        · exact ⟨List.replicate n P.closing, u, by simp⟩
        · cases u with
          | nil =>
            rw [List.append_nil] at hu
            exact ⟨List.replicate n P.closing, [], by simp [hu]⟩
          | cons c u =>
            -- the continuation would begin inside a gap or a head
            obtain ⟨b, σ, rfl⟩ := List.exists_cons_of_ne_nil
              (List.ne_nil_of_mem (List.mem_of_getElem? hlist))
            obtain ⟨mark, _, rfl, hmark⟩ := hk'.head_mark
            obtain rfl := (List.cons.inj hk'').1
            have hmem : mark ∈ P.gap ++ hd := by simp [hu]
            have hquiet : P.comma ∉ P.gap ++ hd ∧ P.closing ∉ P.gap ++ hd :=
              ⟨List.not_mem_append P.quiet_gap.1 (P.quiet_head hd hhead).1,
                List.not_mem_append P.quiet_gap.2 (P.quiet_head hd hhead).2⟩
            rcases hmark with rfl | rfl
            · exact (hquiet.1 hmem).elim
            · exact (hquiet.2 hmem).elim

section Texts
variable [DecidableEq β]

theorem free_of_quiet (hcomma : P.comma ∉ t) (heven : t.count P.opening = t.count P.closing) :
    P.Free σ t := by
  exact ⟨fun _ _ _ hin => hcomma (hin.subset List.mem_cons_self), fun _ => heven⟩

theorem eq_of_free (hk : P.Follows σ k) (hk' : P.Follows σ k') (ht : P.Free σ t)
    (ht' : P.Free σ (t ++ s)) (h : k = s ++ k') : s = [] := by
  by_contra hs
  rcases hk.overrun hk' h hs with ⟨hlist, hd, hhead, hin⟩ | ⟨hnested, n, hn, rfl⟩
  · exact ht'.unseparated hlist hd hhead (hin.trans (List.suffix_append t s).isInfix)
  · have heven := ht'.even hnested
    rw [List.count_append, List.count_append, ht.even hnested, List.count_replicate_self,
      List.count_replicate, if_neg (by simpa using P.opening_ne.symm)] at heven
    omega

/-- Free texts printed at the same place are read back. -/
theorem text_eq (hk : P.Follows σ k) (hk' : P.Follows σ k') (ht : P.Free σ t) (ht' : P.Free σ t')
    (h : t ++ k = t' ++ k') : t = t' ∧ k = k' := by
  rcases List.append_eq_append_iff.mp h with ⟨s, rfl, hs⟩ | ⟨s, rfl, hs⟩
  · obtain rfl := eq_of_free hk hk' ht ht' hs
    exact ⟨(List.append_nil t).symm, hs⟩
  · obtain rfl := eq_of_free hk' hk ht' ht hs
    exact ⟨List.append_nil t', hs.symm⟩

end Texts

section Lists
variable {print : α → List β} {R : α → α → Prop} {xs ys : List α}

/-- The elements of a list with the separator between them. -/
def joined (P : Punctuation β) : List (List β) → List β
  | [] => []
  | [t] => t
  | t :: u :: ts => t ++ P.comma :: (P.gap ++ joined P (u :: ts))

/-- The elements after the first one, and what follows the list. -/
def remaining (P : Punctuation β) : List (List β) → List β → List β
  | [], k => P.closing :: k
  | t :: ts, k => P.comma :: (P.gap ++ t) ++ remaining P ts k

theorem joined_cons (t : List β) (ts : List (List β)) (k : List β) :
    P.joined (t :: ts) ++ P.closing :: k = t ++ P.remaining ts k := by
  induction ts generalizing t with
  | nil => rfl
  | cons u ts ih =>
    rw [joined, List.append_assoc, List.cons_append, List.append_assoc, ih u, remaining,
      List.cons_append, List.append_assoc]

/-- Each element begins with a head. -/
def Headed (P : Punctuation β) (print : α → List β) (xs : List α) : Prop :=
  ∀ x ∈ xs, ∃ h tail, P.Head h ∧ print x = h ++ tail

theorem follows_remaining (hxs : P.Headed print xs) (hk : P.Follows σ k) :
    P.Follows (true :: σ) (P.remaining (xs.map print) k) := by
  cases xs with
  | nil => exact .close true hk
  | cons x xs =>
    obtain ⟨h, tail, hhead, hx⟩ := hxs x List.mem_cons_self
    have hnext := Follows.next (σ := σ) (k := tail ++ P.remaining (xs.map print) k) hhead
    simpa [remaining, hx] using hnext

theorem remaining_eq (hxs : P.Headed print xs) (hys : P.Headed print ys)
    (helement : ∀ x ∈ xs, ∀ y ∈ ys, ∀ k k', P.Follows (true :: σ) k → P.Follows (true :: σ) k' →
      print x ++ k = print y ++ k' → R x y ∧ k = k')
    (hk : P.Follows σ k) (hk' : P.Follows σ k')
    (h : P.remaining (xs.map print) k = P.remaining (ys.map print) k') :
    List.Forall₂ R xs ys ∧ k = k' := by
  induction xs generalizing ys with
  | nil =>
    cases ys with
    | nil => exact ⟨.nil, (List.cons.inj h).2⟩
    | cons y ys => exact (P.comma_ne (List.cons.inj h).1.symm).elim
  | cons x xs ih =>
    cases ys with
    | nil => exact (P.comma_ne (List.cons.inj h).1).elim
    | cons y ys =>
      have hxs' : P.Headed print xs := fun x hx => hxs x (List.mem_cons_of_mem _ hx)
      have hys' : P.Headed print ys := fun y hy => hys y (List.mem_cons_of_mem _ hy)
      simp only [List.map_cons, remaining, List.cons_append, List.append_assoc, List.cons.injEq,
        true_and] at h
      obtain ⟨hxy, hrest⟩ := helement x List.mem_cons_self y List.mem_cons_self _ _
        (follows_remaining hxs' hk) (follows_remaining hys' hk') (List.append_cancel_left h)
      obtain ⟨hall, hkk⟩ := ih hxs' hys' (fun x hx y hy =>
        helement x (List.mem_cons_of_mem _ hx) y (List.mem_cons_of_mem _ hy)) hrest
      exact ⟨.cons hxy hall, hkk⟩

/-- Lists whose elements are read back one by one are read back. -/
theorem joined_eq (hxs : P.Headed print xs) (hys : P.Headed print ys)
    (helement : ∀ x ∈ xs, ∀ y ∈ ys, ∀ k k', P.Follows (true :: σ) k → P.Follows (true :: σ) k' →
      print x ++ k = print y ++ k' → R x y ∧ k = k')
    (hk : P.Follows σ k) (hk' : P.Follows σ k')
    (h : P.joined (xs.map print) ++ P.closing :: k = P.joined (ys.map print) ++ P.closing :: k') :
    List.Forall₂ R xs ys ∧ k = k' := by
  have hclosing : ∀ {z : α} {zs : List α} {k k' : List β}, P.Headed print (z :: zs) →
      P.joined ((z :: zs).map print) ++ P.closing :: k ≠ P.closing :: k' := by
    intro z zs k k' hzs he
    obtain ⟨h, tail, hhead, hz⟩ := hzs z List.mem_cons_self
    obtain ⟨c, h, rfl⟩ := List.exists_cons_of_ne_nil (P.head_ne h hhead)
    rw [List.map_cons, joined_cons, hz] at he
    obtain rfl := (List.cons.inj he).1
    exact (P.quiet_head _ hhead).2 List.mem_cons_self
  cases xs with
  | nil =>
    cases ys with
    | nil => exact ⟨.nil, (List.cons.inj h).2⟩
    | cons y ys => exact (hclosing hys h.symm).elim
  | cons x xs =>
    cases ys with
    | nil => exact (hclosing hxs h).elim
    | cons y ys =>
      rw [List.map_cons, List.map_cons, joined_cons, joined_cons] at h
      refine remaining_eq hxs hys helement hk hk' ?_
      obtain ⟨-, hrest⟩ := helement x List.mem_cons_self y List.mem_cons_self _ _
        (follows_remaining (fun x hx => hxs x (List.mem_cons_of_mem _ hx)) hk)
        (follows_remaining (fun y hy => hys y (List.mem_cons_of_mem _ hy)) hk') h
      rw [hrest] at h
      simp only [List.map_cons, remaining]
      rw [List.append_cancel_right h, hrest]

end Lists

end Punctuation
