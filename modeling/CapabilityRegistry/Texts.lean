import CapabilityRegistry.Ids

/-! Numbers, tokens and marks in rendered texts. -/
namespace CapabilityRegistry

section Numbers
variable {n m : Nat} {c : UInt8}

theorem digit_toNat {d : Nat} (h : d < 10) : ('0'.toUInt8 + d.toUInt8).toNat = 48 + d := by
  have h0 : ('0'.toUInt8).toNat = 48 := by decide
  rw [UInt8.toNat_add, h0]
  simp only [Nat.toUInt8, UInt8.toNat_ofNat']
  omega

/-- The digits of a number, as `decimal` renders them. -/
theorem decimal_of_ne_zero (h : n ≠ 0) :
    (decimal n).map UInt8.toNat = (Nat.digits 10 n).reverse.map fun d => 48 + d := by
  rw [decimal, if_neg h, List.map_map]
  refine List.map_congr_left fun d hd => digit_toNat ?_
  exact Nat.digits_lt_base (by decide) (List.mem_reverse.mp hd)

theorem decimal_zero : (decimal 0).map UInt8.toNat = [48] := by decide

theorem decimal_ne_zero_text (h : n ≠ 0) : decimal n ≠ decimal 0 := by
  intro he
  have hm := congrArg (List.map UInt8.toNat) he
  rw [decimal_of_ne_zero h, decimal_zero] at hm
  have hlen := congrArg List.length hm
  have hlast := Nat.getLast_digit_ne_zero 10 h
  cases hd : Nat.digits 10 n with
  | nil => simp [hd] at hlen
  | cons d rest =>
    rw [hd] at hm hlen
    obtain rfl : rest = [] := by simpa using hlen
    simp only [hd, List.getLast_singleton, ne_eq] at hlast
    simp at hm
    exact hlast hm

theorem decimal_inj (h : decimal n = decimal m) : n = m := by
  by_cases hn : n = 0
  · subst hn
    by_contra hm
    exact decimal_ne_zero_text (fun he => hm he.symm) h.symm
  · by_cases hm : m = 0
    · subst hm
      exact (decimal_ne_zero_text hn h).elim
    · have he := congrArg (List.map UInt8.toNat) h
      rw [decimal_of_ne_zero hn, decimal_of_ne_zero hm] at he
      have hinj : Function.Injective fun d => 48 + d := fun a b hab => Nat.add_left_cancel hab
      exact Nat.digits_inj_iff.mp (List.reverse_injective (List.map_injective_iff.mpr hinj he))

theorem mem_decimal (h : c ∈ decimal n) : 48 ≤ c.toNat ∧ c.toNat ≤ 57 := by
  have hm := List.mem_map_of_mem (f := UInt8.toNat) h
  by_cases hn : n = 0
  · subst hn
    rw [decimal_zero, List.mem_singleton] at hm
    omega
  · rw [decimal_of_ne_zero hn] at hm
    obtain ⟨d, hd, hc⟩ := List.mem_map.mp hm
    have hlt : d < 10 := Nat.digits_lt_base (by decide) (List.mem_reverse.mp hd)
    omega

theorem not_mem_decimal (hc : c.toNat < 48 ∨ 57 < c.toNat) (n : Nat) : c ∉ decimal n := by
  intro hm
  have hdigit := mem_decimal hm
  omega

theorem decimal_ne_nil (n : Nat) : decimal n ≠ [] := by
  intro h
  by_cases hn : n = 0
  · subst hn
    exact absurd h (by decide)
  · have hlength := congrArg List.length (congrArg (List.map UInt8.toNat) h)
    rw [decimal_of_ne_zero hn] at hlength
    simp [Nat.digits_eq_nil_iff_eq_zero, hn] at hlength

end Numbers

section Tokens
variable {c : UInt8} {text : Text}

theorem bytes_of_isCanonicalToken (h : isCanonicalToken text = true) :
    ∀ c ∈ text, isTokenByte c = true := by
  cases text with
  | nil => cases h
  | cons first rest =>
    simp only [isCanonicalToken, Bool.and_eq_true, List.all_eq_true] at h
    exact h.2

theorem first_of_isCanonicalToken (h : isCanonicalToken text = true) :
    ∃ first rest, text = first :: rest ∧ isTokenAlnum first = true := by
  cases text with
  | nil => cases h
  | cons first rest =>
    simp only [isCanonicalToken, Bool.and_eq_true] at h
    exact ⟨first, rest, rfl, h.1.2⟩

theorem not_mem_token (hc : isTokenByte c = false) (h : isCanonicalToken text = true) :
    c ∉ text := by
  intro hm
  rw [bytes_of_isCanonicalToken h c hm] at hc
  cases hc

theorem not_mem_id {Tag : Type} (hc : isTokenByte c = false) (id : Id Tag) : c ∉ id.str := by
  rcases id.canonical with h | h
  · simp [h]
  · exact not_mem_token hc h

end Tokens

/-- Texts without a mark are told apart from what follows the first one. -/
theorem append_mark_inj {mark : UInt8} {x x' y y' : Text} (hx : mark ∉ x) (hx' : mark ∉ x')
    (h : x ++ mark :: y = x' ++ mark :: y') : x = x' ∧ y = y' := by
  induction x generalizing x' with
  | nil =>
    cases x' with
    | nil => exact ⟨rfl, List.tail_eq_of_cons_eq h⟩
    | cons c cs =>
      obtain ⟨rfl, -⟩ := List.cons.inj h
      exact (hx' List.mem_cons_self).elim
  | cons c cs ih =>
    cases x' with
    | nil =>
      obtain ⟨rfl, -⟩ := List.cons.inj h
      exact (hx List.mem_cons_self).elim
    | cons c' cs' =>
      obtain ⟨rfl, hrest⟩ := List.cons.inj h
      obtain ⟨rfl, hy⟩ := ih (fun hm => hx (List.mem_cons_of_mem _ hm))
        (fun hm => hx' (List.mem_cons_of_mem _ hm)) hrest
      exact ⟨rfl, hy⟩

end CapabilityRegistry
