import Mathlib

/-! Reflected cyclic checksums: a shift register that takes in one bit at a time, and the changes of
its input that it tells apart. -/
namespace CrcLib
variable {w : Nat} {p x y z : BitVec w} {bits us vs : List Bool} {b : Bool} {n i : Nat}

/-- One round of the register without input. -/
def shift (p x : BitVec w) : BitVec w := if x.getLsbD 0 then p ^^^ (x >>> 1) else x >>> 1

/-- The register takes in one bit: the bit that falls out of it, added to the bit that comes in,
decides whether the polynomial is added. -/
def step (p x : BitVec w) (b : Bool) : BitVec w :=
  if x.getLsbD 0 != b then p ^^^ (x >>> 1) else x >>> 1

def run (p x : BitVec w) (bits : List Bool) : BitVec w := bits.foldl (step p) x

/-- Bits as a number, the first one least significant. -/
def number (w : Nat) : List Bool → BitVec w
  | [] => 0
  | b :: bits => (BitVec.ofBool b).setWidth w ^^^ (number w bits <<< 1)

theorem getLsbD_number (h : i < w) : (number w bits).getLsbD i = bits.getD i false := by
  induction bits generalizing i with
  | nil => simp [number]
  | cons b bits ih =>
    rw [number, BitVec.getLsbD_xor, BitVec.getLsbD_setWidth, BitVec.getLsbD_shiftLeft]
    cases i with
    | zero => cases b <;> simp [h]
    | succ i =>
      rw [Nat.add_sub_cancel, ih (Nat.lt_of_succ_lt h), List.getD_cons_succ]
      cases b <;> simp [h]

/-- Short inputs are told apart by their numbers. -/
theorem number_injective (hu : us.length ≤ w) (hlen : us.length = vs.length)
    (h : number w us = number w vs) : us = vs := by
  refine List.ext_getElem hlen fun i hi hi' => ?_
  have hbit := congrArg (fun x => x.getLsbD i) h
  simp only [getLsbD_number (Nat.lt_of_lt_of_le hi hu)] at hbit
  simpa [List.getD_eq_getElem?_getD, hi, hi'] using hbit

/-- A bit that comes in is added to the register before it shifts. -/
theorem step_eq (hw : 0 < w) : step p x b = shift p (x ^^^ (BitVec.ofBool b).setWidth w) := by
  have hlow : ((BitVec.ofBool b).setWidth w >>> 1) = 0#w := by
    apply BitVec.eq_of_getLsbD_eq
    intro i _
    cases b <;> simp
  have hbit : (x ^^^ (BitVec.ofBool b).setWidth w).getLsbD 0 = (x.getLsbD 0 != b) := by
    cases b <;> simp [hw]
  rw [step, shift, hbit, BitVec.ushiftRight_xor_distrib, hlow, BitVec.xor_zero]

/-- The `n` highest bits are clear. -/
def Room (n : Nat) (z : BitVec w) : Prop := ∀ i, w ≤ i + n → z.getLsbD i = false

theorem Room.shiftLeft (h : Room (n + 1) z) : Room 1 (z <<< n) := by
  intro i hi
  rw [BitVec.getLsbD_shiftLeft, h (i - n) (by omega), Bool.and_false]

theorem room_ushiftRight : Room n (x >>> n) := by
  intro i hi
  rw [BitVec.getLsbD_ushiftRight]
  exact BitVec.getLsbD_of_ge x (n + i) (by omega)

theorem room_number (h : bits.length + n ≤ w) : Room n (number w bits) := by
  intro i hi
  by_cases hw : i < w
  · have hfree : bits.length ≤ i := by omega
    rw [getLsbD_number hw, List.getD_eq_default _ _ hfree]
  · exact BitVec.getLsbD_of_ge _ i (Nat.le_of_not_lt hw)

/-- What enters above the bit that falls out only moves down. -/
theorem shift_xor_shiftLeft (h : Room 1 z) : shift p (x ^^^ (z <<< 1)) = shift p x ^^^ z := by
  have hbit : (x ^^^ (z <<< 1)).getLsbD 0 = x.getLsbD 0 := by simp
  have hback : z <<< 1 >>> 1 = z := by
    apply BitVec.eq_of_getLsbD_eq
    intro i _
    rw [BitVec.getLsbD_ushiftRight, BitVec.getLsbD_shiftLeft]
    by_cases hlast : 1 + i < w
    · simp [hlast]
    · simp [hlast, h i (by omega)]
  rw [shift, shift, hbit, BitVec.ushiftRight_xor_distrib, hback]
  split
  · exact (BitVec.xor_assoc _ _ _).symm
  · rfl

theorem iterate_shift_xor (h : Room n z) :
    (shift p)^[n] (x ^^^ (z <<< n)) = (shift p)^[n] x ^^^ z := by
  induction n generalizing x with
  | zero => rw [Function.iterate_zero_apply, Function.iterate_zero_apply, BitVec.shiftLeft_zero]
  | succ n ih =>
    have hn : Room n z := fun i hi => h i (by omega)
    rw [Function.iterate_succ_apply, Function.iterate_succ_apply, BitVec.shiftLeft_add,
      shift_xor_shiftLeft h.shiftLeft, ih hn]

/-- Taking in at most `w` bits is adding their number and shifting as often. -/
theorem run_eq (h : bits.length ≤ w) :
    run p x bits = (shift p)^[bits.length] (x ^^^ number w bits) := by
  induction bits generalizing x with
  | nil => simp [run, number]
  | cons b bits ih =>
    rw [List.length_cons] at h
    have hstep : run p x (b :: bits) = run p (step p x b) bits := rfl
    rw [hstep, ih (Nat.le_of_succ_le h), step_eq (Nat.zero_lt_of_lt h),
      ← shift_xor_shiftLeft (room_number h), number, List.length_cons,
      Function.iterate_succ_apply, BitVec.xor_assoc]

/-- Many bits at a time: only the low bits of the register meet the bits that come in. -/
theorem run_eq_low {mask : BitVec w} (h : bits.length ≤ w)
    (hmask : ∀ i < w, mask.getLsbD i = decide (i < bits.length)) :
    run p x bits =
      (shift p)^[bits.length] ((x ^^^ number w bits) &&& mask) ^^^ (x >>> bits.length) := by
  have hsplit : x ^^^ number w bits =
      ((x ^^^ number w bits) &&& mask) ^^^ (x >>> bits.length <<< bits.length) := by
    apply BitVec.eq_of_getLsbD_eq
    intro i hi
    simp only [BitVec.getLsbD_xor, BitVec.getLsbD_and, hmask i hi, BitVec.getLsbD_shiftLeft,
      BitVec.getLsbD_ushiftRight, getLsbD_number hi]
    by_cases hlow : i < bits.length
    · simp [hlow]
    · have hle : bits.length ≤ i := Nat.le_of_not_lt hlow
      simp [hlow, hi, Nat.add_sub_cancel' hle]
  rw [run_eq h, hsplit, iterate_shift_xor room_ushiftRight, ← hsplit]

section Detection

theorem pos_of_top (hp : p.getLsbD (w - 1) = true) : 0 < w := by
  by_contra hw
  rw [BitVec.getLsbD_of_ge p (w - 1) (by omega)] at hp
  cases hp

/-- The polynomial reaches the highest bit, so a round can be undone. -/
theorem shift_injective (hp : p.getLsbD (w - 1) = true) : Function.Injective (shift p) := by
  intro x y h
  have hw := pos_of_top hp
  have htop : ∀ z : BitVec w, (shift p z).getLsbD (w - 1) = z.getLsbD 0 := by
    intro z
    have hout : z.getLsbD (1 + (w - 1)) = false := BitVec.getLsbD_of_ge z _ (by omega)
    rw [shift]
    split
    · next hlow => rw [BitVec.getLsbD_xor, BitVec.getLsbD_ushiftRight, hout, hp, hlow]; rfl
    · next hlow => rw [BitVec.getLsbD_ushiftRight, hout, Bool.eq_false_iff.mpr hlow]
  have hlow : x.getLsbD 0 = y.getLsbD 0 := by rw [← htop, h, htop]
  have hhigh : x >>> 1 = y >>> 1 := by
    simp only [shift, hlow] at h
    split at h
    · exact (BitVec.xor_right_inj _).mp h
    · exact h
  apply BitVec.eq_of_getLsbD_eq
  intro i _
  cases i with
  | zero => exact hlow
  | succ i => simpa [Nat.add_comm] using congrArg (fun z => z.getLsbD i) hhigh

theorem run_injective (hp : p.getLsbD (w - 1) = true) (h : run p x bits = run p y bits) :
    x = y := by
  induction bits generalizing x y with
  | nil => exact h
  | cons b bits ih =>
    have hstep : step p x b = step p y b := ih h
    rw [step_eq (pos_of_top hp), step_eq (pos_of_top hp)] at hstep
    exact (BitVec.xor_left_inj _).mp (shift_injective hp hstep)

/-- Inputs that differ within `w` consecutive bits leave different registers behind. -/
theorem run_burst (hp : p.getLsbD (w - 1) = true) {pre post : List Bool} (hu : us.length ≤ w)
    (hlen : us.length = vs.length)
    (h : run p x (pre ++ us ++ post) = run p x (pre ++ vs ++ post)) : us = vs := by
  simp only [run, List.foldl_append] at h
  have hmiddle := run_injective hp h
  change run p _ us = run p _ vs at hmiddle
  rw [run_eq hu, run_eq (hlen ▸ hu), ← hlen] at hmiddle
  have hnumber := (shift_injective hp).iterate _ hmiddle
  exact number_injective hu hlen ((BitVec.xor_right_inj _).mp hnumber)

end Detection

end CrcLib
