import CapabilityRegistry.Lib.Crc
import CapabilityRegistry.Delivery
import CapabilityRegistry.Image

/-! The checksum of frames and images: what its table computes and which corruptions it detects. -/
namespace CapabilityRegistry
open CrcLib
variable {limits : RegistryLimits} {frame : Frame} {payload payload' : List UInt8}

/-- The bits of a byte, the least significant first. -/
def byteBits (byte : UInt8) : List Bool := (List.range 8).map byte.toBitVec.getLsbD

def dataBits (data : List UInt8) : List Bool := data.flatMap byteBits

def crcPolynomial : BitVec 32 := 0xEDB88320

/-- The reflected checksum one bit at a time, with its initial and its final complement. -/
def crc32Bitwise (data : List UInt8) : UInt32 :=
  ⟨~~~run crcPolynomial (BitVec.allOnes 32) (dataBits data)⟩

example : crc32Bitwise "123456789" = 0xCBF43926 := by decide +kernel

section Table

@[simp] theorem length_byteBits (byte : UInt8) : (byteBits byte).length = 8 := by
  rw [byteBits, List.length_map, List.length_range]

theorem getElem?_byteBits {byte : UInt8} {i : Nat} (h : i < 8) :
    (byteBits byte)[i]? = some (byte.toBitVec.getLsbD i) := by
  rw [byteBits, List.getElem?_map, List.getElem?_range h, Option.map_some]

theorem dataBits_cons (byte : UInt8) (data : List UInt8) :
    dataBits (byte :: data) = byteBits byte ++ dataBits data := List.flatMap_cons

theorem length_dataBits (data : List UInt8) : (dataBits data).length = 8 * data.length := by
  induction data with
  | nil => rfl
  | cons byte data ih =>
    rw [dataBits_cons, List.length_append, length_byteBits, ih, List.length_cons]
    omega

theorem crcRound_toBitVec (value : UInt32) :
    (crcRound value).toBitVec = shift crcPolynomial value.toBitVec := by
  have hlow : (value &&& 1 != 0) = value.toBitVec.getLsbD 0 := by
    rw [Bool.eq_iff_iff, bne_iff_ne, ne_eq, ← UInt32.toBitVec_inj, UInt32.toBitVec_and]
    change ¬ value.toBitVec &&& 1#32 = 0#32 ↔ _
    rw [BitVec.and_one_eq_setWidth_ofBool_getLsbD]
    cases value.toBitVec.getLsbD 0 <;> decide
  rw [crcRound, shift, hlow]
  split
  · rfl
  · rfl

theorem crcTable_toBitVec (i : UInt32) :
    (crcTable i).toBitVec = (shift crcPolynomial)^[8] i.toBitVec := by
  have hsemi : Function.Semiconj UInt32.toBitVec crcRound (shift crcPolynomial) :=
    crcRound_toBitVec
  rw [crcTable, List.foldl_const, List.length_range]
  exact (hsemi.iterate_right 8).eq i

theorem number_byteBits (byte : UInt8) :
    number 32 (byteBits byte) = byte.toUInt32.toBitVec := by
  apply BitVec.eq_of_getLsbD_eq
  intro i hi
  rw [getLsbD_number hi, UInt8.toBitVec_toUInt32, BitVec.getLsbD_setWidth,
    List.getD_eq_getElem?_getD]
  by_cases hlow : i < 8
  · simp [getElem?_byteBits hlow, hi]
  · rw [List.getElem?_eq_none (by simpa using hlow), BitVec.getLsbD_of_ge _ i (by omega)]
    simp

/-- An entry of the table does the work of eight single bits. -/
theorem crcStep_toBitVec (crc : UInt32) (byte : UInt8) :
    (crcTable ((crc ^^^ byte.toUInt32) &&& 0xFF) ^^^ (crc >>> 8)).toBitVec =
      run crcPolynomial crc.toBitVec (byteBits byte) := by
  have hmask : ∀ i < 32, (0xFF : BitVec 32).getLsbD i = decide (i < (byteBits byte).length) := by
    rw [length_byteBits]
    decide
  rw [run_eq_low (by simp) hmask, length_byteBits, number_byteBits, UInt32.toBitVec_xor,
    crcTable_toBitVec]
  rfl

theorem crc32_eq_crc32Bitwise (data : List UInt8) : crc32 data = crc32Bitwise data := by
  have hfold : ∀ crc : UInt32, (data.foldl
      (fun crc byte => crcTable ((crc ^^^ byte.toUInt32) &&& 0xFF) ^^^ (crc >>> 8)) crc).toBitVec =
        run crcPolynomial crc.toBitVec (dataBits data) := by
    induction data with
    | nil => intro crc; rfl
    | cons byte data ih =>
      intro crc
      rw [List.foldl_cons, ih, crcStep_toBitVec, dataBits_cons]
      exact (List.foldl_append ..).symm
  apply UInt32.toBitVec_inj.mp
  rw [crc32, UInt32.toBitVec_xor, hfold]
  exact BitVec.xor_allOnes

end Table

section Bursts

theorem byteBits_injective : Function.Injective byteBits := by
  intro byte byte' h
  refine UInt8.toBitVec_inj.mp (BitVec.eq_of_getLsbD_eq fun i hi => ?_)
  have hbit := congrArg (fun bits => bits[i]?) h
  simp only [getElem?_byteBits hi] at hbit
  exact Option.some.inj hbit

theorem dataBits_injective : Function.Injective dataBits := by
  intro data data' h
  have hlen := congrArg List.length h
  rw [length_dataBits, length_dataBits] at hlen
  induction data generalizing data' with
  | nil => exact (List.length_eq_zero_iff.mp (by simpa using hlen.symm)).symm
  | cons byte data ih =>
    cases data' with
    | nil => simp at hlen
    | cons byte' data' =>
      rw [dataBits_cons, dataBits_cons] at h
      obtain ⟨hbyte, hdata⟩ := List.append_inj h (by simp)
      rw [byteBits_injective hbyte, ih hdata (by simpa using hlen)]

/-- Different data of one length whose bits differ only within 32 consecutive places. -/
def Burst (data data' : List UInt8) : Prop :=
  data.length = data'.length ∧ data ≠ data' ∧
    ∃ k, ∀ i, (dataBits data)[i]? ≠ (dataBits data')[i]? → k ≤ i ∧ i < k + 32

theorem Burst.crc32_ne (h : Burst payload payload') : crc32 payload ≠ crc32 payload' := by
  obtain ⟨hlen, hne, k, hwindow⟩ := h
  have hbits : (dataBits payload).length = (dataBits payload').length := by
    rw [length_dataBits, length_dataBits, hlen]
  have hsame : ∀ i, i < k ∨ k + 32 ≤ i → (dataBits payload)[i]? = (dataBits payload')[i]? := by
    intro i hi
    by_contra hdiff
    have := hwindow i hdiff
    omega
  have hfront : (dataBits payload).take k = (dataBits payload').take k := by
    refine List.ext_getElem? fun i => ?_
    by_cases hi : i < k
    · rw [List.getElem?_take_of_lt hi, List.getElem?_take_of_lt hi, hsame i (.inl hi)]
    · rw [List.getElem?_take_eq_none (by omega), List.getElem?_take_eq_none (by omega)]
  have hback : ((dataBits payload).drop k).drop 32 = ((dataBits payload').drop k).drop 32 := by
    refine List.ext_getElem? fun i => ?_
    simp only [List.getElem?_drop]
    exact hsame _ (.inr (by omega))
  have hsplit : ∀ data, dataBits data = (dataBits data).take k ++
      ((dataBits data).drop k).take 32 ++ ((dataBits data).drop k).drop 32 := by
    intro data
    rw [List.append_assoc, List.take_append_drop, List.take_append_drop]
  intro hcrc
  rw [crc32_eq_crc32Bitwise, crc32_eq_crc32Bitwise] at hcrc
  have hrun := BitVec.not_inj.mp (congrArg UInt32.toBitVec hcrc)
  rw [hsplit payload, hsplit payload', hfront, hback] at hrun
  have hmiddle := run_burst (by decide) (by simp) (by simp [hbits]) hrun
  refine hne (dataBits_injective ?_)
  rw [hsplit payload, hsplit payload', hfront, hmiddle, hback]

end Bursts

section Corruptions

/-- Behind an intact header the corrupted payload is found out as soon as all of it is there. -/
theorem Burst.scanFrame_eq_fault (h : Burst frame.payload payload') (hw : frame.Whole limits)
    (rest : List UInt8) :
    scanFrame limits ((frameHeader frame).out ++ (payload' ++ rest)) =
      .fault ⟨.integrityFailure, "frame checksum does not match its payload"⟩ := by
  have hsum : (crc32 payload' != crc32 frame.payload) = true := bne_iff_ne.mpr h.crc32_ne.symm
  have hroom : ¬ (payload' ++ rest).length < frame.payload.length := by
    rw [h.1, List.length_append]
    omega
  rw [scanFrame_header hw, if_neg hroom, h.1, List.take_left, if_pos hsum]

/-- However the bytes are cut, the decoder fails at the corrupted frame and hands out no frame but
those in front of it. -/
theorem Burst.feedAll_refused {before : List Frame} {rest : List UInt8} {chunks : List (List UInt8)}
    (h : Burst frame.payload payload') (hw : frame.Whole limits)
    (hbefore : ∀ frame ∈ before, frame.Whole limits)
    (hs : chunks.flatten = before.flatMap frameBytes ++
      ((frameHeader frame).out ++ (payload' ++ rest))) :
    ∃ done data later frames decoder e found next, chunks = done ++ data :: later ∧
      FrameDecoder.feedAll ⟨limits, []⟩ done = .ok (frames, decoder) ∧
      decoder.feed data = (.error e, found, next) ∧ frames ++ found <+: before := by
  have hstream : [] ++ chunks.flatten = before.flatMap frameBytes ++
      ((frameHeader frame).out ++ (payload' ++ rest)) := hs
  obtain ⟨done, data, later, frames, left, found, e, hsplit, hdone, hlast, hprefix⟩ :=
    @Framing.Exact.refused _ _ _ _ _ _ _ _ _ (FrameDecoder.bound limits) FrameDecoder.overflow
      exact_scanFrame framed_scanFrame _ _ hbefore (h.scanFrame_eq_fault hw rest) rfl hstream
  obtain ⟨next, hfeed⟩ := FrameDecoder.feed_error hlast
  refine ⟨done, data, later, frames, ⟨limits, left⟩, e, found, next, hsplit, ?_, hfeed, hprefix⟩
  rw [FrameDecoder.feedAll_eq, hdone]
  rfl

/-- The image with the corrupted payload does not decode. -/
theorem Burst.decodeDurableState_ne_ok {options : PersistOptions} {p : StatePrefix}
    (h : Burst payload payload') (hp : p.checksum = crc32 payload) (state : DurableState) :
    decodeDurableState options ((writeStatePrefix p).out ++ payload') ≠ .ok state := by
  intro hdecode
  simp only [decodeDurableState, round_statePrefix.reads _ trivial payload', bind_eq_ok,
    require_eq_ok, Except.ok.injEq, exists_eq_left', beq_iff_eq] at hdecode
  obtain ⟨-, -, -, -, -, -, -, -, -, -, -, hsum, -⟩ := hdecode
  exact h.crc32_ne (hp ▸ hsum.symm)

/-- The table computes the checksum bit for bit, every burst of at most 32 bits changes it, and
neither the decoder of frames nor that of images takes a payload that a burst corrupted. -/
theorem crc32_detects_bursts :
    (∀ data, crc32 data = crc32Bitwise data) ∧
    (∀ payload payload', Burst payload payload' → crc32 payload ≠ crc32 payload') ∧
    (∀ (limits : RegistryLimits) (frame : Frame) (payload' rest : List UInt8) (before : List Frame)
        (chunks : List (List UInt8)), frame.Whole limits → Burst frame.payload payload' →
      (∀ frame ∈ before, frame.Whole limits) →
      chunks.flatten = before.flatMap frameBytes ++
        ((frameHeader frame).out ++ (payload' ++ rest)) →
      ∃ done data later frames decoder e found next, chunks = done ++ data :: later ∧
        FrameDecoder.feedAll ⟨limits, []⟩ done = .ok (frames, decoder) ∧
        decoder.feed data = (.error e, found, next) ∧ frames ++ found <+: before) ∧
    ∀ (options : PersistOptions) (p : StatePrefix) (payload payload' : List UInt8),
      p.checksum = crc32 payload → Burst payload payload' → ∀ state,
        decodeDurableState options ((writeStatePrefix p).out ++ payload') ≠ .ok state := by
  refine ⟨crc32_eq_crc32Bitwise, fun _ _ h => h.crc32_ne, ?_, ?_⟩
  · intro limits frame payload' rest before chunks hw h hbefore hs
    exact h.feedAll_refused hw hbefore hs
  · intro options p payload payload' hp h state
    exact h.decodeDurableState_ne_ok hp state

end Corruptions

end CapabilityRegistry
