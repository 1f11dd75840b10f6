import CapabilityRegistry.Lib.Machine
import CapabilityRegistry.Frames

/-! What the frame decoder delivers: only what was encoded, and when twice. -/
namespace CapabilityRegistry
variable {limits : RegistryLimits} {frame : Frame} {frames : List Frame} {buffer rest : List UInt8}
  {chunks : List (List UInt8)}

section Headers

def writeFrameHeader (header : FrameHeader) : ByteWriter :=
  .u32 header.magic ++ .u16 header.version ++ .u16 header.rawType ++ .u32 header.flags ++
    .u32 header.length ++ .u32 header.checksum ++ .u64 header.correlation

open ByteReader in
theorem exact_frameHeader :
    Wire.Exact (fun header => (writeFrameHeader header).out) readFrameHeader :=
  (exact_u32.both <| exact_u16.both <| exact_u16.both <| exact_u32.both <| exact_u32.both <|
      exact_u32.both exact_u64).record
    (fun header => (header.magic, header.version, header.rawType, header.flags, header.length,
      header.checksum, header.correlation))
    (fun (magic, version, rawType, flags, length, checksum, correlation) =>
      { magic, version, rawType, flags, length, checksum, correlation })
    (by simp [readFrameHeader, Wire.both]) (fun _ => by simp [writeFrameHeader]) fun _ => rfl

theorem MessageType.raw_of_ofRaw? {raw : UInt16} {type : MessageType} (h : ofRaw? raw = some type) :
    type.raw = raw := by
  unfold ofRaw? at h
  split at h
  · next hknown =>
    have hcode : CodeEnum.code type = raw.toNat - 1 := by
      obtain ⟨hlt, he⟩ := List.getElem?_eq_some_iff.mp h
      rw [← he]
      exact List.Nodup.idxOf_getElem (by decide) _ hlt
    have hpos : 1 ≤ raw.toNat := by
      simp only [messageTypeKnown, Bool.and_eq_true, decide_eq_true_eq] at hknown
      exact UInt16.le_iff_toNat_le.mp hknown.1
    rw [MessageType.raw, hcode, Nat.sub_add_cancel hpos, UInt16.ofNat_toNat]
  · cases h

/-- A frame is found behind a header that passes every check, with the payload it announces. -/
theorem scanFrame_eq_item (h : scanFrame limits buffer = .item frame rest) :
    ∃ header tail, readFrameHeader buffer = .ok (header, tail) ∧
      header.magic = kFrameMagic ∧ header.version = protocolVersion ∧
      MessageType.ofRaw? header.rawType = some frame.type ∧ frame.flags = header.flags ∧
      header.flags &&& ~~~kKnownFrameFlags = 0 ∧ header.length.toNat ≤ limits.maxFrameBytes ∧
      header.length.toNat ≤ tail.length ∧ frame.payload = tail.take header.length.toNat ∧
      crc32 frame.payload = header.checksum ∧ frame.correlation = header.correlation ∧
      rest = tail.drop header.length.toNat := by
  unfold scanFrame at h
  repeat (split at h; · cases h)
  rename_i _ _ header tail hread hmagic hversion _ type htype hflags hbound hwhole
  dsimp only at h
  split at h; · cases h
  rename_i hsum
  obtain ⟨rfl, rfl⟩ := Framing.Scan.item.inj h
  simp only [bne_iff_ne, ne_eq, Decidable.not_not] at hmagic hversion hflags hsum
  exact ⟨header, tail, hread, hmagic, hversion, htype, rfl, hflags, by omega, by omega, rfl, hsum,
    rfl, rfl⟩

/-- What the decoder takes off a buffer is the encoding of the frame it delivers. -/
theorem exact_scanFrame : Framing.Exact (scanFrame limits) frameBytes (Frame.Whole limits) := by
  intro buffer frame rest h
  obtain ⟨header, tail, hread, hmagic, hversion, htype, hflags, hknown, hbound, hroom, hpayload,
    hsum, hcorrelation, rfl⟩ := scanFrame_eq_item h
  have hlen : frame.payload.length = header.length.toNat := by
    rw [hpayload, List.length_take]
    omega
  have hheader : frameHeader frame = writeFrameHeader header := by
    rw [frameHeader, writeFrameHeader, hmagic, hversion, MessageType.raw_of_ofRaw? htype, hflags,
      hlen, UInt32.ofNat_toNat, hsum, hcorrelation]
  refine ⟨⟨hflags ▸ hknown, hlen ▸ hbound, hlen ▸ header.length.toNat_lt⟩, ?_⟩
  rw [frameBytes, hheader, List.append_assoc, hpayload, List.take_append_drop]
  exact exact_frameHeader _ _ _ hread

end Headers

section Streams
variable {decoder : FrameDecoder}

/-- Frames that the decoder delivered were encoded, and their encodings are the very bytes it was
fed: other bytes are never accepted as the same frames. -/
theorem delivered_frames_were_encoded
    (h : FrameDecoder.feedAll ⟨limits, []⟩ chunks = .ok (frames, decoder))
    (hf : decoder.finish = .ok ()) :
    (∃ encoded, List.Forall₂ (fun frame bytes => encodeFrame limits frame = .ok bytes) frames
        encoded ∧ encoded.flatten = chunks.flatten) ∧
      ∀ (chunks' : List (List UInt8)) (decoder' : FrameDecoder),
        FrameDecoder.feedAll ⟨limits, []⟩ chunks' = .ok (frames, decoder') →
          decoder'.finish = .ok () → chunks'.flatten = chunks.flatten := by
  have hbytes : ∀ {chunks : List (List UInt8)} {decoder : FrameDecoder},
      FrameDecoder.feedAll ⟨limits, []⟩ chunks = .ok (frames, decoder) →
        decoder.finish = .ok () →
          (∀ frame ∈ frames, frame.Whole limits) ∧ frames.flatMap frameBytes = chunks.flatten := by
    intro chunks decoder h hf
    have haccept := FrameDecoder.delivered_iff.mp ⟨decoder, h, hf⟩
    simpa using exact_scanFrame.acceptAll framed_scanFrame haccept
  obtain ⟨hwhole, hstream⟩ := hbytes h hf
  refine ⟨⟨frames.map frameBytes, ?_, ?_⟩, fun chunks' decoder' h' hf' => ?_⟩
  · refine List.forall₂_map_right_iff.mpr (List.forall₂_same.mpr fun frame hframe => ?_)
    have hw := hwhole frame hframe
    exact encodeFrame_eq_ok.mpr ⟨hw.bounded, hw.flags, rfl⟩
  · rw [← hstream, List.flatMap_def]
  · rw [← hstream, ← (hbytes h' hf').2]

/-- A heartbeat that came in two pieces. -/
theorem delivered_frames_were_encoded_heartbeat :
    ∃ encoded, List.Forall₂ (fun frame bytes => encodeFrame {} frame = .ok bytes)
        [{ type := .heartbeat, payload := [7] }] encoded ∧
      encoded.flatten = frameBytes { type := .heartbeat, payload := [7] } := by
  let bytes := frameBytes { type := .heartbeat, payload := [7] }
  have haccept : Framing.acceptAll (scanFrame {}) (FrameDecoder.bound {}) FrameDecoder.overflow []
      [bytes.take 20, bytes.drop 20] = .ok ([{ type := .heartbeat, payload := [7] }], []) := by
    decide +kernel
  obtain ⟨decoder, hfeed, hfinish⟩ := FrameDecoder.delivered_iff.mpr haccept
  simpa using (delivered_frames_were_encoded hfeed hfinish).1

end Streams

section Redelivery

/-- A decoder with the bytes it has taken in so far, and where in them each frame that it delivered
begins. -/
structure Tap where
  decoder : FrameDecoder
  stream : List UInt8 := []
  delivered : List Nat := []

/-- Where frames begin that follow one another from some place on. -/
def begins : Nat → List Frame → List Nat
  | _, [] => []
  | n, frame :: frames => n :: begins (n + frame.size) frames

namespace Tap
variable (t : Tap)

/-- The place in the stream at which the buffer begins. -/
def front : Nat := t.stream.length - t.decoder.buffer.length

/-- A call that the capacity check refuses takes nothing in. -/
def Refuses (data : List UInt8) : Prop :=
  FrameDecoder.bound t.decoder.limits < t.decoder.buffer.length + data.length

instance (data : List UInt8) : Decidable (t.Refuses data) := inferInstanceAs (Decidable (_ < _))

def feed (data : List UInt8) : Tap :=
  let (_, frames, decoder) := t.decoder.feed data
  { decoder
    stream := if t.Refuses data then t.stream else t.stream ++ data
    delivered := t.delivered ++ begins t.front frames }

def run (calls : List (List UInt8)) : Tap := calls.foldl feed t

/-- A whole frame stands in front of the buffer: an earlier call delivered it and then failed. -/
def Holds : Prop := ∃ frame rest, scanFrame t.decoder.limits t.decoder.buffer = .item frame rest

/-- A call is safe when nothing stands in the buffer that was delivered, or when it is refused. -/
def Safe (data : List UInt8) : Prop := t.Holds → t.Refuses data

/-- What a call does: it is refused, it takes the bytes in and consumes the frames it delivers, or
it fails and keeps them. -/
inductive Fed (data : List UInt8) : Tap → Prop
  | refused (refuses : t.Refuses data) : Fed data t
  | taken (frames : List Frame) (left : List UInt8) (accepts : ¬ t.Refuses data)
      (bytes : frames.flatMap frameBytes ++ left = t.decoder.buffer ++ data)
      (more : scanFrame t.decoder.limits left = .more) :
    Fed data { decoder := ⟨t.decoder.limits, left⟩, stream := t.stream ++ data,
               delivered := t.delivered ++ begins t.front frames }
  | failed (frames : List Frame) (tail : List UInt8) (fault : Error) (accepts : ¬ t.Refuses data)
      (whole : ∀ frame ∈ frames, frame.Whole t.decoder.limits)
      (bytes : frames.flatMap frameBytes ++ tail = t.decoder.buffer ++ data)
      (broken : scanFrame t.decoder.limits tail = .fault fault) :
    Fed data { decoder := ⟨t.decoder.limits, t.decoder.buffer ++ data⟩, stream := t.stream ++ data,
               delivered := t.delivered ++ begins t.front frames }

theorem fed (data : List UInt8) : t.Fed data (t.feed data) := by
  by_cases hr : t.Refuses data
  · have hfeed : t.decoder.feed data = (.error FrameDecoder.overflow, [], t.decoder) := if_pos hr
    have ht : t.feed data = t := by
      simp only [feed, hfeed, if_pos hr, begins, List.append_nil]
    exact ht.symm ▸ .refused hr
  · have hroom : ¬ t.decoder.buffer.length + data.length > FrameDecoder.bound t.decoder.limits := hr
    have hdrain := @Framing.Exact.drain _ _ _ _ _ _ (t.decoder.buffer ++ data) _
      (@exact_scanFrame t.decoder.limits) framed_scanFrame (Nat.le_refl _)
    obtain ⟨tail, hwhole, hbytes, hstuck⟩ := hdrain
    rcases hd : Framing.drain (scanFrame t.decoder.limits) (t.decoder.buffer ++ data).length
      (t.decoder.buffer ++ data) with ⟨frames, fault | left⟩
    · have hfeed : t.decoder.feed data =
          (.error fault, frames, ⟨t.decoder.limits, t.decoder.buffer ++ data⟩) := by
        rw [FrameDecoder.feed, if_neg hroom]
        simp only [hd]
      rw [hd] at hwhole hbytes hstuck
      simp only [feed, hfeed, if_neg hr]
      exact .failed frames tail fault hr hwhole hbytes hstuck
    · have hfeed : t.decoder.feed data = (.ok (), frames, ⟨t.decoder.limits, left⟩) := by
        rw [FrameDecoder.feed, if_neg hroom]
        simp only [hd]
      rw [hd] at hbytes hstuck
      obtain ⟨rfl, hmore⟩ := hstuck
      simp only [feed, hfeed, if_neg hr]
      exact .taken frames left hr hbytes hmore

variable {t} {data : List UInt8}

/-- The buffer is the end of what was taken in, and a whole frame that stands in front of it has
been delivered from there. -/
structure Sound (t : Tap) : Prop where
  suffix : t.decoder.buffer <:+ t.stream
  held : t.Holds → t.front ∈ t.delivered

/-- Nothing was delivered twice; unless a delivered frame is held, every frame delivered so far lies
before the buffer. -/
structure Once (t : Tap) : Prop where
  nodup : t.delivered.Nodup
  before : ¬ t.Holds → ∀ p ∈ t.delivered, p < t.front

theorem mem_begins {n p : Nat} (h : p ∈ begins n frames) :
    n ≤ p ∧ p < n + (frames.flatMap frameBytes).length := by
  induction frames generalizing n with
  | nil => cases h
  | cons frame frames ih =>
    have hsize : 0 < frame.size := by
      unfold Frame.size kFrameHeaderSize
      omega
    have hlen : (frameBytes frame).length = frame.size := length_frameBytes frame
    rw [List.flatMap_cons, List.length_append, hlen]
    rcases List.mem_cons.mp h with rfl | h
    · omega
    · have := ih h
      omega

theorem nodup_begins (n : Nat) (frames : List Frame) : (begins n frames).Nodup := by
  induction frames generalizing n with
  | nil => exact List.nodup_nil
  | cons frame frames ih =>
    refine List.nodup_cons.mpr ⟨fun h => ?_, ih _⟩
    have := (mem_begins h).1
    unfold Frame.size kFrameHeaderSize at this
    omega

theorem mem_begins_self {n : Nat} (h : frames ≠ []) : n ∈ begins n frames := by
  cases frames with
  | nil => exact (h rfl).elim
  | cons frame frames => exact List.mem_cons_self

/-- A frame in front of a buffer is still there when more bytes come. -/
theorem scanFrame_append (h : scanFrame limits buffer = .item frame rest) (more : List UInt8) :
    scanFrame limits (buffer ++ more) = .item frame (rest ++ more) := by
  obtain ⟨hwhole, rfl⟩ := exact_scanFrame h
  rw [List.append_assoc]
  exact framed_scanFrame.whole hwhole _

/-- A call that is not refused delivers the frame that stands in front of the buffer. -/
theorem delivers_front (h : scanFrame limits buffer = .item frame rest) {tail : List UInt8}
    (hbytes : frames.flatMap frameBytes ++ tail = buffer)
    (hstuck : ∀ frame rest, scanFrame limits tail ≠ .item frame rest) : frames ≠ [] := by
  rintro rfl
  obtain rfl : tail = buffer := hbytes
  exact hstuck frame rest h

theorem Sound.front_add (h : t.Sound) :
    t.front + t.decoder.buffer.length = t.stream.length :=
  Nat.sub_add_cancel h.suffix.length_le

theorem suffix_append {left : List UInt8} (h : t.Sound)
    (hbytes : frames.flatMap frameBytes ++ left = t.decoder.buffer ++ data) :
    left <:+ t.stream ++ data := by
  refine List.IsSuffix.trans ⟨_, hbytes⟩ ?_
  obtain ⟨before, hbefore⟩ := h.suffix
  exact ⟨before, by rw [← hbefore, List.append_assoc]⟩

theorem Sound.feed (h : t.Sound) (data : List UInt8) : (t.feed data).Sound := by
  have hf := t.fed data
  generalize t.feed data = t' at hf
  cases hf with
  | refused refuses => exact h
  | taken frames left accepts bytes more =>
    refine ⟨suffix_append h bytes, fun ⟨frame, rest, hs⟩ => ?_⟩
    simp [more] at hs
  | failed frames tail fault accepts whole bytes broken =>
    have hbytes : ([] : List Frame).flatMap frameBytes ++ (t.decoder.buffer ++ data) =
        t.decoder.buffer ++ data := rfl
    refine ⟨suffix_append h hbytes, fun ⟨frame, rest, hs⟩ => ?_⟩
    have hne : frames ≠ [] := delivers_front hs bytes fun _ _ hn => by simp [broken] at hn
    have hfront : (t.stream ++ data).length - (t.decoder.buffer ++ data).length = t.front := by
      have := h.front_add
      simp only [List.length_append]
      omega
    exact List.mem_append_right _ (hfront ▸ mem_begins_self hne)

/-- Frames delivered from the front of the buffer are new when nothing is held. -/
theorem Once.nodup_append (h : t.Once) (hh : ¬ t.Holds) (frames : List Frame) :
    (t.delivered ++ begins t.front frames).Nodup := by
  refine List.nodup_append.mpr ⟨h.nodup, nodup_begins _ _, fun p hp q hq hpq => ?_⟩
  have hlt := h.before hh p hp
  have hge := (mem_begins hq).1
  omega

theorem Once.feed (h : t.Once) (hs : t.Sound) (hsafe : t.Safe data) : (t.feed data).Once := by
  have hf := t.fed data
  generalize t.feed data = t' at hf
  cases hf with
  | refused refuses => exact h
  | taken frames left accepts bytes more =>
    have hh : ¬ t.Holds := fun hh => accepts (hsafe hh)
    refine ⟨h.nodup_append hh frames, fun _ p hp => ?_⟩
    have hfront := hs.front_add
    have hlen := congrArg List.length bytes
    simp only [List.length_append] at hlen
    have hlt : p < t.front + (frames.flatMap frameBytes).length := by
      rcases List.mem_append.mp hp with hp | hp
      · exact (h.before hh p hp).trans_le (Nat.le_add_right _ _)
      · exact (mem_begins hp).2
    unfold front
    simp only [List.length_append]
    omega
  | failed frames tail fault accepts whole bytes broken =>
    have hh : ¬ t.Holds := fun hh => accepts (hsafe hh)
    refine ⟨h.nodup_append hh frames, fun hclean p hp => ?_⟩
    have hnil : frames = [] := by
      cases frames with
      | nil => rfl
      | cons frame frames =>
        refine (hclean ⟨frame, frames.flatMap frameBytes ++ tail, ?_⟩).elim
        rw [← bytes, List.flatMap_cons, List.append_assoc]
        exact framed_scanFrame.whole (whole frame List.mem_cons_self) _
    subst hnil
    have hfront := hs.front_add
    have hlt := h.before hh p (by simpa [begins] using hp)
    unfold front at hlt ⊢
    simp only [List.length_append]
    omega

/-- A frame that is held is delivered once more by every call that is not refused. -/
theorem delivered_again (h : t.Sound) (hh : t.Holds) (ha : ¬ t.Refuses data) :
    ¬ (t.feed data).delivered.Nodup := by
  have hmem := h.held hh
  obtain ⟨frame, rest, hs⟩ := hh
  have hf := t.fed data
  generalize t.feed data = t' at hf
  have htwice : ∀ frames, frames ≠ [] → ¬ (t.delivered ++ begins t.front frames).Nodup :=
    fun frames hne hn =>
      (List.nodup_append.mp hn).2.2 _ hmem _ (mem_begins_self hne) rfl
  have hfront := scanFrame_append hs data
  cases hf with
  | refused refuses => exact (ha refuses).elim
  | taken frames left accepts bytes more =>
    exact htwice frames (delivers_front hfront bytes fun _ _ hn => by simp [more] at hn)
  | failed frames tail fault accepts whole bytes broken =>
    exact htwice frames (delivers_front hfront bytes fun _ _ hn => by simp [broken] at hn)

theorem run_extends (calls : List (List UInt8)) : t.delivered <+: (t.run calls).delivered := by
  induction calls generalizing t with
  | nil => exact List.prefix_refl _
  | cons data calls ih =>
    have hfeed : t.delivered <+: (t.feed data).delivered := List.prefix_append _ _
    exact hfeed.trans ih

/-- Over any calls, no frame is delivered twice exactly if every call is safe. -/
theorem delivered_once_iff (calls : List (List UInt8)) :
    (run { decoder := ⟨limits, []⟩ } calls).delivered.Nodup ↔
      Machine.Along feed Safe { decoder := ⟨limits, []⟩ } calls := by
  have hrun : ∀ t : Tap, t.Sound → t.Once →
      ((t.run calls).delivered.Nodup ↔ Machine.Along feed Safe t calls) := by
    induction calls with
    | nil => exact fun t _ ho => ⟨fun _ => trivial, fun _ => ho.nodup⟩
    | cons data calls ih =>
      intro t hs ho
      by_cases hsafe : t.Safe data
      · exact (ih _ (hs.feed data) (ho.feed hs hsafe)).trans (iff_and_self.mpr fun _ => hsafe)
      · obtain ⟨hh, ha⟩ := Classical.not_imp.mp hsafe
        refine iff_of_false (fun hn => ?_) fun h => hsafe h.1
        exact delivered_again hs hh ha (hn.sublist (run_extends calls).sublist)
  have hempty : ¬ Holds { decoder := ⟨limits, []⟩ } := fun ⟨_, _, hs⟩ => by
    simp [framed_scanFrame.empty] at hs
  exact hrun _ ⟨List.suffix_refl _, fun h => (hempty h).elim⟩ ⟨List.nodup_nil, by simp⟩

/-- A call that fails behind a good frame keeps that frame, and the next call delivers it again. -/
theorem failed_call_redelivers :
    ¬ (run { decoder := ⟨{}, []⟩ }
      [frameBytes { type := .heartbeat, payload := [7] } ++ List.replicate kFrameHeaderSize 0,
        []]).delivered.Nodup := by
  decide +kernel

end Tap

end Redelivery

end CapabilityRegistry
