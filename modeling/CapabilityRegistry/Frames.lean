import CapabilityRegistry.Lib.CodeEnum
import CapabilityRegistry.Lib.Framing
import CapabilityRegistry.Binary

/-! Frames on the wire and the incremental decoder that takes them off the bytes of a socket. -/
namespace CapabilityRegistry

inductive MessageType
  | hello | welcome | registerPublisher | publisherAccepted | publication | publicationAccepted
  | queryRequest | queryResponse | fencePublisher | fenceAccepted | snapshotRequest
  | snapshotResponse | shutdownRequest | shutdownAccepted | errorResponse | heartbeat
  | heartbeatAccepted
deriving DecidableEq

instance : CodeEnum MessageType where
  members := [.hello, .welcome, .registerPublisher, .publisherAccepted, .publication,
    .publicationAccepted, .queryRequest, .queryResponse, .fencePublisher, .fenceAccepted,
    .snapshotRequest, .snapshotResponse, .shutdownRequest, .shutdownAccepted, .errorResponse,
    .heartbeat, .heartbeatAccepted]
  mem_members := by rintro ⟨⟩ <;> decide

def MessageType.toText : MessageType → Text
  | .hello => "HELLO"
  | .welcome => "WELCOME"
  | .registerPublisher => "REGISTER_PUBLISHER"
  | .publisherAccepted => "PUBLISHER_ACCEPTED"
  | .publication => "PUBLICATION"
  | .publicationAccepted => "PUBLICATION_ACCEPTED"
  | .queryRequest => "QUERY_REQUEST"
  | .queryResponse => "QUERY_RESPONSE"
  | .fencePublisher => "FENCE_PUBLISHER"
  | .fenceAccepted => "FENCE_ACCEPTED"
  | .snapshotRequest => "SNAPSHOT_REQUEST"
  | .snapshotResponse => "SNAPSHOT_RESPONSE"
  | .shutdownRequest => "SHUTDOWN_REQUEST"
  | .shutdownAccepted => "SHUTDOWN_ACCEPTED"
  | .errorResponse => "ERROR_RESPONSE"
  | .heartbeat => "HEARTBEAT"
  | .heartbeatAccepted => "HEARTBEAT_ACCEPTED"

/-- The `uint16_t` of a message type; the enumeration starts at one. -/
def MessageType.raw (type : MessageType) : UInt16 := UInt16.ofNat (CodeEnum.code type + 1)

def messageTypeKnown (raw : UInt16) : Bool :=
  MessageType.hello.raw ≤ raw && raw ≤ MessageType.heartbeatAccepted.raw

/-- The cast of a known `uint16_t` to the enumeration. -/
def MessageType.ofRaw? (raw : UInt16) : Option MessageType :=
  if messageTypeKnown raw then CodeEnum.ofCode? (raw.toNat - 1) else none

@[simp] theorem MessageType.ofRaw?_raw (type : MessageType) : ofRaw? type.raw = some type := by
  cases type <;> decide

@[simp] theorem messageTypeKnown_raw (type : MessageType) : messageTypeKnown type.raw = true := by
  cases type <;> decide

def kFrameHeaderSize : Nat := 28
def kFrameMagic : UInt32 := 0x50524348
def kFrameFlagControl : UInt32 := (1 : UInt32) <<< 0
def kFrameFlagAck : UInt32 := (1 : UInt32) <<< 1
def kKnownFrameFlags : UInt32 := kFrameFlagControl ||| kFrameFlagAck
def protocolVersion : UInt16 := 1

structure Frame where
  type : MessageType := .hello
  flags : UInt32 := 0
  correlation : UInt64 := 0
  payload : List UInt8 := []
deriving DecidableEq

/-- One of the eight rounds behind an entry of the checksum table. -/
def crcRound (value : UInt32) : UInt32 :=
  if value &&& 1 != 0 then (0xEDB88320 : UInt32) ^^^ (value >>> 1) else value >>> 1

def crcTable (i : UInt32) : UInt32 := (List.range 8).foldl (fun value _ => crcRound value) i

def crc32 (data : List UInt8) : UInt32 :=
  data.foldl (fun crc byte => crcTable ((crc ^^^ byte.toUInt32) &&& 0xFF) ^^^ (crc >>> 8))
    0xFFFFFFFF ^^^ 0xFFFFFFFF

section Encoding

/-- The header of a frame. The length field is the low word of the payload's length. -/
def frameHeader (frame : Frame) : ByteWriter :=
  .u32 kFrameMagic ++ .u16 protocolVersion ++ .u16 frame.type.raw ++ .u32 frame.flags ++
    .u32 (UInt32.ofNat frame.payload.length) ++ .u32 (crc32 frame.payload) ++
    .u64 frame.correlation

def frameBytes (frame : Frame) : List UInt8 := (frameHeader frame).out ++ frame.payload

def encodeFrame (limits : RegistryLimits) (frame : Frame) : Except Error (List UInt8) := do
  require (messageTypeKnown frame.type.raw) .protocolError
    "refusing to encode an unknown message type"
  require (frame.payload.length ≤ limits.maxFrameBytes) .limitExceeded
    "frame payload exceeds the configured bound"
  require (frame.flags &&& ~~~kKnownFrameFlags == 0) .protocolError
    "refusing to encode undefined frame flags"
  pure (frameBytes frame)

theorem length_frameHeader (frame : Frame) :
    (frameHeader frame).out.length = kFrameHeaderSize := by
  simp [frameHeader, ByteWriter.u32, ByteWriter.u16, ByteWriter.u64, kFrameHeaderSize]

theorem length_frameBytes (frame : Frame) :
    (frameBytes frame).length = kFrameHeaderSize + frame.payload.length := by
  rw [frameBytes, List.length_append, length_frameHeader]

theorem encodeFrame_eq_ok {limits : RegistryLimits} {frame : Frame} {bytes : List UInt8} :
    encodeFrame limits frame = .ok bytes ↔
      frame.payload.length ≤ limits.maxFrameBytes ∧ frame.flags &&& ~~~kKnownFrameFlags = 0 ∧
        frameBytes frame = bytes := by
  simp [encodeFrame, pure, Except.pure]

end Encoding

section Decoding

structure FrameHeader where
  magic : UInt32
  version : UInt16
  rawType : UInt16
  flags : UInt32
  length : UInt32
  checksum : UInt32
  correlation : UInt64

def readFrameHeader : ByteReader FrameHeader := do
  let magic ← ByteReader.u32
  let version ← ByteReader.u16
  let rawType ← ByteReader.u16
  let flags ← ByteReader.u32
  let length ← ByteReader.u32
  let checksum ← ByteReader.u32
  let correlation ← ByteReader.u64
  pure { magic, version, rawType, flags, length, checksum, correlation }

/-- The header that stands in front of a frame. -/
def Frame.header (frame : Frame) : FrameHeader where
  magic := kFrameMagic
  version := protocolVersion
  rawType := frame.type.raw
  flags := frame.flags
  length := UInt32.ofNat frame.payload.length
  checksum := crc32 frame.payload
  correlation := frame.correlation

theorem reads_frameHeader (frame : Frame) :
    Wire.Reads readFrameHeader (frameHeader frame).out frame.header := by
  have hbytes : (frameHeader frame).out = (ByteWriter.u32 kFrameMagic).out ++
      ((ByteWriter.u16 protocolVersion).out ++ ((ByteWriter.u16 frame.type.raw).out ++
      ((ByteWriter.u32 frame.flags).out ++
      ((ByteWriter.u32 (UInt32.ofNat frame.payload.length)).out ++
      ((ByteWriter.u32 (crc32 frame.payload)).out ++
      ((ByteWriter.u64 frame.correlation).out ++ [])))))) := by
    simp [frameHeader]
  rw [hbytes]
  exact (ByteReader.round_u32.reads _ trivial).bind <| (ByteReader.round_u16.reads _ trivial).bind <|
    (ByteReader.round_u16.reads _ trivial).bind <| (ByteReader.round_u32.reads _ trivial).bind <|
    (ByteReader.round_u32.reads _ trivial).bind <| (ByteReader.round_u32.reads _ trivial).bind <|
    (ByteReader.round_u64.reads _ trivial).bind Wire.reads_pure

/-- One turn of the decoder's loop: the frame at the front of what has not been consumed. -/
def scanFrame (limits : RegistryLimits) (buffer : List UInt8) :
    Framing.Scan UInt8 Frame Error :=
  if buffer.length < kFrameHeaderSize then .more
  else match readFrameHeader buffer with
    | .error e => .fault e
    | .ok (header, rest) =>
      if header.magic != kFrameMagic then
        .fault ⟨.protocolError, "frame magic does not match"⟩
      else if header.version != protocolVersion then
        .fault ⟨.unsupportedVersion,
          "frame declares protocol version " ++ decimal header.version.toNat⟩
      else match MessageType.ofRaw? header.rawType with
        | none => .fault ⟨.protocolError, "frame declares an unknown message type"⟩
        | some type =>
          if header.flags &&& ~~~kKnownFrameFlags != 0 then
            .fault ⟨.protocolError, "frame declares undefined flags"⟩
          else if header.length.toNat > limits.maxFrameBytes then
            .fault ⟨.limitExceeded, "frame payload length exceeds the configured bound"⟩
          else if rest.length < header.length.toNat then .more
          else
            let payload := rest.take header.length.toNat
            if crc32 payload != header.checksum then
              .fault ⟨.integrityFailure, "frame checksum does not match its payload"⟩
            else
              .item { type, flags := header.flags, correlation := header.correlation, payload }
                (rest.drop header.length.toNat)

structure FrameDecoder where
  limits : RegistryLimits
  buffer : List UInt8 := []

/-- The bound on what the decoder holds; the sum of two `std::size_t` values. -/
def FrameDecoder.bound (limits : RegistryLimits) : Nat :=
  sizeAdd limits.maxFrameBytes kFrameHeaderSize

def FrameDecoder.overflow : Error :=
  ⟨.limitExceeded, "frame buffer would exceed the configured bound"⟩

/-- Frames found before a fault are still handed out; the buffer then keeps every byte. -/
def FrameDecoder.feed (decoder : FrameDecoder) (data : List UInt8) :
    Status × List Frame × FrameDecoder :=
  if decoder.buffer.length + data.length > bound decoder.limits then
    (.error overflow, [], decoder)
  else
    let buffer := decoder.buffer ++ data
    match Framing.drain (scanFrame decoder.limits) buffer.length buffer with
    | (frames, .ok left) => (.ok (), frames, { decoder with buffer := left })
    | (frames, .error e) => (.error e, frames, { decoder with buffer })

def FrameDecoder.finish (decoder : FrameDecoder) : Status :=
  if decoder.buffer.isEmpty then .ok ()
  else .error ⟨.protocolError, "connection ended with " ++ decimal decoder.buffer.length ++
    (" bytes of an incomplete frame" : Text)⟩

/-- Successive calls of `feed`, up to the first that fails, and the frames of all of them. -/
def FrameDecoder.feedAll : FrameDecoder → List (List UInt8) → Except Error (List Frame × FrameDecoder)
  | decoder, [] => .ok ([], decoder)
  | decoder, data :: more => do
    let (status, frames, next) := decoder.feed data
    status
    let (later, last) ← feedAll next more
    pure (frames ++ later, last)

end Decoding

section Chunking
variable {limits : RegistryLimits} {frame : Frame} {frames : List Frame} {buffer : List UInt8}
  {chunks : List (List UInt8)}

/-- What the encoder accepts and its length field can hold. -/
structure Frame.Whole (limits : RegistryLimits) (frame : Frame) : Prop where
  flags : frame.flags &&& ~~~kKnownFrameFlags = 0
  bounded : frame.payload.length ≤ limits.maxFrameBytes
  counted : frame.payload.length < 2 ^ 32

theorem Frame.Whole.length_header (h : frame.Whole limits) :
    frame.header.length.toNat = frame.payload.length := by
  have hlt : frame.payload.length < UInt32.size := h.counted
  exact UInt32.toNat_ofNat_of_lt hlt

/-- Behind the header of an accepted frame only the payload is still in question. -/
theorem scanFrame_header (h : frame.Whole limits) (rest : List UInt8) :
    scanFrame limits ((frameHeader frame).out ++ rest) =
      if rest.length < frame.payload.length then .more
      else if crc32 (rest.take frame.payload.length) != crc32 frame.payload then
        .fault ⟨.integrityFailure, "frame checksum does not match its payload"⟩
      else .item { frame with payload := rest.take frame.payload.length }
        (rest.drop frame.payload.length) := by
  have hlen : ¬ ((frameHeader frame).out ++ rest).length < kFrameHeaderSize := by
    rw [List.length_append, length_frameHeader]
    omega
  have hbound : ¬ frame.payload.length > limits.maxFrameBytes := by
    have := h.bounded
    omega
  rw [scanFrame, if_neg hlen, reads_frameHeader frame rest]
  simp only [h.length_header, hbound]
  simp [Frame.header, h.flags]

theorem framed_scanFrame : Framing.Framed (scanFrame limits) frameBytes (Frame.Whole limits) where
  empty := rfl
  nonempty := by
    intro frame _ hnil
    have hlen := length_frameBytes frame
    rw [hnil, List.length_nil, kFrameHeaderSize] at hlen
    omega
  whole := by
    intro frame h rest
    rw [frameBytes, List.append_assoc, scanFrame_header h]
    simp
  part := by
    intro frame front rest h hsplit hrest
    have hpos : 0 < rest.length := List.length_pos_iff.mpr hrest
    have hlen : kFrameHeaderSize + frame.payload.length = front.length + rest.length := by
      rw [← length_frameBytes, hsplit, List.length_append]
    by_cases hshort : front.length < kFrameHeaderSize
    · rw [scanFrame, if_pos hshort]
    · obtain ⟨tail, rfl⟩ : (frameHeader frame).out <+: front := by
        refine List.prefix_of_prefix_length_le ⟨_, rfl⟩ ⟨_, hsplit.symm⟩ ?_
        rw [length_frameHeader]
        omega
      rw [List.length_append, length_frameHeader] at hlen
      rw [scanFrame_header h, if_pos (by omega)]

theorem FrameDecoder.feed_ok {data left : List UInt8}
    (h : Framing.accept (scanFrame limits) (bound limits) overflow buffer data =
      (frames, .ok left)) :
    feed ⟨limits, buffer⟩ data = (.ok (), frames, ⟨limits, left⟩) := by
  rw [Framing.accept] at h
  split at h
  · cases h
  · next hroom =>
    rw [feed, if_neg hroom]
    simp only [h]

theorem FrameDecoder.feed_error {data : List UInt8} {e : Error}
    (h : Framing.accept (scanFrame limits) (bound limits) overflow buffer data =
      (frames, .error e)) :
    ∃ next, feed ⟨limits, buffer⟩ data = (.error e, frames, next) := by
  rw [Framing.accept] at h
  split at h
  · next hroom =>
    cases h
    exact ⟨_, if_pos hroom⟩
  · next hroom =>
    rw [feed, if_neg hroom]
    simp only [h]
    exact ⟨_, rfl⟩

/-- The decoder's calls are deliveries into its bounded buffer. -/
theorem FrameDecoder.feedAll_eq :
    feedAll ⟨limits, buffer⟩ chunks =
      (Framing.acceptAll (scanFrame limits) (bound limits) overflow buffer chunks).map
        fun result => (result.1, ⟨limits, result.2⟩) := by
  induction chunks generalizing buffer with
  | nil => rfl
  | cons data chunks ih =>
    rcases haccept : Framing.accept (scanFrame limits) (bound limits) overflow buffer data with
      ⟨found, e | left⟩
    · obtain ⟨next, hfeed⟩ := feed_error haccept
      rw [feedAll, Framing.acceptAll, hfeed, haccept]
      rfl
    · rw [feedAll, Framing.acceptAll, feed_ok haccept, haccept]
      simp only [ih, bind, Except.bind]
      cases Framing.acceptAll (scanFrame limits) (bound limits) overflow left chunks <;> rfl

theorem FrameDecoder.finish_eq_ok {decoder : FrameDecoder} :
    decoder.finish = .ok () ↔ decoder.buffer = [] := by
  by_cases h : decoder.buffer = [] <;> simp [finish, h]

theorem FrameDecoder.delivered_iff :
    (∃ decoder, feedAll ⟨limits, []⟩ chunks = .ok (frames, decoder) ∧ decoder.finish = .ok ()) ↔
      Framing.acceptAll (scanFrame limits) (bound limits) overflow [] chunks =
        .ok (frames, []) := by
  rw [feedAll_eq]
  cases Framing.acceptAll (scanFrame limits) (bound limits) overflow [] chunks with
  | error e => simp [Except.map]
  | ok result =>
    obtain ⟨found, left⟩ := result
    simp [Except.map, finish_eq_ok]

/-- The bytes a frame takes on the wire. -/
def Frame.size (frame : Frame) : Nat := kFrameHeaderSize + frame.payload.length

theorem Frame.width_eq_size : Framing.width frameBytes = Frame.size :=
  funext length_frameBytes

theorem encoded_eq {encoded : List (List UInt8)}
    (h : List.Forall₂ (fun frame bytes => encodeFrame limits frame = .ok bytes) frames encoded) :
    (∀ frame ∈ frames, frame.payload.length ≤ limits.maxFrameBytes ∧
      frame.flags &&& ~~~kKnownFrameFlags = 0) ∧ encoded.flatten = frames.flatMap frameBytes := by
  induction h with
  | nil => simp
  | cons hframe _ ih =>
    obtain ⟨hbounded, hflags, rfl⟩ := encodeFrame_eq_ok.mp hframe
    simpa [hbounded, hflags] using ih

/-- Frames come out of the decoder unchanged and in order, however their bytes were cut, exactly
if each piece finds room in the bounded buffer; pieces of one byte always do. -/
theorem frames_survive_chunking {encoded : List (List UInt8)}
    (h : List.Forall₂ (fun frame bytes => encodeFrame limits frame = .ok bytes) frames encoded)
    (hcount : ∀ frame ∈ frames, frame.payload.length < 2 ^ 32)
    (hs : chunks.flatten = encoded.flatten) :
    ((∃ decoder, FrameDecoder.feedAll ⟨limits, []⟩ chunks = .ok (frames, decoder) ∧
        decoder.finish = .ok ()) ↔
      Framing.Fits Frame.size (FrameDecoder.bound limits) frames 0 chunks) ∧
    (limits.maxFrameBytes + kFrameHeaderSize < 2 ^ 64 → (∀ chunk ∈ chunks, chunk.length ≤ 1) →
      Framing.Fits Frame.size (FrameDecoder.bound limits) frames 0 chunks) := by
  obtain ⟨hframes, hbytes⟩ := encoded_eq h
  have hwhole : ∀ frame ∈ frames, frame.Whole limits := fun frame hmem =>
    ⟨(hframes frame hmem).2, (hframes frame hmem).1, hcount frame hmem⟩
  have hstream : [] ++ chunks.flatten = frames.flatMap frameBytes := hs.trans hbytes
  rw [← Frame.width_eq_size]
  constructor
  · rw [FrameDecoder.delivered_iff]
    exact framed_scanFrame.acceptAll_iff hwhole hstream Framing.pending_zero
  · intro hwrap hone
    have hbound : FrameDecoder.bound limits = limits.maxFrameBytes + kFrameHeaderSize :=
      Nat.mod_eq_of_lt hwrap
    apply Framing.fits_bytes _ hone
    · have hlen := congrArg List.length hstream
      rw [List.nil_append, List.length_flatMap] at hlen
      rw [Nat.zero_add, hlen]
    · intro frame hmem
      have := (hframes frame hmem).1
      rw [hbound, Framing.width, length_frameBytes]
      omega

/-- A heartbeat that arrives one byte at a time comes out whole. -/
theorem frames_survive_chunking_bytewise :
    ∃ decoder, FrameDecoder.feedAll ⟨{}, []⟩
        ((frameBytes { type := .heartbeat, payload := [7] }).map fun byte => [byte]) =
          .ok ([{ type := .heartbeat, payload := [7] }], decoder) ∧
      decoder.finish = .ok () := by
  let frame : Frame := { type := .heartbeat, payload := [7] }
  have haccepted : encodeFrame {} frame = .ok (frameBytes frame) := by decide +kernel
  have hbytes : ((frameBytes frame).map fun byte => [byte]).flatten = [frameBytes frame].flatten := by
    decide +kernel
  have h := frames_survive_chunking (.cons haccepted .nil) (by decide) hbytes
  exact h.1.mpr (h.2 (by decide) (by decide +kernel))

/-- A header whose payload has not arrived is not yet a frame. -/
example : ((FrameDecoder.feed ⟨{}, []⟩
    ((frameBytes { type := .heartbeat, payload := [7] }).take kFrameHeaderSize)).2.1).isEmpty = true := by
  decide +kernel

/-- Two small frames delivered in one call overrun the buffer although each of them is within the
bound. -/
theorem frames_of_one_call_overrun :
    ¬ ∀ (limits : RegistryLimits) (frames : List Frame) (encoded chunks : List (List UInt8)),
      List.Forall₂ (fun frame bytes => encodeFrame limits frame = .ok bytes) frames encoded →
      chunks.flatten = encoded.flatten →
      ∃ decoder, FrameDecoder.feedAll ⟨limits, []⟩ chunks = .ok (frames, decoder) ∧
        decoder.finish = .ok () := by
  intro h
  let frame : Frame := { type := .heartbeat, payload := [9] }
  have haccepted : encodeFrame { maxFrameBytes := 8 } frame = .ok (frameBytes frame) := by
    decide +kernel
  obtain ⟨decoder, hfeed, -⟩ := h { maxFrameBytes := 8 } [frame, frame] _
    [frameBytes frame ++ frameBytes frame] (.cons haccepted (.cons haccepted .nil)) (by simp)
  have hroom : ([] : List UInt8).length + (frameBytes frame ++ frameBytes frame).length >
      FrameDecoder.bound { maxFrameBytes := 8 } := by
    rw [List.length_append, length_frameBytes]
    decide
  rw [FrameDecoder.feedAll, FrameDecoder.feed, if_pos hroom] at hfeed
  cases hfeed

end Chunking

end CapabilityRegistry
