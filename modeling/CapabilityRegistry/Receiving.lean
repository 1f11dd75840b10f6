import CapabilityRegistry.Frames

/-! Receiving frames from a connection one at a time. -/
namespace CapabilityRegistry

/-- What successive calls of `recv_some` return: bytes, none of them when the peer has closed, or an
error. -/
abbrev Transport := List (Except Error (List UInt8))

def peerClosed : Error := ⟨.ioFailure, "peer closed the connection"⟩

def atEndOfStream (decoder : FrameDecoder) : Error :=
  match decoder.finish with
  | .error trailing => trailing
  | .ok () => peerClosed

/-- Of the frames that one call of `feed` delivers only the first is returned. -/
def receiveFrame (decoder : FrameDecoder) (transport : Transport) :
    Except Error Frame × FrameDecoder × Transport :=
  match decoder.feed [] with
  | (.error e, _, decoder) => (.error e, decoder, transport)
  | (.ok (), frame :: _, decoder) => (.ok frame, decoder, transport)
  | (.ok (), [], decoder) =>
    match transport with
    | [] => (.error (atEndOfStream decoder), decoder, [])
    | .error e :: transport => (.error e, decoder, transport)
    | .ok data :: transport =>
      if data.isEmpty then (.error (atEndOfStream decoder), decoder, transport)
      else match decoder.feed data with
        | (.error e, _, decoder) => (.error e, decoder, transport)
        | (.ok (), frame :: _, decoder) => (.ok frame, decoder, transport)
        | (.ok (), [], decoder) => receiveFrame decoder transport

/-- Successive calls, and the frames they return if all of them succeed. -/
def receiveFrames : Nat → FrameDecoder → Transport →
    Except Error (List Frame × FrameDecoder × Transport)
  | 0, decoder, transport => .ok ([], decoder, transport)
  | n + 1, decoder, transport =>
    match receiveFrame decoder transport with
    | (.error e, _) => .error e
    | (.ok frame, decoder, transport) => do
      let (frames, decoder, transport) ← receiveFrames n decoder transport
      pure (frame :: frames, decoder, transport)

/-- Successive calls return exactly these frames; the call after them finds the end of the stream. -/
def Receives (decoder : FrameDecoder) (transport : Transport) (frames : List Frame) : Prop :=
  ∃ decoder' transport', receiveFrames frames.length decoder transport =
      .ok (frames, decoder', transport') ∧
    (receiveFrame decoder' transport').1 = .error peerClosed

section Pending
variable {limits : RegistryLimits} {frames found : List Frame} {buffer chunk left : List UInt8}
  {chunks : List (List UInt8)}

/-- A decoder between two calls: it holds the bytes of an incomplete frame, and the rest of the
stream is still to come. -/
structure Awaits (limits : RegistryLimits) (buffer : List UInt8) (chunks : List (List UInt8))
    (frames : List Frame) : Prop where
  whole : ∀ frame ∈ frames, frame.Whole limits
  stream : buffer ++ chunks.flatten = frames.flatMap frameBytes
  pending : Framing.pending Frame.size frames buffer.length = buffer.length
  room : buffer.length ≤ FrameDecoder.bound limits

theorem Frame.size_pos (frame : Frame) : 0 < frame.size := by
  unfold Frame.size kFrameHeaderSize
  omega

/-- A chunk that finds room completes the frames that have arrived with it. -/
theorem Awaits.feed (h : Awaits limits buffer (chunk :: chunks) frames)
    (hroom : buffer.length + chunk.length ≤ FrameDecoder.bound limits)
    (hfound : Framing.arrived Frame.size frames (buffer.length + chunk.length) = found) :
    ∃ left, FrameDecoder.feed ⟨limits, buffer⟩ chunk = (.ok (), found, ⟨limits, left⟩) ∧
      left.length = Framing.pending Frame.size frames (buffer.length + chunk.length) ∧
      Awaits limits left chunks (frames.drop found.length) := by
  have hs : (buffer ++ chunk) ++ chunks.flatten = frames.flatMap frameBytes := by
    rw [List.append_assoc, ← List.flatten_cons]
    exact h.stream
  obtain ⟨left, hdrain, hlen, hrest⟩ := framed_scanFrame.drain_front h.whole hs (Nat.le_refl _)
  rw [Frame.width_eq_size, List.length_append] at hdrain hlen hrest
  rw [hfound] at hdrain hrest
  have hfeed : FrameDecoder.feed ⟨limits, buffer⟩ chunk = (.ok (), found, ⟨limits, left⟩) := by
    refine FrameDecoder.feed_ok ?_
    rw [Framing.accept, if_neg (by omega), List.length_append]
    exact hdrain
  refine ⟨left, hfeed, hlen, fun frame hf => h.whole frame (List.mem_of_mem_drop hf), hrest, ?_, ?_⟩
  · rw [hlen, ← hfound]
    exact Framing.pending_add (m := 0)
  · rw [hlen]
    exact Framing.pending_le.trans hroom

/-- Nothing is completed before more bytes come. -/
theorem Awaits.feed_nil (h : Awaits limits buffer chunks frames) :
    FrameDecoder.feed ⟨limits, buffer⟩ [] = (.ok (), [], ⟨limits, buffer⟩) := by
  have hnone : Framing.arrived Frame.size frames (buffer.length + ([] : List UInt8).length) = [] :=
    Framing.arrived_of_pending (fun frame _ => frame.size_pos) h.pending
  have hsame : Awaits limits buffer ([] :: chunks) frames :=
    ⟨h.whole, h.stream, h.pending, h.room⟩
  obtain ⟨left, hfeed, -, hleft⟩ := hsame.feed h.room hnone
  have hstream : left ++ chunks.flatten = buffer ++ chunks.flatten :=
    hleft.stream.trans h.stream.symm
  rwa [List.append_cancel_right hstream] at hfeed

/-- What the next call returns depends on what its chunk completes. -/
theorem Awaits.next (h : Awaits limits buffer (chunk :: chunks) frames)
    (hne : chunk ≠ []) :
    receiveFrame ⟨limits, buffer⟩ ((chunk :: chunks).map .ok) =
      match FrameDecoder.feed ⟨limits, buffer⟩ chunk with
      | (.error e, _, decoder) => (.error e, decoder, chunks.map .ok)
      | (.ok (), frame :: _, decoder) => (.ok frame, decoder, chunks.map .ok)
      | (.ok (), [], decoder) => receiveFrame decoder (chunks.map .ok) := by
  have hdata : chunk.isEmpty = false := by simpa using hne
  rw [List.map_cons, receiveFrame, h.feed_nil]
  simp only [hdata, Bool.false_eq_true, if_false]

/-- At the end of the stream nothing is pending. -/
theorem Awaits.ended (h : Awaits limits buffer [] frames) : buffer = [] ∧ frames = [] := by
  have hbytes : buffer = frames.flatMap frameBytes := by simpa using h.stream
  have hlen : buffer.length = (frames.map Frame.size).sum := by
    rw [hbytes, List.length_flatMap]
    simp only [length_frameBytes]
    rfl
  have hnil : buffer = [] := by
    rw [← List.length_eq_zero_iff, ← h.pending, hlen, Framing.pending_sum]
  refine ⟨hnil, ?_⟩
  cases frames with
  | nil => rfl
  | cons frame frames =>
    have hpos := frame.size_pos
    rw [hnil] at hlen
    simp only [List.length_nil, List.map_cons, List.sum_cons] at hlen
    omega

theorem Awaits.next_ended (h : Awaits limits buffer [] frames) :
    (receiveFrame ⟨limits, buffer⟩ []).1 = .error peerClosed := by
  obtain ⟨rfl, rfl⟩ := h.ended
  rw [receiveFrame, h.feed_nil]
  rfl

/-- A chunk that is too large ends the connection. -/
theorem Awaits.next_full (h : Awaits limits buffer (chunk :: chunks) frames)
    (hne : chunk ≠ []) (hfull : FrameDecoder.bound limits < buffer.length + chunk.length) :
    (receiveFrame ⟨limits, buffer⟩ ((chunk :: chunks).map .ok)).1 =
      .error FrameDecoder.overflow := by
  have hfeed : FrameDecoder.feed ⟨limits, buffer⟩ chunk =
      (.error FrameDecoder.overflow, [], ⟨limits, buffer⟩) := if_pos hfull
  rw [h.next hne, hfeed]

/-- Behind a chunk that completes no frame the call goes on as if it had just begun. -/
theorem receiveFrames_congr {d d' : FrameDecoder} {t t' : Transport}
    (h : receiveFrame d t = receiveFrame d' t') (n : Nat) :
    receiveFrames (n + 1) d t = receiveFrames (n + 1) d' t' := by
  rw [receiveFrames, receiveFrames, h]

theorem receiveFrames_of_error {d : FrameDecoder} {t : Transport} {e : Error}
    (h : (receiveFrame d t).1 = .error e) (n : Nat) : receiveFrames (n + 1) d t = .error e := by
  generalize hr : receiveFrame d t = result at h
  obtain ⟨status, rest⟩ := result
  cases h
  rw [receiveFrames, hr]

theorem receiveFrames_eq_ok {d d' d'' : FrameDecoder} {t t' t'' : Transport} {frame : Frame} {n : Nat}
    (h : receiveFrame d t = (.ok frame, d', t')) :
    receiveFrames (n + 1) d t = .ok (frames, d'', t'') ↔
      ∃ later, receiveFrames n d' t' = .ok (later, d'', t'') ∧ frame :: later = frames := by
  rw [receiveFrames, h]
  dsimp only
  cases receiveFrames n d' t' with
  | error e => simp [bind, Except.bind]
  | ok result =>
    obtain ⟨later, d, t⟩ := result
    simp only [bind, Except.bind, pure, Except.pure, Except.ok.injEq, Prod.mk.injEq]
    constructor
    · rintro ⟨rfl, rfl, rfl⟩
      exact ⟨later, ⟨rfl, rfl, rfl⟩, rfl⟩
    · rintro ⟨later', ⟨rfl, rfl, rfl⟩, rfl⟩
      exact ⟨rfl, rfl, rfl⟩

/-- No more calls succeed than frames are to come. -/
theorem Awaits.length_le (h : Awaits limits buffer chunks frames)
    (hne : ∀ chunk ∈ chunks, chunk ≠ []) {n : Nat} {d : FrameDecoder} {t : Transport}
    (hr : receiveFrames n ⟨limits, buffer⟩ (chunks.map .ok) = .ok (found, d, t)) :
    n ≤ frames.length := by
  induction chunks generalizing buffer frames n found with
  | nil =>
    cases n with
    | zero => exact Nat.zero_le _
    | succ n =>
      rw [List.map_nil, receiveFrames_of_error h.next_ended] at hr
      cases hr
  | cons chunk chunks ih =>
    cases n with
    | zero => exact Nat.zero_le _
    | succ n =>
      obtain ⟨hchunk, htail⟩ := List.forall_mem_cons.mp hne
      by_cases hroom : buffer.length + chunk.length ≤ FrameDecoder.bound limits
      · have hnext := h.next hchunk
        cases harrived : Framing.arrived Frame.size frames (buffer.length + chunk.length) with
        | nil =>
          obtain ⟨left, hfeed, -, hleft⟩ := h.feed hroom harrived
          rw [hfeed] at hnext
          rw [receiveFrames_congr hnext] at hr
          exact ih hleft htail hr
        | cons frame others =>
          obtain ⟨left, hfeed, -, hleft⟩ := h.feed hroom harrived
          rw [hfeed] at hnext
          obtain ⟨later, hlater, -⟩ := (receiveFrames_eq_ok hnext).mp hr
          have hle := ih hleft htail hlater
          have hsplit := congrArg List.length
            (@Framing.arrived_append_drop _ Frame.size frames (buffer.length + chunk.length))
          rw [harrived, List.length_append, List.length_cons] at hsplit
          rw [List.length_cons] at hle
          omega
      · rw [receiveFrames_of_error (h.next_full hchunk (by omega))] at hr
        cases hr

/-- Between two calls: the frames to come are all received exactly if the chunks to come are spaced
out. -/
theorem Awaits.receives_iff (h : Awaits limits buffer chunks frames)
    (hne : ∀ chunk ∈ chunks, chunk ≠ []) :
    Receives ⟨limits, buffer⟩ (chunks.map .ok) frames ↔
      Framing.Spaced Frame.size (FrameDecoder.bound limits) frames buffer.length chunks := by
  induction chunks generalizing buffer frames with
  | nil =>
    obtain ⟨-, rfl⟩ := h.ended
    exact iff_of_true ⟨_, _, rfl, h.next_ended⟩ trivial
  | cons chunk chunks ih =>
    obtain ⟨hchunk, htail⟩ := List.forall_mem_cons.mp hne
    obtain ⟨n, hn⟩ : ∃ n, frames.length = n + 1 := by
      cases frames with
      | nil =>
        have hnil := h.stream
        simp [hchunk] at hnil
      | cons frame frames => exact ⟨_, rfl⟩
    have hnext := h.next hchunk
    by_cases hroom : buffer.length + chunk.length ≤ FrameDecoder.bound limits
    · have hsplit := @Framing.arrived_append_drop _ Frame.size frames (buffer.length + chunk.length)
      cases harrived : Framing.arrived Frame.size frames (buffer.length + chunk.length) with
      | nil =>
        obtain ⟨left, hfeed, hlen, hleft⟩ := h.feed hroom harrived
        rw [hfeed] at hnext
        have hrest := ih hleft htail
        rw [hlen, List.length_nil, List.drop_zero] at hrest
        simp only [Framing.Spaced, harrived, hroom, true_and, List.length_nil, Nat.zero_le,
          List.drop_zero]
        rw [← hrest, Receives, Receives, hn, receiveFrames_congr hnext]
      | cons frame others =>
        obtain ⟨left, hfeed, hlen, hleft⟩ := h.feed hroom harrived
        rw [hfeed] at hnext
        rw [harrived] at hsplit
        cases others with
        | nil =>
          have hrest := ih hleft htail
          rw [hlen] at hrest
          simp only [Framing.Spaced, harrived, hroom, true_and, List.length_cons, List.length_nil,
            Nat.zero_add, Nat.le_refl]
          rw [List.length_cons, List.length_nil, Nat.zero_add] at hrest hsplit
          have hlater : (frames.drop 1).length = n := by
            rw [List.length_drop, hn, Nat.add_sub_cancel]
          rw [← hrest, Receives, Receives, hn, hlater]
          refine exists_congr fun d => exists_congr fun t => and_congr_left' ?_
          rw [receiveFrames_eq_ok hnext]
          constructor
          · rintro ⟨later, hr, rfl⟩
            exact hr
          · exact fun hr => ⟨_, hr, hsplit⟩
        | cons second others =>
          refine iff_of_false (fun ⟨d, t, hr, _⟩ => ?_) fun hs => ?_
          · rw [hn] at hr
            obtain ⟨later, hlater, -⟩ := (receiveFrames_eq_ok hnext).mp hr
            have hle := hleft.length_le htail hlater
            have hlengths := congrArg List.length hsplit
            rw [List.length_append, hn] at hlengths
            simp only [List.length_cons] at hle hlengths
            omega
          · have hone := hs.2.1
            rw [harrived] at hone
            simp at hone
    · refine iff_of_false (fun hr => ?_) fun hs => hroom hs.1
      obtain ⟨d, t, hr, -⟩ := hr
      rw [hn, receiveFrames_of_error (h.next_full hchunk (by omega))] at hr
      cases hr

end Pending

/-- However the bytes of valid frames are split into chunks, all frames are received in order, each
once, exactly if every chunk finds room in the decoder and completes at most one frame. -/
theorem frames_received_iff {limits : RegistryLimits} {frames : List Frame}
    {encoded chunks : List (List UInt8)}
    (h : List.Forall₂ (fun frame bytes => encodeFrame limits frame = .ok bytes) frames encoded)
    (hcount : ∀ frame ∈ frames, frame.payload.length < 2 ^ 32)
    (hs : chunks.flatten = encoded.flatten) (hne : ∀ chunk ∈ chunks, chunk ≠ []) :
    Receives ⟨limits, []⟩ (chunks.map .ok) frames ↔
      Framing.Spaced Frame.size (FrameDecoder.bound limits) frames 0 chunks := by
  obtain ⟨hframes, hbytes⟩ := encoded_eq h
  have hstart : Awaits limits [] chunks frames :=
    { whole := fun frame hf => ⟨(hframes frame hf).2, (hframes frame hf).1, hcount frame hf⟩
      stream := hs.trans hbytes
      pending := Framing.pending_zero
      room := Nat.zero_le _ }
  exact hstart.receives_iff hne

namespace Sample

def heartbeat : Frame := { type := .heartbeat, payload := [7] }

end Sample

open Sample in
theorem frames_received_heartbeats :
    Receives ⟨{}, []⟩ ([frameBytes heartbeat, frameBytes heartbeat].map .ok)
      [heartbeat, heartbeat] := by
  have haccepted : encodeFrame {} heartbeat = .ok (frameBytes heartbeat) := by decide +kernel
  refine (frames_received_iff (.cons haccepted (.cons haccepted .nil)) (by decide) rfl ?_).mpr ?_
  · decide +kernel
  · refine ⟨?_, ?_, ?_, ?_, trivial⟩ <;> decide +kernel

/-- A connection that closes in the middle of a frame ends in an error. -/
example : (receiveFrame ⟨{}, []⟩
    [.ok ((frameBytes Sample.heartbeat).take kFrameHeaderSize), .ok []]).1.toBool = false := by
  decide +kernel

open Sample in
/-- Of two frames that come in one chunk the second is lost. -/
theorem second_frame_is_lost :
    ¬ ∀ (limits : RegistryLimits) (frames : List Frame) (encoded chunks : List (List UInt8)),
      List.Forall₂ (fun frame bytes => encodeFrame limits frame = .ok bytes) frames encoded →
      chunks.flatten = encoded.flatten → (∀ chunk ∈ chunks, chunk ≠ []) →
      Receives ⟨limits, []⟩ (chunks.map .ok) frames := by
  intro h
  have haccepted : encodeFrame {} heartbeat = .ok (frameBytes heartbeat) := by decide +kernel
  obtain ⟨d, t, hr, -⟩ := h {} [heartbeat, heartbeat] _ [frameBytes heartbeat ++ frameBytes heartbeat]
    (.cons haccepted (.cons haccepted .nil)) (by simp) (by decide +kernel)
  have hfails : (receiveFrames 2 ⟨{}, []⟩
      [.ok (frameBytes heartbeat ++ frameBytes heartbeat)]).toBool = false := by
    decide +kernel
  have hok := congrArg Except.toBool hr
  exact Bool.false_ne_true (hfails.symm.trans hok)

end CapabilityRegistry
