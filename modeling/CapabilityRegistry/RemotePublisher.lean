import CapabilityRegistry.Frames
import CapabilityRegistry.Messages
import CapabilityRegistry.State

/-! A publisher at the other end of a connection: how it registers, what it sends and how it numbers
it, whatever its peer answers. -/
namespace CapabilityRegistry
open Std.Do

set_option mvcgen.warning false

def ApplyCode.toText : ApplyCode → Text
  | .accepted => "accepted"
  | .acceptedIdempotent => "accepted-idempotent"
  | .rejectedValidation => "rejected-validation"
  | .rejectedUnknownPublisher => "rejected-unknown-publisher"
  | .rejectedFencedPublisher => "rejected-fenced-publisher"
  | .rejectedStaleBoot => "rejected-stale-boot"
  | .rejectedStaleEpoch => "rejected-stale-epoch"
  | .rejectedStaleSequence => "rejected-stale-sequence"
  | .rejectedGenerationRegression => "rejected-generation-regression"
  | .rejectedDuplicateConflict => "rejected-duplicate-conflict"
  | .rejectedStaleDeviceGeneration => "rejected-stale-device-generation"
  | .rejectedStaleCapabilityGeneration => "rejected-stale-capability-generation"
  | .rejectedUnknownDevice => "rejected-unknown-device"
  | .rejectedUnknownSchema => "rejected-unknown-schema"
  | .rejectedLimit => "rejected-limit"
  | .rejectedBackpressure => "rejected-backpressure"
  | .rejectedShuttingDown => "rejected-shutting-down"
  | .rejectedWithdrawnSubject => "rejected-withdrawn-subject"
  | .rejectedInvariant => "rejected-invariant"

structure PublisherConfig where
  publisher : PublisherId := default
  adapter : Text := []
  agent : Text := "hcr-publisher"
  nonce : UInt64 := 0
  limits : RegistryLimits := {}

/-- The numbers of evidence and of frames outlive a connection. -/
structure CapabilityPublisher where
  config : PublisherConfig
  identity : PublisherIdentity := {}
  epoch : CoordinatorEpoch := default
  sequence : UInt64 := 0
  evidenceGeneration : EvidenceGeneration := .first
  correlation : UInt64 := 0
  registered : Bool := false

/-- What is at the other end. It takes connections, and it answers a frame or fails to. -/
structure Peer (σ : Type) where
  opens : σ → Status × σ
  answers : σ → Frame → Except Error Frame × σ

structure Conversation (σ : Type) where
  publisher : CapabilityPublisher
  peer : σ

/-- A publisher at work. What fails keeps what was done before. -/
abbrev Talk (σ α : Type) := ExceptT Error (StateM (Conversation σ)) α

/-- The payload of an answer. An error that carries the code of success passes for an answer. -/
def receive (limits : RegistryLimits) (expected : MessageType) (answer : Frame) :
    Except Error (List UInt8) :=
  if answer.type = .errorResponse then
    match decodeErrorMessage limits answer.payload with
    | .error e => .error e
    | .ok error =>
      if error.code = .ok then .ok answer.payload else .error ⟨error.code, error.message⟩
  else if answer.type ≠ expected then
    .error ⟨.protocolError, "expected " ++ expected.toText ++ (" but received " : Text) ++
      answer.type.toText⟩
  else .ok answer.payload

def greeted (limits : RegistryLimits) (payload : List UInt8) : Except Error WelcomeMessage := do
  let welcome ← decodeWelcome limits payload
  require (welcome.protocolVersion == protocolVersion.toUInt32) .unsupportedVersion
    ("coordinator protocol version " ++ decimal welcome.protocolVersion.toNat ++
      (" is not supported" : Text))
  pure welcome

def enrolled (limits : RegistryLimits) (payload : List UInt8) :
    Except Error PublisherAcceptedMessage := do
  let accepted ← decodePublisherAccepted limits payload
  require (applyCodeAccepted accepted.code) .unknownPublisher
    ("publisher registration rejected: " ++ accepted.code.toText ++ (": " : Text) ++
      accepted.detail)
  pure accepted

namespace CapabilityPublisher

/-- A publication is sent under the identity of the connection, with a number of its own. -/
def bind (p : CapabilityPublisher) (now : Timestamp) (publication : Publication) : Publication :=
  { publication with
    publisher := p.identity
    sequence := p.sequence
    evidenceGeneration := if publication.evidenceGeneration.valid then
        publication.evidenceGeneration
      else p.evidenceGeneration
    issuedAtUtc := if publication.issuedAtUtc.isEmpty then now.val else publication.issuedAtUtc }

def hello (config : PublisherConfig) : HelloMessage where
  protocolVersion := protocolVersion.toUInt32
  agent := config.agent
  role := "publisher"
  nonce := config.nonce

def registration (config : PublisherConfig) : RegisterPublisherMessage where
  identity := { id := config.publisher }
  adapter := config.adapter
  agent := config.agent

variable {σ : Type} (peer : Peer σ)

def nextSequence : StateM (Conversation σ) Unit :=
  modify fun talk => { talk with publisher.sequence := talk.publisher.sequence + 1 }

def connectLoopback : Talk σ Unit := do
  let talk ← get
  let (status, after) := peer.opens talk.peer
  set { talk with peer := after }
  MonadExcept.ofExcept status

/-- `send` and then `receive`. That the answer repeats the correlation of the frame is not
checked. -/
def exchange (type : MessageType) (payload : List UInt8) (expected : MessageType) :
    Talk σ (List UInt8) := do
  modify fun talk => { talk with publisher.correlation := talk.publisher.correlation + 1 }
  let talk ← get
  let frame : Frame := { type, correlation := talk.publisher.correlation, payload }
  let _ ← MonadExcept.ofExcept (encodeFrame talk.publisher.config.limits frame)
  let (answer, after) := peer.answers talk.peer frame
  set { talk with peer := after }
  let answer ← MonadExcept.ofExcept answer
  MonadExcept.ofExcept (receive talk.publisher.config.limits expected answer)

def connectAndRegister : Talk σ Unit := do
  let config := (← get).publisher.config
  let _ ← MonadExcept.ofExcept (require config.publisher.valid .invalidIdentity
    "publisher requires a canonical publisher identity")
  connectLoopback peer
  let payload ← MonadExcept.ofExcept (encodeHello config.limits (hello config))
  let answer ← exchange peer .hello payload .welcome
  let welcome ← MonadExcept.ofExcept (greeted config.limits answer)
  modify fun talk => { talk with publisher.epoch := welcome.epoch }
  let payload ← MonadExcept.ofExcept (encodeRegisterPublisher config.limits (registration config))
  let answer ← exchange peer .registerPublisher payload .publisherAccepted
  let accepted ← MonadExcept.ofExcept (enrolled config.limits answer)
  modify fun talk => { talk with
    publisher.identity := accepted.identity
    publisher.epoch := accepted.epoch
    publisher.registered := true }

def ensurePublisher (identity : PublisherIdentity) : StateM (Conversation σ) ApplyResult := do
  let status ← if (← get).publisher.registered then pure (.ok ()) else (connectAndRegister peer).run
  let p := (← get).publisher
  match status with
  | .error e => return .of .rejectedUnknownPublisher e.describe
  | .ok () =>
    if identity.id.valid && identity.id != p.identity.id then
      return .of .rejectedUnknownPublisher
        ("publisher is already registered as " ++ p.identity.id.str)
    else
      return { code := .accepted, assignedPublisher := p.identity
               detail := "publisher identity confirmed by the coordinator" }

/-- What the acceptance of a publication tells. -/
def resultOf (bound : Publication) (accepted : PublicationAcceptedMessage) : ApplyResult where
  code := accepted.code
  detail := accepted.detail
  mutated := accepted.code == .accepted
  deviceGeneration := if accepted.deviceGeneration.valid then accepted.deviceGeneration
    else bound.capability.deviceGeneration
  deviceBoot := if accepted.deviceBoot.valid then accepted.deviceBoot
    else bound.capability.deviceBoot

def publish (now : Timestamp) (publication : Publication) :
    StateM (Conversation σ) ApplyResult := do
  if !(← get).publisher.registered then
    return .of .rejectedUnknownPublisher "publisher is not registered with a coordinator"
  nextSequence
  let p := (← get).publisher
  let bound := p.bind now publication
  match encodePublication p.config.limits bound with
  | .error e => return .of .rejectedValidation e.describe
  | .ok payload =>
    match ← (exchange peer .publication payload .publicationAccepted).run with
    | .error e => return .of .rejectedUnknownPublisher e.describe
    | .ok answer =>
      match decodePublicationAccepted p.config.limits answer with
      | .error e => return .of .rejectedValidation e.describe
      | .ok accepted => return resultOf bound accepted

def heartbeat : StateM (Conversation σ) ApplyResult := do
  if !(← get).publisher.registered then
    return .of .rejectedUnknownPublisher "publisher is not registered with a coordinator"
  nextSequence
  let p := (← get).publisher
  match encodeHeartbeat { sequence := p.sequence, identity := p.identity } with
  | .error e => return .of .rejectedValidation e.describe
  | .ok payload =>
    match ← (exchange peer .heartbeat payload .heartbeatAccepted).run with
    | .error e =>
      modify fun talk => { talk with publisher.registered := false }
      return .of .rejectedUnknownPublisher e.describe
    | .ok _ =>
      return { code := .accepted, detail := "heartbeat acknowledged"
               assignedPublisher := p.identity }

/-- A call of the publisher. -/
inductive Call
  | connectAndRegister
  | ensurePublisher (identity : PublisherIdentity)
  | publish (now : Timestamp) (publication : Publication)
  | heartbeat
  | nextSequence
  | nextEvidenceGeneration

def nextEvidenceGeneration : StateM (Conversation σ) Unit :=
  modify fun talk => { talk with
    publisher.evidenceGeneration := if talk.publisher.evidenceGeneration.valid then
        talk.publisher.evidenceGeneration.next
      else .first }

def perform : Call → StateM (Conversation σ) Unit
  | .connectAndRegister => do
    let _ ← (connectAndRegister peer).run
  | .ensurePublisher identity => do
    let _ ← ensurePublisher peer identity
  | .publish now publication => do
    let _ ← publish peer now publication
  | .heartbeat => do
    let _ ← heartbeat peer
  | .nextSequence => nextSequence
  | .nextEvidenceGeneration => nextEvidenceGeneration

def run (calls : List Call) (talk : Conversation σ) : Conversation σ :=
  calls.foldl (fun talk call => ((perform peer call).run talk).2) talk

end CapabilityPublisher

/-- What passes over the connections of a publisher. -/
inductive Traffic
  | opened (status : Status)
  | sent (frame : Frame) (answer : Except Error Frame)

/-- A peer together with a record of what passed. -/
def Peer.recorded {σ : Type} (peer : Peer σ) : Peer (σ × List Traffic) where
  opens s :=
    let (status, after) := peer.opens s.1
    (status, after, s.2 ++ [.opened status])
  answers s frame :=
    let (answer, after) := peer.answers s.1 frame
    (answer, after, s.2 ++ [.sent frame answer])

/-- How far the handshake of a connection has come. -/
inductive Phase
  | idle | opened | greeted

/-- What a record of events amounts to: the phase, the identity that was granted last, and the last
numbers of evidence and of frames. -/
structure Stage where
  phase : Phase := .idle
  identity : Option PublisherIdentity := none
  number : UInt64 := 0
  correlation : UInt64 := 0

def welcomed (limits : RegistryLimits) (answer : Except Error Frame) :
    Except Error WelcomeMessage :=
  answer >>= receive limits .welcome >>= greeted limits

def granted (limits : RegistryLimits) (answer : Except Error Frame) :
    Except Error PublisherAcceptedMessage :=
  answer >>= receive limits .publisherAccepted >>= enrolled limits

/-- The protocol as a publisher has to keep it. A connection begins with a greeting, and asks for an
identity only once it was greeted back. Evidence goes out under the identity granted last, with a
number that no evidence had before. -/
inductive Protocol (config : PublisherConfig) : Stage → Traffic → Stage → Prop
  | refused (st : Stage) (e : Error) : Protocol config st (.opened (.error e)) st
  | opened (st : Stage) : Protocol config st (.opened (.ok ())) { st with phase := .opened }
  | hello (st : Stage) (correlation : UInt64) (payload : List UInt8)
      (answer : Except Error Frame) (phase : st.phase = .opened)
      (encoded : encodeHello config.limits (CapabilityPublisher.hello config) = .ok payload)
      (fresh : st.correlation < correlation) :
    Protocol config st (.sent { type := .hello, correlation, payload } answer)
      { st with
        phase := if (welcomed config.limits answer).toOption.isSome then .greeted else .idle
        correlation }
  | register (st : Stage) (correlation : UInt64) (payload : List UInt8)
      (answer : Except Error Frame) (phase : st.phase = .greeted)
      (encoded : encodeRegisterPublisher config.limits (CapabilityPublisher.registration config) =
        .ok payload)
      (fresh : st.correlation < correlation) :
    Protocol config st (.sent { type := .registerPublisher, correlation, payload } answer)
      { st with
        phase := .idle
        identity := ((granted config.limits answer).toOption.map (·.identity)).or st.identity
        correlation }
  | publication (st : Stage) (correlation : UInt64) (payload : List UInt8)
      (answer : Except Error Frame) (bound : Publication)
      (identity : st.identity = some bound.publisher)
      (encoded : encodePublication config.limits bound = .ok payload)
      (number : st.number < bound.sequence) (fresh : st.correlation < correlation) :
    Protocol config st (.sent { type := .publication, correlation, payload } answer)
      { st with number := bound.sequence, correlation }
  | heartbeat (st : Stage) (correlation : UInt64) (payload : List UInt8)
      (answer : Except Error Frame) (message : HeartbeatMessage)
      (identity : st.identity = some message.identity)
      (encoded : encodeHeartbeat message = .ok payload)
      (number : st.number < message.sequence) (fresh : st.correlation < correlation) :
    Protocol config st (.sent { type := .heartbeat, correlation, payload } answer)
      { st with number := message.sequence, correlation }

/-- A record of events that keeps the protocol. -/
inductive Conforms (config : PublisherConfig) : List Traffic → Stage → Prop
  | start : Conforms config [] {}
  | step (events : List Traffic) (st st' : Stage) (event : Traffic)
      (before : Conforms config events st) (next : Protocol config st event st') :
    Conforms config (events ++ [event]) st'

namespace CapabilityPublisher
variable {σ : Type} {peer : Peer σ} {config : PublisherConfig}

section Steps
variable {talk talk' : Conversation (σ × List Traffic)} {type expected : MessageType}
  {payload : List UInt8} {answer : Except Error Frame} {st st' : Stage} {k : Nat}

/-- A frame went out and was answered. -/
structure Said (type : MessageType) (payload : List UInt8) (answer : Except Error Frame)
    (talk talk' : Conversation (σ × List Traffic)) : Prop where
  publisher : talk'.publisher =
    { talk.publisher with correlation := talk.publisher.correlation + 1 }
  record : talk'.peer.2 = talk.peer.2 ++
    [.sent { type, correlation := talk.publisher.correlation + 1, payload } answer]

/-- A frame was too large to go out. -/
structure Withheld (talk talk' : Conversation (σ × List Traffic)) : Prop where
  publisher : talk'.publisher =
    { talk.publisher with correlation := talk.publisher.correlation + 1 }
  record : talk'.peer.2 = talk.peer.2

/-- What the frames of a handshake leave of a publisher. -/
structure Same (p p' : CapabilityPublisher) : Prop where
  registered : p'.registered = p.registered
  identity : p'.identity = p.identity
  sequence : p'.sequence = p.sequence

theorem Same.trans {p p' p'' : CapabilityPublisher} (h : Same p p') (h' : Same p' p'') :
    Same p p'' :=
  ⟨h'.registered.trans h.registered, h'.identity.trans h.identity, h'.sequence.trans h.sequence⟩

theorem Said.same (h : Said type payload answer talk talk') :
    Same talk.publisher talk'.publisher := by
  rw [h.publisher]
  exact ⟨rfl, rfl, rfl⟩

theorem Withheld.same (h : Withheld talk talk') : Same talk.publisher talk'.publisher := by
  rw [h.publisher]
  exact ⟨rfl, rfl, rfl⟩

@[spec]
theorem exchange_spec (type : MessageType) (payload : List UInt8) (expected : MessageType) :
    ⦃fun s => ⌜s = talk⌝⦄ exchange peer.recorded type payload expected
    ⦃post⟨fun found s => ⌜∃ answer, Said type payload answer talk s ∧
        answer >>= receive talk.publisher.config.limits expected = .ok found⌝,
      fun e s => ⌜Withheld talk s ∨ ∃ answer, Said type payload answer talk s ∧
        answer >>= receive talk.publisher.config.limits expected = .error e⌝⟩⦄ := by
  mvcgen [exchange, MonadExcept.ofExcept]
  · rename_i hs _ _ _ _ answer ha _ hr
    subst hs
    exact ⟨.ok answer, ⟨rfl, by rw [← ha]; rfl⟩, hr⟩
  · rename_i hs _ _ _ _ answer ha _ hr
    subst hs
    exact .inr ⟨.ok answer, ⟨rfl, by rw [← ha]; rfl⟩, hr⟩
  · rename_i hs _ _ _ _ e ha
    subst hs
    exact .inr ⟨.error e, ⟨rfl, by rw [← ha]; rfl⟩, rfl⟩
  · rename_i hs _ _ _ _
    subst hs
    exact .inl ⟨rfl, rfl⟩

@[spec]
theorem connectLoopback_spec :
    ⦃fun s => ⌜s = talk⌝⦄ connectLoopback peer.recorded
    ⦃post⟨fun _ s => ⌜s.publisher = talk.publisher ∧
        s.peer.2 = talk.peer.2 ++ [.opened (.ok ())]⌝,
      fun e s => ⌜s.publisher = talk.publisher ∧
        s.peer.2 = talk.peer.2 ++ [.opened (.error e)]⌝⟩⦄ := by
  mvcgen [connectLoopback, MonadExcept.ofExcept]
  · rename_i hs _ ho
    subst hs
    exact ⟨rfl, by rw [← ho]; rfl⟩
  · rename_i hs _ ho
    subst hs
    exact ⟨rfl, by rw [← ho]; rfl⟩

/-- The record of a conversation keeps the protocol, its frames are numbered no further than the
publisher has counted, and that is no further than this. -/
structure Between (config : PublisherConfig) (n : Nat) (st : Stage)
    (talk : Conversation (σ × List Traffic)) : Prop where
  configured : talk.publisher.config = config
  record : Conforms config talk.peer.2 st
  correlation : st.correlation ≤ talk.publisher.correlation
  counted : talk.publisher.correlation.toNat ≤ n

/-- After so many calls a publisher that is registered has the identity granted last, and has
counted every number that it sent. -/
structure Stands (config : PublisherConfig) (k : Nat) (st : Stage)
    (talk : Conversation (σ × List Traffic)) : Prop where
  between : Between config (2 * k) st talk
  identity : talk.publisher.registered = true → st.identity = some talk.publisher.identity
  number : st.number ≤ talk.publisher.sequence
  numbered : talk.publisher.sequence.toNat ≤ k

theorem toNat_succ {n : UInt64} {m : Nat} (h : n.toNat ≤ m) (hroom : m + 1 < 2 ^ 64) :
    (n + 1).toNat = n.toNat + 1 := by
  rw [UInt64.toNat_add, UInt64.toNat_one, Nat.mod_eq_of_lt (by omega)]

theorem lt_succ {n m : UInt64} {k : Nat} (h : n ≤ m) (hm : m.toNat ≤ k)
    (hroom : k + 1 < 2 ^ 64) : n < m + 1 := by
  rw [UInt64.lt_iff_toNat_lt, toNat_succ hm hroom]
  exact Nat.lt_succ_of_le (UInt64.le_iff_toNat_le.mp h)

theorem Between.mono {n m : Nat} (h : Between config n st talk) (hle : n ≤ m) :
    Between config m st talk :=
  ⟨h.configured, h.record, h.correlation, h.counted.trans hle⟩

theorem Between.opened {n : Nat} (h : Between config n st talk)
    (hp : talk'.publisher = talk.publisher)
    (hr : talk'.peer.2 = talk.peer.2 ++ [.opened (.ok ())]) :
    Between config n { st with phase := .opened } talk' :=
  ⟨hp ▸ h.configured, hr ▸ .step _ _ _ _ h.record (.opened st), hp ▸ h.correlation, hp ▸ h.counted⟩

theorem Between.unopened {n : Nat} {e : Error} (h : Between config n st talk)
    (hp : talk'.publisher = talk.publisher)
    (hr : talk'.peer.2 = talk.peer.2 ++ [.opened (.error e)]) : Between config n st talk' :=
  ⟨hp ▸ h.configured, hr ▸ .step _ _ _ _ h.record (.refused st e), hp ▸ h.correlation, hp ▸ h.counted⟩

theorem Between.withheld {n : Nat} (h : Between config n st talk) (hw : Withheld talk talk')
    (hroom : n + 1 < 2 ^ 64) : Between config (n + 1) st talk' := by
  refine ⟨?_, hw.record ▸ h.record, ?_, ?_⟩
  · rw [hw.publisher, ← h.configured]
  · rw [hw.publisher]
    exact UInt64.le_of_lt (lt_succ h.correlation h.counted hroom)
  · rw [hw.publisher]
    exact (toNat_succ h.counted hroom).trans_le (Nat.succ_le_succ h.counted)

/-- A frame that the protocol permits goes out under a fresh correlation. -/
theorem Between.said {n : Nat} (h : Between config n st talk)
    (hs : Said type payload answer talk talk') (hroom : n + 1 < 2 ^ 64)
    (hnext : st.correlation < talk.publisher.correlation + 1 → Protocol config st
      (.sent { type, correlation := talk.publisher.correlation + 1, payload } answer) st')
    (hcorrelation : st'.correlation = talk.publisher.correlation + 1) :
    Between config (n + 1) st' talk' := by
  refine ⟨?_, ?_, ?_, ?_⟩
  · rw [hs.publisher, ← h.configured]
  · rw [hs.record]
    exact .step _ _ _ _ h.record (hnext (lt_succ h.correlation h.counted hroom))
  · rw [hs.publisher, hcorrelation]
    exact UInt64.le_refl _
  · rw [hs.publisher]
    exact (toNat_succ h.counted hroom).trans_le (Nat.succ_le_succ h.counted)

theorem Between.greets {n : Nat} (h : Between config n st talk) (hphase : st.phase = .opened)
    (henc : encodeHello config.limits (hello config) = .ok payload)
    (hs : Said .hello payload answer talk talk') (hroom : n + 1 < 2 ^ 64) :
    Between config (n + 1)
      { st with
        phase := if (welcomed config.limits answer).toOption.isSome then .greeted else .idle
        correlation := talk.publisher.correlation + 1 } talk' :=
  h.said hs hroom (fun hfresh => .hello st _ payload answer hphase henc hfresh) rfl

theorem Between.registers {n : Nat} (h : Between config n st talk) (hphase : st.phase = .greeted)
    (henc : encodeRegisterPublisher config.limits (registration config) = .ok payload)
    (hs : Said .registerPublisher payload answer talk talk') (hroom : n + 1 < 2 ^ 64) :
    Between config (n + 1)
      { st with
        phase := .idle
        identity := ((granted config.limits answer).toOption.map (·.identity)).or st.identity
        correlation := talk.publisher.correlation + 1 } talk' :=
  h.said hs hroom (fun hfresh => .register st _ payload answer hphase henc hfresh) rfl

/-- What a call that grants nothing and numbers nothing leaves. -/
theorem Stands.idle {k : Nat} (h : Stands config k st talk)
    (hb : Between config (2 * (k + 1)) st' talk') (hi : st'.identity = st.identity)
    (hn : st'.number = st.number) (hsame : Same talk.publisher talk'.publisher) :
    Stands config (k + 1) st' talk' := by
  refine ⟨hb, ?_, ?_, ?_⟩
  · rw [hsame.registered, hi, hsame.identity]
    exact h.identity
  · rw [hn, hsame.sequence]
    exact h.number
  · rw [hsame.sequence]
    exact h.numbered.trans (Nat.le_succ k)

theorem welcomed_of_ok {limits : RegistryLimits} {found : List UInt8}
    (h : answer >>= receive limits .welcome = .ok found) :
    welcomed limits answer = greeted limits found := by
  rw [welcomed, h]
  rfl

theorem granted_of_ok {limits : RegistryLimits} {found : List UInt8}
    (h : answer >>= receive limits .publisherAccepted = .ok found) :
    granted limits answer = enrolled limits found := by
  rw [granted, h]
  rfl

theorem granted_of_error {limits : RegistryLimits} {e : Error}
    (h : answer >>= receive limits .publisherAccepted = .error e) :
    granted limits answer = .error e := by
  rw [granted, h]
  rfl

theorem Stands.later {k : Nat} (h : Stands config k st talk) : Stands config (k + 1) st talk :=
  ⟨h.between.mono (by omega), h.identity, h.number, h.numbered.trans (Nat.le_succ k)⟩

/-- A connection whose greeting went out. -/
theorem Stands.greeted {k : Nat} {s₁ s₂ : Conversation (σ × List Traffic)}
    (h : Stands talk.publisher.config k st talk) (hroom : 2 * k + 2 < 2 ^ 64)
    (ho : s₁.publisher = talk.publisher ∧ s₁.peer.2 = talk.peer.2 ++ [.opened (.ok ())])
    (henc : encodeHello talk.publisher.config.limits (hello talk.publisher.config) = .ok payload)
    (hs : Said .hello payload answer s₁ s₂) :
    Between talk.publisher.config (2 * k + 1)
      { st with
        phase := if (welcomed talk.publisher.config.limits answer).toOption.isSome then .greeted
          else .idle
        correlation := s₁.publisher.correlation + 1 } s₂ ∧
      Same talk.publisher s₂.publisher :=
  ⟨(h.between.opened ho.1 ho.2).greets rfl henc hs (by omega), ho.1 ▸ hs.same⟩

/-- A connection whose greeting was returned. -/
theorem Stands.welcomed {k : Nat} {s₁ s₂ : Conversation (σ × List Traffic)} {found : List UInt8}
    {welcome : WelcomeMessage} (h : Stands talk.publisher.config k st talk)
    (hroom : 2 * k + 2 < 2 ^ 64)
    (ho : s₁.publisher = talk.publisher ∧ s₁.peer.2 = talk.peer.2 ++ [.opened (.ok ())])
    (henc : encodeHello talk.publisher.config.limits (hello talk.publisher.config) = .ok payload)
    (hsaid : ∃ answer, Said .hello payload answer s₁ s₂ ∧
      answer >>= receive s₁.publisher.config.limits .welcome = .ok found)
    (hgreet : CapabilityRegistry.greeted talk.publisher.config.limits found = .ok welcome)
    (epoch : CoordinatorEpoch) :
    ∃ st', st'.phase = .greeted ∧ st'.identity = st.identity ∧ st'.number = st.number ∧
      Between talk.publisher.config (2 * k + 1) st' { s₂ with publisher.epoch := epoch } ∧
      Same talk.publisher { s₂.publisher with epoch } := by
  obtain ⟨answer, hsaid, hanswer⟩ := hsaid
  obtain ⟨hb, hsame⟩ := h.greeted hroom ho henc hsaid
  rw [ho.1] at hanswer
  have hphase := (welcomed_of_ok hanswer).trans hgreet
  refine ⟨_, ?_, ?_, ?_, ⟨hb.configured, hb.record, hb.correlation, hb.counted⟩,
    ⟨hsame.registered, hsame.identity, hsame.sequence⟩⟩
  · exact if_pos (by rw [hphase]; rfl)
  · rfl
  · rfl

theorem connectAndRegister_spec {k : Nat} (h : Stands config k st talk)
    (hroom : 2 * k + 2 < 2 ^ 64) :
    ⦃fun s => ⌜s = talk⌝⦄ connectAndRegister peer.recorded
    ⦃post⟨fun _ s => ⌜∃ st, Stands config (k + 1) st s⌝,
      fun _ s => ⌜∃ st, Stands config (k + 1) st s⌝⟩⦄ := by
  obtain rfl := h.between.configured
  mvcgen [connectAndRegister, MonadExcept.ofExcept]
  · -- the registration was accepted
    rename_i s₀ hs config _ _ _ s₁ ho payload henc _ s₂ hsaid welcome hgreet t₁ payload' henc' _ s₃
      hsaid' accepted hadmit t₂
    subst hs
    obtain ⟨st', hphase, hi, hn, hb, hsame⟩ :=
      h.welcomed hroom ho henc hsaid hgreet welcome.epoch
    obtain ⟨answer, hsaid, hanswer⟩ := hsaid'
    rw [show t₁.2.publisher.config = config from hb.configured] at hanswer
    have hb₃ := hb.registers hphase henc' hsaid (by omega)
    have hgranted := (granted_of_ok hanswer).trans hadmit
    have hsequence : s₃.publisher.sequence = s₀.publisher.sequence :=
      hsaid.same.sequence.trans hsame.sequence
    refine ⟨_, ⟨hb₃.configured, hb₃.record, hb₃.correlation, hb₃.counted⟩, fun _ => ?_, ?_, ?_⟩
    · rw [hgranted]
      rfl
    · exact hn.trans_le (h.number.trans_eq hsequence.symm)
    · exact (congrArg UInt64.toNat hsequence).trans_le (h.numbered.trans (Nat.le_succ k))
  · -- the registration was turned down
    rename_i s₀ hs config _ _ _ s₁ ho payload henc _ s₂ hsaid welcome hgreet t₁ payload' henc' _ s₃
      hsaid' e hadmit
    subst hs
    obtain ⟨st', hphase, hi, hn, hb, hsame⟩ :=
      h.welcomed hroom ho henc hsaid hgreet welcome.epoch
    obtain ⟨answer, hsaid, hanswer⟩ := hsaid'
    rw [show t₁.2.publisher.config = config from hb.configured] at hanswer
    have hgranted := (granted_of_ok hanswer).trans hadmit
    have hb₃ := hb.registers hphase henc' hsaid (by omega)
    exact ⟨_, h.idle hb₃ (by rw [hgranted]; exact hi) hn (hsame.trans hsaid.same)⟩
  · -- the registration was not answered
    rename_i s₀ hs config _ _ _ s₁ ho payload henc _ s₂ hsaid welcome hgreet t₁ payload' henc' e s₃
    subst hs
    obtain ⟨st', hphase, hi, hn, hb, hsame⟩ :=
      h.welcomed hroom ho henc hsaid hgreet welcome.epoch
    rintro (hw | ⟨answer, hsaid, hanswer⟩)
    · exact ⟨_, h.idle (hb.withheld hw (by omega)) hi hn (hsame.trans hw.same)⟩
    · rw [show t₁.2.publisher.config = config from hb.configured] at hanswer
      have hgranted := granted_of_error hanswer
      have hb₃ := hb.registers hphase henc' hsaid (by omega)
      exact ⟨_, h.idle hb₃ (by rw [hgranted]; exact hi) hn (hsame.trans hsaid.same)⟩
  · -- the greeting was not returned
    rename_i s₀ hs config _ _ _ s₁ ho payload henc _ s₂ hsaid e hgreet
    subst hs
    obtain ⟨answer, hsaid, -⟩ := hsaid
    obtain ⟨hb₂, hsame⟩ := h.greeted hroom ho henc hsaid
    exact ⟨_, h.idle (hb₂.mono (by omega)) rfl rfl hsame⟩
  · -- the greeting was not answered
    rename_i s₀ hs config _ _ _ s₁ ho payload henc e s₂
    subst hs
    rintro (hw | ⟨answer, hsaid, -⟩)
    · have hb₂ := (h.between.opened ho.1 ho.2).withheld hw (by omega)
      exact ⟨_, h.idle (hb₂.mono (by omega)) rfl rfl (ho.1 ▸ hw.same)⟩
    · obtain ⟨hb₂, hsame⟩ := h.greeted hroom ho henc hsaid
      exact ⟨_, h.idle (hb₂.mono (by omega)) rfl rfl hsame⟩
  · -- no connection
    rename_i s₀ hs config _ _ e s₁
    subst hs
    intro hp hr
    exact ⟨st, h.idle ((h.between.unopened hp hr).mono (by omega)) rfl rfl (hp ▸ ⟨rfl, rfl, rfl⟩)⟩
  · rename_i hs _ _ _
    subst hs
    exact ⟨st, h.later⟩

/-- The conversation once the next number of evidence is taken. -/
def taken (talk : Conversation (σ × List Traffic)) : Conversation (σ × List Traffic) :=
  { talk with publisher.sequence := talk.publisher.sequence + 1 }

theorem Between.taken {n : Nat} (h : Between config n st talk) :
    Between config n st (taken talk) := ⟨h.configured, h.record, h.correlation, h.counted⟩

theorem Stands.takes {k : Nat} (h : Stands config k st talk) (hroom : 2 * k + 2 < 2 ^ 64) :
    Stands config (k + 1) st (taken talk) := by
  refine ⟨h.between.taken.mono (by omega), h.identity, ?_, ?_⟩
  · exact UInt64.le_of_lt (lt_succ h.number h.numbered (by omega))
  · exact (toNat_succ h.numbered (by omega)).trans_le (Nat.succ_le_succ h.numbered)

theorem Stands.withholds {k : Nat} (h : Stands config k st talk) (hroom : 2 * k + 2 < 2 ^ 64)
    (hw : Withheld (taken talk) talk') : Stands config (k + 1) st talk' := by
  have htaken := h.takes hroom
  refine ⟨(h.between.taken.withheld hw (by omega)).mono (by omega), ?_, ?_, ?_⟩
  · rw [hw.same.registered, hw.same.identity]
    exact h.identity
  · rw [hw.same.sequence]
    exact htaken.number
  · rw [hw.same.sequence]
    exact htaken.numbered

/-- Evidence goes out with the number just taken. -/
theorem Stands.sends {k : Nat} (h : Stands config k st talk) (hroom : 2 * k + 2 < 2 ^ 64)
    (hs : Said type payload answer (taken talk) talk')
    (hnext : st.number < talk.publisher.sequence + 1 → ∀ correlation,
      st.correlation < correlation → Protocol config st (.sent { type, correlation, payload } answer)
        { st with number := talk.publisher.sequence + 1, correlation }) :
    ∃ st, Stands config (k + 1) st talk' := by
  have hfresh := lt_succ h.number h.numbered (by omega)
  refine ⟨_, (h.between.taken.said hs (by omega) (hnext hfresh _) rfl).mono (by omega), ?_, ?_, ?_⟩
  · rw [hs.same.registered, hs.same.identity]
    exact h.identity
  · rw [hs.same.sequence]
    exact UInt64.le_refl _
  · rw [hs.same.sequence]
    exact (h.takes hroom).numbered

theorem Stands.publishes {k : Nat} {now : Timestamp} {publication : Publication}
    (h : Stands talk.publisher.config k st talk) (hroom : 2 * k + 2 < 2 ^ 64)
    (hregistered : ¬ (!talk.publisher.registered) = true)
    (henc : encodePublication talk.publisher.config.limits
      ((taken talk).publisher.bind now publication) = .ok payload)
    (hs : Said .publication payload answer (taken talk) talk') :
    ∃ st, Stands talk.publisher.config (k + 1) st talk' := by
  rw [Bool.not_eq_true', Bool.not_eq_false] at hregistered
  exact h.sends hroom hs fun hnumber correlation hfresh =>
    .publication st correlation payload answer _ (h.identity hregistered) henc hnumber hfresh

theorem Stands.beats {k : Nat} (h : Stands talk.publisher.config k st talk)
    (hroom : 2 * k + 2 < 2 ^ 64) (hregistered : ¬ (!talk.publisher.registered) = true)
    (henc : encodeHeartbeat ⟨talk.publisher.sequence + 1, talk.publisher.identity⟩ = .ok payload)
    (hs : Said .heartbeat payload answer (taken talk) talk') :
    ∃ st, Stands talk.publisher.config (k + 1) st talk' := by
  rw [Bool.not_eq_true', Bool.not_eq_false] at hregistered
  exact h.sends hroom hs fun hnumber correlation hfresh =>
    .heartbeat st correlation payload answer _ (h.identity hregistered) henc hnumber hfresh

/-- A publisher that finds its connection gone is no longer registered. -/
theorem Stands.leaves {k : Nat} (h : Stands config k st talk) :
    Stands config k st { talk with publisher.registered := false } := by
  refine ⟨⟨h.between.configured, h.between.record, h.between.correlation, h.between.counted⟩,
    fun hf => ?_, h.number, h.numbered⟩
  cases hf

theorem publish_spec {k : Nat} (h : Stands config k st talk) (hroom : 2 * k + 2 < 2 ^ 64)
    (now : Timestamp) (publication : Publication) :
    ⦃fun s => ⌜s = talk⌝⦄ publish peer.recorded now publication
    ⦃⇓ _ s => ⌜∃ st, Stands config (k + 1) st s⌝⦄ := by
  obtain rfl := h.between.configured
  mvcgen [publish, nextSequence]
  · rename_i hs _
    subst hs
    exact ⟨st, h.later⟩
  · rename_i hs _ _ _ _ _ _
    subst hs
    exact ⟨st, h.takes hroom⟩
  · rename_i hs hregistered _ _ _ payload henc _ _ _ _ hsaid
    subst hs
    obtain ⟨answer, hsaid, -⟩ := hsaid
    exact h.publishes hroom hregistered henc hsaid
  · rename_i hs hregistered _ _ _ payload henc _ _ _ _ hsaid
    subst hs
    obtain ⟨answer, hsaid, -⟩ := hsaid
    exact h.publishes hroom hregistered henc hsaid
  · rename_i hs hregistered _ _ _ payload henc _ _ hsaid
    subst hs
    rcases hsaid with hw | ⟨answer, hsaid, -⟩
    · exact ⟨st, h.withholds hroom hw⟩
    · exact h.publishes hroom hregistered henc hsaid

theorem heartbeat_spec {k : Nat} (h : Stands config k st talk) (hroom : 2 * k + 2 < 2 ^ 64) :
    ⦃fun s => ⌜s = talk⌝⦄ heartbeat peer.recorded
    ⦃⇓ _ s => ⌜∃ st, Stands config (k + 1) st s⌝⦄ := by
  obtain rfl := h.between.configured
  mvcgen [heartbeat, nextSequence]
  · rename_i hs _
    subst hs
    exact ⟨st, h.later⟩
  · rename_i hs hregistered _ _ payload henc _ _ hsaid
    subst hs
    obtain ⟨answer, hsaid, -⟩ := hsaid
    exact h.beats hroom hregistered henc hsaid
  · rename_i s₀ hs hregistered _ _ payload henc _ s₁ hsaid _
    subst hs
    have hafter : ∃ st, Stands s₀.publisher.config (k + 1) st s₁ := by
      rcases hsaid with hw | ⟨answer, hsaid, -⟩
      · exact ⟨st, h.withholds hroom hw⟩
      · exact h.beats hroom hregistered henc hsaid
    obtain ⟨st', h'⟩ := hafter
    exact ⟨st', h'.leaves⟩

theorem ensurePublisher_spec {k : Nat} (h : Stands config k st talk) (hroom : 2 * k + 2 < 2 ^ 64)
    (identity : PublisherIdentity) :
    ⦃fun s => ⌜s = talk⌝⦄ ensurePublisher peer.recorded identity
    ⦃⇓ _ s => ⌜∃ st, Stands config (k + 1) st s⌝⦄ := by
  have hconnect : ⦃fun s => ⌜s = talk⌝⦄ connectAndRegister peer.recorded
      ⦃post⟨fun _ s => ⌜∃ st, Stands config (k + 1) st s⌝,
        fun _ s => ⌜∃ st, Stands config (k + 1) st s⌝⟩⦄ := connectAndRegister_spec h hroom
  mvcgen [ensurePublisher, hconnect]
  · rename_i hs _ _ _ _
    subst hs
    exact ⟨st, h.later⟩
  · rename_i hs _ _ _ _
    subst hs
    exact ⟨st, h.later⟩

/-- What one call keeps. -/
theorem perform_spec {k : Nat} (h : Stands config k st talk) (hroom : 2 * k + 2 < 2 ^ 64)
    (call : Call) :
    ⦃fun s => ⌜s = talk⌝⦄ perform peer.recorded call
    ⦃⇓ _ s => ⌜∃ st, Stands config (k + 1) st s⌝⦄ := by
  cases call with
  | connectAndRegister =>
    have hconnect : ⦃fun s => ⌜s = talk⌝⦄ connectAndRegister peer.recorded
        ⦃post⟨fun _ s => ⌜∃ st, Stands config (k + 1) st s⌝,
          fun _ s => ⌜∃ st, Stands config (k + 1) st s⌝⟩⦄ := connectAndRegister_spec h hroom
    mvcgen [perform, hconnect]
  | ensurePublisher identity =>
    have hensure : ⦃fun s => ⌜s = talk⌝⦄ ensurePublisher peer.recorded identity
        ⦃⇓ _ s => ⌜∃ st, Stands config (k + 1) st s⌝⦄ := ensurePublisher_spec h hroom identity
    mvcgen [perform, hensure]
  | publish now publication =>
    have hpublish : ⦃fun s => ⌜s = talk⌝⦄ publish peer.recorded now publication
        ⦃⇓ _ s => ⌜∃ st, Stands config (k + 1) st s⌝⦄ := publish_spec h hroom now publication
    mvcgen [perform, hpublish]
  | heartbeat =>
    have hbeat : ⦃fun s => ⌜s = talk⌝⦄ heartbeat peer.recorded
        ⦃⇓ _ s => ⌜∃ st, Stands config (k + 1) st s⌝⦄ := heartbeat_spec h hroom
    mvcgen [perform, hbeat]
  | nextSequence =>
    mvcgen [perform, nextSequence]
    rename_i hs _
    subst hs
    exact ⟨st, h.takes hroom⟩
  | nextEvidenceGeneration =>
    mvcgen [perform, nextEvidenceGeneration]
    rename_i hs _
    subst hs
    have hlater := h.later
    exact ⟨st, ⟨hlater.between.configured, hlater.between.record, hlater.between.correlation,
      hlater.between.counted⟩, hlater.identity, hlater.number, hlater.numbered⟩

theorem performed {k : Nat} (h : Stands config k st talk) (hroom : 2 * k + 2 < 2 ^ 64)
    (call : Call) : ∃ st, Stands config (k + 1) st ((perform peer.recorded call).run talk).2 :=
  StateM.of_wp_run_eq rfl (fun r => ∃ st, Stands config (k + 1) st r.2)
    fun _ => perform_spec h hroom call talk rfl

theorem run_stands {k : Nat} (h : Stands config k st talk) (calls : List Call)
    (hroom : 2 * (k + calls.length) < 2 ^ 64) :
    ∃ st, Stands config (k + calls.length) st (run peer.recorded calls talk) := by
  induction calls generalizing k st talk with
  | nil => exact ⟨st, h⟩
  | cons call calls ih =>
    rw [List.length_cons] at hroom ⊢
    obtain ⟨st', h'⟩ : ∃ st', Stands config (k + 1) st' ((perform peer.recorded call).run talk).2 :=
      performed h (by omega) call
    have hrest := ih h' (by omega)
    rw [Nat.add_right_comm] at hrest
    exact hrest

end Steps

end CapabilityPublisher

/-- The correlation under which a frame went out. -/
def Traffic.correlation? : Traffic → Option UInt64
  | .opened _ => none
  | .sent frame _ => some frame.correlation

/-- In a record that keeps the protocol no two frames share a correlation. -/
theorem Conforms.correlations {config : PublisherConfig} {events : List Traffic} {st : Stage}
    (h : Conforms config events st) :
    (events.filterMap Traffic.correlation?).Pairwise (· < ·) ∧
      ∀ correlation ∈ events.filterMap Traffic.correlation?, correlation ≤ st.correlation := by
  induction h with
  | start => exact ⟨.nil, fun _ hm => by cases hm⟩
  | step events st st' event before next ih =>
    have hsent : ∀ correlation, event.correlation? = some correlation →
        st.correlation < correlation → st'.correlation = correlation →
        ((events ++ [event]).filterMap Traffic.correlation?).Pairwise (· < ·) ∧
          ∀ c ∈ (events ++ [event]).filterMap Traffic.correlation?, c ≤ st'.correlation := by
      intro correlation he hlt hst
      have hlast : [event].filterMap Traffic.correlation? = [correlation] := by simp [he]
      rw [List.filterMap_append, hlast, hst]
      constructor
      · rw [List.pairwise_append]
        refine ⟨ih.1, List.pairwise_singleton _ _, fun c hc c' hc' => ?_⟩
        rw [List.mem_singleton.mp hc']
        exact UInt64.lt_of_le_of_lt (ih.2 c hc) hlt
      · intro c hc
        rcases List.mem_append.mp hc with hc | hc
        · exact UInt64.le_of_lt (UInt64.lt_of_le_of_lt (ih.2 c hc) hlt)
        · rw [List.mem_singleton.mp hc]
          exact UInt64.le_refl _
    cases next with
    | refused e =>
      rw [List.filterMap_append]
      exact (List.append_nil _).symm ▸ ih
    | opened =>
      rw [List.filterMap_append]
      exact (List.append_nil _).symm ▸ ih
    | hello correlation payload answer phase encoded fresh => exact hsent _ rfl fresh rfl
    | register correlation payload answer phase encoded fresh => exact hsent _ rfl fresh rfl
    | publication correlation payload answer bound identity encoded number fresh =>
      exact hsent _ rfl fresh rfl
    | heartbeat correlation payload answer message identity encoded number fresh =>
      exact hsent _ rfl fresh rfl

namespace CapabilityPublisher

/-- A publisher that makes these calls, and all that passes between it and its peer. -/
def conversation {σ : Type} (peer : Peer σ) (config : PublisherConfig) (s : σ)
    (calls : List Call) : Conversation (σ × List Traffic) :=
  run peer.recorded calls { publisher := { config }, peer := (s, []) }

end CapabilityPublisher

namespace Sample

/-- A peer that admits whoever greets it, and answers nothing else. -/
def admitting : Peer Unit where
  opens s := (.ok (), s)
  answers s frame :=
    (match frame.type with
      | .hello => .ok { type := .welcome, payload :=
          (writeWelcome {} { protocolVersion := protocolVersion.toUInt32 }).out }
      | .registerPublisher => .ok { type := .publisherAccepted, payload :=
          (writePublisherAccepted {}
            { code := .accepted, identity := { id := Id.parse "pub.a", boot := .first } }).out }
      | _ => .error ⟨.ioFailure, "peer closed the connection"⟩, s)

def publisherConfig : PublisherConfig := { publisher := Id.parse "pub.a" }

end Sample

namespace CapabilityPublisher

end CapabilityPublisher

end CapabilityRegistry
