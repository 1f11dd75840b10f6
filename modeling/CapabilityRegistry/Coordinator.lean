import CapabilityRegistry.Deployment
import CapabilityRegistry.Frames
import CapabilityRegistry.Messages

/-! The coordinator: its sessions, how it interprets their frames and how it ends them. -/
namespace CapabilityRegistry

structure CoordinatorConfig where
  statePath : Text := []
  limits : RegistryLimits := {}
  persistOnMutation : Bool := false
  nodeName : Text := "hcr-coordinator"

/-- What the coordinator remembers of a connection beside the bytes of an unfinished frame. -/
structure Session where
  publisher : PublisherId := default
  boot : PublisherBootId := default
  publisherRegistered : Bool := false
  adapter : Text := []
  handshakeComplete : Bool := false
  delivered : Nat := 0

/-- What a frame is answered with. -/
inductive Reply
  | message (type : MessageType) (message : Message)
  | answer (request : QueryRequest)

/-- What the interpretation of a frame leaves: the session and the registry, a request to shut
down, and what is to be sent. -/
structure Dispatched where
  session : Session
  registry : Impl
  shutdown : Option Text := none
  reply : Reply

section Dispatch
variable (config : CoordinatorConfig) (now : Timestamp) (registry : Impl) (session : Session)

def reject (e : Error) : Dispatched :=
  { session, registry,
    reply := .message .errorResponse (.error { code := e.code, message := e.message }) }

def dispatchHello (payload : List UInt8) : Dispatched :=
  match decodeHello config.limits payload with
  | .error e => reject registry session e
  | .ok hello =>
    if hello.protocolVersion != protocolVersion.toUInt32 then
      reject registry session ⟨.unsupportedVersion, "client protocol version " ++
        decimal hello.protocolVersion.toNat ++ " is not supported"⟩
    else
      { session := { session with handshakeComplete := true }
        registry
        reply := .message .welcome (.welcome
          { protocolVersion := protocolVersion.toUInt32
            epoch := registry.epoch
            coordinatorName := config.nodeName }) }

/-- The session remembers the last registration that was accepted, and no other. -/
def remember (applied : ApplyResult) (adapter : Text) : Session :=
  if applied.accepted then
    { session with
      publisher := applied.assignedPublisher.id
      boot := applied.assignedPublisher.boot
      adapter
      publisherRegistered := true }
  else session

def dispatchRegisterPublisher (payload : List UInt8) : Dispatched :=
  if !session.handshakeComplete then
    reject registry session ⟨.protocolError, "HELLO is required first"⟩
  else match decodeRegisterPublisher config.limits payload with
  | .error e => reject registry session e
  | .ok request =>
    let applied := registry.registerPublisher now request.identity request.adapter
    { session := remember session applied.1 request.adapter
      registry := applied.2
      reply := .message .publisherAccepted (.publisherAccepted
        { code := applied.1.code
          epoch := applied.2.epoch
          identity := applied.1.assignedPublisher
          detail := applied.1.detail }) }

def dispatchHeartbeat (payload : List UInt8) : Dispatched :=
  match decodeHeartbeat payload with
  | .error e => reject registry session e
  | .ok heartbeat =>
    { session, registry, reply := .message .heartbeatAccepted (.heartbeat heartbeat) }

def dispatchFencePublisher (payload : List UInt8) : Dispatched :=
  match decodeFencePublisher config.limits payload with
  | .error e => reject registry session e
  | .ok request =>
    let applied := registry.fencePublisher request.publisher request.reason
    { session
      registry := applied.2
      reply := .message .fenceAccepted (.fenceAccepted
        { code := applied.1.code, detail := applied.1.detail }) }

def dispatchShutdown (payload : List UInt8) : Dispatched :=
  match decodeShutdown config.limits payload with
  | .error e => reject registry session e
  | .ok request =>
    { session, registry
      shutdown := some (if request.reason.isEmpty then "shutdown requested by client"
        else request.reason)
      reply := .message .shutdownAccepted (.shutdown request) }

variable [StdLib]

/-- Neither the handshake nor the identity of the session is looked at. -/
def dispatchPublication (payload : List UInt8) : Dispatched :=
  match decodePublication config.limits payload with
  | .error e => reject registry session e
  | .ok publication =>
    let applied := registry.applyLocked now publication
    { session
      registry := applied.2
      reply := .message .publicationAccepted (.publicationAccepted
        { code := applied.1.code
          detail := applied.1.detail
          deviceGeneration := applied.1.deviceGeneration
          deviceBoot := applied.1.deviceBoot }) }

/-- A query leaves the registry alone, but a snapshot counts itself. -/
def serveQuery (request : QueryRequest) : Dispatched :=
  { session
    registry := if request.kind = .snapshot then registry.takeSnapshot.2 else registry
    reply := .answer request }

def dispatchQuery (payload : List UInt8) : Dispatched :=
  match decodeQueryRequest config.limits payload with
  | .error e => reject registry session e
  | .ok request => serveQuery registry session request

def dispatch (frame : Frame) : Dispatched :=
  match frame.type with
  | .hello => dispatchHello config registry session frame.payload
  | .registerPublisher => dispatchRegisterPublisher config now registry session frame.payload
  | .publication => dispatchPublication config now registry session frame.payload
  | .heartbeat => dispatchHeartbeat registry session frame.payload
  | .fencePublisher => dispatchFencePublisher config registry session frame.payload
  | .queryRequest => dispatchQuery config registry session frame.payload
  | .snapshotRequest => serveQuery registry session { kind := .snapshot }
  | .shutdownRequest => dispatchShutdown config registry session frame.payload
  | type => reject registry session ⟨.protocolError, "message type " ++ type.toText ++
      " is not valid for a coordinator"⟩

end Dispatch

/-- The registry behind a session that ends: the boot it remembers is retired. -/
def retireSession (registry : Impl) (session : Session) (reason : Text) : Impl :=
  if session.publisherRegistered then
    (registry.retirePublisherBoot session.publisher session.boot reason).2
  else registry

/-- A started coordinator. Sessions are known by the handle of their connection. -/
structure Coordinator where
  config : CoordinatorConfig
  registry : Impl
  sessions : Std.ExtTreeMap Nat Session := ∅
  requested : Option Text := none
  listening : Bool := true

/-- What the event loop does, one thing at a time: it accepts a connection, interprets one frame
that a session delivered and sends the reply, drops a session that has died, or shuts down. -/
inductive Action
  | connect (handle : Nat)
  | frame (now : Timestamp) (handle : Nat) (frame : Frame) (sent : Bool)
  | close (handle : Nat)
  | shutdown

namespace Coordinator
variable (c : Coordinator)

def setSession (handle : Nat) (session : Session) : Coordinator :=
  { c with sessions := c.sessions.insert handle session }

/-- A connection over the limit is turned away; `emplace` keeps a session that is there. -/
def accept (handle : Nat) : Coordinator :=
  if c.listening && c.sessions.size < c.config.limits.maxConnections then
    { c with sessions := c.sessions.insertIfNew handle {} }
  else c

def dropSession (handle : Nat) (reason : Text) : Coordinator :=
  match c.sessions[handle]? with
  | none => c
  | some session =>
    { c with
      registry := retireSession c.registry session reason
      sessions := c.sessions.erase handle }

/-- A frame that a session delivered. When the reply cannot be sent the session ends. -/
def interpret [StdLib] (now : Timestamp) (handle : Nat) (frame : Frame) (sent : Bool) :
    Coordinator :=
  match c.sessions[handle]? with
  | none => c
  | some session =>
    let dispatched := dispatch c.config now c.registry session frame
    let c := { c with
      registry := dispatched.registry
      requested := c.requested.or dispatched.shutdown }
    if sent then
      c.setSession handle
        { dispatched.session with delivered := dispatched.session.delivered + 1 }
    else (c.setSession handle dispatched.session).dropSession handle "session closed during dispatch"

/-- The end of `run`: no more connections, every session retired, the registry closed. -/
def stop : Coordinator :=
  { c with
    registry :=
      { c.sessions.toList.foldl (fun registry e => retireSession registry e.2
          "coordinator shutdown; boot identity retired") c.registry with shuttingDown := true }
    sessions := ∅
    listening := false }

def after [StdLib] : Action → Coordinator
  | .connect handle => c.accept handle
  | .frame now handle frame sent => c.interpret now handle frame sent
  | .close handle =>
    c.dropSession handle "publisher connection closed; boot identity retired"
  | .shutdown => c.stop

def run [StdLib] (actions : List Action) : Coordinator := actions.foldl (fun c a => c.after a) c

theorem registry_accept (handle : Nat) : (c.accept handle).registry = c.registry := by
  unfold accept
  split <;> rfl

theorem config_dropSession (handle : Nat) (reason : Text) :
    (c.dropSession handle reason).config = c.config := by
  unfold dropSession
  split <;> rfl

/-- The configuration of a coordinator never changes. -/
@[simp] theorem config_after [StdLib] (action : Action) : (c.after action).config = c.config := by
  cases action with
  | connect handle =>
    unfold after accept
    dsimp only
    split <;> rfl
  | frame now handle frame sent =>
    unfold after interpret
    dsimp only
    split
    · rfl
    · split
      · rfl
      · exact config_dropSession _ _ _
  | close handle => exact config_dropSession _ _ _
  | shutdown => rfl

end Coordinator

/-- The registry a coordinator starts with: what the state file holds, in a new epoch and without
a live publisher. -/
def startRegistry [StdLib] (limits : RegistryLimits) (image : Option DurableState) :
    Except Error Impl := do
  let restored ← match image with
    | none => pure (Impl.fresh limits)
    | some state =>
      match (Impl.fresh limits).importDurableState state with
      | (.error e, _) => .error e
      | (.ok _, restored) => pure restored
  pure (restored.advanceCoordinatorEpoch.resetPublisherLiveness
    "coordinator restarted; publisher liveness is not restored")

def Coordinator.started [StdLib] (config : CoordinatorConfig) (image : Option DurableState) :
    Except Error Coordinator := do
  let registry ← startRegistry config.limits image
  pure { config, registry }

/-- The registry that a state file, or its absence, restores. -/
inductive Recovers [StdLib] (limits : RegistryLimits) : Option DurableState → Impl → Prop
  | fresh : Recovers limits none (Impl.fresh limits)
  | restored (state : DurableState) (staged : Staged)
      (imports : Impl.Imports (Impl.fresh limits) state staged) :
    Recovers limits (some state) ((Impl.fresh limits).commit state staged)

section Start
variable [StdLib] {limits : RegistryLimits} {config : CoordinatorConfig}
  {image : Option DurableState} {r base : Impl} {c : Coordinator}

theorem startRegistry_eq_ok (h : startRegistry limits image = .ok r) :
    ∃ base, Recovers limits image base ∧ r = base.advanceCoordinatorEpoch.resetPublisherLiveness
      "coordinator restarted; publisher liveness is not restored" := by
  cases image with
  | none => exact ⟨_, .fresh, (Except.ok.inj h).symm⟩
  | some state =>
    simp only [startRegistry] at h
    split at h
    · cases h
    · next report restored hi =>
      obtain ⟨staged, him, -, rfl⟩ := Impl.importDurableState_eq_ok.mp hi
      exact ⟨_, .restored state staged him, (Except.ok.inj h).symm⟩

theorem started_eq_ok (h : Coordinator.started config image = .ok c) :
    ∃ base, Recovers config.limits image base ∧ c = {
      config
      registry := base.advanceCoordinatorEpoch.resetPublisherLiveness
        "coordinator restarted; publisher liveness is not restored" } := by
  simp only [Coordinator.started, bind_eq_ok, pure, Except.pure, Except.ok.injEq] at h
  obtain ⟨r, hr, rfl⟩ := h
  obtain ⟨base, hb, rfl⟩ := startRegistry_eq_ok hr
  exact ⟨base, hb, rfl⟩

end Start

end CapabilityRegistry
