import CapabilityRegistry.Delivery
import CapabilityRegistry.Sessions

/-! The event loop: what one pass of it reads, retires and interprets. -/
namespace CapabilityRegistry

/-- What a connection that is ready brings: its end, or so many bytes. -/
inductive Arrival
  | ended
  | data (bytes : List UInt8)

/-- What a pass of the loop meets: a request to shut down from outside, a connection that waits at
the listener, what the ready sessions bring, and for each frame of a session when it is interpreted
and whether its reply can be sent. -/
structure Wakeup where
  asked : Bool := false
  waiting : Option Nat := none
  ready : Nat → Option Arrival := fun _ => none
  moment : Nat → Nat → Timestamp × Bool

/-- A coordinator with the decoders of its sessions. -/
structure EventLoop where
  coordinator : Coordinator
  decoders : Std.ExtTreeMap Nat FrameDecoder := ∅

/-- The frames that a ready session delivers, or that it is closed. -/
def readSession (limits : RegistryLimits) (decoder : FrameDecoder) :
    Arrival → Option (List Frame) × FrameDecoder
  | .ended => (none, decoder)
  | .data bytes =>
    if bytes.isEmpty then (none, decoder)
    else match decoder.feed bytes with
      | (.error _, _, decoder) => (none, decoder)
      | (.ok (), frames, decoder) =>
        if frames.length > limits.maxPendingPublications then (none, decoder)
        else (some frames, decoder)

/-- Frames of one session are interpreted up to the first whose reply cannot be sent, which ends the
session, or that asks to shut down. -/
def dispatchFrames [StdLib] (moment : Nat → Timestamp × Bool) (handle : Nat) :
    Coordinator → Nat → List Frame → Coordinator
  | c, _, [] => c
  | c, k, frame :: frames =>
    let (now, sent) := moment k
    let c := c.interpret now handle frame sent
    if !sent || c.requested.isSome then c else dispatchFrames moment handle c (k + 1) frames

namespace EventLoop

section Reading
variable (loop : EventLoop) (w : Wakeup)

def reading (handle : Nat) : Option (Option (List Frame) × FrameDecoder) := do
  let arrival ← w.ready handle
  let decoder ← loop.decoders[handle]?
  pure (readSession loop.coordinator.config.limits decoder arrival)

/-- The sessions that are found dead, in the order of their handles. -/
def dead : List Nat :=
  loop.coordinator.sessions.keys.filter fun handle =>
    (loop.reading w handle).any fun r => r.1.isNone

/-- The frames that were delivered, in the order of the handles of their sessions. -/
def delivered : List (Nat × List Frame) :=
  loop.coordinator.sessions.keys.filterMap fun handle =>
    match loop.reading w handle with
    | some (some (frame :: frames), _) => some (handle, frame :: frames)
    | _ => none

def accepted : Coordinator :=
  match w.waiting with
  | none => loop.coordinator
  | some handle => loop.coordinator.accept handle

def retired : Coordinator :=
  (loop.dead w).foldl (fun c handle =>
    c.dropSession handle "publisher connection closed; boot identity retired") (loop.accepted w)

/-- A decoder has the life of its session. -/
def keptDecoders (c : Coordinator) : Std.ExtTreeMap Nat FrameDecoder :=
  let read := loop.decoders.map fun handle decoder =>
    ((loop.reading w handle).map Prod.snd).getD decoder
  let opened := match w.waiting with
    | none => read
    | some handle => read.insertIfNew handle { limits := loop.coordinator.config.limits }
  opened.filter fun handle _ => c.sessions.contains handle

end Reading

variable [StdLib] (loop : EventLoop) (w : Wakeup)

def served : Coordinator :=
  (loop.delivered w).foldl (fun c e => dispatchFrames (w.moment e.1) e.1 c 0 e.2) (loop.retired w)

/-- One pass of the loop of `run`. All ready sessions are read and the dead ones retired before a
frame is interpreted. Once shutdown is requested, the pass that comes next is the last one. -/
def turn : EventLoop :=
  if !loop.coordinator.listening then loop
  else if w.asked || loop.coordinator.requested.isSome then { coordinator := loop.coordinator.stop }
  else { coordinator := loop.served w, decoders := loop.keptDecoders w (loop.served w) }

def run (ws : List Wakeup) : EventLoop := ws.foldl turn loop

end EventLoop

/-- The frames of one session among what was done. -/
def framesOf (handle : Nat) (actions : List Action) : List Frame :=
  actions.filterMap fun action =>
    match action with
    | .frame _ k frame _ => if k = handle then some frame else none
    | _ => none

section Dispatching
variable [StdLib] {c : Coordinator} {now : Timestamp} {handle k : Nat} {frame : Frame}
  {frames : List Frame} {sent : Bool} {moment : Nat → Timestamp × Bool}

omit [StdLib] in
theorem framesOf_append (handle : Nat) (actions actions' : List Action) :
    framesOf handle (actions ++ actions') = framesOf handle actions ++ framesOf handle actions' :=
  List.filterMap_append ..

omit [StdLib] in
theorem requested_dropSession (c : Coordinator) (handle : Nat) (reason : Text) :
    (c.dropSession handle reason).requested = c.requested := by
  unfold Coordinator.dropSession
  split <;> rfl

theorem requested_interpret (h : c.requested.isSome = true) :
    (c.interpret now handle frame sent).requested.isSome = true := by
  unfold Coordinator.interpret
  split
  · exact h
  · dsimp only
    split
    · exact Option.isSome_or.trans (by rw [h, Bool.true_or])
    · rw [requested_dropSession]
      exact Option.isSome_or.trans (by rw [h, Bool.true_or])

theorem sessions_interpret (c : Coordinator) (now : Timestamp) (handle : Nat) (frame : Frame)
    (sent : Bool) : ((c.interpret now handle frame sent).sessions[k]?).isSome =
      if handle = k then (c.sessions[k]?).isSome && sent else (c.sessions[k]?).isSome := by
  unfold Coordinator.interpret
  by_cases hk : handle = k
  · subst hk
    cases hs : c.sessions[handle]? with
    | none => simp [hs]
    | some session =>
      dsimp only
      cases sent
      · rw [if_neg Bool.false_ne_true, Ledger.sessions_dropSession, if_pos rfl, if_pos rfl]
        rfl
      · rw [if_pos rfl, if_pos rfl, Coordinator.setSession, OrdMap.getElem?_insert_self]
        rfl
  · rw [if_neg hk]
    cases c.sessions[handle]? with
    | none => rfl
    | some session =>
      dsimp only
      cases sent
      · rw [if_neg Bool.false_ne_true, Ledger.sessions_dropSession, if_neg hk,
          Coordinator.setSession, OrdMap.getElem?_insert_eq, if_neg hk]
      · rw [if_pos rfl, Coordinator.setSession, OrdMap.getElem?_insert_eq, if_neg hk]

/-- What `dispatchFrames` does, one action for each frame that is interpreted. -/
def interpretations (moment : Nat → Timestamp × Bool) (handle : Nat) :
    Coordinator → Nat → List Frame → List Action
  | _, _, [] => []
  | c, k, frame :: frames =>
    let (now, sent) := moment k
    let next := c.interpret now handle frame sent
    .frame now handle frame sent :: if !sent || next.requested.isSome then []
      else interpretations moment handle next (k + 1) frames

theorem dispatchFrames_eq (c : Coordinator) (k : Nat) (frames : List Frame) :
    dispatchFrames moment handle c k frames = c.run (interpretations moment handle c k frames) := by
  induction frames generalizing c k with
  | nil => rfl
  | cons frame frames ih =>
    simp only [dispatchFrames, interpretations]
    split
    · rfl
    · exact ih _ _

theorem framesOf_interpretations (c : Coordinator) (k : Nat) (frames : List Frame) :
    framesOf handle (interpretations moment handle c k frames) <+: frames ∧
      ∀ other, other ≠ handle → framesOf other (interpretations moment handle c k frames) = [] := by
  induction frames generalizing c k with
  | nil => exact ⟨List.prefix_rfl, fun _ _ => rfl⟩
  | cons frame frames ih =>
    simp only [interpretations, framesOf, List.filterMap_cons, if_pos]
    split
    · exact ⟨List.prefix_append [frame] frames, fun other ho => by simp [ho.symm]⟩
    · obtain ⟨hp, hother⟩ := ih (c.interpret (moment k).1 handle frame (moment k).2) (k + 1)
      refine ⟨(List.prefix_cons_inj frame).mpr hp, fun other ho => ?_⟩
      rw [if_neg ho.symm]
      exact hother other ho

/-- All frames of a session that outlives them are interpreted, unless there is a request to shut
down. -/
theorem interpretations_whole (hr : (dispatchFrames moment handle c k frames).requested = none)
    (hs : ((dispatchFrames moment handle c k frames).sessions[handle]?).isSome = true) :
    framesOf handle (interpretations moment handle c k frames) = frames := by
  induction frames generalizing c k with
  | nil => rfl
  | cons frame frames ih =>
    simp only [dispatchFrames] at hr hs
    simp only [interpretations, framesOf, List.filterMap_cons, if_pos]
    split at hr
    · next hstop =>
      rw [if_pos hstop, sessions_interpret, if_pos rfl, Bool.and_eq_true] at hs
      rw [hr, hs.2] at hstop
      cases hstop
    · next hgo =>
      rw [if_neg hgo] at hs ⊢
      exact congrArg (frame :: ·) (ih hr hs)

theorem requested_dispatchFrames (c : Coordinator) (k : Nat) (frames : List Frame)
    (h : c.requested.isSome = true) :
    (dispatchFrames moment handle c k frames).requested.isSome = true := by
  induction frames generalizing c k with
  | nil => exact h
  | cons frame frames ih =>
    simp only [dispatchFrames]
    split
    · exact requested_interpret h
    · exact ih _ _ (requested_interpret h)

theorem sessions_dispatchFrames {other : Nat} (c : Coordinator) (k : Nat) (frames : List Frame)
    (h : handle ≠ other) : ((dispatchFrames moment handle c k frames).sessions[other]?).isSome =
      (c.sessions[other]?).isSome := by
  induction frames generalizing c k with
  | nil => rfl
  | cons frame frames ih =>
    have hstep := sessions_interpret (k := other) c (moment k).1 handle frame (moment k).2
    rw [if_neg h] at hstep
    simp only [dispatchFrames]
    split
    · exact hstep
    · exact (ih _ _).trans hstep

end Dispatching

section Turns
variable [StdLib] {loop : EventLoop} {w : Wakeup} {c : Coordinator} {handle : Nat}
  {frames : List Frame} {entries : List (Nat × List Frame)}

/-- What the frames delivered in a pass are answered with. -/
def servings (w : Wakeup) : Coordinator → List (Nat × List Frame) → List Action
  | _, [] => []
  | c, e :: entries => interpretations (w.moment e.1) e.1 c 0 e.2 ++
      servings w (dispatchFrames (w.moment e.1) e.1 c 0 e.2) entries

/-- All frames that were delivered are dispatched. -/
def dispatchAll (w : Wakeup) (c : Coordinator) (entries : List (Nat × List Frame)) : Coordinator :=
  entries.foldl (fun c e => dispatchFrames (w.moment e.1) e.1 c 0 e.2) c

theorem Coordinator.run_append (c : Coordinator) (actions actions' : List Action) :
    c.run (actions ++ actions') = (c.run actions).run actions' := List.foldl_append ..

theorem dispatchAll_eq (c : Coordinator) (entries : List (Nat × List Frame)) :
    dispatchAll w c entries = c.run (servings w c entries) := by
  induction entries generalizing c with
  | nil => rfl
  | cons e entries ih =>
    rw [servings, Coordinator.run_append, ← dispatchFrames_eq]
    exact ih _

theorem requested_dispatchAll (h : c.requested.isSome = true) :
    (dispatchAll w c entries).requested.isSome = true := by
  induction entries generalizing c with
  | nil => exact h
  | cons e entries ih => exact ih (requested_dispatchFrames c 0 e.2 h)

theorem sessions_dispatchAll (h : handle ∉ entries.map Prod.fst) :
    ((dispatchAll w c entries).sessions[handle]?).isSome = (c.sessions[handle]?).isSome := by
  induction entries generalizing c with
  | nil => rfl
  | cons e entries ih =>
    rw [List.map_cons, List.mem_cons, not_or] at h
    exact (ih h.2).trans (sessions_dispatchFrames c 0 e.2 (Ne.symm h.1))

theorem framesOf_stranger (h : handle ∉ entries.map Prod.fst) :
    framesOf handle (servings w c entries) = [] := by
  induction entries generalizing c with
  | nil => rfl
  | cons e entries ih =>
    rw [List.map_cons, List.mem_cons, not_or] at h
    rw [servings, framesOf_append, (framesOf_interpretations c 0 e.2).2 handle h.1, ih h.2]
    rfl

/-- Of the frames that a session delivered an initial part is interpreted, and all of them if it
outlives them and there is no request to shut down. -/
theorem framesOf_servings (hn : (entries.map Prod.fst).Nodup) (he : (handle, frames) ∈ entries) :
    framesOf handle (servings w c entries) <+: frames ∧
      ((dispatchAll w c entries).requested = none →
        ((dispatchAll w c entries).sessions[handle]?).isSome = true →
          framesOf handle (servings w c entries) = frames) := by
  induction entries generalizing c with
  | nil => cases he
  | cons e entries ih =>
    obtain ⟨hfirst, hn⟩ := List.nodup_cons.mp hn
    rw [servings, framesOf_append]
    rcases List.mem_cons.mp he with rfl | he
    · rw [framesOf_stranger hfirst, List.append_nil]
      refine ⟨(framesOf_interpretations c 0 frames).1, fun hr hs => ?_⟩
      apply interpretations_whole
      · by_contra hsome
        have hlater : (dispatchAll w (dispatchFrames (w.moment handle) handle c 0 frames)
            entries).requested.isSome = true :=
          requested_dispatchAll (Option.isSome_iff_ne_none.mpr hsome)
        exact Option.isSome_iff_ne_none.mp hlater hr
      · exact (sessions_dispatchAll hfirst).symm.trans hs
    · have hne : handle ≠ e.1 := by
        intro heq
        exact hfirst (heq ▸ (List.mem_map_of_mem he : handle ∈ entries.map Prod.fst))
      rw [(framesOf_interpretations c 0 e.2).2 handle hne, List.nil_append]
      exact ih hn he

omit [StdLib] in
theorem retired_sessions (c : Coordinator) (handles : List Nat) (reason : Text) (k : Nat) :
    (handles.foldl (fun c handle => c.dropSession handle reason) c).sessions[k]? =
      if k ∈ handles then none else c.sessions[k]? := by
  induction handles generalizing c with
  | nil => rfl
  | cons handle handles ih =>
    rw [List.foldl_cons, ih, Ledger.sessions_dropSession]
    by_cases hk : k = handle
    · simp [hk]
    · simp [hk, Ne.symm hk]

namespace EventLoop

/-- What a pass does, in its order. -/
def actions (loop : EventLoop) (w : Wakeup) : List Action :=
  if !loop.coordinator.listening then []
  else if w.asked || loop.coordinator.requested.isSome then [.shutdown]
  else (w.waiting.map .connect).toList ++ (loop.dead w).map .close ++
    servings w (loop.retired w) (loop.delivered w)

theorem retired_eq : loop.retired w =
    loop.coordinator.run ((w.waiting.map .connect).toList ++ (loop.dead w).map .close) := by
  rw [Coordinator.run_append, Coordinator.run, List.foldl_map, retired, accepted]
  cases w.waiting <;> rfl

/-- A pass of the loop is a run of the coordinator. -/
theorem turn_coordinator (loop : EventLoop) (w : Wakeup) :
    (loop.turn w).coordinator = loop.coordinator.run (loop.actions w) := by
  unfold turn actions
  split
  · rfl
  · split
    · rfl
    · rw [Coordinator.run_append, ← retired_eq]
      exact dispatchAll_eq _ _

def history : EventLoop → List Wakeup → List Action
  | _, [] => []
  | loop, w :: ws => loop.actions w ++ history (loop.turn w) ws

/-- A run of the loop is a run of the coordinator. -/
theorem run_coordinator (loop : EventLoop) (ws : List Wakeup) :
    (loop.run ws).coordinator = loop.coordinator.run (loop.history ws) := by
  induction ws generalizing loop with
  | nil => rfl
  | cons w ws ih =>
    rw [history, Coordinator.run_append, ← turn_coordinator]
    exact ih _

omit [StdLib] in
theorem mem_dead : handle ∈ loop.dead w ↔ (loop.coordinator.sessions[handle]?).isSome = true ∧
    ∃ decoder, loop.reading w handle = some (none, decoder) := by
  rw [dead, List.mem_filter, Std.ExtTreeMap.mem_keys, Std.ExtTreeMap.mem_iff_isSome_getElem?]
  refine and_congr_right fun _ => ?_
  cases loop.reading w handle with
  | none => simp
  | some r =>
    obtain ⟨found, decoder⟩ := r
    cases found <;> simp

omit [StdLib] in
theorem mem_delivered : (handle, frames) ∈ loop.delivered w ↔
    (loop.coordinator.sessions[handle]?).isSome = true ∧ frames ≠ [] ∧
      ∃ decoder, loop.reading w handle = some (some frames, decoder) := by
  rw [delivered, List.mem_filterMap]
  constructor
  · rintro ⟨k, hk, hread⟩
    rw [Std.ExtTreeMap.mem_keys, Std.ExtTreeMap.mem_iff_isSome_getElem?] at hk
    split at hread
    · next frame found decoder hr =>
      obtain ⟨rfl, rfl⟩ := Prod.mk.inj (Option.some.inj hread)
      exact ⟨hk, List.cons_ne_nil _ _, decoder, hr⟩
    · cases hread
  · rintro ⟨hk, hne, decoder, hr⟩
    refine ⟨handle, ?_, ?_⟩
    · rwa [Std.ExtTreeMap.mem_keys, Std.ExtTreeMap.mem_iff_isSome_getElem?]
    · obtain ⟨frame, found, rfl⟩ := List.exists_cons_of_ne_nil hne
      rw [hr]

omit [StdLib] in
theorem delivered_nodup (loop : EventLoop) (w : Wakeup) :
    ((loop.delivered w).map Prod.fst).Nodup := by
  have hsub : ((loop.delivered w).map Prod.fst).Sublist loop.coordinator.sessions.keys := by
    rw [delivered, List.map_filterMap]
    generalize loop.coordinator.sessions.keys = handles
    induction handles with
    | nil => exact .slnil
    | cons handle handles ih =>
      rw [List.filterMap_cons]
      split
      · exact ih.cons _
      · next k hk =>
        obtain ⟨e, he, rfl⟩ := Option.map_eq_some_iff.mp hk
        split at he
        · obtain rfl := Option.some.inj he
          exact ih.cons_cons _
        · cases he
  exact Std.ExtTreeMap.nodup_keys.sublist hsub

end EventLoop

theorem frame_of_interpretations {moment : Nat → Timestamp × Bool} {k : Nat} {action : Action}
    (h : action ∈ interpretations moment handle c k frames) :
    ∃ now k frame sent, action = .frame now k frame sent := by
  induction frames generalizing c k with
  | nil => cases h
  | cons frame frames ih =>
    simp only [interpretations] at h
    rcases List.mem_cons.mp h with rfl | h
    · exact ⟨_, _, _, _, rfl⟩
    · split at h
      · cases h
      · exact ih h

theorem frame_of_servings {action : Action} (h : action ∈ servings w c entries) :
    ∃ now k frame sent, action = .frame now k frame sent := by
  induction entries generalizing c with
  | nil => cases h
  | cons e entries ih =>
    rcases List.mem_append.mp h with h | h
    · exact frame_of_interpretations h
    · exact ih h

/-- Where nobody is connected, frames connect nobody. -/
theorem absent_run_frames {actions : List Action} {k : Nat}
    (h : ∀ action ∈ actions, ∃ now k frame sent, action = .frame now k frame sent)
    (hs : c.sessions[k]? = none) : (c.run actions).sessions[k]? = none := by
  induction actions generalizing c with
  | nil => exact hs
  | cons action actions ih =>
    rw [List.forall_mem_cons] at h
    refine ih h.2 ?_
    obtain ⟨now, handle, frame, sent, rfl⟩ := h.1
    have hstep := sessions_interpret (k := k) c now handle frame sent
    rw [hs, Option.isSome_none, Bool.false_and, ite_self] at hstep
    exact Option.not_isSome_iff_eq_none.mp (Bool.eq_false_iff.mp hstep)

/-- When a frame is interpreted, every session that its pass found dead has been retired. -/
theorem EventLoop.deaths_come_first {before later : List Action} {now : Timestamp} {k : Nat}
    {frame : Frame} {sent : Bool}
    (h : loop.actions w = before ++ .frame now k frame sent :: later) (hd : handle ∈ loop.dead w) :
    (loop.coordinator.run before).sessions[handle]? = none := by
  have hmem : Action.frame now k frame sent ∈ loop.actions w :=
    h ▸ List.mem_append_right _ List.mem_cons_self
  unfold actions at h hmem
  split at h
  · next hidle =>
    rw [if_pos hidle] at hmem
    cases hmem
  · split at h
    · next hrun hstop =>
      rw [if_neg hrun, if_pos hstop, List.mem_singleton] at hmem
      cases hmem
    · generalize hx : (w.waiting.map Action.connect).toList ++ (loop.dead w).map .close = calls at h
      have hcalls : ∀ action ∈ calls, ∀ now k frame sent, action ≠ .frame now k frame sent := by
        intro action hm now k frame sent he
        subst he
        rw [← hx] at hm
        rcases List.mem_append.mp hm with hm | hm
        · rw [Option.mem_toList] at hm
          obtain ⟨_, -, he⟩ := Option.map_eq_some_iff.mp hm
          cases he
        · obtain ⟨_, -, he⟩ := List.mem_map.mp hm
          cases he
      obtain ⟨front, rfl, hfront⟩ : ∃ front, before = calls ++ front ∧
          servings w (loop.retired w) (loop.delivered w) =
            front ++ .frame now k frame sent :: later := by
        rcases List.append_eq_append_iff.mp h with ⟨front, hb, hs⟩ | ⟨rest, hc, hs⟩
        · exact ⟨front, hb, hs⟩
        · cases rest with
          | nil => exact ⟨[], by simpa using hc.symm, by simpa using hs.symm⟩
          | cons action rest =>
            obtain ⟨rfl, -⟩ := List.cons.inj hs
            exact (hcalls _ (hc ▸ List.mem_append_right _ List.mem_cons_self) _ _ _ _ rfl).elim
      rw [Coordinator.run_append, ← hx, ← EventLoop.retired_eq]
      refine absent_run_frames (fun action hm => ?_) ?_
      · exact frame_of_servings (hfront ▸ List.mem_append_left _ hm)
      · rw [EventLoop.retired, retired_sessions, if_pos hd]

omit [StdLib] in
theorem size_insert_of_some {m : Std.ExtTreeMap Nat Session} {session session' : Session}
    (h : m[handle]? = some session) : (m.insert handle session').size = m.size := by
  rw [Std.ExtTreeMap.size_insert]
  exact if_pos (Std.ExtTreeMap.mem_iff_isSome_getElem?.mpr (h ▸ rfl))

omit [StdLib] in
theorem size_dropSession (c : Coordinator) (handle : Nat) (reason : Text) :
    (c.dropSession handle reason).sessions.size ≤ c.sessions.size := by
  unfold Coordinator.dropSession
  split
  · exact Nat.le_refl _
  · exact Std.ExtTreeMap.size_erase_le

/-- There are never more sessions than the limit on connections. -/
theorem bounded_after (h : c.sessions.size ≤ c.config.limits.maxConnections) (action : Action) :
    (c.after action).sessions.size ≤ c.config.limits.maxConnections := by
  cases action with
  | connect handle =>
    unfold Coordinator.after Coordinator.accept
    dsimp only
    split
    · next hroom =>
      rw [Bool.and_eq_true, decide_eq_true_eq] at hroom
      exact Std.ExtTreeMap.size_insertIfNew_le.trans hroom.2
    · exact h
  | frame now handle frame sent =>
    unfold Coordinator.after Coordinator.interpret
    dsimp only
    split
    · exact h
    · next session hs =>
      split
      · exact (size_insert_of_some hs).trans_le h
      · exact (size_dropSession _ _ _).trans ((size_insert_of_some hs).trans_le h)
  | close handle => exact (size_dropSession c handle _).trans h
  | shutdown => exact Nat.zero_le _

end Turns

namespace EventLoop
variable [StdLib]

/-- The loop of a coordinator that has started: nobody is connected. -/
def start (config : CoordinatorConfig) (registry : Impl) : EventLoop :=
  { coordinator := { config, registry } }

/-- The passes of the loop are a run of the coordinator, in which there are never more sessions than
the limit and in each pass the sessions found dead are gone before a frame is interpreted. -/
theorem event_loop_refines (config : CoordinatorConfig) (registry : Impl) (ws : List Wakeup) :
    ((start config registry).run ws).coordinator =
      (start config registry).coordinator.run ((start config registry).history ws) ∧
    (∀ done, done <+: (start config registry).history ws →
      ((start config registry).coordinator.run done).sessions.size ≤
        config.limits.maxConnections) ∧
    ∀ earlier w later, ws = earlier ++ w :: later →
      ∀ before now k frame sent behind,
        ((start config registry).run earlier).actions w =
            before ++ .frame now k frame sent :: behind →
          ∀ handle ∈ ((start config registry).run earlier).dead w,
            (((start config registry).run earlier).coordinator.run before).sessions[handle]? =
              none := by
  refine ⟨run_coordinator _ ws, fun done _ => ?_, ?_⟩
  · have hbounded : ((start config registry).coordinator.run done).config = config ∧
        ((start config registry).coordinator.run done).sessions.size ≤
          config.limits.maxConnections :=
      Machine.run_invariant (P := fun c : Coordinator => c.config = config ∧
        c.sessions.size ≤ config.limits.maxConnections) ⟨rfl, Nat.zero_le _⟩
        (fun c action h => ⟨(c.config_after action).trans h.1,
          (bounded_after (h.2.trans_eq (by rw [h.1])) action).trans_eq (by rw [h.1])⟩) done
    exact hbounded.2
  · intro earlier w later _ before now k frame sent behind h handle hd
    exact deaths_come_first h hd

end EventLoop

section Streams
variable {limits : RegistryLimits} {decoder next : FrameDecoder} {data : List UInt8}
  {frames : List Frame}

/-- A call of `feed` that succeeds takes the frames it delivers off the front of what it holds and
leaves less than one. -/
theorem FrameDecoder.feed_whole (h : decoder.feed data = (.ok (), frames, next)) :
    next.limits = decoder.limits ∧ frames.flatMap frameBytes ++ next.buffer = decoder.buffer ++ data ∧
      scanFrame decoder.limits next.buffer = .more := by
  have hexact : Framing.Exact (scanFrame decoder.limits) frameBytes (Frame.Whole decoder.limits) :=
    exact_scanFrame
  obtain ⟨tail, -, hbytes, hstuck⟩ := hexact.drain framed_scanFrame
    (Nat.le_refl (decoder.buffer ++ data).length)
  unfold feed at h
  split at h
  · cases h
  · dsimp only at h
    rcases hd : Framing.drain (scanFrame decoder.limits) (decoder.buffer ++ data).length
      (decoder.buffer ++ data) with ⟨found, e | left⟩
    · rw [hd] at h
      cases h
    · rw [hd] at h hbytes hstuck
      obtain ⟨-, rfl, rfl⟩ := h
      obtain ⟨rfl, hmore⟩ := hstuck
      exact ⟨rfl, hbytes, hmore⟩

/-- A read that leaves the session open feeds its decoder. -/
theorem readSession_eq_some {arrival : Arrival}
    (h : readSession limits decoder arrival = (some frames, next)) :
    ∃ bytes, arrival = .data bytes ∧ decoder.feed bytes = (.ok (), frames, next) := by
  cases arrival with
  | ended => cases h
  | data bytes =>
    refine ⟨bytes, rfl, ?_⟩
    simp only [readSession] at h
    split at h
    · cases h
    · rcases hf : decoder.feed bytes with ⟨e | u, found, decoder'⟩
      · rw [hf] at h
        cases h
      · rw [hf] at h
        dsimp only at h
        split at h
        · cases h
        · obtain ⟨hfound, rfl⟩ := Prod.mk.inj h
          rw [Option.some.inj hfound]

end Streams

/-- The loop with, for each session, the bytes it sent and those of its frames that were
interpreted. -/
structure Chronicle where
  loop : EventLoop
  received : Nat → List UInt8 := fun _ => []
  interpreted : Nat → List Frame := fun _ => []

def Arrival.bytes : Arrival → List UInt8
  | .ended => []
  | .data bytes => bytes

namespace Chronicle
variable [StdLib]

section Turning
variable (t : Chronicle) (w : Wakeup)

/-- A pass that serves the sessions: it is not the last one, nor does it come after that. -/
def Serves : Prop :=
  t.loop.coordinator.listening = true ∧ w.asked = false ∧ t.loop.coordinator.requested = none

omit [StdLib] in
instance : Decidable (t.Serves w) := inferInstanceAs (Decidable (_ ∧ _ ∧ _))

/-- What is noted of a session is its own: a connection that comes later under the same handle
starts anew. -/
def turn : Chronicle :=
  if t.Serves w then
    { loop := t.loop.turn w
      received := fun handle =>
        if t.loop.coordinator.sessions.contains handle then
          t.received handle ++ ((w.ready handle).map Arrival.bytes).getD []
        else []
      interpreted := fun handle =>
        if t.loop.coordinator.sessions.contains handle then
          t.interpreted handle ++ framesOf handle (t.loop.actions w)
        else [] }
  else { t with loop := t.loop.turn w }

def run (ws : List Wakeup) : Chronicle := ws.foldl turn t

end Turning

variable {t : Chronicle} {w : Wakeup} {handle : Nat}

/-- What a decoder holds of the stream of its session. Frames are skipped only once shutdown is
requested. -/
structure Follows (t : Chronicle) (handle : Nat) (decoder : FrameDecoder) : Prop where
  limits : decoder.limits = t.loop.coordinator.config.limits
  unfinished : scanFrame decoder.limits decoder.buffer = .more
  stream : ∃ skipped, (t.interpreted handle ++ skipped).flatMap frameBytes ++ decoder.buffer =
    t.received handle ∧ (t.loop.coordinator.requested = none → skipped = [])

structure Faithful (t : Chronicle) : Prop where
  keyed : ∀ handle : Nat, (t.loop.decoders[handle]?).isSome =
    (t.loop.coordinator.sessions[handle]?).isSome
  follows : ∀ (handle : Nat) decoder, t.loop.decoders[handle]? = some decoder → t.Follows handle decoder

theorem turn_of_serves (h : t.Serves w) : (t.turn w).loop =
    { coordinator := t.loop.served w, decoders := t.loop.keptDecoders w (t.loop.served w) } := by
  rw [turn, if_pos h, EventLoop.turn, h.1, h.2.1, h.2.2]
  rfl

theorem actions_of_serves (h : t.Serves w) : framesOf handle (t.loop.actions w) =
    framesOf handle (servings w (t.loop.retired w) (t.loop.delivered w)) := by
  rw [EventLoop.actions, h.1, h.2.1, h.2.2]
  simp only [Bool.not_true, Bool.false_eq_true, if_false, Option.isSome_none, Bool.or_self,
    framesOf_append]
  have hcalls : framesOf handle (w.waiting.map Action.connect).toList = [] := by
    cases w.waiting <;> rfl
  have hdead : framesOf handle ((t.loop.dead w).map .close) = [] := by
    rw [framesOf, List.filterMap_map]
    exact List.filterMap_eq_nil_iff.mpr fun _ _ => rfl
  rw [hcalls, hdead]
  rfl

omit [StdLib] in
/-- Accepting a connection leaves the sessions that are there. -/
theorem live_accepted (h : (t.loop.coordinator.sessions[handle]?).isSome = true) :
    ((t.loop.accepted w).sessions[handle]?).isSome = true := by
  obtain ⟨session, hs⟩ := Option.isSome_iff_exists.mp h
  unfold EventLoop.accepted
  split
  · exact h
  · exact Option.isSome_of_eq_some (Ledger.sessions_kept_by_accept hs _)

omit [StdLib] in
/-- A session that was not there before is the one that was accepted. -/
theorem accepted_live (h : ((t.loop.accepted w).sessions[handle]?).isSome = true)
    (hnew : t.loop.coordinator.sessions[handle]? = none) : w.waiting = some handle := by
  unfold EventLoop.accepted at h
  cases hw : w.waiting with
  | none =>
    rw [hw] at h
    simp [hnew] at h
  | some k =>
    rw [hw] at h
    dsimp only [Coordinator.accept] at h
    split at h
    · rw [OrdMap.getElem?_insertIfNew_eq] at h
      by_cases hk : k = handle
      · rw [hk]
      · simp [hk, hnew] at h
    · simp [hnew] at h

/-- A session that delivered nothing is there after the pass if it was accepted and is not dead. -/
theorem sessions_served (h : ∀ frames, (handle, frames) ∉ t.loop.delivered w) :
    (t.loop.served w).sessions[handle]?.isSome =
      ((t.loop.accepted w).sessions[handle]?.isSome && !decide (handle ∈ t.loop.dead w)) := by
  have hnone : handle ∉ (t.loop.delivered w).map Prod.fst := by
    intro hm
    obtain ⟨e, he, rfl⟩ := List.mem_map.mp hm
    exact h e.2 he
  refine (sessions_dispatchAll hnone).trans ?_
  rw [EventLoop.retired, retired_sessions]
  by_cases hd : handle ∈ t.loop.dead w
  · rw [if_pos hd, decide_eq_true hd, Bool.not_true, Bool.and_false]
    rfl
  · rw [if_neg hd, decide_eq_false hd, Bool.not_false, Bool.and_true]

omit [StdLib] in
theorem getElem?_keptDecoders (c : Coordinator) : (t.loop.keptDecoders w c)[handle]? =
    if c.sessions.contains handle then
      match t.loop.decoders[handle]? with
      | some decoder => some (((t.loop.reading w handle).map Prod.snd).getD decoder)
      | none => if w.waiting = some handle then some { limits := t.loop.coordinator.config.limits }
        else none
    else none := by
  unfold EventLoop.keptDecoders
  dsimp only
  rw [Std.ExtTreeMap.getElem?_filter']
  cases hc : c.sessions.contains handle with
  | false => simp
  | true =>
    rw [if_pos rfl]
    cases w.waiting with
    | none =>
      rw [Std.ExtTreeMap.getElem?_map]
      cases t.loop.decoders[handle]? <;> simp
    | some k =>
      rw [OrdMap.getElem?_insertIfNew_eq, Std.ExtTreeMap.getElem?_map, Std.ExtTreeMap.getElem?_map]
      by_cases hk : k = handle
      · subst hk
        cases t.loop.decoders[k]? <;> simp
      · cases t.loop.decoders[handle]? <;> simp [hk]

omit [StdLib] in
/-- A session that is not ready, or that brings no whole frame, delivers nothing. -/
theorem not_delivered (h : ∀ frames next, t.loop.reading w handle = some (some frames, next) →
    frames = []) : ∀ frames, (handle, frames) ∉ t.loop.delivered w := by
  intro frames hm
  obtain ⟨-, hne, next, hr⟩ := EventLoop.mem_delivered.mp hm
  exact hne (h frames next hr)

theorem loop_turn (t : Chronicle) (w : Wakeup) : (t.turn w).loop = t.loop.turn w := by
  unfold turn
  split <;> rfl

theorem config_turn (t : Chronicle) (w : Wakeup) :
    (t.turn w).loop.coordinator.config = t.loop.coordinator.config := by
  rw [loop_turn, EventLoop.turn_coordinator]
  exact Machine.run_invariant (P := fun c : Coordinator => c.config = t.loop.coordinator.config) rfl
    (fun c action h => (c.config_after action).trans h) _

/-- Of a session that delivered nothing no frame is interpreted. -/
theorem framesOf_silent (hs : t.Serves w) (h : ∀ frames, (handle, frames) ∉ t.loop.delivered w) :
    framesOf handle (t.loop.actions w) = [] := by
  rw [actions_of_serves hs]
  apply framesOf_stranger
  intro hm
  obtain ⟨e, he, rfl⟩ := List.mem_map.mp hm
  exact h e.2 he

/-- A session that delivered frames has an initial part of them interpreted, and all of them if it
outlives the pass and there is no request to shut down. -/
theorem framesOf_served (hs : t.Serves w) {next : FrameDecoder} {frames : List Frame}
    (hold : (t.loop.coordinator.sessions[handle]?).isSome = true)
    (hr : t.loop.reading w handle = some (some frames, next)) :
    ∃ skipped, framesOf handle (t.loop.actions w) ++ skipped = frames ∧
      ((t.loop.served w).requested = none →
        ((t.loop.served w).sessions[handle]?).isSome = true → skipped = []) := by
  cases frames with
  | nil =>
    have hno : ∀ found, (handle, found) ∉ t.loop.delivered w := by
      refine not_delivered fun found next' hf => ?_
      rw [hr] at hf
      exact (Option.some.inj (Prod.mk.inj (Option.some.inj hf)).1).symm
    exact ⟨[], by rw [framesOf_silent hs hno]; rfl, fun _ _ => rfl⟩
  | cons frame frames =>
    rw [actions_of_serves hs]
    have hm : (handle, frame :: frames) ∈ t.loop.delivered w :=
      EventLoop.mem_delivered.mpr ⟨hold, List.cons_ne_nil _ _, next, hr⟩
    obtain ⟨⟨skipped, hsk⟩, hall⟩ := framesOf_servings (w := w) (c := t.loop.retired w)
      (EventLoop.delivered_nodup t.loop w) hm
    refine ⟨skipped, hsk, fun hreq hlive => ?_⟩
    have hwhole := hall hreq hlive
    rw [hwhole] at hsk
    exact List.append_right_eq_self.mp hsk

/-- A session that is served follows on: what it sends is what its frames take off the front and
what its decoder holds. -/
theorem Follows.turn {decoder : FrameDecoder} (hf : t.Follows handle decoder)
    (hs : t.Serves w) (hd : t.loop.decoders[handle]? = some decoder)
    (hold : (t.loop.coordinator.sessions[handle]?).isSome = true)
    (hlive : ((t.loop.served w).sessions[handle]?).isSome = true) :
    (t.turn w).Follows handle (((t.loop.reading w handle).map Prod.snd).getD decoder) := by
  obtain ⟨before, hbytes, hbefore⟩ := hf.stream
  obtain rfl := hbefore hs.2.2
  rw [List.append_nil] at hbytes
  have hcontains : t.loop.coordinator.sessions.contains handle = true :=
    Std.ExtTreeMap.contains_iff_mem.mpr (Std.ExtTreeMap.mem_iff_isSome_getElem?.mpr hold)
  have hreceived : (t.turn w).received handle =
      t.received handle ++ ((w.ready handle).map Arrival.bytes).getD [] := by
    rw [Chronicle.turn, if_pos hs]
    exact if_pos hcontains
  have hinterpreted : (t.turn w).interpreted handle =
      t.interpreted handle ++ framesOf handle (t.loop.actions w) := by
    rw [Chronicle.turn, if_pos hs]
    exact if_pos hcontains
  have hreading : t.loop.reading w handle = (w.ready handle).map
      (readSession t.loop.coordinator.config.limits decoder) := by
    rw [EventLoop.reading, hd]
    cases w.ready handle <;> rfl
  have hloop := turn_of_serves hs
  cases hw : w.ready handle with
  | none =>
    rw [hw] at hreading
    have hno : ∀ found, (handle, found) ∉ t.loop.delivered w := by
      refine not_delivered fun found next' hn => ?_
      rw [hreading] at hn
      cases hn
    rw [hreading, Option.map_none, Option.map_none, Option.getD_none]
    refine ⟨?_, hf.unfinished, [], ?_, fun _ => rfl⟩
    · rw [config_turn, hf.limits]
    · rw [hreceived, hinterpreted, hw, framesOf_silent hs hno, List.append_nil, List.append_nil,
        hbytes]
      exact (List.append_nil _).symm
  | some arrival =>
    rw [hw] at hreading
    rcases hr : readSession t.loop.coordinator.config.limits decoder arrival with ⟨found, next⟩
    rw [Option.map_some, hr] at hreading
    cases found with
    | none =>
      have hno : ∀ found, (handle, found) ∉ t.loop.delivered w := by
        refine not_delivered fun found next' hn => ?_
        rw [hreading] at hn
        cases hn
      have hdead : handle ∈ t.loop.dead w := EventLoop.mem_dead.mpr ⟨hold, next, hreading⟩
      rw [sessions_served hno, decide_eq_true hdead, Bool.not_true, Bool.and_false] at hlive
      cases hlive
    | some frames =>
      obtain ⟨bytes, rfl, hfeed⟩ := readSession_eq_some hr
      obtain ⟨hlimits, htaken, hmore⟩ := FrameDecoder.feed_whole hfeed
      obtain ⟨skipped, hsk, hnone⟩ := framesOf_served hs hold hreading
      rw [hreading, Option.map_some, Option.getD_some]
      refine ⟨?_, ?_, skipped, ?_, ?_⟩
      · rw [config_turn, hlimits, hf.limits]
      · rw [hlimits]
        exact hmore
      · rw [hreceived, hinterpreted, hw, List.append_assoc, hsk, List.flatMap_append,
          List.append_assoc, htaken, ← List.append_assoc, hbytes]
        rfl
      · rw [hloop]
        exact fun hreq => hnone hreq hlive

theorem Faithful.turn (h : t.Faithful) (w : Wakeup) : (t.turn w).Faithful := by
  by_cases hs : t.Serves w
  · have hloop := turn_of_serves hs
    have hcontains : ∀ handle : Nat, (t.loop.served w).sessions.contains handle =
        ((t.loop.served w).sessions[handle]?).isSome := fun _ =>
      Std.ExtTreeMap.contains_eq_isSome_getElem?
    -- where there was no decoder, a session that is there now was accepted in this pass
    have hnew : ∀ handle : Nat, t.loop.decoders[handle]? = none →
        ((t.loop.served w).sessions[handle]?).isSome = true → w.waiting = some handle ∧
          t.loop.coordinator.sessions[handle]? = none := by
      intro handle hd hlive
      have hno : t.loop.coordinator.sessions[handle]? = none := by
        have hk := h.keyed handle
        rw [hd] at hk
        exact Option.isNone_iff_eq_none.mp (by rw [← Option.not_isSome, ← hk]; rfl)
      have hsilent : ∀ found, (handle, found) ∉ t.loop.delivered w := by
        intro found hm
        obtain ⟨hold, -⟩ := EventLoop.mem_delivered.mp hm
        rw [hno] at hold
        cases hold
      rw [sessions_served hsilent, Bool.and_eq_true] at hlive
      exact ⟨accepted_live hlive.1 hno, hno⟩
    refine ⟨fun handle => ?_, fun handle decoder hd => ?_⟩
    · rw [hloop]
      dsimp only
      rw [getElem?_keptDecoders, hcontains]
      cases hlive : ((t.loop.served w).sessions[handle]?).isSome with
      | false => rfl
      | true =>
        rw [if_pos rfl]
        cases hd : t.loop.decoders[handle]? with
        | some decoder => rfl
        | none => rw [if_pos (hnew handle hd hlive).1]; rfl
    · rw [hloop] at hd
      dsimp only at hd
      rw [getElem?_keptDecoders, hcontains] at hd
      split at hd
      · next hlive =>
        cases hold : t.loop.decoders[handle]? with
        | some before =>
          rw [hold] at hd
          obtain rfl := Option.some.inj hd
          exact (h.follows handle before hold).turn hs hold
            ((h.keyed handle).symm.trans (by rw [hold]; rfl)) hlive
        | none =>
          rw [hold] at hd
          obtain ⟨hwaiting, hno⟩ := hnew handle hold hlive
          rw [if_pos hwaiting] at hd
          obtain rfl := Option.some.inj hd
          have hgone : ¬ t.loop.coordinator.sessions.contains handle = true := by
            rw [Std.ExtTreeMap.contains_eq_isSome_getElem?, hno]
            exact Bool.false_ne_true
          refine ⟨by rw [config_turn], framed_scanFrame.empty, [], ?_, fun _ => rfl⟩
          rw [Chronicle.turn, if_pos hs]
          dsimp only
          rw [if_neg hgone, if_neg hgone]
          rfl
      · cases hd
  · rw [Chronicle.turn, if_neg hs]
    by_cases hidle : t.loop.coordinator.listening = true
    · -- the last pass: no session is left, nor a decoder
      have hstop : t.loop.turn w = { coordinator := t.loop.coordinator.stop } := by
        rw [EventLoop.turn, hidle]
        refine if_pos (Bool.or_eq_true_iff.mpr ?_)
        by_contra hno
        rw [not_or, Bool.not_eq_true, Bool.not_eq_true, Option.isSome_eq_false_iff,
          Option.isNone_iff_eq_none] at hno
        exact hs ⟨hidle, hno⟩
      rw [hstop]
      refine ⟨fun handle => ?_, fun handle decoder hd => ?_⟩
      · rw [Coordinator.stop]
        simp
      · rw [Std.ExtTreeMap.getElem?_empty] at hd
        cases hd
    · have hsame : t.loop.turn w = t.loop := by
        rw [EventLoop.turn, Bool.eq_false_iff.mpr hidle]
        rfl
      rw [hsame]
      exact h

theorem Faithful.run (h : t.Faithful) (ws : List Wakeup) : (t.run ws).Faithful :=
  Machine.run_invariant h (fun _ w ht => Faithful.turn ht w) ws

theorem loop_run (t : Chronicle) (ws : List Wakeup) : (t.run ws).loop = t.loop.run ws := by
  induction ws generalizing t with
  | nil => rfl
  | cons w ws ih =>
    refine (ih (t.turn w)).trans ?_
    rw [loop_turn]
    rfl

def start (config : CoordinatorConfig) (registry : Impl) : Chronicle :=
  { loop := EventLoop.start config registry }

/-- Whatever the passes bring, a live session is answered frame by frame in the order in which it
sent them: what it sent since it was accepted is the frames that were interpreted, then those that
are skipped for a request to shut down, then less than a frame. -/
theorem sessions_are_answered_in_order (config : CoordinatorConfig) (registry : Impl)
    (ws : List Wakeup) :
    ((start config registry).run ws).loop = (EventLoop.start config registry).run ws ∧
      ∀ handle, (((start config registry).run ws).loop.coordinator.sessions[handle]?).isSome =
        true → ∃ skipped rest,
          (((start config registry).run ws).interpreted handle ++ skipped).flatMap frameBytes ++
            rest = ((start config registry).run ws).received handle ∧
          scanFrame config.limits rest = .more ∧
          (((start config registry).run ws).loop.coordinator.requested = none →
            skipped = []) := by
  have hstart : (start config registry).Faithful := by
    refine ⟨fun handle => ?_, fun handle decoder hd => ?_⟩
    · rw [start, EventLoop.start]
      simp
    · rw [start, EventLoop.start] at hd
      simp at hd
  have hrun := hstart.run ws
  have hconfig : ((start config registry).run ws).loop.coordinator.config = config :=
    Machine.run_invariant (P := fun t : Chronicle => t.loop.coordinator.config = config) rfl
      (fun t w h => (config_turn t w).trans h) ws
  refine ⟨loop_run _ ws, fun handle hlive => ?_⟩
  rw [← hrun.keyed handle] at hlive
  obtain ⟨decoder, hd⟩ := Option.isSome_iff_exists.mp hlive
  have hf := hrun.follows handle decoder hd
  obtain ⟨skipped, hstream, hskip⟩ := hf.stream
  refine ⟨skipped, decoder.buffer, hstream, ?_, hskip⟩
  rw [← hconfig, ← hf.limits]
  exact hf.unfinished

end Chronicle

end CapabilityRegistry
