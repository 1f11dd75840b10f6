import CapabilityRegistry.Lib.Machine
import CapabilityRegistry.Image
import CapabilityRegistry.Lifetimes
import CapabilityRegistry.Sessions

/-! The coordinators that follow one another over one state file. -/
namespace CapabilityRegistry

/-- The calls a coordinator makes on its registry between its start and its end. -/
inductive Serving : Op → Prop
  | registerPublisher (now : Timestamp) (identity : PublisherIdentity) (adapter : Text) :
    Serving (.registerPublisher now identity adapter)
  | fencePublisher (id : PublisherId) (reason : Text) : Serving (.fencePublisher id reason)
  | retirePublisherBoot (id : PublisherId) (boot : PublisherBootId) (reason : Text) :
    Serving (.retirePublisherBoot id boot reason)
  | apply (now : Timestamp) (publication : Publication) : Serving (.apply now publication)
  | snapshot : Serving .snapshot
  | beginShutdown : Serving .beginShutdown

section Serving
variable [StdLib] {r r' s : Impl} {op : Op}

/-- A registry that some calls of a coordinator lead to. -/
def Impl.Serves (r r' : Impl) : Prop := ∃ ops, (∀ op ∈ ops, Serving op) ∧ r' = r.run ops

namespace Impl

theorem Serves.refl (r : Impl) : r.Serves r := ⟨[], by simp, rfl⟩

theorem serves_after (r : Impl) (h : Serving op) : r.Serves (r.after op) := ⟨[op], by simpa, rfl⟩

theorem Serves.trans (h : r.Serves r') (h' : r'.Serves s) : r.Serves s := by
  obtain ⟨ops, hops, rfl⟩ := h
  obtain ⟨ops', hops', rfl⟩ := h'
  refine ⟨ops ++ ops', fun op hop => ?_, (List.foldl_append ..).symm⟩
  rcases List.mem_append.mp hop with hop | hop
  · exact hops op hop
  · exact hops' op hop

theorem Serves.keeps {P : Impl → Prop} (h : r.Serves r') (hr : P r)
    (hstep : ∀ r op, Serving op → P r → P (r.after op)) : P r' := by
  obtain ⟨ops, hops, rfl⟩ := h
  induction ops generalizing r with
  | nil => exact hr
  | cons op ops ih =>
    have hop := hops op List.mem_cons_self
    exact ih (hstep r op hop hr) fun op' h' => hops op' (List.mem_cons_of_mem op h')

theorem Serves.epoch (h : r.Serves r') : r'.epoch = r.epoch := by
  refine h.keeps (P := fun s => s.epoch = r.epoch) rfl fun s op hop hs => ?_
  rw [← hs]
  cases hop <;> exact epoch_kept (by simp) (by simp) (by simp)

end Impl

theorem serves_retireSession (r : Impl) (session : Session) (reason : Text) :
    r.Serves (retireSession r session reason) := by
  unfold retireSession
  split
  · exact r.serves_after (.retirePublisherBoot _ _ _)
  · exact .refl r

end Serving

namespace Coordinator
variable [StdLib] (c : Coordinator)

theorem serves_dropSession (handle : Nat) (reason : Text) :
    c.registry.Serves (c.dropSession handle reason).registry := by
  unfold dropSession
  split
  · exact .refl _
  · exact serves_retireSession _ _ _

theorem serves_interpret (now : Timestamp) (handle : Nat) (frame : Frame) (sent : Bool) :
    c.registry.Serves (c.interpret now handle frame sent).registry := by
  unfold interpret
  cases c.sessions[handle]? with
  | none => exact .refl _
  | some session =>
    have hd : c.registry.Serves (dispatch c.config now c.registry session frame).registry := by
      have h : Dispatches c.config now c.registry session frame _ _ _ _ := dispatches
      generalize (dispatch c.config now c.registry session frame).registry = r at h ⊢
      generalize (dispatch c.config now c.registry session frame).session = session' at h
      generalize grantedBy c.config now c.registry session frame = granted at h
      generalize publishedBy c.config now c.registry frame = published at h
      cases h with
      | unmoved | greeted => exact .refl _
      | counted => exact c.registry.serves_after .snapshot
      | fenced id reason => exact c.registry.serves_after (.fencePublisher id reason)
      | refused request => exact c.registry.serves_after (.registerPublisher now _ _)
      | granted request applied asks call =>
        exact call ▸ c.registry.serves_after (.registerPublisher now _ _)
      | published publication => exact c.registry.serves_after (.apply now publication)
      | registered publication applied carries kind call =>
        exact call ▸ c.registry.serves_after (.apply now publication)
    dsimp only
    split
    · exact hd
    · exact hd.trans (serves_dropSession _ _ _)

theorem serves_stop : c.registry.Serves c.stop.registry := by
  have hfold : ∀ (sessions : List (Nat × Session)) (r : Impl),
      r.Serves (sessions.foldl (fun registry e => retireSession registry e.2
        "coordinator shutdown; boot identity retired") r) := by
    intro sessions
    induction sessions with
    | nil => exact .refl
    | cons e sessions ih => exact fun r => (serves_retireSession r e.2 _).trans (ih _)
  exact (hfold _ _).trans (Impl.serves_after _ .beginShutdown)

/-- Whatever a coordinator does, it only makes its calls on the registry. -/
theorem serves (action : Action) : c.registry.Serves (c.after action).registry := by
  cases action with
  | connect handle => exact (registry_accept c handle).symm ▸ .refl _
  | frame now handle frame sent => exact serves_interpret c now handle frame sent
  | close handle => exact serves_dropSession c handle _
  | shutdown => exact serves_stop c

end Coordinator

/-- What the environment answers a coordinator: whether it may listen, and how its reads and its
writes of the state file end. -/
structure Surroundings where
  listener : Status := .ok ()
  reads : Status := .ok ()
  writes : Status := .ok ()

section Processes
variable [StdLib] (config : CoordinatorConfig) (now : Timestamp) (around : Surroundings)
  (file : StateFile)

/-- The state a coordinator finds. Without a state path there is no store, and a missing file is a
first start. -/
def restore : Except Error (Option DurableState) :=
  if config.statePath.isEmpty then .ok none
  else match file with
    | none => .ok none
    | some bytes => some <$> FileStateStore.load {} around.reads bytes

/-- What a coordinator writes of its registry. The store has limits of its own, the default
ones. -/
def saveState (registry : Impl) : Except Error (List UInt8) :=
  FileStateStore.save {} around.writes (registry.exportDurableState now)

/-- `start`: the coordinator, and what it has written. -/
def Coordinator.start : Except Error (Coordinator × StateFile) := do
  around.listener
  let image ← restore config around file
  let c ← Coordinator.started config image
  if !config.statePath.isEmpty && config.persistOnMutation then
    let bytes ← saveState now around c.registry
    pure (c, some bytes)
  else pure (c, none)

/-- What the end of `run` writes. -/
def Coordinator.finish (c : Coordinator) : StateFile :=
  if c.config.statePath.isEmpty then none
  else (saveState now around c.stop.registry).toOption

end Processes

/-- One state path through the coordinators that use it: what the file holds, which coordinator
runs, the epochs in force after the starts so far, and whether the file has been written since
the last of them began. -/
structure Installation where
  path : Text
  file : StateFile := none
  running : Option Coordinator := none
  epochs : List CoordinatorEpoch := []
  saved : Bool := false

/-- A coordinator starts, does something, ends in order or crashes. One runs at a time. -/
inductive Incident
  | start (config : CoordinatorConfig) (now : Timestamp) (around : Surroundings)
  | act (action : Action)
  | finish (now : Timestamp) (around : Surroundings)
  | crash

namespace Installation
variable [StdLib] (i : Installation)

/-- The file is replaced as a whole or left as it is. -/
def write (written : StateFile) : Installation :=
  { i with file := written.or i.file, saved := i.saved || written.isSome }

def started (c : Coordinator) (written : StateFile) : Installation :=
  { i with running := some c, epochs := i.epochs ++ [c.registry.epoch], saved := false }.write
    written

/-- A start that fails leaves the file alone. -/
def after : Incident → Installation
  | .start config now around =>
    match i.running with
    | some _ => i
    | none =>
      match Coordinator.start { config with statePath := i.path } now around i.file with
      | .error _ => i
      | .ok (c, written) => i.started c written
  | .act action => { i with running := i.running.map (·.after action) }
  | .finish now around =>
    match i.running with
    | none => i
    | some c => { i with running := none }.write (c.finish now around)
  | .crash => { i with running := none }

def run (incidents : List Incident) : Installation := incidents.foldl after i

/-- A coordinator that follows another finds a file that the one before has written, and the epoch
in the file is not the last one. -/
def Kept : Incident → Prop
  | .start _ _ _ => (i.epochs ≠ [] → i.saved = true) ∧
    ∀ bytes state, i.file = some bytes → decodeDurableState {} bytes = .ok state →
      state.header.epoch ≠ .last
  | _ => True

end Installation

section Epochs
variable [StdLib] {config : CoordinatorConfig} {now : Timestamp} {around : Surroundings}
  {file written : StateFile} {c : Coordinator} {r base : Impl} {state : DurableState}
  {bytes : List UInt8} {limits : RegistryLimits} {image : Option DurableState}

/-- What was written of a registry records its epoch. -/
theorem epoch_of_saveState (h : saveState now around r = .ok bytes)
    (hd : decodeDurableState {} bytes = .ok state) : state.header.epoch = r.epoch := by
  simp only [saveState, FileStateStore.save, bind_eq_ok, pure, Except.pure, Except.ok.injEq] at h
  obtain ⟨encoded, he, -, -, rfl⟩ := h
  exact epoch_decodeDurableState he hd

/-- A recovered registry is in the epoch of the file, or in the first one when that is later. -/
structure EpochOf (state : DurableState) (base : Impl) : Prop where
  le : state.header.epoch ≤ base.epoch
  valid : base.epoch.valid = true
  kept : base.epoch = .first ∨ base.epoch = state.header.epoch

theorem Recovers.epoch (h : Recovers limits (some state) base) : EpochOf state base := by
  cases h with
  | restored state staged imports =>
    by_cases hlater : state.header.epoch.valid = true ∧ .first < state.header.epoch
    · have he : ((Impl.fresh limits).commit state staged).epoch = state.header.epoch :=
        if_pos (Bool.and_eq_true_iff.mpr ⟨hlater.1, decide_eq_true hlater.2⟩)
      exact ⟨he ▸ Gen.le_refl _, he ▸ hlater.1, .inr he⟩
    · have he : ((Impl.fresh limits).commit state staged).epoch = .first :=
        if_neg fun hc => hlater <| by
          obtain ⟨hv, hlt⟩ := Bool.and_eq_true_iff.mp hc
          exact ⟨hv, of_decide_eq_true hlt⟩
      refine ⟨?_, he ▸ rfl, .inl he⟩
      rw [he]
      by_cases hv : state.header.epoch.valid = true
      · exact Gen.not_lt.mp fun hlt => hlater ⟨hv, hlt⟩
      · rw [eq_default_of_not_valid hv]
        exact Gen.le_of_lt default_lt_first

/-- A coordinator that follows a file is in a later epoch than the file. -/
theorem epoch_started (h : Coordinator.started config (some state) = .ok c)
    (hlast : state.header.epoch ≠ .last) : state.header.epoch < c.registry.epoch := by
  obtain ⟨base, hb, rfl⟩ := started_eq_ok h
  have hepoch := hb.epoch
  have hroom : base.epoch ≠ .last := by
    rcases hepoch.kept with he | he
    · rw [he]
      decide
    · rwa [he]
  have hnext : (base.advanceCoordinatorEpoch.resetPublisherLiveness
      "coordinator restarted; publisher liveness is not restored").epoch = base.epoch.next :=
    if_pos hepoch.valid
  rw [hnext]
  exact Gen.lt_of_le_of_lt hepoch.le (Gen.lt_next hroom)

theorem start_eq_ok (h : Coordinator.start config now around file = .ok (c, written)) :
    (∃ image, restore config around file = .ok image ∧
      Coordinator.started config image = .ok c) ∧
    (written = none ∨ (config.statePath ≠ [] ∧
      ∃ bytes, saveState now around c.registry = .ok bytes ∧ written = some bytes)) := by
  simp only [Coordinator.start, bind_eq_ok] at h
  obtain ⟨-, -, image, himage, c', hc, h⟩ := h
  split at h
  · next hpersist =>
    simp only [bind_eq_ok, pure, Except.pure, Except.ok.injEq] at h
    obtain ⟨bytes, hbytes, ⟨⟩⟩ := h
    simp only [Bool.and_eq_true, Bool.not_eq_true', List.isEmpty_eq_false_iff] at hpersist
    exact ⟨⟨image, himage, hc⟩, .inr ⟨hpersist.1, bytes, hbytes, rfl⟩⟩
  · obtain ⟨⟩ := h
    exact ⟨⟨image, himage, hc⟩, .inl rfl⟩

/-- What a start has written records the epoch of its coordinator. -/
theorem epoch_of_start (h : Coordinator.start config now around file = .ok (c, some bytes))
    (hd : decodeDurableState {} bytes = .ok state) : state.header.epoch = c.registry.epoch := by
  rcases (start_eq_ok h).2 with hn | ⟨-, bytes', hsave, he⟩
  · cases hn
  · obtain rfl := Option.some.inj he
    exact epoch_of_saveState hsave hd

/-- A start that reads what it finds and writes what it restores. -/
theorem start_of_restored {config : CoordinatorConfig} {file : StateFile}
    {image : Option DurableState} {c : Coordinator} (hrestore : restore config {} file = .ok image)
    (hc : Coordinator.started config image = .ok c)
    (hpersist : (!config.statePath.isEmpty && config.persistOnMutation) = true)
    (hsave : saveState now {} c.registry = .ok bytes) :
    Coordinator.start config now {} file = .ok (c, some bytes) := by
  simp [Coordinator.start, hrestore, hc, hpersist, hsave, bind, Except.bind, pure, Except.pure]

/-- What an end has written is what is saved of the registry behind it. -/
theorem finish_eq_some (h : c.finish now around = some bytes) :
    c.config.statePath ≠ [] ∧ saveState now around c.stop.registry = .ok bytes := by
  unfold Coordinator.finish at h
  split at h
  · cases h
  · next hpath =>
    refine ⟨by simpa using hpath, ?_⟩
    cases hs : saveState now around c.stop.registry with
    | error e => simp [hs, Except.toOption] at h
    | ok written => simpa [hs, Except.toOption] using h

omit [StdLib] in
/-- The image a coordinator starts from is the one the file decodes to. -/
theorem restore_of_file (hpath : config.statePath ≠ []) (h : restore config around (some bytes) =
    .ok image) : ∃ state, decodeDurableState {} bytes = .ok state ∧ image = some state := by
  rw [restore, if_neg (by simpa using hpath)] at h
  cases hl : FileStateStore.load {} around.reads bytes with
  | error e =>
    rw [hl] at h
    cases h
  | ok state =>
    rw [hl] at h
    simp only [FileStateStore.load, bind_eq_ok] at hl
    obtain ⟨-, -, -, -, hd⟩ := hl
    exact ⟨state, hd, (Except.ok.inj h).symm⟩

end Epochs

namespace Installation
variable [StdLib] {i : Installation} {config : CoordinatorConfig} {now : Timestamp}
  {around : Surroundings} {c : Coordinator} {written : StateFile}

/-- Every file that has been written since the last start records an epoch that none of the epochs
so far exceeds, and so does the coordinator that runs. -/
structure Sound (i : Installation) : Prop where
  ordered : i.epochs.Pairwise (· < ·)
  path : ∀ c, i.running = some c → c.config.statePath = i.path
  current : ∀ c, i.running = some c → ∀ e ∈ i.epochs, e ≤ c.registry.epoch
  recorded : i.saved = true → i.path ≠ [] ∧ ∃ bytes, i.file = some bytes ∧
    ∀ state, decodeDurableState {} bytes = .ok state → ∀ e ∈ i.epochs, e ≤ state.header.epoch

omit [StdLib] in
theorem Sound.write (h : i.Sound) (hw : ∀ bytes, written = some bytes → i.path ≠ [] ∧
    ∀ state, decodeDurableState {} bytes = .ok state → ∀ e ∈ i.epochs, e ≤ state.header.epoch) :
    (i.write written).Sound where
  ordered := h.ordered
  path := h.path
  current := h.current
  recorded hs := by
    cases written with
    | none => exact h.recorded (by simpa [Installation.write] using hs)
    | some bytes => exact ⟨(hw bytes rfl).1, bytes, rfl, (hw bytes rfl).2⟩

/-- Every epoch so far is before the one of a coordinator that starts. -/
theorem Sound.before_start (h : i.Sound) (hk : i.epochs ≠ [] → i.saved = true)
    (hroom : ∀ bytes state, i.file = some bytes → decodeDurableState {} bytes = .ok state →
      state.header.epoch ≠ .last)
    (hs : Coordinator.start { config with statePath := i.path } now around i.file =
      .ok (c, written)) : ∀ e ∈ i.epochs, e < c.registry.epoch := by
  intro e he
  obtain ⟨hpath, bytes, hfile, hle⟩ := h.recorded (hk (List.ne_nil_of_mem he))
  obtain ⟨⟨image, himage, hc⟩, -⟩ := start_eq_ok hs
  rw [hfile] at himage
  obtain ⟨state, hd, rfl⟩ := restore_of_file hpath himage
  exact Gen.lt_of_le_of_lt (hle state hd e he) (epoch_started hc (hroom bytes state hfile hd))

theorem Sound.started (h : i.Sound) (hlt : ∀ e ∈ i.epochs, e < c.registry.epoch)
    (hs : Coordinator.start { config with statePath := i.path } now around i.file =
      .ok (c, written)) : (i.started c written).Sound := by
  obtain ⟨⟨image, -, hc⟩, hw⟩ := start_eq_ok hs
  obtain ⟨base, -, rfl⟩ := started_eq_ok hc
  have hle : ∀ e ∈ i.epochs ++ [_], e ≤ _ := fun e he => by
    rcases List.mem_append.mp he with he | he
    · exact Gen.le_of_lt (hlt e he)
    · rw [List.mem_singleton.mp he]
      exact Gen.le_refl _
  refine Sound.write ⟨?_, ?_, ?_, ?_⟩ fun bytes hbytes => ?_
  · refine List.pairwise_append.mpr ⟨h.ordered, List.pairwise_singleton _ _, fun a ha b hb => ?_⟩
    rw [List.mem_singleton.mp hb]
    exact hlt a ha
  · rintro c ⟨⟩
    rfl
  · rintro c ⟨⟩
    exact hle
  · simp
  · rcases hw with rfl | ⟨hpath, -⟩
    · cases hbytes
    · refine ⟨hpath, fun state hd => ?_⟩
      rw [epoch_of_start (hbytes ▸ hs) hd]
      exact hle

theorem Sound.act (h : i.Sound) (action : Action) : (i.after (.act action)).Sound where
  ordered := h.ordered
  path c hc := by
    obtain ⟨c', hc', rfl⟩ := Option.map_eq_some_iff.mp hc
    rw [Coordinator.config_after]
    exact h.path c' hc'
  current c hc := by
    obtain ⟨c', hc', rfl⟩ := Option.map_eq_some_iff.mp hc
    rw [(c'.serves action).epoch]
    exact h.current c' hc'
  recorded := h.recorded

omit [StdLib] in
theorem Sound.ended (h : i.Sound) : Sound { i with running := none } where
  ordered := h.ordered
  path _ hc := nomatch hc
  current _ hc := nomatch hc
  recorded := h.recorded

theorem Sound.finish (h : i.Sound) (hr : i.running = some c) :
    ({ i with running := none }.write (c.finish now around)).Sound := by
  refine h.ended.write fun bytes hbytes => ?_
  obtain ⟨hpath, hsave⟩ := finish_eq_some hbytes
  refine ⟨h.path c hr ▸ hpath, fun state hd => ?_⟩
  rw [epoch_of_saveState hsave hd, c.serves_stop.epoch]
  exact h.current c hr

theorem after_start (hr : i.running = none)
    (hs : Coordinator.start { config with statePath := i.path } now around i.file =
      .ok (c, written)) : i.after (.start config now around) = i.started c written := by
  simp only [Installation.after, hr, hs]

theorem Sound.after (h : i.Sound) {incident : Incident} (hk : i.Kept incident) :
    (i.after incident).Sound := by
  cases incident with
  | start config now around =>
    cases hr : i.running with
    | some c => simpa only [Installation.after, hr] using h
    | none =>
      cases hs : Coordinator.start { config with statePath := i.path } now around i.file with
      | error e => simpa only [Installation.after, hr, hs] using h
      | ok p =>
        obtain ⟨c, written⟩ := p
        rw [after_start hr hs]
        exact h.started (h.before_start hk.1 hk.2 hs) hs
  | act action => exact h.act action
  | finish now around =>
    cases hr : i.running with
    | none => simpa only [Installation.after, hr] using h
    | some c => simpa only [Installation.after, hr] using h.finish hr
  | crash => exact h.ended

end Installation

namespace Sample

/-- A coordinator that writes the state file when it starts. -/
def persistentStart : Incident := .start { persistOnMutation := true } now {}

/-- The coordinator of such a start when there is no file yet. -/
def persistentCoordinator : Coordinator :=
  { coordinator with config := { statePath := "hcr.state", persistOnMutation := true } }

def neverWritten : List Incident := [.start {} now {}, .crash, .start {} now {}]

end Sample

theorem start_of_persistentStart : letI := StdLib.reference
    ∃ bytes, saveState Sample.now {} Sample.persistentCoordinator.registry = .ok bytes ∧
      Installation.after { path := "hcr.state" } Sample.persistentStart =
        Installation.started { path := "hcr.state" } Sample.persistentCoordinator (some bytes) := by
  let := StdLib.reference
  have hsaved : (saveState Sample.now {} Sample.persistentCoordinator.registry).toBool = true := by
    unfold Sample.persistentCoordinator Sample.coordinator
    rw [Impl.fresh_eq]
    decide +kernel
  cases hsave : saveState Sample.now {} Sample.persistentCoordinator.registry with
  | error e =>
    rw [hsave] at hsaved
    cases hsaved
  | ok bytes =>
    have hrestore : restore Sample.persistentCoordinator.config {} none = .ok none := rfl
    exact ⟨bytes, rfl, Installation.after_start rfl (start_of_restored hrestore rfl rfl hsave)⟩

namespace Installation

/-- Nothing is written before the first start. -/
example : letI := StdLib.reference
    (run { path := "hcr.state" } [.crash, .crash]).epochs = [] := by
  decide +kernel

end Installation

end CapabilityRegistry
