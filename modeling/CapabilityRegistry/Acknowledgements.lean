import CapabilityRegistry.Incarnations
import CapabilityRegistry.Listings
import CapabilityRegistry.Vouching

/-! What outlives a coordinator of the publications it has acknowledged. -/
namespace CapabilityRegistry

/-- What a coordinator makes of what it has restored before it serves. -/
def Impl.resumed (base : Impl) : Impl :=
  base.advanceCoordinatorEpoch.resetPublisherLiveness
    "coordinator restarted; publisher liveness is not restored"

/-- A registry that another one became: by the calls of coordinators, and by restarts that import
all that the registry before them exported. -/
inductive Impl.Descends [StdLib] (r₀ : Impl) : Impl → Prop
  | refl : Descends r₀ r₀
  | serves {r r' : Impl} (before : Descends r₀ r) (serves : r.Serves r') : Descends r₀ r'
  | restarted {r base : Impl} (before : Descends r₀ r) (limits : RegistryLimits) (now : Timestamp)
      (recovers : Recovers limits (some (r.exportDurableState now)) base) :
      Descends r₀ base.resumed

section Descent
variable [StdLib] {r₀ r r' : Impl} {op : Op}

namespace Impl

theorem DevicesNamed.serving (h : r.DevicesNamed) (hop : Serving op) :
    (r.after op).DevicesNamed := by
  refine h.after fun hr => ?_
  obtain ⟨state, _, _, rfl, -⟩ := hr
  cases hop

theorem devices_kept (hop : Serving op) {id : DeviceId} (h : id ∈ r.devices) :
    id ∈ (r.after op).devices := by
  have hm : DevicesMove r op (r.after op).devices := devicesMove fun state he => by
    subst he
    cases hop
  generalize (r.after op).devices = devices at hm ⊢
  cases hm with
  | unmoved => exact h
  | registered registration => exact Std.ExtTreeMap.mem_insert.mpr (.inr h)

/-- Whatever a registry becomes knows the devices it knew. -/
theorem Descends.devices (h : r₀.Descends r) (hn : r₀.DevicesNamed) :
    r.DevicesNamed ∧ ∀ id ∈ r₀.devices, id ∈ r.devices := by
  induction h with
  | refl => exact ⟨hn, fun _ hid => hid⟩
  | serves before serves ih =>
    refine serves.keeps (P := fun s => s.DevicesNamed ∧ ∀ id ∈ r₀.devices, id ∈ s.devices) ih ?_
    rintro s op hop ⟨hs, hkept⟩
    exact ⟨hs.serving hop, fun id hid => devices_kept hop (hkept id hid)⟩
  | restarted before limits now recovers ih =>
    obtain ⟨hnamed, hkept⟩ := ih
    cases recovers with
    | restored state staged imports =>
      refine ⟨devicesNamed_imported imports, fun id hid => ?_⟩
      have hknown := hkept id hid
      rw [Std.ExtTreeMap.mem_iff_isSome_getElem?] at hknown ⊢
      have hsame : ∀ base : Impl, base.resumed.devices = base.devices := fun _ => rfl
      rwa [hsame, imports_devices imports hnamed, Option.isSome_map]

end Impl

end Descent

section Images
variable [StdLib] {now : Timestamp} {around : Surroundings} {r : Impl} {bytes : List UInt8}

/-- The image of a registry is written whole. -/
def Impl.WritesWhole (r : Impl) (now : Timestamp) : Prop :=
  (r.exportDurableState now).FitsWire {}

/-- What is saved whole is read back as what was exported. -/
theorem decode_of_saveState (h : saveState now around r = .ok bytes) (hw : r.WritesWhole now) :
    decodeDurableState {} bytes = .ok (r.exportDurableState now) := by
  simp only [saveState, FileStateStore.save, bind_eq_ok, pure, Except.pure, Except.ok.injEq] at h
  obtain ⟨encoded, he, -, -, rfl⟩ := h
  exact decodeDurableState_encodeDurableState he (by decide) hw rfl

theorem length_of_saveState (h : saveState now around r = .ok bytes) :
    bytes.length ≤ PersistOptions.bound {} := by
  simp only [saveState, FileStateStore.save, bind_eq_ok, pure, Except.pure, Except.ok.injEq] at h
  obtain ⟨encoded, he, -, -, rfl⟩ := h
  obtain ⟨-, hroom, rfl⟩ := encodeDurableState_eq_ok.mp he
  rw [List.length_append, length_writeStatePrefix, Nat.add_comm]
  exact hroom

/-- What is saved whole under a state path is what a start finds there. -/
theorem restore_of_saveState {config : CoordinatorConfig} (hpath : config.statePath ≠ [])
    (h : saveState now around r = .ok bytes) (hw : r.WritesWhole now) :
    restore config {} (some bytes) = .ok (some (r.exportDurableState now)) := by
  have hload : FileStateStore.load {} (.ok ()) bytes = .ok (r.exportDurableState now) := by
    simp only [FileStateStore.load, bind_eq_ok, require_eq_ok, decide_eq_true_eq]
    exact ⟨(), trivial, (), length_of_saveState h, decode_of_saveState h hw⟩
  rw [restore, if_neg (by simpa using hpath)]
  exact congrArg (some <$> ·) hload

end Images

namespace Coordinator
variable [StdLib] (c : Coordinator)

/-- A Publication frame that is answered with an accepted result. -/
def acknowledges : Action → Bool
  | .frame now handle frame sent =>
    sent && decide (handle ∈ c.sessions) && decide (frame.type = .publication) &&
      match decodePublication c.config.limits frame.payload with
      | .error _ => false
      | .ok publication => (c.registry.applyLocked now publication).1.accepted
  | _ => false

end Coordinator

/-- An installation, and whether the coordinator that runs has acknowledged a publication since its
state file was last written. -/
structure Watch where
  installation : Installation
  pending : Bool := false

namespace Watch
variable [StdLib] (w : Watch)

def pendingAfter : Incident → Bool
  | .act action => w.pending || w.installation.running.any (·.acknowledges action)
  | .finish now around => w.pending && (w.installation.running.bind (·.finish now around)).isNone
  | .start _ _ _ | .crash => w.pending

def after (incident : Incident) : Watch where
  installation := w.installation.after incident
  pending := w.pendingAfter incident

/-- A coordinator that has acknowledged a publication ends in order and its state is saved before it
crashes, and whatever is saved is written whole. -/
def Careful : Incident → Prop
  | .start config now around => ∀ c written, w.installation.running = none →
      Coordinator.start { config with statePath := w.installation.path } now around
        w.installation.file = .ok (c, written) → written ≠ none → c.registry.WritesWhole now
  | .act _ => True
  | .finish now around => ∀ c, w.installation.running = some c →
      (c.finish now around = none → w.pending = false) ∧ c.stop.registry.WritesWhole now
  | .crash => w.pending = false

end Watch

/-- What a registry held is held by the coordinator that runs, and else by the state file. -/
structure Installation.Holds [StdLib] (i : Installation) (r₀ : Impl) : Prop where
  running : ∀ c, i.running = some c → r₀.Descends c.registry
  devices : ∀ c, i.running = some c → ∀ id ∈ r₀.devices, id ∈ c.registry.devices
  recorded : i.running = none → ∃ bytes r now, i.file = some bytes ∧ r₀.Descends r ∧
    decodeDurableState {} bytes = .ok (r.exportDurableState now)

namespace Installation
variable [StdLib] {i : Installation}

/-- What holds of every coordinator that runs. -/
structure Staffed (i : Installation) : Prop where
  path : ∀ c, i.running = some c → c.config.statePath = i.path
  named : ∀ c, i.running = some c → c.registry.DevicesNamed

omit [StdLib] in
theorem staffed_of_idle (h : i.running = none) : i.Staffed where
  path c hc := by
    rw [h] at hc
    cases hc
  named c hc := by
    rw [h] at hc
    cases hc

theorem Staffed.after (h : i.Staffed) (incident : Incident) :
    (i.after incident).Staffed := by
  cases incident with
  | start config now around =>
    cases hr : i.running with
    | some c => simpa only [Installation.after, hr] using h
    | none =>
      cases hs : Coordinator.start { config with statePath := i.path } now around i.file with
      | error e => simpa only [Installation.after, hr, hs] using h
      | ok p =>
        obtain ⟨c, written⟩ := p
        obtain ⟨⟨image, -, hc⟩, -⟩ := start_eq_ok hs
        obtain ⟨base, hbase, rfl⟩ := started_eq_ok hc
        rw [after_start hr hs]
        constructor
        · rintro _ ⟨⟩
          rfl
        · rintro _ ⟨⟩
          cases hbase with
          | fresh =>
            intro id device hd
            have hd : (∅ : Std.ExtTreeMap DeviceId DeviceState)[id]? = some device := hd
            simp at hd
          | restored state staged imports => exact Impl.devicesNamed_imported imports
  | act action =>
    constructor
    · intro c hc
      obtain ⟨c', hc', rfl⟩ := Option.map_eq_some_iff.mp hc
      rw [Coordinator.config_after]
      exact h.path c' hc'
    · intro c hc
      obtain ⟨c', hc', rfl⟩ := Option.map_eq_some_iff.mp hc
      exact (c'.serves action).keeps (h.named c' hc') fun r op hop hr => hr.serving hop
  | finish now around =>
    cases hr : i.running with
    | none => simpa only [Installation.after, hr] using h
    | some c =>
      simp only [Installation.after, hr]
      exact staffed_of_idle rfl
  | crash => exact staffed_of_idle rfl

theorem staffed_run (path : Text) (file : StateFile) (incidents : List Incident) :
    (run { path, file } incidents).Staffed :=
  Machine.run_invariant (staffed_of_idle rfl) (fun _ incident h => h.after incident) incidents

end Installation

namespace Watch
variable [StdLib] {w : Watch} {r₀ : Impl} {incident : Incident}

/-- The invariant behind it: until a publication that was acknowledged is saved, its coordinator
runs. -/
structure Keeps (w : Watch) (r₀ : Impl) : Prop where
  path : ∀ c, w.installation.running = some c → c.config.statePath = w.installation.path
  running : ∀ c, w.installation.running = some c → r₀.Descends c.registry
  attended : w.installation.running = none → w.pending = false
  recorded : w.pending = false → w.installation.path ≠ [] ∧ ∃ bytes r now,
    w.installation.file = some bytes ∧ r₀.Descends r ∧
      decodeDurableState {} bytes = .ok (r.exportDurableState now)

theorem Keeps.holds (h : w.Keeps r₀) (hn : r₀.DevicesNamed) : w.installation.Holds r₀ where
  running := h.running
  devices c hc := ((h.running c hc).devices hn).2
  recorded hr := (h.recorded (h.attended hr)).2

theorem Keeps.start (h : w.Keeps r₀) {config : CoordinatorConfig} {now : Timestamp}
    {around : Surroundings} (hc : w.Careful (.start config now around)) :
    (w.after (.start config now around)).Keeps r₀ := by
  have hsame : w.installation.after (.start config now around) = w.installation →
      (w.after (.start config now around)).Keeps r₀ := by
    intro he
    have hw : w.after (.start config now around) = w := congrArg (Watch.mk · w.pending) he
    rwa [hw]
  cases hr : w.installation.running with
  | some c => exact hsame (by simp only [Installation.after, hr])
  | none =>
    cases hs : Coordinator.start { config with statePath := w.installation.path } now around
        w.installation.file with
    | error e => exact hsame (by simp only [Installation.after, hr, hs])
    | ok p =>
      obtain ⟨c, written⟩ := p
      have hpending := h.attended hr
      obtain ⟨hpath, bytes, r, saved, hfile, hdescends, hdecoded⟩ := h.recorded hpending
      obtain ⟨⟨image, himage, hstarted⟩, hwritten⟩ := start_eq_ok hs
      rw [hfile] at himage
      obtain ⟨state, hstate, rfl⟩ := restore_of_file hpath himage
      obtain rfl := Except.ok.inj (hdecoded.symm.trans hstate)
      obtain ⟨base, hbase, hc'⟩ := started_eq_ok hstarted
      have hnew : r₀.Descends c.registry := hc' ▸ hdescends.restarted _ _ hbase
      have hafter : (w.after (.start config now around)).installation =
          w.installation.started c written := Installation.after_start hr hs
      constructor
      · rw [hafter]
        rintro _ ⟨⟩
        rw [hc']
        rfl
      · rw [hafter]
        rintro _ ⟨⟩
        exact hnew
      · exact fun _ => hpending
      · rw [hafter]
        refine fun _ => ⟨hpath, ?_⟩
        rcases hwritten with rfl | ⟨-, image, hsave, rfl⟩
        · exact ⟨bytes, r, saved, hfile, hdescends, hdecoded⟩
        · exact ⟨image, c.registry, now, rfl, hnew,
            decode_of_saveState hsave (hc _ _ hr hs (by simp))⟩

theorem Keeps.act (h : w.Keeps r₀) (action : Action) : (w.after (.act action)).Keeps r₀ where
  path c hc := by
    obtain ⟨c', hc', rfl⟩ := Option.map_eq_some_iff.mp hc
    rw [Coordinator.config_after]
    exact h.path c' hc'
  running c hc := by
    obtain ⟨c', hc', rfl⟩ := Option.map_eq_some_iff.mp hc
    exact (h.running c' hc').serves (c'.serves action)
  attended hr := by
    have hr : w.installation.running = none := Option.map_eq_none_iff.mp hr
    simp [Watch.after, pendingAfter, hr, h.attended hr]
  recorded hp := h.recorded (Bool.or_eq_false_iff.mp hp).1

theorem Keeps.finish (h : w.Keeps r₀) {now : Timestamp} {around : Surroundings}
    (hc : w.Careful (.finish now around)) : (w.after (.finish now around)).Keeps r₀ := by
  cases hr : w.installation.running with
  | none =>
    have hw : w.after (.finish now around) = w := by
      have hi : w.installation.after (.finish now around) = w.installation := by
        simp only [Installation.after, hr]
      have hp : w.pendingAfter (.finish now around) = w.pending := by
        simp [pendingAfter, h.attended hr]
      exact congrArg₂ Watch.mk hi hp
    rwa [hw]
  | some c =>
    obtain ⟨hsaved, hwhole⟩ := hc c hr
    have hafter : (w.after (.finish now around)).installation =
        { w.installation with running := none }.write (c.finish now around) := by
      simp only [Watch.after, Installation.after, hr]
    have hstopped : r₀.Descends c.stop.registry := (h.running c hr).serves c.serves_stop
    cases hf : c.finish now around with
    | none =>
      have hpending := hsaved hf
      rw [hf] at hafter
      have hp : (w.after (.finish now around)).pending = false := by
        simp [Watch.after, pendingAfter, hpending]
      constructor
      · rw [hafter]
        intro _ he
        cases he
      · rw [hafter]
        intro _ he
        cases he
      · exact fun _ => hp
      · rw [hafter]
        exact fun _ => h.recorded hpending
    | some bytes =>
      obtain ⟨hpath, hsave⟩ := finish_eq_some hf
      rw [hf] at hafter
      have hp : (w.after (.finish now around)).pending = false := by
        simp [Watch.after, pendingAfter, hr, hf]
      constructor
      · rw [hafter]
        intro _ he
        cases he
      · rw [hafter]
        intro _ he
        cases he
      · exact fun _ => hp
      · rw [hafter]
        exact fun _ => ⟨h.path c hr ▸ hpath, bytes, _, now, rfl, hstopped,
          decode_of_saveState hsave hwhole⟩

theorem Keeps.crash (h : w.Keeps r₀) (hc : w.Careful .crash) : (w.after .crash).Keeps r₀ where
  path _ hc := by cases hc
  running _ hc := by cases hc
  attended _ := hc
  recorded := h.recorded

theorem Keeps.after (h : w.Keeps r₀) (hc : w.Careful incident) : (w.after incident).Keeps r₀ := by
  cases incident with
  | start config now around => exact h.start hc
  | act action => exact h.act action
  | finish now around => exact h.finish hc
  | crash => exact h.crash hc

theorem installation_foldl (w : Watch) (incidents : List Incident) :
    (incidents.foldl after w).installation = w.installation.run incidents := by
  induction incidents generalizing w with
  | nil => rfl
  | cons incident incidents ih => exact ih (w.after incident)

end Watch

namespace Installation
variable [StdLib] {i : Installation} {r r₀ : Impl} {bytes : List UInt8} {saved now : Timestamp}
  {config : CoordinatorConfig} {around : Surroundings}

theorem run_append (i : Installation) (before later : List Incident) :
    i.run (before ++ later) = (i.run before).run later :=
  List.foldl_append

/-- What a start recovers of an earlier registry is in the file it finds. -/
theorem Holds.recovers (hfile : i.file = some bytes)
    (hdecodes : decodeDurableState {} bytes = .ok (r.exportDurableState saved))
    (hidle : i.running = none) (hpath : i.path ≠ []) (hn : r.DevicesNamed)
    (h : (i.after (.start config now around)).Holds r₀) (hn₀ : r₀.DevicesNamed) {id : DeviceId}
    (hid : id ∈ r₀.devices) : id ∈ r.devices := by
  cases hs : Coordinator.start { config with statePath := i.path } now around i.file with
  | error e =>
    have hsame : i.after (.start config now around) = i := by
      simp only [Installation.after, hidle, hs]
    rw [hsame] at h
    obtain ⟨bytes', r', saved', hfile', hdescends, hdecodes'⟩ := h.recorded hidle
    obtain rfl := Option.some.inj (hfile.symm.trans hfile')
    have hexports := Except.ok.inj (hdecodes'.symm.trans hdecodes)
    obtain ⟨hn', hkept⟩ := hdescends.devices hn₀
    obtain ⟨device, hd⟩ := Option.isSome_iff_exists.mp
      (Std.ExtTreeMap.mem_iff_isSome_getElem?.mp (hkept id hid))
    have hmem : r'.buildSubject device {} ∈ (r.exportDurableState saved).subjects :=
      hexports ▸ Impl.mem_subjects_export.mpr ⟨(id, device), OrdMap.mem_toList.mpr hd, rfl⟩
    obtain ⟨⟨id', known⟩, he, hsubject⟩ := Impl.mem_subjects_export.mp hmem
    have hk : r.devices[id']? = some known := OrdMap.mem_toList.mp he
    have hidentity := congrArg SubjectSnapshot.identity hsubject
    rw [Impl.buildSubject_identity, Impl.buildSubject_identity] at hidentity
    obtain rfl : id' = id := (hn _ _ hk).symm.trans (hidentity ▸ hn' _ _ hd)
    exact Std.ExtTreeMap.mem_iff_isSome_getElem?.mpr (hk ▸ rfl)
  | ok p =>
    obtain ⟨c, written⟩ := p
    have hrunning : (i.after (.start config now around)).running = some c := by
      rw [after_start hidle hs]
      rfl
    have hkept := h.devices c hrunning id hid
    obtain ⟨⟨image, himage, hc⟩, -⟩ := start_eq_ok hs
    rw [hfile] at himage
    obtain ⟨state, hd, rfl⟩ := restore_of_file hpath himage
    obtain rfl := Except.ok.inj (hdecodes.symm.trans hd)
    obtain ⟨base, hbase, rfl⟩ := started_eq_ok hc
    cases hbase with
    | restored state staged imports =>
      have hkept : id ∈ ((Impl.fresh config.limits).commit (r.exportDurableState saved) staged).devices :=
        hkept
      rw [Std.ExtTreeMap.mem_iff_isSome_getElem?] at hkept ⊢
      rwa [Impl.imports_devices imports hn, Option.isSome_map] at hkept

end Installation

namespace Sample

/-- A session that registers a publisher with a coordinator that writes its state file when it
starts. -/
def persistentSession : List Incident :=
  persistentStart :: (session [publisher.id]).map .act

/-- The coordinator after the session. -/
def attended [StdLib] : Coordinator := persistentCoordinator.run (session [publisher.id])

/-- The publisher of the session registers a device. -/
def deviceFrame : Action := .frame now 1 (published deviceOfSession) true

end Sample

section Samples

theorem writesWhole_persistentCoordinator : letI := StdLib.reference
    Sample.persistentCoordinator.registry.WritesWhole Sample.now := by
  let := StdLib.reference
  obtain ⟨⟨hcreated, hproducer⟩, hcount, hschemas, hempty⟩ :
      let state := Sample.persistentCoordinator.registry.exportDurableState Sample.now
      (state.header.createdAtUtc.length ≤ 512 ∧ state.header.producer.length ≤ 512) ∧
        state.schemas.length ≤ 131072 ∧
        (∀ schema ∈ state.schemas, schema.canonicalName.length ≤ 192 ∧ schema.unit.length ≤ 512) ∧
        (state.platforms.isEmpty && state.subjects.isEmpty && state.capabilityHistory.isEmpty &&
          state.quirks.isEmpty && state.compatibility.isEmpty && state.publisherWatermarks.isEmpty &&
          state.fencedBoots.isEmpty) = true := by
    unfold Sample.persistentCoordinator Sample.coordinator
    rw [Impl.fresh_eq]
    decide +kernel
  simp only [Bool.and_eq_true, List.isEmpty_iff] at hempty
  obtain ⟨⟨⟨⟨⟨⟨hplatforms, hsubjects⟩, hhistory⟩, hquirks⟩, hfacts⟩, hwatermarks⟩, hfenced⟩ := hempty
  have hnil : ∀ {α : Type} {bound : Nat} {F : α → Prop}, FitsList bound F [] := fun {_ _ _} =>
    ⟨Nat.zero_le _, Nat.two_pow_pos 32, by simp⟩
  have htext : ∀ {bound : Nat} {text : Text}, bound < 2 ^ 32 → text.length ≤ bound →
      FitsText bound text := fun hb h => ⟨h, h.trans_lt hb⟩
  refine ⟨⟨htext (by decide) hcreated, htext (by decide) hproducer⟩, ?_, ?_, ?_, ?_, ?_, ?_, ?_, ?_⟩
  · exact hplatforms ▸ hnil
  · exact hsubjects ▸ hnil
  · refine ⟨hcount, hcount.trans_lt (by decide), fun schema hs => ?_⟩
    exact ⟨htext (by decide) (hschemas schema hs).1, htext (by decide) (hschemas schema hs).2⟩
  · exact hhistory ▸ hnil
  · exact hquirks ▸ hnil
  · exact hfacts ▸ hnil
  · exact hwatermarks ▸ hnil
  · exact hfenced ▸ hnil

/-- Where the session leads, with the file the start has written. -/
theorem run_persistentSession : letI := StdLib.reference
    ∃ bytes, saveState Sample.now {} Sample.persistentCoordinator.registry = .ok bytes ∧
      Installation.run { path := "hcr.state" } Sample.persistentSession =
        { Installation.started { path := "hcr.state" } Sample.persistentCoordinator (some bytes) with
          running := some Sample.attended } := by
  let := StdLib.reference
  obtain ⟨bytes, hsave, hfirst⟩ := start_of_persistentStart
  refine ⟨bytes, hsave, ?_⟩
  rw [Installation.run, Sample.persistentSession, List.foldl_cons, hfirst]
  rfl

theorem attended_acknowledges : letI := StdLib.reference
    Sample.attended.acknowledges Sample.deviceFrame = true ∧
      (Sample.attended.after Sample.deviceFrame).registry.devices.contains
        Sample.device.identity.id = true := by
  decide +kernel

end Samples

namespace Watch

end Watch

end CapabilityRegistry
