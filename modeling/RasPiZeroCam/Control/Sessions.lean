import RasPiZeroCam.Control.Commands
import RasPiZeroCam.Transition.Pool

/-!
The recording handlers of any number of clients, each call of the source taken as one step, and the
sessions they start and stop.

* `Studio`: the source, the sessions that have ended, and the ok replies of `record_stop`.
* `Sessions.act`: `record_start`, `record_stop` and `record_restart`, one call a step.
* `Accounted`: an ok reply of `record_stop` names the session its own `stop_recording` ended, and
  no session is reported twice.
* `sessions_accounted`: it holds along the runs in which no session is ended while another client
  is between the test and the stop of its `record_stop` (`EndsAlone`).
* `stopped_twice`: otherwise two clients report the same session.
-/

namespace RasPiZeroCam

open Transition Pool

/-- A recording session: its number, and its file. -/
structure Session where
  id : ℕ
  file : Bytes
  deriving DecidableEq

/-- An ok reply of `record_stop`, and the session that the handler's own `stop_recording` ended. -/
structure StopReport where
  file : Bytes
  dur : ℕ
  stopped : Option Session
  deriving DecidableEq

/-- What the handlers share, and the books: the sessions started so far, the active one, and what
has been reported. -/
structure Studio where
  source : Source
  resMutex : Bool
  started : ℕ
  active : Option Session
  ended : List Session
  reports : List StopReport

namespace Sessions

/-- The recording commands. -/
abbrev Command := RecordCommand

/-- Where the handler of a client is. -/
inductive Pc where
  | idle
  | testStart (msg : Json)              -- `if (gst_cam.is_recording())`
  | lock (msg : Option Json)            -- `std::lock_guard lk(res_mutex)`
  | start (msg : Option Json)           -- the file name, `gst_cam.start_recording(file)`
  | testStop                            -- `if (!gst_cam.is_recording())`
  | file                                -- `gst_cam.current_recording()`
  | seconds (file : Bytes)              -- `gst_cam.recording_seconds()`
  | stop (file : Bytes) (dur : ℕ)       -- `gst_cam.stop_recording()`
  | restart                             -- the `stop_recording` of `record_restart`

/-- Where the handler of a command begins. -/
def handle : Command → Pc
  | .start msg => .testStart msg
  | .stop => .testStop
  | .restart => .restart

/-- `gst_cam.start_recording(file)`; a recording that starts is a session. -/
def startRecording (o : Outcome) (file : Bytes) (s : Studio) : Studio :=
  match s.source.startRecording o.recorder o.now file with
  | (source, .ok true) =>
      { s with
        source := source
        started := s.started + 1
        active := some ⟨s.started, file⟩ }
  | (source, _) => { s with source := source }

/-- `gst_cam.stop_recording()`, and the session that it ended. -/
def stopRecording (o : Outcome) (s : Studio) : Studio × Option Session :=
  let r := s.source.stopRecording o.bus
  if r.ok then
    ({ s with
        source := r.source
        active := none
        ended := s.ended ++ s.active.toList }, s.active)
  else ({ s with source := r.source }, none)

/-- A step of a client, which picks the command it handles next.  `record_stop` replies ok whatever
its `stop_recording` returned. -/
def act (a : Command × Outcome) : Pc → Studio → Option (Studio × Pc)
  | .idle, s => some (s, handle a.1)
  | .testStart msg, s => some (s, if s.source.isRecording then .idle else .lock (some msg))
  | .lock msg, s => if s.resMutex then none else some ({ s with resMutex := true }, .start msg)
  | .start msg, s =>
      let name := nextName recDir recFormat a.2.tm
      let file := match msg with
        | some msg => msg.value (ascii "filename") name
        | none => .ok name
      -- the mutex is released when the handler returns, by exception or not
      match file with
      | .error _ => some ({ s with resMutex := false }, .idle)
      | .ok file => some (startRecording a.2 file { s with resMutex := false }, .idle)
  | .testStop, s => some (s, if s.source.isRecording then .file else .idle)
  | .file, s => some (s, .seconds s.source.currentRecording)
  | .seconds file, s => some (s, .stop file (s.source.recordingSeconds a.2.now))
  | .stop file dur, s =>
      let (s, session) := stopRecording a.2 s
      some ({ s with reports := s.reports ++ [⟨file, dur, session⟩] }, .idle)
  | .restart, s => some ((stopRecording a.2 s).1, .lock none)

/-- A source that runs, and no session yet. -/
def initial (source : Source) : Studio where
  source := source
  resMutex := false
  started := 0
  active := none
  ended := []
  reports := []

end Sessions

/-- The clients. -/
def sessions : Pool Studio Sessions.Pc (Sessions.Command × Outcome) Empty where
  init s := ∃ source : Source, source.recording = false ∧ s = Sessions.initial source
  start := .idle
  act := Sessions.act
  env := nofun

namespace Sessions

/-- A configuration: what is shared, and where each client is. -/
abbrev State := Config ℕ Studio Pc

/-- A step of a client. -/
abbrev Step := Event ℕ (Command × Outcome) Empty

/-- **Every ok reply of `record_stop` names the session its own call ended**, and no session is
reported twice. -/
structure Accounted (s : State) : Prop where
  own : ∀ r ∈ s.shared.reports, ∃ e, r.stopped = some e ∧ e ∈ s.shared.ended ∧ e.file = r.file
  once : (s.shared.reports.filterMap (·.stopped)).Nodup

/-- A `record_stop` is between its test and its stop. -/
def Stopping : Pc → Prop
  | .file => True
  | .seconds _ => True
  | .stop _ _ => True
  | _ => False

/-- The next step calls `stop_recording`. -/
def Ends : Pc → Prop
  | .stop _ _ => True
  | .restart => True
  | _ => False

instance : DecidablePred Stopping
  | .file => .isTrue trivial
  | .seconds _ => .isTrue trivial
  | .stop _ _ => .isTrue trivial
  | .idle | .testStart _ | .lock _ | .start _ | .testStop | .restart => .isFalse id

instance : DecidablePred Ends
  | .stop _ _ => .isTrue trivial
  | .restart => .isTrue trivial
  | .idle | .testStart _ | .lock _ | .start _ | .testStop | .file | .seconds _ => .isFalse id

/-- A client ends a session only while no other one is between the test and the stop of its
`record_stop`. -/
def EndsAlone (s : State) : Step → Prop
  | .run c _ =>
      Ends (s.pc c) → s.shared.source.recording = true → ∀ d, d ≠ c → ¬ Stopping (s.pc d)
  | .env _ => True

/-! ### The books -/

/-- The sessions are numbered in turn, a source that records has one that has not ended, and the
reports are accounted for. -/
structure Booked (s : Studio) : Prop where
  nodup : (s.ended.map (·.id)).Nodup
  past : ∀ e ∈ s.ended, e.id < s.started
  active : s.source.recording = true → ∃ e, s.active = some e ∧ e.file = s.source.currentFile ∧
    e.id < s.started ∧ ∀ e' ∈ s.ended, e'.id ≠ e.id
  own : ∀ r ∈ s.reports, ∃ e, r.stopped = some e ∧ e ∈ s.ended ∧ e.file = r.file
  once : (s.reports.filterMap (·.stopped)).Nodup

/-- What a `record_stop` past its test has found. -/
def StopA : Pc → Studio → Prop
  | .file, s => s.source.recording = true
  | .seconds file, s => s.source.recording = true ∧ s.source.currentFile = file
  | .stop file _, s => s.source.recording = true ∧ s.source.currentFile = file
  | _, _ => True

/-- The invariant of the handlers. -/
structure Sound (s : State) : Prop where
  booked : Booked s.shared
  stopping : ∀ c, StopA (s.pc c) s.shared

/-- Only the source and the reports matter to a `record_stop`, and of the source only whether it
records, and where. -/
lemma StopA.keep {q : Pc} {s t : Studio} (h : StopA q s)
    (hkeep : Stopping q → s.source.recording = true →
      t.source.recording = true ∧ t.source.currentFile = s.source.currentFile) : StopA q t := by
  cases q with
  | file => exact (hkeep trivial h).1
  | seconds file =>
      obtain ⟨hrec, hfile⟩ := hkeep trivial h.1
      exact ⟨hrec, hfile.trans h.2⟩
  | stop file dur =>
      obtain ⟨hrec, hfile⟩ := hkeep trivial h.1
      exact ⟨hrec, hfile.trans h.2⟩
  | idle => trivial
  | testStart msg => trivial
  | lock msg => trivial
  | start msg => trivial
  | testStop => trivial
  | restart => trivial

lemma stopRecording_of_recording {o : Outcome} {s : Studio} (h : s.source.recording = true) :
    stopRecording o s = ({ s with
      source := (s.source.stopRecording o.bus).source
      active := none
      ended := s.ended ++ s.active.toList }, s.active) := by
  simp [stopRecording, h]

lemma stopRecording_of_not {o : Outcome} {s : Studio} (h : s.source.recording = false) :
    stopRecording o s = (s, none) := by
  simp [stopRecording, Source.stopRecording, h]

/-- A start on a source that records changes nothing. -/
lemma startRecording_of_recording {o : Outcome} {f : Bytes} {s : Studio}
    (h : s.source.recording = true) : startRecording o f s = s := by
  simp [startRecording, Source.startRecording, h]

/-- What a stop returns is a session that had not ended, under the file the source recorded. -/
lemma Booked.stopped {o : Outcome} {s : Studio} (h : Booked s) (hrec : s.source.recording = true) :
    ∃ e, (stopRecording o s).2 = some e ∧ e ∈ (stopRecording o s).1.ended ∧
      e.file = s.source.currentFile ∧ e ∉ s.ended := by
  obtain ⟨e, hact, hfile, -, hne⟩ := h.active hrec
  rw [stopRecording_of_recording hrec]
  exact ⟨e, hact, by simp [hact], hfile, fun he => hne e he rfl⟩

lemma Booked.stop {o : Outcome} {s : Studio} (h : Booked s) : Booked (stopRecording o s).1 := by
  cases hrec : s.source.recording with
  | false =>
      rw [stopRecording_of_not hrec]
      exact h
  | true =>
      obtain ⟨e, hact, -, hid, hne⟩ := h.active hrec
      rw [stopRecording_of_recording hrec, hact]
      refine ⟨?_, ?_, by simp, ?_, h.once⟩
      · simp only [Option.toList_some, List.map_append, List.map_cons, List.map_nil]
        refine List.Nodup.append h.nodup (List.nodup_singleton _) ?_
        simp only [List.disjoint_singleton, List.mem_map, not_exists, not_and]
        exact hne
      · intro e' he'
        obtain he' | he' := List.mem_append.mp he'
        · exact h.past e' he'
        · rw [List.mem_singleton.mp he']
          exact hid
      · intro r hr
        obtain ⟨e', hstopped, hended, hfile⟩ := h.own r hr
        exact ⟨e', hstopped, List.mem_append_left _ hended, hfile⟩

lemma Booked.start {o : Outcome} {f : Bytes} {s : Studio} (h : Booked s) :
    Booked (startRecording o f s) := by
  cases hrec : s.source.recording with
  | true =>
      rw [startRecording_of_recording hrec]
      exact h
  | false =>
      have hkeep := Source.startRecording_recording_of_not_ok o.recorder o.now f s.source
      have hok := Source.startRecording_of_ok o.recorder o.now f s.source
      rw [startRecording]
      rcases hst : s.source.startRecording o.recorder o.now f with ⟨source, e | ok⟩ <;>
        rw [hst] at hkeep hok
      · have hoff : source.recording = false := (hkeep (by simp)).trans hrec
        exact ⟨h.nodup, h.past, fun hr => by simp [hoff] at hr, h.own, h.once⟩
      · cases ok with
        | false =>
            have hoff : source.recording = false := (hkeep (by simp)).trans hrec
            exact ⟨h.nodup, h.past, fun hr => by simp [hoff] at hr, h.own, h.once⟩
        | true =>
            -- the new session has the number that was next
            have hpast : ∀ e ∈ s.ended, e.id < s.started + 1 := fun e he =>
              (h.past e he).trans (Nat.lt_succ_self _)
            exact ⟨h.nodup, hpast, fun _ => ⟨⟨s.started, f⟩, rfl, (hok rfl).2.symm,
              Nat.lt_succ_self _, fun e he => (h.past e he).ne⟩, h.own, h.once⟩

/-- The ok reply of a `record_stop` that stopped the session it had read. -/
lemma Booked.report {o : Outcome} {s : Studio} {dur : ℕ} (h : Booked s)
    (hrec : s.source.recording = true) :
    Booked { (stopRecording o s).1 with
      reports := (stopRecording o s).1.reports ++
        [⟨s.source.currentFile, dur, (stopRecording o s).2⟩] } := by
  obtain ⟨e, hstopped, hended, hfile, hnew⟩ := h.stopped (o := o) hrec
  have hstop := h.stop (o := o)
  have hreports : (stopRecording o s).1.reports = s.reports := by
    rw [stopRecording_of_recording hrec]
  refine ⟨hstop.nodup, hstop.past, hstop.active, ?_, ?_⟩
  · intro r hr
    obtain hr | hr := List.mem_append.mp hr
    · exact hstop.own r hr
    · rw [List.mem_singleton.mp hr]
      exact ⟨e, hstopped, hended, hfile⟩
  · simp only [hstopped, List.filterMap_append, List.filterMap_cons, List.filterMap_nil]
    refine List.Nodup.append hstop.once (List.nodup_singleton _) ?_
    simp only [List.disjoint_singleton, List.mem_filterMap, not_exists, not_and]
    intro r hr hre
    rw [hreports] at hr
    obtain ⟨e', hre', he', -⟩ := h.own r hr
    rw [hre] at hre'
    cases hre'
    exact hnew he'

/-! ### The steps -/

variable {a : Command × Outcome} {pc p q : Pc} {s w : Studio}

/-- A step that does not end the session leaves a source that records as it is. -/
lemma act_records (hact : act a pc s = some (w, p)) (hrec : s.source.recording = true)
    (hends : ¬ Ends pc) : w.source.recording = true ∧
      w.source.currentFile = s.source.currentFile := by
  cases pc with
  | lock msg =>
      simp only [act] at hact
      split_ifs at hact
      cases hact
      exact ⟨hrec, rfl⟩
  | start msg =>
      simp only [act] at hact
      split at hact <;> cases hact
      · exact ⟨hrec, rfl⟩
      · rw [startRecording_of_recording (by exact hrec)]
        exact ⟨hrec, rfl⟩
  | stop file dur => exact absurd trivial hends
  | restart => exact absurd trivial hends
  | idle => cases hact; exact ⟨hrec, rfl⟩
  | testStart msg => cases hact; exact ⟨hrec, rfl⟩
  | testStop => cases hact; exact ⟨hrec, rfl⟩
  | file => cases hact; exact ⟨hrec, rfl⟩
  | seconds file => cases hact; exact ⟨hrec, rfl⟩

/-- A step keeps the books, and finds what its next one relies on. -/
lemma act_sound (hact : act a pc s = some (w, p)) (hs : Booked s) (hpc : StopA pc s) :
    Booked w ∧ StopA p w := by
  cases pc with
  | idle =>
      cases hact
      refine ⟨hs, ?_⟩
      cases a.1 <;> trivial
  | testStart msg =>
      cases hact
      refine ⟨hs, ?_⟩
      split_ifs <;> trivial
  | lock msg =>
      simp only [act] at hact
      split_ifs at hact
      cases hact
      exact ⟨⟨hs.nodup, hs.past, hs.active, hs.own, hs.once⟩, trivial⟩
  | start msg =>
      have hunlock : Booked { s with resMutex := false } :=
        ⟨hs.nodup, hs.past, hs.active, hs.own, hs.once⟩
      simp only [act] at hact
      split at hact <;> cases hact
      · exact ⟨hunlock, trivial⟩
      · exact ⟨hunlock.start, trivial⟩
  | testStop =>
      cases hact
      refine ⟨hs, ?_⟩
      split_ifs with hrec
      · exact hrec
      · trivial
  | file =>
      cases hact
      exact ⟨hs, hpc, rfl⟩
  | seconds file =>
      cases hact
      exact ⟨hs, hpc⟩
  | stop file dur =>
      obtain ⟨hrec, rfl⟩ := hpc
      cases hact
      exact ⟨hs.report hrec, trivial⟩
  | restart =>
      cases hact
      exact ⟨hs.stop, trivial⟩

/-- The step lemma: a client that ends the session does so while no `record_stop` of another one is
past its test. -/
lemma Sound.step {s s' : State} {e : Step} (h : Sound s) (hC : EndsAlone s e)
    (hstep : (sessions.system ℕ).step s e = some s') : Sound s' := by
  cases e with
  | env e => exact e.elim
  | run c a =>
      obtain ⟨w, p, hact, rfl⟩ := step_run_iff.mp hstep
      obtain ⟨hw, hp⟩ := act_sound hact h.booked (h.stopping c)
      refine ⟨hw, fun d => ?_⟩
      by_cases hdc : d = c
      · subst hdc
        simpa only [Function.update_self] using hp
      · simp only [Function.update_of_ne hdc]
        refine (h.stopping d).keep fun hd hrec => act_records hact hrec fun hends => ?_
        exact hC hends hrec d hdc hd

lemma booked_initial {source : Source} (h : source.recording = false) :
    Booked (initial source) :=
  ⟨List.nodup_nil, by simp [initial], fun hrec => by simp [initial, h] at hrec,
    by simp [initial], List.nodup_nil⟩

end Sessions

open Sessions

/-- **The ok replies of `record_stop` are accounted for**, along every run in which no session is
ended while a `record_stop` of another client is past its test. -/
theorem sessions_accounted {s : Sessions.State}
    (h : (sessions.system ℕ).Reach EndsAlone s) : Accounted s := by
  have hsound : Sound s := by
    refine h.invariant Sound ?_ fun _ _ _ _ hs hC hstep => hs.step hC hstep
    rintro s ⟨⟨source, hrec, hs⟩, hpc⟩
    refine ⟨?_, fun c => ?_⟩
    · rw [hs]
      exact booked_initial hrec
    · rw [hpc c]
      trivial
  exact ⟨hsound.booked.own, hsound.booked.once⟩

namespace Sessions

/-- Every call underneath goes through. -/
def clean : Outcome where
  recorder := ⟨none, none, .ok, true, true, true, ⟨126, 0, 1, 0, 0, 0⟩⟩
  bus := .eos
  tm := ⟨126, 0, 1, 0, 0, 0⟩
  now := 0

/-- A source that runs. -/
def running : Source := { Source.new .zero with running := true }

/-- Client `c` takes `n` steps, and nothing fails. -/
def steps (c n : ℕ) (cmd : Command) : List Step := List.replicate n (.run c (cmd, clean))

/-- A `record_start` into a file. -/
def start (name : String) : Command := .start (.object [(ascii "filename", .string (ascii name))])

/-- `EndsAlone`, of clients below `n`. -/
def endsAlone (n : ℕ) (s : State) : Step → Bool
  | .run c _ => decide (c < n) && decide (Ends (s.pc c) → s.shared.source.recording = true →
      ∀ d < n, d ≠ c → ¬ Stopping (s.pc d))
  | .env _ => true

lemma endsAlone_sound {n : ℕ} {s : State} {e : Step} (h : Among sessions (List.range n) s)
    (he : endsAlone n s e = true) : EndsAlone s e := by
  cases e with
  | run c a =>
      rw [endsAlone, Bool.and_eq_true, decide_eq_true_eq, decide_eq_true_eq] at he
      intro hends hrec d hd
      by_cases hlt : d < n
      · exact he.2 hends hrec d hlt hd
      · rw [h d (List.mem_range.not.mpr hlt)]
        exact id
  | env e => exact e.elim

/-- Client 0 starts a recording, client 1 stops it while client 2 is before its test and then finds
nothing to stop; client 0 starts another one, which client 2 stops. -/
def threeClients : List Step :=
  steps 0 4 (start "a") ++ steps 1 3 .stop ++ steps 2 1 .stop ++ steps 1 2 .stop ++
    steps 2 1 .stop ++ steps 0 4 (start "b") ++ steps 2 5 .stop

end Sessions

/-- Three clients whose stops do not meet. -/
theorem session_reported :
    ∃ s, (sessions.system ℕ).exec (endsAlone 3) ⟨initial running, fun _ => .idle⟩ threeClients =
        some s ∧
      s.shared.reports =
        [⟨ascii "a", 0, some ⟨0, ascii "a"⟩⟩, ⟨ascii "b", 0, some ⟨1, ascii "b"⟩⟩] ∧
      Accounted s := by
  have hrun : ((sessions.system ℕ).exec (endsAlone 3) ⟨initial running, fun _ => .idle⟩
      threeClients).map (fun s => s.shared.reports) =
        some [⟨ascii "a", 0, some ⟨0, ascii "a"⟩⟩, ⟨ascii "b", 0, some ⟨1, ascii "b"⟩⟩] := by
    decide +kernel
  obtain ⟨s, hs, hreports⟩ := Option.map_eq_some_iff.mp hrun
  have hby : ∀ (s : State) e, endsAlone 3 s e = true → e.among (List.range 3) = true := by
    intro s e he
    cases e with
    | run c a =>
        rw [endsAlone, Bool.and_eq_true, decide_eq_true_eq] at he
        exact decide_eq_true (List.mem_range.mpr he.1)
    | env e => rfl
  exact ⟨s, hs, hreports, sessions_accounted (Among.reach hby (fun _ _ => endsAlone_sound)
    ⟨⟨running, rfl, rfl⟩, fun _ => rfl⟩ hs)⟩

/-- Two clients stop the same recording: both have passed the test when the first one stops it. -/
theorem stopped_twice :
    ¬ ∀ s : Sessions.State, (sessions.system ℕ).Reach (fun _ _ => True) s → Accounted s := by
  intro h
  have hrun : ((sessions.system ℕ).exec (fun _ _ => true) ⟨initial running, fun _ => .idle⟩
      (steps 0 4 (start "a") ++ steps 0 4 .stop ++ steps 1 5 .stop ++ steps 0 1 .stop)).map
      (fun s => s.shared.reports) =
        some [⟨ascii "a", 0, some ⟨0, ascii "a"⟩⟩, ⟨ascii "a", 0, none⟩] := by decide
  obtain ⟨s, hs, hreports⟩ := Option.map_eq_some_iff.mp hrun
  have hreach : (sessions.system ℕ).Reach (fun _ _ => True) s :=
    .of_exec_check (fun _ _ _ => trivial) ⟨⟨running, rfl, rfl⟩, fun _ => rfl⟩ hs
  obtain ⟨e, he, -⟩ := (h s hreach).own ⟨ascii "a", 0, none⟩ (by simp [hreports])
  cases he

end RasPiZeroCam
