import RasPiZeroCam.Stream.Source
import RasPiZeroCam.Transition.Procedure

/-!
The calls of `GstCameraSource`, statement by statement.

* `World`: the source, the references it acquired from GStreamer and gave back, and the recordings
  its recorders began and finalised.  `Choice` is what the calls underneath a step answer.
* `stopRecordingStep`, `startRecordingStep`, `stopStep`, `startStep`, `setResolutionStep`: one
  definition a method, with a program point for each access to a shared member.
* `ThreadExit`, `busMessage_cases`: what the drain thread and the bus thread do to the members.
* `stepCall`: a step of a call inside the program of a thread.
* `stopRecording_exec`, `startRecording_exec`: run without interruption, the steps of
  `stop_recording` and `start_recording` are `Source.stopRecording` and `Source.startRecording`.
-/

namespace RasPiZeroCam

open Transition

/-- A reference acquired from GStreamer, by the number of the pipeline it belongs to. -/
inductive Ref where
  | pipeline (id : ℕ)
  | appsink (id : ℕ)
  | recSink (id : ℕ)
  | bus (id : ℕ)
  deriving DecidableEq, Repr

/-- The source, with the books of what it acquired and released. -/
structure World extends Source where
  made : ℕ                    -- pipelines made so far
  acquired : List Ref
  released : List Ref
  recStarted : List Bytes     -- files of the recorders that got to RECORDING
  recStopped : List Bytes     -- files of the recorders `Recorder::stop` took out of RECORDING
  crashed : Bool              -- the process has ended in `std::terminate` or on a bad pointer
  deriving DecidableEq

/-- What the calls underneath one step answer. -/
structure Choice where
  parse : ParseLaunch
  appsink : Bool              -- `gst_bin_get_by_name(.., "mjpeg_sink")` is not null
  recSink : Bool              -- `gst_bin_get_by_name(.., "rec_sink")` is not null
  bus : Bool                  -- `gst_element_get_bus` is not null
  playing : Bool              -- the change to PLAYING did not fail
  recorder : RecorderOutcome
  reply : BusReply            -- on the recorder's bus
  now : ℕ
  tm : Tm

/-- Every call underneath succeeds. -/
def Choice.good : Choice where
  parse := .ok
  appsink := true
  recSink := true
  bus := true
  playing := true
  recorder := ⟨none, none, .ok, true, true, true, ⟨2026, 1, 1, 0, 0, 0⟩⟩
  reply := .eos
  now := 0
  tm := ⟨2026, 1, 1, 0, 0, 0⟩

/-- What the bus thread pops. -/
inductive BusMessage where
  | error
  | warning
  | eos
  deriving DecidableEq, Repr

namespace World

/-- A fresh `GstCameraSource(cfg)`. -/
def new (cfg : ResolutionConfig) : World where
  toSource := .new cfg
  made := 0
  acquired := []
  released := []
  recStarted := []
  recStopped := []
  crashed := false

/-- The file `r.stop()` takes out of RECORDING. -/
def finalises (r : Recorder) : List Bytes := if r.state = .recording then [r.currentFile] else []

/-- `recorder_` is given another value: the recorder it held is destroyed, which stops its
recording. -/
def resetRecorder (r : Option Recorder) (w : World) : World :=
  { w with
    recorder := r
    recStopped := w.recStopped ++ w.recorder.elim [] finalises }

/-- `recorder_->stop()`. -/
def stopRecorder (reply : BusReply) (r : Recorder) (w : World) : World :=
  { w with
    recorder := some (r.stop reply).recorder
    recStopped := w.recStopped ++ finalises r }

/-- `pipeline_ = gst_parse_launch(..)` when it makes a pipeline. -/
def newPipeline (w : World) : World :=
  { w with
    pipeline := some ⟨w.made, w.cfg⟩
    made := w.made + 1
    acquired := w.acquired ++ [.pipeline w.made] }

/-- `appsink_`, `rec_sink_` and `bus_` are looked up in `pipeline_`. -/
def getElements (o : Choice) (w : World) : World :=
  let found (b : Bool) : Option ℕ := if b then w.pipeline.map (·.id) else none
  { w with
    appsink := found o.appsink
    recSink := found o.recSink
    bus := found o.bus
    acquired := w.acquired ++ ((found o.appsink).map Ref.appsink).toList
      ++ ((found o.recSink).map Ref.recSink).toList ++ ((found o.bus).map Ref.bus).toList }

/-- `if (appsink_) { gst_object_unref(appsink_); appsink_ = nullptr; }`. -/
def releaseAppsink (w : World) : World :=
  { w with
    appsink := none
    released := w.released ++ (w.appsink.map Ref.appsink).toList }

/-- `if (rec_sink_) { gst_object_unref(rec_sink_); rec_sink_ = nullptr; }`. -/
def releaseRecSink (w : World) : World :=
  { w with
    recSink := none
    released := w.released ++ (w.recSink.map Ref.recSink).toList }

/-- `if (bus_) { gst_object_unref(bus_); bus_ = nullptr; }`. -/
def releaseBus (w : World) : World :=
  { w with
    bus := none
    released := w.released ++ (w.bus.map Ref.bus).toList }

/-- `if (pipeline_) { gst_object_unref(pipeline_); pipeline_ = nullptr; }`. -/
def releasePipeline (w : World) : World :=
  { w with
    pipeline := none
    released := w.released ++ (w.pipeline.map fun p => Ref.pipeline p.id).toList }

/-- The drain thread sees `abort_rec_` and returns. -/
def drainExit (w : World) : Option World :=
  if w.recThread = .live ∧ w.abortRec = true then some { w with recThread := .exited } else none

/-- The bus thread sees `abort_bus_` and returns. -/
def busExit (w : World) : Option World :=
  if w.busThread = .live ∧ w.abortBus = true then some { w with busThread := .exited } else none

/-- The bus thread handles a message. -/
def busMessage (m : BusMessage) (w : World) : Option World :=
  if w.busThread = .live then
    match m with
    | .error => some { w with running := false }
    | .warning => some w
    | .eos => some { w with running := false }
  else none

end World

/-! ### The threads of the source -/

/-- The drain thread or the bus thread returns. -/
def ThreadExit (w w' : World) : Prop := w.drainExit = some w' ∨ w.busExit = some w'

lemma ThreadExit.cases {w w' : World} (h : ThreadExit w w') :
    (w.recThread = .live ∧ w' = { w with recThread := .exited }) ∨
      (w.busThread = .live ∧ w' = { w with busThread := .exited }) := by
  obtain h | h := h
  · rw [World.drainExit] at h
    split_ifs at h with hlive
    cases h
    exact Or.inl ⟨hlive.1, rfl⟩
  · rw [World.busExit] at h
    split_ifs at h with hlive
    cases h
    exact Or.inr ⟨hlive.1, rfl⟩

/-- A message leaves everything but `running_`, which it can only clear. -/
lemma busMessage_cases {m : BusMessage} {w w' : World} (h : w.busMessage m = some w') :
    w.busThread = .live ∧ (w' = w ∨ w' = { w with running := false }) := by
  unfold World.busMessage at h
  split_ifs at h with hlive
  cases m <;> cases h
  · exact ⟨hlive, Or.inr rfl⟩
  · exact ⟨hlive, Or.inl rfl⟩
  · exact ⟨hlive, Or.inr rfl⟩

lemma busMessage_warning {w w' : World} (h : w.busMessage .warning = some w') : w' = w := by
  unfold World.busMessage at h
  split_ifs at h
  cases h
  rfl

/-! ### `stop_recording` -/

/-- The program points of `stop_recording`. -/
inductive StopRecordingPc where
  | test            -- `if (!recording_) return false`
  | clear           -- `recording_ = false`
  | testRecorder    -- `if (recorder_)`
  | stopRecorder    -- `recorder_->stop()`
  | resetRecorder   -- `recorder_.reset()`
  deriving DecidableEq, Repr

/-- `stop_recording()`. -/
def stopRecordingStep : Body World Choice StopRecordingPc Bool
  | _, .test, w => some (w, if w.recording then .goto .clear else .ret false)
  | _, .clear, w => some ({ w with recording := false }, .goto .testRecorder)
  | _, .testRecorder, w => some (w, if w.recorder.isSome then .goto .stopRecorder else .ret true)
  | o, .stopRecorder, w =>
      match w.recorder with
      | none => some (w, .crash)
      | some r => some (w.stopRecorder o.reply r, .goto .resetRecorder)
  | _, .resetRecorder, w => some (w.resetRecorder none, .ret true)

/-! ### `start_recording` -/

/-- The program points of `start_recording`. -/
inductive StartRecordingPc where
  | test            -- `if (!running_ || recording_) return false`
  | create          -- `recorder_ = std::make_unique<Recorder>("recordings")`
  | startRecorder   -- `recorder_->start(cfg_, filepath, true)`
  | setFile         -- `current_file_ = filepath; rec_start_ = now()` under `rec_file_mutex_`
  | setRecording    -- `recording_ = true`
  deriving DecidableEq, Repr

/-- `start_recording(filepath)`. -/
def startRecordingStep (filepath : Bytes) :
    Body World Choice StartRecordingPc (Except Exception Bool)
  | _, .test, w => some (w, if !w.running || w.recording then .ret (.ok false) else .goto .create)
  | _, .create, w => some (w.resetRecorder (some Source.newRecorder), .goto .startRecorder)
  | o, .startRecorder, w =>
      match w.recorder with
      | none => some (w, .crash)
      | some r =>
          match r.start o.recorder w.cfg filepath true with
          | (r, .ok true) =>
              some ({ w with
                recorder := some r
                recStarted := w.recStarted ++ [r.currentFile] }, .goto .setFile)
          | (_, .ok false) => some ({ w with recorder := none }, .ret (.ok false))
          | (r, .error e) => some ({ w with recorder := some r }, .ret (.error e))
  | o, .setFile, w =>
      some ({ w with
        currentFile := filepath
        recStart := o.now }, .goto .setRecording)
  | _, .setRecording, w => some ({ w with recording := true }, .ret (.ok true))

/-! ### `stop` -/

/-- The program points of `stop`. -/
inductive StopPc where
  | test                                -- `if (!running_) return`
  | testRecording                       -- `if (recording_)`
  | stopRecording (p : StopRecordingPc) -- `stop_recording()`
  | clearRunning                        -- `running_ = false`
  | setAbortBus                         -- `abort_bus_ = true`
  | setAbortRec                         -- `abort_rec_ = true`
  | testRecThread                       -- `if (rec_thread_.joinable())`
  | joinRecThread                       -- `rec_thread_.join()`
  | testBusThread                       -- pipeline to NULL; `if (bus_thread_.joinable())`
  | joinBusThread                       -- `bus_thread_.join()`
  | releaseAppsink
  | releaseRecSink
  | releaseBus
  | releasePipeline
  deriving DecidableEq, Repr

/-- `stop()`.  Joining waits for the thread's function to return. -/
def stopStep : Body World Choice StopPc Unit
  | _, .test, w => some (w, if w.running then .goto .testRecording else .ret ())
  | _, .testRecording, w =>
      some (w, .goto (if w.recording then .stopRecording .test else .clearRunning))
  | o, .stopRecording p, w =>
      (stopRecordingStep o p w).map fun r =>
        (r.1, r.2.call .stopRecording fun _ => .goto .clearRunning)
  | _, .clearRunning, w => some ({ w with running := false }, .goto .setAbortBus)
  | _, .setAbortBus, w => some ({ w with abortBus := true }, .goto .setAbortRec)
  | _, .setAbortRec, w => some ({ w with abortRec := true }, .goto .testRecThread)
  | _, .testRecThread, w =>
      some (w, .goto (if w.recThread.joinable then .joinRecThread else .testBusThread))
  | _, .joinRecThread, w =>
      match w.recThread with
      | .empty => some (w, .crash)
      | .live => none
      | .exited => some ({ w with recThread := .empty }, .goto .testBusThread)
  | _, .testBusThread, w =>
      some (w, .goto (if w.busThread.joinable then .joinBusThread else .releaseAppsink))
  | _, .joinBusThread, w =>
      match w.busThread with
      | .empty => some (w, .crash)
      | .live => none
      | .exited => some ({ w with busThread := .empty }, .goto .releaseAppsink)
  | _, .releaseAppsink, w => some (w.releaseAppsink, .goto .releaseRecSink)
  | _, .releaseRecSink, w => some (w.releaseRecSink, .goto .releaseBus)
  | _, .releaseBus, w => some (w.releaseBus, .goto .releasePipeline)
  | _, .releasePipeline, w => some (w.releasePipeline, .ret ())

/-! ### `start` -/

/-- The program points of `start`. -/
inductive StartPc where
  | test            -- `if (running_) return false`
  | parseLaunch     -- `pipeline_ = gst_parse_launch(..)`
  | getElements     -- the three lookups, and the branch taken when one is missing
  | setPlaying      -- `gst_element_set_state(pipeline_, GST_STATE_PLAYING)`
  | clearAbortRec   -- `abort_rec_ = false`
  | spawnRecThread  -- `rec_thread_ = std::thread(..)`
  | setRunning      -- `running_ = true`
  | clearAbortBus   -- `abort_bus_ = false`
  | spawnBusThread  -- `bus_thread_ = std::thread(..)`
  deriving DecidableEq, Repr

/-- `start()`.  Assigning to a `std::thread` that is joinable terminates the process. -/
def startStep : Body World Choice StartPc Bool
  | _, .test, w => some (w, if w.running then .ret false else .goto .parseLaunch)
  | o, .parseLaunch, w =>
      match o.parse with
      | .null => some ({ w with pipeline := none }, .ret false)
      | .withError => some (w.newPipeline, .ret false)
      | .ok => some (w.newPipeline, .goto .getElements)
  | o, .getElements, w =>
      let w := w.getElements o
      if w.appsink.isNone || w.recSink.isNone || w.bus.isNone then
        some (w.releasePipeline, .ret false)
      else some (w, .goto .setPlaying)
  | o, .setPlaying, w =>
      if o.playing then some (w, .goto .clearAbortRec)
      else some (w.releaseAppsink.releaseRecSink.releaseBus.releasePipeline, .ret false)
  | _, .clearAbortRec, w => some ({ w with abortRec := false }, .goto .spawnRecThread)
  | _, .spawnRecThread, w =>
      if w.recThread.joinable then some (w, .crash)
      else some ({ w with recThread := .live }, .goto .setRunning)
  | _, .setRunning, w => some ({ w with running := true }, .goto .clearAbortBus)
  | _, .clearAbortBus, w => some ({ w with abortBus := false }, .goto .spawnBusThread)
  | _, .spawnBusThread, w =>
      if w.busThread.joinable then some (w, .crash)
      else some ({ w with busThread := .live }, .ret true)

/-! ### `set_resolution` -/

/-- The program points of `set_resolution`. -/
inductive SetResolutionPc where
  | testRecording                       -- `if (recording_)`
  | stopRecording (p : StopRecordingPc) -- `stop_recording()`
  | stop (p : StopPc)                   -- `stop()`
  | setCfg                              -- `cfg_ = cfg`
  | start (p : StartPc)                 -- `return start()`
  deriving DecidableEq, Repr

/-- `set_resolution(cfg)`. -/
def setResolutionStep (cfg : ResolutionConfig) : Body World Choice SetResolutionPc Bool
  | _, .testRecording, w =>
      some (w, .goto (if w.recording then .stopRecording .test else .stop .test))
  | o, .stopRecording p, w =>
      (stopRecordingStep o p w).map fun r =>
        (r.1, r.2.call .stopRecording fun _ => .goto (.stop .test))
  | o, .stop p, w =>
      (stopStep o p w).map fun r => (r.1, r.2.call .stop fun _ => .goto .setCfg)
  | _, .setCfg, w => some ({ w with cfg := cfg }, .goto (.start .test))
  | o, .start p, w => (startStep o p w).map fun r => (r.1, r.2.call .start .ret)

/-- `set_resolution` returns when its `start` does. -/
lemma setResolutionStep_ret {cfg : ResolutionConfig} {o : Choice} {p : SetResolutionPc}
    {w w' : World} {r : Bool} (h : setResolutionStep cfg o p w = some (w', .ret r)) :
    ∃ p', p = .start p' ∧ startStep o p' w = some (w', .ret r) := by
  cases p with
  | testRecording => cases h
  | stopRecording p =>
      obtain ⟨⟨v, n⟩, -, hland⟩ := Option.map_eq_some_iff.mp h
      cases n <;> cases hland
  | stop p =>
      obtain ⟨⟨v, n⟩, -, hland⟩ := Option.map_eq_some_iff.mp h
      cases n <;> cases hland
  | setCfg => cases h
  | start p =>
      obtain ⟨⟨v, n⟩, hstep, hland⟩ := Option.map_eq_some_iff.mp h
      cases n <;> cases hland
      exact ⟨p, rfl, hstep⟩

/-! ### Calls in a thread -/

/-- A step of a call, taken by a thread that is at `into p` while the call is at `p`, and goes to
`k r` when it returns `r`.  In a crash the thread stays where it is. -/
def stepCall {π ρ κ : Type} (body : Body World Choice π ρ) (into : π → κ) (k : ρ → κ)
    (o : Choice) (p : π) (w : World) : Option (World × κ) :=
  (body o p w).map fun r =>
    match r.2 with
    | .goto p' => (r.1, into p')
    | .ret x => (r.1, k x)
    | .crash => ({ w with crashed := true }, into p)

lemma stepCall_cases {π ρ κ : Type} {body : Body World Choice π ρ} {into : π → κ} {k : ρ → κ}
    {o : Choice} {p : π} {w w' : World} {q : κ} (h : stepCall body into k o p w = some (w', q)) :
    (∃ p', body o p w = some (w', .goto p') ∧ q = into p') ∨
      (∃ r, body o p w = some (w', .ret r) ∧ q = k r) ∨
      (w' = { w with crashed := true } ∧ q = into p) := by
  obtain hgoto | hret | hcrash :=
    land_cases (fun _ _ => rfl) (fun _ _ => rfl) (fun _ => rfl) h
  · exact Or.inl hgoto
  · exact Or.inr (Or.inl hret)
  · exact Or.inr (Or.inr (Prod.mk.inj hcrash))

/-- A thread inside a call with a proof outline is led from assertion to assertion, and does not
crash. -/
lemma stepCall_of_outline {π ρ κ : Type} {body : Body World Choice π ρ}
    {Allow : Choice → π → Prop} {A : π → World → Prop} {R : ρ → World → Prop} {into : π → κ}
    {k : ρ → κ} {o : Choice} {p : π} {w w' : World} {q : κ}
    (h : stepCall body into k o p w = some (w', q)) (hout : Outline False body Allow A R)
    (hallow : Allow o p) (hA : A p w) :
    (∃ p', q = into p' ∧ A p' w') ∨ (∃ r, q = k r ∧ R r w') := by
  obtain ⟨⟨v, n⟩, hbody, hland⟩ := Option.map_eq_some_iff.mp h
  have hsat := hout o p w v n hallow hA hbody
  cases n with
  | goto p' =>
      cases hland
      exact Or.inl ⟨p', rfl, hsat⟩
  | ret r =>
      cases hland
      exact Or.inr ⟨r, rfl, hsat⟩
  | crash => exact absurd hsat id

/-! ### Calls run without interruption -/

/-- `stop_recording`, run alone, is `Source.stopRecording`. -/
theorem stopRecording_exec (o : Choice) (w : World) :
    ∃ w', execBody stopRecordingStep o 5 .test w = some (w', (w.stopRecording o.reply).ok) ∧
      w'.toSource = (w.stopRecording o.reply).source := by
  cases hrec : w.recording with
  | false => exact ⟨w, by simp [execBody, stopRecordingStep, Source.stopRecording, hrec]⟩
  | true =>
      cases hr : w.recorder with
      | none =>
          refine ⟨{ w with recording := false }, ?_, ?_⟩
          · simp [execBody, stopRecordingStep, Source.stopRecording, hrec, hr]
          · simp [Source.stopRecording, hrec, ← hr]
      | some r =>
          refine ⟨(({ w with recording := false } : World).stopRecorder o.reply r).resetRecorder
            none, ?_, ?_⟩
          · simp [execBody, stopRecordingStep, Source.stopRecording, World.stopRecorder, hrec, hr]
          · simp [World.resetRecorder, World.stopRecorder, Source.stopRecording, hrec]

/-- `start_recording`, run alone, is `Source.startRecording`. -/
theorem startRecording_exec (o : Choice) (f : Bytes) (w : World) :
    ∃ w', execBody (startRecordingStep f) o 5 .test w =
        some (w', (w.startRecording o.recorder o.now f).2) ∧
      w'.toSource = (w.startRecording o.recorder o.now f).1 := by
  by_cases h : !w.running || w.recording
  · exact ⟨w, by simp [execBody, startRecordingStep, Source.startRecording, h]⟩
  · simp only [execBody, startRecordingStep, Source.startRecording, h, World.resetRecorder,
      Bool.false_eq_true, if_false]
    rcases Source.newRecorder.start o.recorder w.cfg f true with ⟨r, e | ok⟩
    · exact ⟨_, rfl, rfl⟩
    · cases ok <;> exact ⟨_, rfl, rfl⟩

end RasPiZeroCam
