import RasPiZeroCam.Record.Recorder

/-!
`GstCameraSource`: its members, and its recording operations as functions on them.

* `Source`: the members.  A pipeline is known by an identity and by the configuration
  `build_pipeline` wrote into its launch text; the element pointers by the pipeline they belong
  to; a `std::thread` by what it owns.
* `isRecording`, `currentRecording`, `recordingSeconds`, `startRecording`, `stopRecording`: the
  operations the command handlers call.
* `startRecording_of_ok`, `stopRecording_popped_iff`: what their results promise.
-/

namespace RasPiZeroCam

/-- A pipeline `gst_parse_launch` made: the number of the call, and the configuration in its
launch text. -/
structure Pipeline where
  id : ℕ
  cfg : ResolutionConfig
  deriving DecidableEq

/-- A `std::thread` member: it owns no thread, a thread that runs, or one whose function has
returned. -/
inductive StdThread where
  | empty
  | live
  | exited
  deriving DecidableEq, Repr

/-- `joinable()`. -/
def StdThread.joinable : StdThread → Bool
  | .empty => false
  | .live => true
  | .exited => true

/-- The members of `GstCameraSource`; the snapshot slot is modelled on its own. -/
structure Source where
  cfg : ResolutionConfig
  pipeline : Option Pipeline
  appsink : Option ℕ
  recSink : Option ℕ
  bus : Option ℕ
  busThread : StdThread
  abortBus : Bool
  running : Bool
  recorder : Option Recorder
  recording : Bool
  currentFile : Bytes
  recStart : ℕ                -- milliseconds of the steady clock
  recThread : StdThread
  abortRec : Bool
  deriving DecidableEq

/-- What `stop_recording` did: the source after it, its result, and what the recorder popped from
its bus while it waited for the muxer. -/
structure StopRecording where
  source : Source
  ok : Bool
  popped : Option BusReply

namespace Source

/-- `GstCameraSource(cfg)`. -/
def new (cfg : ResolutionConfig) : Source where
  cfg := cfg
  pipeline := none
  appsink := none
  recSink := none
  bus := none
  busThread := .empty
  abortBus := false
  running := false
  recorder := none
  recording := false
  currentFile := []
  recStart := 0
  recThread := .empty
  abortRec := false

/-- `is_recording()`. -/
def isRecording (s : Source) : Bool := s.recording

/-- `is_running()`. -/
def isRunning (s : Source) : Bool := s.running

/-- `current_recording()`. -/
def currentRecording (s : Source) : Bytes := s.currentFile

/-- `recording_seconds()` at time `now`. -/
def recordingSeconds (now : ℕ) (s : Source) : ℕ :=
  if s.recording then (now - s.recStart) / 1000 else 0

/-- The recorder `start_recording` makes. -/
def newRecorder : Recorder := .new (ascii "recordings")

/-- `start_recording(filepath)` at time `now`. -/
def startRecording (o : RecorderOutcome) (now : ℕ) (filepath : Bytes) (s : Source) :
    Source × Except Exception Bool :=
  if !s.running || s.recording then (s, .ok false)
  else
    match newRecorder.start o s.cfg filepath true with
    | (r, .ok true) =>
        ({ s with
            recorder := some r
            currentFile := filepath
            recStart := now
            recording := true }, .ok true)
    | (_, .ok false) => ({ s with recorder := none }, .ok false)
    | (r, .error e) => ({ s with recorder := some r }, .error e)

/-- `stop_recording()`. -/
def stopRecording (reply : BusReply) (s : Source) : StopRecording :=
  if !s.recording then ⟨s, false, none⟩
  else
    ⟨{ s with recording := false, recorder := none }, true,
      s.recorder.bind fun r => (r.stop reply).popped⟩

/-! ### What the operations promise -/

/-- `start_recording` succeeds exactly on a running source that does not record, when the recorder
starts. -/
theorem startRecording_ok_iff (o : RecorderOutcome) (now : ℕ) (f : Bytes) (s : Source) :
    (s.startRecording o now f).2 = .ok true ↔
      s.running = true ∧ s.recording = false ∧ o.createDirectories = none ∧ o.Plays := by
  rw [← Recorder.start_ok_iff o s.cfg f (r := newRecorder) rfl, startRecording]
  cases s.running <;> cases s.recording <;> simp
  rcases newRecorder.start o s.cfg f true with ⟨r, e | ok⟩
  · simp
  · cases ok <;> simp

/-- `start_recording` throws exactly when it gets to the recorder and its directory cannot be
made. -/
lemma startRecording_error_iff (o : RecorderOutcome) (now : ℕ) (f : Bytes) (s : Source) :
    (∃ e, (s.startRecording o now f).2 = .error e) ↔
      s.running = true ∧ s.recording = false ∧ o.createDirectories ≠ none := by
  have hstart := Recorder.start_sw_result o s.cfg f (r := newRecorder) rfl
  rw [startRecording]
  cases s.running <;> cases s.recording <;> simp
  rcases hr : newRecorder.start o s.cfg f true with ⟨r, e | ok⟩ <;> rw [hr] at hstart <;>
    cases hdir : o.createDirectories <;> simp [hdir] at hstart ⊢
  cases ok <;> simp

/-- After a `start_recording` that succeeded the source records into the file it was given. -/
lemma startRecording_of_ok (o : RecorderOutcome) (now : ℕ) (f : Bytes) (s : Source)
    (h : (s.startRecording o now f).2 = .ok true) :
    (s.startRecording o now f).1.recording = true ∧
      (s.startRecording o now f).1.currentRecording = f := by
  obtain ⟨hrun, hrec, -⟩ := (startRecording_ok_iff o now f s).mp h
  rw [startRecording, hrun, hrec] at h ⊢
  revert h
  rcases newRecorder.start o s.cfg f true with ⟨r, e | ok⟩
  · simp
  · cases ok <;> simp [currentRecording]

/-- A `start_recording` that did not succeed leaves `recording_` as it was. -/
lemma startRecording_recording_of_not_ok (o : RecorderOutcome) (now : ℕ) (f : Bytes) (s : Source)
    (h : (s.startRecording o now f).2 ≠ .ok true) :
    (s.startRecording o now f).1.recording = s.recording := by
  revert h
  rw [startRecording]
  split
  · simp
  · rcases newRecorder.start o s.cfg f true with ⟨r, e | ok⟩
    · simp
    · cases ok <;> simp

@[simp] lemma stopRecording_running (reply : BusReply) (s : Source) :
    (s.stopRecording reply).source.running = s.running := by
  cases h : s.recording <;> simp [stopRecording, h]

@[simp] lemma stopRecording_recording (reply : BusReply) (s : Source) :
    (s.stopRecording reply).source.recording = false := by
  cases h : s.recording <;> simp [stopRecording, h]

@[simp] lemma stopRecording_ok (reply : BusReply) (s : Source) :
    (s.stopRecording reply).ok = s.recording := by
  cases h : s.recording <;> simp [stopRecording, h]

/-- `stop_recording` pops a message from the recorder's bus exactly when it stops a recorder that
is RECORDING. -/
theorem stopRecording_popped_iff (reply : BusReply) (s : Source) (m : BusReply) :
    (s.stopRecording reply).popped = some m ↔
      s.recording = true ∧ (∃ r, s.recorder = some r ∧ r.state = .recording) ∧ reply = m := by
  cases h : s.recording <;> simp [stopRecording, h, Option.bind_eq_some_iff,
    Recorder.stop_popped_iff, ← exists_and_right, and_assoc]

end Source

end RasPiZeroCam
