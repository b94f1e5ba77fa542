import RasPiZeroCam.Camera.Resolution

/-!
`Recorder`: the muxing pipeline of one recording and its state machine
`IDLE → RECORDING → STOPPING → IDLE`.

The calls into GStreamer, the file system and the hardware encoder are outcomes
(`RecorderOutcome`, `BusReply`): each operation is given what the calls underneath it return.

* `start`, with every failure branch, `stop`, `restart`, the destructor, `teardownGst` and
  `buildPipelineStr`.
* `start_ok_iff`: a start of an idle recorder succeeds exactly when its pipeline reaches PLAYING.
* `stop_popped_iff`: `stop` waits on the bus exactly when the recorder is RECORDING.
-/

namespace RasPiZeroCam

/-- `RecorderState`. -/
inductive RecorderState where
  | idle
  | recording
  | stopping
  deriving DecidableEq, Repr

/-- What `gst_parse_launch` gives back: no pipeline, a pipeline together with an error, or a
pipeline. -/
inductive ParseLaunch where
  | null
  | withError
  | ok
  deriving DecidableEq, Repr

/-- What `gst_bus_timed_pop_filtered` pops while `stop` waits for the muxer. -/
inductive BusReply where
  | eos
  | error
  | timeout
  deriving DecidableEq, Repr

/-- `H264HardwareEncoder`, as far as the recorder looks at it. -/
structure HwEncoder where
  cfg : ResolutionConfig
  bitrate : ℕ
  outputReadyCallback : Bool
  inputDoneCallback : Bool
  deriving DecidableEq, Repr

/-- What the calls underneath `start` return. -/
structure RecorderOutcome where
  createDirectories : Option Exception   -- an exception of `create_directories`
  hwEncoder : Option Exception           -- an exception of the encoder's constructor
  parse : ParseLaunch
  appsrc : Bool                          -- `gst_bin_get_by_name(.., "src")` is not null
  bus : Bool                             -- `gst_element_get_bus` is not null
  playing : Bool                         -- the change to PLAYING did not fail
  localtime : Tm
  deriving DecidableEq

/-- The pipeline of the recorder gets to PLAYING. -/
def RecorderOutcome.Plays (o : RecorderOutcome) : Prop :=
  o.parse = .ok ∧ o.appsrc = true ∧ o.bus = true ∧ o.playing = true

instance (o : RecorderOutcome) : Decidable o.Plays := by
  unfold RecorderOutcome.Plays
  infer_instance

/-- The members of a `Recorder`.  A pipeline is known by the description it was parsed from;
`appsrc` and `bus` say whether the pointers are set. -/
structure Recorder where
  recordingsDir : Bytes
  currentFile : Bytes
  swEncoder : Bool
  cfg : ResolutionConfig
  hwEncoder : Option HwEncoder
  pipeline : Option Bytes
  appsrc : Bool
  bus : Bool
  baseTsUs : ℤ
  firstOutput : Bool
  state : RecorderState
  deriving DecidableEq

/-- What `stop` did: the recorder after it, its result, and what it popped from the bus if it got
that far. -/
structure StopResult where
  recorder : Recorder
  ok : Bool
  popped : Option BusReply

namespace Recorder

/-- `Recorder(recordings_dir)`. -/
def new (recordingsDir : Bytes) : Recorder where
  recordingsDir := recordingsDir
  currentFile := []
  swEncoder := false
  cfg := .zero
  hwEncoder := none
  pipeline := none
  appsrc := false
  bus := false
  baseTsUs := 0
  firstOutput := true
  state := .idle

/-- `next_filename()`. -/
def nextFilename (r : Recorder) (tm : Tm) : Bytes :=
  r.recordingsDir ++ ascii "/" ++ strftime (ascii "rec_%Y%m%d_%H%M%S.mp4") tm

/-- `build_pipeline_str(cfg, path)`. -/
def buildPipelineStr (r : Recorder) (cfg : ResolutionConfig) (path : Bytes) : Bytes :=
  let size := ascii ",width=" ++ decimal cfg.width.toNat ++ ascii ",height="
    ++ decimal cfg.height.toNat ++ ascii ",framerate=" ++ decimal cfg.fps.toNat ++ ascii "/1"
  if r.swEncoder then
    ascii "appsrc name=src format=time is-live=true block=false"
      ++ ascii " caps=video/x-raw,format=NV12" ++ size
      ++ ascii " ! videoconvert"
      ++ ascii " ! queue max-size-buffers=4 leaky=downstream"
      ++ ascii " ! openh264enc"
      ++ ascii " bitrate=" ++ decimal (cfg.bitrateKbps * 1000).toNat
      ++ ascii " multi-thread=2"
      ++ ascii " scene-change-detection=true"
      ++ ascii " ! h264parse config-interval=-1"
      ++ ascii " ! mp4mux"
      ++ ascii " ! filesink name=sink sync=false location=" ++ path
  else
    ascii "appsrc name=src format=time is-live=true block=false"
      ++ ascii " caps=video/x-h264"
      ++ ascii ",stream-format=byte-stream"
      ++ ascii ",alignment=au" ++ size
      ++ ascii " ! h264parse"
      ++ ascii " ! mp4mux"
      ++ ascii " ! filesink name=sink sync=false location=" ++ path

/-- `teardown_gst()`. -/
def teardownGst (r : Recorder) : Recorder :=
  { r with pipeline := none, appsrc := false, bus := false }

/-- A failed `start` gives up the encoder and the pipeline. -/
def giveUp (r : Recorder) : Recorder := { r with hwEncoder := none }.teardownGst

/-- The second half of `start`: parse the pipeline, look up its elements, set it PLAYING and wire
the encoder's callbacks. -/
def launch (o : RecorderOutcome) (r : Recorder) : Recorder × Bool :=
  let str := r.buildPipelineStr r.cfg r.currentFile
  match o.parse with
  | .null => ({ r with pipeline := none }.giveUp, false)
  | .withError => ({ r with pipeline := some str }.giveUp, false)
  | .ok =>
      let r := { r with pipeline := some str, appsrc := o.appsrc, bus := o.bus }
      if !o.appsrc || !o.bus then (r.giveUp, false)
      else if !o.playing then (r.giveUp, false)
      else
        let wire (e : HwEncoder) : HwEncoder :=
          { e with outputReadyCallback := true, inputDoneCallback := true }
        ({ r with
            hwEncoder := if r.swEncoder then r.hwEncoder else r.hwEncoder.map wire
            state := .recording }, true)

/-- `start(cfg, filename, sw_encoder)`. -/
def start (o : RecorderOutcome) (cfg : ResolutionConfig) (filename : Bytes) (swEncoder : Bool)
    (r : Recorder) : Recorder × Except Exception Bool :=
  if r.state ≠ .idle then (r, .ok false)
  else
    match o.createDirectories with
    | some e => (r, .error e)
    | none =>
        let r := { r with
          cfg := cfg
          swEncoder := swEncoder
          currentFile := if filename = [] then r.nextFilename o.localtime else filename
          firstOutput := true
          baseTsUs := 0 }
        if swEncoder then
          let (r, ok) := r.launch o
          (r, .ok ok)
        else
          match o.hwEncoder with
          | some _ => (r, .ok false)
          | none =>
              let encoder : HwEncoder := ⟨cfg, (cfg.bitrateKbps * 1000).toNat, false, false⟩
              let (r, ok) := { r with hwEncoder := some encoder }.launch o
              (r, .ok ok)

/-- `stop()`: whatever the bus answers, the pipeline is torn down and the result is `true`. -/
def stop (reply : BusReply) (r : Recorder) : StopResult :=
  if r.state ≠ .recording then ⟨r, false, none⟩
  else ⟨{ r with hwEncoder := none, state := .idle }.teardownGst, true, some reply⟩

/-- `restart(cfg)`. -/
def restart (reply : BusReply) (o : RecorderOutcome) (cfg : ResolutionConfig) (r : Recorder) :
    Recorder × Except Exception Bool :=
  (r.stop reply).recorder.start o cfg [] false

/-- `~Recorder()`: what the destructor pops from the bus, if it has to stop the recording. -/
def destroy (reply : BusReply) (r : Recorder) : Option BusReply :=
  if r.state ≠ .idle then (r.stop reply).popped else none

/-! ### What `start` and `stop` do -/

@[simp] lemma teardownGst_state (r : Recorder) : r.teardownGst.state = r.state := rfl

@[simp] lemma teardownGst_cfg (r : Recorder) : r.teardownGst.cfg = r.cfg := rfl

@[simp] lemma giveUp_state (r : Recorder) : r.giveUp.state = r.state := rfl

@[simp] lemma giveUp_cfg (r : Recorder) : r.giveUp.cfg = r.cfg := rfl

@[simp] lemma new_state (dir : Bytes) : (new dir).state = .idle := rfl

/-- `launch` succeeds exactly when the pipeline reaches PLAYING. -/
lemma launch_snd (o : RecorderOutcome) (r : Recorder) : (r.launch o).2 = decide o.Plays := by
  obtain ⟨_, _, parse, appsrc, bus, playing, _⟩ := o
  cases parse <;> cases appsrc <;> cases bus <;> cases playing <;>
    simp [launch, RecorderOutcome.Plays]

/-- A launched recorder records, one that failed keeps its state. -/
lemma launch_state (o : RecorderOutcome) (r : Recorder) :
    (r.launch o).1.state = if o.Plays then .recording else r.state := by
  obtain ⟨_, _, parse, appsrc, bus, playing, _⟩ := o
  cases parse <;> cases appsrc <;> cases bus <;> cases playing <;>
    simp [launch, RecorderOutcome.Plays]

lemma launch_cfg (o : RecorderOutcome) (r : Recorder) : (r.launch o).1.cfg = r.cfg := by
  obtain ⟨_, _, parse, appsrc, bus, playing, _⟩ := o
  cases parse <;> cases appsrc <;> cases bus <;> cases playing <;> simp [launch]

/-- A start in software mode of an idle recorder, result first. -/
lemma start_sw_result (o : RecorderOutcome) (cfg : ResolutionConfig) (f : Bytes) {r : Recorder}
    (hr : r.state = .idle) :
    (r.start o cfg f true).2 =
      match o.createDirectories with
      | some e => .error e
      | none => .ok (decide o.Plays) := by
  cases h : o.createDirectories with
  | some e => simp [start, hr, h]
  | none => simp [start, hr, h, launch_snd]

/-- **`start` in software mode**: an idle recorder starts exactly when its directory can be made
and its pipeline reaches PLAYING. -/
theorem start_ok_iff (o : RecorderOutcome) (cfg : ResolutionConfig) (f : Bytes) {r : Recorder}
    (hr : r.state = .idle) :
    (r.start o cfg f true).2 = .ok true ↔ o.createDirectories = none ∧ o.Plays := by
  rw [start_sw_result o cfg f hr]
  cases o.createDirectories <;> simp

/-- A started recorder is RECORDING and keeps the configuration it was started with. -/
lemma start_sw_of_ok (o : RecorderOutcome) (cfg : ResolutionConfig) (f : Bytes) {r : Recorder}
    (hr : r.state = .idle) (h : (r.start o cfg f true).2 = .ok true) :
    (r.start o cfg f true).1.state = .recording ∧ (r.start o cfg f true).1.cfg = cfg := by
  obtain ⟨hdir, hplays⟩ := (start_ok_iff o cfg f hr).mp h
  simp [start, hr, hdir, launch_state, launch_cfg, hplays]

/-- A start that does not succeed leaves an idle recorder idle. -/
lemma start_sw_of_not_ok (o : RecorderOutcome) (cfg : ResolutionConfig) (f : Bytes)
    {r : Recorder} (hr : r.state = .idle) (h : (r.start o cfg f true).2 ≠ .ok true) :
    (r.start o cfg f true).1.state = .idle := by
  cases hdir : o.createDirectories with
  | some e => simp [start, hr, hdir]
  | none =>
      have hplays : ¬ o.Plays := fun hp => h ((start_ok_iff o cfg f hr).mpr ⟨hdir, hp⟩)
      simp [start, hr, hdir, launch_state, hplays]

/-- `stop` waits on the bus exactly when the recorder is RECORDING. -/
theorem stop_popped_iff (reply : BusReply) (r : Recorder) (m : BusReply) :
    (r.stop reply).popped = some m ↔ r.state = .recording ∧ reply = m := by
  by_cases h : r.state = .recording <;> simp [stop, h]

lemma stop_cfg (reply : BusReply) (r : Recorder) : (r.stop reply).recorder.cfg = r.cfg := by
  by_cases h : r.state = .recording <;> simp [stop, h]

lemma stop_state_of_recording (reply : BusReply) {r : Recorder} (h : r.state = .recording) :
    (r.stop reply).recorder.state = .idle := by
  simp [stop, h]

end Recorder

end RasPiZeroCam
