import RasPiZeroCam.Record.Launch
import RasPiZeroCam.Record.Lifecycle

/-!
`Recorder::push_frame` in the two modes of a recorder: raw NV12 memory goes to the `appsrc` of the
software pipeline, DMA-BUF frames to the hardware encoder.

* `Recorder.pushFrame`: the method; `Pushed` is what it hands on.  `pushStep_exec`: it is
  `Lifecycle.pushStep` run alone.
* `recorderCalls`: a recorder under any sequence of `start`, `stop`, `restart` and `push_frame`.
  `Tidy`: a recording recorder has the pipeline and the encoder of its mode.
* `FollowsMode`: `push_frame` takes the route of the mode.  `followsMode_iff`: it does so when the
  frame is of the kind that the mode records.
* `restart_forgets_mode`: a recorder that restarts is in hardware mode.
-/

namespace RasPiZeroCam

open Transition

/-- `GstClockTime`. -/
abbrev GstClockTime := BitVec 64

/-- What `push_frame` reads of a `Frame`; the timestamp is in nanoseconds of the steady clock. -/
structure FrameView where
  data : Bytes
  dataSize : ℕ
  timestamp : ℤ
  dmaFd : ℤ
  deriving DecidableEq

/-- The timestamp in microseconds, as `duration_cast` truncates it. -/
def FrameView.tsUs (frame : FrameView) : ℤ := frame.timestamp.tdiv 1000

/-- A `GstBuffer` around the memory of a frame. -/
structure RawBuffer where
  memory : Bytes
  pts : GstClockTime
  duration : GstClockTime
  deriving DecidableEq

/-- What `push_frame` does with a frame. -/
inductive Pushed where
  | refused
  | raw (sinceBaseUs : ℤ) (buf : RawBuffer)    -- `gst_app_src_push_buffer`; `ts_us - base_ts_us_`
  | encode (encoder : HwEncoder) (dmaFd : ℤ) (size : ℕ) (tsUs : ℤ)   -- `hw_encoder_->encode`
  | nullEncoder                                -- the same through a null pointer
  deriving DecidableEq

/-- What `push_frame` returns when the call underneath answers `accepted`; nothing after a crash. -/
def Pushed.result (accepted : Bool) : Pushed → Option Bool
  | refused => some false
  | raw _ _ => some accepted
  | encode _ _ _ _ => some accepted
  | nullEncoder => none

namespace Recorder

/-- `push_frame(frame)`. -/
def pushFrame (frame : FrameView) (r : Recorder) : Recorder × Pushed :=
  if r.state ≠ .recording then (r, .refused)
  else if !r.swEncoder && r.hwEncoder.isNone then (r, .refused)
  else if frame.dmaFd < 0 then
    if !r.appsrc then (r, .refused)
    else
      let r := { r with
        baseTsUs := if r.firstOutput then frame.tsUs else r.baseTsUs
        firstOutput := false }
      let sinceBaseUs := frame.tsUs - r.baseTsUs
      (r, .raw sinceBaseUs
        { memory := frame.data.take frame.dataSize
          pts := BitVec.ofInt 64 (sinceBaseUs * 1000)
          duration := BitVec.ofNat 64 (1000000000 / r.cfg.fps.toNat) })
  else
    match r.hwEncoder with
    | some encoder => (r, .encode encoder frame.dmaFd frame.dataSize frame.tsUs)
    | none => (r, .nullEncoder)

/-- A call on a recorder, with what the calls underneath it return. -/
inductive Operation where
  | start (o : RecorderOutcome) (cfg : ResolutionConfig) (filename : Bytes) (swEncoder : Bool)
  | stop (reply : BusReply)
  | restart (reply : BusReply) (o : RecorderOutcome) (cfg : ResolutionConfig)
  | pushFrame (frame : FrameView)

/-- The recorder after a call. -/
def after : Operation → Recorder → Recorder
  | .start o cfg filename swEncoder, r => (r.start o cfg filename swEncoder).1
  | .stop reply, r => (r.stop reply).recorder
  | .restart reply o cfg, r => (r.restart reply o cfg).1
  | .pushFrame frame, r => (r.pushFrame frame).1

end Recorder

/-- Any sequence of calls on a fresh recorder. -/
def recorderCalls : System Recorder Recorder.Operation where
  init r := ∃ dir, r = .new dir
  step r op := some (r.after op)

/-- `push_frame` takes the route of the recorder's mode: no null encoder, raw memory only in
software mode and into a pipeline with raw NV12 caps, the encoder only in hardware mode. -/
structure FollowsMode (r : Recorder) (p : Pushed) : Prop where
  encoder : p ≠ .nullEncoder
  raw : ∀ since buf, p = .raw since buf → r.swEncoder = true ∧
    ∃ description, r.pipeline = some description ∧
      Recorder.elements true r.cfg <+: tokens description
  encode : ∀ e fd size ts, p = .encode e fd size ts → r.swEncoder = false

/-- Between two calls, a recorder is idle without an encoder, or records with the pipeline and the
encoder of its mode. -/
inductive Tidy (r : Recorder) : Prop
  | idle (state : r.state = .idle) (encoder : r.hwEncoder = none)
  | recording (state : r.state = .recording) (appsrc : r.appsrc = true)
      (pipeline : r.pipeline = some (r.buildPipelineStr r.cfg r.currentFile))
      (encoder : r.hwEncoder.isSome = !r.swEncoder)

namespace Recorder

variable {r : Recorder}

/-! ### Every call leaves a tidy recorder -/

/-- A launch that fails gives up, however it fails. -/
lemma launch_of_not_plays {o : RecorderOutcome} (h : ¬ o.Plays) (r : Recorder) :
    r.launch o = (r.giveUp, false) := by
  obtain ⟨_, _, parse, appsrc, bus, playing, _⟩ := o
  cases parse <;> cases appsrc <;> cases bus <;> cases playing <;>
    first
      | rfl
      | exact absurd ⟨rfl, rfl, rfl, rfl⟩ h

lemma tidy_launch (o : RecorderOutcome) (hidle : r.state = .idle)
    (hencoder : r.hwEncoder.isSome = !r.swEncoder) : Tidy (r.launch o).1 := by
  by_cases hplays : o.Plays
  · obtain ⟨hparse, happsrc, hbus, hplaying⟩ := hplays
    refine .recording ?_ ?_ ?_ ?_
    all_goals simp only [launch, hparse, happsrc, hbus, hplaying]
    · rfl
    · rfl
    · rfl
    · cases hsw : r.swEncoder
      · simpa [hsw] using hencoder
      · simpa [hsw] using hencoder
  · rw [launch_of_not_plays hplays]
    exact .idle hidle rfl

lemma tidy_start (h : Tidy r) (o : RecorderOutcome) (cfg : ResolutionConfig) (filename : Bytes)
    (swEncoder : Bool) : Tidy (r.start o cfg filename swEncoder).1 := by
  obtain ⟨hidle, hnone⟩ | ⟨hrec, happsrc, hpipeline, hencoder⟩ := h
  · simp only [start, hidle, ne_eq, not_true_eq_false, if_false]
    cases o.createDirectories with
    | some e => exact .idle hidle hnone
    | none =>
        cases swEncoder with
        | true => exact tidy_launch o rfl (by simp [hnone])
        | false =>
            cases o.hwEncoder with
            | some e => exact .idle rfl hnone
            | none => exact tidy_launch o rfl rfl
  · simp only [start, hrec]
    exact .recording hrec happsrc hpipeline hencoder

lemma tidy_stop (h : Tidy r) (reply : BusReply) : Tidy (r.stop reply).recorder := by
  obtain ⟨hidle, hnone⟩ | ⟨hrec, -, -, -⟩ := h
  · simp only [stop, hidle]
    exact .idle hidle hnone
  · simp only [stop, hrec]
    exact .idle rfl rfl

/-- `push_frame` touches the base of the time stamps only. -/
lemma pushFrame_members (frame : FrameView) (r : Recorder) :
    ∃ base first, (r.pushFrame frame).1 = { r with baseTsUs := base, firstOutput := first } := by
  have hsame : ∃ base first, r = { r with baseTsUs := base, firstOutput := first } :=
    ⟨r.baseTsUs, r.firstOutput, rfl⟩
  rw [pushFrame]
  split_ifs
  · exact hsame
  · exact hsame
  · exact hsame
  · exact ⟨_, _, rfl⟩
  · exact ⟨_, _, rfl⟩
  · split <;> exact hsame

lemma tidy_pushFrame (h : Tidy r) (frame : FrameView) : Tidy (r.pushFrame frame).1 := by
  obtain ⟨base, first, heq⟩ := pushFrame_members frame r
  rw [heq]
  obtain ⟨hidle, hnone⟩ | ⟨hrec, happsrc, hpipeline, hencoder⟩ := h
  · exact .idle hidle hnone
  · exact .recording hrec happsrc hpipeline hencoder

/-- **Every reachable recorder is tidy.** -/
theorem tidy_of_reach (h : recorderCalls.Reach (fun _ _ => True) r) : Tidy r := by
  refine h.invariant Tidy ?_ ?_
  · rintro _ ⟨dir, rfl⟩
    exact .idle rfl rfl
  · intro r op r' _ htidy _ hstep
    cases hstep
    cases op with
    | start o cfg filename swEncoder => exact tidy_start htidy o cfg filename swEncoder
    | stop reply => exact tidy_stop htidy reply
    | restart reply o cfg => exact tidy_start (tidy_stop htidy reply) o cfg [] false
    | pushFrame frame => exact tidy_pushFrame htidy frame

/-! ### The route of a frame -/

lemma pushFrame_of_not_recording (hstate : r.state ≠ .recording) (frame : FrameView) :
    r.pushFrame frame = (r, .refused) := by
  rw [pushFrame, if_pos hstate]

/-- What a recording recorder does with a frame: the descriptor alone decides. -/
lemma pushFrame_of_recording (hstate : r.state = .recording) (happsrc : r.appsrc = true)
    (hencoder : r.hwEncoder.isSome = !r.swEncoder) (frame : FrameView) :
    (frame.dmaFd < 0 ∧ ∃ since buf, (r.pushFrame frame).2 = .raw since buf) ∨
    (0 ≤ frame.dmaFd ∧ r.swEncoder = false ∧
      ∃ e, (r.pushFrame frame).2 = .encode e frame.dmaFd frame.dataSize frame.tsUs) ∨
    (0 ≤ frame.dmaFd ∧ r.swEncoder = true ∧ (r.pushFrame frame).2 = .nullEncoder) := by
  have hguard : (!r.swEncoder && r.hwEncoder.isNone) = false := by
    cases hsw : r.swEncoder
    · simpa [hsw, ← Option.not_isSome] using hencoder
    · rfl
  obtain hfd | hfd := lt_or_ge frame.dmaFd 0
  · left
    simp [pushFrame, hstate, hguard, hfd, happsrc]
  · right
    cases hsw : r.swEncoder with
    | false =>
        left
        obtain ⟨e, he⟩ := Option.isSome_iff_exists.mp (hencoder.trans (by rw [hsw]; rfl))
        refine ⟨hfd, rfl, e, ?_⟩
        simp [pushFrame, hstate, hfd.not_gt, he]
    | true =>
        right
        have hnone : r.hwEncoder = none := by
          simpa [hsw] using hencoder
        refine ⟨hfd, rfl, ?_⟩
        simp [pushFrame, hstate, hsw, hfd.not_gt, hnone]

/-- The pipeline of software mode has the elements and properties of raw NV12. -/
lemma elements_prefix (hsw : r.swEncoder = true) (cfg : ResolutionConfig) (path : Bytes) :
    elements true cfg <+: tokens (r.buildPipelineStr cfg path) := by
  rw [tokens_buildPipelineStr, hsw]
  exact List.prefix_append _ _

/-- **`push_frame` follows the mode** exactly when the recorder does not record, or the frame is of
the kind its mode records: system memory in software mode, a DMA-BUF in hardware mode. -/
theorem followsMode_iff (h : recorderCalls.Reach (fun _ _ => True) r) (frame : FrameView) :
    FollowsMode r (r.pushFrame frame).2 ↔
      (r.state = .recording → (frame.dmaFd < 0 ↔ r.swEncoder = true)) := by
  obtain ⟨hidle, -⟩ | ⟨hrec, happsrc, hpipeline, hencoder⟩ := tidy_of_reach h
  · have hstate : r.state ≠ .recording := by simp [hidle]
    rw [pushFrame_of_not_recording hstate]
    exact ⟨fun _ hr => absurd hr hstate, fun _ => ⟨nofun, nofun, nofun⟩⟩
  · obtain ⟨hfd, since, buf, hpush⟩ | ⟨hfd, hsw, e, hpush⟩ | ⟨hfd, hsw, hpush⟩ :=
      pushFrame_of_recording hrec happsrc hencoder frame
    · -- raw memory: the mode has to be software
      rw [hpush]
      constructor
      · intro hfollows _
        exact iff_of_true hfd (hfollows.raw since buf rfl).1
      · intro hmode
        have hsw : r.swEncoder = true := (hmode hrec).mp hfd
        exact ⟨nofun, fun _ _ _ => ⟨hsw, _, hpipeline, elements_prefix hsw _ _⟩, nofun⟩
    · rw [hpush]
      constructor
      · intro _ _
        exact iff_of_false hfd.not_gt (by simp [hsw])
      · intro _
        exact ⟨nofun, nofun, fun _ _ _ _ _ => hsw⟩
    · -- a DMA-BUF in software mode
      rw [hpush]
      constructor
      · intro hfollows
        exact absurd rfl hfollows.encoder
      · intro hmode
        exact absurd ((hmode hrec).mpr hsw) hfd.not_gt

/-- **`restart` forgets the mode**: a recorder that records after it is in hardware mode. -/
theorem restart_forgets_mode (h : recorderCalls.Reach (fun _ _ => True) r) (reply : BusReply)
    (o : RecorderOutcome) (cfg : ResolutionConfig)
    (hrec : (r.restart reply o cfg).1.state = .recording) :
    (r.restart reply o cfg).1.swEncoder = false := by
  have hstopped : (r.stop reply).recorder.state = .idle := by
    obtain ⟨hidle, -⟩ | ⟨hrec, -, -, -⟩ := tidy_of_reach h
    · simp [stop, hidle]
    · exact stop_state_of_recording reply hrec
  rw [restart] at hrec ⊢
  generalize (r.stop reply).recorder = s at hstopped hrec ⊢
  simp only [start, hstopped, ne_eq, not_true_eq_false, if_false] at hrec ⊢
  cases hdir : o.createDirectories with
  | some e => simp [hdir, hstopped] at hrec
  | none =>
      cases henc : o.hwEncoder with
      | some e => simp [hdir, henc] at hrec
      | none =>
          by_cases hplays : o.Plays
          · obtain ⟨hparse, happsrc, hbus, hplaying⟩ := hplays
            simp [launch, hparse, happsrc, hbus, hplaying]
          · simp [launch_of_not_plays hplays, giveUp, teardownGst]

/-! ### A restart of a software recording -/

/-- Every call underneath succeeds. -/
def allWell : RecorderOutcome := ⟨none, none, .ok, true, true, true, ⟨2025, 3, 9, 7, 30, 5⟩⟩

/-- A recorder started in software mode and restarted. -/
def restarted : Recorder :=
  (((new (ascii "rec")).start allWell (configOf .low) (ascii "a.mp4") true).1.restart .eos allWell
    (configOf .low)).1

lemma restarted_reach : recorderCalls.Reach (fun _ _ => True) restarted :=
  .step (e := .restart .eos allWell (configOf .low))
    (.step (e := .start allWell (configOf .low) (ascii "a.mp4") true)
      (.init ⟨ascii "rec", rfl⟩) trivial rfl) trivial rfl

/-- A frame of the camera's tee: system memory, no descriptor. -/
def teeFrame : FrameView := ⟨[128, 128], 2, 1000000, -1⟩

/-- The route of a DMA-BUF frame there. -/
theorem followsMode_iff_restarted :
    FollowsMode restarted (restarted.pushFrame { teeFrame with dmaFd := 7 }).2 ↔
      (restarted.state = .recording → (({ teeFrame with dmaFd := 7 } : FrameView).dmaFd < 0 ↔
        restarted.swEncoder = true)) :=
  followsMode_iff restarted_reach _

/-- After the restart, raw memory is pushed into a pipeline that expects H.264. -/
theorem raw_after_restart :
    recorderCalls.Reach (fun _ _ => True) restarted ∧
    restarted.state = .recording ∧ restarted.swEncoder = false ∧
    (∃ since buf, (restarted.pushFrame teeFrame).2 = .raw since buf) ∧
    ¬ FollowsMode restarted (restarted.pushFrame teeFrame).2 := by
  have hraw : (restarted.pushFrame teeFrame).2
      = .raw 0 ⟨[128, 128], 0, BitVec.ofNat 64 33333333⟩ := by decide
  refine ⟨restarted_reach, by decide, by decide, ⟨_, _, hraw⟩, fun hfollows => ?_⟩
  exact absurd (hfollows.raw _ _ hraw).1 (by decide)

end Recorder

/-! ### The statements of `push_frame` -/

open Lifecycle in
/-- **The method run alone.**  `Lifecycle.pushStep` crashes where `pushFrame` goes through the null
pointer, and otherwise leaves the recorder that `pushFrame` leaves. -/
theorem pushStep_exec (frame : FrameView) (o : Lifecycle.Choice) (w : RecorderWorld) :
    (execBody (pushStep ⟨frame.dmaFd, frame.tsUs⟩) o 5 .testState w).map (fun x => x.1)
      = if (w.toRecorder.pushFrame frame).2 = .nullEncoder then none
        else some { w with toRecorder := (w.toRecorder.pushFrame frame).1 } := by
  by_cases hstate : w.state = .recording
  · cases hguard : (!w.swEncoder && w.hwEncoder.isNone) with
    | true => simp [execBody, pushStep, Recorder.pushFrame, hstate, hguard]
    | false =>
        by_cases hfd : frame.dmaFd < 0
        · cases happsrc : w.appsrc <;>
            simp [execBody, pushStep, Recorder.pushFrame, hstate, hguard, hfd, happsrc]
        · cases hencoder : w.hwEncoder with
          | none =>
              have hsw : w.swEncoder = true := by simpa [hencoder] using hguard
              simp [execBody, pushStep, Recorder.pushFrame, hstate, hsw, hfd, hencoder]
          | some e => simp [execBody, pushStep, Recorder.pushFrame, hstate, hfd, hencoder]
  · simp [execBody, pushStep, Recorder.pushFrame, hstate]

end RasPiZeroCam
