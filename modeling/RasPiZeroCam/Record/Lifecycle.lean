import RasPiZeroCam.Record.Recorder
import RasPiZeroCam.Transition.Pool
import RasPiZeroCam.Transition.Procedure

/-!
`Recorder`, statement by statement: any number of callers of `start`, `stop`, `restart` and
`push_frame`, and the output callback of the hardware encoder.

* `RecorderWorld`: the members, the mutex, and where the callback is.
* `Lifecycle.startStep`, `Lifecycle.stopStep`, `Lifecycle.pushStep`, `Lifecycle.callbackStep`: the
  methods and the callback.  `startStep_exec`, `stopStep_exec`: run alone, they are `Recorder.start`
  and `Recorder.stop`.
* `IdleIsNull`: an idle recorder has neither a pipeline nor an encoder, and `start` overwrites none.
* `idle_is_null`: it holds along the runs in which the callback takes the state out of RECORDING
  only while `stop` is at work (`ErrorInStop`).
* `error_leaves_pipeline`: an ERROR at another moment leaves an idle recorder with a pipeline.
-/

namespace RasPiZeroCam

open Transition Pool

/-- What `poll_bus` pops. -/
inductive PipelineMessage where
  | error
  | warning
  deriving DecidableEq, Repr

/-- Where the output callback is; it has the time stamp of its buffer. -/
inductive CallbackPc where
  | idle
  | pop (tsUs : ℤ)            -- `gst_bus_pop_filtered`, in `poll_bus`
  | handle (m : Option PipelineMessage) (tsUs : ℤ)
  | stamp (tsUs : ℤ)          -- `first_output_`, `base_ts_us_`
  | push                      -- `gst_app_src_push_buffer`
  deriving DecidableEq

/-- A recorder, its mutex, and what its encoder does. -/
structure RecorderWorld extends Recorder where
  mtx : Bool                  -- `mtx_` is held
  inStop : Bool               -- a `stop` has found the state RECORDING, and has not set it IDLE
  dying : Option HwEncoder    -- the encoder whose destructor runs
  callback : CallbackPc
  crashed : Bool

/-- The arguments of `start`. -/
structure StartArgs where
  cfg : ResolutionConfig
  filename : Bytes
  swEncoder : Bool
  deriving DecidableEq

/-- What `push_frame` reads of a frame. -/
structure PushedFrame where
  dmaFd : ℤ
  tsUs : ℤ
  deriving DecidableEq

namespace Lifecycle

/-- What the calls underneath a step answer. -/
structure Choice where
  outcome : RecorderOutcome
  reply : BusReply

/-! ### `start` -/

/-- The program points of `start`, with `mtx_` held. -/
inductive StartPc where
  | test                -- `if (state_ != IDLE) return false`
  | createDirectories
  | setMembers          -- `cfg_` to `base_ts_us_`
  | makeEncoder         -- `hw_encoder_ = std::make_unique<H264HardwareEncoder>(..)`
  | joinOld             -- the destructor of the encoder that it replaced
  | parse               -- `pipeline_ = gst_parse_launch(..)`
  | getElements         -- `appsrc_`, `bus_`
  | setPlaying
  | wire                -- the callbacks of the encoder
  | setRecording        -- `state_ = RECORDING`
  | takeEncoder         -- `hw_encoder_.reset()` of a branch that gives up
  | joinEncoder         -- the destructor it runs
  | teardown            -- `teardown_gst(); return false`
  deriving DecidableEq, Repr

/-- `start(cfg, filename, sw_encoder)`, under the lock.  A destructor of an encoder returns when the
callback has. -/
def startStep (a : StartArgs) : Body RecorderWorld Choice StartPc (Except Exception Bool)
  | _, .test, w => some (w, if w.state ≠ .idle then .ret (.ok false) else .goto .createDirectories)
  | o, .createDirectories, w =>
      some (w, match o.outcome.createDirectories with
        | some e => .ret (.error e)
        | none => .goto .setMembers)
  | o, .setMembers, w =>
      some ({ w with
        cfg := a.cfg
        swEncoder := a.swEncoder
        currentFile :=
          if a.filename = [] then w.nextFilename o.outcome.localtime else a.filename
        firstOutput := true
        baseTsUs := 0 }, .goto (if a.swEncoder then .parse else .makeEncoder))
  | o, .makeEncoder, w =>
      match o.outcome.hwEncoder with
      | some _ => some (w, .ret (.ok false))
      | none =>
          some ({ w with
            hwEncoder := some ⟨w.cfg, (w.cfg.bitrateKbps * 1000).toNat, false, false⟩
            dying := w.hwEncoder }, .goto .joinOld)
  | _, .joinOld, w =>
      if w.callback = .idle then some ({ w with dying := none }, .goto .parse) else none
  | o, .parse, w =>
      let str := w.buildPipelineStr w.cfg w.currentFile
      match o.outcome.parse with
      | .null => some ({ w with pipeline := none }, .goto .takeEncoder)
      | .withError => some ({ w with pipeline := some str }, .goto .takeEncoder)
      | .ok => some ({ w with pipeline := some str }, .goto .getElements)
  | o, .getElements, w =>
      some ({ w with
        appsrc := o.outcome.appsrc
        bus := o.outcome.bus },
        .goto (if !o.outcome.appsrc || !o.outcome.bus then .takeEncoder else .setPlaying))
  | o, .setPlaying, w => some (w, .goto (if !o.outcome.playing then .takeEncoder else .wire))
  | _, .wire, w =>
      let wired (e : HwEncoder) : HwEncoder :=
        { e with
          outputReadyCallback := true
          inputDoneCallback := true }
      some ({ w with hwEncoder := if w.swEncoder then w.hwEncoder else w.hwEncoder.map wired },
        .goto .setRecording)
  | _, .setRecording, w => some ({ w with state := .recording }, .ret (.ok true))
  | _, .takeEncoder, w =>
      some ({ w with
        hwEncoder := none
        dying := w.hwEncoder }, .goto .joinEncoder)
  | _, .joinEncoder, w =>
      if w.callback = .idle then some ({ w with dying := none }, .goto .teardown) else none
  | _, .teardown, w => some ({ w with toRecorder := w.teardownGst }, .ret (.ok false))

/-! ### `stop` -/

/-- The program points of `stop`, with `mtx_` held. -/
inductive StopPc where
  | test                -- `if (state_ != RECORDING) return false`
  | setStopping         -- `state_ = STOPPING`
  | takeEncoder         -- `hw_encoder_.reset()`
  | joinEncoder         -- the destructor it runs
  | waitEos             -- end of stream, and the wait for the muxer on the bus
  | teardown            -- `teardown_gst()`
  | setIdle             -- `state_ = IDLE`
  deriving DecidableEq, Repr

/-- `stop()`, under the lock; its result, and what it popped from the bus. -/
def stopStep : Body RecorderWorld Choice StopPc Bool
  | _, .test, w =>
      if w.state ≠ .recording then some (w, .ret false)
      else some ({ w with inStop := true }, .goto .setStopping)
  | _, .setStopping, w => some ({ w with state := .stopping }, .goto .takeEncoder)
  | _, .takeEncoder, w =>
      some ({ w with
        hwEncoder := none
        dying := w.hwEncoder }, .goto .joinEncoder)
  | _, .joinEncoder, w =>
      if w.callback = .idle then some ({ w with dying := none }, .goto .waitEos) else none
  | _, .waitEos, w => some (w, .goto .teardown)
  | _, .teardown, w => some ({ w with toRecorder := w.teardownGst }, .goto .setIdle)
  | _, .setIdle, w =>
      some ({ w with
        state := .idle
        inStop := false }, .ret true)

/-! ### `push_frame` -/

/-- The program points of `push_frame`. -/
inductive PushPc where
  | testState           -- `if (state_ != RECORDING) return false`
  | testEncoder         -- `if (!sw_encoder_ && !hw_encoder_) return false`
  | testAppsrc          -- `if (!appsrc_) return false`
  | stamp               -- `first_output_`, `base_ts_us_`
  | push                -- `gst_app_src_push_buffer`
  | encode              -- `hw_encoder_->encode(..)`
  deriving DecidableEq, Repr

/-- `push_frame(frame)`; its result is left open where a call outside decides it. -/
def pushStep (frame : PushedFrame) : Body RecorderWorld Choice PushPc (Option Bool)
  | _, .testState, w =>
      some (w, if w.state ≠ .recording then .ret (some false) else .goto .testEncoder)
  | _, .testEncoder, w =>
      some (w, if !w.swEncoder && w.hwEncoder.isNone then .ret (some false)
        else .goto (if frame.dmaFd < 0 then .testAppsrc else .encode))
  | _, .testAppsrc, w => some (w, if !w.appsrc then .ret (some false) else .goto .stamp)
  | _, .stamp, w =>
      some ({ w with
        baseTsUs := if w.firstOutput then frame.tsUs else w.baseTsUs
        firstOutput := false }, .goto .push)
  | _, .push, w => some (w, .ret none)
  | _, .encode, w => some (w, if w.hwEncoder.isNone then .crash else .ret none)

/-! ### The output callback -/

/-- The encoder, also while its destructor runs, has an output callback. -/
def wired (w : RecorderWorld) : Bool :=
  w.hwEncoder.any (·.outputReadyCallback) || w.dying.any (·.outputReadyCallback)

/-- What the output thread of the encoder does next. -/
inductive CallbackEvent where
  | call (tsUs : ℤ)                    -- an encoded buffer is there
  | pop (m : Option PipelineMessage)
  | go

/-- A step of the output callback. -/
def callbackStep (e : CallbackEvent) (w : RecorderWorld) : Option RecorderWorld :=
  match w.callback, e with
  | .idle, .call tsUs => if wired w then some { w with callback := .pop tsUs } else none
  | .pop tsUs, .pop m =>
      -- `if (!bus_) return`
      some { w with callback := .handle (if w.bus then m else none) tsUs }
  | .handle m tsUs, .go =>
      some { w with
        state := if m = some .error then .idle else w.state
        callback := .stamp tsUs }
  | .stamp tsUs, .go =>
      some { w with
        baseTsUs := if w.firstOutput then tsUs else w.baseTsUs
        firstOutput := false
        callback := .push }
  | .push, .go => some { w with callback := .idle }
  | _, _ => none

/-! ### The callers -/

/-- A call on the recorder. -/
inductive Call where
  | start (a : StartArgs)
  | stop
  | restart (cfg : ResolutionConfig)
  | pushFrame (frame : PushedFrame)

/-- Where a caller is; `next` is what a `restart` starts after its `stop`. -/
inductive Pc where
  | idle
  | lockStart (a : StartArgs)
  | start (a : StartArgs) (p : StartPc)
  | lockStop (next : Option StartArgs)
  | stop (next : Option StartArgs) (p : StopPc)
  | unlock (next : Option StartArgs)
  | push (frame : PushedFrame) (p : PushPc)
  deriving DecidableEq

/-- Where a call begins. -/
def Call.begin : Call → Pc
  | .start a => .lockStart a
  | .stop => .lockStop none
  | .restart cfg => .lockStop (some ⟨cfg, [], false⟩)
  | .pushFrame frame => .push frame .testState

/-- A step of a method, taken by a caller that is at `into p` while the method is at `p`, and goes
to `k` when it returns. -/
def inCall {π ρ : Type} (body : Body RecorderWorld Choice π ρ) (into : π → Pc) (k : Pc) (o : Choice)
    (p : π) (w : RecorderWorld) : Option (RecorderWorld × Pc) :=
  (body o p w).map fun r =>
    match r.2 with
    | .goto p' => (r.1, into p')
    | .ret _ => (r.1, k)
    | .crash => ({ w with crashed := true }, into p)

/-- A step of a caller, which picks the call it makes next. -/
def program (a : Call × Choice) : Pc → RecorderWorld → Option (RecorderWorld × Pc)
  | .idle, w => some (w, a.1.begin)
  | .lockStart b, w => if w.mtx then none else some ({ w with mtx := true }, .start b .test)
  | .start b p, w => inCall (startStep b) (.start b) (.unlock none) a.2 p w
  | .lockStop next, w => if w.mtx then none else some ({ w with mtx := true }, .stop next .test)
  | .stop next p, w => inCall stopStep (.stop next) (.unlock next) a.2 p w
  | .unlock next, w => some ({ w with mtx := false }, next.elim .idle .lockStart)
  | .push frame p, w => inCall (pushStep frame) (.push frame) .idle a.2 p w

/-- A step of a caller, while the process lives. -/
def act (a : Call × Choice) (p : Pc) (w : RecorderWorld) : Option (RecorderWorld × Pc) :=
  if w.crashed then none else program a p w

/-- A step of the callback, while the process lives. -/
def env (e : CallbackEvent) (w : RecorderWorld) : Option RecorderWorld :=
  if w.crashed then none else callbackStep e w

/-- A fresh recorder. -/
def fresh (recordingsDir : Bytes) : RecorderWorld where
  toRecorder := .new recordingsDir
  mtx := false
  inStop := false
  dying := none
  callback := .idle
  crashed := false

end Lifecycle

open Lifecycle

/-- The callers of a recorder, from a fresh object, and the callback of its encoder. -/
def lifecycle : Pool RecorderWorld Lifecycle.Pc (Call × Lifecycle.Choice) CallbackEvent where
  init w := ∃ dir, w = fresh dir
  start := .idle
  act := Lifecycle.act
  env := Lifecycle.env

/-- **An idle recorder is null**: when no call is in progress and the state is IDLE, there is
neither a pipeline nor an encoder; and `start` overwrites none. -/
structure IdleIsNull {ι : Type*} (s : Config ι RecorderWorld Lifecycle.Pc) : Prop where
  idle : (∀ c, s.pc c = .idle) → s.shared.state = .idle →
    s.shared.pipeline = none ∧ s.shared.appsrc = false ∧ s.shared.bus = false ∧
      s.shared.hwEncoder = none
  encoder : ∀ c a, s.pc c = .start a .makeEncoder → s.shared.hwEncoder = none
  pipeline : ∀ c a, s.pc c = .start a .parse →
    s.shared.pipeline = none ∧ s.shared.appsrc = false ∧ s.shared.bus = false

/-- `poll_bus` takes the state from RECORDING to IDLE only while a `stop` that has found it
RECORDING is at work. -/
def ErrorInStop {ι : Type*} (s : Config ι RecorderWorld Lifecycle.Pc) :
    Event ι (Call × Lifecycle.Choice) CallbackEvent → Prop
  | .run _ _ => True
  | .env _ => ∀ tsUs, s.shared.callback = .handle (some .error) tsUs →
      s.shared.state = .recording → s.shared.inStop = true

namespace Lifecycle

variable {w w' : RecorderWorld}

/-! ### The region of the mutex -/

/-- Nothing is there: no pipeline, no encoder, and no callback. -/
structure Null (w : RecorderWorld) : Prop where
  pipeline : w.pipeline = none
  appsrc : w.appsrc = false
  bus : w.bus = false
  hwEncoder : w.hwEncoder = none
  dying : w.dying = none
  callback : w.callback = .idle

/-- The encoder has been destroyed. -/
structure NoEncoder (w : RecorderWorld) : Prop where
  hwEncoder : w.hwEncoder = none
  dying : w.dying = none
  callback : w.callback = .idle

/-- Between the calls: idle and null, or recording. -/
def Rest (w : RecorderWorld) : Prop := (w.state = .idle ∧ Null w) ∨ w.state = .recording

/-- The assertions of `start`. -/
def StartA : StartPc → RecorderWorld → Prop
  | .test, w => Rest w
  | .createDirectories, w => w.state = .idle ∧ Null w
  | .setMembers, w => w.state = .idle ∧ Null w
  | .makeEncoder, w => w.state = .idle ∧ Null w
  | .joinOld, w => w.state = .idle ∧ w.pipeline = none ∧ w.appsrc = false ∧ w.bus = false
  | .parse, w => w.state = .idle ∧ w.pipeline = none ∧ w.appsrc = false ∧ w.bus = false
  | .joinEncoder, w => w.state = .idle ∧ w.hwEncoder = none
  | .teardown, w => w.state = .idle ∧ NoEncoder w
  | _, w => w.state = .idle

/-- The assertions of `stop`. -/
def StopA : StopPc → RecorderWorld → Prop
  | .test, w => w.inStop = false ∧ Rest w
  | .setStopping, w => w.inStop = true
  | .takeEncoder, w => w.inStop = true
  | .joinEncoder, w => w.inStop = true ∧ w.hwEncoder = none
  | .waitEos, w => w.inStop = true ∧ NoEncoder w
  | .teardown, w => w.inStop = true ∧ NoEncoder w
  | .setIdle, w => w.inStop = true ∧ Null w

/-- The region of the callers that hold `mtx_`. -/
def held : Pool.Region RecorderWorld Pc where
  In
    | .start _ _ => True
    | .stop _ _ => True
    | .unlock _ => True
    | _ => False
  A
    | .start _ p, w => w.mtx = true ∧ w.inStop = false ∧ StartA p w
    | .stop _ p, w => w.mtx = true ∧ StopA p w
    | .unlock _, w => w.mtx = true ∧ w.inStop = false ∧ Rest w
    | _, _ => True
  Q w := w.mtx = false ∧ w.inStop = false ∧ Rest w

lemma inCall_cases {π ρ : Type} {body : Body RecorderWorld Choice π ρ} {into : π → Pc} {k : Pc}
    {o : Choice} {p : π} {q : Pc} (h : inCall body into k o p w = some (w', q)) :
    (∃ p', body o p w = some (w', .goto p') ∧ q = into p') ∨
      (∃ r, body o p w = some (w', .ret r) ∧ q = k) ∨
      (w' = { w with crashed := true } ∧ q = into p) := by
  obtain hgoto | hret | hcrash :=
    land_cases (fun _ _ => rfl) (fun _ _ => rfl) (fun _ => rfl) h
  · exact Or.inl hgoto
  · exact Or.inr (Or.inl hret)
  · exact Or.inr (Or.inr (Prod.mk.inj hcrash))

/-- The outline of `start`. -/
lemma startStep_outline (a : StartArgs) :
    Outline False (startStep a) (fun _ _ => True)
      (fun p w => w.mtx = true ∧ w.inStop = false ∧ StartA p w)
      fun _ w => w.mtx = true ∧ w.inStop = false ∧ Rest w := by
  rintro o p w w' n - ⟨hmtx, hstop, hA⟩ hstep
  cases p with
  | test =>
      cases hstep
      split_ifs with hstate
      · exact ⟨hmtx, hstop, hA⟩
      · refine ⟨hmtx, hstop, ?_⟩
        obtain hidle | hrec := hA
        · exact hidle
        · exact absurd (by rw [hrec]; decide) hstate
  | createDirectories =>
      cases hstep
      cases o.outcome.createDirectories with
      | some e => exact ⟨hmtx, hstop, Or.inl hA⟩
      | none => exact ⟨hmtx, hstop, hA⟩
  | setMembers =>
      cases hstep
      obtain ⟨hidle, hnull⟩ := hA
      obtain ⟨cfg, filename, swEncoder⟩ := a
      cases swEncoder
      · exact ⟨hmtx, hstop, hidle, ⟨hnull.pipeline, hnull.appsrc, hnull.bus, hnull.hwEncoder,
          hnull.dying, hnull.callback⟩⟩
      · exact ⟨hmtx, hstop, hidle, hnull.pipeline, hnull.appsrc, hnull.bus⟩
  | makeEncoder =>
      obtain ⟨hidle, hnull⟩ := hA
      cases henc : o.outcome.hwEncoder with
      | some e =>
          simp only [startStep, henc] at hstep
          cases hstep
          exact ⟨hmtx, hstop, Or.inl ⟨hidle, hnull⟩⟩
      | none =>
          simp only [startStep, henc] at hstep
          cases hstep
          exact ⟨hmtx, hstop, hidle, hnull.pipeline, hnull.appsrc, hnull.bus⟩
  | joinOld =>
      simp only [startStep] at hstep
      split_ifs at hstep
      cases hstep
      exact ⟨hmtx, hstop, hA⟩
  | parse =>
      cases hparse : o.outcome.parse <;> simp only [startStep, hparse] at hstep <;> cases hstep <;>
        exact ⟨hmtx, hstop, hA.1⟩
  | getElements =>
      cases hstep
      split_ifs <;> exact ⟨hmtx, hstop, hA⟩
  | setPlaying =>
      cases hstep
      split_ifs <;> exact ⟨hmtx, hstop, hA⟩
  | wire =>
      cases hstep
      exact ⟨hmtx, hstop, hA⟩
  | setRecording =>
      cases hstep
      exact ⟨hmtx, hstop, Or.inr rfl⟩
  | takeEncoder =>
      cases hstep
      exact ⟨hmtx, hstop, hA, rfl⟩
  | joinEncoder =>
      simp only [startStep] at hstep
      split_ifs at hstep with hcallback
      cases hstep
      exact ⟨hmtx, hstop, hA.1, hA.2, rfl, hcallback⟩
  | teardown =>
      cases hstep
      obtain ⟨hidle, hnone⟩ := hA
      exact ⟨hmtx, hstop, Or.inl ⟨hidle, rfl, rfl, rfl, hnone.hwEncoder, hnone.dying,
        hnone.callback⟩⟩

/-- The outline of `stop`. -/
lemma stopStep_outline :
    Outline False stopStep (fun _ _ => True) (fun p w => w.mtx = true ∧ StopA p w)
      fun _ w => w.mtx = true ∧ w.inStop = false ∧ Rest w := by
  rintro o p w w' n - ⟨hmtx, hA⟩ hstep
  cases p with
  | test =>
      simp only [stopStep] at hstep
      split_ifs at hstep
      · cases hstep
        exact ⟨hmtx, hA⟩
      · cases hstep
        exact ⟨hmtx, rfl⟩
  | setStopping =>
      cases hstep
      exact ⟨hmtx, hA⟩
  | takeEncoder =>
      cases hstep
      exact ⟨hmtx, hA, rfl⟩
  | joinEncoder =>
      simp only [stopStep] at hstep
      split_ifs at hstep with hcallback
      cases hstep
      exact ⟨hmtx, hA.1, hA.2, rfl, hcallback⟩
  | waitEos =>
      cases hstep
      exact ⟨hmtx, hA⟩
  | teardown =>
      cases hstep
      obtain ⟨hstop, hnone⟩ := hA
      exact ⟨hmtx, hstop, rfl, rfl, rfl, hnone.hwEncoder, hnone.dying, hnone.callback⟩
  | setIdle =>
      cases hstep
      obtain ⟨-, hnull⟩ := hA
      exact ⟨hmtx, rfl, Or.inl ⟨rfl, hnull.pipeline, hnull.appsrc, hnull.bus, hnull.hwEncoder,
        hnull.dying, hnull.callback⟩⟩

/-- The mutex is another matter. -/
lemma Rest.setMtx (h : Rest w) (b : Bool) : Rest { w with mtx := b } :=
  h.imp (fun ⟨hidle, hnull⟩ => ⟨hidle, hnull.pipeline, hnull.appsrc, hnull.bus, hnull.hwEncoder,
    hnull.dying, hnull.callback⟩) id

lemma Null.noEncoder (h : Null w) : NoEncoder w := ⟨h.hwEncoder, h.dying, h.callback⟩

/-- What a step outside the region does: it touches the state only to make it IDLE, from RECORDING
only while a `stop` is at work, and nothing of this while there is no encoder. -/
structure Besides (w w' : RecorderWorld) : Prop where
  mtx : w'.mtx = w.mtx
  inStop : w'.inStop = w.inStop
  pipeline : w'.pipeline = w.pipeline
  appsrc : w'.appsrc = w.appsrc
  bus : w'.bus = w.bus
  hwEncoder : w'.hwEncoder = w.hwEncoder
  dying : w'.dying = w.dying
  callback : NoEncoder w → w'.callback = w.callback
  state : w'.state = w.state ∨
    (w'.state = .idle ∧ (w.state = .recording → w.inStop = true))

namespace Besides

lemma idle (h : Besides w w') (hidle : w.state = .idle) : w'.state = .idle := by
  obtain hsame | ⟨hset, -⟩ := h.state
  · rw [hsame, hidle]
  · exact hset

lemma noEncoder (h : Besides w w') (hnone : NoEncoder w) : NoEncoder w' :=
  ⟨h.hwEncoder.trans hnone.hwEncoder, h.dying.trans hnone.dying,
    (h.callback hnone).trans hnone.callback⟩

lemma null (h : Besides w w') (hnull : Null w) : Null w' :=
  ⟨h.pipeline.trans hnull.pipeline, h.appsrc.trans hnull.appsrc, h.bus.trans hnull.bus,
    h.hwEncoder.trans hnull.hwEncoder, h.dying.trans hnull.dying,
    (h.callback hnull.noEncoder).trans hnull.callback⟩

lemma rest (h : Besides w w') (hrest : Rest w) (hstop : w.inStop = false) : Rest w' := by
  obtain ⟨hidle, hnull⟩ | hrec := hrest
  · exact Or.inl ⟨h.idle hidle, h.null hnull⟩
  · obtain hsame | ⟨-, hin⟩ := h.state
    · exact Or.inr (hsame.trans hrec)
    · rw [hin hrec] at hstop
      cases hstop

lemma startA (h : Besides w w') {p : StartPc} (hA : StartA p w) (hstop : w.inStop = false) :
    StartA p w' := by
  cases p with
  | test => exact h.rest hA hstop
  | createDirectories => exact ⟨h.idle hA.1, h.null hA.2⟩
  | setMembers => exact ⟨h.idle hA.1, h.null hA.2⟩
  | makeEncoder => exact ⟨h.idle hA.1, h.null hA.2⟩
  | joinOld =>
      exact ⟨h.idle hA.1, h.pipeline.trans hA.2.1, h.appsrc.trans hA.2.2.1, h.bus.trans hA.2.2.2⟩
  | parse =>
      exact ⟨h.idle hA.1, h.pipeline.trans hA.2.1, h.appsrc.trans hA.2.2.1, h.bus.trans hA.2.2.2⟩
  | joinEncoder => exact ⟨h.idle hA.1, h.hwEncoder.trans hA.2⟩
  | teardown => exact ⟨h.idle hA.1, h.noEncoder hA.2⟩
  | getElements => exact h.idle hA
  | setPlaying => exact h.idle hA
  | wire => exact h.idle hA
  | setRecording => exact h.idle hA
  | takeEncoder => exact h.idle hA

lemma stopA (h : Besides w w') {p : StopPc} (hA : StopA p w) : StopA p w' := by
  cases p with
  | test => exact ⟨h.inStop.trans hA.1, h.rest hA.2 hA.1⟩
  | setStopping => exact h.inStop.trans hA
  | takeEncoder => exact h.inStop.trans hA
  | joinEncoder => exact ⟨h.inStop.trans hA.1, h.hwEncoder.trans hA.2⟩
  | waitEos => exact ⟨h.inStop.trans hA.1, h.noEncoder hA.2⟩
  | teardown => exact ⟨h.inStop.trans hA.1, h.noEncoder hA.2⟩
  | setIdle => exact ⟨h.inStop.trans hA.1, h.null hA.2⟩

/-- Such a step keeps what the region asserts. -/
lemma keeps (h : Besides w w') :
    (held.Q w → held.Q w') ∧ ∀ q, held.In q → held.A q w → held.A q w' := by
  refine ⟨fun ⟨hmtx, hstop, hrest⟩ =>
    ⟨h.mtx.trans hmtx, h.inStop.trans hstop, h.rest hrest hstop⟩, fun q hq hA => ?_⟩
  cases q with
  | start a p => exact ⟨h.mtx.trans hA.1, h.inStop.trans hA.2.1, h.startA hA.2.2 hA.2.1⟩
  | stop next p => exact ⟨h.mtx.trans hA.1, h.stopA hA.2⟩
  | unlock next =>
      exact ⟨h.mtx.trans hA.1, h.inStop.trans hA.2.1, h.rest hA.2.2 hA.2.1⟩
  | idle => exact hq.elim
  | lockStart a => exact hq.elim
  | lockStop next => exact hq.elim
  | push frame p => exact hq.elim

end Besides

lemma callbackStep_besides {e : CallbackEvent} (h : callbackStep e w = some w')
    (hC : ∀ tsUs, w.callback = .handle (some .error) tsUs → w.state = .recording →
      w.inStop = true) : Besides w w' := by
  have hbusy : ∀ {pc : CallbackPc}, w.callback = pc → pc ≠ .idle → ¬ NoEncoder w :=
    fun hpc hne hnone => hne (hpc.symm.trans hnone.callback)
  simp only [callbackStep] at h
  split at h
  · next tsUs _ =>
    split_ifs at h with hwired
    cases h
    refine ⟨rfl, rfl, rfl, rfl, rfl, rfl, rfl, fun hnone => ?_, Or.inl rfl⟩
    simp [wired, hnone.hwEncoder, hnone.dying] at hwired
  · next tsUs m hpc =>
    cases h
    exact ⟨rfl, rfl, rfl, rfl, rfl, rfl, rfl,
      fun hnone => absurd hnone (hbusy hpc CallbackPc.noConfusion), Or.inl rfl⟩
  · next m tsUs hpc =>
    cases h
    refine ⟨rfl, rfl, rfl, rfl, rfl, rfl, rfl,
      fun hnone => absurd hnone (hbusy hpc CallbackPc.noConfusion), ?_⟩
    by_cases hm : m = some .error
    · exact Or.inr ⟨if_pos hm, hC tsUs (hm ▸ hpc)⟩
    · exact Or.inl (if_neg hm)
  · next tsUs hpc =>
    cases h
    exact ⟨rfl, rfl, rfl, rfl, rfl, rfl, rfl,
      fun hnone => absurd hnone (hbusy hpc CallbackPc.noConfusion), Or.inl rfl⟩
  · next hpc =>
    cases h
    exact ⟨rfl, rfl, rfl, rfl, rfl, rfl, rfl,
      fun hnone => absurd hnone (hbusy hpc CallbackPc.noConfusion), Or.inl rfl⟩
  · cases h

/-- What a `push_frame` changes is besides the region. -/
lemma pushStep_besides {frame : PushedFrame} {o : Choice} {p : PushPc}
    {n : Next PushPc (Option Bool)} (h : pushStep frame o p w = some (w', n)) : Besides w w' := by
  cases p <;> cases h <;>
    exact ⟨rfl, rfl, rfl, rfl, rfl, rfl, rfl, fun _ => rfl, Or.inl rfl⟩

lemma besides_crashed (w : RecorderWorld) : Besides w { w with crashed := true } :=
  ⟨rfl, rfl, rfl, rfl, rfl, rfl, rfl, fun _ => rfl, Or.inl rfl⟩

lemma program_of_act {a : Call × Choice} {p q : Pc} (h : act a p w = some (w', q)) :
    program a p w = some (w', q) := by
  rw [act] at h
  split_ifs at h
  exact h

/-- A caller in the region keeps its assertion, or leaves. -/
lemma program_within {a : Call × Choice} {p q : Pc} (h : program a p w = some (w', q))
    (hin : held.In p) (hA : held.A p w) :
    (held.In q → held.A q w') ∧ (¬ held.In q → held.Q w') := by
  cases p with
  | start b p =>
      obtain ⟨p', hbody, rfl⟩ | ⟨r, hbody, rfl⟩ | ⟨rfl, rfl⟩ := inCall_cases h
      · exact ⟨fun _ => startStep_outline b _ _ _ _ _ trivial hA hbody,
          fun hout => absurd trivial hout⟩
      · exact ⟨fun _ => startStep_outline b _ _ _ _ _ trivial hA hbody,
          fun hout => absurd trivial hout⟩
      · exact ⟨fun _ => (besides_crashed w).keeps.2 _ trivial hA, fun hout => absurd trivial hout⟩
  | stop next p =>
      obtain ⟨p', hbody, rfl⟩ | ⟨r, hbody, rfl⟩ | ⟨rfl, rfl⟩ := inCall_cases h
      · exact ⟨fun _ => stopStep_outline _ _ _ _ _ trivial hA hbody,
          fun hout => absurd trivial hout⟩
      · exact ⟨fun _ => stopStep_outline _ _ _ _ _ trivial hA hbody,
          fun hout => absurd trivial hout⟩
      · exact ⟨fun _ => (besides_crashed w).keeps.2 _ trivial hA, fun hout => absurd trivial hout⟩
  | unlock next =>
      cases h
      cases next with
      | none => exact ⟨fun hin => hin.elim, fun _ => ⟨rfl, hA.2.1, hA.2.2.setMtx false⟩⟩
      | some b => exact ⟨fun hin => hin.elim, fun _ => ⟨rfl, hA.2.1, hA.2.2.setMtx false⟩⟩
  | idle => exact hin.elim
  | lockStart b => exact hin.elim
  | lockStop next => exact hin.elim
  | push frame p => exact hin.elim

/-- A caller outside the region takes the mutex, or does nothing that concerns the region. -/
lemma program_outside {a : Call × Choice} {p q : Pc} (h : program a p w = some (w', q))
    (hout : ¬ held.In p) :
    (held.In q ∧ w.mtx = false ∧ (held.Q w → held.A q w')) ∨ (¬ held.In q ∧ Besides w w') := by
  cases p with
  | idle =>
      cases h
      refine Or.inr ⟨?_, ⟨rfl, rfl, rfl, rfl, rfl, rfl, rfl, fun _ => rfl, Or.inl rfl⟩⟩
      cases a.1 <;> exact id
  | lockStart b =>
      simp only [program] at h
      split_ifs at h with hmtx
      cases h
      exact Or.inl ⟨trivial, by simpa using hmtx,
        fun hQ => ⟨rfl, hQ.2.1, hQ.2.2.setMtx true⟩⟩
  | lockStop next =>
      simp only [program] at h
      split_ifs at h with hmtx
      cases h
      exact Or.inl ⟨trivial, by simpa using hmtx,
        fun hQ => ⟨rfl, hQ.2.1, hQ.2.2.setMtx true⟩⟩
  | push frame p =>
      obtain ⟨p', hbody, rfl⟩ | ⟨r, hbody, rfl⟩ | ⟨rfl, rfl⟩ := inCall_cases h
      · exact Or.inr ⟨id, pushStep_besides hbody⟩
      · exact Or.inr ⟨id, pushStep_besides hbody⟩
      · exact Or.inr ⟨id, besides_crashed w⟩
  | start b p => exact absurd trivial hout
  | stop next p => exact absurd trivial hout
  | unlock next => exact absurd trivial hout

variable {ι : Type*} [DecidableEq ι]

lemma held_mtx {p : Pc} (hin : held.In p) (hA : held.A p w) : w.mtx = true := by
  cases p with
  | start b p => exact hA.1
  | stop next p => exact hA.1
  | unlock next => exact hA.1
  | idle => exact hin.elim
  | lockStart b => exact hin.elim
  | lockStop next => exact hin.elim
  | push frame p => exact hin.elim

/-- The mutex guards the region, as long as ERRORs come in `stop`. -/
lemma held_guarded : held.Guarded lifecycle ι ErrorInStop where
  init := by
    rintro w ⟨dir, rfl⟩
    exact ⟨rfl, rfl, Or.inl ⟨rfl, rfl, rfl, rfl, rfl, rfl, rfl⟩⟩
  start := id
  enter := by
    intro s c a w p _ _ hheld hact hout hin
    obtain ⟨-, hmtx, hA⟩ | ⟨hnot, -⟩ := program_outside (program_of_act hact) hout
    · refine ⟨fun d hd => ?_, hA⟩
      rw [held_mtx hd (hheld.inside d hd)] at hmtx
      cases hmtx
    · exact absurd hin hnot
  within := fun _ _ hact hin hA => program_within (program_of_act hact) hin hA
  outside := by
    intro s c a w p _ _ hact hout hout'
    obtain ⟨hin, -⟩ | ⟨-, hbesides⟩ := program_outside (program_of_act hact) hout
    · exact absurd hin hout'
    · exact hbesides.keeps
  env := by
    intro s e w _ hC henv
    have hstep : callbackStep e s.shared = some w := by
      simp only [lifecycle, env] at henv
      split_ifs at henv
      exact henv
    exact (callbackStep_besides hstep hC).keeps

/-! ### Calls run alone -/

/-- The second half of `start`, run alone, is `Recorder.launch`. -/
lemma launch_exec (a : StartArgs) (o : Choice) (w : RecorderWorld) (hcallback : w.callback = .idle)
    (n : ℕ) :
    ∃ w', execBody (startStep a) o (n + 7) .parse w =
        some (w', .ok (w.toRecorder.launch o.outcome).2) ∧
      w'.toRecorder = (w.toRecorder.launch o.outcome).1 := by
  cases hparse : o.outcome.parse with
  | null =>
      refine ⟨_, by simp [execBody, startStep, hparse, hcallback, Recorder.launch]; rfl, ?_⟩
      simp [Recorder.launch, hparse, Recorder.giveUp]
  | withError =>
      refine ⟨_, by simp [execBody, startStep, hparse, hcallback, Recorder.launch]; rfl, ?_⟩
      simp [Recorder.launch, hparse, Recorder.giveUp]
  | ok =>
      cases helements : !o.outcome.appsrc || !o.outcome.bus with
      | true =>
          refine ⟨_, by simp only [execBody, startStep, hparse, hcallback, Recorder.launch,
            helements, if_true]; rfl, ?_⟩
          simp only [Recorder.launch, hparse, helements, if_true]
          rfl
      | false =>
          cases hplaying : o.outcome.playing with
          | false =>
              refine ⟨_, by simp only [execBody, startStep, hparse, hcallback, Recorder.launch,
                helements, hplaying, Bool.not_false, if_true, Bool.false_eq_true, if_false]; rfl,
                ?_⟩
              simp only [Recorder.launch, hparse, helements, hplaying, Bool.not_false, if_true,
                Bool.false_eq_true, if_false]
              rfl
          | true =>
              refine ⟨_, by simp only [execBody, startStep, hparse, Recorder.launch,
                helements, hplaying, Bool.not_true, Bool.false_eq_true, if_false]; rfl, ?_⟩
              simp only [Recorder.launch, hparse, helements, hplaying, Bool.not_true,
                Bool.false_eq_true, if_false]

/-- `start`, run alone, is `Recorder.start`. -/
theorem startStep_exec (a : StartArgs) (o : Choice) (w : RecorderWorld)
    (hcallback : w.callback = .idle) :
    ∃ w', execBody (startStep a) o 12 .test w =
        some (w', (w.toRecorder.start o.outcome a.cfg a.filename a.swEncoder).2) ∧
      w'.toRecorder = (w.toRecorder.start o.outcome a.cfg a.filename a.swEncoder).1 := by
  by_cases hstate : w.state = .idle
  · have htest : startStep a o .test w = some (w, .goto .createDirectories) := by
      simp [startStep, hstate]
    cases hdir : o.outcome.createDirectories with
    | some e => exact ⟨w, by simp [execBody, startStep, Recorder.start, hstate, hdir]⟩
    | none =>
        have hdirs : startStep a o .createDirectories w = some (w, .goto .setMembers) := by
          simp [startStep, hdir]
        -- the members as `start` sets them
        let r : Recorder := { w.toRecorder with
          cfg := a.cfg
          swEncoder := a.swEncoder
          currentFile :=
            if a.filename = [] then w.nextFilename o.outcome.localtime else a.filename
          firstOutput := true
          baseTsUs := 0 }
        have hmembers : startStep a o .setMembers w = some ({ w with toRecorder := r },
            .goto (if a.swEncoder then .parse else .makeEncoder)) := rfl
        rw [execBody_goto htest, execBody_goto hdirs, execBody_goto hmembers]
        cases hsw : a.swEncoder with
        | true =>
            have hstart : w.toRecorder.start o.outcome a.cfg a.filename true =
                ((r.launch o.outcome).1, .ok (r.launch o.outcome).2) := by
              simp [Recorder.start, hstate, hdir, r, hsw]
            rw [hstart]
            exact launch_exec a o { w with toRecorder := r } hcallback 2
        | false =>
            cases henc : o.outcome.hwEncoder with
            | some e =>
                have hmake : startStep a o .makeEncoder { w with toRecorder := r } =
                    some ({ w with toRecorder := r }, .ret (.ok false)) := by
                  simp only [startStep, henc]
                have hstart : w.toRecorder.start o.outcome a.cfg a.filename false =
                    (r, .ok false) := by
                  simp [Recorder.start, hstate, hdir, henc, r, hsw]
                rw [hstart]
                exact ⟨_, execBody_ret hmake _, rfl⟩
            | none =>
                let r' : Recorder := { r with
                  hwEncoder := some ⟨a.cfg, (a.cfg.bitrateKbps * 1000).toNat, false, false⟩ }
                have hmake : startStep a o .makeEncoder { w with toRecorder := r } =
                    some ({ w with
                      toRecorder := r'
                      dying := w.hwEncoder }, .goto .joinOld) := by
                  simp only [startStep, henc]
                  rfl
                have hjoin : startStep a o .joinOld { w with
                      toRecorder := r'
                      dying := w.hwEncoder } =
                    some ({ w with
                      toRecorder := r'
                      dying := none }, .goto .parse) := by
                  simp only [startStep, hcallback, if_true]
                have hstart : w.toRecorder.start o.outcome a.cfg a.filename false =
                    ((r'.launch o.outcome).1, .ok (r'.launch o.outcome).2) := by
                  simp [Recorder.start, hstate, hdir, henc, r', r, hsw]
                simp only [Bool.false_eq_true, if_false]
                rw [hstart, execBody_goto hmake, execBody_goto hjoin]
                exact launch_exec a o { w with
                  toRecorder := r'
                  dying := none } hcallback 0
  · exact ⟨w, by simp [execBody, startStep, Recorder.start, hstate]⟩

/-- `stop`, run alone, is `Recorder.stop`. -/
theorem stopStep_exec (o : Choice) (w : RecorderWorld) (hcallback : w.callback = .idle) :
    ∃ w', execBody stopStep o 7 .test w = some (w', (w.toRecorder.stop o.reply).ok) ∧
      w'.toRecorder = (w.toRecorder.stop o.reply).recorder := by
  by_cases hstate : w.state = .recording
  · refine ⟨_, by simp only [execBody, stopStep, hstate, hcallback, Recorder.stop, ne_eq,
      not_true_eq_false, if_false, if_true]; rfl, ?_⟩
    simp only [Recorder.stop, hstate, ne_eq, not_true_eq_false, if_false]
    rfl
  · exact ⟨w, by simp [execBody, stopStep, Recorder.stop, hstate]⟩

end Lifecycle

/-- **An idle recorder is null, and `start` overwrites nothing**, in every run in which the callback
makes a RECORDING recorder IDLE only while `stop` is at work. -/
theorem idle_is_null {ι : Type*} [DecidableEq ι] {s : Config ι RecorderWorld Lifecycle.Pc}
    (h : (lifecycle.system ι).Reach ErrorInStop s) : IdleIsNull s := by
  have hheld := held_guarded.held h
  refine ⟨fun hidle hstate => ?_, fun c a hc => ?_, fun c a hc => ?_⟩
  · obtain ⟨-, -, ⟨-, hnull⟩ | hrec⟩ := hheld.empty fun c => by rw [hidle c]; exact id
    · exact ⟨hnull.pipeline, hnull.appsrc, hnull.bus, hnull.hwEncoder⟩
    · rw [hstate] at hrec
      cases hrec
  · have hA := hheld.inside c (by rw [hc]; trivial)
    rw [hc] at hA
    exact hA.2.2.2.hwEncoder
  · have hA := hheld.inside c (by rw [hc]; trivial)
    rw [hc] at hA
    exact hA.2.2.2

namespace Lifecycle

/-- A configuration with one caller. -/
abbrev State := Config Unit RecorderWorld Pc

/-- A step of that caller, or of the callback. -/
abbrev Step := Event Unit (Call × Choice) CallbackEvent

/-- Every call underneath succeeds. -/
def smooth : Choice where
  outcome := ⟨none, none, .ok, true, true, true, ⟨2026, 1, 1, 0, 0, 0⟩⟩
  reply := .eos

/-- The caller, which makes this call when it is idle, takes `n` steps in which nothing fails. -/
def steps (n : ℕ) (call : Call) : List Step := List.replicate n (.run () (call, smooth))

/-- A recording with the hardware encoder is started. -/
def record : List Step := steps 13 (.start ⟨configOf .medium, ascii "a.mp4", false⟩)

/-- An encoded buffer arrives, and `poll_bus` pops an ERROR. -/
def popError : List Step := [.env (.call 0), .env (.pop (some .error)), .env .go]

/-- The executable form of `ErrorInStop`. -/
def errorInStop (s : State) : Step → Bool
  | .run _ _ => true
  | .env _ =>
      match s.shared.callback with
      | .handle (some .error) _ => s.shared.state ≠ .recording || s.shared.inStop
      | _ => true

lemma errorInStop_sound (s : State) (e : Step) (h : errorInStop s e = true) : ErrorInStop s e := by
  cases e with
  | run c a => exact trivial
  | env e =>
      intro tsUs hcallback hstate
      simpa [errorInStop, hcallback, hstate] using h

end Lifecycle

/-- An ERROR that `poll_bus` pops while `stop` drains the encoder: the recorder ends IDLE, null. -/
theorem error_in_stop_null : ∃ s : Lifecycle.State,
    (lifecycle.system Unit).exec errorInStop ⟨fresh (ascii "recordings"), fun _ => .idle⟩
        (record ++ steps 5 .stop ++ popError ++ [.env .go, .env .go] ++ steps 5 .stop) = some s ∧
      s.pc () = .idle ∧ s.shared.state = .idle ∧ IdleIsNull s := by
  obtain ⟨s, hs⟩ := Option.isSome_iff_exists.mp (by decide :
    ((lifecycle.system Unit).exec errorInStop ⟨fresh (ascii "recordings"), fun _ => .idle⟩
      (record ++ steps 5 .stop ++ popError ++ [.env .go, .env .go] ++ steps 5 .stop)).isSome)
  refine ⟨s, hs, ?_, ?_,
    idle_is_null (.of_exec_check errorInStop_sound ⟨⟨_, rfl⟩, fun _ => rfl⟩ hs)⟩
  · cases hs
    rfl
  · cases hs
    rfl

/-- An ERROR that `poll_bus` pops during a recording: when the callback has returned, the recorder
is IDLE, and has its pipeline and its encoder. -/
theorem error_leaves_pipeline : ¬ ∀ s : Lifecycle.State,
    (lifecycle.system Unit).Reach (fun _ _ => True) s → IdleIsNull s := by
  intro hall
  obtain ⟨s, hs⟩ := Option.isSome_iff_exists.mp (by decide :
    ((lifecycle.system Unit).exec (fun _ _ => true) ⟨fresh (ascii "recordings"), fun _ => .idle⟩
      (record ++ popError ++ [.env .go, .env .go])).isSome)
  have hnull := (hall s
    (.of_exec_check (fun _ _ _ => trivial) ⟨⟨_, rfl⟩, fun _ => rfl⟩ hs)).idle
  cases hs
  obtain ⟨-, happsrc, -⟩ := hnull (fun _ => rfl) rfl
  cases happsrc

end RasPiZeroCam
