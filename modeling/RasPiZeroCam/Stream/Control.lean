import RasPiZeroCam.Stream.Outline
import RasPiZeroCam.Transition.Pool

/-!
One control thread that calls the methods of `GstCameraSource` in any order, and the source's own
drain and bus threads.

* `control`: the control thread, from a fresh object, with the drain thread, the bus thread and its
  messages as environment.
* `ReleasesAll`: what a caller may rely on.  Once `stop` has returned nothing is held and no thread
  is joinable, and `start` overwrites neither a pipeline nor a joinable thread.
* `control_releases`: it holds along every run in which the pipeline fails only while `stop` is
  past its test of `running_`, and no `start` fails halfway.
* `error_leaks`: without that, an ERROR on the bus makes `stop` return at once.
-/

namespace RasPiZeroCam

open Transition Pool

/-- The public methods. -/
inductive Method where
  | start
  | stop
  | setResolution (cfg : ResolutionConfig)
  | startRecording (filepath : Bytes)
  | stopRecording
  deriving DecidableEq

namespace Control

/-- Where the control thread is. -/
inductive Pc where
  | idle
  | start (p : StartPc)
  | stop (p : StopPc)
  | setResolution (cfg : ResolutionConfig) (p : SetResolutionPc)
  | startRecording (filepath : Bytes) (p : StartRecordingPc)
  | stopRecording (p : StopRecordingPc)
  | returned (m : Method)
  deriving DecidableEq

/-- What the source's own threads do. -/
inductive Env where
  | drainExit
  | busExit
  | message (m : BusMessage)

/-- Where a call begins. -/
def call : Method → Pc
  | .start => .start .test
  | .stop => .stop .test
  | .setResolution cfg => .setResolution cfg .testRecording
  | .startRecording f => .startRecording f .test
  | .stopRecording => .stopRecording .test

/-- A step of the control thread, which picks the method it calls next. -/
def act (a : Method × Choice) (p : Pc) (w : World) : Option (World × Pc) :=
  if w.crashed then none
  else
    match p with
    | .idle => some (w, call a.1)
    | .start p => stepCall startStep .start (fun _ => .returned .start) a.2 p w
    | .stop p => stepCall stopStep .stop (fun _ => .returned .stop) a.2 p w
    | .setResolution cfg p =>
        stepCall (setResolutionStep cfg) (.setResolution cfg)
          (fun _ => .returned (.setResolution cfg)) a.2 p w
    | .startRecording f p =>
        stepCall (startRecordingStep f) (.startRecording f)
          (fun _ => .returned (.startRecording f)) a.2 p w
    | .stopRecording p =>
        stepCall stopRecordingStep .stopRecording (fun _ => .returned .stopRecording) a.2 p w
    | .returned _ => some (w, .idle)

/-- A step of the source's own threads. -/
def env (e : Env) (w : World) : Option World :=
  if w.crashed then none
  else
    match e with
    | .drainExit => w.drainExit
    | .busExit => w.busExit
    | .message m => w.busMessage m

end Control

open Control

/-- The control thread and the source's threads, from a fresh object. -/
def control : Pool World Control.Pc (Method × Choice) Control.Env where
  init w := ∃ cfg, w = .new cfg
  start := .idle
  act := act
  env := Control.env

namespace Control

/-- A configuration with its one control thread. -/
abbrev State := Config Unit World Pc

/-- A step of the control thread or of the source's threads. -/
abbrev Step := Event Unit (Method × Choice) Env

/-- `stop` has just returned, to the control thread or to `set_resolution`. -/
def StopReturned : Pc → Prop
  | .returned .stop => True
  | .setResolution _ .setCfg => True
  | _ => False

/-- Nothing is held, no thread is joinable, every recording has been stopped. -/
def Released (w : World) : Prop :=
  w.recThread.joinable = false ∧ w.busThread.joinable = false ∧
    w.pipeline = none ∧ w.appsink = none ∧ w.recSink = none ∧ w.bus = none ∧
    w.recording = false ∧ w.recStarted = w.recStopped

/-- Where `start` is, if the control thread is in it. -/
def startPoint : Pc → Option StartPc
  | .start p => some p
  | .setResolution _ (.start p) => some p
  | _ => none

/-- What the statement of `start` that comes next assigns to is free. -/
def Assignable : StartPc → World → Prop
  | .parseLaunch, w => w.pipeline = none
  | .spawnRecThread, w => w.recThread.joinable = false
  | .spawnBusThread, w => w.busThread.joinable = false
  | _, _ => True

/-- What a caller of `start` and `stop` may rely on. -/
def ReleasesAll (s : State) : Prop :=
  (StopReturned (s.pc ()) → Released s.shared) ∧
    ∀ p, startPoint (s.pc ()) = some p → Assignable p s.shared

/-- The control thread is in `stop`, past the test of `running_`. -/
def InStop : Pc → Prop
  | .stop p => p ≠ .test
  | .setResolution _ (.stop p) => p ≠ .test
  | _ => False

/-- `start` does not fail halfway, and ERROR and EOS are handled only while `stop` is past its
test. -/
def Orderly (s : State) : Step → Prop
  | .run _ (_, o) => ∀ p, startPoint (s.pc ()) = some p → CleanStart true o p
  | .env (.message .warning) => True
  | .env (.message _) => InStop (s.pc ())
  | .env _ => True

/-- The assertion wherever the control thread is. -/
def PcA : Pc → World → Prop
  | .start p, w => StartA true p w
  | .stop p, w => StopA true p w
  | .setResolution _ p, w => SetResolutionA true p w
  | .startRecording _ p, w => StartRecordingA true p w
  | .stopRecording .test, w => Settled true w
  | .stopRecording p, w => StopRecordingA (· = true) p w
  | .returned .stop, w => Down true w
  | _, w => Settled true w

/-- A step of a call with an outline keeps the assertions. -/
lemma pcA_stepCall {π ρ : Type} {body : Body World Choice π ρ} {Allow : Choice → π → Prop}
    {A : π → World → Prop} {R : ρ → World → Prop} {into : π → Pc} {k : ρ → Pc} {o : Choice}
    {p : π} {w w' : World} {q : Pc} (h : stepCall body into k o p w = some (w', q))
    (hout : Outline False body Allow A R) (hallow : Allow o p) (hA : A p w)
    (hinto : ∀ p w, A p w → PcA (into p) w) (hk : ∀ r w, R r w → PcA (k r) w) : PcA q w' := by
  obtain ⟨p', rfl, hp⟩ | ⟨r, rfl, hr⟩ := stepCall_of_outline h hout hallow hA
  · exact hinto p' w' hp
  · exact hk r w' hr

lemma pcA_act {m : Method} {o : Choice} {p q : Pc} {w w' : World}
    (hclean : ∀ sp, startPoint p = some sp → CleanStart true o sp) (hA : PcA p w)
    (h : act (m, o) p w = some (w', q)) : PcA q w' := by
  unfold act at h
  split_ifs at h
  cases p with
  | idle =>
      cases h
      cases m <;> exact hA
  | start p =>
      exact pcA_stepCall h (start_outline true) (hclean p rfl) hA (fun _ _ hp => hp)
        fun _ _ hr => hr
  | stop p =>
      exact pcA_stepCall h (stop_outline true) trivial hA (fun _ _ hp => hp) fun _ _ hr => hr
  | setResolution cfg p =>
      refine pcA_stepCall h (setResolution_outline true cfg) ?_ hA (fun _ _ hp => hp)
        fun _ _ hr => hr
      cases p with
      | start p => exact hclean p rfl
      | _ => trivial
  | startRecording f p =>
      exact pcA_stepCall h (startRecording_outline true f) trivial hA (fun _ _ hp => hp)
        fun _ _ hr => hr
  | stopRecording p =>
      cases p with
      | test =>
          -- a source that does not run has no recording to stop
          cases hrec : w.recording <;> simp [stepCall, stopRecordingStep, hrec] at h <;>
            obtain ⟨rfl, rfl⟩ := h
          · exact hA
          · obtain hup | hdown := hA
            · exact ⟨hup.running, hrec, hup.recOk.live hrec⟩
            · rw [hdown.halted.recIdle.recording] at hrec
              cases hrec
      | _ =>
          refine pcA_stepCall h (stopRecording_outline (· = true)) trivial hA ?_
            fun _ _ hr => Or.inl ⟨hr.1, Or.inl hr.2⟩
          rintro (_ | _ | _ | _ | _) w hp
          · exact Or.inl ⟨hp.1, hp.2⟩
          all_goals exact hp
  | returned m =>
      cases h
      cases m
      case stop => exact Or.inr hA
      all_goals exact hA

lemma pcA_exit {p : Pc} {w w' : World} (hA : PcA p w) (hexit : ThreadExit w w') : PcA p w' := by
  cases p with
  | idle => exact Settled.exit hA hexit
  | start p => exact StartA.exit hA hexit
  | stop p => exact StopA.exit hA hexit
  | setResolution cfg p => exact SetResolutionA.exit hA hexit
  | startRecording f p => exact StartRecordingA.exit hA hexit
  | stopRecording p =>
      cases p with
      | test => exact Settled.exit hA hexit
      | clear => exact StopRecordingA.exit (F := (· = true)) (p := .clear) hA hexit
      | testRecorder => exact StopRecordingA.exit (F := (· = true)) (p := .testRecorder) hA hexit
      | stopRecorder => exact StopRecordingA.exit (F := (· = true)) (p := .stopRecorder) hA hexit
      | resetRecorder => exact StopRecordingA.exit (F := (· = true)) (p := .resetRecorder) hA hexit
  | returned m =>
      cases m with
      | stop => exact absurd hexit (Down.halted hA).no_exit
      | _ => exact Settled.exit hA hexit

lemma pcA_message {p : Pc} {m : BusMessage} {w w' : World} (hA : PcA p w) (hp : InStop p)
    (h : w.busMessage m = some w') : PcA p w' := by
  cases p with
  | stop p => exact StopA.message hA hp h
  | setResolution cfg p =>
      cases p with
      | stop p =>
          have hstop : StopA true p w := hA
          exact hstop.message hp h
      | _ => exact absurd hp id
  | _ => exact absurd hp id

/-- The assertions hold along every orderly run. -/
lemma pcA_of_reach {s : State} (h : (control.system Unit).Reach Orderly s) :
    PcA (s.pc ()) s.shared := by
  refine h.invariant (fun s => PcA (s.pc ()) s.shared) ?_ ?_
  · rintro s ⟨⟨cfg, hw⟩, hpc⟩
    rw [hw, hpc ()]
    exact settled_new true cfg
  · intro s e s' _ hA hC hstep
    cases e with
    | run c a =>
        obtain ⟨w, q, hact, rfl⟩ := step_run_iff.mp hstep
        simp only [Function.update_self]
        exact pcA_act hC hA hact
    | env e =>
        obtain ⟨w, henv, rfl⟩ := step_env_iff.mp hstep
        simp only [control, Control.env] at henv
        split_ifs at henv
        cases e with
        | drainExit => exact pcA_exit hA (Or.inl henv)
        | busExit => exact pcA_exit hA (Or.inr henv)
        | message m =>
            cases m with
            | error => exact pcA_message hA hC henv
            | eos => exact pcA_message hA hC henv
            | warning =>
                obtain ⟨-, rfl⟩ : s.shared.busThread = .live ∧ s.shared = w := by
                  simpa [World.busMessage] using henv
                exact hA

lemma Released.of_down {w : World} (h : Down true w) : Released w :=
  ⟨by rw [h.halted.recThread]; rfl, by rw [h.halted.busThread]; rfl, h.pipeline,
    (h.elements rfl).1, (h.elements rfl).2.1, (h.elements rfl).2.2, h.halted.recIdle.recording,
    h.halted.recIdle.books⟩

lemma Assignable.of_startA {p : StartPc} {w : World} (h : StartA true p w) : Assignable p w := by
  cases p with
  | parseLaunch => exact h.pipeline
  | spawnRecThread =>
      rw [Assignable, Halted.recThread h]
      rfl
  | spawnBusThread =>
      rw [Assignable, h.2]
      rfl
  | _ => trivial

end Control

/-- **A source is released by `stop`, and `start` overwrites nothing**, along every orderly run. -/
theorem control_releases {s : Control.State} (h : (control.system Unit).Reach Orderly s) :
    ReleasesAll s := by
  have hA := pcA_of_reach h
  revert hA
  rw [ReleasesAll]
  generalize s.pc () = p
  intro hA
  constructor
  · intro hret
    cases p with
    | returned m =>
        cases m with
        | stop => exact Released.of_down hA
        | _ => exact absurd hret id
    | setResolution cfg p =>
        cases p with
        | setCfg => exact Released.of_down hA
        | _ => exact absurd hret id
    | _ => exact absurd hret id
  · intro sp hsp
    cases p with
    | start p =>
        cases hsp
        exact Assignable.of_startA hA
    | setResolution cfg p =>
        cases p with
        | start p =>
            cases hsp
            exact Assignable.of_startA hA
        | _ => cases hsp
    | _ => cases hsp

namespace Control

/-- Nothing fails. -/
def smooth : State → Step → Bool
  | _, .run _ (_, o) => o.parse = .ok && (o.appsink && o.recSink && o.bus)
  | _, .env (.message _) => false
  | _, .env _ => true

lemma orderly_of_smooth {s : State} {e : Step} (h : smooth s e = true) : Orderly s e := by
  cases e with
  | run c a =>
      obtain ⟨m, o⟩ := a
      simp only [smooth, Bool.and_eq_true, decide_eq_true_eq] at h
      obtain ⟨hparse, ⟨happ, hrec⟩, hbus⟩ := h
      intro p _
      cases p <;> simp [CleanStart, hparse, happ, hrec, hbus]
  | env e =>
      cases e with
      | message m => cases h
      | _ => trivial

/-- The beginning of a run. -/
def initial : State := ⟨.new .zero, fun _ => .idle⟩

/-- The control thread takes `n` steps, each of which succeeds. -/
def steps (n : ℕ) (m : Method) : List Step := List.replicate n (.run () (m, .good))

/-- `start`, then `start_recording`, then `stop`. -/
def session : List Step :=
  steps 11 .start ++ steps 7 (.startRecording (ascii "a.mp4")) ++ steps 12 .stop ++
    [.env .drainExit] ++ steps 2 .stop ++ [.env .busExit] ++ steps 5 .stop

end Control

/-- A recording session ends with everything released. -/
theorem session_releases :
    ∃ s, (control.system Unit).exec Control.smooth Control.initial Control.session = some s ∧
      s.pc () = .returned .stop ∧ ReleasesAll s := by
  have hrun : ((control.system Unit).exec Control.smooth Control.initial Control.session).map
      (fun s => s.pc ()) = some (.returned .stop) := by decide
  obtain ⟨s, hs, hpc⟩ := Option.map_eq_some_iff.mp hrun
  have hreach : (control.system Unit).Reach Orderly s :=
    .of_exec_check (fun _ _ => orderly_of_smooth) ⟨⟨.zero, rfl⟩, fun _ => rfl⟩ hs
  exact ⟨s, hs, hpc, control_releases hreach⟩

/-- After an ERROR on the bus `stop` returns at once: a thread is left joinable. -/
theorem error_leaks :
    ¬ ∀ s : Control.State, (control.system Unit).Reach (fun _ _ => True) s → ReleasesAll s := by
  intro h
  have hrun : ((control.system Unit).exec (fun _ _ => true) Control.initial
      (Control.steps 11 .start ++ [.env (.message .error)] ++ Control.steps 2 .stop)).map
      (fun s => (s.pc (), s.shared.busThread)) = some (.returned .stop, .live) := by decide
  obtain ⟨s, hs, hend⟩ := Option.map_eq_some_iff.mp hrun
  obtain ⟨hpc, hbus⟩ := Prod.mk.inj hend
  have hreach : (control.system Unit).Reach (fun _ _ => True) s :=
    .of_exec_check (fun _ _ _ => trivial) ⟨⟨.zero, rfl⟩, fun _ => rfl⟩ hs
  have hjoin := ((h s hreach).1 (by rw [hpc]; trivial)).2.1
  rw [hbus] at hjoin
  exact absurd hjoin (by decide)

end RasPiZeroCam
