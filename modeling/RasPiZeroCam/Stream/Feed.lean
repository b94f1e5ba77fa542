import RasPiZeroCam.Stream.Clients

/-!
A recording and the pipeline that feeds it, while clients start, stop and switch.

* `Fed`: the recorder was started with the width, height and rate of the pipeline.
* `mutex_held`: `res_mutex` keeps the starts of two recordings apart.
* `recording_fed`: it holds along the runs in which a switch tests `running_` only while no other
  switch and no start of a recording is at work, and a start tests it only while no switch is.
* `switch_under_start`: a switch inside the start of a recording leaves a recorder with the
  configuration of the pipeline before.
-/

namespace RasPiZeroCam

open Transition Pool

namespace Clients

/-! ### The mutex -/

/-- The client holds `res_mutex`. -/
def Holds : Pc → Prop
  | .setCfgPtr _ => True
  | .unlockCfg _ => True
  | .name _ => True
  | .start _ _ => True
  | .unlock => True
  | _ => False

/-- The client that holds `res_mutex`. -/
def mutexRegion : Region Server Pc where
  In := Holds
  A _ s := s.resMutex = true
  Q s := s.resMutex = false

/-- A step of a client takes the mutex, keeps it, gives it back, or leaves it alone. -/
lemma act_resMutex {a : Command × Choice} {p q : Pc} {s t : Server} (h : act a p s = some (t, q)) :
    (¬ Holds p ∧ s.resMutex = false ∧ Holds q ∧ t.resMutex = true) ∨
      (Holds p ∧ Holds q ∧ t.resMutex = s.resMutex) ∨
      (Holds p ∧ ¬ Holds q ∧ t.resMutex = false) ∨
      (¬ Holds p ∧ ¬ Holds q ∧ t.resMutex = s.resMutex) := by
  replace h := program_of_act h
  cases p
  case idle =>
      cases h
      refine Or.inr (Or.inr (Or.inr ⟨id, ?_, rfl⟩))
      cases a.1 <;> exact id
  case lockCfg cfg =>
      obtain ⟨hfree, rfl, rfl⟩ := lockRes_eq_some h
      exact Or.inl ⟨id, hfree, trivial, rfl⟩
  case lock msg =>
      obtain ⟨hfree, rfl, rfl⟩ := lockRes_eq_some h
      exact Or.inl ⟨id, hfree, trivial, rfl⟩
  case setCfgPtr cfg =>
      cases h
      exact Or.inr (Or.inl ⟨trivial, trivial, rfl⟩)
  case unlockCfg cfg =>
      cases h
      exact Or.inr (Or.inr (Or.inl ⟨trivial, id, rfl⟩))
  case name msg =>
      simp only [program] at h
      split at h <;> cases h <;> exact Or.inr (Or.inl ⟨trivial, trivial, rfl⟩)
  case unlock =>
      cases h
      exact Or.inr (Or.inr (Or.inl ⟨trivial, id, rfl⟩))
  case start f p =>
      obtain ⟨w, p', -, rfl, rfl⟩ | ⟨w, r, -, rfl, rfl⟩ | ⟨rfl, rfl⟩ := onWorld_stepCall_cases h <;>
        exact Or.inr (Or.inl ⟨trivial, trivial, rfl⟩)
  case setResolution cfg p =>
      obtain ⟨w, p', -, rfl, rfl⟩ | ⟨w, r, -, rfl, rfl⟩ | ⟨rfl, rfl⟩ := onWorld_stepCall_cases h <;>
        exact Or.inr (Or.inr (Or.inr ⟨id, id, rfl⟩))
  case restart p =>
      obtain ⟨w, p', -, rfl, rfl⟩ | ⟨w, r, -, rfl, rfl⟩ | ⟨rfl, rfl⟩ := onWorld_stepCall_cases h <;>
        exact Or.inr (Or.inr (Or.inr ⟨id, id, rfl⟩))
  case stop f dur p =>
      obtain ⟨w, p', -, rfl, rfl⟩ | ⟨w, r, -, rfl, rfl⟩ | ⟨rfl, rfl⟩ := onWorld_stepCall_cases h <;>
        exact Or.inr (Or.inr (Or.inr ⟨id, id, rfl⟩))
  case testStart msg =>
      cases h
      refine Or.inr (Or.inr (Or.inr ⟨id, ?_, rfl⟩))
      split_ifs <;> exact id
  case testStop =>
      cases h
      refine Or.inr (Or.inr (Or.inr ⟨id, ?_, rfl⟩))
      split_ifs <;> exact id
  case file =>
      cases h
      exact Or.inr (Or.inr (Or.inr ⟨id, id, rfl⟩))
  case seconds f =>
      cases h
      exact Or.inr (Or.inr (Or.inr ⟨id, id, rfl⟩))

lemma mutexRegion_guarded (C : State → Step → Prop) : mutexRegion.Guarded clients ℕ C where
  init := by
    rintro s ⟨cfg, rfl⟩
    rfl
  start := id
  enter := by
    intro s c a t q _ _ hheld hact hout hin
    obtain ⟨-, hfree, -, ht⟩ | ⟨hp, -⟩ | ⟨hp, -⟩ | ⟨-, hq, -⟩ := act_resMutex hact
    · refine ⟨fun d hd => ?_, fun _ => ht⟩
      have hlocked : s.shared.resMutex = true := hheld.inside d hd
      rw [hfree] at hlocked
      cases hlocked
    · exact absurd hp hout
    · exact absurd hp hout
    · exact absurd hin hq
  within := by
    intro s c a t q _ _ hact hin hA
    obtain ⟨hp, -⟩ | ⟨-, hq, ht⟩ | ⟨-, hq, ht⟩ | ⟨hp, -⟩ := act_resMutex hact
    · exact absurd hin hp
    · exact ⟨fun _ => ht.trans hA, fun hq' => absurd hq hq'⟩
    · exact ⟨fun hq' => absurd hq' hq, fun _ => ht⟩
    · exact absurd hin hp
  outside := by
    intro s c a t q _ _ hact hout hout'
    obtain ⟨-, -, hq, -⟩ | ⟨hp, -⟩ | ⟨hp, -⟩ | ⟨-, -, ht⟩ := act_resMutex hact
    · exact absurd hq hout'
    · exact absurd hp hout
    · exact absurd hp hout
    · exact ⟨ht.trans, fun _ _ => ht.trans⟩
  env := by
    intro s e t _ _ henv
    have ht := (around_cases (around_of_env henv)).1
    exact ⟨ht.trans, fun _ _ => ht.trans⟩

/-- **At most one client holds `res_mutex`.** -/
theorem mutex_held {C : State → Step → Prop} {s : State} (h : (clients.system ℕ).Reach C s)
    (c d : ℕ) (hc : Holds (s.pc c)) (hd : Holds (s.pc d)) : c = d :=
  ((mutexRegion_guarded C).held h).unique c d hc hd

end Clients

/-! ### The pipeline and the recorder -/

/-- The pipeline was made with the current configuration. -/
def Feeds (w : World) : Prop := ∃ p, w.pipeline = some p ∧ p.cfg = w.cfg

/-- The recorder was started with the current configuration. -/
def SameCfg (w : World) : Prop := ∀ r, w.recorder = some r → r.cfg = w.cfg

/-- A source no switch and no start is at work on.  Its drain thread has been joined only if it
neither runs nor records. -/
structure InStep (w : World) : Prop where
  thread : w.running = true ∨ w.recording = true → w.recThread.joinable = true
  feeds : w.running = true → Feeds w
  same : w.running = true → w.recording = true → SameCfg w

/-- A source that does not run. -/
def Idle (w : World) : Prop :=
  w.running = false ∧ (w.recording = true → w.recThread.joinable = true)

/-- A step that starts nothing: it may clear `running_`, or stop a recording. -/
structure Quieter (w w' : World) : Prop where
  running : w'.running = true → w.running = true := by exact id
  thread : w.recThread.joinable = true → w'.recThread.joinable = true := by exact id
  pipeline : w'.pipeline = w.pipeline := by rfl
  cfg : w'.cfg = w.cfg := by rfl
  recording : w'.recording = true → w.recording = true := by exact id
  recorder : ∀ r', w'.recorder = some r' → ∃ r, w.recorder = some r ∧ r'.cfg = r.cfg := by
    exact fun r hr => ⟨r, hr, rfl⟩

/-- What a step may change only if it is none of those. -/
def World.feedView (w : World) :
    Bool × StdThread × Option Pipeline × ResolutionConfig × Bool × Option Recorder :=
  (w.running, w.recThread, w.pipeline, w.cfg, w.recording, w.recorder)

lemma Quieter.of_same {w w' : World} (hview : w'.feedView = w.feedView) : Quieter w w' := by
  simp only [World.feedView, Prod.mk.injEq] at hview
  obtain ⟨hrun, hthread, hpipeline, hcfg, hrec, hrecorder⟩ := hview
  exact ⟨hrun ▸ id, hthread ▸ id, hpipeline, hcfg, hrec ▸ id,
    fun r hr => ⟨r, hrecorder ▸ hr, rfl⟩⟩

lemma Quieter.feeds {w w' : World} (h : Quieter w w') (hf : Feeds w) : Feeds w' := by
  obtain ⟨p, hp, hcfg⟩ := hf
  exact ⟨p, h.pipeline.trans hp, hcfg.trans h.cfg.symm⟩

lemma Quieter.sameCfg {w w' : World} (h : Quieter w w') (hs : SameCfg w) : SameCfg w' := by
  intro r' hr'
  obtain ⟨r, hr, hcfg⟩ := h.recorder r' hr'
  rw [hcfg, hs r hr, h.cfg]

lemma Quieter.inStep {w w' : World} (h : Quieter w w') (hi : InStep w) : InStep w' where
  thread hw := h.thread (hi.thread (hw.imp h.running h.recording))
  feeds hrun := h.feeds (hi.feeds (h.running hrun))
  same hrun hrec := h.sameCfg (hi.same (h.running hrun) (h.recording hrec))

lemma Quieter.idle {w w' : World} (h : Quieter w w') (hi : Idle w) : Idle w' := by
  refine ⟨?_, fun hrec => h.thread (hi.2 (h.recording hrec))⟩
  by_contra hrun
  have := h.running (by simpa using hrun)
  rw [hi.1] at this
  cases this

lemma Quieter.silent {w w' : World} (h : Quieter w w') (hs : w.recording = false) :
    w'.recording = false := by
  by_contra hrec
  rw [h.recording (by simpa using hrec)] at hs
  cases hs

/-- A source that does not record is in step, once its pipeline is. -/
lemma InStep.of_silent {w : World} (hs : w.recording = false) (hf : Feeds w)
    (ht : w.recThread.joinable = true) : InStep w where
  thread _ := ht
  feeds _ := hf
  same _ hrec := by
    rw [hs] at hrec
    cases hrec

/-- A source that does not run is in step. -/
lemma Idle.inStep {w : World} (h : Idle w) : InStep w := by
  have hstopped : ¬ w.running = true := by simp [h.1]
  exact ⟨fun hw => h.2 (hw.resolve_left hstopped), fun hrun => absurd hrun hstopped,
    fun hrun => absurd hrun hstopped⟩

lemma Idle.of_silent {w : World} (h : w.running = false ∧ w.recording = false) : Idle w :=
  ⟨h.1, fun hrec => by simp [h.2] at hrec⟩

lemma stopRecordingStep_quieter {o : Choice} {p : StopRecordingPc} {w w' : World}
    {n : Next StopRecordingPc Bool} (h : stopRecordingStep o p w = some (w', n)) :
    Quieter w w' := by
  cases p <;> simp only [stopRecordingStep, Option.some.injEq, Prod.mk.injEq] at h
  case test =>
      obtain ⟨rfl, -⟩ := h
      exact .of_same rfl
  case clear =>
      obtain ⟨rfl, -⟩ := h
      exact ⟨id, id, rfl, rfl, fun hrec => (by cases hrec), fun r hr => ⟨r, hr, rfl⟩⟩
  case testRecorder =>
      obtain ⟨rfl, -⟩ := h
      exact .of_same rfl
  case stopRecorder =>
      cases hr : w.recorder <;> rw [hr] at h <;> cases h
      case none => exact .of_same rfl
      case some r =>
          refine ⟨id, id, rfl, rfl, id, fun r' hr' => ⟨r, hr, ?_⟩⟩
          cases hr'
          exact Recorder.stop_cfg _ r
  case resetRecorder =>
      obtain ⟨rfl, -⟩ := h
      exact ⟨id, id, rfl, rfl, id, fun r' hr' => by cases hr'⟩

lemma Quieter.of_exit {w w' : World} (h : ThreadExit w w') : Quieter w w' := by
  obtain ⟨-, rfl⟩ | ⟨-, rfl⟩ := h.cases
  · exact ⟨id, fun _ => rfl, rfl, rfl, id, fun r hr => ⟨r, hr, rfl⟩⟩
  · exact .of_same rfl

lemma Quieter.of_message {m : BusMessage} {w w' : World} (h : w.busMessage m = some w') :
    Quieter w w' := by
  obtain ⟨-, rfl | rfl⟩ := busMessage_cases h
  · exact .of_same rfl
  · exact ⟨fun hrun => (by cases hrun), id, rfl, rfl, id, fun r hr => ⟨r, hr, rfl⟩⟩

/-- The assertions in `set_resolution`, once the test of `running_` in its `stop` is behind.  A
source that still records has a drain thread nobody joined, and `start` does not get past it. -/
def SwitchA : SetResolutionPc → World → Prop
  | .stop .testRecording, w => InStep w
  | .stop (.stopRecording .test), w => InStep w
  | .stop (.stopRecording .clear), w => InStep w
  | .stop (.stopRecording _), w => w.recording = false
  | .stop .clearRunning, w => w.recording = false
  | .stop .test, _ => False
  | .stop _, w => w.running = false ∧ w.recording = false
  | .setCfg, w => Idle w
  | .start .test, w => Idle w
  | .start .parseLaunch, w => Idle w
  | .start .setRunning, w => w.recording = false ∧ Feeds w ∧ w.recThread.joinable = true
  | .start .clearAbortBus, w => w.recording = false ∧ Feeds w ∧ w.recThread.joinable = true
  | .start .spawnBusThread, w => w.recording = false ∧ Feeds w ∧ w.recThread.joinable = true
  | .start _, w => Idle w ∧ Feeds w
  | .testRecording, _ => False
  | .stopRecording _, _ => False

/-- The assertions in `start_recording`, once its test is behind. -/
def BeginA : StartRecordingPc → World → Prop
  | .test, _ => False
  | .create, w => w.recording = false ∧ Feeds w ∧ w.recThread.joinable = true
  | .startRecorder, w => w.recording = false ∧ Feeds w ∧ w.recThread.joinable = true
  | .setFile, w => (w.recording = false ∧ Feeds w ∧ w.recThread.joinable = true) ∧ SameCfg w
  | .setRecording, w => (w.recording = false ∧ Feeds w ∧ w.recThread.joinable = true) ∧ SameCfg w

/-- The assertion that `start` and `start_recording` share. -/
lemma Quieter.ready {w w' : World} (h : Quieter w w')
    (hw : w.recording = false ∧ Feeds w ∧ w.recThread.joinable = true) :
    w'.recording = false ∧ Feeds w' ∧ w'.recThread.joinable = true :=
  ⟨h.silent hw.1, h.feeds hw.2.1, h.thread hw.2.2⟩

lemma SwitchA.quieter {p : SetResolutionPc} {w w' : World} (hA : SwitchA p w)
    (h : Quieter w w') : SwitchA p w' := by
  have hdown : w.running = false ∧ w.recording = false →
      w'.running = false ∧ w'.recording = false :=
    fun hw => ⟨(h.idle (.of_silent hw)).1, h.silent hw.2⟩
  rcases p with _ | _ | p | _ | p
  · exact absurd hA id
  · exact absurd hA id
  · rcases p with _ | _ | p | _ | _ | _ | _ | _ | _ | _ | _ | _ | _ | _
    case stopRecording =>
        cases p
        case test => exact h.inStep hA
        case clear => exact h.inStep hA
        all_goals exact h.silent hA
    case test => exact absurd hA id
    case testRecording => exact h.inStep hA
    case clearRunning => exact h.silent hA
    all_goals exact hdown hA
  · exact h.idle hA
  · cases p
    case test => exact h.idle hA
    case parseLaunch => exact h.idle hA
    case setRunning => exact h.ready hA
    case clearAbortBus => exact h.ready hA
    case spawnBusThread => exact h.ready hA
    all_goals exact ⟨h.idle hA.1, h.feeds hA.2⟩

lemma BeginA.quieter {p : StartRecordingPc} {w w' : World} (hA : BeginA p w)
    (h : Quieter w w') : BeginA p w' := by
  cases p with
  | test => exact absurd hA id
  | create => exact h.ready hA
  | startRecorder => exact h.ready hA
  | setFile => exact ⟨h.ready hA.1, h.sameCfg hA.2⟩
  | setRecording => exact ⟨h.ready hA.1, h.sameCfg hA.2⟩

/-- A step of `stop`, from the test of `running_` on. -/
lemma stopStep_feed {o : Choice} {p : StopPc} {w w' : World} {n : Next StopPc Unit}
    (hA : (p = .test ∧ InStep w) ∨ SwitchA (.stop p) w) (h : stopStep o p w = some (w', n)) :
    n.Sat True (fun q w' => SwitchA (.stop q) w') (fun _ w' => SwitchA .setCfg w') w' := by
  obtain ⟨rfl, hi⟩ | hA := hA
  · simp only [stopStep, Option.some.injEq, Prod.mk.injEq] at h
    obtain ⟨rfl, rfl⟩ := h
    cases hrun : w.running with
    | true => exact hi
    | false => exact ⟨hrun, fun hrec => hi.thread (Or.inr hrec)⟩
  cases p <;> simp only [stopStep, Option.some.injEq, Prod.mk.injEq] at h
  case test => exact absurd hA id
  case testRecording =>
      obtain ⟨rfl, rfl⟩ := h
      cases hrec : w.recording with
      | true => exact hA
      | false => exact hrec
  case stopRecording p =>
      obtain ⟨⟨v, m⟩, hbody, hland⟩ := Option.map_eq_some_iff.mp h
      cases hland
      cases p <;> simp only [stopRecordingStep, Option.some.injEq, Prod.mk.injEq] at hbody
      case test =>
          obtain ⟨rfl, rfl⟩ := hbody
          cases hrec : w.recording with
          | true => exact hA
          | false => exact hrec
      case clear =>
          obtain ⟨rfl, rfl⟩ := hbody
          exact rfl
      case testRecorder =>
          obtain ⟨rfl, rfl⟩ := hbody
          split_ifs <;> exact hA
      case stopRecorder =>
          cases hr : w.recorder <;> rw [hr] at hbody <;> cases hbody
          · trivial
          · exact hA
      case resetRecorder =>
          obtain ⟨rfl, rfl⟩ := hbody
          exact hA
  case clearRunning =>
      obtain ⟨rfl, rfl⟩ := h
      exact ⟨rfl, hA⟩
  case testRecThread =>
      obtain ⟨rfl, rfl⟩ := h
      split_ifs <;> exact hA
  case joinRecThread =>
      cases ht : w.recThread <;> rw [ht] at h <;> cases h
      · trivial
      · exact hA
  case testBusThread =>
      obtain ⟨rfl, rfl⟩ := h
      split_ifs <;> exact hA
  case joinBusThread =>
      cases ht : w.busThread <;> rw [ht] at h <;> cases h
      · trivial
      · exact hA
  case releasePipeline =>
      obtain ⟨rfl, rfl⟩ := h
      exact Idle.of_silent hA
  all_goals
    obtain ⟨rfl, rfl⟩ := h
    exact hA

/-- A step of the `start` of a switch. -/
lemma startStep_feed {o : Choice} {p : StartPc} {w w' : World} {n : Next StartPc Bool}
    (hA : SwitchA (.start p) w) (h : startStep o p w = some (w', n)) :
    n.Sat True (fun q w' => SwitchA (.start q) w') (fun _ w' => InStep w') w' := by
  have hfail : ∀ {v : World}, Idle w → v.running = w.running → v.recording = w.recording →
      v.recThread = w.recThread → InStep v := by
    intro v hi hrun hrec hthread
    refine Idle.inStep ?_
    rw [Idle, hrun, hrec, hthread]
    exact hi
  cases p <;> simp only [startStep, Option.some.injEq, Prod.mk.injEq] at h
  case test =>
      obtain ⟨rfl, rfl⟩ := h
      rw [if_neg (by rw [hA.1]; exact Bool.false_ne_true)]
      exact hA
  case parseLaunch =>
      cases hparse : o.parse <;> rw [hparse] at h <;> cases h
      · exact hfail hA rfl rfl rfl
      · exact hfail hA rfl rfl rfl
      · exact ⟨hA, _, rfl, rfl⟩
  case getElements =>
      split_ifs at h <;> cases h
      · exact hfail hA.1 rfl rfl rfl
      · exact hA
  case setPlaying =>
      split_ifs at h <;> cases h
      · exact hA
      · exact hfail hA.1 rfl rfl rfl
  case clearAbortRec =>
      obtain ⟨rfl, rfl⟩ := h
      exact hA
  case spawnRecThread =>
      split_ifs at h with hjoin <;> cases h
      · trivial
      · -- a source that still recorded would have a joinable thread
        have hrec : w.recording = false := by
          by_contra hrec
          exact hjoin (hA.1.2 (by simpa using hrec))
        exact ⟨hrec, hA.2, rfl⟩
  case setRunning =>
      obtain ⟨rfl, rfl⟩ := h
      exact hA
  case clearAbortBus =>
      obtain ⟨rfl, rfl⟩ := h
      exact hA
  case spawnBusThread =>
      split_ifs at h <;> cases h
      · trivial
      · exact .of_silent hA.1 hA.2.1 hA.2.2

/-- A step of `start_recording`, from its test on. -/
lemma startRecordingStep_feed {f : Bytes} {o : Choice} {p : StartRecordingPc} {w w' : World}
    {n : Next StartRecordingPc (Except Exception Bool)}
    (hA : (p = .test ∧ InStep w) ∨ BeginA p w) (h : startRecordingStep f o p w = some (w', n)) :
    n.Sat True BeginA (fun _ w' => InStep w') w' := by
  obtain ⟨rfl, hi⟩ | hA := hA
  · simp only [startRecordingStep, Option.some.injEq, Prod.mk.injEq] at h
    obtain ⟨rfl, rfl⟩ := h
    split_ifs with hrefuse
    · exact hi
    · simp only [Bool.or_eq_true, Bool.not_eq_true', not_or, Bool.not_eq_false,
        Bool.not_eq_true] at hrefuse
      exact ⟨hrefuse.2, hi.feeds hrefuse.1, hi.thread (Or.inl hrefuse.1)⟩
  cases p <;> simp only [startRecordingStep, Option.some.injEq, Prod.mk.injEq] at h
  case test => exact absurd hA id
  case create =>
      obtain ⟨rfl, rfl⟩ := h
      exact hA
  case startRecorder =>
      cases hr : w.recorder with
      | none =>
          rw [hr] at h
          cases h
          trivial
      | some r =>
          rw [hr] at h
          rcases hst : r.start o.recorder w.cfg f true with ⟨r', e | ok⟩ <;> simp only [hst] at h
          · cases h
            exact .of_silent hA.1 hA.2.1 hA.2.2
          · cases ok with
            | false =>
                cases h
                exact .of_silent hA.1 hA.2.1 hA.2.2
            | true =>
                cases h
                refine ⟨hA, fun r'' hr'' => ?_⟩
                cases hr''
                have hidle : r.state = .idle := by
                  by_contra hne
                  rw [Recorder.start, if_pos hne] at hst
                  cases hst
                have hcfg := (Recorder.start_sw_of_ok o.recorder w.cfg f hidle
                  (by rw [hst])).2
                rw [hst] at hcfg
                exact hcfg
  case setFile =>
      obtain ⟨rfl, rfl⟩ := h
      exact hA
  case setRecording =>
      obtain ⟨rfl, rfl⟩ := h
      exact ⟨fun _ => hA.1.2.2, fun _ => hA.1.2.1, fun _ _ => hA.2⟩

/-! ### Switches and starts at work -/

namespace Clients

/-- A `set_resolution` is past the test of `running_` in its `stop`. -/
def Switches : Pc → Prop
  | .setResolution _ .testRecording => False
  | .setResolution _ (.stopRecording _) => False
  | .setResolution _ (.stop p) => p ≠ .test
  | .setResolution _ .setCfg => True
  | .setResolution _ (.start _) => True
  | _ => False

/-- A `start_recording` is past its test of `running_` and `recording_`. -/
def Starts : Pc → Prop
  | .start _ p => p ≠ .test
  | _ => False

/-- A switch tests `running_` while no other switch and no start of a recording is at work, and a
start tests it while no switch is. -/
def KeepApart (s : State) : Step → Prop
  | .run c _ =>
      (∀ cfg, s.pc c = .setResolution cfg (.stop .test) →
        ∀ d, ¬ Switches (s.pc d) ∧ ¬ Starts (s.pc d)) ∧
      (∀ f, s.pc c = .start f .test → ∀ d, ¬ Switches (s.pc d))
  | .env _ => True

/-- The recorder was started with the numbers of the pipeline that feeds it. -/
def Fed (s : State) : Prop :=
  s.shared.recording = true → s.shared.running = true →
    ∃ p, s.shared.pipeline = some p ∧ ∀ r, s.shared.recorder = some r →
      r.cfg.width = p.cfg.width ∧ r.cfg.height = p.cfg.height ∧ r.cfg.fps = p.cfg.fps

/-- The switch or the start that is at work. -/
def feedRegion : Region Server Pc where
  In p := Switches p ∨ Starts p
  A
    | .setResolution _ p, s => SwitchA p s.toWorld
    | .start _ p, s => BeginA p s.toWorld
    | _, _ => False
  Q s := InStep s.toWorld

lemma feedRegion_quieter {s t : Server} (h : Quieter s.toWorld t.toWorld) :
    (feedRegion.Q s → feedRegion.Q t) ∧
      ∀ q, feedRegion.In q → feedRegion.A q s → feedRegion.A q t := by
  refine ⟨h.inStep, fun q _ hA => ?_⟩
  cases q with
  | setResolution cfg p => exact SwitchA.quieter hA h
  | start f p => exact BeginA.quieter hA h
  | _ => exact absurd hA id

/-- A step of `stop_recording` in the pool. -/
lemma stopRecording_quieter {into : StopRecordingPc → Pc} {k : Bool → Pc} {o : Choice}
    {p : StopRecordingPc} {s t : Server} {q : Pc}
    (h : onWorld (stepCall stopRecordingStep into k o p) s = some (t, q)) :
    Quieter s.toWorld t.toWorld ∧ ((∃ p', q = into p') ∨ ∃ r, q = k r) := by
  obtain ⟨w, p', hbody, rfl, rfl⟩ | ⟨w, r, hbody, rfl, rfl⟩ | ⟨rfl, rfl⟩ :=
    onWorld_stepCall_cases h
  · exact ⟨stopRecordingStep_quieter hbody, Or.inl ⟨p', rfl⟩⟩
  · exact ⟨stopRecordingStep_quieter hbody, Or.inr ⟨r, rfl⟩⟩
  · exact ⟨.of_same rfl, Or.inl ⟨p, rfl⟩⟩

/-- The call of `set_resolution`, up to the test in its `stop()`, starts nothing. -/
lemma idle_setResolution {a : Command × Choice} {cfg : ResolutionConfig} {p : SetResolutionPc}
    {q : Pc} {s t : Server} (hout : ¬ feedRegion.In (.setResolution cfg p))
    (h : program a (.setResolution cfg p) s = some (t, q)) :
    Quieter s.toWorld t.toWorld ∧ (p = .stop .test ∨ ¬ feedRegion.In q) := by
  cases p with
  | testRecording =>
      obtain ⟨w, hcall, rfl⟩ := onWorld_eq_some h
      cases hrec : s.recording <;> simp [stepCall, setResolutionStep, hrec] at hcall <;>
        obtain ⟨rfl, rfl⟩ := hcall <;> refine ⟨.of_same rfl, Or.inr ?_⟩ <;> rintro (hq | hq)
      · exact hq rfl
      all_goals exact hq
  | stopRecording p =>
      obtain ⟨w, p', hbody, rfl, rfl⟩ | ⟨w, r, hbody, -, -⟩ | ⟨rfl, rfl⟩ :=
        onWorld_stepCall_cases h
      · obtain ⟨⟨v, m⟩, hstep, hland⟩ := Option.map_eq_some_iff.mp hbody
        have hq := stopRecordingStep_quieter hstep
        cases m <;> cases hland <;> refine ⟨hq, Or.inr ?_⟩ <;> rintro (hq | hq)
        · exact hq
        · exact hq
        · exact hq rfl
        · exact hq
      · obtain ⟨⟨v, m⟩, hstep, hland⟩ := Option.map_eq_some_iff.mp hbody
        cases m <;> cases hland
      · exact ⟨.of_same rfl, Or.inr hout⟩
  | stop p =>
      obtain rfl : p = .test := by
        by_contra hne
        exact hout (Or.inl hne)
      refine ⟨?_, Or.inl rfl⟩
      obtain ⟨w, hcall, rfl⟩ := onWorld_eq_some h
      cases hrun : s.running <;> simp [stepCall, setResolutionStep, stopStep, hrun] at hcall <;>
        obtain ⟨rfl, -⟩ := hcall <;> exact .of_same rfl
  | setCfg => exact absurd (Or.inl trivial) hout
  | start p => exact absurd (Or.inl trivial) hout

/-- Outside the region, a call of `start_recording` is at its test, and starts nothing there. -/
lemma idle_start {a : Command × Choice} {f : Bytes} {p : StartRecordingPc} {q : Pc} {s t : Server}
    (hout : ¬ feedRegion.In (.start f p)) (h : program a (.start f p) s = some (t, q)) :
    Quieter s.toWorld t.toWorld ∧ p = .test := by
  obtain rfl : p = .test := by
    by_contra hne
    exact hout (Or.inr hne)
  refine ⟨?_, rfl⟩
  obtain ⟨w, hcall, rfl⟩ := onWorld_eq_some h
  obtain ⟨p', hbody, -⟩ | ⟨r, hbody, -⟩ | ⟨rfl, -⟩ := stepCall_cases hcall
  · simp only [startRecordingStep, Option.some.injEq, Prod.mk.injEq] at hbody
    obtain ⟨rfl, -⟩ := hbody
    exact .of_same rfl
  · simp only [startRecordingStep, Option.some.injEq, Prod.mk.injEq] at hbody
    obtain ⟨rfl, -⟩ := hbody
    exact .of_same rfl
  · exact .of_same rfl

/-- A client that is not at work starts nothing.  It stays so, unless it takes one of the two
tests. -/
lemma idle_act {a : Command × Choice} {p q : Pc} {s t : Server}
    (hout : ¬ feedRegion.In p) (h : act a p s = some (t, q)) :
    Quieter s.toWorld t.toWorld ∧ ((∃ cfg, p = .setResolution cfg (.stop .test)) ∨
      (∃ f, p = .start f .test) ∨ ¬ feedRegion.In q) := by
  have hfree : ∀ {q : Pc}, (Switches q ∨ Starts q → False) → ¬ feedRegion.In q := id
  replace h := program_of_act h
  cases p
  case setResolution cfg p =>
      obtain ⟨hq, rfl | hout'⟩ := idle_setResolution hout h
      · exact ⟨hq, Or.inl ⟨cfg, rfl⟩⟩
      · exact ⟨hq, Or.inr (Or.inr hout')⟩
  case start f p =>
      obtain ⟨hq, rfl⟩ := idle_start hout h
      exact ⟨hq, Or.inr (Or.inl ⟨f, rfl⟩)⟩
  case restart p =>
      obtain ⟨hq, ⟨p', rfl⟩ | ⟨r, rfl⟩⟩ := stopRecording_quieter h <;>
        exact ⟨hq, Or.inr (Or.inr (hfree (by rintro (h | h) <;> exact h)))⟩
  case stop f dur p =>
      obtain ⟨hq, ⟨p', rfl⟩ | ⟨r, rfl⟩⟩ := stopRecording_quieter h <;>
        exact ⟨hq, Or.inr (Or.inr (hfree (by rintro (h | h) <;> exact h)))⟩
  case idle =>
      cases h
      refine ⟨.of_same rfl, Or.inr (Or.inr (hfree ?_))⟩
      cases a.1 <;> rintro (h | h) <;> exact h
  case lockCfg cfg =>
      obtain ⟨-, rfl, rfl⟩ := lockRes_eq_some h
      exact ⟨.of_same rfl, Or.inr (Or.inr (hfree (by rintro (h | h) <;> exact h)))⟩
  case lock msg =>
      obtain ⟨-, rfl, rfl⟩ := lockRes_eq_some h
      exact ⟨.of_same rfl, Or.inr (Or.inr (hfree (by rintro (h | h) <;> exact h)))⟩
  case name msg =>
      simp only [program] at h
      split at h <;> cases h
      · refine ⟨.of_same rfl, Or.inr (Or.inr (hfree ?_))⟩
        rintro (h | h)
        · exact h
        · exact h rfl
      · exact ⟨.of_same rfl, Or.inr (Or.inr (hfree (by rintro (h | h) <;> exact h)))⟩
  case testStart msg =>
      cases h
      refine ⟨.of_same rfl, Or.inr (Or.inr (hfree ?_))⟩
      split_ifs <;> rintro (h | h) <;> exact h
  case testStop =>
      cases h
      refine ⟨.of_same rfl, Or.inr (Or.inr (hfree ?_))⟩
      split_ifs <;> rintro (h | h) <;> exact h
  all_goals
    cases h
    exact ⟨.of_same rfl, Or.inr (Or.inr (hfree (by rintro (h | h) <;> exact h)))⟩

lemma switches_of_switchA {cfg : ResolutionConfig} {p : SetResolutionPc} {w : World}
    (h : SwitchA p w) : Switches (.setResolution cfg p) := by
  rcases p with _ | _ | p | _ | p
  · exact absurd h id
  · exact absurd h id
  · cases p
    case test => exact absurd h id
    all_goals exact StopPc.noConfusion
  · trivial
  · trivial

/-- From the test of `running_` on, a step of a switch leads to the next assertion, or to a source
that is in step. -/
lemma switch_act {a : Command × Choice} {cfg : ResolutionConfig} {p : SetResolutionPc}
    {s t : Server} {q : Pc} (hA : (p = .stop .test ∧ InStep s.toWorld) ∨ SwitchA p s.toWorld)
    (h : act a (.setResolution cfg p) s = some (t, q)) :
    (∃ p', q = .setResolution cfg p' ∧ SwitchA p' t.toWorld) ∨ (q = .idle ∧ InStep t.toWorld) ∨
      (q = .setResolution cfg p ∧ Quieter s.toWorld t.toWorld) := by
  replace h := program_of_act h
  have hstop : ∀ {sp}, p = .stop sp →
      (sp = .test ∧ InStep s.toWorld) ∨ SwitchA (.stop sp) s.toWorld := by
    rintro sp rfl
    exact hA.imp_left fun hi => ⟨by simpa using hi.1, hi.2⟩
  obtain ⟨w, p', hbody, rfl, rfl⟩ | ⟨w, r, hbody, rfl, rfl⟩ | ⟨rfl, rfl⟩ :=
    onWorld_stepCall_cases h
  · cases p with
    | testRecording => simp [SwitchA] at hA
    | stopRecording p => simp [SwitchA] at hA
    | stop p =>
        obtain ⟨⟨v, m⟩, hstep, hland⟩ := Option.map_eq_some_iff.mp hbody
        have hsat := stopStep_feed (hstop rfl) hstep
        cases m <;> cases hland
        · exact Or.inl ⟨_, rfl, hsat⟩
        · exact Or.inl ⟨_, rfl, hsat⟩
    | setCfg =>
        cases hbody
        exact Or.inl ⟨_, rfl, hA.resolve_left (by simp)⟩
    | start p =>
        obtain ⟨⟨v, m⟩, hstep, hland⟩ := Option.map_eq_some_iff.mp hbody
        have hsat := startStep_feed (hA.resolve_left (by simp)) hstep
        cases m <;> cases hland
        exact Or.inl ⟨_, rfl, hsat⟩
  · obtain ⟨p', rfl, hstep⟩ := setResolutionStep_ret hbody
    have hsat := startStep_feed (hA.resolve_left (by simp)) hstep
    exact Or.inr (Or.inl ⟨rfl, hsat⟩)
  · exact Or.inr (Or.inr ⟨rfl, .of_same rfl⟩)

/-- The same for a step of the start of a recording. -/
lemma start_act {a : Command × Choice} {f : Bytes} {p : StartRecordingPc} {s t : Server} {q : Pc}
    (hA : (p = .test ∧ InStep s.toWorld) ∨ BeginA p s.toWorld)
    (h : act a (.start f p) s = some (t, q)) :
    (∃ p', q = .start f p' ∧ BeginA p' t.toWorld) ∨ (q = .unlock ∧ InStep t.toWorld) ∨
      (q = .start f p ∧ Quieter s.toWorld t.toWorld) := by
  replace h := program_of_act h
  obtain ⟨w, p', hbody, rfl, rfl⟩ | ⟨w, r, hbody, rfl, rfl⟩ | ⟨rfl, rfl⟩ :=
    onWorld_stepCall_cases h
  · exact Or.inl ⟨p', rfl, startRecordingStep_feed hA hbody⟩
  · exact Or.inr (Or.inl ⟨rfl, startRecordingStep_feed hA hbody⟩)
  · exact Or.inr (Or.inr ⟨rfl, .of_same rfl⟩)

lemma around_quieter {e : Env} {s t : Server} (h : around e s = some t) :
    Quieter s.toWorld t.toWorld := by
  obtain ⟨-, hsame | hexit | ⟨m, -, hw⟩⟩ := around_cases h
  · rw [hsame]
    exact .of_same rfl
  · exact .of_exit hexit
  · exact .of_message hw

lemma in_of_begin {f : Bytes} {p : StartRecordingPc} {w : World} (h : BeginA p w) :
    feedRegion.In (.start f p) := by
  refine Or.inr fun hp => ?_
  rw [hp] at h
  exact h

lemma feedRegion_guarded :
    feedRegion.Guarded clients ℕ KeepApart where
  init := by
    rintro s ⟨cfg, rfl⟩
    exact .of_silent rfl ⟨_, rfl, rfl⟩ rfl
  start := by
    rintro (h | h) <;> exact h
  enter := by
    intro s c a t q hs hC hheld hact hout hin
    obtain ⟨-, ⟨cfg, hpc⟩ | ⟨f, hpc⟩ | hout'⟩ := idle_act hout hact
    · refine ⟨fun d => ?_, fun hQ => ?_⟩
      · rintro (hd | hd)
        · exact (hC.1 cfg hpc d).1 hd
        · exact (hC.1 cfg hpc d).2 hd
      · rw [hpc] at hact hout
        obtain ⟨p', rfl, hA⟩ | ⟨rfl, -⟩ | ⟨rfl, -⟩ := switch_act (Or.inl ⟨rfl, hQ⟩) hact
        · exact hA
        · obtain hin | hin := hin <;> exact absurd hin id
        · exact absurd hin hout
    · have hapart := hC.2 f hpc
      refine ⟨fun d => ?_, fun hQ => ?_⟩
      · rintro (hd | hd)
        · exact hapart d hd
        · -- a start at work would hold the mutex too
          have hdc : d = c := by
            refine mutex_held hs d c ?_ (by rw [hpc]; trivial)
            cases hpd : s.pc d with
            | start f' p => trivial
            | _ =>
                rw [hpd] at hd
                exact absurd hd id
          rw [hdc, hpc] at hd
          exact hd rfl
      · rw [hpc] at hact hout
        obtain ⟨p', rfl, hA⟩ | ⟨rfl, -⟩ | ⟨rfl, -⟩ := start_act (Or.inl ⟨rfl, hQ⟩) hact
        · exact hA
        · obtain hin | hin := hin <;> exact absurd hin id
        · exact absurd hin hout
    · exact absurd hin hout'
  within := by
    intro s c a t q hs hC hact hin hA
    cases hpc : s.pc c with
    | setResolution cfg p =>
        rw [hpc] at hact hin hA
        obtain ⟨p', rfl, hA'⟩ | ⟨rfl, hi⟩ | ⟨rfl, hquiet⟩ := switch_act (Or.inr hA) hact
        · exact ⟨fun _ => hA', fun hout => absurd (Or.inl (switches_of_switchA hA')) hout⟩
        · refine ⟨fun hin' => ?_, fun _ => hi⟩
          obtain hin' | hin' := hin' <;> exact absurd hin' id
        · exact ⟨fun _ => (feedRegion_quieter hquiet).2 _ hin hA, fun hout => absurd hin hout⟩
    | start f p =>
        rw [hpc] at hact hin hA
        obtain ⟨p', rfl, hA'⟩ | ⟨rfl, hi⟩ | ⟨rfl, hquiet⟩ := start_act (Or.inr hA) hact
        · exact ⟨fun _ => hA', fun hout => absurd (in_of_begin hA') hout⟩
        · refine ⟨fun hin' => ?_, fun _ => hi⟩
          obtain hin' | hin' := hin' <;> exact absurd hin' id
        · exact ⟨fun _ => (feedRegion_quieter hquiet).2 _ hin hA, fun hout => absurd hin hout⟩
    | _ =>
        rw [hpc] at hin
        obtain hin | hin := hin <;> exact absurd hin id
  outside := by
    intro s c a t q hs hC hact hout hout'
    exact feedRegion_quieter (idle_act hout hact).1
  env := by
    intro s e t hs hC henv
    exact feedRegion_quieter (around_quieter (around_of_env henv))

/-- A source in step feeds its recorder. -/
lemma fed_of_inStep {s : State} (h : InStep s.shared.toWorld) : Fed s := by
  intro hrec hrun
  obtain ⟨p, hp, hcfg⟩ := h.feeds hrun
  refine ⟨p, hp, fun r hr => ?_⟩
  rw [h.same hrun hrec r hr, hcfg]
  exact ⟨rfl, rfl, rfl⟩

lemma fed_of_silent {s : State} (h : s.shared.recording = false) : Fed s := by
  intro hrec
  rw [h] at hrec
  cases hrec

lemma fed_of_idle {s : State} (h : Idle s.shared.toWorld) : Fed s := fed_of_inStep h.inStep

end Clients

open Clients

/-- **The recorder has the numbers of the pipeline that feeds it** as long as switches keep apart
from each other and from the starts of recordings. -/
theorem recording_fed {s : Clients.State}
    (h : (clients.system ℕ).Reach KeepApart s) : Fed s := by
  have hheld := feedRegion_guarded.held h
  by_cases hin : ∃ c, feedRegion.In (s.pc c)
  · obtain ⟨c, hc⟩ := hin
    have hA := hheld.inside c hc
    cases hpc : s.pc c with
    | setResolution cfg p =>
        rw [hpc] at hA
        rcases p with _ | _ | p | _ | p
        · exact absurd hA id
        · exact absurd hA id
        · rcases p with _ | _ | p | _ | _ | _ | _ | _ | _ | _ | _ | _ | _ | _
          case test => exact absurd hA id
          case testRecording => exact fed_of_inStep hA
          case stopRecording =>
              cases p
              case test => exact fed_of_inStep hA
              case clear => exact fed_of_inStep hA
              all_goals exact fed_of_silent hA
          case clearRunning => exact fed_of_silent hA
          all_goals exact fed_of_silent hA.2
        · exact fed_of_idle hA
        · cases p
          case test => exact fed_of_idle hA
          case parseLaunch => exact fed_of_idle hA
          case setRunning => exact fed_of_silent hA.1
          case clearAbortBus => exact fed_of_silent hA.1
          case spawnBusThread => exact fed_of_silent hA.1
          all_goals exact fed_of_idle hA.1
    | start f p =>
        rw [hpc] at hA
        cases p with
        | test => exact absurd hA id
        | create => exact fed_of_silent hA.1
        | startRecorder => exact fed_of_silent hA.1
        | setFile => exact fed_of_silent hA.1.1
        | setRecording => exact fed_of_silent hA.1.1
    | _ =>
        rw [hpc] at hc
        obtain hc | hc := hc <;> exact absurd hc id
  · exact fed_of_inStep (hheld.empty fun c hc => hin ⟨c, hc⟩)

namespace Clients

lemma keepApart_of_solo {s : State} {e : Step} (hsolo : Solo clients 0 s)
    (h : e.by 0 = true) : KeepApart s e := by
  cases e with
  | run c a =>
      obtain rfl : c = 0 := by simpa [Event.by] using h
      refine ⟨fun cfg hpc d => ?_, fun f hpc d => ?_⟩
      · by_cases hd : d = 0
        · rw [hd, hpc]
          exact ⟨fun hs => hs rfl, id⟩
        · rw [hsolo d hd]
          exact ⟨id, id⟩
      · by_cases hd : d = 0
        · rw [hd, hpc]
          exact id
        · rw [hsolo d hd]
          exact id
  | env e => trivial

/-- A client records, switches the resolution, and records again. -/
def recordSwitchRecord : List Step :=
  steps 0 10 (.recordStart (.object [])) ++ steps 0 5 (.setResolution 640 480) ++ switch 0 ++
    steps 0 10 (.recordStart (.object []))

end Clients

/-- After the switch the second recording is fed by the new pipeline. -/
theorem recording_fed_after_switch :
    ∃ s, (clients.system ℕ).exec (fun _ e => e.by 0) initial recordSwitchRecord = some s ∧
      (s.shared.recording = true ∧ s.shared.running = true) ∧ Fed s := by
  have hrun : ((clients.system ℕ).exec (fun _ e => e.by 0) initial recordSwitchRecord).map
      (fun s => (s.shared.recording, s.shared.running)) = some (true, true) := by decide
  obtain ⟨s, hs, hend⟩ := Option.map_eq_some_iff.mp hrun
  exact ⟨s, hs, Prod.mk.inj hend, recording_fed (Solo.reach (fun _ _ => id)
    (fun _ _ => keepApart_of_solo) ⟨⟨_, rfl⟩, fun _ => rfl⟩ hs)⟩

/-- Client 1 has given `res_mutex` back; it switches while client 0, which holds the mutex now, has
started its recorder and not yet set `recording_`. -/
def switchUnderStart : List Clients.Step :=
  steps 1 4 (.setResolution 640 480) ++ steps 0 8 (.recordStart (.object [])) ++
    steps 1 7 (.setResolution 640 480) ++ [.env .drainExit] ++
    steps 1 2 (.setResolution 640 480) ++ [.env .busExit] ++ steps 1 15 (.setResolution 640 480) ++
    steps 0 1 .recordStop

/-- A recorder that a switch overtakes keeps the configuration of the pipeline before. -/
theorem switch_under_start :
    ¬ ∀ s : Clients.State, (clients.system ℕ).Reach (fun _ _ => True) s → Fed s := by
  intro h
  have hrun : ((clients.system ℕ).exec (fun _ _ => true) initial switchUnderStart).map
      (fun s => (s.shared.recording, s.shared.running, s.shared.recorder.map (·.cfg.width),
        s.shared.pipeline.map (·.cfg.width))) = some (true, true, some 1280, some 640) := by
    decide
  obtain ⟨s, hs, hend⟩ := Option.map_eq_some_iff.mp hrun
  simp only [Prod.mk.injEq, Option.map_eq_some_iff] at hend
  obtain ⟨hrec, hrun, ⟨r, hr, hrw⟩, ⟨p, hp, hpw⟩⟩ := hend
  have hreach : (clients.system ℕ).Reach (fun _ _ => True) s :=
    .of_exec_check (fun _ _ _ => trivial) ⟨⟨_, rfl⟩, fun _ => rfl⟩ hs
  obtain ⟨p', hp', hfed⟩ := h s hreach hrec hrun
  rw [hp] at hp'
  cases hp'
  have hwidth := (hfed r hr).1
  rw [hrw, hpw] at hwidth
  exact absurd hwidth (by decide)

end RasPiZeroCam
