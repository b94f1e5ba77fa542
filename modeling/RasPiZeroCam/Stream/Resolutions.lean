import RasPiZeroCam.Stream.Clients

/-!
The `set_resolution` command from any number of clients, its handler in two steps: `cfg_ptr` is
pointed to the new configuration, then the source is switched to it.

* `execAlone`: a method of the source run while no other client is in one.
  `setResolution_sets_cfg`: a `set_resolution` that returns has set `cfg_`.
* `resolutions`: the pool of the handlers.  `InAgreement`: what `get_status` reports is what the
  source holds.
* `resolution_agrees`: they agree whenever no handler is between its steps, in every run in which no
  switch is overtaken (`NotOvertaken`).  `overtaken_disagrees`: a switch that is overtaken makes
  them disagree.
-/

namespace RasPiZeroCam

open Transition Pool

/-! ### A method, run alone -/

/-- A thread of the source returns, if one has been told to. -/
def threadExit (w : World) : Option World := w.drainExit.or w.busExit

/-- Run a method from a program point, for at most `n` steps; where it waits for a thread of the
source, that thread returns. -/
def execAlone {π ρ : Type} (body : Body World Choice π ρ) (o : Choice) :
    ℕ → π → World → Option (World × ρ)
  | 0, _, _ => none
  | n + 1, p, w =>
      match body o p w with
      | some (w, .goto p) => execAlone body o n p w
      | some (w, .ret r) => some (w, r)
      | some (_, .crash) => none
      | none => (threadExit w).bind fun w => execAlone body o n p w

/-- A proof outline that the threads of the source leave alone leads to its result. -/
lemma execAlone_of_outline {π ρ : Type} {K : Prop} {body : Body World Choice π ρ} {o : Choice}
    {A : π → World → Prop} {R : ρ → World → Prop}
    (hout : Outline K body (fun _ _ => True) A R)
    (hexit : ∀ p w w', A p w → ThreadExit w w' → A p w') {n : ℕ} {p : π} {w w' : World} {r : ρ}
    (hA : A p w) (h : execAlone body o n p w = some (w', r)) : R r w' := by
  induction n generalizing p w with
  | zero => cases h
  | succ n ih =>
      rw [execAlone] at h
      split at h
      · next v q hbody => exact ih (hout o p w v _ trivial hA hbody) h
      · next v x hbody =>
        cases h
        exact hout o p w _ _ trivial hA hbody
      · cases h
      · obtain ⟨v, hv, hrun⟩ := Option.bind_eq_some_iff.mp h
        exact ih (hexit p w v hA (Option.or_eq_some_iff.mp hv |>.imp id And.right)) hrun

/-- The source holds the configuration as soon as `set_resolution` has assigned it. -/
def SetsCfg (cfg : ResolutionConfig) : SetResolutionPc → World → Prop
  | .start _, w => w.cfg = cfg
  | _, _ => True

lemma start_keeps_cfg (cfg : ResolutionConfig) :
    Outline True startStep (fun _ _ => True) (fun _ w => w.cfg = cfg) fun _ w => w.cfg = cfg := by
  rintro o p w w' n - hcfg hstep
  cases p with
  | parseLaunch =>
      cases hp : o.parse <;> simp only [startStep, hp] at hstep <;> cases hstep <;> exact hcfg
  | getElements =>
      simp only [startStep] at hstep
      split_ifs at hstep <;> cases hstep <;> exact hcfg
  | setPlaying =>
      simp only [startStep] at hstep
      split_ifs at hstep <;> cases hstep <;> exact hcfg
  | spawnRecThread =>
      simp only [startStep] at hstep
      split_ifs at hstep <;> cases hstep
      · trivial
      · exact hcfg
  | spawnBusThread =>
      simp only [startStep] at hstep
      split_ifs at hstep <;> cases hstep
      · trivial
      · exact hcfg
  | test =>
      cases hrun : w.running <;> simp only [startStep, hrun] at hstep <;> cases hstep <;> exact hcfg
  | clearAbortRec =>
      cases hstep
      exact hcfg
  | setRunning =>
      cases hstep
      exact hcfg
  | clearAbortBus =>
      cases hstep
      exact hcfg

lemma setResolution_keeps (cfg : ResolutionConfig) :
    Outline True (setResolutionStep cfg) (fun _ _ => True) (SetsCfg cfg)
      fun _ w => w.cfg = cfg := by
  rintro o p w w' n - hA hstep
  cases p with
  | testRecording =>
      cases hstep
      cases w.recording <;> trivial
  | stopRecording p =>
      obtain ⟨⟨v, m⟩, -, hland⟩ := Option.map_eq_some_iff.mp hstep
      cases m <;> cases hland <;> trivial
  | stop p =>
      obtain ⟨⟨v, m⟩, -, hland⟩ := Option.map_eq_some_iff.mp hstep
      cases m <;> cases hland <;> trivial
  | setCfg =>
      cases hstep
      rfl
  | start p =>
      obtain ⟨⟨v, m⟩, hbody, hland⟩ := Option.map_eq_some_iff.mp hstep
      cases hland
      have hsat := start_keeps_cfg cfg o p w v m trivial hA hbody
      exact Next.Sat.call hsat (fun _ hp => hp) fun _ hr => hr

lemma threadExit_cfg {w w' : World} (h : ThreadExit w w') : w'.cfg = w.cfg := by
  obtain ⟨-, rfl⟩ | ⟨-, rfl⟩ := h.cases <;> rfl

/-- **`set_resolution` sets `cfg_`**, whatever it returns. -/
theorem setResolution_sets_cfg {cfg : ResolutionConfig} {o : Choice} {n : ℕ} {w w' : World}
    {r : Bool} (h : execAlone (setResolutionStep cfg) o n .testRecording w = some (w', r)) :
    w'.cfg = cfg := by
  have hA : SetsCfg cfg .testRecording w := trivial
  refine execAlone_of_outline (setResolution_keeps cfg) ?_ hA h
  intro p w w' hA hexit
  cases p with
  | start p => exact (threadExit_cfg hexit).trans hA
  | testRecording => trivial
  | stopRecording p => trivial
  | stop p => trivial
  | setCfg => trivial

/-! ### The handlers -/

/-- Where the handler of a client is. -/
inductive SwitchPc where
  | idle
  | switch (cfg : ResolutionConfig)    -- `cfg_ptr` is set; `gst_cam.set_resolution(cfg)` comes next
  deriving DecidableEq

/-- The message of a client, and what the calls underneath answer. -/
structure SwitchMessage where
  width : UInt32
  height : UInt32
  choice : Choice

/-- The two steps of the `set_resolution` handler, the second with as many statements as it
takes. -/
def switchStep (a : SwitchMessage × ℕ) : SwitchPc → Server → Option (Server × SwitchPc)
  | .idle, s =>
      let cfg := configOf (matchPreset a.1.width a.1.height)
      some ({ s with cfgPtr := cfg }, .switch cfg)
  | .switch cfg, s =>
      (execAlone (setResolutionStep cfg) a.1.choice a.2 .testRecording s.toWorld).map fun r =>
        ({ s with toWorld := r.1 }, .idle)

/-- The handlers of `set_resolution`, the main loop and the source's threads. -/
def resolutions : Pool Server SwitchPc (SwitchMessage × ℕ) Clients.Env where
  init s := ∃ cfg, s = Clients.running cfg
  start := .idle
  act := switchStep
  env := Clients.env

/-- `get_status` reports the configuration that the source holds. -/
def InAgreement (s : Server) : Prop := s.cfgPtr = s.cfg

variable {ι : Type*} [DecidableEq ι]

/-- A client switches the source to a configuration that `cfg_ptr` does not point to only while
another client is about to switch it to the one that `cfg_ptr` points to. -/
def NotOvertaken (s : Config ι Server SwitchPc) :
    Event ι (SwitchMessage × ℕ) Clients.Env → Prop
  | .run c _ => ∀ cfg, s.pc c = .switch cfg → cfg ≠ s.shared.cfgPtr →
      ∃ d, d ≠ c ∧ s.pc d = .switch s.shared.cfgPtr
  | .env _ => True

namespace Resolutions

variable {s s' : Config ι Server SwitchPc}

/-- The source holds the configuration of `cfg_ptr`, or is about to. -/
def Settling (s : Config ι Server SwitchPc) : Prop :=
  (∃ c, s.pc c = .switch s.shared.cfgPtr) ∨ InAgreement s.shared

/-- The source holds another configuration, and nobody is about to change that. -/
def Lost (s : Config ι Server SwitchPc) : Prop :=
  (∀ c, s.pc c ≠ .switch s.shared.cfgPtr) ∧ ¬ InAgreement s.shared

lemma switchStep_switch {a : SwitchMessage × ℕ} {cfg : ResolutionConfig} {w w' : Server}
    {p : SwitchPc} (h : switchStep a (.switch cfg) w = some (w', p)) :
    p = .idle ∧ w'.cfg = cfg ∧ w'.cfgPtr = w.cfgPtr := by
  obtain ⟨r, hr, hland⟩ := Option.map_eq_some_iff.mp h
  cases hland
  exact ⟨rfl, setResolution_sets_cfg hr, rfl⟩

lemma env_keeps {e : Clients.Env} {w w' : Server} (h : Clients.env e w = some w') :
    w'.cfgPtr = w.cfgPtr ∧ w'.cfg = w.cfg := by
  replace h := Clients.around_of_env h
  cases e with
  | signal =>
      cases h
      exact ⟨rfl, rfl⟩
  | poll =>
      rw [Clients.around] at h
      split_ifs at h
      cases h
      exact ⟨rfl, rfl⟩
  | drainExit =>
      obtain ⟨v, hv, rfl⟩ := Option.map_eq_some_iff.mp h
      exact ⟨rfl, threadExit_cfg (Or.inl hv)⟩
  | busExit =>
      obtain ⟨v, hv, rfl⟩ := Option.map_eq_some_iff.mp h
      exact ⟨rfl, threadExit_cfg (Or.inr hv)⟩
  | message m =>
      obtain ⟨v, hv, rfl⟩ := Option.map_eq_some_iff.mp h
      obtain ⟨-, rfl | rfl⟩ := busMessage_cases hv <;> exact ⟨rfl, rfl⟩

/-- A switch that overtakes nobody leaves the source settling. -/
lemma Settling.step {e : Event ι (SwitchMessage × ℕ) Clients.Env} (h : Settling s)
    (hC : NotOvertaken s e) (hstep : (resolutions.system ι).step s e = some s') : Settling s' := by
  cases e with
  | run c a =>
      obtain ⟨w, p, hact, rfl⟩ := step_run_iff.mp hstep
      cases hpc : s.pc c with
      | idle =>
          rw [hpc] at hact
          cases hact
          exact Or.inl ⟨c, Function.update_self _ _ _⟩
      | switch cfg =>
          rw [hpc] at hact
          obtain ⟨rfl, hcfg, hptr⟩ := switchStep_switch hact
          by_cases heq : cfg = s.shared.cfgPtr
          · exact Or.inr (by rw [InAgreement, hptr, hcfg, heq])
          · obtain ⟨d, hd, hdpc⟩ := hC cfg hpc heq
            refine Or.inl ⟨d, ?_⟩
            dsimp only
            rw [Function.update_of_ne hd, hdpc, hptr]
  | env e =>
      obtain ⟨w, henv, rfl⟩ := step_env_iff.mp hstep
      obtain ⟨hptr, hcfg⟩ := env_keeps henv
      rw [Settling, InAgreement] at h ⊢
      dsimp only
      rwa [hptr, hcfg]

/-- `c` is done, and nobody else switches to `m`. -/
lemma nobody_of_done {pc : ι → SwitchPc} {c : ι} {m : ResolutionConfig}
    (hothers : ∀ d, d ≠ c → pc d ≠ .switch m) (d : ι) :
    Function.update pc c .idle d ≠ .switch m := by
  by_cases hdc : d = c
  · rw [hdc, Function.update_self]
    intro heq
    cases heq
  · rw [Function.update_of_ne hdc]
    exact hothers d hdc

/-- A switch that overtakes another one leaves the source with the wrong configuration. -/
lemma lost_of_overtaken {e : Event ι (SwitchMessage × ℕ) Clients.Env}
    (hC : ¬ NotOvertaken s e) (hstep : (resolutions.system ι).step s e = some s') : Lost s' := by
  cases e with
  | run c a =>
      obtain ⟨w, p, hact, rfl⟩ := step_run_iff.mp hstep
      simp only [NotOvertaken, not_forall, not_exists, not_and] at hC
      obtain ⟨cfg, hpc, hne, hothers⟩ := hC
      rw [hpc] at hact
      obtain ⟨rfl, hcfg, hptr⟩ := switchStep_switch hact
      refine ⟨hptr ▸ nobody_of_done hothers, ?_⟩
      rw [InAgreement, hptr, hcfg]
      exact Ne.symm hne
  | env e => exact absurd trivial hC

/-- No client sends another command. -/
def NoCommand (s : Config ι Server SwitchPc) : Event ι (SwitchMessage × ℕ) Clients.Env → Prop
  | .run c _ => s.pc c ≠ .idle
  | .env _ => True

/-- Only a new command can help. -/
lemma Lost.step {e : Event ι (SwitchMessage × ℕ) Clients.Env} (h : Lost s) (hC : NoCommand s e)
    (hstep : (resolutions.system ι).step s e = some s') : Lost s' := by
  obtain ⟨hnobody, hne⟩ := h
  cases e with
  | run c a =>
      obtain ⟨w, p, hact, rfl⟩ := step_run_iff.mp hstep
      cases hpc : s.pc c with
      | idle => exact absurd hpc hC
      | switch cfg =>
          rw [hpc] at hact
          obtain ⟨rfl, hcfg, hptr⟩ := switchStep_switch hact
          refine ⟨hptr ▸ nobody_of_done fun d _ => hnobody d, ?_⟩
          rw [InAgreement, hptr, hcfg]
          rintro rfl
          exact hnobody c hpc
  | env e =>
      obtain ⟨w, henv, rfl⟩ := step_env_iff.mp hstep
      obtain ⟨hptr, hcfg⟩ := env_keeps henv
      rw [Lost, InAgreement] at *
      dsimp only
      rw [hptr, hcfg]
      exact ⟨hnobody, hne⟩

end Resolutions

open Resolutions

/-- **The two agree at rest**, in every run in which no switch is overtaken. -/
theorem resolution_agrees {s : Config ι Server SwitchPc}
    (h : (resolutions.system ι).Reach NotOvertaken s) (hidle : ∀ c, s.pc c = .idle) :
    InAgreement s.shared := by
  have hsettling : Settling s := by
    refine h.invariant Settling ?_ fun s e s' _ hs hC hstep => hs.step hC hstep
    rintro s ⟨⟨cfg, hcfg⟩, -⟩
    exact Or.inr (by rw [InAgreement, hcfg]; rfl)
  obtain ⟨c, hc⟩ | hagree := hsettling
  · rw [hidle c] at hc
    cases hc
  · exact hagree

/-- **A switch that is overtaken goes wrong**: the two disagree until another command is sent. -/
theorem overtaken_disagrees {s t u : Config ι Server SwitchPc}
    {e : Event ι (SwitchMessage × ℕ) Clients.Env} (hC : ¬ NotOvertaken s e)
    (hstep : (resolutions.system ι).step s e = some t)
    (h : ({ resolutions.system ι with init := (· = t) }).Reach NoCommand u) :
    ¬ InAgreement u.shared := by
  have hlost : Lost u := by
    refine h.invariant Lost ?_ ?_
    · rintro s rfl
      exact lost_of_overtaken hC hstep
    · intro s e s' _ hs hC hst
      exact hs.step hC hst
  exact hlost.2

namespace Resolutions

/-- Client `c` takes a step of the handler for a message with this size; nothing fails. -/
def switchTo (c : Bool) (width height : UInt32) :
    Event Bool (SwitchMessage × ℕ) Clients.Env :=
  .run c (⟨width, height, .good⟩, 40)

/-- `main` enters its loop, and no client has sent a command. -/
def initial : Config Bool Server SwitchPc := ⟨Clients.running (configOf .medium), fun _ => .idle⟩

/-- The executable form of `NotOvertaken` for two clients. -/
def notOvertaken (s : Config Bool Server SwitchPc) :
    Event Bool (SwitchMessage × ℕ) Clients.Env → Bool
  | .run c _ =>
      match s.pc c with
      | .idle => true
      | .switch cfg => cfg = s.shared.cfgPtr || s.pc (!c) = .switch s.shared.cfgPtr
  | .env _ => true

lemma notOvertaken_sound (s : Config Bool Server SwitchPc)
    (e : Event Bool (SwitchMessage × ℕ) Clients.Env) (h : notOvertaken s e = true) :
    NotOvertaken s e := by
  cases e with
  | run c a =>
      intro cfg hpc hne
      rw [notOvertaken, hpc] at h
      simp only [hne, decide_false, Bool.false_or, decide_eq_true_eq] at h
      exact ⟨!c, Bool.not_ne_self c, h⟩
  | env e => exact trivial

/-- Two clients switch, one after the other. -/
def inTurn : List (Event Bool (SwitchMessage × ℕ) Clients.Env) :=
  [switchTo false 640 480, switchTo true 1920 1080, switchTo false 640 480, switchTo true 1920 1080]

/-- Two clients switch, and the second one overtakes the first. -/
def overtaking : List (Event Bool (SwitchMessage × ℕ) Clients.Env) :=
  [switchTo false 640 480, switchTo true 1920 1080, switchTo true 1920 1080, switchTo false 640 480]

end Resolutions

/-- Two overlapping switches in turn: both copies end with the second one's preset. -/
theorem inTurn_agrees : ∃ s : Config Bool Server SwitchPc,
    (resolutions.system Bool).exec notOvertaken initial inTurn = some s ∧
      s.shared.cfg = configOf .high ∧ InAgreement s.shared := by
  obtain ⟨s, hs⟩ := Option.isSome_iff_exists.mp (by decide :
    ((resolutions.system Bool).exec notOvertaken initial inTurn).isSome)
  refine ⟨s, hs, ?_, resolution_agrees
    (.of_exec_check notOvertaken_sound ⟨⟨_, rfl⟩, fun _ => rfl⟩ hs) ?_⟩
  · cases hs
    rfl
  · cases hs
    intro c
    cases c <;> rfl

/-- One switch overtakes another: `get_status` reports HIGH, and the source holds LOW. -/
theorem overtaken_switch : ¬ ∀ s : Config Bool Server SwitchPc,
    (resolutions.system Bool).Reach (fun _ _ => True) s → (∀ c, s.pc c = .idle) →
      InAgreement s.shared := by
  intro hall
  obtain ⟨s, hs⟩ := Option.isSome_iff_exists.mp (by decide :
    ((resolutions.system Bool).exec (fun _ _ => true) initial overtaking).isSome)
  have hagree := hall s (.of_exec_check (fun _ _ _ => trivial) ⟨⟨_, rfl⟩, fun _ => rfl⟩ hs) (by
    cases hs
    intro c
    cases c <;> rfl)
  cases hs
  have hne : configOf .high ≠ configOf .low := by decide
  exact hne hagree

end RasPiZeroCam
