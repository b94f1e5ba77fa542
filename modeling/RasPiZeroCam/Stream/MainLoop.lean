import RasPiZeroCam.Stream.Clients

/-!
The main loop and the gap of a resolution switch.

* `InGap`: a client is between `running_ = false` in its `stop` and `running_ = true` in its
  `start`.
* `Steady`: nothing fails.  No stop signal, no ERROR or EOS, and every `start` succeeds.
* `main_loop_survives`: the main loop is never left along the steady runs in which it evaluates its
  condition outside every gap.
* `switch_leaves_loop`: a poll inside a gap leaves the loop and shuts the program down.
-/

namespace RasPiZeroCam

open Transition Pool

/-- `stop` has cleared `running_`. -/
def StopPc.cleared : StopPc → Bool
  | .test => false
  | .testRecording => false
  | .stopRecording _ => false
  | .clearRunning => false
  | _ => true

/-- `start` has not set `running_`. -/
def StartPc.unset : StartPc → Bool
  | .clearAbortBus => false
  | .spawnBusThread => false
  | _ => true

namespace Clients

/-- A `set_resolution` is between `running_ = false` and `running_ = true`. -/
def InGap : Pc → Bool
  | .setResolution _ (.stop p) => p.cleared
  | .setResolution _ .setCfg => true
  | .setResolution _ (.start p) => p.unset
  | _ => false

/-- Nothing fails: `start` does not return false, there is no stop signal, no ERROR, no EOS. -/
def Steady (s : State) : Step → Prop
  | .run c (_, o) => ∀ p w, startPoint (s.pc c) = some p →
      startStep o p s.shared.toWorld ≠ some (w, .ret false)
  | .env .signal => False
  | .env (.message m) => m = .warning
  | .env _ => True

/-- The main loop evaluates its condition outside every gap. -/
def PollsOutsideGaps (s : State) : Step → Prop
  | .env .poll => ∀ c, InGap (s.pc c) = false
  | _ => True

end Clients

open Clients

/-! ### What a call does to `running_` -/

lemma stopRecordingStep_running {o : Choice} {p : StopRecordingPc} {w w' : World}
    {n : Next StopRecordingPc Bool} (h : stopRecordingStep o p w = some (w', n)) :
    w'.running = w.running := by
  cases p <;> simp only [stopRecordingStep, Option.some.injEq, Prod.mk.injEq] at h
  case stopRecorder =>
      cases hr : w.recorder <;> rw [hr] at h <;> cases h <;> rfl
  all_goals
    obtain ⟨rfl, -⟩ := h
    rfl

lemma startRecordingStep_running {f : Bytes} {o : Choice} {p : StartRecordingPc} {w w' : World}
    {n : Next StartRecordingPc (Except Exception Bool)}
    (h : startRecordingStep f o p w = some (w', n)) : w'.running = w.running := by
  cases p <;> simp only [startRecordingStep, Option.some.injEq, Prod.mk.injEq] at h
  case startRecorder =>
      cases hr : w.recorder <;> rw [hr] at h
      case none =>
          cases h
          rfl
      case some r =>
          rcases hst : r.start o.recorder w.cfg f true with ⟨r', e | ok⟩ <;> simp only [hst] at h
          · cases h
            rfl
          · cases ok <;> cases h <;> rfl
  all_goals
    obtain ⟨rfl, -⟩ := h
    rfl

/-- A step of `stop` leads into the gap, or leaves `running_` as it was before the gap. -/
lemma stopStep_gap {o : Choice} {p : StopPc} {w w' : World} {n : Next StopPc Unit}
    (h : stopStep o p w = some (w', n)) :
    n.Sat True (fun q w' => q.cleared = true ∨ (p.cleared = false ∧ w'.running = w.running))
      (fun _ _ => True) w' := by
  cases p <;> simp only [stopStep, Option.some.injEq, Prod.mk.injEq] at h
  case test =>
      obtain ⟨rfl, rfl⟩ := h
      split_ifs
      · exact Or.inr ⟨rfl, rfl⟩
      · trivial
  case testRecording =>
      obtain ⟨rfl, rfl⟩ := h
      exact Or.inr ⟨rfl, rfl⟩
  case stopRecording p =>
      obtain ⟨⟨v, m⟩, hbody, hland⟩ := Option.map_eq_some_iff.mp h
      have hrun := stopRecordingStep_running hbody
      cases hland
      cases m with
      | goto p' => exact Or.inr ⟨rfl, hrun⟩
      | ret r => exact Or.inr ⟨rfl, hrun⟩
      | crash => trivial
  case testRecThread =>
      obtain ⟨rfl, rfl⟩ := h
      split_ifs <;> exact Or.inl rfl
  case joinRecThread =>
      cases ht : w.recThread <;> rw [ht] at h <;> cases h
      · trivial
      · exact Or.inl rfl
  case testBusThread =>
      obtain ⟨rfl, rfl⟩ := h
      split_ifs <;> exact Or.inl rfl
  case joinBusThread =>
      cases ht : w.busThread <;> rw [ht] at h <;> cases h
      · trivial
      · exact Or.inl rfl
  all_goals
    obtain ⟨rfl, rfl⟩ := h
    first | exact Or.inl rfl | trivial

/-- A step of a `start` that does not fail stays in the gap, sets `running_`, or leaves it alone
after the gap. -/
lemma startStep_gap {o : Choice} {p : StartPc} {w w' : World} {n : Next StartPc Bool}
    (h : startStep o p w = some (w', n)) (hok : ∀ w', startStep o p w ≠ some (w', .ret false)) :
    n.Sat True (fun q w' => q.unset = true ∨ w'.running = true ∨
        (p.unset = false ∧ w'.running = w.running))
      (fun _ w' => p.unset = false ∧ w'.running = w.running) w' := by
  cases p <;> simp only [startStep, Option.some.injEq, Prod.mk.injEq] at h hok
  case test =>
      obtain ⟨rfl, rfl⟩ := h
      cases hrun : w.running with
      | false => exact Or.inl rfl
      | true =>
          rw [hrun] at hok
          exact absurd rfl (hok w)
  case parseLaunch =>
      cases hparse : o.parse <;> rw [hparse] at h hok
      · exact absurd rfl (hok _)
      · exact absurd rfl (hok _)
      · cases h
        exact Or.inl rfl
  case getElements =>
      split_ifs at h hok
      · exact absurd rfl (hok _)
      · cases h
        exact Or.inl rfl
  case setPlaying =>
      split_ifs at h hok
      · cases h
        exact Or.inl rfl
      · exact absurd rfl (hok _)
  case clearAbortRec =>
      obtain ⟨rfl, rfl⟩ := h
      exact Or.inl rfl
  case spawnRecThread =>
      split_ifs at h <;> cases h
      · trivial
      · exact Or.inl rfl
  case setRunning =>
      obtain ⟨rfl, rfl⟩ := h
      exact Or.inr (Or.inl rfl)
  case clearAbortBus =>
      obtain ⟨rfl, rfl⟩ := h
      exact Or.inr (Or.inr ⟨rfl, rfl⟩)
  case spawnBusThread =>
      split_ifs at h <;> cases h
      · trivial
      · exact ⟨rfl, rfl⟩

namespace Clients

/-- **One step of a client**: it ends in the gap, or with `running_` set, or it was outside the gap
and leaves `running_` alone. -/
def KeepsRunning (p : Pc) (s : Server) (q : Pc) (s' : Server) : Prop :=
  InGap q = true ∨ s'.running = true ∨ (InGap p = false ∧ s'.running = s.running)

lemma keepsRunning_crash (p : Pc) (s : Server) :
    KeepsRunning p s p { s with crashed := true } := by
  cases h : InGap p
  · exact Or.inr (Or.inr ⟨h, rfl⟩)
  · exact Or.inl h

lemma keepsRunning_setResolution {cfg : ResolutionConfig} {o : Choice} {p : SetResolutionPc}
    {s s' : Server} {q : Pc}
    (hok : ∀ sp w, p = .start sp → startStep o sp s.toWorld ≠ some (w, .ret false))
    (h : onWorld (stepCall (setResolutionStep cfg) (.setResolution cfg) (fun _ => .idle) o p) s =
      some (s', q)) : KeepsRunning (.setResolution cfg p) s q s' := by
  obtain ⟨w, p', hbody, rfl, rfl⟩ | ⟨w, r, hbody, rfl, rfl⟩ | ⟨rfl, rfl⟩ :=
    onWorld_stepCall_cases h
  · cases p with
    | testRecording =>
        cases hbody
        exact Or.inr (Or.inr ⟨rfl, rfl⟩)
    | stopRecording p =>
        obtain ⟨⟨v, m⟩, hstep, hland⟩ := Option.map_eq_some_iff.mp hbody
        have hrun := stopRecordingStep_running hstep
        cases m <;> cases hland <;> exact Or.inr (Or.inr ⟨rfl, hrun⟩)
    | stop p =>
        obtain ⟨⟨v, m⟩, hstep, hland⟩ := Option.map_eq_some_iff.mp hbody
        have hgap := stopStep_gap hstep
        cases m <;> cases hland
        · obtain hq | hrun := hgap
          · exact Or.inl hq
          · exact Or.inr (Or.inr hrun)
        · exact Or.inl rfl
    | setCfg =>
        cases hbody
        exact Or.inl rfl
    | start p =>
        obtain ⟨⟨v, m⟩, hstep, hland⟩ := Option.map_eq_some_iff.mp hbody
        have hgap := startStep_gap hstep fun w' => hok p w' rfl
        cases m <;> cases hland
        exact hgap
  · obtain ⟨p', rfl, hstep⟩ := setResolutionStep_ret hbody
    have hgap := startStep_gap hstep fun w' => hok p' w' rfl
    exact Or.inr (Or.inr hgap)
  · exact keepsRunning_crash _ s

/-- A step of a call that is not in the gap and leaves `running_` alone. -/
lemma keepsRunning_stepCall {π ρ : Type} {body : Body World Choice π ρ} {into : π → Pc}
    {k : ρ → Pc} {o : Choice} {p : π} {s s' : Server} {q : Pc}
    (h : onWorld (stepCall body into k o p) s = some (s', q)) (hinto : InGap (into p) = false)
    (hrun : ∀ w n, body o p s.toWorld = some (w, n) → w.running = s.running) :
    KeepsRunning (into p) s q s' := by
  obtain ⟨w, p', hbody, rfl, rfl⟩ | ⟨w, r, hbody, rfl, rfl⟩ | ⟨rfl, rfl⟩ :=
    onWorld_stepCall_cases h
  · exact Or.inr (Or.inr ⟨hinto, hrun _ _ hbody⟩)
  · exact Or.inr (Or.inr ⟨hinto, hrun _ _ hbody⟩)
  · exact keepsRunning_crash _ s

lemma keepsRunning_act {a : Command × Choice} {p q : Pc} {s s' : Server}
    (hok : ∀ sp w, startPoint p = some sp → startStep a.2 sp s.toWorld ≠ some (w, .ret false))
    (h : act a p s = some (s', q)) : KeepsRunning p s q s' := by
  replace h := program_of_act h
  cases p
  case setResolution cfg p =>
      exact keepsRunning_setResolution (fun sp w hp => hok sp w (by rw [hp, startPoint])) h
  case restart p =>
      exact keepsRunning_stepCall h rfl fun _ _ hb => stopRecordingStep_running hb
  case start f p =>
      exact keepsRunning_stepCall h rfl fun _ _ hb => startRecordingStep_running hb
  case stop f dur p =>
      exact keepsRunning_stepCall h rfl fun _ _ hb => stopRecordingStep_running hb
  case name msg =>
      simp only [program] at h
      split at h <;> cases h <;> exact Or.inr (Or.inr ⟨rfl, rfl⟩)
  case lockCfg cfg =>
      obtain ⟨-, rfl, rfl⟩ := lockRes_eq_some h
      exact Or.inr (Or.inr ⟨rfl, rfl⟩)
  case lock msg =>
      obtain ⟨-, rfl, rfl⟩ := lockRes_eq_some h
      exact Or.inr (Or.inr ⟨rfl, rfl⟩)
  all_goals
    cases h
    exact Or.inr (Or.inr ⟨rfl, rfl⟩)

/-- What the main loop lives by: nobody asked it to stop, and the source runs unless a client is
about to set it running again. -/
structure Alive (s : State) : Prop where
  inLoop : s.shared.inLoop = true
  gRunning : s.shared.gRunning = true
  running : s.shared.running = true ∨ ∃ c, InGap (s.pc c) = true

lemma alive_run {s : State} {c : ℕ} {a : Command × Choice} {t : Server} {q : Pc} (h : Alive s)
    (hok : Steady s (.run c a)) (hact : act a (s.pc c) s.shared = some (t, q)) :
    Alive ⟨t, Function.update s.pc c q⟩ := by
  obtain ⟨hloop, hsig⟩ := act_loop hact
  refine ⟨hloop.trans h.inLoop, hsig.trans h.gRunning, ?_⟩
  obtain hq | hrun | ⟨hp, hrun⟩ := keepsRunning_act hok hact
  · exact Or.inr ⟨c, by simpa [Function.update_self] using hq⟩
  · exact Or.inl hrun
  · obtain hrun' | ⟨d, hd⟩ := h.running
    · exact Or.inl (hrun.trans hrun')
    · have hdc : d ≠ c := by
        rintro rfl
        rw [hp] at hd
        cases hd
      exact Or.inr ⟨d, by simpa [Function.update_of_ne hdc] using hd⟩

/-- What happens around the clients clears `running_` only with an ERROR or EOS. -/
lemma around_running {e : Env} {s t : Server} (hmsg : ∀ m, e = .message m → m = .warning)
    (h : around e s = some t) : t.running = s.running := by
  obtain ⟨-, hsame | hexit | ⟨m, he, hw⟩⟩ := around_cases h
  · rw [hsame]
  · obtain ⟨-, hexit⟩ | ⟨-, hexit⟩ := hexit.cases <;> rw [hexit]
  · rw [hmsg m he] at hw
    rw [busMessage_warning hw]

lemma alive_env {s : State} {e : Env} {t : Server} (h : Alive s) (hok : Steady s (.env e))
    (hpoll : PollsOutsideGaps s (.env e)) (henv : env e s.shared = some t) :
    Alive ⟨t, s.pc⟩ := by
  have haround := around_of_env henv
  have hmsg : ∀ m, e = .message m → m = .warning := by
    rintro m rfl
    exact hok
  have hrun := around_running hmsg haround
  have hrunning : t.running = true ∨ ∃ c, InGap (s.pc c) = true := by
    rw [hrun]
    exact h.running
  by_cases hp : e = .poll
  · -- outside the gaps the source runs, and the condition is true
    subst hp
    have hup : s.shared.running = true := by
      obtain hup | ⟨c, hc⟩ := h.running
      · exact hup
      · rw [hpoll c] at hc
        cases hc
    rw [around, if_pos h.inLoop] at haround
    cases haround
    exact ⟨by simp [h.gRunning, Source.isRunning, hup], h.gRunning, h.running⟩
  · have hsignal : e ≠ .signal := by
      rintro rfl
      exact hok
    obtain ⟨hloop, hsig⟩ := around_loop haround hsignal hp
    exact ⟨hloop.trans h.inLoop, hsig.trans h.gRunning, hrunning⟩

end Clients

/-- **A resolution switch does not shut the program down** as long as the main loop evaluates its
condition outside the gaps. -/
theorem main_loop_survives {s : Clients.State}
    (h : (clients.system ℕ).Reach (fun s e => Steady s e ∧ PollsOutsideGaps s e) s) :
    s.shared.inLoop = true := by
  have halive : Alive s := by
    refine h.invariant Alive ?_ ?_
    · rintro s ⟨⟨cfg, hs⟩, -⟩
      exact ⟨by rw [hs]; rfl, by rw [hs]; rfl, Or.inl (by rw [hs]; rfl)⟩
    · intro s e s' _ halive hC hstep
      cases e with
      | run c a =>
          obtain ⟨t, q, hact, rfl⟩ := step_run_iff.mp hstep
          exact alive_run halive hC.1 hact
      | env e =>
          obtain ⟨t, henv, rfl⟩ := step_env_iff.mp hstep
          exact alive_env halive hC.1 hC.2 henv
  exact halive.inLoop

namespace Clients

/-- Client 0 alone, nothing fails, and the main loop polls outside its gap. -/
def alone (s : State) : Step → Bool
  | .run c (_, o) => c = 0 &&
      match startPoint (s.pc 0) with
      | some p => match startStep o p s.shared.toWorld with
        | some (_, .ret false) => false
        | _ => true
      | none => true
  | .env .poll => !InGap (s.pc 0)
  | .env .signal => false
  | .env (.message _) => false
  | .env _ => true

lemma steady_of_alone {s : State} {e : Step} (hsolo : Solo clients 0 s)
    (h : alone s e = true) : Steady s e ∧ PollsOutsideGaps s e := by
  cases e with
  | run c a =>
      obtain ⟨cmd, o⟩ := a
      simp only [alone, Bool.and_eq_true, decide_eq_true_eq] at h
      obtain ⟨rfl, h⟩ := h
      refine ⟨?_, trivial⟩
      intro p w hp hfail
      rw [hp] at h
      simp [hfail] at h
  | env e =>
      cases e with
      | poll =>
          refine ⟨trivial, ?_⟩
          intro c
          by_cases hc : c = 0
          · subst hc
            simpa [alone] using h
          · rw [hsolo c hc]
            rfl
      | signal => cases h
      | message m => cases h
      | drainExit => exact ⟨trivial, trivial⟩
      | busExit => exact ⟨trivial, trivial⟩

end Clients

/-- The loop polls before and after a switch. -/
theorem switch_between_polls :
    ∃ s, (clients.system ℕ).exec alone initial ([.env .poll] ++ switch 0 ++ [.env .poll]) =
      some s ∧ s.shared.inLoop = true := by
  obtain ⟨s, hs⟩ : ∃ s, (clients.system ℕ).exec alone initial
      ([.env .poll] ++ switch 0 ++ [.env .poll]) = some s :=
    Option.isSome_iff_exists.mp (by decide)
  have hby : ∀ (s : State) (e : Step), alone s e = true → e.by 0 = true := by
    intro s e he
    cases e with
    | run c a => exact (Bool.and_eq_true_iff.mp he).1
    | env e => rfl
  exact ⟨s, hs, main_loop_survives (Solo.reach hby (fun _ _ => steady_of_alone)
    ⟨⟨_, rfl⟩, fun _ => rfl⟩ hs)⟩

/-- The main loop polls after client 0's `stop` has cleared `running_`, and is left. -/
theorem switch_leaves_loop :
    ¬ ∀ s : Clients.State, (clients.system ℕ).Reach Steady s → s.shared.inLoop = true := by
  intro h
  have hrun : ((clients.system ℕ).exec (fun s e => match e with
      | .run c _ => (startPoint (s.pc c)).isNone
      | .env .poll => true
      | .env _ => false) initial (steps 0 8 (.setResolution 640 480) ++ [.env .poll])).map
      (fun s => s.shared.inLoop) = some false := by decide
  obtain ⟨s, hs, hloop⟩ := Option.map_eq_some_iff.mp hrun
  have hreach : (clients.system ℕ).Reach Steady s := by
    refine .of_exec_check (fun s e he => ?_) ⟨⟨_, rfl⟩, fun _ => rfl⟩ hs
    cases e with
    | run c a =>
        intro p w hp
        simp [hp] at he
    | env e =>
        cases e with
        | poll => trivial
        | _ => cases he
  rw [h s hreach] at hloop
  cases hloop

end RasPiZeroCam
