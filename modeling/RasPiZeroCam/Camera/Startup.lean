import RasPiZeroCam.Camera.Requests

/-!
Whether a request can get lost while the camera runs: `requeue_request` does nothing when
`running_` is false, and `open` sets it after `start_streaming` has queued the requests.

* `NoneLost`: with no handler and no requeue in progress, every request of `requests_` that was not
  cancelled is queued, or under exactly one live frame.
* `none_lost`: it holds along the runs in which the camera starts, `queue_` has room, and no request
  comes back before `open` has set `running_` (`Lossless`).
* `early_frame_lost`: a consumer that is faster than `open` loses a request; `early_test_loses`: for
  good.
-/

namespace RasPiZeroCam

open Transition System

namespace Manager

/-- The main thread is between `camera_->start()` and `running_ = true`. -/
def Starting (s : Manager) : Prop := s.main = .setRunning ∨ ∃ todo, s.main = .queueing todo

/-- The step is the test of `running_` in `requeue_request(r)`. -/
def Tests (s : Manager) (r : Request) : Step → Prop
  | .release t => t.request = r
  | .handler => ∃ again t, s.handler = .requeue again t ∧ t.request = r
  | _ => False

/-- When `open` gets to `camera_->start()`, the camera starts. -/
def CameraStarts (s : Manager) : Step → Prop
  | .main _ o => s.main = .closed → o.start = true
  | _ => True

/-- The camera starts, `on_request_completed` does not find `queue_` full, and no `requeue_request`
of a request of `requests_` finds `running_` false because `open` has not set it yet. -/
structure Lossless (s : Manager) (e : Step) : Prop where
  room : s.HasRoom e
  starts : s.CameraStarts e
  late : s.Starting → ∀ r ∈ s.requests, ¬ s.Tests r e

/-- How many live frames own a request. -/
def owners (s : Manager) (r : Request) : ℕ := (s.frames.map (·.release)).count r

end Manager

open Manager

/-- **No request is lost**: while the camera runs, and no completion handler or requeue is in
progress, a request that was not cancelled is either queued or owned by exactly one live frame. -/
def NoneLost (s : Manager) : Prop :=
  s.running = true → s.handler = .idle → s.releases = [] → s.requeues = [] →
    ∀ r ∈ s.requests, r ∉ s.cancelled →
      (r ∈ s.queued ∧ s.owners r = 0) ∨ (r ∉ s.queued ∧ s.owners r = 1)

namespace Manager

/-! ### What a step retains -/

/-- A request that the step does not cancel is in no fewer places after it. -/
structure Retains (s s' : Manager) (r : Request) : Prop where
  cancelled : ∀ x ∈ s.cancelled, x ∈ s'.cancelled
  places : r ∈ s'.cancelled ∨ s.requestPlaces r ≤ s'.requestPlaces r

variable {s s' : Manager} {r : Request}

/-- Requests change hands. -/
lemma Retains.of_perm (hret : s'.returns.Perm s.returns) (w : s'.waiting = s.waiting)
    (c : s'.cancelled = s.cancelled) : Retains s s' r := by
  refine ⟨fun x hx => c.symm ▸ hx, Or.inr ?_⟩
  rw [requestPlaces, requestPlaces, w, (hret.map _).count_eq]

/-- A request goes back to the camera. -/
lemma Retains.of_back {t : Return} (hwait : s'.waiting.Perm (t.request :: s.waiting))
    (hret : (t :: s'.returns).Perm s.returns) (c : s'.cancelled = s.cancelled) :
    Retains s s' r := by
  refine ⟨fun x hx => c.symm ▸ hx, Or.inr ?_⟩
  have hmap := (hret.map (·.request)).count_eq r
  rw [List.map_cons, List.count_cons] at hmap
  rw [requestPlaces, requestPlaces, hwait.count_eq, List.count_cons]
  omega

/-- A request gets lost, another one than `r`, unless it was cancelled. -/
lemma Retains.of_lost {t : Return} (hret : (t :: s'.returns).Perm s.returns)
    (hcancelled : ∀ x ∈ s.cancelled, x ∈ s'.cancelled) (ht : t.request = r → r ∈ s'.cancelled)
    (w : s'.waiting = s.waiting) : Retains s s' r := by
  refine ⟨hcancelled, ?_⟩
  by_cases heq : t.request = r
  · exact Or.inl (ht heq)
  · have hmap := (hret.map (·.request)).count_eq r
    rw [List.map_cons, List.count_cons_of_ne heq] at hmap
    exact Or.inr (by rw [requestPlaces, requestPlaces, w, hmap])

lemma complete_retains {q : Request} {cancelled : Bool} {sequence timestamp : ℕ}
    (h : s.complete q cancelled sequence timestamp = some s') : Retains s s' r := by
  obtain ⟨hmem, hidle, rfl⟩ := complete_cases h
  refine ⟨fun _ => id, Or.inr ?_⟩
  have hwait := ((List.perm_cons_erase hmem).append_left s.pending).count_eq r
  simp only [requestPlaces, waiting, pending, returns, handlerReturn, hidle, List.count_append,
    List.count_cons, List.map_append, List.nil_append, List.map_cons, List.map_nil] at hwait ⊢
  omega

lemma release_retains {t : Return} (htest : s.running = false → t.request ≠ r)
    (h : s.release t = some s') : Retains s s' r := by
  have hret := release_returns h
  split_ifs at hret with hrun
  · obtain ⟨-, rfl⟩ := release_cases h
    exact .of_perm hret rfl rfl
  · obtain ⟨-, rfl⟩ := release_cases h
    exact .of_lost hret (fun _ => id)
      (fun heq => absurd heq (htest (by simpa using hrun))) rfl

/-- The camera streams: it takes the request. -/
lemma giveBack_waiting (hstreaming : s.streaming = true) (t : Return) :
    (s.pending ++ (s.queueRequest t.request).queued).Perm (t.request :: s.waiting) :=
  ((queueRequest_perm t.request hstreaming).append_left _).trans List.perm_middle

lemma requeue_retains {t : Return} (hstreaming : s.streaming = true)
    (h : s.requeue t = some s') : Retains s s' r := by
  have hret := requeue_returns h
  obtain ⟨-, rfl⟩ := requeue_cases h
  exact .of_back (giveBack_waiting hstreaming t) hret rfl

lemma drop_retains {p : FramePtr} (h : s.drop p = some s') : Retains s s' r := by
  have hret := drop_returns h
  obtain ⟨-, ⟨-, rfl⟩ | ⟨f, -, -, -, rfl⟩⟩ := drop_cases h
  · exact .of_perm hret rfl rfl
  · exact .of_perm hret rfl rfl

/-! ### libcamera's thread -/

/-- A step of the handler that leaves the camera and the holders alone. -/
lemma Retains.of_handler (hreturn : s'.handlerReturn = s.handlerReturn)
    (f : s'.frames.map frameReturn = s.frames.map frameReturn)
    (w : s'.waiting = s.waiting)
    (h : s'.releases ++ s'.requeues = s.releases ++ s.requeues)
    (c : s'.cancelled = s.cancelled) : Retains s s' r :=
  .of_perm (by rw [returns, returns, hreturn, f, h]) w c

lemma handlerStep_lookup_retains {c : Completion} (hpc : s.handler = .lookup c)
    (h : s.handlerStep = some s') : Retains s s' r := by
  have hreturn : s.handlerReturn = [⟨c.number, c.request⟩] := by rw [handlerReturn, hpc]
  simp only [handlerStep, hpc] at h
  split at h
  · cases h
    exact .of_handler hreturn.symm rfl rfl rfl rfl
  · -- the new frame has the request
    cases h
    refine .of_perm ?_ rfl rfl
    have hbefore : s.returns = ⟨c.number, c.request⟩ ::
        (s.frames.map frameReturn ++ (s.releases ++ s.requeues)) := by
      rw [returns, hreturn, List.singleton_append]
    rw [hbefore]
    rfl

lemma handlerStep_frame_retains (hroom : s.HasRoom .handler) {frame : FramePtr} {q : Request}
    (hpc : s.handler = .snapshot frame q ∨ s.handler = .tag frame q ∨
      s.handler = .pushStill frame q ∨ s.handler = .pushVideo frame q)
    (h : s.handlerStep = some s') : Retains s s' r := by
  have hreturn : s.handlerReturn = [] := by
    obtain hpc | hpc | hpc | hpc := hpc <;> rw [handlerReturn, hpc]
  rw [handlerStep] at h
  obtain hpc | hpc | hpc | hpc := hpc <;> simp only [hpc] at h
  · split_ifs at h
    all_goals
      cases h
      exact .of_handler hreturn.symm rfl rfl rfl rfl
  · cases h
    refine .of_handler hreturn.symm ?_ rfl rfl rfl
    rw [List.map_map, frameReturn_tagStill]
  · split at h
    all_goals
      cases h
      exact .of_handler hreturn.symm rfl rfl rfl rfl
  · have hpush : s.queue.push cameraFrameQueueCapacity frame = some (s.queue ++ [frame]) :=
      if_neg (hroom frame q hpc)
    rw [hpush] at h
    cases h
    exact .of_handler hreturn.symm rfl rfl rfl rfl

lemma handlerStep_retains (hroom : s.HasRoom .handler) (hsingle : s.Single)
    (hstreaming : s.streaming = true)
    (htest : s.running = false → ¬ s.Tests r .handler)
    (h : s.handlerStep = some s') : Retains s s' r := by
  cases hpc : s.handler with
  | idle => simp [handlerStep, hpc] at h
  | status c =>
      have hreturn : s.handlerReturn = [⟨c.number, c.request⟩] := by rw [handlerReturn, hpc]
      simp only [handlerStep, hpc] at h
      split_ifs at h
      · cases h
        refine .of_lost (t := ⟨c.number, c.request⟩) ?_ (fun x hx => List.mem_cons_of_mem _ hx)
          ?_ rfl
        · rw [returns, returns, hreturn]
          rfl
        · rintro rfl
          exact List.mem_cons_self
      · cases h
        exact .of_handler hreturn.symm rfl rfl rfl rfl
  | lookup c => exact handlerStep_lookup_retains hpc h
  | snapshot frame q => exact handlerStep_frame_retains hroom (Or.inl hpc) h
  | tag frame q => exact handlerStep_frame_retains hroom (Or.inr (Or.inl hpc)) h
  | pushStill frame q => exact handlerStep_frame_retains hroom (Or.inr (Or.inr (Or.inl hpc))) h
  | pushVideo frame q => exact handlerStep_frame_retains hroom (Or.inr (Or.inr (Or.inr hpc))) h
  | requeue again t =>
      have hreturn : s.handlerReturn = [t] := by rw [handlerReturn, hpc]
      have hagain : again = false := by rwa [Single, hpc] at hsingle
      simp only [handlerStep, hpc, hagain, Bool.false_eq_true, if_false] at h
      split_ifs at h with hrun
      · cases h
        exact .of_handler hreturn.symm rfl rfl rfl rfl
      · cases h
        refine .of_lost (t := t) ?_ (fun _ => id) (fun heq => ?_) rfl
        · rw [returns, returns, hreturn]
          rfl
        · exact absurd ⟨again, t, hpc, heq⟩ (htest (by simpa using hrun))
  | queueRequest again t =>
      have hreturn : s.handlerReturn = [t] := by rw [handlerReturn, hpc]
      have hagain : again = false := by rwa [Single, hpc] at hsingle
      simp only [handlerStep, hpc, hagain, Bool.false_eq_true, if_false] at h
      cases h
      refine .of_back (t := t) (giveBack_waiting hstreaming t) ?_ rfl
      rw [returns, returns, hreturn]
      rfl

/-! ### The main thread -/

/-- What the other threads leave to the main thread. -/
structure SameMain (s s' : Manager) : Prop where
  main : s'.main = s.main := by rfl
  running : s'.running = s.running := by rfl
  streaming : s'.streaming = s.streaming := by rfl
  requests : s'.requests = s.requests := by rfl

lemma handlerStep_sameMain (h : s.handlerStep = some s') : SameMain s s' := by
  simp only [handlerStep] at h
  split at h
  case h_1 => cases h
  case h_7 =>
    split at h
    · cases h
      exact ⟨rfl, rfl, rfl, rfl⟩
    · split_ifs at h
      · cases h
        exact ⟨rfl, rfl, rfl, rfl⟩
      · obtain ⟨_, -, rfl⟩ := Option.map_eq_some_iff.mp h
        exact ⟨rfl, rfl, rfl, rfl⟩
  case h_5 | h_9 =>
    cases h
    exact ⟨rfl, rfl, rfl, rfl⟩
  all_goals
    split at h
    all_goals
      cases h
      exact ⟨rfl, rfl, rfl, rfl⟩

lemma step_sameMain {e : Step} (he : ∀ res o, e ≠ .main res o) (h : s.step e = some s') :
    SameMain s s' := by
  cases e with
  | main res o => exact absurd rfl (he res o)
  | handler => exact handlerStep_sameMain h
  | popVideo =>
      obtain ⟨_, -, rfl⟩ := Option.map_eq_some_iff.mp h
      exact ⟨rfl, rfl, rfl, rfl⟩
  | popStill =>
      obtain ⟨_, -, rfl⟩ := Option.map_eq_some_iff.mp h
      exact ⟨rfl, rfl, rfl, rfl⟩
  | drop p =>
      obtain ⟨-, ⟨-, rfl⟩ | ⟨f, -, -, -, rfl⟩⟩ := drop_cases h
      · exact ⟨rfl, rfl, rfl, rfl⟩
      · exact ⟨rfl, rfl, rfl, rfl⟩
  | complete q cancelled sequence timestamp =>
      obtain ⟨-, -, rfl⟩ := complete_cases h
      exact ⟨rfl, rfl, rfl, rfl⟩
  | release t =>
      obtain ⟨-, rfl⟩ := release_cases h
      exact ⟨rfl, rfl, rfl, rfl⟩
  | requeue t =>
      obtain ⟨-, rfl⟩ := requeue_cases h
      exact ⟨rfl, rfl, rfl, rfl⟩
  | _ =>
      simp only [step] at h
      split_ifs at h
      all_goals
        cases h
        exact ⟨rfl, rfl, rfl, rfl⟩

/-- The step lemma for the threads beside the main one, while a session starts or runs. -/
lemma step_retains {e : Step} (he : ∀ res o, e ≠ .main res o) (hroom : s.HasRoom e)
    (hsingle : s.Single) (hstreaming : s.streaming = true)
    (htest : s.running = false → ¬ s.Tests r e) (h : s.step e = some s') : Retains s s' r := by
  cases e with
  | main res o => exact absurd rfl (he res o)
  | complete q cancelled sequence timestamp => exact complete_retains h
  | handler => exact handlerStep_retains hroom hsingle hstreaming htest h
  | drop frame => exact drop_retains h
  | release t => exact release_retains htest h
  | requeue t => exact requeue_retains hstreaming h
  | popVideo =>
      obtain ⟨_, -, rfl⟩ := Option.map_eq_some_iff.mp h
      exact .of_perm (.refl _) rfl rfl
  | popStill =>
      obtain ⟨_, -, rfl⟩ := Option.map_eq_some_iff.mp h
      exact .of_perm (.refl _) rfl rfl
  | _ =>
      simp only [step] at h
      split_ifs at h
      all_goals
        cases h
        exact .of_perm (.refl _) rfl rfl

/-- `open` fails, or it has all of `requests_` to queue. -/
lemma openCamera_main (res : Resolution) (o : OpenOutcome) (hmain : s.main = .closed) :
    (s.openCamera res o).running = s.running ∧
      ((s.openCamera res o).main = .closed ∨
        (s.openCamera res o).main = .queueing (s.openCamera res o).requests ∧
          (s.openCamera res o).streaming = o.start) := by
  simp only [openCamera]
  repeat' split
  all_goals simp [hmain]

/-- `running_` is true when `open` has returned and `close` has not been called. -/
lemma step_running {e : Step} (hs : s.running = true ↔ s.main = .opened)
    (h : s.step e = some s') : s'.running = true ↔ s'.main = .opened := by
  by_cases he : ∃ res o, e = .main res o
  · obtain ⟨res, o, rfl⟩ := he
    simp only [step, mainStep] at h
    split at h
    case h_1 hmain =>
      cases h
      obtain ⟨hrunning, hmain' | ⟨hmain', -⟩⟩ := openCamera_main res o hmain
      all_goals simp [hrunning, hmain', hs, hmain]
    case h_4 | h_5 =>
      cases h
      simp
    case h_7 hmain =>
      split_ifs at h
      cases h
      simp [hs, hmain]
    all_goals
      rename_i hmain
      cases h
      simp [queueRequest, hs, hmain]
  · obtain ⟨hmain, hrunning, -, -⟩ := step_sameMain (fun res o heq => he ⟨res, o, heq⟩) h
    rw [hrunning, hmain, hs]

lemma running_of_reach {C : Manager → Step → Prop} (h : capture.Reach C s) :
    s.running = true ↔ s.main = .opened := by
  refine h.invariant (fun s => s.running = true ↔ s.main = .opened) ?_
    fun s e s' _ hs _ hstep => step_running hs hstep
  rintro s rfl
  simp [new]

lemma Starting.running {C : Manager → Step → Prop} (h : capture.Reach C s)
    (hstarting : s.Starting) : s.running = false := by
  have hopened : s.main ≠ .opened := by
    obtain hmain | ⟨todo, hmain⟩ := hstarting <;> simp [hmain]
  simpa using mt (running_of_reach h).mp hopened

/-! ### Runs -/

/-- In a session the camera streams, and no request is lost. -/
structure Kept (s : Manager) : Prop where
  streaming : s.Starting ∨ s.main = .opened ∨ s.main = .stop → s.streaming = true
  places : s.main ≠ .stop → s.main ≠ .stopping →
    ∀ r ∈ s.requests, r ∈ s.cancelled ∨ 1 ≤ s.requestPlaces r

/-- A request that the main thread has not handed to the camera yet is not lost. -/
lemma places_of_pending (hpending : s.pending = s.requests) {q : Request} (hq : q ∈ s.requests) :
    1 ≤ s.requestPlaces q := by
  have hpos : 0 < s.pending.count q := List.count_pos_iff.mpr (hpending ▸ hq)
  rw [requestPlaces, waiting, List.count_append]
  omega

lemma openCamera_kept (res : Resolution) (o : OpenOutcome) (hmain : s.main = .closed)
    (hstart : o.start = true) : (s.openCamera res o).Kept := by
  obtain ⟨-, hmain'⟩ := openCamera_main res o hmain
  have hpending : (s.openCamera res o).pending = (s.openCamera res o).requests := by
    obtain hmain' | ⟨hmain', -⟩ := hmain' <;> simp [pending, hmain']
  refine ⟨fun hat => ?_, fun _ _ q hq => Or.inr (places_of_pending hpending hq)⟩
  obtain hmain' | ⟨-, hstreaming⟩ := hmain'
  · simp [Starting, hmain'] at hat
  · rw [hstreaming, hstart]

/-- A step of the main thread in which every request keeps its place. -/
lemma Kept.of_places (hs : s.Kept) (hstarting : s.Starting) (hwait : s'.waiting.Perm s.waiting)
    (t : s'.returns = s.returns) (r : s'.requests = s.requests)
    (c : s'.cancelled = s.cancelled) (m : s'.streaming = s.streaming) :
    s'.Kept := by
  have hactive : s.main ≠ .stop ∧ s.main ≠ .stopping := by
    obtain hmain | ⟨todo, hmain⟩ := hstarting <;> simp [hmain]
  refine ⟨fun _ => m.trans (hs.streaming (Or.inl hstarting)), fun _ _ q hq => ?_⟩
  rw [c, requestPlaces, hwait.count_eq, t]
  exact hs.places hactive.1 hactive.2 q (r ▸ hq)

lemma mainStep_kept {res : Resolution} {o : OpenOutcome} (hs : s.Kept)
    (hstarts : s.CameraStarts (.main res o)) (h : s.mainStep res o = some s') : s'.Kept := by
  rw [mainStep] at h
  split at h
  case h_1 hmain =>
    cases h
    exact openCamera_kept res o hmain (hstarts hmain)
  case h_2 hmain =>
    cases h
    refine hs.of_places (Or.inr ⟨_, hmain⟩) (.of_eq ?_) rfl rfl rfl rfl
    simp [waiting, pending, hmain]
  case h_3 q todo hmain =>
    cases h
    have hstarting : s.Starting := Or.inr ⟨_, hmain⟩
    have hqueued := queueRequest_perm q (hs.streaming (Or.inl hstarting))
    have hwait : s.waiting = q :: (todo ++ s.queued) := by simp [waiting, pending, hmain]
    refine hs.of_places hstarting ?_ rfl rfl rfl rfl
    rw [hwait]
    exact (hqueued.append_left todo).trans List.perm_middle
  case h_4 hmain =>
    cases h
    refine hs.of_places (Or.inl hmain) (.of_eq ?_) rfl rfl rfl rfl
    simp [waiting, pending, hmain]
  case h_5 hmain =>
    cases h
    exact ⟨fun _ => hs.streaming (Or.inr (Or.inl hmain)), fun hne => absurd rfl hne⟩
  case h_6 hmain =>
    cases h
    exact ⟨by simp [Starting], fun _ hne => absurd rfl hne⟩
  case h_7 hmain =>
    split_ifs at h
    cases h
    exact ⟨by simp [Starting], by simp⟩

/-- The step lemma for `Kept`. -/
lemma step_kept {e : Step} (hs : s.Kept) (hrunning : s.running = true ↔ s.main = .opened)
    (hsingle : s.Single) (hlossless : s.Lossless e) (h : s.step e = some s') : s'.Kept := by
  by_cases he : ∃ res o, e = .main res o
  · obtain ⟨res, o, rfl⟩ := he
    exact mainStep_kept hs hlossless.starts h
  · have hother : ∀ res o, e ≠ .main res o := fun res o heq => he ⟨res, o, heq⟩
    obtain ⟨hmain, -, hstreaming, hrequests⟩ := step_sameMain hother h
    refine ⟨fun hat => ?_, fun hstop hstopping q hq => ?_⟩
    · rw [hstreaming]
      exact hs.streaming (by rwa [Starting, hmain] at hat)
    rw [hmain] at hstop hstopping
    rw [hrequests] at hq
    by_cases hclosed : s.main = .closed
    · have hpending : s'.pending = s'.requests := by rw [pending, hmain, hclosed]
      exact Or.inr (places_of_pending hpending (hrequests ▸ hq))
    · have hat : s.Starting ∨ s.main = .opened := by
        cases hpc : s.main <;> simp_all [Starting]
      have htest : s.running = false → ¬ s.Tests q e := by
        intro hstopped
        have hstarting : s.Starting := hat.resolve_right fun hopened => by
          simp [hrunning.mpr hopened] at hstopped
        exact hlossless.late hstarting q hq
      obtain ⟨hcancelled, hplaces⟩ := step_retains hother hlossless.room hsingle
        (hs.streaming (hat.imp_right Or.inl)) htest h
      obtain hbefore | hbefore := hs.places hstop hstopping q hq
      · exact Or.inl (hcancelled q hbefore)
      · exact hplaces.imp_right hbefore.trans

/-- The run lemma for `Kept`. -/
lemma kept_of_reach (h : capture.Reach Lossless s) : s.Kept := by
  refine h.invariant Kept ?_ fun s e s' hs hkept hlossless hstep =>
    step_kept hkept (running_of_reach hs) (single_of_reach (hs.mono fun _ _ => Lossless.room))
      hlossless hstep
  rintro s rfl
  exact ⟨by simp [new, Starting], by simp [new]⟩

end Manager

/-- **No request is lost** along the runs in which the camera starts, `queue_` has room, and no
request comes back before `open` has set `running_`. -/
theorem none_lost {s : Manager} (h : capture.Reach Lossless s) : NoneLost s := by
  intro hrunning hidle hreleases hrequeues q hq hcancelled
  have hs := kept_of_reach h
  have hmain := (running_of_reach h).mp hrunning
  have hplaces : s.requestPlaces q = s.queued.count q + s.owners q := by
    simp only [requestPlaces, waiting, pending, hmain, returns, handlerReturn, hidle, hreleases,
      hrequeues, List.append_nil, List.nil_append, map_frameReturn, owners]
  have hpos := (hs.places (by simp [hmain]) (by simp [hmain]) q hq).resolve_left hcancelled
  have hone := (request_custody (h.mono fun _ _ => Lossless.room) q).1
  by_cases hmem : q ∈ s.queued
  · have hcount := List.count_pos_iff.mpr hmem
    exact Or.inl ⟨hmem, by omega⟩
  · have hcount := List.count_eq_zero.mpr hmem
    exact Or.inr ⟨hmem, by omega⟩

namespace Manager

variable {s t : Manager} {r : Request}

/-! ### A request that is tested too early -/

/-- The thread that tests `running_` in vain lets the request go. -/
lemma tests_returns {e : Step} (hsingle : s.Single) (hstopped : s.running = false)
    (htest : s.Tests r e) (h : s.step e = some t) :
    ∃ back : Return, back.request = r ∧ (back :: t.returns).Perm s.returns ∧
      t.waiting = s.waiting ∧ t.allocated = s.allocated := by
  cases e with
  | release back =>
      have hret := release_returns h
      rw [hstopped, if_neg Bool.false_ne_true] at hret
      obtain ⟨-, rfl⟩ := release_cases h
      exact ⟨back, htest, hret, rfl, rfl⟩
  | handler =>
      obtain ⟨again, back, hpc, heq⟩ := htest
      have hreturn : s.handlerReturn = [back] := by rw [handlerReturn, hpc]
      have hagain : again = false := by rwa [Single, hpc] at hsingle
      simp only [step, handlerStep, hpc, hagain, hstopped, Bool.false_eq_true, if_false] at h
      cases h
      refine ⟨back, heq, ?_, rfl, rfl⟩
      rw [returns, returns, hreturn]
      rfl
  | _ => exact htest.elim

/-- After that it is nowhere. -/
lemma places_of_early_test {e : Step} (hs : capture.Reach HasRoom s) (hstarting : s.Starting)
    (htest : s.Tests r e) (h : s.step e = some t) : t.requestPlaces r = 0 ∧ t.Allocated r := by
  obtain ⟨back, rfl, hret, hwait, halloc⟩ :=
    tests_returns (single_of_reach hs) (hstarting.running hs) htest h
  obtain ⟨hone, hissued⟩ := request_custody hs back.request
  have hcount := (hret.map (·.request)).count_eq back.request
  rw [List.map_cons, List.count_cons_self] at hcount
  rw [requestPlaces] at hone hissued
  refine ⟨?_, ?_⟩
  · rw [requestPlaces, hwait]
    omega
  · rw [Allocated, halloc]
    exact hissued (by omega)

end Manager

/-- **A request that is tested too early stays lost**: it is never queued again, and no frame owns
it. -/
theorem early_test_loses {s t u : Manager} {e : Manager.Step} {r : Request}
    (hs : capture.Reach HasRoom s) (hroom : s.HasRoom e) (hstarting : s.Starting)
    (htest : s.Tests r e) (hstep : capture.step s e = some t)
    (h : ({ capture with init := (· = t) }).Reach HasRoom u) : r ∉ u.queued ∧ u.owners r = 0 := by
  have hlost : u.Single ∧ u.requestPlaces r = 0 ∧ u.Allocated r := by
    refine h.invariant (fun u => u.Single ∧ u.requestPlaces r = 0 ∧ u.Allocated r) ?_ ?_
    · rintro t rfl
      exact ⟨step_single hroom (single_of_reach hs) hstep,
        places_of_early_test hs hstarting htest hstep⟩
    · rintro u e' v - ⟨hsingle, hplaces, halloc⟩ hroom' hstep'
      obtain ⟨hle, halloc'⟩ := (step_moves hroom' hsingle hstep').requests.old r halloc
      exact ⟨step_single hroom' hsingle hstep', by omega, halloc'⟩
  have hplaces := hlost.2.1
  simp only [requestPlaces, waiting, returns, List.map_append, List.count_append, map_frameReturn]
    at hplaces
  rw [← List.count_eq_zero, owners]
  omega

namespace Manager

/-- The main thread is past `start_streaming`, or before it. -/
def settled (s : Manager) : Bool :=
  match s.main with
  | .queueing _ => false
  | .setRunning => false
  | _ => true

/-- Nothing can get lost in the step. -/
def lossless (s : Manager) : Step → Bool
  | .main _ o => o.start
  | .handler => s.queue.length ≠ cameraFrameQueueCapacity && s.settled
  | .release _ => s.settled
  | _ => true

lemma not_starting_of_settled {s : Manager} (h : s.settled = true) : ¬ s.Starting := by
  rintro (hmain | ⟨todo, hmain⟩) <;> simp [settled, hmain] at h

lemma lossless_of_check {s : Manager} {e : Step} (h : lossless s e = true) : s.Lossless e := by
  cases e with
  | main res o => exact ⟨trivial, fun _ => h, fun _ _ _ => id⟩
  | handler =>
      obtain ⟨hroom, hsettled⟩ := Bool.and_eq_true_iff.mp h
      exact ⟨fun _ _ _ => by simpa using hroom, trivial,
        fun hstarting => absurd hstarting (not_starting_of_settled hsettled)⟩
  | release t =>
      exact ⟨trivial, trivial, fun hstarting => absurd hstarting (not_starting_of_settled h)⟩
  | _ => exact ⟨trivial, trivial, fun _ _ _ => id⟩

/-- A consumer pops the frame of request `n` and drops it. -/
def returnsFrame (n : ℕ) : List Step :=
  [.popVideo, .drop n, .release ⟨n, request n⟩, .requeue ⟨n, request n⟩]

end Manager

/-- A consumer takes the first frame, and has not come to the second. -/
theorem two_frames_kept :
    ∃ s, capture.exec lossless .new
        (opens ++ completes 0 4 ++ returnsFrame 0 ++ completes 1 4) = some s ∧
      s.queued = [request 2, request 3, request 0] ∧ s.owners (request 1) = 1 ∧ NoneLost s := by
  have hrun : (capture.exec lossless .new
      (opens ++ completes 0 4 ++ returnsFrame 0 ++ completes 1 4)).map
      (fun s => (s.queued, s.owners (request 1))) =
      some ([request 2, request 3, request 0], 1) := by decide
  obtain ⟨s, hs, hend⟩ := Option.map_eq_some_iff.mp hrun
  obtain ⟨hqueued, howners⟩ := Prod.mk.inj hend
  exact ⟨s, hs, hqueued, howners, none_lost
    (.of_exec_check (fun _ _ => lossless_of_check) (show capture.init .new from rfl) hs)⟩

/-- The camera completes a request, and a consumer pops the frame and drops it, before `open` has
set `running_`: the request is neither queued nor under a live frame, and stays so. -/
theorem early_frame_lost :
    ¬ ∀ s : Manager, capture.Reach (fun _ _ => True) s → NoneLost s := by
  intro h
  have hrun : (capture.exec (fun _ _ => true) .new
      (List.replicate 6 (.main .medium four) ++ completes 0 4 ++
        [.popVideo, .drop 0, .release ⟨0, request 0⟩, .main .medium four])).map
      (fun s => (s.running, s.handler, s.releases ++ s.requeues, s.requests, s.cancelled,
        s.queued, s.owners (request 0))) = some (true, .idle, [],
          [request 0, request 1, request 2, request 3], [], [request 1, request 2, request 3],
          0) := by rfl
  obtain ⟨s, hs, hend⟩ := Option.map_eq_some_iff.mp hrun
  simp only [Prod.mk.injEq, List.append_eq_nil_iff] at hend
  obtain ⟨hrunning, hidle, ⟨hreleases, hrequeues⟩, hrequests, hcancelled, hqueued, hnone⟩ := hend
  have hreach : capture.Reach (fun _ _ => True) s :=
    .of_exec_check (fun _ _ _ => trivial) (show capture.init .new from rfl) hs
  obtain ⟨hmem, -⟩ | ⟨-, howners⟩ := h s hreach hrunning hidle hreleases hrequeues (request 0)
    (by simp [hrequests]) (by simp [hcancelled])
  · rw [hqueued] at hmem
    revert hmem
    decide
  · simp [hnone] at howners

end RasPiZeroCam
