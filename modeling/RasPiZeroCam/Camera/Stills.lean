import RasPiZeroCam.Camera.Lifetime

/-!
Snapshots: `request_snapshot` arms a flag, the next completion takes it and puts its frame into
`still_queue_` as well as into `queue_`.

* `snapshots_kept_iff`: no snapshot that was granted is lost if and only if `still_queue_` has room
  at every push (`StillRoom`).
* `unread_snapshots_lost`: nobody looks at the result of that push.
-/

namespace RasPiZeroCam

open Transition System

namespace Manager

/-- The frame of the completion under way that is still to be pushed to `still_queue_`. -/
def stillUnderWay (s : Manager) : ℕ :=
  match s.handler with
  | .tag _ _ => 1
  | .pushStill _ _ => 1
  | _ => 0

/-- The snapshots that can be accounted for. -/
def accounted (s : Manager) : ℕ :=
  s.placed + (if s.snapshotArmed then 1 else 0) + s.stillUnderWay

/-- `on_request_completed` does not find `still_queue_` full. -/
def StillRoom (s : Manager) : Step → Prop
  | .handler => ∀ frame r, s.handler = .pushStill frame r →
      s.stillQueue.length ≠ stillFrameQueueCapacity
  | _ => True

end Manager

open Manager

/-- **Every granted snapshot yields a still frame**: it is in the books of `still_queue_`, or it is
still to come. -/
def SnapshotsKept (s : Manager) : Prop := s.granted = s.accounted

namespace Manager

variable {s s' : Manager}

/-! ### The steps around the snapshot -/

/-- A step outside `on_request_completed` and the two consumers' calls of `pop`. -/
structure Quiet (s s' : Manager) : Prop where
  handler : s'.handler = s.handler := by rfl
  queue : s'.queue = s.queue := by rfl
  stillQueue : s'.stillQueue = s.stillQueue := by rfl
  completions : s'.completions = s.completions := by rfl
  placed : s'.placed = s.placed := by rfl
  frames : s'.frames ⊆ s.frames := by exact fun _ => id

lemma openCamera_quiet (res : Resolution) (o : OpenOutcome) :
    Quiet s (s.openCamera res o) ∧ (s.openCamera res o).snapshotArmed = s.snapshotArmed ∧
      (s.openCamera res o).granted = s.granted := by
  simp only [openCamera]
  repeat' split
  all_goals exact ⟨⟨rfl, rfl, rfl, rfl, rfl, fun _ => id⟩, rfl, rfl⟩

lemma mainStep_quiet {res : Resolution} {o : OpenOutcome} (h : s.mainStep res o = some s') :
    Quiet s s' ∧ s'.snapshotArmed = s.snapshotArmed ∧ s'.granted = s.granted := by
  rw [mainStep] at h
  split at h
  case h_1 =>
    cases h
    exact openCamera_quiet res o
  case h_7 =>
    split_ifs at h
    cases h
    exact ⟨⟨rfl, rfl, rfl, rfl, rfl, fun _ => id⟩, rfl, rfl⟩
  all_goals
    cases h
    exact ⟨⟨rfl, rfl, rfl, rfl, rfl, fun _ => id⟩, rfl, rfl⟩

/-- A holder drops a pointer, or gives a request back. -/
lemma holder_quiet {e : Step} (he : (∃ p, e = .drop p) ∨ (∃ r, e = .release r) ∨
    (∃ r, e = .requeue r) ∨ ∃ p, e = .copy p) (h : s.step e = some s') :
    Quiet s s' ∧ s'.snapshotArmed = s.snapshotArmed ∧ s'.granted = s.granted := by
  rcases he with ⟨p, rfl⟩ | ⟨r, rfl⟩ | ⟨r, rfl⟩ | ⟨p, rfl⟩
  · obtain ⟨-, ⟨-, rfl⟩ | ⟨f, -, -, -, rfl⟩⟩ := drop_cases h
    · exact ⟨⟨rfl, rfl, rfl, rfl, rfl, fun _ => id⟩, rfl, rfl⟩
    · exact ⟨⟨rfl, rfl, rfl, rfl, rfl, List.erase_subset⟩, rfl, rfl⟩
  · obtain ⟨-, rfl⟩ := release_cases h
    exact ⟨⟨rfl, rfl, rfl, rfl, rfl, fun _ => id⟩, rfl, rfl⟩
  · obtain ⟨-, rfl⟩ := requeue_cases h
    exact ⟨⟨rfl, rfl, rfl, rfl, rfl, fun _ => id⟩, rfl, rfl⟩
  · simp only [step] at h
    split_ifs at h
    cases h
    exact ⟨⟨rfl, rfl, rfl, rfl, rfl, fun _ => id⟩, rfl, rfl⟩

lemma popVideo_cases (h : s.step .popVideo = some s') : ∃ p q, s.queue = p :: q ∧
    s' = { s with
      queue := q
      held := p :: s.held } := by
  obtain ⟨⟨p, q⟩, hpop, rfl⟩ := Option.map_eq_some_iff.mp h
  exact ⟨p, q, FrameQueue.eq_of_pop hpop, rfl⟩

lemma popStill_cases (h : s.step .popStill = some s') : ∃ p q, s.stillQueue = p :: q ∧
    s' = { s with
      stillQueue := q
      held := p :: s.held } := by
  obtain ⟨⟨p, q⟩, hpop, rfl⟩ := Option.map_eq_some_iff.mp h
  exact ⟨p, q, FrameQueue.eq_of_pop hpop, rfl⟩

/-- `compare_exchange_strong` grants a snapshot when the flag was clear, and sets it. -/
lemma arm_cases (h : s.step .arm = some s') : Quiet s s' ∧
    ((s'.snapshotArmed = s.snapshotArmed ∧ s'.granted = s.granted) ∨
      s.snapshotArmed = false ∧ s'.snapshotArmed = true ∧ s'.granted = s.granted + 1) := by
  simp only [step] at h
  split_ifs at h with harming harmed
  · cases h
    exact ⟨⟨rfl, rfl, rfl, rfl, rfl, fun _ => id⟩, Or.inl ⟨rfl, rfl⟩⟩
  · cases h
    exact ⟨⟨rfl, rfl, rfl, rfl, rfl, fun _ => id⟩, Or.inr ⟨by simpa using harmed, rfl, rfl⟩⟩

lemma requestSnapshot_quiet (h : s.step .requestSnapshot = some s') :
    Quiet s s' ∧ s'.snapshotArmed = s.snapshotArmed ∧ s'.granted = s.granted := by
  simp only [step] at h
  split_ifs at h
  all_goals
    cases h
    exact ⟨⟨rfl, rfl, rfl, rfl, rfl, fun _ => id⟩, rfl, rfl⟩

lemma Quiet.stillUnderWay (h : Quiet s s') : s'.stillUnderWay = s.stillUnderWay := by
  rw [Manager.stillUnderWay, Manager.stillUnderWay, h.handler]

/-- The push to `queue_`: it takes the frame, or the local pointer goes, perhaps with the frame. -/
lemma handlerStep_pushVideo_cases {frame : FramePtr} {r : Request}
    (hpc : s.handler = .pushVideo frame r) (h : s.handlerStep = some s') :
    (s.queue.length ≠ cameraFrameQueueCapacity ∧ s' = { s with
        queue := s.queue ++ [frame]
        handler := .idle }) ∨
      ∃ frames again back, frames ⊆ s.frames ∧ s' = { s with
        frames := frames
        handler := .requeue again back } := by
  simp only [handlerStep, hpc, FrameQueue.push] at h
  by_cases hfull : s.queue.length = cameraFrameQueueCapacity
  · simp only [if_pos hfull] at h
    split_ifs at h
    · cases h
      exact Or.inr ⟨s.frames, false, ⟨frame, r⟩, fun _ => id, rfl⟩
    · obtain ⟨f, -, hf⟩ := Option.map_eq_some_iff.mp h
      exact Or.inr ⟨s.frames.erase f, true, ⟨frame, f.release⟩, List.erase_subset, hf.symm⟩
  · simp only [if_neg hfull] at h
    cases h
    exact Or.inl ⟨hfull, rfl⟩

/-! ### The snapshots that were granted -/

/-- Two states in which the same number of snapshots is lost. -/
def SameLoss (s s' : Manager) : Prop := s'.granted + s.accounted = s.granted + s'.accounted

lemma Quiet.sameLoss (h : Quiet s s') (harmed : s'.snapshotArmed = s.snapshotArmed)
    (hgranted : s'.granted = s.granted) : SameLoss s s' := by
  rw [SameLoss, accounted, accounted, h.placed, h.stillUnderWay, harmed, hgranted]

lemma arm_sameLoss (h : s.step .arm = some s') : SameLoss s s' := by
  obtain ⟨hquiet, ⟨harmed, hgranted⟩ | ⟨hclear, hset, hgranted⟩⟩ := arm_cases h
  · exact hquiet.sameLoss harmed hgranted
  · rw [SameLoss, accounted, accounted, hquiet.placed, hquiet.stillUnderWay, hclear, hset, hgranted]
    simp only [if_true, Bool.false_eq_true, if_false]
    omega

lemma handlerStep_sameLoss (hroom : s.StillRoom .handler) (h : s.handlerStep = some s') :
    SameLoss s s' := by
  rw [SameLoss, accounted, accounted]
  cases hpc : s.handler with
  | idle => simp [handlerStep, hpc] at h
  | snapshot frame r =>
      simp only [handlerStep, hpc] at h
      split_ifs at h with harmed
      · -- from the flag to libcamera's thread
        cases h
        simp [stillUnderWay, hpc, harmed]
      · cases h
        simp [stillUnderWay, hpc]
  | pushStill frame r =>
      have hpush : s.stillQueue.push stillFrameQueueCapacity frame =
          some (s.stillQueue ++ [frame]) := if_neg (hroom frame r hpc)
      simp only [handlerStep, hpc, hpush] at h
      cases h
      simp only [stillUnderWay, hpc]
      omega
  | pushVideo frame r =>
      obtain ⟨-, rfl⟩ | ⟨frames, again, back, -, rfl⟩ := handlerStep_pushVideo_cases hpc h
      · simp [stillUnderWay, hpc]
      · simp [stillUnderWay, hpc]
  | lookup c =>
      simp only [handlerStep, hpc] at h
      split at h
      all_goals
        cases h
        simp [stillUnderWay, hpc]
  | tag frame r =>
      simp only [handlerStep, hpc] at h
      cases h
      simp [stillUnderWay, hpc]
  | queueRequest again r =>
      simp only [handlerStep, hpc] at h
      cases again
      all_goals
        cases h
        simp [stillUnderWay, hpc, giveBack, queueRequest]
  | status c =>
      simp only [handlerStep, hpc] at h
      split_ifs at h
      all_goals
        cases h
        simp [stillUnderWay, hpc]
  | requeue again r =>
      simp only [handlerStep, hpc] at h
      cases again
      all_goals
        split_ifs at h
        all_goals
          cases h
          simp [stillUnderWay, hpc]

/-- The push to a full `still_queue_` loses the snapshot it was for. -/
lemma handlerStep_loses {frame : FramePtr} {r : Request} (hpc : s.handler = .pushStill frame r)
    (hfull : s.stillQueue.length = stillFrameQueueCapacity) (h : s.handlerStep = some s') :
    s'.granted + s.accounted = s.granted + s'.accounted + 1 := by
  have hpush : s.stillQueue.push stillFrameQueueCapacity frame = none := if_pos hfull
  simp only [handlerStep, hpc, hpush] at h
  cases h
  simp only [accounted, stillUnderWay, hpc]
  omega

/-- The step lemma: with room in `still_queue_` no snapshot is lost. -/
lemma step_sameLoss {e : Step} (hroom : s.StillRoom e) (h : s.step e = some s') :
    SameLoss s s' := by
  cases e with
  | handler => exact handlerStep_sameLoss hroom h
  | arm => exact arm_sameLoss h
  | main res o =>
      obtain ⟨hquiet, harmed, hgranted⟩ := mainStep_quiet h
      exact hquiet.sameLoss harmed hgranted
  | complete r cancelled sequence timestamp =>
      obtain ⟨-, hidle, rfl⟩ := complete_cases h
      simp [SameLoss, accounted, stillUnderWay, hidle]
  | popVideo =>
      obtain ⟨p, q, -, rfl⟩ := popVideo_cases h
      rfl
  | popStill =>
      obtain ⟨p, q, -, rfl⟩ := popStill_cases h
      rfl
  | requestSnapshot =>
      obtain ⟨hquiet, harmed, hgranted⟩ := requestSnapshot_quiet h
      exact hquiet.sameLoss harmed hgranted
  | _ =>
      obtain ⟨hquiet, harmed, hgranted⟩ := holder_quiet (by simp) h
      exact hquiet.sameLoss harmed hgranted

/-- Without room, one is. -/
lemma step_loses {e : Step} (hroom : ¬ s.StillRoom e) (h : s.step e = some s') :
    s'.granted + s.accounted = s.granted + s'.accounted + 1 := by
  cases e with
  | handler =>
      simp only [StillRoom, not_forall, not_not] at hroom
      obtain ⟨frame, r, hpc, hfull⟩ := hroom
      exact handlerStep_loses hpc hfull h
  | _ => exact absurd trivial hroom

/-- The run lemma: no snapshot is accounted for that was not granted. -/
lemma accounted_le_granted {C : Manager → Step → Prop} (h : capture.Reach C s) :
    s.accounted ≤ s.granted := by
  refine h.invariant (fun s => s.accounted ≤ s.granted) ?_ ?_
  · rintro s rfl
    exact le_rfl
  · intro s e s' _ hle _ hstep
    by_cases hroom : s.StillRoom e
    · have hsame : s'.granted + s.accounted = s.granted + s'.accounted := step_sameLoss hroom hstep
      omega
    · have hlost := step_loses hroom hstep
      omega

end Manager

/-- **Snapshots are kept** if and only if `still_queue_` has room whenever `on_request_completed`
pushes to it, along every run. -/
theorem snapshots_kept_iff {s : Manager} (h : capture.Reach (fun _ _ => True) s) :
    SnapshotsKept s ↔ capture.Reach StillRoom s := by
  constructor
  · -- a snapshot that is lost stays lost
    refine h.invariant (fun s => SnapshotsKept s → capture.Reach StillRoom s)
      (fun s hinit _ => .init hinit) ?_
    intro s e s' hs ih _ hstep hkept
    have hle := accounted_le_granted hs
    have hkept' : s'.granted = s'.accounted := hkept
    by_cases hroom : s.StillRoom e
    · have hsame : s'.granted + s.accounted = s.granted + s'.accounted := step_sameLoss hroom hstep
      have hbefore : SnapshotsKept s := by
        rw [SnapshotsKept]
        omega
      exact .step (ih hbefore) hroom hstep
    · have hlost := step_loses hroom hstep
      omega
  · intro hroom
    refine hroom.invariant SnapshotsKept ?_ ?_
    · rintro s rfl
      rfl
    · intro s e s' _ hkept hroom hstep
      have hsame : s'.granted + s.accounted = s.granted + s'.accounted := step_sameLoss hroom hstep
      have hkept' : s.granted = s.accounted := hkept
      rw [SnapshotsKept]
      omega

namespace Manager

/-- A snapshot is requested, and the camera completes a request. -/
def shoots (n : ℕ) : List Step := [.requestSnapshot, .arm] ++ completes n 6

end Manager

/-- A snapshot that the consumer reads before the next one. -/
theorem snapshot_kept :
    ∃ s, capture.exec (fun _ _ => true) .new (opens ++ shoots 0 ++ [.popStill] ++ shoots 1) =
        some s ∧ s.granted = 2 ∧ s.placed = 2 ∧ capture.Reach StillRoom s := by
  have hrun : (capture.exec (fun _ _ => true) .new
      (opens ++ shoots 0 ++ [.popStill] ++ shoots 1)).map
      (fun s => (s.granted, s.placed, s.accounted)) = some (2, 2, 2) := by decide
  obtain ⟨s, hs, hend⟩ := Option.map_eq_some_iff.mp hrun
  simp only [Prod.mk.injEq] at hend
  obtain ⟨hgranted, hplaced, haccounted⟩ := hend
  have hreach : capture.Reach (fun _ _ => True) s :=
    .of_exec_check (fun _ _ _ => trivial) (show capture.init .new from rfl) hs
  exact ⟨s, hs, hgranted, hplaced,
    (snapshots_kept_iff hreach).mp (hgranted.trans haccounted.symm)⟩

/-- Nobody reads `still_queue_`.  Three snapshots are granted and three frames completed; the flag
is clear, libcamera's thread is idle, and `still_queue_` took two. -/
theorem unread_snapshots_lost :
    ¬ ∀ s : Manager, capture.Reach (fun _ _ => True) s → s.handler = .idle →
      s.granted = s.placed + if s.snapshotArmed then 1 else 0 := by
  intro h
  have hrun : (capture.exec (fun _ _ => true) .new
      (opens ++ shoots 0 ++ shoots 1 ++ shoots 2)).map
      (fun s => (s.handler, s.granted, s.placed, s.snapshotArmed)) =
      some (.idle, 3, 2, false) := by decide
  obtain ⟨s, hs, hend⟩ := Option.map_eq_some_iff.mp hrun
  simp only [Prod.mk.injEq] at hend
  obtain ⟨hidle, hgranted, hplaced, harmed⟩ := hend
  have hreach : capture.Reach (fun _ _ => True) s :=
    .of_exec_check (fun _ _ _ => trivial) (show capture.init .new from rfl) hs
  have hbooks := h s hreach hidle
  rw [hgranted, hplaced, harmed] at hbooks
  exact absurd hbooks (by decide)

end RasPiZeroCam
