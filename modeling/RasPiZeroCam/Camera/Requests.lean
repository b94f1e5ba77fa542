import RasPiZeroCam.Camera.Manager
import RasPiZeroCam.Transition.Custody

/-!
Who has a request: the main thread, the camera, libcamera's thread, a live frame, or a holder that
gives it back.

* `ReturnedOnce`: a request that is handed to `queueRequest` is neither queued already nor under a
  live frame, and no completion leads to two requeues.
* `requests_returned_once`: it holds along the runs in which `queue_` has room whenever
  `on_request_completed` pushes (`HasRoom`).
* `full_queue_returns_twice`: when the queue is full, the destructor of the frame returns the
  request, and the handler returns it once more.
-/

namespace RasPiZeroCam

open Transition System

namespace Manager

/-- A thread is at its call of `camera_->queueRequest(r)`. -/
def Hands (s : Manager) (r : Request) : Prop :=
  (∃ todo, s.main = .queueing (r :: todo)) ∨
  (∃ again back, s.handler = .queueRequest again back ∧ back.request = r) ∨
  ∃ back ∈ s.requeues, back.request = r

/-- `on_request_completed` does not find `queue_` full. -/
def HasRoom (s : Manager) : Step → Prop
  | .handler => ∀ frame r, s.handler = .pushVideo frame r →
      s.queue.length ≠ cameraFrameQueueCapacity
  | _ => True

end Manager

open Manager

/-- **Requests go back to the camera once**: none is handed to `queueRequest` while the camera has
it, or while a live frame points into its buffer, and each completion leads to at most one
requeue. -/
structure ReturnedOnce (s : Manager) : Prop where
  unqueued : ∀ r, s.Hands r → r ∉ s.queued
  dead : ∀ r, s.Hands r → ∀ f ∈ s.frames, f.release.buffer ≠ r.buffer
  once : s.requeued.Nodup

namespace Manager

/-! ### The places a request can be in -/

/-- The requests that `start_streaming` has to queue, or will have to. -/
def pending (s : Manager) : List Request :=
  match s.main with
  | .closed => s.requests
  | .queueing todo => todo
  | _ => []

/-- The requests that wait for a completion. -/
def waiting (s : Manager) : List Request := s.pending ++ s.queued

/-- The request of libcamera's thread, unless a frame has it. -/
def handlerReturn (s : Manager) : List Return :=
  match s.handler with
  | .status c => [⟨c.number, c.request⟩]
  | .lookup c => [⟨c.number, c.request⟩]
  | .requeue _ r => [r]
  | .queueRequest _ r => [r]
  | _ => []

/-- What the destructor of a frame returns. -/
def frameReturn (f : Frame Request) : Return := ⟨f.id, f.release⟩

/-- The requests that have been completed, and not gone back. -/
def returns (s : Manager) : List Return :=
  s.handlerReturn ++ (s.frames.map frameReturn ++ (s.releases ++ s.requeues))

/-- In how many places a request is. -/
def requestPlaces (s : Manager) (r : Request) : ℕ :=
  s.waiting.count r + (s.returns.map (·.request)).count r

/-- In how many places a completion is: on its way back, or requeued. -/
def completionPlaces (s : Manager) (n : ℕ) : ℕ :=
  (s.returns.map (·.completion)).count n + s.requeued.count n

/-- `open` has allocated the buffer of the request. -/
def Allocated (s : Manager) (r : Request) : Prop := r.buffer.id < s.allocated

/-! ### What a step moves -/

/-- What a step does with requests: it keeps them or loses some, gives one back to the camera,
takes one that the camera completed, or makes new ones. -/
inductive Moves (s s' : Manager) : Prop
  | keep : s'.waiting.Subperm s.waiting → s'.returns.Subperm s.returns →
      s'.requeued = s.requeued → s'.allocated = s.allocated → s'.completions = s.completions →
      Moves s s'
  | back (r : Return) : s'.waiting.Subperm (r.request :: s.waiting) →
      (r :: s'.returns).Perm s.returns → s'.requeued = r.completion :: s.requeued →
      s'.allocated = s.allocated → s'.completions = s.completions → Moves s s'
  | complete (r : Request) : (r :: s'.waiting).Perm s.waiting →
      s'.returns = ⟨s.completions, r⟩ :: s.returns → s'.requeued = s.requeued →
      s'.allocated = s.allocated → s'.completions = s.completions + 1 → Moves s s'
  | make (new : List Request) : s'.waiting.Perm (new ++ s.waiting) → new.Nodup →
      (∀ r ∈ new, ¬ s.Allocated r ∧ s'.Allocated r) → s.allocated ≤ s'.allocated →
      s'.returns = s.returns → s'.requeued = s.requeued → s'.completions = s.completions →
      Moves s s'

variable {s s' : Manager}

lemma count_map_le_of_subperm {α β : Type*} [BEq β] [LawfulBEq β] {l₁ l₂ : List α}
    (h : l₁.Subperm l₂) (f : α → β) (b : β) : (l₁.map f).count b ≤ (l₂.map f).count b := by
  obtain ⟨l, hperm, hsub⟩ := h
  rw [← (hperm.map f).count_eq]
  exact (hsub.map f).count_le b

/-- A step conserves the requests. -/
lemma Moves.requests (h : Moves s s') : Conserves requestPlaces Allocated s s' := by
  cases h with
  | keep hwait hret _ halloc _ =>
      refine .of_le (fun r => ?_) fun r hr => by rwa [Allocated, halloc]
      exact Nat.add_le_add (hwait.count_le r) (count_map_le_of_subperm hret _ r)
  | back t hwait hret _ halloc _ =>
      refine .of_le (fun r => ?_) fun r hr => by rwa [Allocated, halloc]
      have hw := hwait.count_le r
      have hr := (hret.map (·.request)).count_eq r
      rw [List.map_cons, List.count_cons] at hr
      rw [List.count_cons] at hw
      simp only [requestPlaces]
      omega
  | complete t hwait hret _ halloc _ =>
      refine .of_le (fun r => ?_) fun r hr => by rwa [Allocated, halloc]
      have hw := hwait.count_eq r
      rw [List.count_cons] at hw
      simp only [requestPlaces, hret, List.map_cons, List.count_cons]
      omega
  | make new hwait hnew hfresh halloc hret _ _ =>
      have hcount : ∀ r, s'.requestPlaces r = new.count r + s.requestPlaces r := by
        intro r
        simp only [requestPlaces, hret, hwait.count_eq r, List.count_append]
        omega
      refine ⟨fun r hr => ?_, fun r hr => ?_⟩
      · have hnot : r ∉ new := fun hmem => (hfresh r hmem).1 hr
        rw [hcount, List.count_eq_zero_of_not_mem hnot]
        exact ⟨by omega, lt_of_lt_of_le hr halloc⟩
      · rw [hcount]
        by_cases hmem : r ∈ new
        · have hone := List.nodup_iff_count_le_one.mp hnew r
          exact Or.inr ⟨by omega, (hfresh r hmem).2⟩
        · rw [List.count_eq_zero_of_not_mem hmem]
          exact Or.inl (by omega)

/-- And the completions. -/
lemma Moves.completions (h : Moves s s') :
    Conserves completionPlaces (fun s n => n < s.completions) s s' := by
  cases h with
  | keep _ hret hreq _ hcomp =>
      refine .of_le (fun n => ?_) fun n hn => by rwa [hcomp]
      rw [completionPlaces, hreq]
      exact Nat.add_le_add_right (count_map_le_of_subperm hret _ n) _
  | back t _ hret hreq _ hcomp =>
      refine .of_le (fun n => ?_) fun n hn => by rwa [hcomp]
      have hr := (hret.map (·.completion)).count_eq n
      rw [List.map_cons, List.count_cons] at hr
      simp only [completionPlaces, hreq, List.count_cons]
      omega
  | complete t _ hret hreq _ hcomp =>
      have hcount : ∀ n, s'.completionPlaces n =
          s.completionPlaces n + if s.completions = n then 1 else 0 := by
        intro n
        simp only [completionPlaces, hret, hreq, List.map_cons, List.count_cons, beq_iff_eq]
        omega
      refine ⟨fun n hn => ?_, fun n hn => ?_⟩
      · rw [hcount, if_neg hn.ne']
        exact ⟨le_rfl, by omega⟩
      · rw [hcount]
        split_ifs with heq
        · exact Or.inr ⟨le_rfl, by omega⟩
        · exact Or.inl le_rfl
  | make _ _ _ _ _ hret hreq hcomp =>
      refine .of_le (fun n => ?_) fun n hn => by rwa [hcomp]
      rw [completionPlaces, hret, hreq, completionPlaces]

/-! ### The main thread -/

lemma createRequests_sublist (buffers : List (FrameBuffer × BufferOutcome)) :
    ((createRequests buffers).1.map (·.buffer)).Sublist (buffers.map (·.1)) := by
  induction buffers with
  | nil => exact List.Sublist.slnil
  | cons b rest ih =>
      obtain ⟨buffer, o⟩ := b
      rw [createRequests]
      split
      · exact ih.cons_cons buffer
      · exact List.nil_sublist _

lemma allocatorBuffers_id (n : ℕ) (buffers : List BufferOutcome) :
    (allocatorBuffers n buffers).map (·.1.id) = List.range' n buffers.length := by
  simp only [allocatorBuffers, List.map_map]
  exact List.zipIdx_map_snd n buffers

/-- The requests `create_requests` makes are for new buffers, one for each. -/
lemma createRequests_fresh (n : ℕ) (buffers : List BufferOutcome) :
    let new := (createRequests (allocatorBuffers n buffers)).1
    new.Nodup ∧ ∀ r ∈ new, n ≤ r.buffer.id ∧ r.buffer.id < n + buffers.length := by
  intro new
  have hsub : (new.map (·.buffer.id)).Sublist (List.range' n buffers.length) := by
    have h := (createRequests_sublist (allocatorBuffers n buffers)).map (·.id)
    rwa [List.map_map, List.map_map, show (FrameBuffer.id ∘ Prod.fst) =
      (fun b : FrameBuffer × BufferOutcome => b.1.id) from rfl, allocatorBuffers_id] at h
  refine ⟨(hsub.nodup List.nodup_range').of_map, fun r hr => ?_⟩
  have hmem := hsub.subset (List.mem_map_of_mem hr)
  simpa [List.mem_range'_1] using hmem

/-- `open` makes requests for new buffers, and has them all to queue when it gets that far. -/
lemma openCamera_spec (res : Resolution) (o : OpenOutcome) (hmain : s.main = .closed) :
    ∃ new, (s.openCamera res o).pending = s.requests ++ new ∧ new.Nodup ∧
      (∀ r ∈ new, s.allocated ≤ r.buffer.id ∧ r.buffer.id < (s.openCamera res o).allocated) ∧
      s.allocated ≤ (s.openCamera res o).allocated ∧ (s.openCamera res o).queued = s.queued ∧
      (s.openCamera res o).returns = s.returns ∧
      (s.openCamera res o).requeued = s.requeued ∧
      (s.openCamera res o).completions = s.completions := by
  obtain ⟨hnodup, hfresh⟩ := createRequests_fresh s.allocated o.buffers
  simp only [openCamera]
  split
  · exact ⟨[], by simp [pending, hmain], List.nodup_nil, by simp, le_rfl, rfl, rfl, rfl, rfl⟩
  split
  · exact ⟨[], by simp [pending, hmain], List.nodup_nil, by simp, le_rfl, rfl, rfl, rfl, rfl⟩
  split
  · exact ⟨[], by simp [pending, hmain], List.nodup_nil, by simp, le_rfl, rfl, rfl, rfl, rfl⟩
  split
  · exact ⟨[], by simp [pending, hmain], List.nodup_nil, by simp, Nat.le_add_right _ _, rfl, rfl,
      rfl, rfl⟩
  split
  · exact ⟨_, by simp [pending, hmain], hnodup, hfresh, Nat.le_add_right _ _, rfl, rfl, rfl, rfl⟩
  · exact ⟨_, by simp [pending], hnodup, hfresh, Nat.le_add_right _ _, rfl, rfl, rfl, rfl⟩

lemma openCamera_moves (res : Resolution) (o : OpenOutcome) (hmain : s.main = .closed) :
    Moves s (s.openCamera res o) := by
  obtain ⟨new, hpending, hnodup, hfresh, halloc, hqueued, hret, hreq, hcomp⟩ :=
    openCamera_spec res o hmain
  refine .make new ?_ hnodup (fun r hr => ⟨(hfresh r hr).1.not_gt, (hfresh r hr).2⟩) halloc hret
    hreq hcomp
  have hbefore : s.pending = s.requests := by simp [pending, hmain]
  rw [waiting, waiting, hpending, hqueued, hbefore, ← List.append_assoc]
  exact List.perm_append_comm.append_right _

/-- A request that is handed to the camera is queued while the camera streams. -/
lemma queueRequest_perm (r : Request) (h : s.streaming = true) :
    (s.queueRequest r).queued.Perm (r :: s.queued) := by
  rw [queueRequest, if_pos h]
  exact List.perm_append_singleton r s.queued

/-- Otherwise it is lost. -/
lemma queueRequest_queued (r : Request) (s : Manager) :
    (s.queueRequest r).queued.Subperm (r :: s.queued) := by
  by_cases h : s.streaming = true
  · exact (queueRequest_perm r h).subperm
  · rw [queueRequest, if_neg h]
    exact (List.sublist_cons_self r s.queued).subperm

/-- It waits in the camera instead of where it was. -/
lemma queueRequest_waiting {r : Request} {l : List Request} :
    (l ++ (s.queueRequest r).queued).Subperm (r :: (l ++ s.queued)) :=
  ((List.Subperm.refl l).append (queueRequest_queued r s)).trans List.perm_middle.subperm

lemma mainStep_moves {res : Resolution} {o : OpenOutcome} (h : s.mainStep res o = some s') :
    Moves s s' := by
  rw [mainStep] at h
  split at h
  case h_1 hmain =>
    cases h
    exact openCamera_moves res o hmain
  case h_2 hmain =>
    cases h
    exact .keep (by simp [waiting, pending, hmain, List.Subperm.refl]) (.refl _) rfl rfl rfl
  case h_3 r todo hmain =>
    cases h
    refine .keep ?_ (.refl _) rfl rfl rfl
    have hwait : s.waiting = r :: (todo ++ s.queued) := by simp [waiting, pending, hmain]
    rw [hwait]
    exact queueRequest_waiting
  case h_7 hmain =>
    split_ifs at h with hdone
    cases h
    exact .keep (by simp [waiting, pending, hdone.1, List.nil_subperm]) (.refl _) rfl rfl rfl
  all_goals
    rename_i hmain
    cases h
    exact .keep (by simp [waiting, pending, hmain, List.Subperm.refl]) (.refl _) rfl rfl rfl

/-! ### The holders of frames -/

lemma drop_cases {p : FramePtr} (h : s.drop p = some s') : p ∈ s.held ∧
    ((({ s with held := s.held.erase p } : Manager).referenced p = true ∧
        s' = { s with held := s.held.erase p }) ∨
      ∃ f ∈ s.frames, f.id = p ∧
        ¬ ({ s with held := s.held.erase p } : Manager).referenced p = true ∧
        s' = { s with
          held := s.held.erase p
          frames := s.frames.erase f
          releases := ⟨p, f.release⟩ :: s.releases }) := by
  simp only [drop] at h
  split_ifs at h with hheld href
  · cases h
    exact ⟨hheld, Or.inl ⟨href, rfl⟩⟩
  · obtain ⟨f, hf, rfl⟩ := Option.map_eq_some_iff.mp h
    exact ⟨hheld, Or.inr ⟨f, List.mem_of_find?_eq_some hf, by simpa using List.find?_some hf, href,
      rfl⟩⟩

lemma release_cases {r : Return} (h : s.release r = some s') : r ∈ s.releases ∧
    s' = { s with
      releases := s.releases.erase r
      requeues := if s.running then r :: s.requeues else s.requeues } := by
  simp only [release] at h
  split_ifs at h with hmem
  all_goals exact ⟨hmem, by simp_all⟩

lemma requeue_cases {r : Return} (h : s.requeue r = some s') : r ∈ s.requeues ∧
    s' = ({ s with requeues := s.requeues.erase r } : Manager).giveBack r := by
  simp only [requeue] at h
  split_ifs at h with hmem
  cases h
  exact ⟨hmem, rfl⟩

lemma complete_cases {r : Request} {cancelled : Bool} {sequence timestamp : ℕ}
    (h : s.complete r cancelled sequence timestamp = some s') :
    r ∈ s.queued ∧ s.handler = .idle ∧ s' = { s with
      queued := s.queued.erase r
      completions := s.completions + 1
      handler := .status ⟨s.completions, r, cancelled, sequence, timestamp⟩ } := by
  simp only [complete] at h
  split_ifs at h with henabled
  cases h
  exact ⟨henabled.1, henabled.2, rfl⟩

/-- With a frame goes its request: it is on its way back. -/
lemma drop_returns {p : FramePtr} (h : s.drop p = some s') : s'.returns.Perm s.returns := by
  obtain ⟨-, ⟨-, rfl⟩ | ⟨f, hmem, rfl, -, rfl⟩⟩ := drop_cases h
  · rfl
  · have hframes := (List.perm_cons_erase hmem).map frameReturn
    rw [List.map_cons, frameReturn] at hframes
    refine List.Perm.append_left _ (.trans ?_ (hframes.append_right _).symm)
    exact List.perm_middle

lemma drop_moves {p : FramePtr} (h : s.drop p = some s') : Moves s s' := by
  have hret := (drop_returns h).subperm
  obtain ⟨-, ⟨-, rfl⟩ | ⟨f, -, -, -, rfl⟩⟩ := drop_cases h
  · exact .keep (.refl _) hret rfl rfl rfl
  · exact .keep (.refl _) hret rfl rfl rfl

/-- Past the test of `running_`, or lost. -/
lemma release_returns {r : Return} (h : s.release r = some s') :
    if s.running then s'.returns.Perm s.returns else (r :: s'.returns).Perm s.returns := by
  obtain ⟨hmem, rfl⟩ := release_cases h
  have herase := (List.perm_cons_erase hmem).append_right s.requeues
  split_ifs with hrun
  · simp only [returns, hrun]
    refine List.Perm.append_left _ (List.Perm.append_left _ ?_)
    exact List.perm_middle.trans herase.symm
  · have hmiddle : ∀ l, (r :: (s.handlerReturn ++ (s.frames.map frameReturn ++ l))).Perm
        (s.handlerReturn ++ (s.frames.map frameReturn ++ (r :: l))) := by
      intro l
      rw [← List.append_assoc, ← List.append_assoc]
      exact List.perm_middle.symm
    simp only [returns, hrun]
    exact (hmiddle _).trans (.append_left _ (.append_left _ herase.symm))

lemma release_moves {r : Return} (h : s.release r = some s') : Moves s s' := by
  have hret : s'.returns.Subperm s.returns := by
    have hperm := release_returns h
    split_ifs at hperm with hrun
    · exact hperm.subperm
    · exact (List.sublist_cons_self r _).subperm.trans hperm.subperm
  obtain ⟨-, rfl⟩ := release_cases h
  exact .keep (.refl _) hret rfl rfl rfl

/-- A holder hands its request to the camera. -/
lemma requeue_returns {r : Return} (h : s.requeue r = some s') :
    (r :: s'.returns).Perm s.returns := by
  obtain ⟨hmem, rfl⟩ := requeue_cases h
  simp only [returns, ← List.append_assoc]
  exact List.perm_middle.symm.trans (List.Perm.append_left _ (List.perm_cons_erase hmem).symm)

lemma requeue_moves {r : Return} (h : s.requeue r = some s') : Moves s s' := by
  have hret := requeue_returns h
  obtain ⟨-, rfl⟩ := requeue_cases h
  exact .back r queueRequest_waiting hret rfl rfl rfl

lemma complete_moves {r : Request} {cancelled : Bool} {sequence timestamp : ℕ}
    (h : s.complete r cancelled sequence timestamp = some s') : Moves s s' := by
  obtain ⟨hmem, hidle, rfl⟩ := complete_cases h
  refine .complete r ?_ ?_ rfl rfl rfl
  · exact List.perm_middle.symm.trans (List.Perm.append_left _ (List.perm_cons_erase hmem).symm)
  · simp [returns, handlerReturn, hidle]

/-! ### libcamera's thread -/

/-- The handler is not inside the destructor of a frame that `push` dropped. -/
def Single (s : Manager) : Prop :=
  match s.handler with
  | .requeue again _ => again = false
  | .queueRequest again _ => again = false
  | _ => True

/-- A step of the handler that leaves the camera and the holders alone. -/
lemma Moves.of_handler (hreturn : s'.handlerReturn.Subperm s.handlerReturn)
    (hframes : s'.frames.map frameReturn = s.frames.map frameReturn)
    (hsame : (s'.waiting, s'.releases ++ s'.requeues, s'.requeued, s'.allocated, s'.completions) =
      (s.waiting, s.releases ++ s.requeues, s.requeued, s.allocated, s.completions)) :
    Moves s s' := by
  simp only [Prod.mk.injEq] at hsame
  obtain ⟨hwait, hback, hrequeued, hallocated, hcompletions⟩ := hsame
  refine .keep (hwait ▸ .refl _) ?_ hrequeued hallocated hcompletions
  rw [returns, returns, hframes, hback]
  exact hreturn.append (.refl _)

/-- Another stream type does not change what the destructor returns. -/
lemma frameReturn_tagStill (frame : FramePtr) : frameReturn ∘ tagStill frame = frameReturn := by
  funext f
  simp only [Function.comp, tagStill]
  split <;> rfl

/-- A completion's request stays with the handler until a frame has it. -/
lemma handlerStep_lookup_moves {c : Completion} (hpc : s.handler = .lookup c)
    (h : s.handlerStep = some s') : Moves s s' ∧ s'.Single := by
  have hreturn : s.handlerReturn = [⟨c.number, c.request⟩] := by rw [handlerReturn, hpc]
  simp only [handlerStep, hpc] at h
  split at h
  · cases h
    exact ⟨.of_handler (hreturn ▸ .refl _) rfl rfl, rfl⟩
  · cases h
    have hbefore : s.returns = ⟨c.number, c.request⟩ ::
        (s.frames.map frameReturn ++ (s.releases ++ s.requeues)) := by
      rw [returns, hreturn, List.singleton_append]
    refine ⟨.keep (.refl _) ?_ rfl rfl rfl, trivial⟩
    rw [hbefore]
    exact .refl _

/-- From the exchange of `snapshot_armed_` to `push`, the frame has the request. -/
lemma handlerStep_frame_moves (hroom : s.HasRoom .handler) {frame : FramePtr} {r : Request}
    (hpc : s.handler = .snapshot frame r ∨ s.handler = .tag frame r ∨
      s.handler = .pushStill frame r ∨ s.handler = .pushVideo frame r)
    (h : s.handlerStep = some s') : Moves s s' ∧ s'.Single := by
  have hnone : ∀ l : List Return, ([] : List Return).Subperm l := fun l => List.nil_subperm
  rw [handlerStep] at h
  obtain hpc | hpc | hpc | hpc := hpc <;> simp only [hpc] at h
  · split_ifs at h
    · cases h
      exact ⟨.of_handler (hnone _) rfl rfl, trivial⟩
    · cases h
      exact ⟨.of_handler (hnone _) rfl rfl, trivial⟩
  · cases h
    refine ⟨.of_handler (hnone _) ?_ rfl, trivial⟩
    rw [List.map_map, frameReturn_tagStill]
  · split at h
    · cases h
      exact ⟨.of_handler (hnone _) rfl rfl, trivial⟩
    · cases h
      exact ⟨.of_handler (hnone _) rfl rfl, trivial⟩
  · have hpush : s.queue.push cameraFrameQueueCapacity frame = some (s.queue ++ [frame]) :=
      if_neg (hroom frame r hpc)
    rw [hpush] at h
    cases h
    exact ⟨.of_handler (hnone _) rfl rfl, trivial⟩

lemma handlerStep_moves (hroom : s.HasRoom .handler) (hsingle : s.Single)
    (h : s.handlerStep = some s') : Moves s s' ∧ s'.Single := by
  cases hpc : s.handler with
  | idle => simp [handlerStep, hpc] at h
  | status c =>
      have hreturn : s.handlerReturn = [⟨c.number, c.request⟩] := by rw [handlerReturn, hpc]
      simp only [handlerStep, hpc] at h
      split_ifs at h
      · cases h
        exact ⟨.of_handler List.nil_subperm rfl rfl, trivial⟩
      · cases h
        exact ⟨.of_handler (hreturn ▸ .refl _) rfl rfl, trivial⟩
  | lookup c => exact handlerStep_lookup_moves hpc h
  | snapshot frame r => exact handlerStep_frame_moves hroom (Or.inl hpc) h
  | tag frame r => exact handlerStep_frame_moves hroom (Or.inr (Or.inl hpc)) h
  | pushStill frame r => exact handlerStep_frame_moves hroom (Or.inr (Or.inr (Or.inl hpc))) h
  | pushVideo frame r => exact handlerStep_frame_moves hroom (Or.inr (Or.inr (Or.inr hpc))) h
  | requeue again r =>
      have hreturn : s.handlerReturn = [r] := by rw [handlerReturn, hpc]
      have hagain : again = false := by rwa [Single, hpc] at hsingle
      simp only [handlerStep, hpc, hagain, Bool.false_eq_true, if_false] at h
      split_ifs at h
      · cases h
        exact ⟨.of_handler (hreturn ▸ .refl _) rfl rfl, rfl⟩
      · cases h
        exact ⟨.of_handler List.nil_subperm rfl rfl, trivial⟩
  | queueRequest again r =>
      have hreturn : s.handlerReturn = [r] := by rw [handlerReturn, hpc]
      have hagain : again = false := by rwa [Single, hpc] at hsingle
      simp only [handlerStep, hpc, hagain, Bool.false_eq_true, if_false] at h
      cases h
      have hbefore : s.returns = r ::
          (s.frames.map frameReturn ++ (s.releases ++ s.requeues)) := by
        rw [returns, hreturn, List.singleton_append]
      refine ⟨.back r queueRequest_waiting ?_ rfl rfl rfl, trivial⟩
      rw [hbefore]
      exact .refl _

/-! ### Runs -/

lemma openCamera_handler (res : Resolution) (o : OpenOutcome) :
    (s.openCamera res o).handler = s.handler := by
  simp only [openCamera]
  repeat' split
  all_goals rfl

/-- A step that touches no request. -/
structure Rests (s s' : Manager) : Prop where
  handler : s'.handler = s.handler := by rfl
  waiting : s'.waiting = s.waiting := by rfl
  returns : s'.returns = s.returns := by rfl
  requeued : s'.requeued = s.requeued := by rfl
  allocated : s'.allocated = s.allocated := by rfl
  completions : s'.completions = s.completions := by rfl

lemma Rests.moves (h : Rests s s') : Moves s s' :=
  .keep (h.waiting ▸ .refl _) (h.returns ▸ .refl _) h.requeued h.allocated h.completions

/-- A consumer pops or copies a pointer, or somebody asks for a snapshot. -/
lemma step_rests {e : Step}
    (he : e = .popVideo ∨ e = .popStill ∨ (∃ frame, e = .copy frame) ∨ e = .requestSnapshot ∨
      e = .arm) (h : s.step e = some s') : Rests s s' := by
  obtain rfl | rfl | ⟨frame, rfl⟩ | rfl | rfl := he
  · obtain ⟨_, -, rfl⟩ := Option.map_eq_some_iff.mp h
    exact ⟨rfl, rfl, rfl, rfl, rfl, rfl⟩
  · obtain ⟨_, -, rfl⟩ := Option.map_eq_some_iff.mp h
    exact ⟨rfl, rfl, rfl, rfl, rfl, rfl⟩
  all_goals
    simp only [step] at h
    split_ifs at h
    all_goals
      cases h
      exact ⟨rfl, rfl, rfl, rfl, rfl, rfl⟩

/-- Only libcamera's thread moves in `on_request_completed`. -/
lemma step_handler {e : Step} (h : s.step e = some s') :
    s'.handler = s.handler ∨ (∃ c, s'.handler = .status c) ∨ e = .handler := by
  cases e with
  | main res o =>
      simp only [step, mainStep] at h
      split at h
      case h_1 =>
        cases h
        exact Or.inl (openCamera_handler res o)
      case h_7 =>
        split_ifs at h
        cases h
        exact Or.inl rfl
      all_goals
        cases h
        exact Or.inl rfl
  | complete r cancelled sequence timestamp =>
      obtain ⟨-, -, rfl⟩ := complete_cases h
      exact Or.inr (Or.inl ⟨_, rfl⟩)
  | handler => exact Or.inr (Or.inr rfl)
  | drop p =>
      obtain ⟨-, ⟨-, rfl⟩ | ⟨f, -, -, -, rfl⟩⟩ := drop_cases h
      · exact Or.inl rfl
      · exact Or.inl rfl
  | release r =>
      obtain ⟨-, rfl⟩ := release_cases h
      exact Or.inl rfl
  | requeue r =>
      obtain ⟨-, rfl⟩ := requeue_cases h
      exact Or.inl rfl
  | _ => exact Or.inl (step_rests (by simp) h).handler

/-- The step lemma: what a step moves. -/
lemma step_moves {e : Step} (hroom : s.HasRoom e) (hsingle : s.Single)
    (h : s.step e = some s') : Moves s s' := by
  cases e with
  | main res o => exact mainStep_moves h
  | complete r cancelled sequence timestamp => exact complete_moves h
  | handler => exact (handlerStep_moves hroom hsingle h).1
  | drop frame => exact drop_moves h
  | release r => exact release_moves h
  | requeue r => exact requeue_moves h
  | _ => exact (step_rests (by simp) h).moves

/-- The step lemma for `Single`. -/
lemma step_single {e : Step} (hroom : s.HasRoom e) (hsingle : s.Single)
    (h : s.step e = some s') : s'.Single := by
  obtain hsame | ⟨c, hstatus⟩ | rfl := step_handler h
  · rw [Single, hsame]
    exact hsingle
  · rw [Single, hstatus]
    trivial
  · exact (handlerStep_moves hroom hsingle h).2

/-- The run lemma for `Single`. -/
lemma single_of_reach (h : capture.Reach HasRoom s) : s.Single := by
  refine h.invariant Single ?_ fun s e s' _ hsingle hroom hstep => step_single hroom hsingle hstep
  rintro s rfl
  trivial

/-- A request is in one place at most, and only after `open` has allocated its buffer. -/
lemma request_custody (h : capture.Reach HasRoom s) (r : Request) :
    s.requestPlaces r ≤ 1 ∧ (0 < s.requestPlaces r → s.Allocated r) := by
  refine h.custody requestPlaces Allocated ?_ ?_ r
  · rintro s rfl r
    simp [requestPlaces, waiting, pending, returns, handlerReturn, new]
  · intro s e s' hs hroom hstep
    exact (step_moves hroom (single_of_reach hs) hstep).requests

lemma completionPlaces_le_one (h : capture.Reach HasRoom s) (n : ℕ) :
    s.completionPlaces n ≤ 1 := by
  refine (h.custody completionPlaces (fun s n => n < s.completions) ?_ ?_ n).1
  · rintro s rfl n
    simp [completionPlaces, returns, handlerReturn, new]
  · intro s e s' hs hroom hstep
    exact (step_moves hroom (single_of_reach hs) hstep).completions

/-- The requests of the live frames. -/
lemma map_frameReturn (frames : List (Frame Request)) :
    (frames.map frameReturn).map (·.request) = frames.map (·.release) := by
  rw [List.map_map]
  rfl

/-- A request that a thread hands to the camera is in that thread's place, apart from those in the
camera and under live frames. -/
lemma Hands.places {r : Request} (h : s.Hands r) :
    1 + s.queued.count r + (s.frames.map (·.release)).count r ≤ s.requestPlaces r := by
  simp only [requestPlaces, waiting, returns, List.map_append, List.count_append, map_frameReturn]
  obtain ⟨todo, hmain⟩ | ⟨again, back, hpc, rfl⟩ | ⟨back, hback, rfl⟩ := h
  · have hpending : s.pending = r :: todo := by rw [pending, hmain]
    rw [hpending, List.count_cons_self]
    omega
  · have hreturn : s.handlerReturn = [back] := by rw [handlerReturn, hpc]
    rw [hreturn, List.map_singleton, List.count_singleton_self]
    omega
  · have hmem : back.request ∈ s.requeues.map (·.request) := List.mem_map_of_mem hback
    have hpos := List.count_pos_iff.mpr hmem
    omega

end Manager

/-- **Requests go back to the camera once**, along every run in which `queue_` has room whenever
`on_request_completed` pushes. -/
theorem requests_returned_once {s : Manager} (h : capture.Reach HasRoom s) : ReturnedOnce s := by
  have hplaces : ∀ r, s.Hands r →
      s.queued.count r = 0 ∧ (s.frames.map (·.release)).count r = 0 := by
    intro r hr
    have hone := hr.places.trans (request_custody h r).1
    omega
  refine ⟨fun r hr => List.count_eq_zero.mp (hplaces r hr).1, fun r hr f hf heq => ?_, ?_⟩
  · obtain rfl : f.release = r := congrArg Request.mk heq
    exact List.count_eq_zero.mp (hplaces _ hr).2 (List.mem_map_of_mem hf)
  · refine List.nodup_iff_count_le_one.mpr fun n => ?_
    exact (Nat.le_add_left _ _).trans (completionPlaces_le_one h n)

namespace Manager

/-- Four buffers, and nothing fails. -/
def four : OpenOutcome where
  initCameraManager := true
  acquireCamera := true
  configureStream := some 1280
  allocate := true
  buffers := List.replicate 4 ⟨7, [8, 4], some 4096, true, true⟩
  start := true

/-- The main thread opens the manager. -/
def opens : List Step := List.replicate 7 (.main .medium four)

/-- The main thread closes it, the camera having no requests. -/
def closes : List Step := List.replicate 3 (.main .medium four)

/-- The request for the buffer numbered `n`. -/
def request (n : ℕ) : Request := ⟨⟨n, 7, [8, 4]⟩⟩

/-- The camera completes a request, and libcamera's thread takes `k` steps. -/
def completes (n k : ℕ) : List Step :=
  .complete (request n) false 0 0 :: List.replicate k .handler

/-- A session in which nobody takes the four frames; the first buffer is numbered `n`. -/
def untouched (n : ℕ) : List Step :=
  opens ++ completes n 4 ++ completes (n + 1) 4 ++ completes (n + 2) 4 ++ completes (n + 3) 4 ++
    closes

/-- The queue has room at every step of libcamera's thread. -/
def roomy (s : Manager) : Step → Bool
  | .handler => s.queue.length ≠ cameraFrameQueueCapacity
  | _ => true

lemma hasRoom_of_roomy {s : Manager} {e : Step} (h : roomy s e = true) : s.HasRoom e := by
  cases e with
  | handler =>
      intro frame r _
      simpa [roomy] using h
  | _ => trivial

end Manager

/-- A consumer pops a frame and drops it. -/
theorem frame_returned :
    ∃ s, capture.exec roomy .new (opens ++ completes 0 4 ++
        [.popVideo, .drop 0, .release ⟨0, request 0⟩, .requeue ⟨0, request 0⟩]) = some s ∧
      s.requeued = [0] ∧ ReturnedOnce s := by
  have hrun : (capture.exec roomy .new (opens ++ completes 0 4 ++
      [.popVideo, .drop 0, .release ⟨0, request 0⟩, .requeue ⟨0, request 0⟩])).map
      (fun s => s.requeued) = some [0] := by decide
  obtain ⟨s, hs, hrequeued⟩ := Option.map_eq_some_iff.mp hrun
  exact ⟨s, hs, hrequeued, requests_returned_once
    (.of_exec_check (fun _ _ => hasRoom_of_roomy) (show capture.init .new from rfl) hs)⟩

/-- Two sessions have left eight frames in `queue_`.  The first frame of the third is dropped, its
destructor gives the request back, and the handler is about to queue it again. -/
theorem full_queue_returns_twice :
    ¬ ∀ s : Manager, capture.Reach (fun _ _ => True) s → ReturnedOnce s := by
  intro h
  have hrun : (capture.exec (fun _ _ => true) .new
      (untouched 0 ++ untouched 4 ++ opens ++ completes 8 7)).map
      (fun s => (s.handler, s.queued)) = some (.queueRequest false ⟨8, request 8⟩,
        [request 9, request 10, request 11, request 8]) := by decide
  obtain ⟨s, hs, hend⟩ := Option.map_eq_some_iff.mp hrun
  obtain ⟨hhandler, hqueued⟩ := Prod.mk.inj hend
  have hreach : capture.Reach (fun _ _ => True) s :=
    .of_exec_check (fun _ _ _ => trivial) (show capture.init .new from rfl) hs
  refine (h s hreach).unqueued (request 8) (Or.inr (Or.inl ⟨_, _, hhandler, rfl⟩)) ?_
  simp [hqueued]

end RasPiZeroCam
