import RasPiZeroCam.Camera.Requests

/-!
Frames and the sessions they come from: between two `open` calls `close` unmaps the buffers and
destroys the requests.

* `Owned`: the live frames are those some `shared_ptr` points to, along every run.
* `live_after_close_iff`: so none is live after `close` if and only if none is in a queue or with a
  consumer.
* `Apart`: every live frame refers to a mapped buffer and to a request of `requests_`, and so does
  every `release` past the test of `running_`.
* `sessions_apart`: it holds along the runs in which no frame is left over when `close` unmaps the
  buffers (`Unshared`).
* `queued_frames_outlive_session`: `close` does not empty `queue_`.
-/

namespace RasPiZeroCam

open Transition System

namespace Manager

/-- The live frames, by the pointers to them. -/
def live (s : Manager) : List FramePtr := s.frames.map (·.id)

/-- The live frames are those some `shared_ptr` points to, and they come from different completions
that are over, or under way. -/
structure Owned (s : Manager) : Prop where
  referenced : ∀ p, s.referenced p = true ↔ p ∈ s.live
  distinct : s.live.Nodup
  numbered : ∀ p ∈ s.live, p < s.completions
  fresh : ∀ c, s.handler = .status c ∨ s.handler = .lookup c →
    c.number < s.completions ∧ c.number ∉ s.live

/-- When `close` destroys the requests and unmaps the buffers, nobody has a frame, and nobody is in
the `release` of one. -/
def Unshared (s : Manager) : Step → Prop
  | .main _ _ => s.main = .stopping → s.queue = [] ∧ s.stillQueue = [] ∧ s.held = [] ∧
      s.releases = [] ∧ s.requeues = []
  | _ => True

end Manager

open Manager

/-- **Sessions apart**: a live frame refers to a mapped buffer and to a request that exists, and a
`release` past the test of `running_`, of a holder or of libcamera's thread, is about to queue a
request of `requests_`. -/
structure Apart (s : Manager) : Prop where
  frames : ∀ f ∈ s.frames, f.release ∈ s.requests ∧ f.release.buffer ∈ s.mapped.map (·.1)
  holders : ∀ r ∈ s.requeues, r.request ∈ s.requests
  handler : ∀ again r, s.handler = .queueRequest again r → r.request ∈ s.requests

namespace Manager

variable {s s' : Manager}

lemma referenced_iff (s : Manager) (p : FramePtr) : s.referenced p = true ↔
    p ∈ s.queue ∨ p ∈ s.stillQueue ∨ p ∈ s.held ∨ s.handlerHolds p = true := by
  simp [referenced, or_assoc]

/-! ### Live frames are owned -/

/-- A step that neither makes nor destroys a frame. -/
lemma Owned.of_same (hs : s.Owned) (hlive : s'.live = s.live)
    (href : ∀ p, s'.referenced p = true ↔ s.referenced p = true)
    (hcompletions : s'.completions = s.completions)
    (hhandler : ∀ c, s'.handler = .status c ∨ s'.handler = .lookup c →
      s.handler = .status c ∨ s.handler = .lookup c) : s'.Owned where
  referenced p := by rw [href, hs.referenced, hlive]
  distinct := hlive ▸ hs.distinct
  numbered := by
    rw [hlive, hcompletions]
    exact hs.numbered
  fresh c hc := by
    rw [hlive, hcompletions]
    exact hs.fresh c (hhandler c hc)

/-- The destructor of a frame takes it out of the live ones. -/
lemma live_destroyFrame (hs : s.Owned) {f : Frame Request} (hmem : f ∈ s.frames) :
    (s.destroyFrame f).live.Nodup ∧
      ∀ q, q ∈ (s.destroyFrame f).live ↔ q ∈ s.live ∧ q ≠ f.id := by
  have hnodup : s.frames.Nodup := hs.distinct.of_map
  have hinj := List.inj_on_of_nodup_map hs.distinct
  refine ⟨hs.distinct.sublist ((List.erase_sublist).map _), fun q => ?_⟩
  simp only [live, destroyFrame, List.mem_map, hnodup.mem_erase_iff]
  constructor
  · rintro ⟨g, ⟨hne, hg⟩, rfl⟩
    exact ⟨⟨g, hg, rfl⟩, fun heq => hne (hinj hg hmem heq)⟩
  · rintro ⟨⟨g, hg, rfl⟩, hne⟩
    exact ⟨g, ⟨fun heq => hne (congrArg Frame.id heq), hg⟩, rfl⟩

lemma openCamera_frames (res : Resolution) (o : OpenOutcome) :
    (s.openCamera res o).live = s.live ∧
      (∀ p, (s.openCamera res o).referenced p = s.referenced p) ∧
      (s.openCamera res o).completions = s.completions ∧
      (s.openCamera res o).handler = s.handler := by
  simp only [openCamera]
  repeat' split
  all_goals exact ⟨rfl, fun _ => rfl, rfl, rfl⟩

lemma mainStep_owned {res : Resolution} {o : OpenOutcome} (hs : s.Owned)
    (h : s.mainStep res o = some s') : s'.Owned := by
  rw [mainStep] at h
  split at h
  case h_1 =>
    cases h
    obtain ⟨hlive, href, hcompletions, hhandler⟩ := openCamera_frames (s := s) res o
    exact hs.of_same hlive (fun p => by rw [href]) hcompletions fun c => by
      rw [hhandler]
      exact id
  case h_7 =>
    split_ifs at h
    cases h
    exact hs.of_same rfl (fun _ => Iff.rfl) rfl fun _ => id
  all_goals
    cases h
    exact hs.of_same rfl (fun _ => Iff.rfl) rfl fun _ => id

lemma complete_owned {r : Request} {cancelled : Bool} {sequence timestamp : ℕ} (hs : s.Owned)
    (h : s.complete r cancelled sequence timestamp = some s') : s'.Owned := by
  obtain ⟨-, hidle, rfl⟩ := complete_cases h
  refine ⟨fun p => ?_, hs.distinct, fun p hp => (hs.numbered p hp).trans (Nat.lt_succ_self _), ?_⟩
  · refine Iff.trans ?_ (hs.referenced p)
    simp [referenced_iff, handlerHolds, hidle]
  · rintro c (hc | hc)
    · cases hc
      exact ⟨Nat.lt_succ_self _, fun hmem => (hs.numbered _ hmem).false⟩
    · cases hc

/-- A `shared_ptr` to `p` goes: with the last one, the frame. -/
lemma Owned.letGo {t : Manager} {p : FramePtr} (hs : s.Owned) (hp : s.referenced p = true)
    (hothers : ∀ q, q ≠ p → (t.referenced q = true ↔ s.referenced q = true))
    (hhandler : ∀ c, t.handler = .status c ∨ t.handler = .lookup c →
      s.handler = .status c ∨ s.handler = .lookup c)
    (f : t.frames = s.frames) (c : t.completions = s.completions) :
    (t.referenced p = true → t.Owned) ∧
      ∀ f' ∈ s.frames, f'.id = p → ¬ t.referenced p = true → (t.destroyFrame f').Owned := by
  have hlive : t.live = s.live := by rw [live, live, f]
  constructor
  · intro href
    refine hs.of_same hlive (fun q => ?_) c hhandler
    by_cases hq : q = p
    · subst hq
      exact iff_of_true href hp
    · exact hothers q hq
  · rintro f' hmem rfl href
    obtain ⟨hdistinct, hdestroy⟩ := live_destroyFrame hs hmem
    have hsame : (t.destroyFrame f').live = (s.destroyFrame f').live := by
      simp only [live, destroyFrame, f]
    refine ⟨fun q => ?_, hsame ▸ hdistinct, fun q hq => ?_, fun d hd => ?_⟩
    · rw [hsame, hdestroy, ← hs.referenced]
      by_cases hq : q = f'.id
      · subst hq
        exact iff_of_false href (by simp)
      · exact (hothers q hq).trans (by simp [hq])
    · rw [hsame, hdestroy] at hq
      exact c.symm ▸ hs.numbered q hq.1
    · obtain ⟨hlt, hnot⟩ := hs.fresh d (hhandler d hd)
      rw [hsame, hdestroy]
      exact ⟨c.symm ▸ hlt, fun hmem => hnot hmem.1⟩

lemma drop_owned {p : FramePtr} (hs : s.Owned) (h : s.drop p = some s') : s'.Owned := by
  obtain ⟨hheld, hcases⟩ := drop_cases h
  have hp : s.referenced p = true := (referenced_iff s p).mpr (Or.inr (Or.inr (Or.inl hheld)))
  obtain ⟨hlast, hgone⟩ := hs.letGo (t := { s with held := s.held.erase p }) hp
    (fun q hq => by simp only [referenced_iff, List.mem_erase_of_ne hq]; rfl) (fun _ => id) rfl rfl
  obtain ⟨href, rfl⟩ | ⟨f, hmem, hid, href, rfl⟩ := hcases
  · exact hlast href
  · exact (hgone f hmem hid href).of_same rfl (fun _ => Iff.rfl) rfl fun _ => id

/-! ### libcamera's thread -/

/-- A step of `on_request_completed` that neither makes nor destroys a frame, and after which its
local `frame` is as before. -/
lemma Owned.of_handler (hs : s.Owned) (hcompletions : s'.completions = s.completions)
    (hholds : ∀ p, s'.handlerHolds p = true ↔ s.handlerHolds p = true)
    (hhandler : ∀ c, s'.handler = .status c ∨ s'.handler = .lookup c →
      s.handler = .status c ∨ s.handler = .lookup c)
    (l : s'.live = s.live) (q : s'.queue = s.queue)
    (t : s'.stillQueue = s.stillQueue) (h : s'.held = s.held) : s'.Owned := by
  refine hs.of_same l (fun p => ?_) hcompletions hhandler
  rw [referenced_iff, referenced_iff, q, t, h, hholds]

lemma live_tagStill (s : Manager) (p : FramePtr) :
    ({ s with frames := s.frames.map (tagStill p) } : Manager).live = s.live := by
  rw [live, List.map_map]
  refine List.map_congr_left fun f _ => ?_
  simp only [Function.comp, tagStill]
  split <;> rfl

lemma handlerStep_lookup_owned {c : Completion} (hs : s.Owned) (hpc : s.handler = .lookup c)
    (h : s.handlerStep = some s') : s'.Owned := by
  simp only [handlerStep, hpc] at h
  split at h
  · cases h
    exact hs.of_handler rfl (by simp [handlerHolds, hpc]) (by simp) rfl rfl rfl rfl
  · cases h
    obtain ⟨hlt, hnot⟩ := hs.fresh c (Or.inr hpc)
    refine ⟨fun p => ?_, List.nodup_cons.mpr ⟨hnot, hs.distinct⟩, ?_, by simp⟩
    · -- the new frame is the local one
      have hmem : p ∈ c.number :: s.live ↔ p = c.number ∨ s.referenced p = true := by
        rw [List.mem_cons, hs.referenced]
      refine Iff.trans ?_ hmem.symm
      simp only [referenced_iff, handlerHolds, hpc, decide_eq_true_eq, Bool.false_eq_true, or_false]
      tauto
    · intro p hp
      obtain rfl | hp := List.mem_cons.mp hp
      · exact hlt
      · exact hs.numbered p hp

lemma handlerStep_pushStill_owned {p : FramePtr} {r : Request} (hs : s.Owned)
    (hpc : s.handler = .pushStill p r) (h : s.handlerStep = some s') : s'.Owned := by
  simp only [handlerStep, hpc] at h
  split at h
  · rename_i q hpush
    cases h
    obtain rfl := FrameQueue.eq_of_push hpush
    refine hs.of_same rfl (fun x => ?_) rfl (by simp)
    simp only [referenced_iff, handlerHolds, hpc, decide_eq_true_eq, List.mem_append,
      List.mem_singleton]
    tauto
  · cases h
    exact hs.of_handler rfl (by simp [handlerHolds, hpc]) (by simp) rfl rfl rfl rfl

lemma handlerStep_pushVideo_owned {p : FramePtr} {r : Request} (hs : s.Owned)
    (hpc : s.handler = .pushVideo p r) (h : s.handlerStep = some s') : s'.Owned := by
  simp only [handlerStep, hpc] at h
  split at h
  · rename_i q hpush
    cases h
    obtain rfl := FrameQueue.eq_of_push hpush
    refine hs.of_same rfl (fun x => ?_) rfl (by simp)
    simp only [referenced_iff, handlerHolds, hpc, decide_eq_true_eq, List.mem_append,
      List.mem_singleton, Bool.false_eq_true, or_false]
    tauto
  · -- the local `frame` goes
    have hp : s.referenced p = true := by simp [referenced_iff, handlerHolds, hpc]
    obtain ⟨hlast, hgone⟩ := hs.letGo (t := { s with handler := .requeue false ⟨p, r⟩ }) hp
      (fun q hq => by simp [referenced_iff, handlerHolds, hpc, Ne.symm hq]) (by simp) rfl rfl
    split_ifs at h with href
    · cases h
      exact hlast href
    · obtain ⟨f, hf, rfl⟩ := Option.map_eq_some_iff.mp h
      have hid : f.id = p := by simpa using List.find?_some hf
      exact (hgone f (List.mem_of_find?_eq_some hf) hid href).of_same rfl (fun _ => Iff.rfl) rfl
        (by simp)

lemma handlerStep_owned (hs : s.Owned) (h : s.handlerStep = some s') : s'.Owned := by
  cases hpc : s.handler with
  | lookup c => exact handlerStep_lookup_owned hs hpc h
  | pushStill p r => exact handlerStep_pushStill_owned hs hpc h
  | pushVideo p r => exact handlerStep_pushVideo_owned hs hpc h
  | idle => simp [handlerStep, hpc] at h
  | status c =>
      simp only [handlerStep, hpc] at h
      split_ifs at h
      · cases h
        exact hs.of_handler rfl (by simp [handlerHolds, hpc]) (by simp) rfl rfl rfl rfl
      · cases h
        exact hs.of_handler rfl (by simp [handlerHolds, hpc]) (by simp [hpc]) rfl rfl rfl rfl
  | snapshot p r =>
      simp only [handlerStep, hpc] at h
      split_ifs at h
      all_goals
        cases h
        exact hs.of_handler rfl (by simp [handlerHolds, hpc]) (by simp) rfl rfl rfl rfl
  | tag p r =>
      simp only [handlerStep, hpc] at h
      cases h
      exact hs.of_handler rfl (by simp [handlerHolds, hpc]) (by simp) (live_tagStill s p)
        rfl rfl rfl
  | requeue again r =>
      simp only [handlerStep, hpc] at h
      cases again
      all_goals
        split_ifs at h
        all_goals
          cases h
          exact hs.of_handler rfl (by simp [handlerHolds, hpc]) (by simp) rfl rfl rfl rfl
  | queueRequest again r =>
      simp only [handlerStep, hpc] at h
      cases again
      all_goals
        cases h
        exact hs.of_handler rfl (by simp [handlerHolds, hpc]) (by simp) rfl rfl rfl rfl

/-- A consumer pops a pointer. -/
lemma popVideo_owned (hs : s.Owned) (h : s.step .popVideo = some s') : s'.Owned := by
  obtain ⟨⟨p, q⟩, hpop, rfl⟩ := Option.map_eq_some_iff.mp h
  have hqueue := FrameQueue.eq_of_pop hpop
  refine hs.of_same rfl (fun x => ?_) rfl fun _ => id
  simp only [referenced_iff, hqueue, List.mem_cons, handlerHolds]
  tauto

lemma popStill_owned (hs : s.Owned) (h : s.step .popStill = some s') : s'.Owned := by
  obtain ⟨⟨p, q⟩, hpop, rfl⟩ := Option.map_eq_some_iff.mp h
  have hqueue := FrameQueue.eq_of_pop hpop
  refine hs.of_same rfl (fun x => ?_) rfl fun _ => id
  simp only [referenced_iff, hqueue, List.mem_cons, handlerHolds]
  tauto

lemma copy_owned {p : FramePtr} (hs : s.Owned) (h : s.step (.copy p) = some s') : s'.Owned := by
  simp only [step] at h
  split_ifs at h with hheld
  cases h
  refine hs.of_same rfl (fun x => ?_) rfl fun _ => id
  by_cases hx : x = p
  · subst hx
    simp [referenced_iff, hheld]
  · simp only [referenced_iff, List.mem_cons, hx, false_or]
    rfl

/-- The step lemma for `Owned`. -/
lemma step_owned {e : Step} (hs : s.Owned) (h : s.step e = some s') : s'.Owned := by
  cases e with
  | main res o => exact mainStep_owned hs h
  | complete r cancelled sequence timestamp => exact complete_owned hs h
  | handler => exact handlerStep_owned hs h
  | popVideo => exact popVideo_owned hs h
  | popStill => exact popStill_owned hs h
  | copy p => exact copy_owned hs h
  | drop p => exact drop_owned hs h
  | release r =>
      obtain ⟨-, rfl⟩ := release_cases h
      exact hs.of_same rfl (fun _ => Iff.rfl) rfl fun _ => id
  | requeue r =>
      obtain ⟨-, rfl⟩ := requeue_cases h
      exact hs.of_same rfl (fun _ => Iff.rfl) rfl fun _ => id
  | _ =>
      simp only [step] at h
      split_ifs at h
      all_goals
        cases h
        exact hs.of_same rfl (fun _ => Iff.rfl) rfl fun _ => id

/-- The run lemma for `Owned`. -/
lemma owned_of_reach {C : Manager → Step → Prop} (h : capture.Reach C s) : s.Owned := by
  refine h.invariant Owned ?_ fun s e s' _ hs _ hstep => step_owned hs hstep
  rintro s rfl
  exact ⟨fun p => by simp [referenced_iff, live, new, handlerHolds], List.nodup_nil,
    by simp [live, new], by simp [new]⟩

end Manager

/-- **After `close`** no frame is live if and only if none was in a queue or with a consumer when it
returned, along every run. -/
theorem live_after_close_iff {C : Manager → Step → Prop} {s s' : Manager} {res : Resolution}
    {o : OpenOutcome} (h : capture.Reach C s) (hmain : s.main = .stopping)
    (hstep : capture.step s (.main res o) = some s') :
    s'.frames = [] ↔ s.queue = [] ∧ s.stillQueue = [] ∧ s.held = [] := by
  have hs := owned_of_reach h
  simp only [capture, Manager.step, mainStep, hmain] at hstep
  split_ifs at hstep with hdone
  cases hstep
  have hlive : s.frames = [] ↔ ∀ p, ¬ s.referenced p = true := by
    simp only [hs.referenced, ← List.eq_nil_iff_forall_not_mem, live, List.map_eq_nil_iff]
  rw [hlive]
  simp only [referenced_iff, handlerHolds, hdone.2, Bool.false_eq_true, or_false, not_or,
    forall_and, ← List.eq_nil_iff_forall_not_mem]

namespace Manager

/-! ### Every request in use is one of `requests_` -/

/-- The request libcamera's thread is working on. -/
def handlerRequest (s : Manager) : Option Request :=
  match s.handler with
  | .idle => none
  | .status c => some c.request
  | .lookup c => some c.request
  | .snapshot _ r => some r
  | .tag _ r => some r
  | .pushStill _ r => some r
  | .pushVideo _ r => some r
  | .requeue _ r => some r.request
  | .queueRequest _ r => some r.request

/-- Whoever has a request has one of `requests_`, and nobody has one while the manager is closed. -/
structure Belongs (s : Manager) : Prop where
  pending : ∀ r ∈ s.pending, r ∈ s.requests
  queued : ∀ r ∈ s.queued, r ∈ s.requests
  handler : ∀ r ∈ s.handlerRequest, r ∈ s.requests
  frames : ∀ f ∈ s.frames, f.release ∈ s.requests ∧ f.release.buffer ∈ s.mapped.map (·.1)
  releases : ∀ t ∈ s.releases, t.request ∈ s.requests
  requeues : ∀ t ∈ s.requeues, t.request ∈ s.requests
  closed : s.main = .closed → s.queued = [] ∧ s.handler = .idle ∧ s.returns = []

variable {s s' : Manager}

lemma openCamera_belongs (res : Resolution) (o : OpenOutcome) (hs : s.Belongs)
    (hmain : s.main = .closed) : (s.openCamera res o).Belongs := by
  obtain ⟨hqueued, hidle, hreturns⟩ := hs.closed hmain
  have hpending : ∀ r ∈ (s.openCamera res o).pending, r ∈ (s.openCamera res o).requests := by
    simp only [openCamera]
    repeat' split
    all_goals simp [pending, hmain]
  obtain ⟨-, -, -, -, -, hqueued', hreturns', -, -⟩ := openCamera_spec (s := s) res o hmain
  have hhandler := openCamera_handler (s := s) res o
  rw [hqueued] at hqueued'
  rw [hreturns] at hreturns'
  rw [hidle] at hhandler
  obtain ⟨-, hframes, hreleases, hrequeues⟩ :
      (s.openCamera res o).handlerReturn = [] ∧ (s.openCamera res o).frames = [] ∧
        (s.openCamera res o).releases = [] ∧ (s.openCamera res o).requeues = [] := by
    simpa [returns] using hreturns'
  refine ⟨hpending, ?_, ?_, ?_, ?_, ?_, fun _ => ⟨hqueued', hhandler, hreturns'⟩⟩
  · simp [hqueued']
  · simp [handlerRequest, hhandler]
  · simp [hframes]
  · simp [hreleases]
  · simp [hrequeues]

/-- `close` has destroyed the requests, and nobody has one. -/
lemma belongs_of_empty (hrequests : s.requests = []) (hmain : s.main = .closed)
    (hqueued : s.queued = []) (hidle : s.handler = .idle) (hframes : s.frames = [])
    (hreleases : s.releases = []) (hrequeues : s.requeues = []) : s.Belongs where
  pending := by simp [pending, hmain, hrequests]
  queued := by simp [hqueued]
  handler := by simp [handlerRequest, hidle]
  frames := by simp [hframes]
  releases := by simp [hreleases]
  requeues := by simp [hrequeues]
  closed _ := by
    refine ⟨hqueued, hidle, ?_⟩
    simp [returns, handlerReturn, hidle, hframes, hreleases, hrequeues]

/-- While the manager is closed there is no frame and no holder. -/
lemma Belongs.nobody (hs : s.Belongs) (hmain : s.main = .closed) :
    s.frames = [] ∧ s.releases = [] ∧ s.requeues = [] := by
  have hreturns := (hs.closed hmain).2.2
  simp only [returns, List.append_eq_nil_iff, List.map_eq_nil_iff] at hreturns
  exact hreturns.2

lemma queueRequest_mem {r x : Request} (h : x ∈ (s.queueRequest r).queued) :
    x = r ∨ x ∈ s.queued :=
  List.mem_cons.mp ((queueRequest_queued r s).subset h)

lemma mainStep_belongs {res : Resolution} {o : OpenOutcome} (hs : s.Belongs) (howned : s.Owned)
    (hunshared : s.Unshared (.main res o)) (h : s.mainStep res o = some s') : s'.Belongs := by
  rw [mainStep] at h
  split at h
  case h_1 hmain =>
    cases h
    exact openCamera_belongs res o hs hmain
  case h_3 r todo hmain =>
    cases h
    have hpending : ∀ x ∈ r :: todo, x ∈ s.requests := by
      have hp := hs.pending
      rwa [pending, hmain] at hp
    refine ⟨fun x hx => hpending x (List.mem_cons_of_mem r hx), fun x hx => ?_, hs.handler,
      hs.frames, hs.releases, hs.requeues, by simp⟩
    obtain rfl | hx := queueRequest_mem hx
    · exact hpending x List.mem_cons_self
    · exact hs.queued x hx
  case h_7 hmain =>
    split_ifs at h with hdone
    cases h
    obtain ⟨hqueue, hstill, hheld, hreleases, hrequeues⟩ := hunshared hmain
    have hframes : s.frames = [] := by
      have hlive : ∀ p, p ∉ s.live := by
        intro p hp
        rw [← howned.referenced, referenced_iff, handlerHolds, hdone.2] at hp
        simp [hqueue, hstill, hheld] at hp
      exact List.map_eq_nil_iff.mp (List.eq_nil_iff_forall_not_mem.mpr hlive)
    exact belongs_of_empty rfl rfl hdone.1 hdone.2 hframes hreleases hrequeues
  all_goals
    cases h
    exact ⟨by simp [pending], hs.queued, hs.handler, hs.frames, hs.releases, hs.requeues, by simp⟩

lemma complete_belongs {r : Request} {cancelled : Bool} {sequence timestamp : ℕ} (hs : s.Belongs)
    (h : s.complete r cancelled sequence timestamp = some s') : s'.Belongs := by
  obtain ⟨hmem, -, rfl⟩ := complete_cases h
  refine ⟨hs.pending, fun x hx => hs.queued x (List.mem_of_mem_erase hx), ?_, hs.frames,
    hs.releases, hs.requeues, fun hmain => ?_⟩
  · rintro x ⟨⟩
    exact hs.queued r hmem
  · simp [(hs.closed hmain).1] at hmem

lemma drop_belongs {p : FramePtr} (hs : s.Belongs) (h : s.drop p = some s') : s'.Belongs := by
  obtain ⟨-, ⟨-, rfl⟩ | ⟨f, hmem, -, -, rfl⟩⟩ := drop_cases h
  · exact ⟨hs.pending, hs.queued, hs.handler, hs.frames, hs.releases, hs.requeues, hs.closed⟩
  · refine ⟨hs.pending, hs.queued, hs.handler,
      fun g hg => hs.frames g (List.mem_of_mem_erase hg), fun t ht => ?_, hs.requeues,
      fun hmain => ?_⟩
    · obtain rfl | ht := List.mem_cons.mp ht
      · exact (hs.frames f hmem).1
      · exact hs.releases t ht
    · simp [(hs.nobody hmain).1] at hmem

lemma release_belongs {r : Return} (hs : s.Belongs) (h : s.release r = some s') : s'.Belongs := by
  obtain ⟨hmem, rfl⟩ := release_cases h
  refine ⟨hs.pending, hs.queued, hs.handler, hs.frames,
    fun t ht => hs.releases t (List.mem_of_mem_erase ht), fun t ht => ?_, fun hmain => ?_⟩
  · have ht' : t = r ∨ t ∈ s.requeues := by
      simp only at ht
      split_ifs at ht
      · exact List.mem_cons.mp ht
      · exact Or.inr ht
    obtain rfl | ht' := ht'
    · exact hs.releases t hmem
    · exact hs.requeues t ht'
  · simp [(hs.nobody hmain).2.1] at hmem

lemma requeue_belongs {r : Return} (hs : s.Belongs) (h : s.requeue r = some s') : s'.Belongs := by
  obtain ⟨hmem, rfl⟩ := requeue_cases h
  refine ⟨hs.pending, fun x hx => ?_, hs.handler, hs.frames, hs.releases,
    fun t ht => hs.requeues t (List.mem_of_mem_erase ht), fun hmain => ?_⟩
  · obtain rfl | hx := queueRequest_mem hx
    · exact hs.requeues r hmem
    · exact hs.queued x hx
  · simp [(hs.nobody hmain).2.2] at hmem

/-- A step of `on_request_completed` that leaves the camera and the frames alone. -/
lemma Belongs.of_handler (hs : s.Belongs) (hbusy : s.handler ≠ .idle)
    (hhandler : ∀ r ∈ s'.handlerRequest, r ∈ s.handlerRequest)
    (hsame : (s'.pending, s'.queued, s'.frames, s'.releases, s'.requeues, s'.requests, s'.mapped,
        s'.main) =
      (s.pending, s.queued, s.frames, s.releases, s.requeues, s.requests, s.mapped, s.main)) :
    s'.Belongs := by
  simp only [Prod.mk.injEq] at hsame
  obtain ⟨p, q, f, a, b, r, m, c⟩ := hsame
  refine ⟨?_, ?_, fun x hx => ?_, ?_, ?_, ?_, fun hmain => ?_⟩
  · exact p ▸ r ▸ hs.pending
  · exact q ▸ r ▸ hs.queued
  · exact r ▸ hs.handler x (hhandler x hx)
  · exact f ▸ r ▸ m ▸ hs.frames
  · exact a ▸ r ▸ hs.releases
  · exact b ▸ r ▸ hs.requeues
  · exact absurd (hs.closed (c ▸ hmain)).2.1 hbusy

lemma lookup_mem_keys {α β : Type*} [BEq α] [LawfulBEq α] {l : List (α × β)} {a : α} {b : β}
    (h : l.lookup a = some b) : a ∈ l.map (·.1) := by
  induction l with
  | nil => cases h
  | cons x l ih =>
      rw [List.lookup_cons] at h
      split at h
      · rename_i heq
        exact List.mem_cons.mpr (Or.inl (eq_of_beq heq))
      · exact List.mem_cons_of_mem _ (ih h)

lemma handlerStep_lookup_belongs {c : Completion} (hs : s.Belongs) (hpc : s.handler = .lookup c)
    (h : s.handlerStep = some s') : s'.Belongs := by
  have hbusy : s.handler ≠ .idle := by simp [hpc]
  have hrequest : c.request ∈ s.requests := hs.handler c.request (by simp [handlerRequest, hpc])
  simp only [handlerStep, hpc] at h
  split at h
  · cases h
    exact hs.of_handler hbusy (by simp [handlerRequest, hpc]) rfl
  · rename_i mb hmb
    cases h
    refine ⟨hs.pending, hs.queued, ?_, fun f hf => ?_, hs.releases, hs.requeues,
      fun hmain => absurd (hs.closed hmain).2.1 hbusy⟩
    · rintro r ⟨⟩
      exact hrequest
    · obtain rfl | hf := List.mem_cons.mp hf
      · exact ⟨hrequest, lookup_mem_keys hmb⟩
      · exact hs.frames f hf

lemma handlerStep_pushVideo_belongs {p : FramePtr} {r : Request} (hs : s.Belongs)
    (hpc : s.handler = .pushVideo p r) (h : s.handlerStep = some s') : s'.Belongs := by
  have hbusy : s.handler ≠ .idle := by simp [hpc]
  simp only [handlerStep, hpc] at h
  split at h
  · cases h
    exact hs.of_handler hbusy (by simp [handlerRequest]) rfl
  · split_ifs at h with href
    · cases h
      exact hs.of_handler hbusy (by simp [handlerRequest, hpc]) rfl
    · obtain ⟨f, hf, rfl⟩ := Option.map_eq_some_iff.mp h
      have hmem : f ∈ s.frames := List.mem_of_find?_eq_some hf
      refine ⟨hs.pending, hs.queued, ?_, fun g hg => hs.frames g (List.mem_of_mem_erase hg),
        hs.releases, hs.requeues, fun hmain => absurd (hs.closed hmain).2.1 hbusy⟩
      rintro x ⟨⟩
      exact (hs.frames f hmem).1

lemma handlerStep_belongs (hs : s.Belongs) (h : s.handlerStep = some s') : s'.Belongs := by
  cases hpc : s.handler with
  | lookup c => exact handlerStep_lookup_belongs hs hpc h
  | pushVideo p r => exact handlerStep_pushVideo_belongs hs hpc h
  | idle => simp [handlerStep, hpc] at h
  | tag p r =>
      simp only [handlerStep, hpc] at h
      cases h
      refine ⟨hs.pending, hs.queued, ?_, fun f hf => ?_, hs.releases, hs.requeues,
        fun hmain => absurd (hs.closed hmain).2.1 (by simp [hpc])⟩
      · rintro x ⟨⟩
        exact hs.handler r (by simp [handlerRequest, hpc])
      · obtain ⟨g, hg, rfl⟩ := List.mem_map.mp hf
        have hrelease : (tagStill p g).release = g.release := by
          rw [tagStill]
          split <;> rfl
        rw [hrelease]
        exact hs.frames g hg
  | queueRequest again r =>
      have hrequest : r.request ∈ s.requests :=
        hs.handler r.request (by simp [handlerRequest, hpc])
      have hqueued : ∀ x ∈ (s.queueRequest r.request).queued, x ∈ s.requests := by
        intro x hx
        obtain rfl | hx := queueRequest_mem hx
        · exact hrequest
        · exact hs.queued x hx
      simp only [handlerStep, hpc] at h
      cases h
      refine ⟨hs.pending, hqueued, fun x hx => ?_, hs.frames, hs.releases, hs.requeues,
        fun hmain => absurd (hs.closed hmain).2.1 (by simp [hpc])⟩
      cases again
      · cases hx
      · cases hx
        exact hrequest
  | requeue again r =>
      simp only [handlerStep, hpc] at h
      cases again
      all_goals
        split_ifs at h
        all_goals
          cases h
          exact hs.of_handler (by simp [hpc]) (by simp [handlerRequest, hpc]) rfl
  | _ =>
      simp only [handlerStep, hpc] at h
      split at h
      all_goals
        cases h
        exact hs.of_handler (by simp [hpc]) (by simp [handlerRequest, hpc]) rfl

/-- The step lemma for `Belongs`. -/
lemma step_belongs {e : Step} (hs : s.Belongs) (howned : s.Owned) (hunshared : s.Unshared e)
    (h : s.step e = some s') : s'.Belongs := by
  cases e with
  | main res o => exact mainStep_belongs hs howned hunshared h
  | complete r cancelled sequence timestamp => exact complete_belongs hs h
  | handler => exact handlerStep_belongs hs h
  | drop p => exact drop_belongs hs h
  | release r => exact release_belongs hs h
  | requeue r => exact requeue_belongs hs h
  | popVideo =>
      obtain ⟨_, -, rfl⟩ := Option.map_eq_some_iff.mp h
      exact ⟨hs.pending, hs.queued, hs.handler, hs.frames, hs.releases, hs.requeues, hs.closed⟩
  | popStill =>
      obtain ⟨_, -, rfl⟩ := Option.map_eq_some_iff.mp h
      exact ⟨hs.pending, hs.queued, hs.handler, hs.frames, hs.releases, hs.requeues, hs.closed⟩
  | _ =>
      simp only [step] at h
      split_ifs at h
      all_goals
        cases h
        exact ⟨hs.pending, hs.queued, hs.handler, hs.frames, hs.releases, hs.requeues, hs.closed⟩

/-- The run lemma for `Belongs`. -/
lemma belongs_of_reach (h : capture.Reach Unshared s) : s.Belongs := by
  refine h.invariant Belongs ?_ fun s e s' hs hbelongs hunshared hstep =>
    step_belongs hbelongs (owned_of_reach hs) hunshared hstep
  rintro s rfl
  exact belongs_of_empty rfl rfl rfl rfl rfl rfl rfl

end Manager

/-- **Sessions are apart**, along every run in which nobody has a frame when `close` destroys the
requests and unmaps the buffers. -/
theorem sessions_apart {s : Manager} (h : capture.Reach Unshared s) : Apart s := by
  have hs := belongs_of_reach h
  refine ⟨hs.frames, hs.requeues, fun again r hpc => hs.handler r.request ?_⟩
  simp [handlerRequest, hpc]

namespace Manager

/-- While `close` runs, no consumer has a frame that it popped, or is in the `release` of one. -/
def Dropped (s : Manager) : Step → Prop
  | .main _ _ => s.main = .opened ∨ s.main = .stop ∨ s.main = .stopping →
      s.held = [] ∧ s.releases = [] ∧ s.requeues = []
  | _ => True

/-- Nobody has a frame at any step of the main thread. -/
def unshared (s : Manager) : Step → Bool
  | .main _ _ => s.queue = [] && s.stillQueue = [] && s.held = [] && s.releases = [] &&
      s.requeues = []
  | _ => true

/-- No consumer has one. -/
def dropped (s : Manager) : Step → Bool
  | .main _ _ => s.held = [] && s.releases = [] && s.requeues = []
  | _ => true

lemma unshared_of_check {s : Manager} {e : Step} (h : unshared s e = true) : s.Unshared e := by
  cases e with
  | main res o =>
      intro _
      simpa [unshared, and_assoc] using h
  | _ => trivial

lemma dropped_of_check {s : Manager} {e : Step} (h : dropped s e = true) : s.Dropped e := by
  cases e with
  | main res o =>
      intro _
      simpa [dropped, and_assoc] using h
  | _ => trivial

/-- A consumer pops a frame and drops it, up to the test in `requeue_request`. -/
def consumes (frame : FramePtr) (n : ℕ) : List Step :=
  [.popVideo, .drop frame, .release ⟨frame, request n⟩]

/-- The camera cancels a request when it stops. -/
def cancels (n : ℕ) : List Step := [.complete (request n) true 0 0, .handler]

/-- A session in which a consumer takes the only frame. -/
def taken : List Step :=
  opens ++ completes 0 4 ++ consumes 0 0 ++ [.requeue ⟨0, request 0⟩] ++
    List.replicate 2 (.main .medium four) ++ cancels 0 ++ cancels 1 ++ cancels 2 ++ cancels 3 ++
    [.main .medium four]

end Manager

/-- Two sessions in which a consumer takes the frame. -/
theorem taken_frames_apart :
    ∃ s, capture.exec unshared .new (taken ++ opens ++ completes 4 4 ++ consumes 5 4) = some s ∧
      s.requeues = [⟨5, request 4⟩] ∧ Apart s := by
  have hrun : (capture.exec unshared .new
      (taken ++ opens ++ completes 4 4 ++ consumes 5 4)).map (fun s => s.requeues) =
      some [⟨5, request 4⟩] := by decide
  obtain ⟨s, hs, hrequeues⟩ := Option.map_eq_some_iff.mp hrun
  exact ⟨s, hs, hrequeues, sessions_apart
    (.of_exec_check (fun _ _ => unshared_of_check) (show capture.init .new from rfl) hs)⟩

/-- Nobody takes the frames of the first session.  In the second a consumer pops the first of them
and drops it, and its `release` passes the test: it is about to queue a request that was destroyed,
and the other three frames still refer to unmapped buffers. -/
theorem queued_frames_outlive_session :
    ¬ ∀ s : Manager, capture.Reach Dropped s → Apart s := by
  intro h
  have hrun : (capture.exec dropped .new (untouched 0 ++ opens ++ consumes 0 0)).map
      (fun s => (s.requeues, s.requests)) = some ([⟨0, request 0⟩],
        [request 4, request 5, request 6, request 7]) := by decide
  obtain ⟨s, hs, hend⟩ := Option.map_eq_some_iff.mp hrun
  obtain ⟨hrequeues, hrequests⟩ := Prod.mk.inj hend
  have hreach : capture.Reach Dropped s :=
    .of_exec_check (fun _ _ => dropped_of_check) (show capture.init .new from rfl) hs
  have hmem := (h s hreach).holders ⟨0, request 0⟩ (by simp [hrequeues])
  rw [hrequests] at hmem
  revert hmem
  decide

end RasPiZeroCam
