import RasPiZeroCam.Camera.Stills

/-!
The two feeds of a `CameraManager`, with the books of what each consumer popped: the frame of a
snapshot is one object in both queues, and its tag is written through one of the pointers.

* `feeds_told_apart`: the tag tells the feeds apart as long as no frame of a snapshot is popped from
  `queue_` (`Unsnapped`), and the first one that is carries the wrong tag.
* `snapshot_tagged_in_video`: a snapshot, and a consumer of `queue_` that pops its frame.
-/

namespace RasPiZeroCam

open Transition System

/-- A manager, and what its consumers popped. -/
structure FrameFeeds where
  manager : Manager
  videoPopped : List FramePtr  -- from `queue_`
  stillPopped : List FramePtr  -- from `still_queue_`
  snapped : List FramePtr      -- the frames whose completion found `snapshot_armed_` set

/-- The frame for which `on_request_completed` is about to take the flag. -/
def Manager.takesFlag (s : Manager) : List FramePtr :=
  match s.handler with
  | .snapshot frame _ => if s.snapshotArmed then [frame] else []
  | _ => []

namespace FrameFeeds

/-- What a step that leads to `m` adds to the books. -/
def record (s : FrameFeeds) (m : Manager) : Manager.Step → FrameFeeds
  | .popVideo => { s with
      manager := m
      videoPopped := s.manager.queue.take 1 ++ s.videoPopped }
  | .popStill => { s with
      manager := m
      stillPopped := s.manager.stillQueue.take 1 ++ s.stillPopped }
  | .handler => { s with
      manager := m
      snapped := s.manager.takesFlag ++ s.snapped }
  | _ => { s with manager := m }

/-- No frame of a snapshot is popped from `queue_`. -/
def Unsnapped (s : FrameFeeds) : Manager.Step → Prop
  | .popVideo => ∀ p ∈ s.manager.queue.take 1, p ∉ s.snapped
  | _ => True

end FrameFeeds

open FrameFeeds

/-- The threads of a `CameraManager` and the two feeds. -/
def feeds : System FrameFeeds Manager.Step where
  init s := s = ⟨.new, [], [], []⟩
  step s e := (s.manager.step e).map fun m => s.record m e

/-- **The tag tells the feeds apart**: while it lives, a frame that was popped from `queue_` carries
`StreamType::Video`, and one that was popped from `still_queue_` `StreamType::Still`. -/
structure ToldApart (s : FrameFeeds) : Prop where
  video : ∀ p ∈ s.videoPopped, ∀ f ∈ s.manager.frames, f.id = p → f.streamType = .video
  still : ∀ p ∈ s.stillPopped, ∀ f ∈ s.manager.frames, f.id = p → f.streamType = .still

namespace FrameFeeds

/-! ### The frames of the snapshots -/

/-- The frame of the completion under way, as long as nobody else has seen it. -/
def upcoming : HandlerPc → Option FramePtr
  | .status c => some c.number
  | .lookup c => some c.number
  | .snapshot frame _ => some frame
  | _ => none

/-- The frame that is about to be tagged. -/
def tagging : HandlerPc → Option FramePtr
  | .tag frame _ => some frame
  | _ => none

/-- The frames that are in a queue or in the books. -/
def known (s : FrameFeeds) : List FramePtr :=
  s.snapped ++ (s.manager.queue ++ s.videoPopped) ++ (s.manager.stillQueue ++ s.stillPopped)

/-- The frames of snapshots past their tag, on their way to the consumer or there. -/
def StillFed (s : FrameFeeds) (p : FramePtr) : Prop :=
  (∃ r, s.manager.handler = .pushStill p r) ∨ p ∈ s.manager.stillQueue ++ s.stillPopped

/-- The frames that carry the tag of a snapshot are those of the completions that took the flag. -/
structure Fed (s : FrameFeeds) : Prop where
  owned : s.manager.Owned
  numbered : ∀ p ∈ s.known, p < s.manager.completions
  unseen : ∀ p, upcoming s.manager.handler = some p → p < s.manager.completions ∧ p ∉ s.known
  untagged : ∀ p, tagging s.manager.handler = some p → p ∈ s.snapped ∧
    p ∉ s.manager.queue ++ (s.manager.stillQueue ++ s.stillPopped)
  still : ∀ p, s.StillFed p → p ∈ s.snapped
  tags : ∀ f ∈ s.manager.frames,
    f.streamType = .still ↔ f.id ∈ s.snapped ∧ tagging s.manager.handler ≠ some f.id

variable {s : FrameFeeds} {m : Manager}

/-- A step that leaves libcamera's thread and the queues alone. -/
lemma Fed.of_quiet (hs : s.Fed) (hquiet : Manager.Quiet s.manager m) (howned : m.Owned) :
    ({ s with manager := m } : FrameFeeds).Fed := by
  have hknown : ({ s with manager := m } : FrameFeeds).known = s.known := by
    rw [known, known, hquiet.queue, hquiet.stillQueue]
  refine ⟨howned, ?_, ?_, ?_, fun p hp => hs.still p ?_, ?_⟩
  · rw [hknown, hquiet.completions]
    exact hs.numbered
  · rw [hknown, hquiet.completions, hquiet.handler]
    exact hs.unseen
  · rw [hquiet.handler, hquiet.queue, hquiet.stillQueue]
    exact hs.untagged
  · rwa [StillFed, hquiet.handler, hquiet.stillQueue] at hp
  · intro f hf
    rw [hquiet.handler]
    exact hs.tags f (hquiet.frames hf)

/-- The camera completes a request: its frame will have a new number. -/
lemma Fed.complete {r : Request} {cancelled : Bool} {sequence timestamp : ℕ} (hs : s.Fed)
    (howned : m.Owned) (h : s.manager.complete r cancelled sequence timestamp = some m) :
    ({ s with manager := m } : FrameFeeds).Fed := by
  obtain ⟨-, hidle, rfl⟩ := Manager.complete_cases h
  refine ⟨howned, fun p hp => (hs.numbered p hp).trans (Nat.lt_succ_self _), ?_, by simp [tagging],
    fun p hp => hs.still p ?_, fun f hf => ?_⟩
  · rintro p ⟨⟩
    exact ⟨Nat.lt_succ_self _, fun hmem => (hs.numbered _ hmem).false⟩
  · simpa [StillFed] using Or.inr (List.mem_append.mp (by simpa [StillFed] using hp))
  · have htags := hs.tags f hf
    simpa [tagging, hidle] using htags

/-- The oldest frame of `queue_` goes to its consumer. -/
lemma Fed.popVideo (hs : s.Fed) (howned : m.Owned) (h : s.manager.step .popVideo = some m) :
    (s.record m .popVideo).Fed := by
  obtain ⟨p, q, hqueue, rfl⟩ := Manager.popVideo_cases h
  have hknown : ∀ x, x ∈ s.snapped ++ (q ++ (s.manager.queue.take 1 ++ s.videoPopped)) ++
      (s.manager.stillQueue ++ s.stillPopped) ↔ x ∈ s.known := by
    intro x
    simp only [known, hqueue, List.take_succ_cons, List.take_zero, List.mem_append, List.mem_cons,
      List.not_mem_nil, or_false]
    tauto
  refine ⟨howned, fun x hx => hs.numbered x ((hknown x).mp hx), fun x hx => ?_, fun x hx => ?_,
    hs.still, hs.tags⟩
  · obtain ⟨hlt, hnot⟩ := hs.unseen x hx
    exact ⟨hlt, fun hmem => hnot ((hknown x).mp hmem)⟩
  · obtain ⟨hsnapped, hnot⟩ := hs.untagged x hx
    rw [hqueue] at hnot
    exact ⟨hsnapped, fun hmem => hnot (List.mem_cons_of_mem p hmem)⟩

/-- The oldest frame of `still_queue_` goes to its consumer. -/
lemma Fed.popStill (hs : s.Fed) (howned : m.Owned) (h : s.manager.step .popStill = some m) :
    (s.record m .popStill).Fed := by
  obtain ⟨p, q, hqueue, rfl⟩ := Manager.popStill_cases h
  have hfeed : ∀ x, x ∈ q ++ (s.manager.stillQueue.take 1 ++ s.stillPopped) ↔
      x ∈ s.manager.stillQueue ++ s.stillPopped := by
    intro x
    simp only [hqueue, List.take_succ_cons, List.take_zero, List.mem_append, List.mem_cons,
      List.not_mem_nil, or_false]
    tauto
  have hknown : ∀ x, x ∈ s.snapped ++ (s.manager.queue ++ s.videoPopped) ++
      (q ++ (s.manager.stillQueue.take 1 ++ s.stillPopped)) ↔ x ∈ s.known := by
    intro x
    rw [known, List.mem_append, hfeed, ← List.mem_append]
  refine ⟨howned, fun x hx => hs.numbered x ((hknown x).mp hx), fun x hx => ?_, fun x hx => ?_,
    fun x hx => hs.still x (hx.imp_right (hfeed x).mp), hs.tags⟩
  · obtain ⟨hlt, hnot⟩ := hs.unseen x hx
    exact ⟨hlt, fun hmem => hnot ((hknown x).mp hmem)⟩
  · obtain ⟨hsnapped, hnot⟩ := hs.untagged x hx
    refine ⟨hsnapped, fun hmem => hnot ?_⟩
    exact List.mem_append.mpr ((List.mem_append.mp hmem).imp_right (hfeed x).mp)

/-! ### libcamera's thread -/

/-- A step of `on_request_completed` that leaves the queues and the tags alone. -/
lemma Fed.of_handler (hs : s.Fed) (howned : m.Owned) (hframes : m.frames ⊆ s.manager.frames)
    (hbefore : tagging s.manager.handler = none) (hafter : tagging m.handler = none)
    (hupcoming : ∀ p, upcoming m.handler = some p → upcoming s.manager.handler = some p)
    (hpush : ∀ p r, m.handler ≠ .pushStill p r)
    (q : m.queue = s.manager.queue) (t : m.stillQueue = s.manager.stillQueue)
    (c : m.completions = s.manager.completions) :
    ({ s with manager := m } : FrameFeeds).Fed := by
  have hknown : ({ s with manager := m } : FrameFeeds).known = s.known := by rw [known, known, q, t]
  refine ⟨howned, ?_, fun p hp => ?_, fun p hp => ?_, fun p hp => hs.still p ?_, fun f hf => ?_⟩
  · rw [hknown, c]
    exact hs.numbered
  · rw [hknown, c]
    exact hs.unseen p (hupcoming p hp)
  · exact absurd (hafter.symm.trans hp) (by simp)
  · obtain ⟨r, hr⟩ | hp := hp
    · exact absurd hr (hpush p r)
    · rw [t] at hp
      exact Or.inr hp
  · have htags := hs.tags f (hframes hf)
    rw [hbefore] at htags
    rw [hafter]
    exact htags

/-- The new frame is a video frame, and nobody has seen it. -/
lemma Fed.lookup {c : Completion} (hs : s.Fed) (howned : m.Owned)
    (hpc : s.manager.handler = .lookup c) (h : s.manager.handlerStep = some m) :
    ({ s with manager := m } : FrameFeeds).Fed := by
  have hbefore : tagging s.manager.handler = none := by rw [hpc]; rfl
  simp only [Manager.handlerStep, hpc] at h
  split at h
  · cases h
    exact hs.of_handler howned (fun _ => id) hbefore rfl (by simp [upcoming]) (by simp) rfl rfl rfl
  · cases h
    have hunseen := hs.unseen c.number (by rw [hpc]; rfl)
    refine ⟨howned, hs.numbered, ?_, by simp [tagging], fun p hp => hs.still p ?_, fun f hf => ?_⟩
    · rintro p ⟨⟩
      exact hunseen
    · simpa [StillFed, hpc] using hp
    · obtain rfl | hf := List.mem_cons.mp hf
      · have hnot : c.number ∉ s.snapped := by
          simp only [known, List.mem_append, not_or] at hunseen
          exact hunseen.2.1.1
        simp [Manager.newFrame, hnot]
      · have htags := hs.tags f hf
        rw [hbefore] at htags
        simpa [tagging] using htags

/-- `snapshot_armed_.exchange(false)`: the frame of a snapshot is about to be tagged. -/
lemma Fed.snapshot {p : FramePtr} {r : Request} (hs : s.Fed) (howned : m.Owned)
    (hpc : s.manager.handler = .snapshot p r) (h : s.manager.handlerStep = some m) :
    (s.record m .handler).Fed := by
  have hbefore : tagging s.manager.handler = none := by rw [hpc]; rfl
  obtain ⟨hlt, hnot⟩ := hs.unseen p (by rw [hpc]; rfl)
  simp only [Manager.handlerStep, hpc] at h
  split_ifs at h with harmed
  · cases h
    have hrecord : s.manager.takesFlag = [p] := by rw [Manager.takesFlag, hpc]; exact if_pos harmed
    rw [record, hrecord]
    refine ⟨howned, fun x hx => ?_, by simp [upcoming], ?_, fun x hx => ?_, fun f hf => ?_⟩
    · obtain rfl | hx : x = p ∨ x ∈ s.known := by simpa [known, or_assoc] using hx
      · exact hlt
      · exact hs.numbered x hx
    · rintro x ⟨⟩
      simp only [known, List.mem_append, not_or] at hnot ⊢
      exact ⟨Or.inl List.mem_cons_self, hnot.1.2.1, hnot.2⟩
    · exact List.mem_cons_of_mem p (hs.still x (by simpa [StillFed, hpc] using hx))
    · have htags := hs.tags f hf
      rw [hbefore] at htags
      by_cases hid : f.id = p
      · have hvideo : f.id ∉ s.snapped := by
          simp only [known, List.mem_append, not_or] at hnot
          rw [hid]
          exact hnot.1.1
        simp [tagging, hid, htags, hid ▸ hvideo]
      · simp [tagging, hid, Ne.symm hid, htags]
  · cases h
    have hrecord : s.manager.takesFlag = [] := by rw [Manager.takesFlag, hpc]; exact if_neg harmed
    rw [record, hrecord]
    exact hs.of_handler howned (fun _ => id) hbefore rfl (by simp [upcoming]) (by simp) rfl rfl rfl

/-- `still->stream_type = StreamType::Still`. -/
lemma Fed.tag {p : FramePtr} {r : Request} (hs : s.Fed) (howned : m.Owned)
    (hpc : s.manager.handler = .tag p r) (h : s.manager.handlerStep = some m) :
    ({ s with manager := m } : FrameFeeds).Fed := by
  obtain ⟨hsnapped, -⟩ := hs.untagged p (by rw [hpc]; rfl)
  simp only [Manager.handlerStep, hpc] at h
  cases h
  refine ⟨howned, hs.numbered, by simp [upcoming], by simp [tagging], fun x hx => ?_,
    fun f hf => ?_⟩
  · obtain ⟨r', hr⟩ | hx := hx
    · cases hr
      exact hsnapped
    · exact hs.still x (Or.inr hx)
  · obtain ⟨g, hg, rfl⟩ := List.mem_map.mp hf
    have htags := hs.tags g hg
    rw [hpc] at htags
    by_cases hid : g.id = p
    · simp [Manager.tagStill, hid, tagging, hsnapped]
    · simpa [Manager.tagStill, hid, tagging, Ne.symm hid] using htags

/-- The push to `still_queue_`. -/
lemma Fed.pushStill {p : FramePtr} {r : Request} (hs : s.Fed) (howned : m.Owned)
    (hpc : s.manager.handler = .pushStill p r) (h : s.manager.handlerStep = some m) :
    ({ s with manager := m } : FrameFeeds).Fed := by
  have hbefore : tagging s.manager.handler = none := by rw [hpc]; rfl
  have hsnapped := hs.still p (Or.inl ⟨r, hpc⟩)
  simp only [Manager.handlerStep, hpc] at h
  split at h
  · rename_i q hpush
    cases h
    obtain rfl := FrameQueue.eq_of_push hpush
    refine ⟨howned, fun x hx => hs.numbered x ?_, by simp [upcoming], by simp [tagging],
      fun x hx => ?_, fun f hf => ?_⟩
    · have hx : x = p ∨ x ∈ s.known := by
        simp only [known, List.mem_append, List.mem_singleton] at hx ⊢
        tauto
      obtain rfl | hx := hx
      · exact List.mem_append_left _ (List.mem_append_left _ hsnapped)
      · exact hx
    · have hx : x = p ∨ x ∈ s.manager.stillQueue ++ s.stillPopped := by
        simp only [StillFed, List.mem_append, List.mem_singleton] at hx ⊢
        obtain ⟨r', hr⟩ | hx := hx
        · cases hr
        · tauto
      obtain rfl | hx := hx
      · exact hsnapped
      · exact hs.still x (Or.inr hx)
    · have htags := hs.tags f hf
      rw [hbefore] at htags
      simpa [tagging] using htags
  · cases h
    exact hs.of_handler howned (fun _ => id) hbefore rfl (by simp [upcoming]) (by simp) rfl rfl rfl

/-- The push to `queue_`. -/
lemma Fed.pushVideo {p : FramePtr} {r : Request} (hs : s.Fed) (howned : m.Owned)
    (hpc : s.manager.handler = .pushVideo p r) (h : s.manager.handlerStep = some m) :
    ({ s with manager := m } : FrameFeeds).Fed := by
  have hbefore : tagging s.manager.handler = none := by rw [hpc]; rfl
  have hlt : p < s.manager.completions := by
    refine hs.owned.numbered p ((hs.owned.referenced p).mp ?_)
    simp [Manager.referenced_iff, Manager.handlerHolds, hpc]
  obtain ⟨-, rfl⟩ | ⟨frames, again, back, hframes, rfl⟩ :=
    Manager.handlerStep_pushVideo_cases hpc h
  · refine ⟨howned, fun x hx => ?_, by simp [upcoming], by simp [tagging],
      fun x hx => hs.still x ?_, fun f hf => ?_⟩
    · have hx : x = p ∨ x ∈ s.known := by
        simp only [known, List.mem_append, List.mem_singleton] at hx ⊢
        tauto
      obtain rfl | hx := hx
      · exact hlt
      · exact hs.numbered x hx
    · simpa [StillFed, hpc] using hx
    · have htags := hs.tags f hf
      rw [hbefore] at htags
      simpa [tagging] using htags
  · exact hs.of_handler howned hframes hbefore rfl (by simp [upcoming]) (by simp) rfl rfl rfl

lemma Fed.handler (hs : s.Fed) (howned : m.Owned) (h : s.manager.handlerStep = some m) :
    (s.record m .handler).Fed := by
  have hrecord : s.manager.takesFlag = [] → s.record m .handler = { s with manager := m } := by
    intro htakes
    rw [record, htakes, List.nil_append]
  cases hpc : s.manager.handler with
  | snapshot p r => exact hs.snapshot howned hpc h
  | lookup c =>
      rw [hrecord (by rw [Manager.takesFlag, hpc])]
      exact hs.lookup howned hpc h
  | tag p r =>
      rw [hrecord (by rw [Manager.takesFlag, hpc])]
      exact hs.tag howned hpc h
  | pushStill p r =>
      rw [hrecord (by rw [Manager.takesFlag, hpc])]
      exact hs.pushStill howned hpc h
  | pushVideo p r =>
      rw [hrecord (by rw [Manager.takesFlag, hpc])]
      exact hs.pushVideo howned hpc h
  | idle => simp [Manager.handlerStep, hpc] at h
  | status c =>
      have hbefore : tagging s.manager.handler = none := by rw [hpc]; rfl
      rw [hrecord (by rw [Manager.takesFlag, hpc])]
      simp only [Manager.handlerStep, hpc] at h
      split_ifs at h
      all_goals
        cases h
        exact hs.of_handler howned (fun _ => id) hbefore rfl (by simp [upcoming, hpc]) (by simp)
          rfl rfl rfl
  | requeue again r =>
      have hbefore : tagging s.manager.handler = none := by rw [hpc]; rfl
      rw [hrecord (by rw [Manager.takesFlag, hpc])]
      simp only [Manager.handlerStep, hpc] at h
      cases again
      all_goals
        split_ifs at h
        all_goals
          cases h
          exact hs.of_handler howned (fun _ => id) hbefore rfl (by simp [upcoming]) (by simp)
            rfl rfl rfl
  | queueRequest again r =>
      have hbefore : tagging s.manager.handler = none := by rw [hpc]; rfl
      rw [hrecord (by rw [Manager.takesFlag, hpc])]
      simp only [Manager.handlerStep, hpc] at h
      cases again
      all_goals
        cases h
        exact hs.of_handler howned (fun _ => id) hbefore rfl (by simp [upcoming]) (by simp)
          rfl rfl rfl

/-! ### Runs -/

lemma step_cases {e : Manager.Step} {s' : FrameFeeds} (h : feeds.step s e = some s') :
    ∃ m, s.manager.step e = some m ∧ s' = s.record m e := by
  obtain ⟨m, hm, rfl⟩ := Option.map_eq_some_iff.mp h
  exact ⟨m, hm, rfl⟩

/-- The step lemma for `Fed`. -/
lemma step_fed {e : Manager.Step} {s' : FrameFeeds} (hs : s.Fed) (h : feeds.step s e = some s') :
    s'.Fed := by
  obtain ⟨m, hm, rfl⟩ := step_cases h
  have howned := Manager.step_owned hs.owned hm
  cases e with
  | main res o => exact hs.of_quiet (Manager.mainStep_quiet hm).1 howned
  | complete r cancelled sequence timestamp => exact hs.complete howned hm
  | handler => exact hs.handler howned hm
  | popVideo => exact hs.popVideo howned hm
  | popStill => exact hs.popStill howned hm
  | requestSnapshot => exact hs.of_quiet (Manager.requestSnapshot_quiet hm).1 howned
  | arm => exact hs.of_quiet (Manager.arm_cases hm).1 howned
  | _ => exact hs.of_quiet (Manager.holder_quiet (by simp) hm).1 howned

/-- The run lemma for `Fed`. -/
lemma fed_of_reach {C : FrameFeeds → Manager.Step → Prop} (h : feeds.Reach C s) : s.Fed := by
  refine h.invariant Fed ?_ fun s e s' _ hs _ hstep => step_fed hs hstep
  rintro s rfl
  exact ⟨Manager.owned_of_reach (C := fun _ _ => True) (.init rfl), by simp [known, Manager.new],
    by simp [upcoming, Manager.new], by simp [tagging, Manager.new],
    by simp [StillFed, Manager.new], by simp [Manager.new]⟩

/-- A frame that was popped from `still_queue_` is tagged, along every run. -/
lemma Fed.still_told (hs : s.Fed) {p : FramePtr} (hp : p ∈ s.stillPopped) {f : Frame Request}
    (hf : f ∈ s.manager.frames) (hid : f.id = p) : f.streamType = .still := by
  refine (hs.tags f hf).mpr ⟨hid ▸ hs.still p (Or.inr (List.mem_append_right _ hp)), ?_⟩
  intro htagging
  refine (hs.untagged _ htagging).2 ?_
  rw [hid]
  exact List.mem_append_right _ (List.mem_append_right _ hp)

/-- Nothing of a snapshot has been popped from `queue_`. -/
def VideoOnly (s : FrameFeeds) : Prop := ∀ p ∈ s.videoPopped, p ∉ s.snapped

lemma Fed.toldApart (hs : s.Fed) (hvideo : s.VideoOnly) : ToldApart s where
  video p hp f hf hid := by
    have hnot : ¬ (f.id ∈ s.snapped ∧ tagging s.manager.handler ≠ some f.id) :=
      fun hmem => hvideo p hp (hid ▸ hmem.1)
    cases htype : f.streamType with
    | video => rfl
    | still => exact absurd ((hs.tags f hf).mp htype) hnot
  still _ hp _ hf hid := hs.still_told hp hf hid

/-- The step lemma for `VideoOnly`. -/
lemma step_videoOnly {e : Manager.Step} {s' : FrameFeeds} (hs : s.Fed) (hvideo : s.VideoOnly)
    (hunsnapped : s.Unsnapped e) (h : feeds.step s e = some s') : s'.VideoOnly := by
  obtain ⟨m, hm, rfl⟩ := step_cases h
  cases e with
  | popVideo =>
      intro p hp
      obtain hp | hp := List.mem_append.mp hp
      · exact hunsnapped p hp
      · exact hvideo p hp
  | handler =>
      intro p hp hmem
      obtain hmem | hmem := List.mem_append.mp hmem
      · -- the frame that takes the flag has not been in a queue
        have hunseen : upcoming s.manager.handler = some p := by
          rw [Manager.takesFlag] at hmem
          split at hmem
          · rename_i hpc
            split_ifs at hmem
            · rw [hpc, upcoming, List.mem_singleton.mp hmem]
            · cases hmem
          · cases hmem
        refine (hs.unseen p hunseen).2 ?_
        exact List.mem_append_left _ (List.mem_append_right _ (List.mem_append_right _ hp))
      · exact hvideo p hp hmem
  | _ => exact hvideo

/-- The run lemma for `VideoOnly`. -/
lemma videoOnly_of_reach (h : feeds.Reach Unsnapped s) : s.VideoOnly := by
  refine h.invariant VideoOnly ?_ fun s e s' hs hvideo hunsnapped hstep =>
    step_videoOnly (fed_of_reach hs) hvideo hunsnapped hstep
  rintro s rfl p hp
  cases hp

/-- The frame of a snapshot that is popped from `queue_` lives, and its tag is `Still`. -/
lemma Fed.popVideo_snapped {s' : FrameFeeds} (hs : s.Fed) (hsnapped : ¬ s.Unsnapped .popVideo)
    (h : feeds.step s .popVideo = some s') : ¬ ToldApart s' := by
  obtain ⟨m, hm, rfl⟩ := step_cases h
  obtain ⟨p, q, hqueue, rfl⟩ := Manager.popVideo_cases hm
  have hmem : p ∈ s.snapped := by simpa [Unsnapped, hqueue] using hsnapped
  have hqueued : p ∈ s.manager.queue := hqueue ▸ List.mem_cons_self
  have hlive : p ∈ s.manager.live := by
    refine (hs.owned.referenced p).mp ?_
    exact (Manager.referenced_iff _ p).mpr (Or.inl hqueued)
  obtain ⟨f, hf, rfl⟩ := List.mem_map.mp hlive
  have hstill : f.streamType = .still := by
    refine (hs.tags f hf).mpr ⟨hmem, fun htagging => ?_⟩
    exact (hs.untagged _ htagging).2 (List.mem_append_left _ hqueued)
  intro htold
  have hvideo : f.streamType = .video := by
    refine htold.video f.id ?_ f hf rfl
    simp [record, hqueue]
  exact absurd (hstill.symm.trans hvideo) (by simp)

end FrameFeeds

/-- **The tag tells the feeds apart** in every state of a run in which no frame of a snapshot is
popped from `queue_`; and after the next step it does so if and only if that step pops none
either. -/
theorem feeds_told_apart {s : FrameFeeds} (h : feeds.Reach Unsnapped s) :
    ToldApart s ∧ ∀ e s', feeds.step s e = some s' → (ToldApart s' ↔ s.Unsnapped e) := by
  have hs := fed_of_reach h
  refine ⟨hs.toldApart (videoOnly_of_reach h), fun e s' hstep => ⟨fun htold => ?_, fun hpop => ?_⟩⟩
  · by_contra hsnapped
    cases e with
    | popVideo => exact hs.popVideo_snapped hsnapped hstep htold
    | _ => exact hsnapped trivial
  · have h' : feeds.Reach Unsnapped s' := .step h hpop hstep
    exact (fed_of_reach h').toldApart (videoOnly_of_reach h')

namespace FrameFeeds

/-- The consumer of `queue_` pops a frame that is no snapshot's. -/
def unsnapped (s : FrameFeeds) : Manager.Step → Bool
  | .popVideo => (s.manager.queue.take 1).all fun p => decide (p ∉ s.snapped)
  | _ => true

lemma unsnapped_of_check {s : FrameFeeds} {e : Manager.Step} (h : unsnapped s e = true) :
    s.Unsnapped e := by
  cases e with
  | popVideo =>
      intro p hp
      simpa using List.all_eq_true.mp h p hp
  | _ => trivial

end FrameFeeds

/-- A frame and a snapshot, each popped by the consumer it is for. -/
theorem feeds_told_apart_run :
    ∃ s, feeds.exec unsnapped ⟨.new, [], [], []⟩ (Manager.opens ++ Manager.completes 0 4 ++
        [.popVideo] ++ Manager.shoots 1 ++ [.popStill]) = some s ∧
      s.videoPopped = [0] ∧ s.stillPopped = [1] ∧ ToldApart s := by
  have hrun : (feeds.exec unsnapped ⟨.new, [], [], []⟩ (Manager.opens ++ Manager.completes 0 4 ++
      [.popVideo] ++ Manager.shoots 1 ++ [.popStill])).map
      (fun s => (s.videoPopped, s.stillPopped)) = some ([0], [1]) := by decide
  obtain ⟨s, hs, hend⟩ := Option.map_eq_some_iff.mp hrun
  obtain ⟨hvideo, hstill⟩ := Prod.mk.inj hend
  exact ⟨s, hs, hvideo, hstill, (feeds_told_apart (.of_exec_check
    (fun _ _ => unsnapped_of_check) (show feeds.init ⟨.new, [], [], []⟩ from rfl) hs)).1⟩

/-- A snapshot is taken, and the consumer of `queue_` pops the frame. -/
theorem snapshot_tagged_in_video :
    ¬ ∀ s : FrameFeeds, feeds.Reach (fun _ _ => True) s → ToldApart s := by
  intro h
  have hrun : (feeds.exec (fun _ _ => true) ⟨.new, [], [], []⟩
      (Manager.opens ++ Manager.shoots 0 ++ [.popVideo])).map
      (fun s => (s.videoPopped, s.manager.frames.map fun f => (f.id, f.streamType))) =
      some ([0], [(0, .still)]) := by decide
  obtain ⟨s, hs, hend⟩ := Option.map_eq_some_iff.mp hrun
  obtain ⟨hpopped, hframes⟩ := Prod.mk.inj hend
  obtain ⟨f, hf, htag⟩ : ∃ f ∈ s.manager.frames, (f.id, f.streamType) = (0, StreamType.still) := by
    rw [← List.mem_map, hframes]
    exact List.mem_singleton_self _
  obtain ⟨hid, htype⟩ := Prod.mk.inj htag
  have hreach : feeds.Reach (fun _ _ => True) s :=
    .of_exec_check (fun _ _ _ => trivial) (show feeds.init ⟨.new, [], [], []⟩ from rfl) hs
  have hvideo := (h s hreach).video 0 (by simp [hpopped]) f hf hid
  exact absurd (htype.symm.trans hvideo) (by simp)

end RasPiZeroCam
