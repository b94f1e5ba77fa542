import RasPiZeroCam.Record.H264

/-!
The input slots of `H264HardwareEncoder`, and the frames kept alive for them.

* `H264Encoder.Place`, `H264Encoder.slotsAt`: where a slot can be.  `H264Encoder.Custody`,
  `H264Encoder.keepalivesAt`: where the keepalive of a call can be.
* `SlotsKept`: each slot is in one place, `pending_frames_` has the frames of those that are out,
  and a keepalive is dropped once its slot is back.
* `slots_kept`: it holds along every run, by the rules of `Transition.Leased`.
-/

namespace RasPiZeroCam

open Transition

/-- What `DQBUF` gave to the poll thread. -/
def PollPc.sub {φ : Type*} : PollPc φ → List Submission
  | .takeBack sub => [sub]
  | _ => []

/-- The keepalive that the poll thread has moved out of `pending_frames_`. -/
def PollPc.handed {φ : Type*} : PollPc φ → List ℕ
  | .inputDone (some k) => [k.call]
  | _ => []

namespace H264Encoder

variable {φ : Type*}

/-- Where a slot can be. -/
inductive Place where
  | free
  | encode                             -- a call of `encode` is in progress
  | driver
  | hand                               -- the poll thread has dequeued it
  deriving DecidableEq

/-- Where the keepalive of a call can be. -/
inductive Custody where
  | pending
  | callback                           -- moved out, for `input_done_cb_`
  | dropped
  deriving DecidableEq

/-- The submissions of the slots at a place that are not free. -/
def subsAt (s : H264Encoder φ) : Place → List Submission
  | .free => []
  | .encode => s.submitting ++ s.undoing
  | .driver => s.inputQueued ++ s.inputDone
  | .hand => s.pollThread.sub

/-- The slots at a place. -/
def slotsAt (s : H264Encoder φ) : Place → List ℕ
  | .free => s.freeInputSlots
  | p => (s.subsAt p).map (·.buf.index)

/-- The submissions whose slots are out. -/
def out (s : H264Encoder φ) : List Submission :=
  (s.submitting ++ s.undoing) ++ ((s.inputQueued ++ s.inputDone) ++ s.pollThread.sub)

/-- The calls whose keepalives are in custody. -/
def keepalivesAt (s : H264Encoder φ) : Custody → List ℕ
  | .pending => s.out.map (·.call)
  | .callback => s.pollThread.handed
  | .dropped => s.dropped

end H264Encoder

open H264Encoder

/-- **The slots are kept**: each of the `c` slots is in exactly one place, and below the length of
`pending_frames_`; a slot that is out, and no other, has the frame of the call that took it; the
keepalive of every call is pending while its slot is out, then with the callback, then dropped. -/
structure SlotsKept {φ : Type*} (c : ℕ) (s : H264Encoder φ) : Prop where
  place : ∀ i < c, ∃! p, i ∈ s.slotsAt p
  once : ∀ p, (s.slotsAt p).Nodup
  bound : ∀ p, ∀ i ∈ s.slotsAt p, i < c ∧ i < numOutputBuffers
  pending : ∀ i < c, (s.pendingFrames i).isSome ↔ i ∉ s.slotsAt .free
  frame : ∀ p, ∀ sub ∈ s.subsAt p, ∃ k, s.pendingFrames sub.buf.index = some k ∧
    s.calls[sub.call]? = some k
  custody : ∀ n < s.calls.length, ∃! p, n ∈ s.keepalivesAt p
  dropped : s.dropped.Nodup ∧ ∀ n ∈ s.dropped, n < s.calls.length

namespace H264Encoder

variable {φ : Type*} {c m : ℕ} {mem : ℕ → ℕ} {s s' : H264Encoder φ} {sub : Submission}

/-- The slots are leased to the submissions, whose deposits are the keepalives. -/
structure Sound (c : ℕ) (s : H264Encoder φ) : Prop where
  leases : Leased (·.buf.index) Submission.call c s.freeInputSlots s.out s.pendingFrames
    (s.pollThread.handed ++ s.dropped) s.calls
  numbered : ∀ (t : ℕ) (k : Keepalive φ), s.calls[t]? = some k → k.call = t

lemma drop_none (s : H264Encoder φ) : s.drop none = s := by
  simp [drop]

lemma sound_new : Sound c (.new φ c m mem) where
  leases := Leased.empty _ _ c
  numbered t k h := by cases h

lemma Sound.take (h : Sound c s) (frame : φ) (dmaFd : ℤ) (size : ℕ) (timestampUs : ℤ) :
    Sound c (s.take frame dmaFd size timestampUs).1 := by
  rw [H264Encoder.take]
  split
  · exact h
  next slot rest hfree =>
    have hleases := h.leases
    rw [hfree] at hleases
    rw [hleases.free slot List.mem_cons_self, drop_none]
    refine ⟨?_, ?_⟩
    · exact Leased.take (b := (⟨inputBuffer slot dmaFd size timestampUs, s.calls.length⟩ :
        Submission)) hleases rfl ⟨frame, s.calls.length⟩
    · intro t k hk
      obtain hlt | hge := Nat.lt_or_ge t s.calls.length
      · rw [List.getElem?_append_left hlt] at hk
        exact h.numbered t k hk
      · rw [List.getElem?_append_right hge, List.getElem?_singleton] at hk
        split_ifs at hk
        cases hk
        dsimp only
        omega

/-- A step that passes slots on. -/
lemma Sound.moved (h : Sound c s) (hout : s.out.Perm s'.out)
    (hfree : s'.freeInputSlots = s.freeInputSlots) (hpending : s'.pendingFrames = s.pendingFrames)
    (hhanded : s'.pollThread.handed = s.pollThread.handed) (hdropped : s'.dropped = s.dropped)
    (hcalls : s'.calls = s.calls) : Sound c s' := by
  refine ⟨?_, ?_⟩
  · rw [hfree, hpending, hhanded, hdropped, hcalls]
    exact h.leases.moved hout
  · rw [hcalls]
    exact h.numbered

lemma Sound.qbuf (h : Sound c s) {ok : Bool} {r : H264Encoder φ × Option Bool}
    (hq : s.qbuf sub ok = some r) : Sound c r.1 := by
  rw [H264Encoder.qbuf] at hq
  split_ifs at hq with hmem hok
  · cases hq
    refine h.moved ?_ rfl rfl rfl rfl rfl
    have := List.perm_cons_erase hmem
    simp only [out]
    grind
  · cases hq
    refine h.moved ?_ rfl rfl rfl rfl rfl
    have := List.perm_cons_erase hmem
    simp only [out]
    grind

/-- The slot of a submission comes back, with the keepalive of its call. -/
lemma Sound.giveBack (h : Sound c s) {o : List Submission} (hout : s.out.Perm (sub :: o)) :
    ∃ k, s.pendingFrames sub.buf.index = some k ∧
      Leased (·.buf.index) Submission.call c (s.freeInputSlots ++ [sub.buf.index]) o
        (Function.update s.pendingFrames sub.buf.index none)
        (k.call :: (s.pollThread.handed ++ s.dropped)) s.calls := by
  obtain ⟨k, hk, hcall⟩ := h.leases.leased sub (hout.mem_iff.mpr List.mem_cons_self)
  refine ⟨k, hk, ?_⟩
  rw [h.numbered _ _ hcall]
  exact h.leases.giveBack hout

lemma Sound.undo (h : Sound c s) {r : H264Encoder φ × Option Bool}
    (hu : s.undo sub = some r) : Sound c r.1 := by
  rw [H264Encoder.undo] at hu
  split_ifs at hu with hmem
  cases hu
  have hout : s.out.Perm (sub :: ((s.submitting ++ s.undoing.erase sub) ++
      ((s.inputQueued ++ s.inputDone) ++ s.pollThread.sub))) := by
    have := List.perm_cons_erase hmem
    simp only [out]
    grind
  obtain ⟨k, hk, hback⟩ := h.giveBack hout
  refine ⟨hback.moved_back ?_, h.numbered⟩
  simp only [hk, drop, Option.map_some, Option.toList_some]
  grind

lemma Sound.finish (h : Sound c s) (hf : s.finish sub = some s') : Sound c s' := by
  rw [H264Encoder.finish] at hf
  split_ifs at hf with hmem
  cases hf
  refine h.moved ?_ rfl rfl rfl rfl rfl
  have := List.perm_cons_erase hmem
  simp only [out]
  grind

/-- A step that only moves the poll thread on is one with empty hands. -/
lemma PollNext.hands {drained : Bool} {p q : PollPc φ} (h : PollNext drained p q) :
    p.sub = q.sub ∧ p.handed = q.handed := by
  cases h <;> exact ⟨rfl, rfl⟩

lemma Sound.pollStep (h : Sound c s) {answer : PollAnswer} (hp : s.pollStep answer = some s') :
    Sound c s' := by
  -- a step that has no slot and no keepalive in hand, before and after
  have hstay : ∀ {pc : PollPc φ}, s.pollThread.sub = pc.sub → s.pollThread.handed = pc.handed →
      Leased (·.buf.index) Submission.call c s.freeInputSlots
        ((s.submitting ++ s.undoing) ++ ((s.inputQueued ++ s.inputDone) ++ pc.sub))
        s.pendingFrames (pc.handed ++ s.dropped) s.calls := by
    intro pc hsub hhanded
    have hleases := h.leases
    rw [out, hsub, hhanded] at hleases
    exact hleases
  obtain ⟨pc, hnext, rfl⟩ | ⟨sub, hmem, hpc, rfl⟩ | ⟨sub, hpc, rfl⟩ | ⟨frame, hpc, rfl⟩ |
    ⟨buf, -, hpc, rfl⟩ | ⟨item, hpc, rfl⟩ := pollStep_cases hp
  case inl =>
    obtain ⟨hsub, hhanded⟩ := hnext.hands
    exact ⟨hstay hsub hhanded, h.numbered⟩
  case inr.inl =>
    refine h.moved ?_ rfl rfl (by rw [hpc]; rfl) rfl rfl
    have := List.perm_cons_erase hmem
    simp only [out, hpc, PollPc.sub]
    grind
  case inr.inr.inl =>
    -- the slot is free from here on, and the keepalive in hand
    have hout : s.out.Perm (sub :: ((s.submitting ++ s.undoing) ++
        ((s.inputQueued ++ s.inputDone) ++ []))) := by
      simp only [out, hpc, PollPc.sub]
      grind
    obtain ⟨k, hk, hback⟩ := h.giveBack hout
    rw [hpc] at hback
    refine ⟨?_, h.numbered⟩
    rw [hk]
    exact hback
  case inr.inr.inr.inl =>
    have hleases := h.leases
    rw [out, hpc] at hleases
    refine ⟨hleases.moved_back ?_, h.numbered⟩
    cases frame with
    | none => simp [PollPc.handed, drop]
    | some k => simpa [PollPc.handed, drop] using (List.perm_append_singleton k.call s.dropped).symm
  all_goals exact ⟨hstay (by rw [hpc]; rfl) (by rw [hpc]; rfl), h.numbered⟩

lemma Sound.outputStep (h : Sound c s) {ok : Bool} (ho : s.outputStep ok = some s') :
    Sound c s' := by
  obtain ⟨-, -, rfl⟩ | ⟨-, -, -, rfl⟩ | ⟨_, _, -, -, rfl⟩ | ⟨_, -, rfl⟩ | ⟨_, -, rfl⟩ :=
    outputStep_cases ho
  all_goals exact ⟨h.leases, h.numbered⟩

lemma Sound.fill (h : Sound c s) {buf : EncodedBuffer} (hf : s.fill buf = some s') :
    Sound c s' := by
  obtain ⟨-, rfl⟩ := fill_cases hf
  exact ⟨h.leases, h.numbered⟩

lemma Sound.destroyStep (h : Sound c s) (hd : s.destroyStep = some s') : Sound c s' := by
  obtain ⟨-, rfl⟩ | ⟨-, -, rfl⟩ | ⟨-, rfl⟩ | ⟨-, -, rfl⟩ := destroyStep_cases hd
  all_goals exact ⟨h.leases, h.numbered⟩

/-- Each step keeps the slots. -/
lemma Sound.step (h : Sound c s) {e : Step φ} (hstep : (h264 φ c m mem).step s e = some s') :
    Sound c s' := by
  cases e with
  | take frame dmaFd size timestampUs =>
      cases hstep
      exact h.take frame dmaFd size timestampUs
  | qbuf sub ok =>
      obtain ⟨r, hr, rfl⟩ := Option.map_eq_some_iff.mp hstep
      exact h.qbuf hr
  | undo sub =>
      obtain ⟨r, hr, rfl⟩ := Option.map_eq_some_iff.mp hstep
      exact h.undo hr
  | finish sub => exact h.finish hstep
  | fill buf => exact h.fill hstep
  | pollThread answer => exact h.pollStep hstep
  | outputThread ok => exact h.outputStep hstep
  | destroy => exact h.destroyStep hstep

lemma sound_of_reach {check : H264Encoder φ → Step φ → Prop} (h : (h264 φ c m mem).Reach check s) :
    Sound c s := by
  refine h.invariant (Sound c) ?_ ?_
  · rintro s rfl
    exact sound_new
  · intro s e s' _ hs _ hstep
    exact hs.step hstep

/-! ### The places -/

lemma perm_slotsAt (h : Sound c s) :
    ([Place.free, .encode, .driver, .hand].flatMap s.slotsAt).Perm (List.range c) := by
  have hslots := h.leases.slots
  simp only [out, List.map_append] at hslots
  simpa [slotsAt, subsAt] using hslots

lemma perm_keepalivesAt (h : Sound c s) :
    ([Custody.pending, .callback, .dropped].flatMap s.keepalivesAt).Perm
      (List.range s.calls.length) := by
  simpa [keepalivesAt] using h.leases.tickets

lemma mem_out_of_subsAt {p : Place} (hsub : sub ∈ s.subsAt p) : sub ∈ s.out := by
  cases p with
  | free => exact absurd hsub List.not_mem_nil
  | encode => exact List.mem_append_left _ hsub
  | driver => exact List.mem_append_right _ (List.mem_append_left _ hsub)
  | hand => exact List.mem_append_right _ (List.mem_append_right _ hsub)

end H264Encoder

/-- **Every run keeps the slots**, for any number of slots that fits `pending_frames_`. -/
theorem slots_kept {φ : Type*} {c m : ℕ} {mem : ℕ → ℕ} (hc : c ≤ numOutputBuffers)
    {s : H264Encoder φ} (h : (h264 φ c m mem).Reach (fun _ _ => True) s) : SlotsKept c s := by
  have hs := sound_of_reach h
  have hplaces : ∀ p, p ∈ [Place.free, .encode, .driver, .hand] := by
    intro p
    cases p <;> decide
  have hcustodies : ∀ p, p ∈ [Custody.pending, .callback, .dropped] := by
    intro p
    cases p <;> decide
  have hdropped := nodup_of_perm (perm_keepalivesAt hs) (hcustodies .dropped)
  refine ⟨fun i hi => existsUnique_of_perm hplaces (perm_slotsAt hs) hi,
    fun p => nodup_of_perm (perm_slotsAt hs) (hplaces p), ?_, fun i hi => hs.leases.kept_iff hi,
    fun p sub hsub => hs.leases.leased sub (mem_out_of_subsAt hsub),
    fun n hn => existsUnique_of_perm hcustodies (perm_keepalivesAt hs) hn, hdropped, ?_⟩
  · intro p i hi
    have hmem : i ∈ [Place.free, .encode, .driver, .hand].flatMap s.slotsAt :=
      List.mem_flatMap.mpr ⟨p, hplaces p, hi⟩
    have hlt : i < c := List.mem_range.mp ((perm_slotsAt hs).mem_iff.mp hmem)
    exact ⟨hlt, hlt.trans_le hc⟩
  · intro n hn
    have hmem : n ∈ [Custody.pending, .callback, .dropped].flatMap s.keepalivesAt :=
      List.mem_flatMap.mpr ⟨.dropped, hcustodies .dropped, hn⟩
    exact List.mem_range.mp ((perm_keepalivesAt hs).mem_iff.mp hmem)

/-- The run of two slots: the second frame is refused by the driver, and the first one comes
back. -/
def twoFrames : List (H264Encoder.Step ℕ) :=
  [.take 70 5 100 1500000, .take 71 6 100 1533000,
    .qbuf ⟨inputBuffer 0 5 100 1500000, 0⟩ true, .qbuf ⟨inputBuffer 1 6 100 1533000, 1⟩ false,
    .undo ⟨inputBuffer 1 6 100 1533000, 1⟩, .finish ⟨inputBuffer 0 5 100 1500000, 0⟩,
    .pollThread (.polled .ready), .pollThread .none,
    .pollThread (.output (some ⟨inputBuffer 0 5 100 1500000, 0⟩)), .pollThread .none]

/-- After that run the slots are free again, and the keepalive of the first frame is in the hands of
the callback. -/
theorem twoFrames_slots : ∃ s : H264Encoder ℕ,
    (h264 ℕ 2 4 id).exec (fun _ _ => true) (.new ℕ 2 4 id) twoFrames = some s ∧
      s.freeInputSlots = [1, 0] ∧ s.dropped = [1] ∧ s.pollThread.handed = [0] ∧
        SlotsKept 2 s := by
  obtain ⟨s, hs⟩ := Option.isSome_iff_exists.mp (by decide :
    ((h264 ℕ 2 4 id).exec (fun _ _ => true) (.new ℕ 2 4 id) twoFrames).isSome)
  refine ⟨s, hs, ?_, ?_, ?_,
    slots_kept (m := 4) (by decide) (.of_exec_check (fun _ _ _ => trivial) rfl hs)⟩
  all_goals
    cases hs
    rfl

end RasPiZeroCam
