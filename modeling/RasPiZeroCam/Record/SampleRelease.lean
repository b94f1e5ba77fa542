import RasPiZeroCam.Record.SampleRefs
import RasPiZeroCam.Transition.Balance

/-!
What the drain thread and GStreamer owe for each sample, until they have given it back.

* `SampleDuty`: the reference that was pulled, the one for `release`, and the mapping.
* `SampleView.Counted`: every `FramePtr` has an owner, and what was acquired was released or is
  outstanding.  `SampleView.Ordered`: a pushed buffer is freed before its memory is unmapped.
* `samples_released`: every reference is released once, every map undone once, and not before the
  buffer around the memory has been freed.
-/

namespace RasPiZeroCam

open Transition System SampleRefs

/-- What has to be given back. -/
inductive SampleDuty where
  | sample
  | held
  | mapping
  deriving DecidableEq

namespace SampleCall

@[simp] def acquires : SampleCall → Option SampleDuty
  | pull => some .sample
  | ref => some .held
  | map => some .mapping
  | _ => none

@[simp] def releases : SampleCall → Option SampleDuty
  | unrefSample => some .sample
  | unrefHeld => some .held
  | unmap => some .mapping
  | _ => none

end SampleCall

/-- **A sample is released**: none of its references, nor its mapping, is given back more than once,
and all are once nothing is under way; the memory stays mapped until the buffer around it has been
freed; and while something is under way, the drain thread or GStreamer can go on with it. -/
structure SampleReleased (s : SampleRefs) (k : ℕ) : Prop where
  pulled : tally SampleCall.acquires (s.callsOn k) .sample = if k < s.pulled then 1 else 0
  atMostOnce : ∀ duty, tally SampleCall.acquires (s.callsOn k) duty ≤ 1 ∧
    tally SampleCall.releases (s.callsOn k) duty ≤ tally SampleCall.acquires (s.callsOn k) duty
  all : s.Settled k → ∀ duty, tally SampleCall.releases (s.callsOn k) duty =
    tally SampleCall.acquires (s.callsOn k) duty
  mapped : .push ∈ s.callsOn k → Precedes .freed .unmap (s.callsOn k)
  progress : ¬ s.Settled k →
    (∃ stage, s.pc = .sample k stage ∧ ∀ o, ∃ s', sampleRefs.step s (.drain o) = some s') ∨
      ∃ s', sampleRefs.step s (.gst k) = some s'

namespace SampleStage

/-- How many `FramePtr`s the drain thread has. -/
@[simp] def frames : SampleStage → ℕ
  | callPush => 1
  | testState => 2
  | testEncoder => 2
  | testAppsrc => 2
  | keepalive => 2
  | pushBuffer => 2
  | endPush => 2
  | unrefSample => 1
  | endFrame => 1
  | _ => 0

/-- What the drain thread has to give back itself, apart from what the frame has. -/
@[simp] def owes : SampleStage → SampleDuty → ℕ
  | endFrame, .sample => 0
  | unmap _, .sample => 0
  | unrefHeld _, .sample => 0
  | _, .sample => 1
  | makeFrame, .held => 1
  | unmap _, .held => 1
  | unrefHeld _, .held => 1
  | _, .held => 0
  | ref, .mapping => 1
  | makeFrame, .mapping => 1
  | unmap _, .mapping => 1
  | _, .mapping => 0

/-- What it may still acquire. -/
@[simp] def ahead : SampleStage → SampleDuty → ℕ
  | guard, .held => 1
  | map, .held => 1
  | ref, .held => 1
  | guard, .mapping => 1
  | map, .mapping => 1
  | _, _ => 0

/-- The buffer around the memory has not been made. -/
@[simp] def unwrapped : SampleStage → Bool
  | pushBuffer => false
  | endPush => false
  | unrefSample => false
  | endFrame => false
  | unmap _ => false
  | unrefHeld _ => false
  | _ => true

/-- The drain thread is in `~Frame`. -/
@[simp] def destroys : SampleStage → Bool
  | unmap _ => true
  | unrefHeld _ => true
  | _ => false

end SampleStage

namespace WrapState

/-- How many `FramePtr`s the buffer has: its keepalive. -/
def frames : WrapState → ℕ
  | built => 1
  | pushed => 1
  | _ => 0

/-- What GStreamer has to give back when it has freed the buffer. -/
def owes : WrapState → SampleDuty → ℕ
  | unmap, .held => 1
  | unmap, .mapping => 1
  | unrefHeld, .held => 1
  | _, _ => 0

/-- The buffer has been freed. -/
def freed : WrapState → Bool
  | unmap => true
  | unrefHeld => true
  | gone => true
  | _ => false

/-- GStreamer is in `~Frame`. -/
def destroys : WrapState → Bool
  | unmap => true
  | unrefHeld => true
  | _ => false

end WrapState

/-- What a frame gives back in the end. -/
@[simp] def SampleDuty.ofFrame : SampleDuty → ℕ
  | sample => 0
  | held => 1
  | mapping => 1

namespace SampleView

/-- What is outstanding of a sample. -/
def out (v : SampleView) (duty : SampleDuty) : ℕ :=
  v.stage.elim 0 (·.owes duty) + (if v.count = 0 then 0 else duty.ofFrame) + v.wrap.owes duty

/-- Every `FramePtr` is the drain thread's or the buffer's, the calls balance, nothing is acquired
twice, and `~Frame` runs when no `FramePtr` is left. -/
structure Counted (v : SampleView) : Prop where
  count : v.count = v.stage.elim 0 (·.frames) + v.wrap.frames
  scope : v.stage ≠ some (.unmap .param) ∧ v.stage ≠ some (.unrefHeld .param)
  balanced : Balanced SampleCall.acquires SampleCall.releases v.calls v.out
  once : ∀ duty, tally SampleCall.acquires v.calls duty + v.stage.elim 0 (·.ahead duty) ≤ 1
  unwrapped : v.stage.elim false (·.unwrapped) = true → v.wrap = .none
  built : v.wrap = .built ↔ v.stage = some .pushBuffer
  last : v.stage.elim false (·.destroys) = true ∨ v.wrap.destroys = true → v.count = 0

/-- A pushed buffer is freed before the memory is unmapped. -/
structure Ordered (v : SampleView) : Prop where
  pushed : .push ∈ v.calls → v.wrap = .pushed ∨ v.wrap.freed = true
  freed : v.wrap.freed = true → .freed ∈ v.calls
  mapped : .push ∈ v.calls → Precedes .freed .unmap v.calls

variable {v v' : SampleView}

/-- A sample that has not been pulled. -/
lemma Counted.fresh : Counted ⟨none, 0, .none, []⟩ where
  count := rfl
  scope := by simp
  balanced duty := by cases duty <;> rfl
  once duty := Nat.zero_le 1
  unwrapped _ := rfl
  built := by simp
  last _ := rfl

lemma Ordered.fresh : Ordered ⟨none, 0, .none, []⟩ where
  pushed h := by cases h
  freed h := by cases h
  mapped h := by cases h

/-- The counts after a step, by what it does to each. -/
lemma Counted.append (hs : v.Counted) (cs : List SampleCall) (hcalls : v'.calls = v.calls ++ cs)
    (hout : ∀ duty, tally SampleCall.acquires cs duty + v.out duty =
      tally SampleCall.releases cs duty + v'.out duty)
    (hahead : ∀ duty, tally SampleCall.acquires cs duty + v'.stage.elim 0 (·.ahead duty) ≤
      v.stage.elim 0 (·.ahead duty))
    (hcount : v'.count = v'.stage.elim 0 (·.frames) + v'.wrap.frames)
    (hscope : v'.stage ≠ some (.unmap .param) ∧ v'.stage ≠ some (.unrefHeld .param))
    (hunwrapped : v'.stage.elim false (·.unwrapped) = true → v'.wrap = .none)
    (hbuilt : v'.wrap = .built ↔ v'.stage = some .pushBuffer)
    (hlast : v'.stage.elim false (·.destroys) = true ∨ v'.wrap.destroys = true → v'.count = 0) :
    v'.Counted where
  count := hcount
  scope := hscope
  balanced := hcalls ▸ hs.balanced.append hout
  once duty := by
    have hone := hs.once duty
    have hmore := hahead duty
    rw [hcalls, tally_append]
    omega
  unwrapped := hunwrapped
  built := hbuilt
  last := hlast

/-- The parameter of `push_frame` ends: `frame` is still there. -/
lemma Counted.endPush {n : ℕ} {w : WrapState} {cs : List SampleCall}
    (hs : Counted ⟨some .endPush, n, w, cs⟩) : Counted ⟨some .unrefSample, n - 1, w, cs⟩ := by
  have hn : n = 2 + w.frames := hs.count
  have hpos : n ≠ 0 := by omega
  have hpos' : n - 1 ≠ 0 := by omega
  refine hs.append [] (by simp) (fun duty => ?_) (fun duty => ?_) ?_ (by simp) (by simp)
    (by simpa using hs.built) ?_
  · cases duty <;> simp [out, hpos, hpos']
  · cases duty <;> simp
  · show n - 1 = 1 + w.frames
    omega
  · intro hw
    exact absurd (hs.last (Or.inr (by simpa using hw))) hpos

/-- `frame` ends: it was the last one unless the buffer is still there. -/
lemma Counted.endFrame {n : ℕ} {w : WrapState} {cs : List SampleCall}
    (hs : Counted ⟨some .endFrame, n, w, cs⟩) :
    Counted ⟨if n = 1 then some (.unmap .frame) else none, n - 1, w, cs⟩ := by
  have hn : n = 1 + w.frames := hs.count
  have hpos : n ≠ 0 := by omega
  split_ifs with hone
  · refine hs.append [] (by simp) (fun duty => ?_) (fun duty => ?_) ?_ (by simp) (by simp)
      (by simpa using hs.built) fun _ => ?_
    · cases duty <;> simp [out, hone, add_comm]
    · cases duty <;> simp
    · show n - 1 = 0 + w.frames
      omega
    · show n - 1 = 0
      omega
  · have hpos' : n - 1 ≠ 0 := by omega
    refine hs.append [] (by simp) (fun duty => ?_) (fun duty => ?_) ?_ (by simp) (by simp)
      (by simpa using hs.built) ?_
    · cases duty <;> simp [out, hpos, hpos']
    · cases duty <;> simp
    · show n - 1 = 0 + w.frames
      omega
    · intro hw
      exact absurd (hs.last (Or.inr (by simpa using hw))) hpos

/-- The keepalive ends: it was the last one unless the drain thread still has one. -/
lemma Counted.freed {stage : Option SampleStage} {n : ℕ} {cs : List SampleCall}
    (hs : Counted ⟨stage, n, .pushed, cs⟩) :
    Counted ⟨stage, n - 1, if n = 1 then .unmap else .gone, cs ++ [.freed]⟩ := by
  have hn : n = stage.elim 0 (·.frames) + 1 := hs.count
  have hpos : n ≠ 0 := by omega
  have hearly : stage.elim false (·.unwrapped) ≠ true := by
    intro hstage
    cases hs.unwrapped hstage
  have hlater : stage ≠ some .pushBuffer := by
    intro hstage
    cases hs.built.mpr hstage
  have hrunning : stage.elim false (·.destroys) ≠ true :=
    fun hstage => hpos (hs.last (Or.inl hstage))
  refine hs.append [.freed] rfl (fun duty => ?_) (fun duty => by simp) ?_ hs.scope
    (fun hstage => absurd hstage hearly) ?_ ?_
  · by_cases hone : n = 1
    · cases duty <;> simp [out, hone, WrapState.owes]
    · have hpos' : n - 1 ≠ 0 := by omega
      cases duty <;> simp [out, hone, hpos, hpos', WrapState.owes]
  · show n - 1 = stage.elim 0 (·.frames) + (if n = 1 then WrapState.unmap else .gone).frames
    split_ifs <;> simp only [WrapState.frames] <;> omega
  · refine iff_of_false ?_ hlater
    show (if n = 1 then WrapState.unmap else .gone) ≠ .built
    split_ifs <;> simp
  · rintro (hstage | hwrap)
    · exact absurd hstage hrunning
    · show n - 1 = 0
      by_cases hone : n = 1
      · omega
      · have hgone : (if n = 1 then WrapState.unmap else .gone).destroys = true := hwrap
        rw [if_neg hone] at hgone
        cases hgone

/-- **The counts are kept.** -/
lemma Counted.step (hs : v.Counted) (h : v.Step v') : v'.Counted := by
  obtain ⟨hcount, hscope, -, -, hunwrapped, hbuilt, hlast⟩ := id hs
  cases h with
  | pull =>
      refine ⟨rfl, by simp, fun duty => ?_, fun duty => ?_, fun _ => rfl, by simp, fun _ => rfl⟩
      · cases duty <;> rfl
      · cases duty <;> simp
  | moves hmove =>
      refine hs.append [] (by simp) (fun duty => ?_) (fun duty => ?_) ?_ ?_ ?_ ?_ ?_
      · cases hmove <;> cases duty <;> simp [out]
      · cases hmove <;> cases duty <;> simp
      · cases hmove <;> exact hcount
      · cases hmove <;> simp
      · cases hmove <;> exact fun _ => hunwrapped rfl
      · cases hmove <;> simpa using hbuilt
      · cases hmove <;> simpa using hlast
  | map =>
      refine hs.append [.map] rfl (fun duty => ?_) (fun duty => ?_) hcount (by simp)
        (fun _ => hunwrapped rfl) (by simpa using hbuilt) (by simpa using hlast)
      · cases duty <;> simp [out, add_assoc]
      · cases duty <;> simp
  | ref =>
      refine hs.append [.ref] rfl (fun duty => ?_) (fun duty => ?_) hcount (by simp)
        (fun _ => hunwrapped rfl) (by simpa using hbuilt) (by simpa using hlast)
      · cases duty <;> simp [out, add_assoc]
      · cases duty <;> simp
  | @makeFrame n w cs =>
      obtain rfl := hunwrapped rfl
      obtain rfl : n = 0 := hcount
      refine hs.append [] (by simp) (fun duty => ?_) (fun duty => ?_) rfl (by simp) (fun _ => rfl)
        (by simp) (by simp [WrapState.destroys])
      · cases duty <;> simp [out]
      · cases duty <;> simp
  | @callPush n w cs =>
      obtain rfl := hunwrapped rfl
      obtain rfl : n = 1 := hcount
      refine hs.append [] (by simp) (fun duty => ?_) (fun duty => ?_) rfl (by simp) (fun _ => rfl)
        (by simp) (by simp [WrapState.destroys])
      · cases duty <;> simp [out]
      · cases duty <;> simp
  | @keepalive n w cs =>
      obtain rfl := hunwrapped rfl
      obtain rfl : n = 2 := hcount
      refine hs.append [] (by simp) (fun duty => ?_) (fun duty => ?_) rfl (by simp) (by simp)
        (by simp) (by simp [WrapState.destroys])
      · cases duty <;> simp [out, WrapState.owes]
      · cases duty <;> simp
  | pushBuffer =>
      obtain rfl := hbuilt.mpr rfl
      refine hs.append [.push] rfl (fun duty => ?_) (fun duty => ?_) hcount (by simp) (by simp)
        (by simp) (by simp [WrapState.destroys])
      · cases duty <;> simp [out, WrapState.owes]
      · cases duty <;> simp
  | @endPush n w cs =>
      have hn : n = 2 + w.frames := hcount
      rw [if_neg (by omega : n ≠ 1)]
      exact hs.endPush
  | unrefSample =>
      refine hs.append [.unrefSample] rfl (fun duty => ?_) (fun duty => ?_) hcount (by simp)
        (by simp) (by simpa using hbuilt) (by simpa using hlast)
      · cases duty <;> simp [out]
      · cases duty <;> simp
  | endFrame => exact hs.endFrame
  | unmap =>
      refine hs.append [.unmap] rfl (fun duty => ?_) (fun duty => ?_) hcount (by simpa using hscope)
        (by simp) (by simpa using hbuilt) (by simpa using hlast)
      · cases duty <;> simp [out, add_assoc]
      · cases duty <;> simp
  | @unrefHeld scope n w cs =>
      cases scope with
      | param => exact absurd rfl hscope.2
      | frame =>
          refine hs.append [.unrefHeld] rfl (fun duty => ?_) (fun duty => ?_) hcount (by simp)
            (by simp) (by simpa using hbuilt) fun _ => hlast (Or.inl rfl)
          · cases duty <;> simp [out, add_assoc]
          · cases duty <;> simp
  | discard =>
      refine hs.append [.unrefSample] rfl (fun duty => ?_) (fun duty => ?_) hcount (by simp)
        (by simp) (by simpa using hbuilt) (by simpa using hlast)
      · cases duty <;> simp [out]
      · cases duty <;> simp
  | freed => exact hs.freed
  | @gstUnmap stage n cs =>
      refine hs.append [.unmap] rfl (fun duty => ?_) (fun duty => ?_) hcount hscope
        (fun h => by simpa using hunwrapped h) ?_ fun _ => hlast (Or.inr rfl)
      · cases duty <;> simp [out, WrapState.owes, add_comm]
      · simp
      · exact iff_of_false (by simp) fun h => by simpa using hbuilt.mpr h
  | @gstUnref stage n cs =>
      refine hs.append [.unrefHeld] rfl (fun duty => ?_) (fun duty => ?_) hcount hscope
        (fun h => by simpa using hunwrapped h) ?_ fun _ => hlast (Or.inr rfl)
      · cases duty <;> simp [out, WrapState.owes, add_comm]
      · simp
      · exact iff_of_false (by simp) fun h => by simpa using hbuilt.mpr h

/-- A step that is no push, free or unmap, and leaves a pushed buffer as it is. -/
lemma Ordered.keep (hs : v.Ordered) (hcalls : v'.calls = v.calls ∨
      ∃ c, v'.calls = v.calls ++ [c] ∧ c ≠ .push ∧ c ≠ .unmap)
    (hpushed : v.wrap = .pushed ∨ v.wrap.freed = true →
      v'.wrap = .pushed ∨ v'.wrap.freed = true)
    (hfreed : v'.wrap.freed = true → v.wrap.freed = true) : v'.Ordered := by
  rcases hcalls with heq | ⟨c, heq, hpush, hunmap⟩
  · exact ⟨fun h => hpushed (hs.pushed (heq ▸ h)), fun h => heq ▸ hs.freed (hfreed h),
      fun h => heq ▸ hs.mapped (heq ▸ h)⟩
  · have hold : .push ∈ v'.calls → .push ∈ v.calls := by
      intro h
      rw [heq] at h
      exact (List.mem_append.mp h).resolve_right fun h => hpush (List.mem_singleton.mp h).symm
    exact ⟨fun h => hpushed (hs.pushed (hold h)),
      fun h => heq ▸ List.mem_append_left _ (hs.freed (hfreed h)),
      fun h => heq ▸ (hs.mapped (hold h)).concat fun hc => absurd hc hunmap⟩

/-- Somebody in `~Frame` unmaps the memory: a buffer that was pushed has been freed. -/
lemma Ordered.unmap (hs : v.Ordered) (hcalls : v'.calls = v.calls ++ [.unmap])
    (hnot : v.wrap ≠ .pushed) (hfreed : v'.wrap.freed = v.wrap.freed) : v'.Ordered := by
  have hold : .push ∈ v'.calls → v.wrap.freed = true ∧ .push ∈ v.calls := by
    intro h
    rw [hcalls] at h
    have hpush : .push ∈ v.calls := by simpa using h
    exact ⟨(hs.pushed hpush).resolve_left hnot, hpush⟩
  exact ⟨fun h => Or.inr (hfreed ▸ (hold h).1),
    fun h => hcalls ▸ List.mem_append_left _ (hs.freed (hfreed ▸ h)),
    fun h => hcalls ▸ (hs.mapped (hold h).2).concat fun _ => hs.freed (hold h).1⟩

/-- **The order is kept.** -/
lemma Ordered.step (hs : v.Ordered) (hc : v.Counted) (h : v.Step v') : v'.Ordered := by
  have hnone : ∀ {w : WrapState}, w = .none → ¬ (w = .pushed ∨ w.freed = true) := by
    rintro w rfl
    simp [WrapState.freed]
  cases h with
  | pull => exact hs.keep (Or.inr ⟨.pull, rfl, by simp, by simp⟩) id id
  | moves _ => exact hs.keep (Or.inl rfl) id id
  | map => exact hs.keep (Or.inr ⟨.map, rfl, by simp, by simp⟩) id id
  | ref => exact hs.keep (Or.inr ⟨.ref, rfl, by simp, by simp⟩) id id
  | makeFrame => exact hs.keep (Or.inl rfl) id id
  | callPush => exact hs.keep (Or.inl rfl) id id
  | keepalive =>
      exact hs.keep (Or.inl rfl) (fun h => absurd h (hnone (hc.unwrapped rfl))) fun h => by cases h
  | @pushBuffer n w cs =>
      have hn : n = 2 + w.frames := hc.count
      have hpos : n ≠ 0 := by omega
      have hmapped : 0 < out ⟨some .pushBuffer, n, w, cs⟩ .mapping := by simp [out, hpos]
      have honce := hc.once .mapping
      have hunmap : .unmap ∉ cs ++ [.push] := by
        have hold := hc.balanced.not_mem (by omega) hmapped (c := .unmap) rfl
        simpa using hold
      exact ⟨fun _ => Or.inl rfl, (fun h => by cases h), fun _ => .of_not_mem hunmap⟩
  | endPush => exact hs.keep (Or.inl rfl) id id
  | unrefSample => exact hs.keep (Or.inr ⟨.unrefSample, rfl, by simp, by simp⟩) id id
  | endFrame => exact hs.keep (Or.inl rfl) id id
  | @unmap scope n w cs =>
      refine hs.unmap rfl (fun hw => ?_) rfl
      -- the keepalive would be left
      have hzero : n = 0 := hc.last (Or.inl rfl)
      have hn : n = 0 + w.frames := hc.count
      have hpushed : w = .pushed := hw
      rw [hzero, hpushed] at hn
      cases hn
  | unrefHeld => exact hs.keep (Or.inr ⟨.unrefHeld, rfl, by simp, by simp⟩) id id
  | discard => exact hs.keep (Or.inr ⟨.unrefSample, rfl, by simp, by simp⟩) id id
  | @freed stage n cs =>
      have hnow : (if n = 1 then WrapState.unmap else .gone).freed = true := by
        split_ifs <;> rfl
      refine ⟨fun _ => Or.inr hnow, fun _ => by simp, fun h => ?_⟩
      have hpush : .push ∈ cs := by simpa using h
      exact (hs.mapped hpush).concat fun h => by cases h
  | gstUnmap => exact hs.unmap rfl (by simp) rfl
  | gstUnref =>
      exact hs.keep (Or.inr ⟨.unrefHeld, rfl, by simp, by simp⟩) (fun _ => Or.inr rfl) fun _ => rfl

end SampleView

namespace SampleRefs

variable {s s' : SampleRefs} {k : ℕ}

/-- The samples are numbered, and each is accounted for. -/
structure Accounted (s : SampleRefs) : Prop where
  numbered : s.Numbered
  counted : ∀ k, (s.view k).Counted
  ordered : ∀ k, (s.view k).Ordered

/-- **Every run.** -/
lemma Accounted.of_reach {C : SampleRefs → Step → Prop} (h : sampleRefs.Reach C s) :
    s.Accounted := by
  refine h.invariant Accounted ?_ ?_
  · rintro _ rfl
    exact ⟨⟨fun _ _ => rfl, fun k hk => absurd hk (Nat.not_lt_zero k)⟩, fun _ => .fresh,
      fun _ => .fresh⟩
  · rintro s e s' _ ⟨hnumbered, hcounted, hordered⟩ _ hstep
    obtain ⟨hviews, hnumbered'⟩ := step_view hnumbered hstep
    refine ⟨hnumbered', fun k => ?_, fun k => ?_⟩
    · rcases hviews k with heq | hview
      · exact heq ▸ hcounted k
      · exact (hcounted k).step hview
    · rcases hviews k with heq | hview
      · exact heq ▸ hordered k
      · exact (hordered k).step (hcounted k) hview

/-- A sample nothing is under way with has no `FramePtr` left, and nothing is outstanding. -/
lemma Accounted.out_eq_zero (hs : s.Accounted) (h : s.Settled k) (duty : SampleDuty) :
    (s.view k).out duty = 0 := by
  have hstage : s.pc.stage? k = none := by
    cases hpc : s.pc with
    | sample j stage =>
        have hne : j ≠ k := fun hjk => h.1 stage (hjk ▸ hpc)
        simp [SamplePc.stage?, hne]
    | _ => rfl
  have hcount := (hs.counted k).count
  rcases h.2 with hwrap | hwrap <;>
    simp_all [view, SampleView.out, WrapState.frames, WrapState.owes]

/-- Otherwise somebody can go on with it. -/
lemma Accounted.progress (hs : s.Accounted) (h : ¬ s.Settled k) :
    (∃ stage, s.pc = .sample k stage ∧ ∀ o, ∃ s', sampleRefs.step s (.drain o) = some s') ∨
      ∃ s', sampleRefs.step s (.gst k) = some s' := by
  by_cases hstage : ∃ stage, s.pc = .sample k stage
  · obtain ⟨stage, hpc⟩ := hstage
    refine Or.inl ⟨stage, hpc, fun o => ⟨s.stageStep o k stage, ?_⟩⟩
    simp [sampleRefs, drainStep, hpc]
  · refine Or.inr ?_
    have hnot : ∀ stage, s.pc ≠ .sample k stage := fun stage hpc => hstage ⟨stage, hpc⟩
    cases hwrap : s.wrap k with
    | none => exact absurd ⟨hnot, Or.inl hwrap⟩ h
    | gone => exact absurd ⟨hnot, Or.inr hwrap⟩ h
    | built =>
        have hpush := (hs.counted k).built.mp hwrap
        simp only [view] at hpush
        cases hpc : s.pc with
        | sample j stage =>
            rw [hpc, SamplePc.stage?] at hpush
            split_ifs at hpush with hjk
            exact absurd (hjk ▸ hpc) (hnot stage)
        | _ => rw [hpc] at hpush; cases hpush
    | _ => exact ⟨_, by simp only [sampleRefs, gstStep, hwrap]; rfl⟩

end SampleRefs

/-- **Every sample is released**: in every run of the drain thread, whatever the tests and the calls
answer, and whenever GStreamer frees the buffers. -/
theorem samples_released {s : SampleRefs} (h : sampleRefs.Reach (fun _ _ => True) s) (k : ℕ) :
    SampleReleased s k := by
  have hs := Accounted.of_reach h
  have honce : ∀ duty, tally SampleCall.acquires (s.callsOn k) duty ≤ 1 :=
    fun duty => le_of_add_le_left ((hs.counted k).once duty)
  refine ⟨?_, fun duty => ⟨honce duty, (hs.counted k).balanced.released_le duty⟩,
    fun hsettled duty => (hs.counted k).balanced.released_eq (hs.out_eq_zero hsettled duty),
    (hs.ordered k).mapped, hs.progress⟩
  split_ifs with hk
  · refine le_antisymm (honce .sample) ?_
    exact List.countP_pos_iff.mpr ⟨.pull, hs.numbered.pulled k hk, by simp⟩
  · have hnone : s.callsOn k = [] :=
      congrArg SampleView.calls (hs.numbered.fresh k (not_lt.mp hk))
    rw [hnone, tally_nil]

namespace SampleRefs

/-- A sample that `push_frame` refuses, and one that is pushed and freed after the drain thread has
gone on. -/
def refusedThenPushed : List Step :=
  ([false, true, true, true, true, true, true, false] ++ List.replicate 5 true).map .drain ++
    (false :: List.replicate 14 true).map .drain ++ List.replicate 3 (.gst 1)

end SampleRefs

/-- Both are released, the first by the drain thread, the second by GStreamer. -/
theorem refusedThenPushed_released :
    ∃ s, sampleRefs.exec (fun _ _ => true) .new refusedThenPushed = some s ∧
      s.callsOn 0 = [.pull, .map, .ref, .unrefSample, .unmap, .unrefHeld] ∧
      s.callsOn 1 = [.pull, .map, .ref, .push, .unrefSample, .freed, .unmap, .unrefHeld] ∧
      SampleReleased s 0 ∧ SampleReleased s 1 := by
  have hrun : (sampleRefs.exec (fun _ _ => true) .new refusedThenPushed).map
      (fun s => (s.callsOn 0, s.callsOn 1)) =
        some ([.pull, .map, .ref, .unrefSample, .unmap, .unrefHeld],
          [.pull, .map, .ref, .push, .unrefSample, .freed, .unmap, .unrefHeld]) := by decide
  obtain ⟨s, hs, hend⟩ := Option.map_eq_some_iff.mp hrun
  obtain ⟨hrefused, hpushed⟩ := Prod.mk.inj hend
  have hreach := Reach.of_exec_check (C := fun _ _ => True) (fun _ _ _ => trivial)
    (show sampleRefs.init .new from rfl) hs
  exact ⟨s, hs, hrefused, hpushed, samples_released hreach 0, samples_released hreach 1⟩

end RasPiZeroCam
