import RasPiZeroCam.Camera.RingQueue

/-!
`FrameQueue<N>::size()`: the difference of the two counters, each loaded at a moment of its own.

* `Sized.toNat_sub_le_iff`: when the difference of two counters is a count of frames.
* `sizes_in_range_iff`: every call has returned at most `N` if and only if each found, at its load
  of `read_`, no frame popped that was pushed after its load of `write_` (`InTime`).
* `size_underflows`: a call that is overtaken returns `2 ^ 64 - 1`.
-/

namespace RasPiZeroCam

open Transition System

/-- Where a call of `size()` is; `pushes` is the number of pushes before its first load. -/
inductive SizePc (w : ℕ) where
  | idle
  | loadRead (v : BitVec w) (pushes : ℕ)  -- `v - read_.load()`
  deriving DecidableEq

/-- A `FrameQueue<N>`, and the calls of `size()` on it; `ι` are their threads. -/
structure SizedQueue (ι : Type*) (w : ℕ) (α : Type*) where
  queue : RingQueue w α
  pc : ι → SizePc w
  returned : List (BitVec w)   -- what the calls have returned

namespace SizedQueue

/-- A step of the producer or the consumer, or of a caller of `size()`. -/
inductive Step (ι α : Type*) where
  | queue (e : RingQueue.Step α)
  | size (c : ι)

variable {ι α : Type*} {w : ℕ} [DecidableEq ι]

/-- A step of `size()`. -/
def size (c : ι) (s : SizedQueue ι w α) : SizedQueue ι w α :=
  match s.pc c with
  | .idle => { s with
      pc := Function.update s.pc c
        (.loadRead s.queue.write (Fifo.accepted s.queue.history).length) }
  | .loadRead v _ => { s with
      pc := Function.update s.pc c .idle
      returned := (v - s.queue.read) :: s.returned }

/-- No more frames have been popped than the `n` that had been pushed, or so many more that the
difference of the counters has come round to at most `N` again. -/
def Behind (N w : ℕ) (s : RingQueue w α) (n : ℕ) : Prop :=
  (s.base - n) % 2 ^ w = 0 ∨ 2 ^ w - N ≤ (s.base - n) % 2 ^ w

/-- At its second load, a call of `size()` has not been overtaken by the consumer. -/
def InTime (N : ℕ) (s : SizedQueue ι w α) : Step ι α → Prop
  | .size c => ∀ v n, s.pc c = .loadRead v n → Behind N w s.queue n
  | _ => True

end SizedQueue

open SizedQueue

/-- The interleavings of one producer, one consumer, and callers of `size()`. -/
def sizedQueue (N w : ℕ) (ι α : Type*) [DecidableEq ι] :
    System (SizedQueue ι w α) (SizedQueue.Step ι α) where
  init s := s = ⟨.new w α, fun _ => .idle, []⟩
  step s
    | .queue e => ((ring N w α).step s.queue e).map fun r => { s with queue := r }
    | .size c => some (s.size c)

/-- **Every size is one of a queue of capacity `N`.** -/
def SizesInRange {ι α : Type*} {w : ℕ} (N : ℕ) (s : SizedQueue ι w α) : Prop :=
  ∀ v ∈ s.returned, v.toNat ≤ N

namespace RingQueue

/-- The difference of two counters, the second at most `N` behind the first. -/
lemma Sized.toNat_sub_le_iff {N w n b : ℕ} (hN : Sized N w) (hn : n ≤ b + N) :
    (BitVec.ofNat w n - BitVec.ofNat w b).toNat ≤ N ↔
      (b - n) % 2 ^ w = 0 ∨ 2 ^ w - N ≤ (b - n) % 2 ^ w := by
  have hlt := hN.lt
  obtain hle | hgt := Nat.le_total b n
  · -- in order: the difference is the count
    obtain ⟨k, rfl⟩ := Nat.exists_eq_add_of_le hle
    have hsub : BitVec.ofNat w (b + k) - BitVec.ofNat w b = BitVec.ofNat w k := by
      rw [BitVec.ofNat_add, BitVec.add_comm, BitVec.add_sub_cancel]
    have hk : k % 2 ^ w = k := Nat.mod_eq_of_lt (by omega)
    have hzero : b - (b + k) = 0 := by omega
    rw [hsub, BitVec.toNat_ofNat, hk, hzero, Nat.zero_mod]
    exact iff_of_true (by omega) (Or.inl rfl)
  · -- overtaken: it wraps
    obtain ⟨k, rfl⟩ := Nat.exists_eq_add_of_le hgt
    have hsub : BitVec.ofNat w n - BitVec.ofNat w (n + k) = -BitVec.ofNat w k := by
      rw [BitVec.ofNat_add, ← BitVec.sub_sub, BitVec.sub_self, BitVec.zero_sub]
    have hmod : k % 2 ^ w < 2 ^ w := Nat.mod_lt _ (by omega)
    rw [hsub, BitVec.toNat_neg, BitVec.toNat_ofNat, Nat.add_sub_cancel_left]
    obtain hzero | hpos := Nat.eq_zero_or_pos (k % 2 ^ w)
    · rw [hzero, Nat.sub_zero, Nat.mod_self]
      exact iff_of_true (Nat.zero_le N) (Or.inl rfl)
    · rw [Nat.mod_eq_of_lt (by omega)]
      omega

/-- What the first load finds: the number of pushes, at most `N` beyond the pops. -/
lemma write_eq_pushes {N w : ℕ} {α : Type*} {s : RingQueue w α} (hN : Sized N w)
    (h : (ring N w α).Reach (fun _ _ => True) s) :
    s.write = BitVec.ofNat w (Fifo.accepted s.history).length ∧
      (Fifo.accepted s.history).length ≤ s.base + N := by
  obtain ⟨q, hq⟩ := holds_of_reach hN h
  have hlength : (Fifo.accepted s.history).length = s.base + q.length := hq.run.length_eq
  have hcap := hq.run.length_le
  rw [hlength]
  exact ⟨hq.write, by omega⟩

/-- The pops only grow. -/
lemma base_le_of_step {N w : ℕ} {α : Type*} {s s' : RingQueue w α} {e : Step α}
    (h : (ring N w α).step s e = some s') : s.base ≤ s'.base := by
  have hsnoc : ∀ op, (Fifo.popped s.history).length ≤
      (Fifo.popped (s.history ++ [op])).length := by
    intro op
    rw [Fifo.popped_snoc, List.length_append]
    exact Nat.le_add_right _ _
  cases e with
  | produce a =>
      cases h
      rw [produce]
      split
      · exact le_rfl
      · split
        · exact hsnoc _
        · exact le_rfl
      · exact le_rfl
      · exact hsnoc _
  | consume =>
      cases h
      rw [consume]
      split
      · exact le_rfl
      · split
        · exact hsnoc _
        · exact le_rfl
      · exact le_rfl
      · exact hsnoc _

end RingQueue

namespace SizedQueue

variable {ι α : Type*} [DecidableEq ι] {N w : ℕ} {s s' : SizedQueue ι w α}

/-! ### What a call has loaded -/

/-- The ring is one of a run of its own, and a call has loaded the counter of as many pushes. -/
structure Loaded (N : ℕ) (s : SizedQueue ι w α) : Prop where
  reach : (ring N w α).Reach (fun _ _ => True) s.queue
  pushes : ∀ c v n, s.pc c = .loadRead v n → v = BitVec.ofNat w n ∧ n ≤ s.queue.base + N

/-- The step lemma for `Loaded`. -/
lemma step_loaded (hN : RingQueue.Sized N w) {e : Step ι α} (hs : Loaded N s)
    (h : (sizedQueue N w ι α).step s e = some s') : Loaded N s' := by
  cases e with
  | queue e =>
      obtain ⟨r, hr, rfl⟩ := Option.map_eq_some_iff.mp h
      refine ⟨.step hs.reach trivial hr, fun c v n hpc => ?_⟩
      obtain ⟨hv, hn⟩ := hs.pushes c v n hpc
      have hbase : s.queue.base ≤ r.base := RingQueue.base_le_of_step hr
      exact ⟨hv, hn.trans (Nat.add_le_add_right hbase N)⟩
  | size c =>
      cases h
      rw [size]
      split
      · refine ⟨hs.reach, fun d v n hpc => ?_⟩
        by_cases hd : d = c
        · subst hd
          simp only [Function.update_self] at hpc
          cases hpc
          exact RingQueue.write_eq_pushes hN hs.reach
        · simp only [Function.update_of_ne hd] at hpc
          exact hs.pushes d v n hpc
      · refine ⟨hs.reach, fun d v n hpc => ?_⟩
        by_cases hd : d = c
        · subst hd
          simp only [Function.update_self] at hpc
          cases hpc
        · simp only [Function.update_of_ne hd] at hpc
          exact hs.pushes d v n hpc

/-- The run lemma for `Loaded`. -/
lemma loaded_of_reach (hN : RingQueue.Sized N w) {C : SizedQueue ι w α → Step ι α → Prop}
    (h : (sizedQueue N w ι α).Reach C s) : Loaded N s := by
  refine h.invariant (Loaded N) ?_ fun s e s' _ hs _ hstep => step_loaded hN hs hstep
  rintro s rfl
  exact ⟨.init rfl, by simp⟩

/-- **The step lemma for the sizes**: a step keeps them in range exactly when the call that returns
was in time. -/
lemma step_sizesInRange_iff (hN : RingQueue.Sized N w) {e : Step ι α} (hs : Loaded N s)
    (h : (sizedQueue N w ι α).step s e = some s') :
    SizesInRange N s' ↔ SizesInRange N s ∧ s.InTime N e := by
  cases e with
  | queue e =>
      obtain ⟨r, -, rfl⟩ := Option.map_eq_some_iff.mp h
      exact (and_iff_left trivial).symm
  | size c =>
      cases h
      rw [size]
      split
      · next hpc =>
        have htime : s.InTime N (.size c) := by
          intro v n hload
          rw [hpc] at hload
          cases hload
        exact (and_iff_left htime).symm
      · next v n hpc =>
        obtain ⟨hv, hn⟩ := hs.pushes c v n hpc
        obtain ⟨q, hq⟩ := RingQueue.holds_of_reach hN hs.reach
        have hvalue : (v - s.queue.read).toNat ≤ N ↔ Behind N w s.queue n := by
          rw [hv, hq.read]
          exact hN.toNat_sub_le_iff hn
        have htime : s.InTime N (.size c) ↔ Behind N w s.queue n := by
          refine ⟨fun htime => htime v n hpc, fun hbehind v' n' hload => ?_⟩
          rw [hpc] at hload
          cases hload
          exact hbehind
        rw [htime, ← hvalue, SizesInRange, SizesInRange, List.forall_mem_cons, and_comm]

end SizedQueue

/-- **Every size is in range** if and only if every call was in time, along every run, for every `N`
and every width of the counters. -/
theorem sizes_in_range_iff {ι α : Type*} [DecidableEq ι] {N w : ℕ} (hN : RingQueue.Sized N w)
    {s : SizedQueue ι w α} (h : (sizedQueue N w ι α).Reach (fun _ _ => True) s) :
    SizesInRange N s ↔ (sizedQueue N w ι α).Reach (InTime N) s := by
  constructor
  · refine h.invariant (fun s => SizesInRange N s → (sizedQueue N w ι α).Reach (InTime N) s)
      (fun s hinit _ => .init hinit) ?_
    intro s e s' hs ih _ hstep hrange
    obtain ⟨hbefore, htime⟩ := (step_sizesInRange_iff hN (loaded_of_reach hN hs) hstep).mp hrange
    exact .step (ih hbefore) htime hstep
  · intro htime
    refine htime.invariant (SizesInRange N) ?_ ?_
    · rintro s rfl v hv
      cases hv
    · intro s e s' hs hrange htime hstep
      exact (step_sizesInRange_iff hN (loaded_of_reach hN hs) hstep).mpr ⟨hrange, htime⟩

namespace SizedQueue

/-- A frame is pushed, and popped. -/
def passes : List (Step ℕ ℕ) :=
  List.replicate 4 (.queue (.produce 7)) ++ List.replicate 4 (.queue .consume)

end SizedQueue

/-- A call that sees the frame, although it is popped before the call returns. -/
theorem size_in_range : ∃ s, (sizedQueue 2 64 ℕ ℕ).exec (fun _ _ => true)
      ⟨.new 64 ℕ, fun _ => .idle, []⟩
      (List.replicate 4 (.queue (.produce 7)) ++ [.size 0] ++ List.replicate 4 (.queue .consume) ++
        [.size 0]) = some s ∧ s.returned = [0] ∧
      (sizedQueue 2 64 ℕ ℕ).Reach (InTime 2) s := by
  have hrun : ((sizedQueue 2 64 ℕ ℕ).exec (fun _ _ => true) ⟨.new 64 ℕ, fun _ => .idle, []⟩
      (List.replicate 4 (.queue (.produce 7)) ++ [.size 0] ++ List.replicate 4 (.queue .consume) ++
        [.size 0])).map (fun s => s.returned) = some [0] := by decide
  obtain ⟨s, hs, hreturned⟩ := Option.map_eq_some_iff.mp hrun
  have hN : RingQueue.Sized 2 64 := ⟨⟨1, rfl⟩, by decide⟩
  have hreach : (sizedQueue 2 64 ℕ ℕ).Reach (fun _ _ => True) s :=
    .of_exec_check (fun _ _ _ => trivial)
      (show (sizedQueue 2 64 ℕ ℕ).init ⟨.new 64 ℕ, fun _ => .idle, []⟩ from rfl) hs
  have hrange : SizesInRange 2 s := by
    rw [SizesInRange, hreturned]
    simp
  exact ⟨s, hs, hreturned, (sizes_in_range_iff hN hreach).mp hrange⟩

/-- A frame is pushed and popped between the two loads. -/
theorem size_underflows :
    ¬ ∀ s : SizedQueue ℕ 64 ℕ, (sizedQueue 2 64 ℕ ℕ).Reach (fun _ _ => True) s →
      SizesInRange 2 s := by
  intro h
  have hrun : ((sizedQueue 2 64 ℕ ℕ).exec (fun _ _ => true) ⟨.new 64 ℕ, fun _ => .idle, []⟩
      ([.size 0] ++ passes ++ [.size 0])).map (fun s => s.returned) =
      some [BitVec.ofNat 64 (2 ^ 64 - 1)] := by decide
  obtain ⟨s, hs, hreturned⟩ := Option.map_eq_some_iff.mp hrun
  have hreach : (sizedQueue 2 64 ℕ ℕ).Reach (fun _ _ => True) s :=
    .of_exec_check (fun _ _ _ => trivial)
      (show (sizedQueue 2 64 ℕ ℕ).init ⟨.new 64 ℕ, fun _ => .idle, []⟩ from rfl) hs
  have hrange := h s hreach (BitVec.ofNat 64 (2 ^ 64 - 1)) (by simp [hreturned])
  exact absurd hrange (by decide)

end RasPiZeroCam
