import RasPiZeroCam.Camera.FrameBuffer
import RasPiZeroCam.Transition.Fifo
import RasPiZeroCam.Transition.System

/-!
`FrameQueue<N>` down to its slots and counters, for one producer and one consumer.

* `RingQueue`: the array, the two counters of `w` bits, and where `push` and `pop` are.
* `RingQueue.produce`, `RingQueue.consume`: their steps, each with one access to what they share.
* `RingQueue.Holds`: the queue that the slots and counters stand for.
* `ring_refines_fifo`: the calls behave as those of a bounded queue, through wrap-around, and the
  two sides never touch one slot.
* `push_eq_some_iff`, `pop_eq_some_iff`: the list queue of `CameraManager` is that bounded queue.
-/

namespace RasPiZeroCam

open Transition

/-- Where `push(frame)` is, with the value it loaded from `write_`. -/
inductive ProducerPc (w : ℕ) (α : Type*) where
  | idle
  | loadRead (frame : α) (v : BitVec w)  -- `w - read_.load() == N`
  | store (frame : α) (v : BitVec w)     -- `slots_[w & (N - 1)] = std::move(frame)`
  | publish (frame : α) (v : BitVec w)   -- `write_.store(w + 1)`
  deriving DecidableEq

/-- Where `pop()` is, with the value it loaded from `read_`. -/
inductive ConsumerPc (w : ℕ) (α : Type*) where
  | idle
  | loadWrite (r : BitVec w)                     -- `r == write_.load()`
  | move (r : BitVec w)                          -- `std::move(slots_[r & (N - 1)])`
  | advance (r : BitVec w) (frame : Option α)    -- `read_.store(r + 1)`
  deriving DecidableEq

/-- A `FrameQueue<N>` with counters of `w` bits; a slot that was moved out of is null. -/
structure RingQueue (w : ℕ) (α : Type*) where
  slots : ℕ → Option α
  write : BitVec w
  read : BitVec w
  producer : ProducerPc w α
  consumer : ConsumerPc w α
  history : List (Fifo.Op α)  -- the calls that have taken effect, with what they return

namespace RingQueue

/-- A step of the producer, which pushes `frame` when it is idle, or of the consumer. -/
inductive Step (α : Type*) where
  | produce (frame : α)
  | consume

variable {w : ℕ} {α : Type*}

/-- `FrameQueue<N>()`. -/
def new (w : ℕ) (α : Type*) : RingQueue w α where
  slots _ := none
  write := 0
  read := 0
  producer := .idle
  consumer := .idle
  history := []

/-- `v & (N - 1)`. -/
def slot (N : ℕ) (v : BitVec w) : ℕ := (v &&& BitVec.ofNat w (N - 1)).toNat

/-- A step of `push`. -/
def produce (N : ℕ) (frame : α) (s : RingQueue w α) : RingQueue w α :=
  match s.producer with
  | .idle => { s with producer := .loadRead frame s.write }
  | .loadRead a v =>
      if v - s.read = BitVec.ofNat w N then
        { s with
          producer := .idle
          history := s.history ++ [.push a false] }
      else { s with producer := .store a v }
  | .store a v =>
      { s with
        slots := Function.update s.slots (slot N v) (some a)
        producer := .publish a v }
  | .publish a v =>
      { s with
        write := v + 1
        producer := .idle
        history := s.history ++ [.push a true] }

/-- A step of `pop`. -/
def consume (N : ℕ) (s : RingQueue w α) : RingQueue w α :=
  match s.consumer with
  | .idle => { s with consumer := .loadWrite s.read }
  | .loadWrite r =>
      if r = s.write then
        { s with
          consumer := .idle
          history := s.history ++ [.pop none] }
      else { s with consumer := .move r }
  | .move r =>
      { s with
        slots := Function.update s.slots (slot N r) none
        consumer := .advance r (s.slots (slot N r)) }
  | .advance r frame =>
      { s with
        read := r + 1
        consumer := .idle
        history := s.history ++ [.pop frame] }

/-- The slot the producer is about to store into. -/
def stores (N : ℕ) (s : RingQueue w α) : Option ℕ :=
  match s.producer with
  | .store _ v => some (slot N v)
  | _ => none

/-- The slot the consumer is about to move out of. -/
def moves (N : ℕ) (s : RingQueue w α) : Option ℕ :=
  match s.consumer with
  | .move r => some (slot N r)
  | _ => none

/-- The number of frames whose push has advanced `write_` and whose pop has not advanced `read_`. -/
def unread (s : RingQueue w α) : ℕ :=
  (Fifo.accepted s.history).length - (Fifo.popped s.history).length

end RingQueue

/-- The interleavings of one producer and one consumer. -/
def ring (N w : ℕ) (α : Type*) : System (RingQueue w α) (RingQueue.Step α) where
  init s := s = .new w α
  step s
    | .produce frame => some (s.produce N frame)
    | .consume => some (s.consume N)

/-- **A bounded queue of capacity `N`**: the calls that have taken effect are a history of one, what
was popped is a prefix of what was accepted, `push` and `pop` fail exactly when the queue is full or
empty at their read of the other side's counter, and no slot is touched by both sides. -/
structure RefinesFifo {w : ℕ} {α : Type*} (N : ℕ) (s : RingQueue w α) : Prop where
  fifo : ∃ q, Fifo.Run N s.history q
  popped : Fifo.popped s.history <+: Fifo.accepted s.history
  full : ∀ a v b, s.producer = .loadRead a v →
    ((s.produce N b).history = s.history ++ [.push a false] ↔ s.unread = N)
  empty : ∀ r, s.consumer = .loadWrite r →
    ((s.consume N).history = s.history ++ [.pop none] ↔ s.unread = 0)
  bounds : ∀ i, s.stores N = some i ∨ s.moves N = some i → i < N
  apart : ∀ i, ¬ (s.stores N = some i ∧ s.moves N = some i)

namespace RingQueue

/-! ### Counters and slots -/

/-- `N` is a power of two, as the assertion of `FrameQueue` has it, and counters of `w` bits can
count to `N`. -/
structure Sized (N w : ℕ) : Prop where
  power : ∃ m, N = 2 ^ m
  lt : N < 2 ^ w

variable {N R i j : ℕ} {s : RingQueue w α} {q : List α}

/-- Offsets less than `N` apart have different slots. -/
lemma offset_unique (h : (R + i) % N = (R + j) % N) (hi : i < j + N) (hj : j < i + N) : i = j := by
  have hcong : i ≡ j [MOD N] := Nat.ModEq.add_left_cancel' R h
  obtain hle | hle := Nat.le_total i j
  · have hdvd : N ∣ j - i := (Nat.modEq_iff_dvd' hle).mp hcong
    have hzero : j - i = 0 := Nat.eq_zero_of_dvd_of_lt hdvd (by omega)
    omega
  · have hdvd : N ∣ i - j := (Nat.modEq_iff_dvd' hle).mp hcong.symm
    have hzero : i - j = 0 := Nat.eq_zero_of_dvd_of_lt hdvd (by omega)
    omega

/-- The mask takes a counter modulo `N`, also when it has wrapped. -/
lemma Sized.slot_eq (h : Sized N w) (k : ℕ) : slot N (BitVec.ofNat w k) = k % N := by
  obtain ⟨m, rfl⟩ := h.power
  have hm : m < w := (Nat.pow_lt_pow_iff_right (by decide)).mp h.lt
  have hmask : (2 ^ m - 1) % 2 ^ w = 2 ^ m - 1 :=
    Nat.mod_eq_of_lt (lt_of_le_of_lt (Nat.sub_le _ 1) h.lt)
  rw [slot, BitVec.toNat_and, BitVec.toNat_ofNat, BitVec.toNat_ofNat, hmask,
    Nat.and_two_pow_sub_one_eq_mod, Nat.mod_mod_of_dvd _ (pow_dvd_pow 2 hm.le)]

lemma Sized.pos (h : Sized N w) : 0 < N := by
  obtain ⟨m, rfl⟩ := h.power
  positivity

/-- Numbers up to `N` are told apart by `w` bits. -/
lemma Sized.ofNat_inj (h : Sized N w) (hi : i ≤ N) (hj : j ≤ N) :
    BitVec.ofNat w i = BitVec.ofNat w j ↔ i = j := by
  refine ⟨fun heq => ?_, fun heq => heq ▸ rfl⟩
  have hnat := congrArg BitVec.toNat heq
  rwa [BitVec.toNat_ofNat, BitVec.toNat_ofNat, Nat.mod_eq_of_lt (hi.trans_lt h.lt),
    Nat.mod_eq_of_lt (hj.trans_lt h.lt)] at hnat

/-- The test for a full queue. -/
lemma Sized.full_iff (h : Sized N w) (hi : i ≤ N) :
    BitVec.ofNat w (R + i) - BitVec.ofNat w R = BitVec.ofNat w N ↔ i = N := by
  have hsub : BitVec.ofNat w (R + i) - BitVec.ofNat w R = BitVec.ofNat w i := by
    rw [BitVec.ofNat_add, BitVec.add_comm, BitVec.add_sub_cancel]
  rw [hsub, h.ofNat_inj hi le_rfl]

/-- The test for an empty queue. -/
lemma Sized.empty_iff (h : Sized N w) (hi : i ≤ N) :
    BitVec.ofNat w R = BitVec.ofNat w (R + i) ↔ i = 0 := by
  rw [BitVec.ofNat_add, BitVec.self_eq_add_right]
  exact h.ofNat_inj hi (Nat.zero_le N)

/-! ### The queue that the slots and counters stand for -/

/-- The number of pops that have advanced `read_`. -/
def base (s : RingQueue w α) : ℕ := (Fifo.popped s.history).length

/-- 1 while the consumer has moved a frame out and `read_` has not been advanced. -/
def taken (s : RingQueue w α) : ℕ :=
  match s.consumer with
  | .advance _ _ => 1
  | _ => 0

/-- 1 while the producer has stored a frame and `write_` has not been advanced. -/
def placed (s : RingQueue w α) : ℕ :=
  match s.producer with
  | .publish _ _ => 1
  | _ => 0

/-- What the producer's place says: the value it loaded is `write_`, past its test there is a free
slot, and then the frame is in it. -/
def ProducerA (N : ℕ) (s : RingQueue w α) (q : List α) : Prop :=
  match s.producer with
  | .idle => True
  | .loadRead _ v => v = s.write
  | .store _ v => v = s.write ∧ q.length < N
  | .publish a v => v = s.write ∧ q.length < N ∧ s.slots ((s.base + q.length) % N) = some a

/-- What the consumer's place says. -/
def ConsumerA (s : RingQueue w α) (q : List α) : Prop :=
  match s.consumer with
  | .idle => True
  | .loadWrite r => r = s.read
  | .move r => r = s.read ∧ q ≠ []
  | .advance r frame => r = s.read ∧ q ≠ [] ∧ frame = q.head?

/-- The ring stands for the queue `q`: the counters are those of `q`, and its frames are in the
slots from `read_` to `write_`, all others being null. -/
structure Holds (N : ℕ) (s : RingQueue w α) (q : List α) : Prop where
  run : Fifo.Run N s.history q
  read : s.read = BitVec.ofNat w s.base
  write : s.write = BitVec.ofNat w (s.base + q.length)
  producer : s.ProducerA N q
  consumer : s.ConsumerA q
  live : ∀ i, s.taken ≤ i → i < q.length → s.slots ((s.base + i) % N) = q[i]?
  vacant : ∀ i, q.length + s.placed ≤ i → i < N + s.taken → s.slots ((s.base + i) % N) = none

/-- A pop under way has found a frame. -/
lemma Holds.taken_le (h : Holds N s q) : s.taken ≤ q.length := by
  have hc := h.consumer
  rw [ConsumerA] at hc
  rw [taken]
  cases hpc : s.consumer with
  | advance r frame =>
      rw [hpc] at hc
      exact List.length_pos_iff.mpr hc.2.1
  | _ => exact Nat.zero_le _

lemma holds_new : Holds N (.new w α) [] where
  run := .nil
  read := rfl
  write := rfl
  producer := trivial
  consumer := trivial
  live i _ hi := absurd hi (Nat.not_lt_zero i)
  vacant _ _ _ := rfl

/-- The store of a push. -/
lemma Holds.store (hN : Sized N w) (h : Holds N s q) {a : α} {v : BitVec w}
    (hpc : s.producer = .store a v) (b : α) : Holds N (s.produce N b) q := by
  have hp := h.producer
  rw [ProducerA, hpc] at hp
  obtain ⟨rfl, hlt⟩ := hp
  have hslot : slot N s.write = (s.base + q.length) % N := by rw [h.write, hN.slot_eq]
  have htaken := h.taken_le
  have hone : s.taken ≤ 1 := by
    rw [taken]
    split <;> simp
  have hstep : s.produce N b =
      { s with
        slots := Function.update s.slots ((s.base + q.length) % N) (some a)
        producer := .publish a s.write } := by
    rw [produce, hpc]
    dsimp only
    rw [hslot]
  rw [hstep]
  refine ⟨h.run, h.read, h.write, ⟨rfl, hlt, Function.update_self ..⟩, h.consumer, ?_, ?_⟩
  · intro i hi hilt
    have hne : (s.base + i) % N ≠ (s.base + q.length) % N := fun heq =>
      hilt.ne (offset_unique heq (by omega) (by omega))
    exact (Function.update_of_ne hne ..).trans (h.live i hi hilt)
  · intro i hi hilt
    have hle : q.length + 1 ≤ i := hi
    have hlt' : i < N + s.taken := hilt
    have hne : (s.base + i) % N ≠ (s.base + q.length) % N := by
      intro heq
      have hsame := offset_unique heq (by omega) (by omega)
      omega
    have hfree : s.placed = 0 := by rw [placed, hpc]
    exact (Function.update_of_ne hne ..).trans (h.vacant i (by omega) hlt')

/-- The end of a push. -/
lemma Holds.publish (h : Holds N s q) {a : α} {v : BitVec w} (hpc : s.producer = .publish a v)
    (b : α) : Holds N (s.produce N b) (q ++ [a]) := by
  have hp := h.producer
  rw [ProducerA, hpc] at hp
  obtain ⟨rfl, hlt, hslot⟩ := hp
  have hstep : s.produce N b =
      { s with
        write := s.write + 1
        producer := .idle
        history := s.history ++ [.push a true] } := by
    rw [produce, hpc]
  have hbase : (s.produce N b).base = s.base := by
    rw [hstep, base, base, Fifo.popped_snoc]
    exact congrArg List.length (List.append_nil _)
  have hplaced : s.placed = 1 := by rw [placed, hpc]
  have hlen : (q ++ [a]).length = q.length + 1 := List.length_append
  refine ⟨?_, ?_, ?_, ?_, ?_, ?_, ?_⟩
  · rw [hstep]
    exact .snoc h.run (.push hlt)
  · rw [hbase, hstep]
    exact h.read
  · rw [hbase, hstep, hlen, ← Nat.add_assoc, BitVec.ofNat_add, ← h.write]
    rfl
  · rw [hstep]
    trivial
  · have hc := h.consumer
    rw [hstep]
    revert hc
    rw [ConsumerA, ConsumerA]
    cases s.consumer with
    | move r => exact fun hc => ⟨hc.1, by simp⟩
    | advance r frame =>
        rintro ⟨hr, hne, hf⟩
        refine ⟨hr, by simp, ?_⟩
        rw [hf, List.head?_append_of_ne_nil q hne]
    | _ => exact id
  · intro i hi hilt
    rw [hbase, hstep]
    rw [hstep] at hi
    obtain hlt' | heq := Nat.lt_or_eq_of_le (Nat.le_of_lt_succ (hlen ▸ hilt))
    · rw [List.getElem?_append_left hlt']
      exact h.live i hi hlt'
    · rw [heq, List.getElem?_concat_length]
      exact hslot
  · intro i hi hilt
    rw [hbase, hstep]
    rw [hstep] at hi hilt
    refine h.vacant i ?_ hilt
    rw [hplaced, ← hlen]
    exact hi

/-- The move of a pop. -/
lemma Holds.move (hN : Sized N w) (h : Holds N s q) {r : BitVec w}
    (hpc : s.consumer = .move r) : Holds N (s.consume N) q := by
  have hc := h.consumer
  rw [ConsumerA, hpc] at hc
  obtain ⟨rfl, hne⟩ := hc
  have hpos : 0 < q.length := List.length_pos_iff.mpr hne
  have hcap : q.length ≤ N := h.run.length_le
  have hslot : slot N s.read = (s.base + 0) % N := by rw [h.read, hN.slot_eq, Nat.add_zero]
  have htaken : s.taken = 0 := by rw [taken, hpc]
  have hfirst : s.slots ((s.base + 0) % N) = q.head? := by
    rw [h.live 0 (by omega) hpos, List.head?_eq_getElem?]
  have hstep : s.consume N =
      { s with
        slots := Function.update s.slots ((s.base + 0) % N) none
        consumer := .advance s.read q.head? } := by
    rw [consume, hpc]
    dsimp only
    rw [hslot, hfirst]
  rw [hstep]
  refine ⟨h.run, h.read, h.write, ?_, ⟨rfl, hne, rfl⟩, ?_, ?_⟩
  · have hp := h.producer
    revert hp
    rw [ProducerA, ProducerA]
    cases s.producer with
    | publish a v =>
        rintro ⟨hv, hlt, hstored⟩
        have hother : (s.base + q.length) % N ≠ (s.base + 0) % N := by
          intro heq
          have hsame := offset_unique heq (by omega) (by omega)
          omega
        exact ⟨hv, hlt, (Function.update_of_ne hother ..).trans hstored⟩
    | _ => exact id
  · intro i hi hilt
    have hle : 1 ≤ i := hi
    have hother : (s.base + i) % N ≠ (s.base + 0) % N := by
      intro heq
      have hsame := offset_unique heq (by omega) (by omega)
      omega
    exact (Function.update_of_ne hother ..).trans (h.live i (by omega) hilt)
  · intro i hi hilt
    have hilt' : i < N + 1 := hilt
    by_cases heq : (s.base + i) % N = (s.base + 0) % N
    · exact (congrArg _ heq).trans (Function.update_self ..)
    · have hi' : i ≠ N := by
        rintro rfl
        exact heq (by rw [Nat.add_mod_right, Nat.add_zero])
      exact (Function.update_of_ne heq ..).trans (h.vacant i hi (by omega))

/-- The end of a pop. -/
lemma Holds.advance (h : Holds N s q) {r : BitVec w} {frame : Option α}
    (hpc : s.consumer = .advance r frame) : Holds N (s.consume N) q.tail := by
  have hc := h.consumer
  rw [ConsumerA, hpc] at hc
  obtain ⟨rfl, hne, rfl⟩ := hc
  obtain ⟨a, q, rfl⟩ := List.exists_cons_of_ne_nil hne
  have htaken : s.taken = 1 := by rw [taken, hpc]
  have hstep : s.consume N =
      { s with
        read := s.read + 1
        consumer := .idle
        history := s.history ++ [.pop (some a)] } := by
    rw [consume, hpc]
    rfl
  have hbase : (s.consume N).base = s.base + 1 := by
    rw [hstep, base, base, Fifo.popped_snoc]
    exact List.length_append
  have hoffset : ∀ i, s.base + 1 + i = s.base + (i + 1) := fun i => by omega
  refine ⟨?_, ?_, ?_, ?_, ?_, ?_, ?_⟩
  · rw [hstep]
    exact .snoc h.run .pop
  · rw [hbase, hstep, BitVec.ofNat_add, ← h.read]
    rfl
  · rw [hbase, hstep, hoffset]
    exact h.write
  · have hp := h.producer
    revert hp
    rw [ProducerA, ProducerA, hbase, hstep, hoffset]
    cases s.producer with
    | store b v => exact fun hp => ⟨hp.1, (Nat.lt_succ_self _).trans hp.2⟩
    | publish b v => exact fun hp => ⟨hp.1, (Nat.lt_succ_self _).trans hp.2.1, hp.2.2⟩
    | _ => exact id
  · rw [hstep]
    trivial
  · intro i _ hilt
    rw [hbase, hstep, hoffset, List.tail_cons, h.live (i + 1) (by omega) (Nat.succ_lt_succ hilt),
      List.getElem?_cons_succ]
  · intro i hi hilt
    rw [hbase, hstep, hoffset]
    rw [hstep] at hi hilt
    have hle : q.length + s.placed ≤ i := hi
    have hlt : i < N + 0 := hilt
    refine h.vacant (i + 1) ?_ (by omega)
    rw [List.length_cons]
    omega

/-- A step of the producer. -/
lemma Holds.produce (hN : Sized N w) (h : Holds N s q) (b : α) :
    ∃ q', Holds N (s.produce N b) q' := by
  have hp := h.producer
  rw [ProducerA] at hp
  cases hpc : s.producer with
  | idle =>
      refine ⟨q, ?_⟩
      have hplaced : s.placed = 0 := by rw [placed, hpc]
      rw [RingQueue.produce, hpc]
      exact ⟨h.run, h.read, h.write, rfl, h.consumer, h.live, fun i hi => h.vacant i (hplaced ▸ hi)⟩
  | loadRead a v =>
      rw [hpc] at hp
      have hplaced : s.placed = 0 := by rw [placed, hpc]
      have hcap : q.length ≤ N := h.run.length_le
      have hfull : v - s.read = BitVec.ofNat w N ↔ q.length = N := by
        rw [hp, h.write, h.read, hN.full_iff hcap]
      refine ⟨q, ?_⟩
      rw [RingQueue.produce, hpc]
      dsimp only
      split_ifs with htest
      · have hbase : base { s with
            producer := .idle
            history := s.history ++ [.push a false] } = s.base := by
          rw [base, base, Fifo.popped_snoc]
          exact congrArg List.length (List.append_nil _)
        refine ⟨.snoc h.run (.full (hfull.mp htest)), hbase ▸ h.read, hbase ▸ h.write, trivial,
          h.consumer, ?_, fun i hi => ?_⟩
        · rw [hbase]
          exact h.live
        · rw [hbase]
          exact h.vacant i (hplaced ▸ hi)
      · exact ⟨h.run, h.read, h.write, ⟨hp, lt_of_le_of_ne hcap (mt hfull.mpr htest)⟩, h.consumer,
          h.live, fun i hi => h.vacant i (hplaced ▸ hi)⟩
  | store a v => exact ⟨q, h.store hN hpc b⟩
  | publish a v => exact ⟨q ++ [a], h.publish hpc b⟩

/-- A step of the consumer. -/
lemma Holds.consume (hN : Sized N w) (h : Holds N s q) : ∃ q', Holds N (s.consume N) q' := by
  have hc := h.consumer
  rw [ConsumerA] at hc
  cases hpc : s.consumer with
  | idle =>
      refine ⟨q, ?_⟩
      have htaken : s.taken = 0 := by rw [taken, hpc]
      rw [RingQueue.consume, hpc]
      exact ⟨h.run, h.read, h.write, h.producer, rfl, fun i hi => h.live i (htaken ▸ hi),
        fun i hi hilt => h.vacant i hi (htaken ▸ hilt)⟩
  | loadWrite r =>
      rw [hpc] at hc
      have htaken : s.taken = 0 := by rw [taken, hpc]
      have hempty : r = s.write ↔ q.length = 0 := by
        rw [hc, h.write, h.read, hN.empty_iff h.run.length_le]
      refine ⟨q, ?_⟩
      rw [RingQueue.consume, hpc]
      dsimp only
      split_ifs with htest
      · obtain rfl : q = [] := List.length_eq_zero_iff.mp (hempty.mp htest)
        have hbase : base { s with
            consumer := .idle
            history := s.history ++ [.pop none] } = s.base := by
          rw [base, base, Fifo.popped_snoc]
          exact congrArg List.length (List.append_nil _)
        refine ⟨.snoc h.run .empty, hbase ▸ h.read, hbase ▸ h.write, ?_, trivial, ?_, ?_⟩
        · rw [ProducerA, hbase]
          exact h.producer
        · intro i _ hilt
          exact absurd hilt (Nat.not_lt_zero i)
        · rw [hbase]
          exact fun i hi hilt => h.vacant i hi (htaken ▸ hilt)
      · have hne : q ≠ [] := fun heq => htest (hempty.mpr (by rw [heq, List.length_nil]))
        exact ⟨h.run, h.read, h.write, h.producer, ⟨hc, hne⟩, fun i hi => h.live i (htaken ▸ hi),
          fun i hi hilt => h.vacant i hi (htaken ▸ hilt)⟩
  | move r => exact ⟨q, h.move hN hpc⟩
  | advance r frame => exact ⟨q.tail, h.advance hpc⟩

/-- The run lemma: at any moment the ring stands for some queue. -/
lemma holds_of_reach (hN : Sized N w) (h : (ring N w α).Reach (fun _ _ => True) s) :
    ∃ q, Holds N s q := by
  refine h.invariant (fun s => ∃ q, Holds N s q) ?_ ?_
  · rintro s rfl
    exact ⟨[], holds_new⟩
  · rintro s e s' _ ⟨q, hq⟩ _ hstep
    cases e with
    | produce b =>
        cases hstep
        exact hq.produce hN b
    | consume =>
        cases hstep
        exact hq.consume hN

lemma Holds.unread_eq (h : Holds N s q) : s.unread = q.length := by
  rw [unread, h.run.length_eq, Nat.add_sub_cancel_left]

lemma stores_eq_some (h : s.stores N = some i) :
    ∃ a v, s.producer = .store a v ∧ slot N v = i := by
  rw [stores] at h
  split at h
  · exact ⟨_, _, ‹_›, Option.some.inj h⟩
  · cases h

lemma moves_eq_some (h : s.moves N = some i) : ∃ r, s.consumer = .move r ∧ slot N r = i := by
  rw [moves] at h
  split at h
  · exact ⟨_, ‹_›, Option.some.inj h⟩
  · cases h

/-- The mask keeps every access inside the array. -/
lemma Sized.slot_lt (hN : Sized N w) (v : BitVec w) : slot N v < N := by
  have h := hN.slot_eq v.toNat
  rw [BitVec.ofNat_toNat, BitVec.setWidth_eq] at h
  exact h.trans_lt (Nat.mod_lt _ hN.pos)

/-- The free slot of a push is not the slot of a frame. -/
lemma Holds.apart (hN : Sized N w) (h : Holds N s q) (hstores : s.stores N = some i)
    (hmoves : s.moves N = some j) : i ≠ j := by
  obtain ⟨a, v, hpp, rfl⟩ := stores_eq_some hstores
  obtain ⟨r, hpc, rfl⟩ := moves_eq_some hmoves
  have hp := h.producer
  have hc := h.consumer
  rw [ProducerA, hpp] at hp
  rw [ConsumerA, hpc] at hc
  obtain ⟨rfl, hlt⟩ := hp
  obtain ⟨rfl, hne⟩ := hc
  have hpos : 0 < q.length := List.length_pos_iff.mpr hne
  have hwrite : slot N s.write = (s.base + q.length) % N := by rw [h.write, hN.slot_eq]
  have hread : slot N s.read = (s.base + 0) % N := by rw [h.read, hN.slot_eq, Nat.add_zero]
  rw [hwrite, hread]
  intro heq
  have hsame := offset_unique heq (by omega) (by omega)
  omega

end RingQueue

open RingQueue

variable {w N : ℕ} {α : Type*}

/-- **`FrameQueue<N>` refines a bounded queue of capacity `N`**, in every interleaving of one
producer and one consumer, of any length, for every `N` and every width of the counters. -/
theorem ring_refines_fifo (hN : Sized N w) {s : RingQueue w α}
    (h : (ring N w α).Reach (fun _ _ => True) s) : RefinesFifo N s := by
  obtain ⟨q, hq⟩ := holds_of_reach hN h
  have hcap : q.length ≤ N := hq.run.length_le
  have hsnoc : ∀ (l : List (Fifo.Op α)) (e : Fifo.Op α), l ≠ l ++ [e] := fun l e heq => by
    simpa using congrArg List.length heq
  refine ⟨⟨q, hq.run⟩, ⟨q, hq.run.conserves⟩, fun a v b hpc => ?_, fun r hpc => ?_, ?_, ?_⟩
  · have hp := hq.producer
    rw [ProducerA, hpc] at hp
    have htest : v - s.read = BitVec.ofNat w N ↔ s.unread = N := by
      rw [hp, hq.write, hq.read, hN.full_iff hcap, hq.unread_eq]
    rw [← htest, produce, hpc]
    dsimp only
    split_ifs with hfull
    · exact iff_of_true rfl hfull
    · exact iff_of_false (hsnoc _ _) hfull
  · have hc := hq.consumer
    rw [ConsumerA, hpc] at hc
    have htest : r = s.write ↔ s.unread = 0 := by
      rw [hc, hq.write, hq.read, hN.empty_iff hcap, hq.unread_eq]
    rw [← htest, consume, hpc]
    dsimp only
    split_ifs with hempty
    · exact iff_of_true rfl hempty
    · exact iff_of_false (hsnoc _ _) hempty
  · rintro i (hi | hi)
    · obtain ⟨a, v, -, rfl⟩ := stores_eq_some hi
      exact hN.slot_lt v
    · obtain ⟨r, -, rfl⟩ := moves_eq_some hi
      exact hN.slot_lt r
  · rintro i ⟨hstores, hmoves⟩
    exact hq.apart hN hstores hmoves rfl

/-- Five frames go through two slots, with counters of two bits that wrap; then the queue is filled
and a push fails. -/
theorem ring_wraps :
    ∃ s, (ring 2 2 ℕ).exec (fun _ _ => true) (.new 2 ℕ)
        ((List.range 5).flatMap (fun n =>
            List.replicate 4 (.produce n) ++ List.replicate 4 .consume) ++
          List.replicate 10 (.produce 5)) = some s ∧
      s.write = 3 ∧ Fifo.popped s.history = [0, 1, 2, 3, 4] ∧
      s.history.getLast? = some (.push 5 false) ∧ RefinesFifo 2 s := by
  have hrun : ((ring 2 2 ℕ).exec (fun _ _ => true) (.new 2 ℕ)
      ((List.range 5).flatMap (fun n =>
          List.replicate 4 (.produce n) ++ List.replicate 4 .consume) ++
        List.replicate 10 (.produce 5))).map
      (fun s => (s.write, Fifo.popped s.history, s.history.getLast?)) =
      some (3, [0, 1, 2, 3, 4], some (.push 5 false)) := by decide
  obtain ⟨s, hs, hend⟩ := Option.map_eq_some_iff.mp hrun
  simp only [Prod.mk.injEq] at hend
  exact ⟨s, hs, hend.1, hend.2.1, hend.2.2, ring_refines_fifo ⟨⟨1, rfl⟩, by decide⟩
    (.of_exec_check (fun _ _ _ => trivial) (show (ring 2 2 ℕ).init (.new 2 ℕ) from rfl) hs)⟩

/-! ### The queue of `CameraManager` -/

/-- `push` of the list queue is that of the bounded queue. -/
lemma push_eq_some_iff {n : ℕ} {f : FramePtr} {q q' : FrameQueue} (hq : q.length ≤ n) :
    FrameQueue.push n f q = some q' ↔ Fifo.Step n q (.push f true) q' := by
  constructor
  · intro h
    obtain rfl := FrameQueue.eq_of_push h
    rw [FrameQueue.push] at h
    split_ifs at h with hfull
    exact .push (lt_of_le_of_ne hq hfull)
  · rintro (hlt | _)
    exact if_neg hlt.ne

/-- And so is its `pop`. -/
lemma pop_eq_some_iff {n : ℕ} {f : FramePtr} {q q' : FrameQueue} :
    q.pop = some (f, q') ↔ Fifo.Step n q (.pop (some f)) q' := by
  constructor
  · intro h
    obtain rfl := FrameQueue.eq_of_pop h
    exact .pop
  · rintro (_ | _)
    rfl

end RasPiZeroCam
