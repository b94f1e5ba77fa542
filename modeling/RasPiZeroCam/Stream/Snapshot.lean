import RasPiZeroCam.Text
import RasPiZeroCam.Transition.Pool

/-!
`take_snapshot` of any number of clients, and the deliveries of the streaming thread.

* `Slot`: the path and the flag they share, where the delivery is, the files it has written, and
  the calls that have returned.
* `Snapshot.act`, `Snapshot.env`: `take_snapshot` and `on_jpeg_sample`, statement by statement.
* `Honest`: a call returned true if and only if its file was written while it ran.
* `snapshot_honest`: every call is honest along the runs in which calls do not overlap, deliveries
  write what they open, and a call gives up only before the delivery has written (`Undisturbed`).
* `unopened_file_reported`: a file that cannot be opened is reported as taken.
-/

namespace RasPiZeroCam

open Transition Pool

/-- Where `on_jpeg_sample` is; it holds the sample's bytes until it has written them. -/
inductive DeliveryPc where
  | idle
  | load (jpeg : Bytes)       -- `if (snapshot_pending_.load())`
  | lock (jpeg : Bytes)       -- `std::lock_guard lk(snapshot_mutex_)`
  | testPath (jpeg : Bytes)   -- `if (!snapshot_path_.empty())`
  | openFile (jpeg : Bytes)   -- `std::ofstream f(snapshot_path_, std::ios::binary)`
  | write (jpeg : Bytes)      -- `f.write(..)`
  | clearPath                 -- `snapshot_path_.clear()`
  | clearPending              -- `snapshot_pending_ = false`, and the mutex is given back
  deriving DecidableEq

/-- The delivery holds `snapshot_mutex_`. -/
def DeliveryPc.holds : DeliveryPc → Bool
  | .idle => false
  | .load _ => false
  | .lock _ => false
  | _ => true

/-- A file with all the bytes of a sample. -/
structure Photo where
  path : Bytes
  jpeg : Bytes
  deriving DecidableEq

/-- A call of `take_snapshot` that has returned, and what was written while it ran. -/
structure SnapshotCall where
  path : Bytes
  ret : Bool
  during : List Photo
  deriving DecidableEq

/-- The members the snapshots share, and the books. -/
structure Slot where
  running : Bool
  path : Bytes                -- `snapshot_path_`
  pending : Bool              -- `snapshot_pending_`
  delivery : DeliveryPc
  written : List Photo
  calls : List SnapshotCall

namespace Snapshot

/-- Where a client is in `take_snapshot(path)`; `since` is how many files had been written when
the call began. -/
inductive Pc where
  | idle
  | store (path : Bytes) (since : ℕ)       -- `snapshot_path_ = filepath` under the mutex
  | setPending (path : Bytes) (since : ℕ)  -- `snapshot_pending_ = true`
  | poll (path : Bytes) (since : ℕ)        -- `while (snapshot_pending_.load() && now < deadline)`
  | last (path : Bytes) (since : ℕ)        -- `if (snapshot_pending_.load())`
  | cancel (path : Bytes) (since : ℕ)      -- `snapshot_pending_ = false; return false`

/-- A client's choice: the path of its next call, and whether the deadline has passed. -/
structure Choice where
  path : Bytes
  timeUp : Bool

/-- What the streaming thread meets: a sample, and whether the file opens and takes all bytes. -/
inductive Env where
  | setRunning (b : Bool)
  | deliver (jpeg : Bytes) (opens writes : Bool)

/-- `take_snapshot` returns. -/
def ret (path : Bytes) (since : ℕ) (r : Bool) (s : Slot) : Slot :=
  { s with calls := s.calls ++ [⟨path, r, s.written.drop since⟩] }

/-- `take_snapshot(filepath)`. -/
def act (a : Choice) : Pc → Slot → Option (Slot × Pc)
  | .idle, s =>
      if s.running then some (s, .store a.path s.written.length)
      else some (ret a.path s.written.length false s, .idle)
  | .store p n, s => if s.delivery.holds then none else some ({ s with path := p }, .setPending p n)
  | .setPending p n, s => some ({ s with pending := true }, .poll p n)
  | .poll p n, s => some (s, if s.pending && !a.timeUp then .poll p n else .last p n)
  | .last p n, s => if s.pending then some (s, .cancel p n) else some (ret p n true s, .idle)
  | .cancel p n, s => some (ret p n false { s with pending := false }, .idle)

/-- `on_jpeg_sample`. -/
def deliver (jpeg : Bytes) (opens writes : Bool) (s : Slot) : Slot :=
  match s.delivery with
  | .idle => { s with delivery := .load jpeg }
  | .load j => { s with delivery := if s.pending then .lock j else .idle }
  | .lock j => { s with delivery := .testPath j }
  | .testPath j => { s with delivery := if s.path = [] then .clearPending else .openFile j }
  | .openFile j => { s with delivery := if opens then .write j else .clearPath }
  | .write j =>
      { s with
        written := if writes then s.written ++ [⟨s.path, j⟩] else s.written
        delivery := .clearPath }
  | .clearPath =>
      { s with
        path := []
        delivery := .clearPending }
  | .clearPending =>
      { s with
        pending := false
        delivery := .idle }

/-- What happens around the calls. -/
def env : Env → Slot → Option Slot
  | .setRunning b, s => some { s with running := b }
  | .deliver jpeg opens writes, s => some (deliver jpeg opens writes s)

/-- No snapshot has been asked for. -/
def quiet : Slot where
  running := true
  path := []
  pending := false
  delivery := .idle
  written := []
  calls := []

end Snapshot

/-- The clients and the streaming thread. -/
def snapshots : Pool Slot Snapshot.Pc Snapshot.Choice Snapshot.Env where
  init s := s = Snapshot.quiet
  start := .idle
  act := Snapshot.act
  env := Snapshot.env

namespace Snapshot

/-- A configuration: the slot, and where each client is. -/
abbrev State := Config ℕ Slot Pc

/-- A step of a client, or one around the clients. -/
abbrev Step := Event ℕ Choice Env

/-- **The result of a call says whether its file was written while it ran.** -/
def Honest (c : SnapshotCall) : Prop :=
  c.ret = true ↔ ∃ jpeg, ⟨c.path, jpeg⟩ ∈ c.during

/-- A call is past its test of `running_`. -/
def Active : Pc → Prop
  | .idle => False
  | _ => True

/-- The delivery has not seen the flag. -/
def Unseen : DeliveryPc → Prop
  | .idle => True
  | .load _ => True
  | _ => False

/-- The delivery has written the file, and not yet cleared the flag. -/
def Delivering : DeliveryPc → Prop
  | .clearPath => True
  | .clearPending => True
  | _ => False

/-- A call begins, with a path, while no other one runs and no delivery is under way; a delivery
opens its file and writes all of it; a call gives up only while the flag is set and the file has
not been written. -/
def Undisturbed (s : State) : Step → Prop
  | .run c a =>
      (s.pc c = .idle → s.shared.running = true →
        a.path ≠ [] ∧ Unseen s.shared.delivery ∧ ∀ d, ¬ Active (s.pc d)) ∧
      (∀ p n, s.pc c = .cancel p n →
        s.shared.pending = true ∧ ¬ Delivering s.shared.delivery)
  | .env (.deliver _ opens writes) => opens = true ∧ writes = true
  | .env (.setRunning _) => True

/-! ### The call that runs -/

/-- The call waits: nothing has been written since it began. -/
def Waiting (p : Bytes) (n : ℕ) (s : Slot) : Prop :=
  s.pending = true ∧ s.path = p ∧ ¬ Delivering s.delivery ∧ s.written.length = n

/-- The file has been written since the call began. -/
def Taken (p : Bytes) (n : ℕ) (s : Slot) : Prop :=
  ((s.pending = true ∧ Delivering s.delivery) ∨ (s.pending = false ∧ Unseen s.delivery)) ∧
    ∃ jpeg, ⟨p, jpeg⟩ ∈ s.written.drop n

/-- The assertion wherever the call is. -/
def CallA : Pc → Slot → Prop
  | .idle, _ => False
  | .store p n, s =>
      p ≠ [] ∧ s.pending = false ∧ Unseen s.delivery ∧ s.written.length = n
  | .setPending p n, s =>
      p ≠ [] ∧ s.path = p ∧ s.pending = false ∧ Unseen s.delivery ∧ s.written.length = n
  | .poll p n, s => p ≠ [] ∧ (Waiting p n s ∨ Taken p n s)
  | .last p n, s => p ≠ [] ∧ (Waiting p n s ∨ Taken p n s)
  | .cancel p n, s => p ≠ [] ∧ (Waiting p n s ∨ Taken p n s)

/-- The call that runs. -/
def callRegion : Region Slot Pc where
  In := Active
  A := CallA
  Q s := s.pending = false

/-- A delivery keeps a call waiting, or takes its snapshot. -/
lemma waiting_deliver {p jpeg : Bytes} {n : ℕ} {s : Slot} (hp : p ≠ []) (h : Waiting p n s) :
    Waiting p n (deliver jpeg true true s) ∨ Taken p n (deliver jpeg true true s) := by
  obtain ⟨hpend, hpath, hnot, hlen⟩ := h
  cases hd : s.delivery with
  | idle => exact Or.inl ⟨by simp [deliver, hd, hpend], by simp [deliver, hd, hpath],
      by simp [deliver, hd, Delivering], by simp [deliver, hd, hlen]⟩
  | load j => exact Or.inl ⟨by simp [deliver, hd, hpend], by simp [deliver, hd, hpath],
      by simp [deliver, hd, hpend, Delivering], by simp [deliver, hd, hlen]⟩
  | lock j => exact Or.inl ⟨by simp [deliver, hd, hpend], by simp [deliver, hd, hpath],
      by simp [deliver, hd, Delivering], by simp [deliver, hd, hlen]⟩
  | testPath j => exact Or.inl ⟨by simp [deliver, hd, hpend], by simp [deliver, hd, hpath],
      by simp [deliver, hd, hpath, hp, Delivering], by simp [deliver, hd, hlen]⟩
  | openFile j => exact Or.inl ⟨by simp [deliver, hd, hpend], by simp [deliver, hd, hpath],
      by simp [deliver, hd, Delivering], by simp [deliver, hd, hlen]⟩
  | write j =>
      refine Or.inr ⟨Or.inl ⟨by simp [deliver, hd, hpend], by simp [deliver, hd, Delivering]⟩, j,
        ?_⟩
      simp [deliver, hd, hpath, ← hlen]
  | clearPath =>
      rw [hd] at hnot
      exact absurd trivial hnot
  | clearPending =>
      rw [hd] at hnot
      exact absurd trivial hnot

/-- Once taken, the snapshot stays taken. -/
lemma taken_deliver {p jpeg : Bytes} {n : ℕ} {opens writes : Bool} {s : Slot}
    (h : Taken p n s) : Taken p n (deliver jpeg opens writes s) := by
  obtain ⟨hphase, j, hj⟩ := h
  cases hd : s.delivery <;> rw [hd] at hphase <;> simp only [Delivering, Unseen, and_false,
    and_true, or_false, false_or] at hphase
  case idle => exact ⟨Or.inr ⟨by simp [deliver, hd, hphase], by simp [deliver, hd, Unseen]⟩, j,
    by simpa [deliver, hd] using hj⟩
  case load => exact ⟨Or.inr ⟨by simp [deliver, hd, hphase],
    by simp [deliver, hd, hphase, Unseen]⟩, j, by simpa [deliver, hd] using hj⟩
  case clearPath => exact ⟨Or.inl ⟨by simp [deliver, hd, hphase],
    by simp [deliver, hd, Delivering]⟩, j, by simpa [deliver, hd] using hj⟩
  case clearPending => exact ⟨Or.inr ⟨by simp [deliver, hd], by simp [deliver, hd, Unseen]⟩, j,
    by simpa [deliver, hd] using hj⟩

/-- A delivery that has not seen the flag does not see it while it is clear. -/
lemma unseen_deliver {jpeg : Bytes} {opens writes : Bool} {s : Slot} (hs : Unseen s.delivery)
    (hpend : s.pending = false) :
    Unseen (deliver jpeg opens writes s).delivery ∧
      (deliver jpeg opens writes s).pending = false ∧
      (deliver jpeg opens writes s).path = s.path ∧
      (deliver jpeg opens writes s).written = s.written := by
  cases hd : s.delivery <;> rw [hd] at hs <;> simp [Unseen] at hs <;>
    simp [deliver, hd, hpend, Unseen]

lemma pending_deliver {jpeg : Bytes} {opens writes : Bool} {s : Slot} (hpend : s.pending = false) :
    (deliver jpeg opens writes s).pending = false := by
  cases hd : s.delivery <;> simp [deliver, hd, hpend]

lemma callA_deliver {jpeg : Bytes} {q : Pc} {s : Slot} (hA : CallA q s) :
    CallA q (deliver jpeg true true s) := by
  have hwait : ∀ {p n}, p ≠ [] ∧ (Waiting p n s ∨ Taken p n s) →
      p ≠ [] ∧ (Waiting p n (deliver jpeg true true s) ∨ Taken p n (deliver jpeg true true s)) := by
    rintro p n ⟨hp, hw | ht⟩
    · exact ⟨hp, waiting_deliver hp hw⟩
    · exact ⟨hp, Or.inr (taken_deliver ht)⟩
  cases q with
  | idle => exact absurd hA id
  | store p n =>
      obtain ⟨hp, hpend, hunseen, hlen⟩ := hA
      obtain ⟨h₁, h₂, -, h₄⟩ := unseen_deliver hunseen hpend
      exact ⟨hp, h₂, h₁, by rw [h₄, hlen]⟩
  | setPending p n =>
      obtain ⟨hp, hpath, hpend, hunseen, hlen⟩ := hA
      obtain ⟨h₁, h₂, h₃, h₄⟩ := unseen_deliver hunseen hpend
      exact ⟨hp, h₃.trans hpath, h₂, h₁, by rw [h₄, hlen]⟩
  | poll p n => exact hwait hA
  | last p n => exact hwait hA
  | cancel p n => exact hwait hA

/-- A step of a call that runs. -/
lemma callA_act {a : Choice} {p q : Pc} {s t : Slot} (hA : CallA p s)
    (h : act a p s = some (t, q)) : (Active q → CallA q t) ∧ (¬ Active q → t.pending = false) := by
  cases p with
  | idle => exact absurd hA id
  | store p n =>
      obtain ⟨hp, hpend, hunseen, hlen⟩ := hA
      rw [act] at h
      split_ifs at h
      cases h
      exact ⟨fun _ => ⟨hp, rfl, hpend, hunseen, hlen⟩, fun hq => absurd trivial hq⟩
  | setPending p n =>
      obtain ⟨hp, hpath, hpend, hunseen, hlen⟩ := hA
      cases h
      refine ⟨fun _ => ⟨hp, Or.inl ⟨rfl, hpath, ?_, hlen⟩⟩, fun hq => absurd trivial hq⟩
      cases hd : s.delivery <;> rw [hd] at hunseen <;> simp [Unseen, Delivering] at hunseen ⊢
  | poll p n =>
      cases h
      split_ifs
      · exact ⟨fun _ => hA, fun hq => absurd trivial hq⟩
      · exact ⟨fun _ => hA, fun hq => absurd trivial hq⟩
  | last p n =>
      rw [act] at h
      split_ifs at h with hpend <;> cases h
      · exact ⟨fun _ => hA, fun hq => absurd trivial hq⟩
      · exact ⟨fun hq => absurd hq id, fun _ => by simpa [ret] using hpend⟩
  | cancel p n =>
      cases h
      exact ⟨fun hq => absurd hq id, fun _ => rfl⟩

lemma callRegion_guarded : callRegion.Guarded snapshots ℕ Undisturbed where
  init := by
    rintro s rfl
    rfl
  start := id
  enter := by
    intro s c a t q _ hC _ hact hout hin
    have hpc : s.pc c = .idle := by
      cases hp : s.pc c with
      | idle => rfl
      | _ =>
          rw [hp] at hout
          exact absurd trivial hout
    rw [hpc] at hact
    simp only [snapshots, act] at hact
    split_ifs at hact with hrun <;> cases hact
    · obtain ⟨hpath, hunseen, hnone⟩ := hC.1 hpc hrun
      exact ⟨hnone, fun hQ => ⟨hpath, hQ, hunseen, rfl⟩⟩
    · exact absurd hin id
  within := by
    intro s c a t q _ _ hact _ hA
    exact callA_act hA hact
  outside := by
    intro s c a t q _ _ hact hout hout'
    have hpc : s.pc c = .idle := by
      cases hp : s.pc c with
      | idle => rfl
      | _ =>
          rw [hp] at hout
          exact absurd trivial hout
    rw [hpc] at hact
    simp only [snapshots, act] at hact
    split_ifs at hact <;> cases hact
    · exact absurd trivial hout'
    · refine ⟨id, fun p _ hA => ?_⟩
      cases p <;> exact hA
  env := by
    intro s e t _ hC henv
    cases e with
    | setRunning b =>
        cases henv
        refine ⟨id, fun p _ hA => ?_⟩
        cases p <;> exact hA
    | deliver jpeg opens writes =>
        obtain ⟨rfl, rfl⟩ := hC
        cases henv
        exact ⟨fun hQ => pending_deliver hQ, fun p _ hA => callA_deliver hA⟩

/-- A call that returns now is honest. -/
lemma honest_ret {a : Choice} {p q : Pc} {s t : Slot} (hA : Active p → CallA p s)
    (hcancel : ∀ path n, p = .cancel path n → s.pending = true ∧ ¬ Delivering s.delivery)
    (hcalls : ∀ c ∈ s.calls, Honest c) (h : act a p s = some (t, q)) :
    ∀ c ∈ t.calls, Honest c := by
  have hret : ∀ {path : Bytes} {n : ℕ} {r : Bool} {v : Slot}, v.calls = s.calls →
      Honest ⟨path, r, v.written.drop n⟩ → ∀ c ∈ (ret path n r v).calls, Honest c := by
    intro path n r v hv hnew c hc
    simp only [ret, hv, List.mem_append, List.mem_singleton] at hc
    obtain hc | rfl := hc
    · exact hcalls c hc
    · exact hnew
  cases p with
  | idle =>
      rw [act] at h
      split_ifs at h <;> cases h
      · exact hcalls
      · exact hret rfl (by simp [Honest])
  | store p n =>
      rw [act] at h
      split_ifs at h
      cases h
      exact hcalls
  | setPending p n =>
      cases h
      exact hcalls
  | poll p n =>
      cases h
      exact hcalls
  | last p n =>
      rw [act] at h
      split_ifs at h with hpend <;> cases h
      · exact hcalls
      · -- the flag is clear: the delivery has been here
        refine hret rfl (iff_of_true rfl ?_)
        obtain ⟨-, hw | ht⟩ := hA trivial
        · exact absurd hw.1 hpend
        · exact ht.2
  | cancel p n =>
      cases h
      obtain ⟨hpend, hnot⟩ := hcancel p n rfl
      refine hret rfl (iff_of_false Bool.false_ne_true ?_)
      obtain ⟨-, hw | ⟨⟨-, hdel⟩ | ⟨hclear, -⟩, -⟩⟩ := hA trivial
      · simp [← hw.2.2.2]
      · exact absurd hdel hnot
      · rw [hpend] at hclear
        cases hclear

end Snapshot

open Snapshot

/-- **A snapshot is reported taken exactly when its file was written meanwhile**, in every run in
which the calls are undisturbed. -/
theorem snapshot_honest {s : Snapshot.State} (h : (snapshots.system ℕ).Reach Undisturbed s) :
    ∀ c ∈ s.shared.calls, Honest c := by
  refine h.invariant (fun s => ∀ c ∈ s.shared.calls, Honest c) ?_ ?_
  · rintro s ⟨hs, -⟩ c hc
    rw [hs] at hc
    cases hc
  · intro s e s' hs hcalls hC hstep
    cases e with
    | run c a =>
        obtain ⟨t, q, hact, rfl⟩ := step_run_iff.mp hstep
        exact honest_ret ((callRegion_guarded.held hs).inside c) hC.2 hcalls hact
    | env e =>
        obtain ⟨t, henv, rfl⟩ := step_env_iff.mp hstep
        cases e with
        | setRunning b =>
            cases henv
            exact hcalls
        | deliver jpeg opens writes =>
            cases henv
            have hsame : (deliver jpeg opens writes s.shared).calls = s.shared.calls := by
              cases hd : s.shared.delivery <;> simp [deliver, hd]
            simpa only [hsame] using hcalls

namespace Snapshot

/-- Nothing has happened. -/
def initial : State := ⟨quiet, fun _ => .idle⟩

lemma init_initial : (snapshots.system ℕ).init initial := ⟨rfl, fun _ => rfl⟩

/-- Client 0 alone, with the path `a.jpg`, and deliveries that succeed. -/
def clientZero (s : State) : Step → Bool
  | .run c a => c = 0 &&
      match s.pc 0 with
      | .idle => a.path = ascii "a.jpg" && s.shared.delivery = .idle
      | .cancel _ _ => s.shared.pending && s.shared.delivery = .idle
      | _ => true
  | .env (.deliver _ opens writes) => opens && writes
  | .env (.setRunning _) => true

lemma undisturbed_of_clientZero {s : State} {e : Step} (hsolo : Solo snapshots 0 s)
    (h : clientZero s e = true) : Undisturbed s e := by
  cases e with
  | run c a =>
      simp only [clientZero, Bool.and_eq_true, decide_eq_true_eq] at h
      obtain ⟨rfl, h⟩ := h
      refine ⟨fun hpc _ => ?_, fun p n hpc => ?_⟩
      · simp only [hpc, Bool.and_eq_true, decide_eq_true_eq] at h
        refine ⟨by rw [h.1]; decide, by rw [h.2]; trivial, fun d hd => ?_⟩
        by_cases hd0 : d = 0
        · rw [hd0, hpc] at hd
          exact hd
        · rw [hsolo d hd0] at hd
          exact hd
      · simp only [hpc, Bool.and_eq_true, decide_eq_true_eq] at h
        exact ⟨h.1, by rw [h.2]; exact id⟩
  | env e =>
      cases e with
      | setRunning b => trivial
      | deliver jpeg opens writes => simpa [Undisturbed, clientZero] using h

/-- Client 0 takes a step with the path `a.jpg`. -/
def clientStep : Step := .run 0 ⟨ascii "a.jpg", false⟩

/-- Eight steps of a delivery, all of it. -/
def delivery (opens : Bool) : List Step := List.replicate 8 (.env (.deliver [255, 216] opens true))

end Snapshot

/-- A snapshot that is taken. -/
theorem snapshot_taken :
    ∃ s, (snapshots.system ℕ).exec Snapshot.clientZero Snapshot.initial
        (List.replicate 3 clientStep ++ delivery true ++ List.replicate 2 clientStep) = some s ∧
      s.shared.calls = [⟨ascii "a.jpg", true, [⟨ascii "a.jpg", [255, 216]⟩]⟩] ∧
      ∀ c ∈ s.shared.calls, Honest c := by
  have hrun : ((snapshots.system ℕ).exec Snapshot.clientZero Snapshot.initial
      (List.replicate 3 clientStep ++ delivery true ++ List.replicate 2 clientStep)).map
      (fun s => s.shared.calls) = some [⟨ascii "a.jpg", true, [⟨ascii "a.jpg", [255, 216]⟩]⟩] := by
    decide
  obtain ⟨s, hs, hcalls⟩ := Option.map_eq_some_iff.mp hrun
  have hby : ∀ (s : Snapshot.State) (e : Snapshot.Step), Snapshot.clientZero s e = true →
      e.by 0 = true := by
    intro s e he
    cases e with
    | run c a => exact (Bool.and_eq_true_iff.mp he).1
    | env e => rfl
  exact ⟨s, hs, hcalls, snapshot_honest (Solo.reach hby (fun _ _ => undisturbed_of_clientZero)
    init_initial hs)⟩

/-- The file cannot be opened, and the snapshot is reported taken. -/
theorem unopened_file_reported :
    ¬ ∀ s : Snapshot.State, (snapshots.system ℕ).Reach (fun _ _ => True) s →
      ∀ c ∈ s.shared.calls, Honest c := by
  intro h
  have hrun : ((snapshots.system ℕ).exec (fun _ _ => true) Snapshot.initial
      (List.replicate 3 clientStep ++ delivery false ++ List.replicate 2 clientStep)).map
      (fun s => s.shared.calls) = some [⟨ascii "a.jpg", true, []⟩] := by decide
  obtain ⟨s, hs, hcalls⟩ := Option.map_eq_some_iff.mp hrun
  have hreach : (snapshots.system ℕ).Reach (fun _ _ => True) s :=
    .of_exec_check (fun _ _ _ => trivial) init_initial hs
  have hhonest := h s hreach ⟨ascii "a.jpg", true, []⟩ (by simp [hcalls])
  obtain ⟨jpeg, hjpeg⟩ := hhonest.mp rfl
  cases hjpeg

end RasPiZeroCam
