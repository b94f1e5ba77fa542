import Mathlib.Data.List.Perm.Basic
import Mathlib.Tactic

/-!
Loops that copy elements from one array to another, as the list of the moves they make.

* `Move`, `run`: an element read at one place and written at another, and the memory after a list
  of moves.  `run_of_mem`: when no place is written twice, every place holds what was moved there;
  `run_of_not_written`: the others keep what they held.
* `memcpy`, `countUp`: a block of moves, and a loop that counts up to a 32-bit bound.
* `flatMap_range_mul`: a loop over rows and columns is a loop over cells.
-/

namespace Copies

variable {δ α β : Type*}

/-- One element is read at `src` and written at `dst`. -/
structure Move (δ : Type*) where
  dst : δ
  src : ℕ

/-- The memory after the moves. -/
def run [DecidableEq δ] (src : ℕ → α) (moves : List (Move δ)) (mem : δ → α) : δ → α :=
  moves.foldl (fun mem m => Function.update mem m.dst (src m.src)) mem

/-- `memcpy` of `n` elements. -/
def memcpy (dst : ℕ → δ) (src n : ℕ) : List (Move δ) :=
  (List.range n).map fun i => ⟨dst i, src + i⟩

/-- `for (uint32_t r = 0; r < n; ++r)`, where every pass gives a list. -/
def countUp (n : UInt32) (body : UInt32 → List β) : List β :=
  (List.range n.toNat).flatMap fun r => body (UInt32.ofNat r)

section

variable [DecidableEq δ] {src : ℕ → α} {mem : δ → α}

/-- A place that no move writes keeps what it held. -/
lemma run_of_not_written {moves : List (Move δ)} {d : δ} (h : d ∉ moves.map Move.dst) :
    run src moves mem d = mem d := by
  induction moves generalizing mem with
  | nil => rfl
  | cons m moves ih =>
      simp only [List.map_cons, List.mem_cons, not_or] at h
      calc run src (m :: moves) mem d
          = run src moves (Function.update mem m.dst (src m.src)) d := rfl
        _ = Function.update mem m.dst (src m.src) d := ih h.2
        _ = mem d := Function.update_of_ne h.1 _ _

/-- **When no place is written twice, every place holds what was moved there.** -/
theorem run_of_mem {moves : List (Move δ)} (hnodup : (moves.map Move.dst).Nodup) {m : Move δ}
    (hm : m ∈ moves) : run src moves mem m.dst = src m.src := by
  induction moves generalizing mem with
  | nil => cases hm
  | cons x moves ih =>
      obtain ⟨hnew, hnodup⟩ := List.nodup_cons.mp hnodup
      obtain rfl | hm := List.mem_cons.mp hm
      · calc run src (m :: moves) mem m.dst
            = run src moves (Function.update mem m.dst (src m.src)) m.dst := rfl
          _ = Function.update mem m.dst (src m.src) m.dst := run_of_not_written hnew
          _ = src m.src := Function.update_self _ _ _
      · exact ih hnodup hm

end

/-- The body of a loop only matters below the bound. -/
lemma countUp_eq {n : UInt32} {body : UInt32 → List β} {f : ℕ → List β}
    (h : ∀ r : UInt32, r.toNat < n.toNat → body r = f r.toNat) :
    countUp n body = (List.range n.toNat).flatMap f := by
  refine List.flatMap_congr fun r hr => ?_
  have hlt : r < n.toNat := List.mem_range.mp hr
  have hr : (UInt32.ofNat r).toNat = r := UInt32.toNat_ofNat_of_lt' (hlt.trans n.toNat_lt)
  rw [h (UInt32.ofNat r) (by rwa [hr]), hr]

/-- **A loop over rows and columns is a loop over the cells**, row after row. -/
theorem flatMap_range_mul (h w : ℕ) (f : ℕ → ℕ → List β) :
    ((List.range h).flatMap fun r => (List.range w).flatMap fun c => f r c) =
      (List.range (h * w)).flatMap fun i => f (i / w) (i % w) := by
  induction h with
  | zero => rw [Nat.zero_mul]; rfl
  | succ h ih =>
      have hrow : ∀ c ∈ List.range w, f h c = f ((h * w + c) / w) ((h * w + c) % w) := by
        intro c hc
        have hlt : c < w := List.mem_range.mp hc
        have hdiv : (h * w + c) / w = h := by
          rw [Nat.mul_comm, Nat.mul_add_div (by omega), Nat.div_eq_of_lt hlt, Nat.add_zero]
        have hmod : (h * w + c) % w = c := by
          rw [Nat.mul_comm, Nat.mul_add_mod, Nat.mod_eq_of_lt hlt]
        rw [hdiv, hmod]
      rw [List.range_succ, List.flatMap_append, ih, Nat.succ_mul, List.range_add,
        List.flatMap_append, List.flatMap_map, List.flatMap_singleton, List.flatMap_congr hrow]

/-- The same for a loop that makes one element a cell. -/
lemma flatMap_map_range_mul (h w : ℕ) (f : ℕ → ℕ → β) :
    ((List.range h).flatMap fun r => (List.range w).map fun c => f r c) =
      (List.range (h * w)).map fun i => f (i / w) (i % w) := by
  simp only [List.map_eq_flatMap]
  exact flatMap_range_mul h w fun r c => [f r c]

/-- A loop that makes two elements a pass. -/
lemma flatMap_range_pair (n : ℕ) (f : ℕ → β) :
    ((List.range n).flatMap fun i => [f (i * 2), f (i * 2 + 1)]) =
      (List.range (n * 2)).map f := by
  induction n with
  | zero => rfl
  | succ n ih =>
      rw [List.range_succ, List.flatMap_append, ih, Nat.succ_mul, List.range_succ,
        List.range_succ]
      simp

/-- The cell of a row and a column. -/
lemma cell_lt {h w r c : ℕ} (hr : r < h) (hc : c < w) : r * w + c < h * w :=
  calc r * w + c < r * w + w := Nat.add_lt_add_left hc _
    _ = (r + 1) * w := (Nat.succ_mul r w).symm
    _ ≤ h * w := Nat.mul_le_mul_right w hr

/-- The elements of an array from `a` on. -/
lemma take_drop_eq_map {data : List α} (dflt : α) {a n : ℕ} (h : a + n ≤ data.length) :
    (data.drop a).take n = (List.range n).map fun c => data.getD (a + c) dflt := by
  refine List.ext_getElem ?_ fun i hi _ => ?_
  · rw [List.length_take, List.length_drop, List.length_map, List.length_range]
    omega
  · have hlt : i < n := by
      rw [List.length_take] at hi
      omega
    have hdata : a + i < data.length := by omega
    simp only [List.getElem_take, List.getElem_drop, List.getElem_map, List.getElem_range]
    rw [List.getD_eq_getElem?_getD, List.getElem?_eq_getElem hdata, Option.getD_some]

end Copies
