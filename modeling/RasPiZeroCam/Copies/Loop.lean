import RasPiZeroCam.Copies.Moves

/-!
Loops that end by themselves, blocks of equal length, and indices that are cut off at the last one.

* `forLoop`: a `for` loop with fuel; `forLoop_eq`: with enough of it, the loop makes the passes that
  its condition asks for, and without, it has not ended.
* `flatMap_blocks`: the blocks of a range, one behind the other, are the range.
* `map_min_range`: a range whose indices are cut off ends in copies of the last one.
-/

namespace Copies

variable {σ β : Type*}

/-- `for (; cond(s); s = next(s))`, where every pass gives something; `none` when the fuel runs out
before the condition fails. -/
def forLoop (cond : σ → Bool) (next : σ → σ) (body : σ → β) : ℕ → σ → Option (List β)
  | 0, _ => none
  | fuel + 1, s =>
      if cond s then (forLoop cond next body fuel (next s)).map (body s :: ·) else some []

/-- **The passes of a loop** whose variable takes the values `v`, the first `n` of which meet the
condition. -/
theorem forLoop_eq (cond : σ → Bool) (next : σ → σ) (body : σ → β) {n : ℕ} (fuel : ℕ) (v : ℕ → σ)
    (hpass : ∀ k < n, cond (v k) = true ∧ next (v k) = v (k + 1)) (hend : cond (v n) = false) :
    forLoop cond next body fuel (v 0) =
      if n < fuel then some ((List.range n).map fun k => body (v k)) else none := by
  induction n generalizing v fuel with
  | zero =>
      cases fuel with
      | zero => rfl
      | succ fuel => simp [forLoop, hend]
  | succ n ih =>
      cases fuel with
      | zero => rfl
      | succ fuel =>
          obtain ⟨hcond, hnext⟩ := hpass 0 n.succ_pos
          have hrest := ih fuel (fun k => v (k + 1)) (fun k hk => hpass (k + 1) (by omega)) hend
          rw [forLoop, if_pos hcond, hnext, hrest]
          by_cases hfuel : n < fuel
          · rw [if_pos hfuel, if_pos (by omega), Option.map_some, List.range_succ_eq_map,
              List.map_cons, List.map_map]
            rfl
          · rw [if_neg hfuel, if_neg (by omega), Option.map_none]

/-- The blocks of a range. -/
lemma flatMap_blocks (n w : ℕ) (f : ℕ → β) :
    ((List.range n).flatMap fun b => (List.range w).map fun i => f (b * w + i)) =
      (List.range (n * w)).map f := by
  rw [flatMap_map_range_mul n w fun b i => f (b * w + i)]
  simp only [Nat.div_add_mod']

/-- The indices of a range, cut off at `m`. -/
lemma map_min_range {m n : ℕ} (h : m < n) : ((List.range n).map fun k => min k m) =
    List.range (m + 1) ++ List.replicate (n - (m + 1)) m := by
  obtain ⟨d, rfl⟩ := Nat.exists_eq_add_of_lt h
  have hhead : ((List.range (m + 1)).map fun k => min k m) = List.range (m + 1) := by
    refine (List.map_congr_left fun k hk => ?_).trans (List.map_id _)
    exact min_eq_left (Nat.lt_succ_iff.mp (List.mem_range.mp hk))
  have htail : ((List.range d).map fun k => min (m + 1 + k) m) = List.replicate d m := by
    refine List.eq_replicate_iff.mpr ⟨by simp, fun x hx => ?_⟩
    obtain ⟨k, -, rfl⟩ := List.mem_map.mp hx
    omega
  rw [show m + d + 1 = m + 1 + d by omega, List.range_add, List.map_append, hhead, List.map_map,
    Nat.add_sub_cancel_left]
  exact congrArg _ htail

end Copies
