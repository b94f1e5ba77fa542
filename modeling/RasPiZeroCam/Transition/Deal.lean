import Mathlib.Tactic

/-!
Consecutive numbers dealt to queues, and collected in order from the fronts of the queues.

* `Deal f lo hi`: each number from `lo` to `hi - 1` is in one of the queues `f i`, and each queue is
  increasing.
* `Deal.give`, `Deal.take`: the next number goes to the back of a queue, the least one is taken from
  the front of its queue.
* `Deal.front`: the least number is at the front of its queue, so that looking at the fronts is
  enough.
-/

namespace Transition

variable {ι : Type*} {f : ι → List ℕ} {lo hi n : ℕ} {i : ι} {l : List ℕ}

/-- The numbers from `lo` to `hi - 1` are dealt to the queues `f`, each queue increasing. -/
structure Deal (f : ι → List ℕ) (lo hi : ℕ) : Prop where
  le : lo ≤ hi
  sorted : ∀ i, (f i).Pairwise (· < ·)
  mem_iff : ∀ n, (∃ i, n ∈ f i) ↔ lo ≤ n ∧ n < hi
  unique : ∀ i j n, n ∈ f i → n ∈ f j → i = j

namespace Deal

/-- Nothing has been dealt. -/
lemma empty (n : ℕ) : Deal (fun _ : ι => []) n n where
  le := le_rfl
  sorted _ := List.Pairwise.nil
  mem_iff k := iff_of_false (by simp) (by omega)
  unique _ _ _ h := absurd h List.not_mem_nil

lemma bounds (h : Deal f lo hi) (hn : n ∈ f i) : lo ≤ n ∧ n < hi := (h.mem_iff n).mp ⟨i, hn⟩

/-- **The least number is at the front of its queue.** -/
lemma front (h : Deal f lo hi) (hlo : lo ∈ f i) : ∃ l, f i = lo :: l := by
  cases hf : f i with
  | nil =>
      rw [hf] at hlo
      exact absurd hlo List.not_mem_nil
  | cons a l =>
      have ha : a ∈ f i := hf ▸ List.mem_cons_self
      have hle : lo ≤ a := (h.bounds ha).1
      have hsorted : (a :: l).Pairwise (· < ·) := hf ▸ h.sorted i
      rw [hf] at hlo
      obtain rfl | htail := List.mem_cons.mp hlo
      · exact ⟨l, rfl⟩
      · exact absurd (List.rel_of_pairwise_cons hsorted htail) hle.not_gt

variable [DecidableEq ι]

lemma mem_update_of_ne {j : ι} (hne : j ≠ i) : n ∈ Function.update f i l j ↔ n ∈ f j := by
  rw [Function.update_of_ne hne]

/-- The next number goes to the back of a queue. -/
lemma give (h : Deal f lo hi) (i : ι) :
    Deal (Function.update f i (f i ++ [hi])) lo (hi + 1) := by
  have hmem : ∀ j n, n ∈ Function.update f i (f i ++ [hi]) j ↔ n ∈ f j ∨ (j = i ∧ n = hi) := by
    intro j n
    by_cases hj : j = i
    · subst hj
      rw [Function.update_self, List.mem_append, List.mem_singleton]
      simp
    · rw [mem_update_of_ne hj]
      simp [hj]
  have hnew : ∀ j, hi ∉ f j := fun j hj => lt_irrefl _ (h.bounds hj).2
  refine ⟨h.le.trans (Nat.le_succ hi), fun j => ?_, fun n => ?_, fun j k n hj hk => ?_⟩
  · by_cases hj : j = i
    · subst hj
      rw [Function.update_self, List.pairwise_append]
      refine ⟨h.sorted j, List.pairwise_singleton _ _, fun a ha b hb => ?_⟩
      obtain rfl := List.mem_singleton.mp hb
      exact (h.bounds ha).2
    · rw [Function.update_of_ne hj]
      exact h.sorted j
  · have hdealt := h.mem_iff n
    constructor
    · rintro ⟨j, hj⟩
      obtain hold | ⟨-, rfl⟩ := (hmem j n).mp hj
      · have hb := h.bounds hold
        omega
      · have hle := h.le
        omega
    · rintro ⟨hle, hlt⟩
      obtain heq | hold := eq_or_lt_of_le (Nat.le_of_lt_succ hlt)
      · exact ⟨i, (hmem i n).mpr (Or.inr ⟨rfl, heq⟩)⟩
      · obtain ⟨j, hj⟩ := hdealt.mpr ⟨hle, hold⟩
        exact ⟨j, (hmem j n).mpr (Or.inl hj)⟩
  · obtain hj' | ⟨rfl, rfl⟩ := (hmem j n).mp hj
    · obtain hk' | ⟨-, rfl⟩ := (hmem k n).mp hk
      · exact h.unique j k n hj' hk'
      · exact absurd hj' (hnew j)
    · obtain hk' | ⟨rfl, -⟩ := (hmem k _).mp hk
      · exact absurd hk' (hnew k)
      · rfl

/-- The least number is taken from the front of its queue. -/
lemma take (h : Deal f lo hi) (hf : f i = lo :: l) :
    Deal (Function.update f i l) (lo + 1) hi := by
  have hsorted : (lo :: l).Pairwise (· < ·) := hf ▸ h.sorted i
  have hmem : ∀ j n, n ∈ Function.update f i l j ↔ n ∈ f j ∧ n ≠ lo := by
    intro j n
    by_cases hj : j = i
    · subst hj
      rw [Function.update_self, hf, List.mem_cons]
      constructor
      · exact fun hn => ⟨Or.inr hn, (List.rel_of_pairwise_cons hsorted hn).ne'⟩
      · rintro ⟨rfl | hn, hne⟩
        · exact absurd rfl hne
        · exact hn
    · rw [mem_update_of_ne hj]
      refine ⟨fun hn => ⟨hn, ?_⟩, fun hn => hn.1⟩
      rintro rfl
      exact hj (h.unique j i n hn (hf ▸ List.mem_cons_self))
  have hlo := h.bounds (hf ▸ List.mem_cons_self : lo ∈ f i)
  refine ⟨hlo.2, fun j => ?_, fun n => ?_, fun j k n hj hk => ?_⟩
  · by_cases hj : j = i
    · subst hj
      rw [Function.update_self]
      exact hsorted.of_cons
    · rw [Function.update_of_ne hj]
      exact h.sorted j
  · have hdealt := h.mem_iff n
    constructor
    · rintro ⟨j, hj⟩
      obtain ⟨hold, hne⟩ := (hmem j n).mp hj
      have hb := h.bounds hold
      omega
    · rintro ⟨hle, hlt⟩
      obtain ⟨j, hj⟩ := hdealt.mpr ⟨by omega, hlt⟩
      exact ⟨j, (hmem j n).mpr ⟨hj, by omega⟩⟩
  · exact h.unique j k n ((hmem j n).mp hj).1 ((hmem k n).mp hk).1

end Deal

end Transition
