import Mathlib.Tactic

/-!
Values that are published one after the other, and a reader that takes the latest one now and then.

* `Follows`: what a reader took, each time with the number of values published by then.
* `Follows.take`: the reader takes the latest value.  `Follows.sublist`: it gets a subsequence.
-/

namespace Transition

variable {α : Type*} {a : α} {published before : List α} {taken : List (ℕ × α)}

/-- What a reader took: each time the latest of the values published by then, and later values each
time. -/
structure Follows (published : List α) (taken : List (ℕ × α)) : Prop where
  increasing : (taken.map Prod.fst).Pairwise (· < ·)
  latest : ∀ t ∈ taken, ∃ before, before ++ [t.2] <+: published ∧ before.length + 1 = t.1

namespace Follows

lemma nil : Follows published [] where
  increasing := List.Pairwise.nil
  latest _ ht := absurd ht List.not_mem_nil

/-- A value is published. -/
lemma publish (h : Follows published taken) (a : α) : Follows (published ++ [a]) taken where
  increasing := h.increasing
  latest t ht := by
    obtain ⟨before, hprefix, hlength⟩ := h.latest t ht
    exact ⟨before, hprefix.trans (List.prefix_append _ _), hlength⟩

/-- The reader takes the latest value, which is a new one to it. -/
lemma take (h : Follows (before ++ [a]) taken) (hnew : ∀ t ∈ taken, t.1 < before.length + 1) :
    Follows (before ++ [a]) (taken ++ [(before.length + 1, a)]) where
  increasing := by
    rw [List.map_append, List.pairwise_append]
    refine ⟨h.increasing, List.pairwise_singleton _ _, fun m hm n hn => ?_⟩
    obtain ⟨t, ht, rfl⟩ := List.mem_map.mp hm
    obtain rfl := List.mem_singleton.mp hn
    exact hnew t ht
  latest t ht := by
    obtain hold | hlast := List.mem_append.mp ht
    · exact h.latest t hold
    · obtain rfl := List.mem_singleton.mp hlast
      exact ⟨before, List.prefix_refl _, rfl⟩

/-- **The reader gets a subsequence**, in order and each value at most once. -/
theorem sublist (h : Follows published taken) : (taken.map Prod.snd).Sublist published := by
  -- by induction from the end: the values taken before the last one are among those before it
  suffices hall : ∀ n, (∀ t ∈ taken, t.1 ≤ n) →
      (taken.map Prod.snd).Sublist (published.take n) by
    obtain ⟨n, hn⟩ : ∃ n, ∀ t ∈ taken, t.1 ≤ n :=
      ⟨(taken.map Prod.fst).sum, fun t ht => List.le_sum_of_mem (List.mem_map_of_mem ht)⟩
    exact (hall n hn).trans (List.take_sublist n published)
  induction taken using List.reverseRecOn with
  | nil => exact fun n _ => List.nil_sublist _
  | append_singleton taken t ih =>
      intro n hn
      have hincreasing := h.increasing
      rw [List.map_append, List.pairwise_append] at hincreasing
      obtain ⟨hold, -, hlast⟩ := hincreasing
      obtain ⟨before, hprefix, hlength⟩ := h.latest t (List.mem_append_right _ List.mem_cons_self)
      have hbefore : (taken.map Prod.snd).Sublist (published.take before.length) := by
        refine ih ⟨hold, fun u hu => h.latest u (List.mem_append_left _ hu)⟩ _ fun u hu => ?_
        have hlt : u.1 < t.1 :=
          hlast _ (List.mem_map_of_mem hu) _ (List.mem_singleton_self _)
        omega
      have htake : before = published.take before.length :=
        List.prefix_iff_eq_take.mp ((List.prefix_append before [t.2]).trans hprefix)
      rw [← htake] at hbefore
      have hall : ((taken ++ [t]).map Prod.snd).Sublist (published.take t.1) := by
        rw [List.map_append, ← hlength]
        have hlatest := List.prefix_iff_eq_take.mp hprefix
        rw [List.length_append, List.length_singleton] at hlatest
        rw [← hlatest]
        exact hbefore.append (List.Sublist.refl _)
      have hle : t.1 ≤ n := hn t (List.mem_append_right _ List.mem_cons_self)
      exact hall.trans (List.take_sublist_take_left hle)

end Follows

end Transition
