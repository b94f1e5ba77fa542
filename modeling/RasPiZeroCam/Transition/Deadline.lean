import Mathlib.Tactic

/-!
A timer that is armed again and again, each time for one period from the time it is armed at.

* `Due`, `Armed`: a period has passed since every arming, and a deadline that says so.
* `Armed.rearm`: arming it sets the deadline.
* `Spaced`, `Spaced.window`: times that are a period apart, and how many of them a window holds.
* `Spaced.window_late`: how many it holds of things that are done late, but before the next time.
-/

namespace Transition

/-- A period has passed at `t` since each of the times. -/
def Due (period : ℕ) (armed : List ℕ) (t : ℕ) : Prop := ∀ u ∈ armed, u + period ≤ t

/-- The deadline of a timer that was armed at these times. -/
def Armed (deadline period : ℕ) (armed : List ℕ) : Prop := ∀ t, deadline ≤ t ↔ Due period armed t

variable {deadline period t a b : ℕ} {armed times : List ℕ}

/-- A timer that has not been armed is due. -/
lemma Armed.zero (period : ℕ) : Armed 0 period [] := fun t =>
  iff_of_true (Nat.zero_le t) fun u hu => (by cases hu)

/-- **Arming it** moves the deadline to a period from then. -/
lemma Armed.rearm (h : ∀ u ∈ armed, u ≤ t) : Armed (t + period) period (armed ++ [t]) := by
  intro t'
  constructor
  · intro hle u hu
    rcases List.mem_append.mp hu with hu | hu
    · exact (Nat.add_le_add_right (h u hu) period).trans hle
    · rw [List.mem_singleton.mp hu]
      exact hle
  · exact fun hdue => hdue t (List.mem_append_right _ (List.mem_singleton_self t))

/-- Times that are a period apart, in their order. -/
def Spaced (period : ℕ) (times : List ℕ) : Prop := times.Pairwise fun u v => u + period ≤ v

/-- A time at which a timer is due that was armed at all of them. -/
lemma Spaced.concat (h : Spaced period times) (hdue : Due period armed t)
    (hsub : ∀ u ∈ times, u ∈ armed) : Spaced period (times ++ [t]) := by
  refine List.pairwise_append.mpr ⟨h, List.pairwise_singleton _ _, fun u hu v hv => ?_⟩
  rw [List.mem_singleton.mp hv]
  exact hdue u (hsub u hu)

/-- From the first of them on, each takes a period. -/
lemma Spaced.length_mul_le : ∀ {times : List ℕ} {u : ℕ}, Spaced period (u :: times) →
    (∀ v ∈ u :: times, v ≤ b) → u + times.length * period ≤ b
  | [], u, _, hle => by simpa using hle u List.mem_cons_self
  | v :: times, u, h, hle => by
      obtain ⟨hfirst, hrest⟩ := List.pairwise_cons.mp h
      have hnext := hfirst v List.mem_cons_self
      have hlast := Spaced.length_mul_le hrest fun w hw => hle w (List.mem_cons_of_mem _ hw)
      calc u + (v :: times).length * period = u + period + times.length * period := by
            rw [List.length_cons, Nat.succ_mul]
            omega
        _ ≤ v + times.length * period := Nat.add_le_add_right hnext _
        _ ≤ b := hlast

/-- **A window holds one of them for each period**, and one more. -/
lemma Spaced.window (h : Spaced period times) (hab : a ≤ b) :
    (times.filter fun u => a ≤ u ∧ u ≤ b).length * period ≤ b - a + period := by
  have hspaced : Spaced period (times.filter fun u => a ≤ u ∧ u ≤ b) := h.filter _
  have hmem : ∀ u ∈ times.filter fun u => a ≤ u ∧ u ≤ b, a ≤ u ∧ u ≤ b := fun u hu => by
    simpa using List.of_mem_filter hu
  rcases hfilter : times.filter fun u => a ≤ u ∧ u ≤ b with _ | ⟨u, us⟩ <;>
    rw [hfilter] at hspaced hmem
  · simp
  · have hlast := hspaced.length_mul_le fun v hv => (hmem v hv).2
    have hfirst := (hmem u List.mem_cons_self).1
    rw [List.length_cons, Nat.succ_mul]
    omega

/-- **The same when each time is met late**, but before the next one: one more at the front. -/
lemma Spaced.window_late {times : List (ℕ × ℕ)} (h : Spaced period (times.map Prod.fst))
    (hlate : ∀ x ∈ times, x.1 ≤ x.2) (horder : times.Pairwise fun x y => x.2 ≤ y.1)
    (hab : a ≤ b) :
    (times.filter fun x => a ≤ x.2 ∧ x.2 ≤ b).length * period ≤ b - a + 2 * period := by
  have hsub : (times.filter fun x => a ≤ x.2 ∧ x.2 ≤ b).Sublist times :=
    List.filter_sublist
  have hmem : ∀ x ∈ times.filter fun x => a ≤ x.2 ∧ x.2 ≤ b, a ≤ x.2 ∧ x.2 ≤ b := fun x hx => by
    simpa using List.of_mem_filter hx
  generalize (times.filter fun x => a ≤ x.2 ∧ x.2 ≤ b) = inside at hsub hmem ⊢
  rcases inside with _ | ⟨x, rest⟩
  · simp
  · -- all but the first were due behind it, so in the window
    obtain ⟨hbehind, -⟩ := List.pairwise_cons.mp (horder.sublist hsub)
    have hinside : ∀ u ∈ rest.map Prod.fst, a ≤ u ∧ u ≤ b := by
      intro u hu
      obtain ⟨y, hy, rfl⟩ := List.mem_map.mp hu
      have hmet := hlate y (hsub.subset (List.mem_cons_of_mem _ hy))
      exact ⟨(hmem x List.mem_cons_self).1.trans (hbehind y hy),
        hmet.trans (hmem y (List.mem_cons_of_mem _ hy)).2⟩
    have hrest : Spaced period (rest.map Prod.fst) :=
      h.sublist (((List.sublist_cons_self x rest).trans hsub).map _)
    have hwindow := hrest.window hab
    rw [List.filter_eq_self.mpr fun u hu => decide_eq_true (hinside u hu),
      List.length_map] at hwindow
    rw [List.length_cons, Nat.succ_mul]
    omega

end Transition
