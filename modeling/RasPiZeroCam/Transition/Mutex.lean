import Mathlib.Tactic

/-!
A mutex that is held by whoever is in its critical section.

* `Held`: the owner of the mutex is the one thread in the section.
* `Held.take`, `Held.release`, `Held.keep`: it is taken when free, given back by its owner, or left
  alone.
-/

namespace Transition

variable {κ : Type*} {inside inside' : κ → Prop} {owner owner' : Option κ} {x y : κ}

/-- Inside its critical section is the owner of the mutex, and nobody else. -/
def Held (inside : κ → Prop) (owner : Option κ) : Prop := ∀ x, inside x ↔ owner = some x

namespace Held

/-- **Mutual exclusion.** -/
lemma unique (h : Held inside owner) (hx : inside x) (hy : inside y) : x = y :=
  Option.some.inj (((h x).mp hx).symm.trans ((h y).mp hy))

/-- While the mutex is free, nobody is inside. -/
lemma not_inside (h : Held inside owner) (hfree : owner = none) (x : κ) : ¬ inside x := by
  intro hx
  rw [h x, hfree] at hx
  cases hx

/-- A step in which nobody enters or leaves. -/
lemma keep (h : Held inside owner) (hsame : ∀ y, inside' y ↔ inside y) (howner : owner' = owner) :
    Held inside' owner' :=
  fun y => (hsame y).trans (howner ▸ h y)

/-- The mutex was free and is taken by `x`, which enters. -/
lemma take (h : Held inside owner) (hfree : owner = none) (hx : inside' x)
    (hothers : ∀ y, y ≠ x → (inside' y ↔ inside y)) (howner : owner' = some x) :
    Held inside' owner' := by
  intro y
  rw [howner, Option.some.injEq]
  by_cases hy : y = x
  · subst hy
    exact iff_of_true hx rfl
  · exact iff_of_false (fun hin => h.not_inside hfree y ((hothers y hy).mp hin)) (Ne.symm hy)

/-- Its owner leaves, and gives it back. -/
lemma release (h : Held inside owner) (hx : inside x) (hout : ¬ inside' x)
    (hothers : ∀ y, y ≠ x → (inside' y ↔ inside y)) (howner : owner' = none) :
    Held inside' owner' := by
  intro y
  refine iff_of_false (fun hin => ?_) (by rw [howner]; simp)
  by_cases hy : y = x
  · subst hy
    exact hout hin
  · exact hy (h.unique ((hothers y hy).mp hin) hx)

end Held

end Transition
