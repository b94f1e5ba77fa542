import Mathlib.Tactic

/-!
Logs of calls, some of which acquire a thing and some of which release one.

* `Balanced`: what was acquired has been released, or is outstanding.
* `Precedes`: one kind of call is never made before another has been.
-/

namespace Transition

variable {γ ρ : Type*} [DecidableEq ρ]

/-- How many calls of the log are, by `f`, about `r`. -/
def tally (f : γ → Option ρ) (log : List γ) (r : ρ) : ℕ := log.countP fun c => f c = some r

@[simp] lemma tally_nil (f : γ → Option ρ) (r : ρ) : tally f [] r = 0 := rfl

@[simp] lemma tally_append (f : γ → Option ρ) (log cs : List γ) (r : ρ) :
    tally f (log ++ cs) r = tally f log r + tally f cs r := List.countP_append

@[simp] lemma tally_singleton (f : γ → Option ρ) (c : γ) (r : ρ) :
    tally f [c] r = if f c = some r then 1 else 0 := by
  by_cases h : f c = some r <;> simp [tally, h]

/-- What the log has acquired is what it has released, and what is outstanding. -/
def Balanced (acquires releases : γ → Option ρ) (log : List γ) (out : ρ → ℕ) : Prop :=
  ∀ r, tally acquires log r = tally releases log r + out r

namespace Balanced

variable {acquires releases : γ → Option ρ} {log cs : List γ} {out out' : ρ → ℕ} {r : ρ}

/-- **More calls**: what they acquire is added to what is outstanding, what they release is taken
from it. -/
lemma append (h : Balanced acquires releases log out)
    (hcalls : ∀ r, tally acquires cs r + out r = tally releases cs r + out' r) :
    Balanced acquires releases (log ++ cs) out' := by
  intro r
  have hlog := h r
  have hnew := hcalls r
  rw [tally_append, tally_append]
  omega

lemma released_le (h : Balanced acquires releases log out) (r : ρ) :
    tally releases log r ≤ tally acquires log r := by
  have hlog := h r
  omega

/-- Nothing is outstanding: all has been released. -/
lemma released_eq (h : Balanced acquires releases log out) (hout : out r = 0) :
    tally releases log r = tally acquires log r := by
  have hlog := h r
  omega

/-- What was acquired at most once and is outstanding has not been released. -/
lemma not_mem (h : Balanced acquires releases log out) (honce : tally acquires log r ≤ 1)
    (hout : 0 < out r) {c : γ} (hc : releases c = some r) : c ∉ log := by
  have hlog := h r
  have hnone : tally releases log r = 0 := by omega
  intro hmem
  exact List.countP_eq_zero.mp hnone c hmem (by simp [hc])

end Balanced

/-- Before every call `x` of the log there is a call `y`. -/
def Precedes (y x : γ) (log : List γ) : Prop := ∀ a b, log = a ++ x :: b → y ∈ a

lemma Precedes.of_not_mem {x y : γ} {log : List γ} (h : x ∉ log) : Precedes y x log := by
  rintro a b rfl
  exact absurd (List.mem_append_right a List.mem_cons_self) h

/-- One more call. -/
lemma Precedes.concat {x y c : γ} {log : List γ} (h : Precedes y x log) (hc : c = x → y ∈ log) :
    Precedes y x (log ++ [c]) := by
  intro a b heq
  rcases List.eq_nil_or_concat b with rfl | ⟨b, d, rfl⟩
  · obtain ⟨rfl, hcx⟩ := List.append_inj' heq rfl
    exact hc (List.singleton_inj.mp hcx)
  · have hsplit : log ++ [c] = (a ++ x :: b) ++ [d] := by rw [heq]; simp
    exact h a b (List.append_inj' hsplit rfl).1

end Transition
