import RasPiZeroCam.Transition.System

/-!
Procedures executed one statement at a time on a shared state, and proof outlines for them.

A procedure has program points `π` and results `ρ`.  A step at a program point, on a state `W`,
either is not enabled (`none`) or gives the next state together with a `Next`: another program
point, the return of a result, or a crash.

* `execBody`: a procedure run alone.
* `Next.call`: the step of a caller that is inside a callee.
* `Outline`: an assertion for every program point, and one for every result, that the steps keep.
* `Next.Sat.call`: an outline of the callee serves inside the outline of its caller.
* `land_cases`: a caller that takes the steps of a procedure goes where they lead.
-/

namespace Transition

variable {W α π π' ρ ρ' κ : Type*}

/-- How a step of a procedure ends. -/
inductive Next (π ρ : Type*)
  | goto (p : π)
  | ret (r : ρ)
  | crash

/-- The statements of a procedure: the step at each program point, for each choice `α` of what the
calls outside the model answer. -/
abbrev Body (W α π ρ : Type*) := α → π → W → Option (W × Next π ρ)

/-- Run a procedure alone from a program point, every step under the choice `a`, for at most `n`
steps. -/
def execBody (body : Body W α π ρ) (a : α) : ℕ → π → W → Option (W × ρ)
  | 0, _, _ => none
  | n + 1, p, w =>
      match body a p w with
      | some (w, .goto p) => execBody body a n p w
      | some (w, .ret r) => some (w, r)
      | _ => none

lemma execBody_goto {body : Body W α π ρ} {a : α} {p q : π} {w w' : W}
    (h : body a p w = some (w', .goto q)) (n : ℕ) :
    execBody body a (n + 1) p w = execBody body a n q w' := by
  rw [execBody, h]

lemma execBody_ret {body : Body W α π ρ} {a : α} {p : π} {r : ρ} {w w' : W}
    (h : body a p w = some (w', .ret r)) (n : ℕ) :
    execBody body a (n + 1) p w = some (w', r) := by
  rw [execBody, h]

namespace Next

/-- A step of a callee, seen from its caller: `into` is where the caller is while the callee is at a
program point, `k` what it does with the result. -/
def call (into : π → π') (k : ρ → Next π' ρ') : Next π ρ → Next π' ρ'
  | goto p => .goto (into p)
  | ret r => k r
  | crash => .crash

/-- The assertion of the program point that comes next, or of the result; `K` is what is known of
a crash. -/
def Sat (K : Prop) (A : π → W → Prop) (R : ρ → W → Prop) (w : W) : Next π ρ → Prop
  | goto p => A p w
  | ret r => R r w
  | crash => K

/-- The rule for a call: the assertions inside the callee become those of the caller's program
points, and the callee's result leads on. -/
lemma Sat.call {K : Prop} {A : π → W → Prop} {R : ρ → W → Prop} {A' : π' → W → Prop}
    {R' : ρ' → W → Prop} {w : W} {n : Next π ρ} {into : π → π'} {k : ρ → Next π' ρ'}
    (h : n.Sat K A R w) (hinto : ∀ p, A p w → A' (into p) w)
    (hk : ∀ r, R r w → (k r).Sat K A' R' w) : (n.call into k).Sat K A' R' w := by
  cases n with
  | goto p => exact hinto p h
  | ret r => exact hk r h
  | crash => exact h

end Next

/-- A caller takes a step of a procedure: it follows it to the next program point, goes on with the
result, or is at `c` after a crash. -/
lemma land_cases {step : Option (W × Next π ρ)} {land : W × Next π ρ → W × κ} {into : π → κ}
    {k : ρ → κ} {c : W × κ} {w : W} {q : κ} (hgoto : ∀ w p, land (w, .goto p) = (w, into p))
    (hret : ∀ w r, land (w, .ret r) = (w, k r)) (hcrash : ∀ w, land (w, .crash) = c)
    (h : step.map land = some (w, q)) :
    (∃ p, step = some (w, .goto p) ∧ q = into p) ∨
      (∃ r, step = some (w, .ret r) ∧ q = k r) ∨ (w, q) = c := by
  obtain ⟨⟨v, n⟩, hstep, hland⟩ := Option.map_eq_some_iff.mp h
  cases n with
  | goto p =>
      cases (hgoto v p).symm.trans hland
      exact Or.inl ⟨p, hstep, rfl⟩
  | ret r =>
      cases (hret v r).symm.trans hland
      exact Or.inr (Or.inl ⟨r, hstep, rfl⟩)
  | crash => exact Or.inr (Or.inr (hland.symm.trans (hcrash v)))

/-- A proof outline: from an assertion `A p`, every allowed step leads to the assertion of what
comes next, and crashes only if `K`. -/
def Outline (K : Prop) (body : Body W α π ρ) (Allow : α → π → Prop) (A : π → W → Prop)
    (R : ρ → W → Prop) : Prop :=
  ∀ a p w w' n, Allow a p → A p w → body a p w = some (w', n) → n.Sat K A R w'

end Transition
