import Mathlib.Tactic

/-!
Transition systems with a partial step function, and the runs whose steps all meet a condition.

* `System`: initial states and a step function; an event that is not enabled has no successor.
* `System.Reach`: the states reached by the runs whose every step, taken in state `s` by event `e`,
  meets `C s e`.  `Reach.invariant` is the induction over a run.
* `System.exec`: a list of events, executed as long as each passes a Boolean check;
  `Reach.of_exec` turns such an execution into a run.
* `System.Forced`: an execution at whose every state no other event is possible.
-/

namespace Transition

/-- A transition system with states `σ` and events `ε`. -/
structure System (σ ε : Type*) where
  init : σ → Prop
  step : σ → ε → Option σ

namespace System

variable {σ ε : Type*} {T : System σ ε} {C : σ → ε → Prop} {s : σ}

/-- The states reached by runs whose every step meets `C`. -/
inductive Reach (T : System σ ε) (C : σ → ε → Prop) : σ → Prop
  | init {s : σ} : T.init s → Reach T C s
  | step {s s' : σ} {e : ε} : Reach T C s → C s e → T.step s e = some s' → Reach T C s'

/-- **Induction over a run**: what holds initially and is kept by every step that meets the
condition, in a state that was reached, holds of every reached state. -/
theorem Reach.invariant (Inv : σ → Prop) (hinit : ∀ s, T.init s → Inv s)
    (hstep : ∀ s e s', T.Reach C s → Inv s → C s e → T.step s e = some s' → Inv s')
    (h : T.Reach C s) : Inv s := by
  induction h with
  | init h0 => exact hinit _ h0
  | step hs hC hst ih => exact hstep _ _ _ hs ih hC hst

/-- A weaker condition allows more runs. -/
lemma Reach.mono {D : σ → ε → Prop} (hCD : ∀ s e, C s e → D s e) (h : T.Reach C s) :
    T.Reach D s :=
  h.invariant (T.Reach D) (fun _ => .init) fun s e _ _ hs hC hst => hs.step (hCD s e hC) hst

/-- Execute a list of events, each of which has to pass `check`. -/
def exec (T : System σ ε) (check : σ → ε → Bool) : σ → List ε → Option σ
  | s, [] => some s
  | s, e :: es => if check s e then (T.step s e).bind fun s' => exec T check s' es else none

/-- A step that needs no check. -/
lemma exec_cons {e : ε} {s' : σ} (h : T.step s e = some s') (es : List ε) :
    T.exec (fun _ _ => true) s (e :: es) = T.exec (fun _ _ => true) s' es := by
  rw [exec, if_pos rfl, h, Option.bind_some]

/-- **An execution is a run**: the check stands for the condition in the states where `J` holds,
and `J` is kept. -/
theorem Reach.of_exec {check : σ → ε → Bool} {J : σ → Prop}
    (hJ : ∀ s e s', J s → check s e = true → T.step s e = some s' → J s')
    (hC : ∀ s e, J s → check s e = true → C s e) {es : List ε} :
    ∀ {s s' : σ}, T.Reach C s → J s → T.exec check s es = some s' → T.Reach C s' := by
  induction es with
  | nil =>
      intro s s' hs _ hrun
      cases hrun
      exact hs
  | cons e es ih =>
      intro s s' hs hj hrun
      rw [exec] at hrun
      split_ifs at hrun with hcheck
      obtain ⟨t, hst, hrun⟩ := Option.bind_eq_some_iff.mp hrun
      exact ih (.step hs (hC s e hj hcheck) hst) (hJ s e t hj hcheck hst) hrun

/-- The same when the check is enough for the condition. -/
lemma Reach.of_exec_check {check : σ → ε → Bool} (hC : ∀ s e, check s e = true → C s e)
    {es : List ε} {s s' : σ} (hinit : T.init s) (hrun : T.exec check s es = some s') :
    T.Reach C s' :=
  .of_exec (J := fun _ => True) (fun _ _ _ _ _ _ => trivial) (fun s e _ => hC s e) (.init hinit)
    trivial hrun

/-- The events `es` lead from `s` to `t`, where nothing more is possible, and at no state on the way
is any other event. -/
inductive Forced (T : System σ ε) : σ → List ε → σ → Prop
  | stop {s : σ} : (∀ e, T.step s e = none) → Forced T s [] s
  | step {s s' t : σ} {e : ε} {es : List ε} : T.step s e = some s' →
      (∀ d, T.step s d ≠ none → d = e) → Forced T s' es t → Forced T s (e :: es) t

/-- A forced execution is one. -/
lemma Forced.exec {s t : σ} {es : List ε} (h : T.Forced s es t) :
    T.exec (fun _ _ => true) s es = some t := by
  induction h with
  | stop _ => rfl
  | step hstep _ _ ih => exact (exec_cons hstep _).trans ih

/-- **There is no other**: every execution is part of it. -/
lemma Forced.prefix {s t u : σ} {es : List ε} (h : T.Forced s es t) :
    ∀ {ds : List ε}, T.exec (fun _ _ => true) s ds = some u → ds <+: es := by
  induction h with
  | stop hnone =>
      rintro (_ | ⟨d, ds⟩) hexec
      · exact List.nil_prefix
      · rw [System.exec, if_pos rfl, hnone d] at hexec
        cases hexec
  | step hstep honly _ ih =>
      rintro (_ | ⟨d, ds⟩) hexec
      · exact List.nil_prefix
      · rw [System.exec, if_pos rfl] at hexec
        obtain ⟨s', hd, hexec⟩ := Option.bind_eq_some_iff.mp hexec
        obtain rfl := honly d (by simp [hd])
        obtain rfl := Option.some.inj (hstep.symm.trans hd)
        exact (List.prefix_cons_inj d).mpr (ih hexec)

end System

end Transition
