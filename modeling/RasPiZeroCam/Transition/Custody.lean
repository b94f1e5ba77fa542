import RasPiZeroCam.Transition.System

/-!
Resources that are in one place at a time.

* `Conserves`: a step moves or loses resources that have been issued, and issues others.
* `System.Reach.custody`: along a run of such steps, no resource is in two places, and only issued
  ones are in any.
* `Keeps`: a step loses nothing.  `System.Reach.kept_iff`: every resource is in its place if and
  only if each step of the run kept all of them, as what is lost stays lost.
-/

namespace Transition

variable {σ ε ρ : Type*} {held : σ → ρ → ℕ} {issued : σ → ρ → Prop} {s s' : σ}

/-- From `s` to `s'` no issued resource gets into more places; one that was not issued gets into at
most one, and is issued then.  `held s r` counts the places where `r` is. -/
structure Conserves (held : σ → ρ → ℕ) (issued : σ → ρ → Prop) (s s' : σ) : Prop where
  old : ∀ r, issued s r → held s' r ≤ held s r ∧ issued s' r
  fresh : ∀ r, ¬ issued s r → held s' r ≤ held s r ∨ (held s' r ≤ held s r + 1 ∧ issued s' r)

/-- A step that issues nothing. -/
lemma Conserves.of_le (hle : ∀ r, held s' r ≤ held s r) (hmono : ∀ r, issued s r → issued s' r) :
    Conserves held issued s s' :=
  ⟨fun r hr => ⟨hle r, hmono r hr⟩, fun r _ => Or.inl (hle r)⟩

/-- From `s` to `s'` nothing is lost: every issued resource stays in as many places, and one that
is issued now gets into a place. -/
structure Keeps (held : σ → ρ → ℕ) (issued : σ → ρ → Prop) (s s' : σ) : Prop where
  old : ∀ r, issued s r → held s' r = held s r
  fresh : ∀ r, ¬ issued s r → issued s' r → held s' r = held s r + 1

/-- Every resource that has been issued is in a place. -/
def Kept (held : σ → ρ → ℕ) (issued : σ → ρ → Prop) (s : σ) : Prop := ∀ r, issued s r → held s r = 1

/-- What is in a place now was in one before. -/
lemma Kept.of_conserves (hcons : Conserves held issued s s') (hone : ∀ r, held s r ≤ 1)
    (h : Kept held issued s') : Kept held issued s := by
  intro r hr
  obtain ⟨hle, hr'⟩ := hcons.old r hr
  have hafter : held s' r = 1 := h r hr'
  have hbefore := hone r
  omega

namespace System

variable {T : System σ ε} {C : σ → ε → Prop}

/-- **The custody rule**: when every step conserves the resources, each is in at most one place, and
is issued if it is in one. -/
theorem Reach.custody (held : σ → ρ → ℕ) (issued : σ → ρ → Prop)
    (hinit : ∀ s, T.init s → ∀ r, held s r = 0)
    (hstep : ∀ s e s', T.Reach C s → C s e → T.step s e = some s' → Conserves held issued s s')
    (h : T.Reach C s) (r : ρ) : held s r ≤ 1 ∧ (0 < held s r → issued s r) := by
  refine h.invariant (fun s => held s r ≤ 1 ∧ (0 < held s r → issued s r)) ?_ ?_
  · intro s hs
    simp [hinit s hs r]
  · rintro s e s' hs ⟨hone, hissued⟩ hC hst
    have hcons := hstep s e s' hs hC hst
    by_cases hr : issued s r
    · obtain ⟨hle, hr'⟩ := hcons.old r hr
      exact ⟨hle.trans hone, fun _ => hr'⟩
    · -- what was not issued was nowhere
      have hnowhere : held s r = 0 := by
        by_contra hne
        exact hr (hissued (Nat.pos_of_ne_zero hne))
      obtain hle | ⟨hle, hr'⟩ := hcons.fresh r hr
      · exact ⟨by omega, fun hpos => by omega⟩
      · exact ⟨by omega, fun _ => hr'⟩

/-- **Nothing is lost** if and only if no step loses anything: the runs that meet `D` are those
after which every resource is in its place. -/
theorem Reach.kept_iff {D : σ → ε → Prop} (hDC : ∀ s e, D s e → C s e)
    (hinit : ∀ s, T.init s → ∀ r, held s r = 0 ∧ ¬ issued s r)
    (hstep : ∀ s e s', T.Reach C s → C s e → T.step s e = some s' → Conserves held issued s s')
    (hkeep : ∀ s e s', T.Reach C s → D s e → T.step s e = some s' → Keeps held issued s s')
    (hlose : ∀ s e s', T.Reach C s → C s e → ¬ D s e → T.step s e = some s' →
      ∃ r, issued s r ∧ held s' r < held s r)
    (h : T.Reach C s) : Kept held issued s ↔ T.Reach D s := by
  have hone : ∀ {s}, T.Reach C s → ∀ r, held s r ≤ 1 ∧ (0 < held s r → issued s r) :=
    fun hs => hs.custody held issued (fun s hs r => (hinit s hs r).1) hstep
  constructor
  · refine h.invariant (fun s => Kept held issued s → T.Reach D s) (fun s hs _ => .init hs) ?_
    intro s e s' hs ih hC hst hkept
    have hcons := hstep s e s' hs hC hst
    refine .step (ih (hkept.of_conserves hcons fun r => (hone hs r).1)) ?_ hst
    -- what the step lost would still be lost
    by_contra hD
    obtain ⟨r, hr, hlt⟩ := hlose s e s' hs hC hD hst
    have hafter : held s' r = 1 := hkept r (hcons.old r hr).2
    have hbefore := (hone hs r).1
    omega
  · intro hD
    refine hD.invariant (Kept held issued) (fun s hs r hr => absurd hr (hinit s hs r).2) ?_
    intro s e s' hs hkept hD hst r hr'
    have hsC : T.Reach C s := hs.mono hDC
    have hkeeps := hkeep s e s' hsC hD hst
    by_cases hr : issued s r
    · exact (hkeeps.old r hr).trans (hkept r hr)
    · have hnowhere : held s r = 0 := by
        by_contra hne
        exact hr ((hone hsC r).2 (Nat.pos_of_ne_zero hne))
      rw [hkeeps.fresh r hr hr', hnowhere]

end System

end Transition
