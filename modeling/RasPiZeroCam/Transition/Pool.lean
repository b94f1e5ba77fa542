import RasPiZeroCam.Transition.Procedure

/-!
Pools of threads: any number of threads, all running the same program on one shared state, and an
environment that acts on that state.

* `Pool`, `Config`, `Event`, `Pool.system`: threads named by `ι`, interleaved step by step.
* `Pool.Region`: a part of the program that at most one thread is in at a time, with an assertion
  `A` at each of its program points and `Q` while it is empty.  `Region.Guarded` lists what every
  kind of step owes the region, and `Region.held` is what a run gets for it.
* `Pool.Among`, `Pool.Solo`: the configurations in which only some threads, or one alone, have left
  their starting point; `Among.reach`, `Solo.reach` turn executions of these into runs.
-/

namespace Transition

/-- A program for the threads of a pool, and its environment. -/
structure Pool (W π α η : Type*) where
  init : W → Prop
  start : π
  act : α → π → W → Option (W × π)
  env : η → W → Option W

namespace Pool

/-- A configuration: the shared state, and where every thread is. -/
structure Config (ι W π : Type*) where
  shared : W
  pc : ι → π

/-- A thread takes a step, or the environment does. -/
inductive Event (ι α η : Type*)
  | run (c : ι) (a : α)
  | env (e : η)

variable {ι W π α η : Type*} [DecidableEq ι] {P : Pool W π α η}

/-- The interleavings of the threads `ι` and the environment. -/
def system (P : Pool W π α η) (ι : Type*) [DecidableEq ι] :
    System (Config ι W π) (Event ι α η) where
  init s := P.init s.shared ∧ ∀ c, s.pc c = P.start
  step s
    | .run c a => (P.act a (s.pc c) s.shared).map fun r => ⟨r.1, Function.update s.pc c r.2⟩
    | .env e => (P.env e s.shared).map fun w => ⟨w, s.pc⟩

lemma step_run_iff {s s' : Config ι W π} {c : ι} {a : α} :
    (P.system ι).step s (.run c a) = some s' ↔
      ∃ w p, P.act a (s.pc c) s.shared = some (w, p) ∧ s' = ⟨w, Function.update s.pc c p⟩ := by
  simp only [system, Option.map_eq_some_iff, Prod.exists, eq_comm (b := s')]

lemma step_env_iff {s s' : Config ι W π} {e : η} :
    (P.system ι).step s (.env e) = some s' ↔
      ∃ w, P.env e s.shared = some w ∧ s' = ⟨w, s.pc⟩ := by
  simp only [system, Option.map_eq_some_iff, eq_comm (b := s')]

/-! ### Regions of mutual exclusion -/

/-- A region of the program: its points, the assertion at each of them, and the one that holds
while no thread is in the region. -/
structure Region (W π : Type*) where
  In : π → Prop
  A : π → W → Prop
  Q : W → Prop

namespace Region

/-- At most one thread is in the region; its assertion holds, or `Q` does if there is none. -/
structure Held (R : Region W π) (s : Config ι W π) : Prop where
  unique : ∀ c d, R.In (s.pc c) → R.In (s.pc d) → c = d
  inside : ∀ c, R.In (s.pc c) → R.A (s.pc c) s.shared
  empty : (∀ c, ¬ R.In (s.pc c)) → R.Q s.shared

/-- What the steps that meet `C` owe the region. -/
structure Guarded (R : Region W π) (P : Pool W π α η) (ι : Type*) [DecidableEq ι]
    (C : Config ι W π → Event ι α η → Prop) : Prop where
  init : ∀ w, P.init w → R.Q w
  start : ¬ R.In P.start
  /-- A thread enters an empty region. -/
  enter : ∀ {s c a w p}, (P.system ι).Reach C s → C s (.run c a) → R.Held s →
    P.act a (s.pc c) s.shared = some (w, p) → ¬ R.In (s.pc c) → R.In p →
      (∀ d, ¬ R.In (s.pc d)) ∧ (R.Q s.shared → R.A p w)
  /-- The thread in the region moves on, or leaves. -/
  within : ∀ {s c a w p}, (P.system ι).Reach C s → C s (.run c a) →
    P.act a (s.pc c) s.shared = some (w, p) → R.In (s.pc c) → R.A (s.pc c) s.shared →
      (R.In p → R.A p w) ∧ (¬ R.In p → R.Q w)
  /-- A thread that stays outside does not interfere. -/
  outside : ∀ {s c a w p}, (P.system ι).Reach C s → C s (.run c a) →
    P.act a (s.pc c) s.shared = some (w, p) → ¬ R.In (s.pc c) → ¬ R.In p →
      (R.Q s.shared → R.Q w) ∧ ∀ q, R.In q → R.A q s.shared → R.A q w
  /-- Neither does the environment. -/
  env : ∀ {s e w}, (P.system ι).Reach C s → C s (.env e) → P.env e s.shared = some w →
      (R.Q s.shared → R.Q w) ∧ ∀ q, R.In q → R.A q s.shared → R.A q w

variable {R : Region W π} {C : Config ι W π → Event ι α η → Prop}

lemma Guarded.held_run (hR : R.Guarded P ι C) {s : Config ι W π} {c : ι} {a : α} {w : W} {p : π}
    (hs : (P.system ι).Reach C s) (hC : C s (.run c a)) (hheld : R.Held s)
    (hact : P.act a (s.pc c) s.shared = some (w, p)) :
    R.Held (⟨w, Function.update s.pc c p⟩ : Config ι W π) := by
  have hself : Function.update s.pc c p c = p := Function.update_self c p s.pc
  have hother : ∀ d, d ≠ c → Function.update s.pc c p d = s.pc d :=
    fun d hd => Function.update_of_ne hd p s.pc
  by_cases hin : R.In (s.pc c)
  · -- the thread of the region: nobody else is in it, before and after
    obtain ⟨hstay, hleave⟩ := hR.within hs hC hact hin (hheld.inside c hin)
    have halone : ∀ d, R.In (Function.update s.pc c p d) → d = c := by
      intro d hd
      by_contra hne
      rw [hother d hne] at hd
      exact hne (hheld.unique d c hd hin)
    refine ⟨fun d e hd he => (halone d hd).trans (halone e he).symm, ?_, ?_⟩
    · intro d hd
      obtain rfl := halone d hd
      simp only [hself] at hd ⊢
      exact hstay hd
    · intro hnone
      have hout : ¬ R.In (Function.update s.pc c p c) := hnone c
      rw [hself] at hout
      exact hleave hout
  · by_cases hin' : R.In p
    · obtain ⟨hnobody, hA⟩ := hR.enter hs hC hheld hact hin hin'
      have halone : ∀ d, R.In (Function.update s.pc c p d) → d = c := by
        intro d hd
        by_contra hne
        rw [hother d hne] at hd
        exact hnobody d hd
      refine ⟨fun d e hd he => (halone d hd).trans (halone e he).symm, ?_, ?_⟩
      · intro d hd
        obtain rfl := halone d hd
        simp only [hself]
        exact hA (hheld.empty hnobody)
      · intro hnone
        have hout : ¬ R.In (Function.update s.pc c p c) := hnone c
        rw [hself] at hout
        exact absurd hin' hout
    · obtain ⟨hQ, hA⟩ := hR.outside hs hC hact hin hin'
      have hne : ∀ d, R.In (Function.update s.pc c p d) → d ≠ c := by
        rintro d hd rfl
        rw [hself] at hd
        exact hin' hd
      have hback : ∀ d, R.In (Function.update s.pc c p d) → R.In (s.pc d) := by
        intro d hd
        rw [hother d (hne d hd)] at hd
        exact hd
      refine ⟨fun d e hd he => hheld.unique d e (hback d hd) (hback e he), ?_, ?_⟩
      · intro d hd
        simp only [hother d (hne d hd)]
        exact hA _ (hback d hd) (hheld.inside d (hback d hd))
      · intro hnone
        refine hQ (hheld.empty fun d hd => ?_)
        by_cases hdc : d = c
        · exact hin (hdc ▸ hd)
        · have hout : ¬ R.In (Function.update s.pc c p d) := hnone d
          rw [hother d hdc] at hout
          exact hout hd

/-- **The region rule**: along every run whose steps meet `C`, a guarded region is held. -/
theorem Guarded.held (hR : R.Guarded P ι C) {s : Config ι W π}
    (h : (P.system ι).Reach C s) : R.Held s := by
  refine h.invariant R.Held ?_ ?_
  · rintro s ⟨hw, hpc⟩
    have hout : ∀ c, ¬ R.In (s.pc c) := fun c => by rw [hpc c]; exact hR.start
    exact ⟨fun c _ hc => absurd hc (hout c), fun c hc => absurd hc (hout c), fun _ => hR.init _ hw⟩
  · intro s e s' hs hheld hC hstep
    cases e with
    | run c a =>
        obtain ⟨w, p, hact, rfl⟩ := step_run_iff.mp hstep
        exact hR.held_run hs hC hheld hact
    | env e =>
        obtain ⟨w, henv, rfl⟩ := step_env_iff.mp hstep
        obtain ⟨hQ, hA⟩ := hR.env hs hC henv
        exact ⟨hheld.unique, fun c hc => hA _ hc (hheld.inside c hc), fun h => hQ (hheld.empty h)⟩

end Region

/-! ### A few threads -/

/-- Only threads of `cs` have left their starting point. -/
def Among (P : Pool W π α η) (cs : List ι) (s : Config ι W π) : Prop := ∀ d ∉ cs, s.pc d = P.start

/-- An event that is not a step of a thread outside `cs`. -/
def Event.among (cs : List ι) : Event ι α η → Bool
  | .run d _ => decide (d ∈ cs)
  | .env _ => true

lemma Among.step {cs : List ι} {s s' : Config ι W π} {e : Event ι α η} (h : Among P cs s)
    (he : e.among cs = true) (hstep : (P.system ι).step s e = some s') : Among P cs s' := by
  cases e with
  | run c a =>
      have hc : c ∈ cs := by simpa [Event.among] using he
      obtain ⟨w, p, -, rfl⟩ := step_run_iff.mp hstep
      intro d hd
      have hne : d ≠ c := fun heq => hd (heq ▸ hc)
      simpa [Function.update_of_ne hne] using h d hd
  | env e =>
      obtain ⟨w, -, rfl⟩ := step_env_iff.mp hstep
      exact h

/-- An execution in which only threads of `cs` take steps is a run. -/
lemma Among.reach {cs : List ι} {check : Config ι W π → Event ι α η → Bool}
    {C : Config ι W π → Event ι α η → Prop} (hby : ∀ s e, check s e = true → e.among cs = true)
    (hC : ∀ s e, Among P cs s → check s e = true → C s e) {es : List (Event ι α η)}
    {s s' : Config ι W π} (hinit : (P.system ι).init s)
    (hrun : (P.system ι).exec check s es = some s') : (P.system ι).Reach C s' :=
  .of_exec (J := Among P cs) (fun s e _ hamong he hstep => hamong.step (hby s e he) hstep) hC
    (.init hinit) (fun d _ => hinit.2 d) hrun

/-- Only thread `c` has left its starting point. -/
def Solo (P : Pool W π α η) (c : ι) (s : Config ι W π) : Prop := ∀ d, d ≠ c → s.pc d = P.start

/-- An event that is not a step of another thread. -/
def Event.by (c : ι) : Event ι α η → Bool
  | .run d _ => decide (d = c)
  | .env _ => true

/-- An execution in which one thread alone takes steps is a run. -/
lemma Solo.reach {c : ι} {check : Config ι W π → Event ι α η → Bool}
    {C : Config ι W π → Event ι α η → Prop} (hby : ∀ s e, check s e = true → e.by c = true)
    (hC : ∀ s e, Solo P c s → check s e = true → C s e) {es : List (Event ι α η)}
    {s s' : Config ι W π} (hinit : (P.system ι).init s)
    (hrun : (P.system ι).exec check s es = some s') : (P.system ι).Reach C s' := by
  have hamong : ∀ s e, check s e = true → e.among [c] = true := by
    intro s e he
    have hc := hby s e he
    cases e with
    | run d a => simpa [Event.among, Event.by] using hc
    | env e => rfl
  exact Among.reach hamong
    (fun s e h => hC s e fun d hd => h d (List.mem_singleton.not.mpr hd)) hinit hrun

end Pool

end Transition
