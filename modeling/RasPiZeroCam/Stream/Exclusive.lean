import RasPiZeroCam.Stream.Clients
import RasPiZeroCam.Stream.Outline

/-!
Resolution switches of several clients, and the pipelines and threads they handle.

* `Ledger`: every pipeline made so far has been released once, or it is the one `pipeline_` points
  to.
* `Exclusive`: at most one pipeline exists, the ledger balances, no thread is joined twice or
  assigned to while joinable.
* `switches_exclusive`: it holds along the runs in which no `set_resolution` begins while another
  one is at work, and no pipeline comes together with an error.
* `two_switches_two_pipelines`: two switches that overlap leave two pipelines.
-/

namespace RasPiZeroCam

open Transition Pool

/-! ### The ledger of pipelines -/

/-- The pipelines made, and what became of them. -/
structure Ledger (w : World) : Prop where
  made : ∀ i, .pipeline i ∈ w.acquired ↔ i < w.made
  current : ∀ p, w.pipeline = some p → p.id < w.made ∧ w.released.count (.pipeline p.id) = 0
  past : ∀ i, i < w.made → (∀ p, w.pipeline = some p → p.id ≠ i) →
    w.released.count (.pipeline i) = 1
  future : ∀ i, w.made ≤ i → w.released.count (.pipeline i) = 0

/-- The ledger looks at the pipelines only. -/
lemma Ledger.of_counts {w w' : World} (h : Ledger w)
    (a : ∀ i, .pipeline i ∈ w'.acquired ↔ .pipeline i ∈ w.acquired)
    (r : ∀ i, w'.released.count (.pipeline i) = w.released.count (.pipeline i))
    (p : w'.pipeline = w.pipeline) (m : w'.made = w.made) : Ledger w' where
  made i := by rw [a, m, h.made]
  current q hq := by
    rw [m, r]
    exact h.current q (p ▸ hq)
  past i hi hq := by
    rw [r]
    exact h.past i (m ▸ hi) fun q hpipe => hq q (p ▸ hpipe)
  future i hi := by
    rw [r]
    exact h.future i (m ▸ hi)

/-- What the ledger is read from. -/
def World.refView (w : World) : List Ref × List Ref × Option Pipeline × ℕ :=
  (w.acquired, w.released, w.pipeline, w.made)

lemma Ledger.congr {w w' : World} (h : Ledger w) (hview : w'.refView = w.refView) : Ledger w' := by
  simp only [World.refView, Prod.mk.injEq] at hview
  obtain ⟨ha, hr, hp, hm⟩ := hview
  exact h.of_counts (fun i => by rw [ha]) (fun i => by rw [hr]) hp hm

lemma Ledger.newPipeline {w : World} (h : Ledger w) (hnone : w.pipeline = none) :
    Ledger w.newPipeline where
  made i := by
    simp only [World.newPipeline, List.mem_append, h.made, List.mem_singleton, Ref.pipeline.injEq]
    omega
  current p hp := by
    cases hp
    exact ⟨Nat.lt_succ_self _, h.future _ le_rfl⟩
  past i hi hp := by
    have hne : w.made ≠ i := hp ⟨w.made, w.cfg⟩ rfl
    have hlt : i < w.made := by
      simp only [World.newPipeline] at hi
      omega
    exact h.past i hlt fun p hpipe => by rw [hnone] at hpipe; cases hpipe
  future i hi := h.future i (Nat.le_of_succ_le hi)

lemma Ledger.releasePipeline {w : World} (h : Ledger w) : Ledger w.releasePipeline := by
  cases hp : w.pipeline with
  | none =>
      exact h.of_counts (fun _ => Iff.rfl) (fun i => by simp [World.releasePipeline, hp])
        hp.symm rfl
  | some p =>
      obtain ⟨hlt, hzero⟩ := h.current p hp
      have hcount : ∀ i, w.releasePipeline.released.count (.pipeline i) =
          w.released.count (.pipeline i) + if p.id = i then 1 else 0 := by
        intro i
        simp [World.releasePipeline, hp, List.count_append, List.count_singleton]
      refine ⟨h.made, fun q hq => (by cases hq), ?_, ?_⟩
      · intro i hi _
        rw [hcount]
        by_cases hpi : p.id = i
        · rw [← hpi, if_pos rfl, hzero]
        · rw [if_neg hpi, Nat.add_zero]
          refine h.past i hi fun q hq => ?_
          rw [hp] at hq
          cases hq
          exact hpi
      · intro i hi
        have hpi : p.id ≠ i := by
          simp only [World.releasePipeline] at hi
          omega
        rw [hcount, if_neg hpi, Nat.add_zero]
        exact h.future i hi

lemma count_append_element {l : List Ref} {x : Option ℕ} {f : ℕ → Ref}
    (hf : ∀ i j, f i ≠ .pipeline j) (i : ℕ) :
    (l ++ (x.map f).toList).count (.pipeline i) = l.count (.pipeline i) := by
  cases x with
  | none => simp
  | some j => simp [List.count_append, hf]

lemma mem_append_element {l : List Ref} {x : Option ℕ} {f : ℕ → Ref}
    (hf : ∀ i j, f i ≠ .pipeline j) (i : ℕ) :
    .pipeline i ∈ l ++ (x.map f).toList ↔ .pipeline i ∈ l := by
  cases x with
  | none => simp
  | some j => simp [(hf j i).symm]

lemma Ledger.releaseAppsink {w : World} (h : Ledger w) : Ledger w.releaseAppsink :=
  h.of_counts (fun _ => Iff.rfl) (count_append_element (by simp)) rfl rfl

lemma Ledger.releaseRecSink {w : World} (h : Ledger w) : Ledger w.releaseRecSink :=
  h.of_counts (fun _ => Iff.rfl) (count_append_element (by simp)) rfl rfl

lemma Ledger.releaseBus {w : World} (h : Ledger w) : Ledger w.releaseBus :=
  h.of_counts (fun _ => Iff.rfl) (count_append_element (by simp)) rfl rfl

lemma Ledger.getElements {w : World} (h : Ledger w) (o : Choice) : Ledger (w.getElements o) :=
  h.of_counts (fun i => by
    simp only [World.getElements]
    rw [mem_append_element (by simp), mem_append_element (by simp), mem_append_element (by simp)])
    (fun _ => rfl) rfl rfl

lemma stopRecordingStep_ledger {o : Choice} {p : StopRecordingPc} {w w' : World}
    {n : Next StopRecordingPc Bool} (h : Ledger w)
    (hstep : stopRecordingStep o p w = some (w', n)) : Ledger w' := by
  cases p <;> simp only [stopRecordingStep, Option.some.injEq, Prod.mk.injEq] at hstep
  case stopRecorder =>
      cases hr : w.recorder <;> rw [hr] at hstep <;> cases hstep <;> exact h.congr rfl
  all_goals
    obtain ⟨rfl, -⟩ := hstep
    exact h.congr rfl

lemma stopStep_ledger {o : Choice} {p : StopPc} {w w' : World} {n : Next StopPc Unit}
    (h : Ledger w) (hstep : stopStep o p w = some (w', n)) : Ledger w' := by
  cases p <;> simp only [stopStep, Option.some.injEq, Prod.mk.injEq] at hstep
  case stopRecording p =>
      obtain ⟨⟨v, m⟩, hbody, hland⟩ := Option.map_eq_some_iff.mp hstep
      cases hland
      exact stopRecordingStep_ledger h hbody
  case joinRecThread =>
      cases ht : w.recThread <;> rw [ht] at hstep <;> cases hstep <;> exact h.congr rfl
  case joinBusThread =>
      cases ht : w.busThread <;> rw [ht] at hstep <;> cases hstep <;> exact h.congr rfl
  case releaseAppsink =>
      obtain ⟨rfl, -⟩ := hstep
      exact h.releaseAppsink
  case releaseRecSink =>
      obtain ⟨rfl, -⟩ := hstep
      exact h.releaseRecSink
  case releaseBus =>
      obtain ⟨rfl, -⟩ := hstep
      exact h.releaseBus
  case releasePipeline =>
      obtain ⟨rfl, -⟩ := hstep
      exact h.releasePipeline
  all_goals
    obtain ⟨rfl, -⟩ := hstep
    exact h.congr rfl

/-- `start` makes its pipeline when there is none. -/
lemma startStep_ledger (strict : Bool) {o : Choice} {p : StartPc} {w w' : World}
    {n : Next StartPc Bool} (hA : StartA strict p w) (h : Ledger w)
    (hstep : startStep o p w = some (w', n)) : Ledger w' := by
  cases p <;> simp only [startStep, Option.some.injEq, Prod.mk.injEq] at hstep
  case parseLaunch =>
      cases hparse : o.parse <;> rw [hparse] at hstep <;> cases hstep
      · exact h.of_counts (fun _ => Iff.rfl) (fun _ => rfl) (Down.pipeline hA).symm rfl
      · exact h.newPipeline (Down.pipeline hA)
      · exact h.newPipeline (Down.pipeline hA)
  case getElements =>
      split_ifs at hstep <;> cases hstep
      · exact (h.getElements o).releasePipeline
      · exact h.getElements o
  case setPlaying =>
      split_ifs at hstep <;> cases hstep
      · exact h
      · exact h.releaseAppsink.releaseRecSink.releaseBus.releasePipeline
  case spawnRecThread =>
      split_ifs at hstep <;> cases hstep <;> exact h.congr rfl
  case spawnBusThread =>
      split_ifs at hstep <;> cases hstep <;> exact h.congr rfl
  all_goals
    obtain ⟨rfl, -⟩ := hstep
    exact h.congr rfl

lemma setResolutionStep_ledger {strict : Bool} {cfg : ResolutionConfig} {o : Choice}
    {p : SetResolutionPc} {w w' : World} {n : Next SetResolutionPc Bool}
    (hA : SetResolutionA strict p w) (h : Ledger w)
    (hstep : setResolutionStep cfg o p w = some (w', n)) : Ledger w' := by
  cases p with
  | testRecording =>
      cases hstep
      exact h
  | stopRecording p =>
      obtain ⟨⟨v, m⟩, hbody, hland⟩ := Option.map_eq_some_iff.mp hstep
      cases hland
      exact stopRecordingStep_ledger h hbody
  | stop p =>
      obtain ⟨⟨v, m⟩, hbody, hland⟩ := Option.map_eq_some_iff.mp hstep
      cases hland
      exact stopStep_ledger h hbody
  | setCfg =>
      cases hstep
      exact h.congr rfl
  | start p =>
      obtain ⟨⟨v, m⟩, hbody, hland⟩ := Option.map_eq_some_iff.mp hstep
      cases hland
      exact startStep_ledger strict hA h hbody

lemma ledger_started (cfg : ResolutionConfig) : Ledger (Clients.started cfg) where
  made i := by
    simp only [Clients.started, List.mem_cons, Ref.pipeline.injEq, reduceCtorEq, List.not_mem_nil,
      or_false]
    omega
  current p hp := by
    cases hp
    exact ⟨Nat.one_pos, rfl⟩
  past i hi hp := by
    obtain rfl : i = 0 := by
      simp only [Clients.started] at hi
      omega
    exact absurd rfl (hp ⟨0, cfg⟩ rfl)
  future _ _ := rfl

/-! ### One switch at a time -/

namespace Clients

/-- The only command is `set_resolution`, and the bus reports no ERROR or EOS. -/
def SwitchesOnly (s : State) : Step → Prop
  | .run c (cmd, _) => s.pc c = .idle → ∃ w h, cmd = .setResolution w h
  | .env (.message m) => m = .warning
  | _ => True

/-- A call of `set_resolution` is past its first statement. -/
def InSwitch : Pc → Prop
  | .setResolution _ p => p ≠ .testRecording
  | _ => False

/-- `set_resolution` begins while no other call of it is at work, and `gst_parse_launch` does not
give back a pipeline together with an error. -/
def OneAtATime (s : State) : Step → Prop
  | .run c (_, o) =>
      (∀ cfg, s.pc c = .setResolution cfg .testRecording → ∀ d, ¬ InSwitch (s.pc d)) ∧
        ∀ p, startPoint (s.pc c) = some p → CleanStart false o p
  | _ => True

/-- `stop` waits for the drain thread. -/
def JoinsRec : Pc → Prop
  | .setResolution _ (.stop p) => p = .joinRecThread
  | _ => False

/-- `stop` waits for the bus thread. -/
def JoinsBus : Pc → Prop
  | .setResolution _ (.stop p) => p = .joinBusThread
  | _ => False

/-- The thread that the next statement of `start` assigns to is not joinable. -/
def Unjoinable : StartPc → World → Prop
  | .spawnRecThread, w => w.recThread.joinable = false
  | .spawnBusThread, w => w.busThread.joinable = false
  | _, _ => True

/-- The pipeline `i` exists. -/
def Live (w : World) (i : ℕ) : Prop := .pipeline i ∈ w.acquired ∧ .pipeline i ∉ w.released

/-- The source's pipelines and threads are handled by one switch at a time. -/
structure Exclusive (s : State) : Prop where
  one : ∀ i j, Live s.shared.toWorld i → Live s.shared.toWorld j → i = j
  once : ∀ i, .pipeline i ∈ s.shared.acquired →
    s.shared.released.count (.pipeline i) = 1 ∨
      (Live s.shared.toWorld i ∧ ∃ p, s.shared.pipeline = some p ∧ p.id = i)
  joinsRec : ∀ c d, JoinsRec (s.pc c) → JoinsRec (s.pc d) → c = d
  joinsBus : ∀ c d, JoinsBus (s.pc c) → JoinsBus (s.pc d) → c = d
  assigns : ∀ c p, startPoint (s.pc c) = some p → Unjoinable p s.shared.toWorld

/-- The switch that is at work. -/
def switchRegion : Region Server Pc where
  In := InSwitch
  A
    | .setResolution _ p, s => SetResolutionA false p s.toWorld ∧ Ledger s.toWorld
    | _, _ => False
  Q s := Settled false s.toWorld ∧ Ledger s.toWorld

/-- With `set_resolution` alone, every client is in its handler. -/
def Switching : Pc → Prop
  | .idle => True
  | .lockCfg _ => True
  | .setCfgPtr _ => True
  | .unlockCfg _ => True
  | .setResolution _ _ => True
  | _ => False

/-- A step of `set_resolution` in the pool. -/
lemma program_setResolution {a : Command × Choice} {cfg : ResolutionConfig} {p : SetResolutionPc}
    {s s' : Server} {q : Pc} (h : program a (.setResolution cfg p) s = some (s', q))
    (hclean : CleanSwitch false a.2 p) (hA : SetResolutionA false p s.toWorld)
    (hl : Ledger s.toWorld) :
    Ledger s'.toWorld ∧ ((∃ p', q = .setResolution cfg p' ∧ SetResolutionA false p' s'.toWorld) ∨
      (q = .idle ∧ Settled false s'.toWorld)) := by
  obtain ⟨w, hcall, rfl⟩ := onWorld_eq_some h
  refine ⟨?_, ?_⟩
  · obtain ⟨p', hbody, -⟩ | ⟨r, hbody, -⟩ | ⟨rfl, -⟩ := stepCall_cases hcall
    · exact setResolutionStep_ledger hA hl hbody
    · exact setResolutionStep_ledger hA hl hbody
    · exact hl.congr rfl
  · obtain ⟨p', rfl, hp⟩ | ⟨r, rfl, hr⟩ :=
      stepCall_of_outline hcall (setResolution_outline false cfg) hclean hA
    · exact Or.inl ⟨p', rfl, hp⟩
    · exact Or.inr ⟨rfl, hr⟩

lemma switching_act {a : Command × Choice} {p q : Pc} {s s' : Server} (hp : Switching p)
    (hcmd : p = .idle → ∃ w h, a.1 = .setResolution w h) (h : act a p s = some (s', q)) :
    Switching q := by
  replace h := program_of_act h
  cases p
  case idle =>
      obtain ⟨w, h', hcmd⟩ := hcmd rfl
      cases h
      rw [hcmd]
      trivial
  case lockCfg cfg =>
      obtain ⟨-, -, rfl⟩ := lockRes_eq_some h
      trivial
  case setCfgPtr cfg =>
      cases h
      trivial
  case unlockCfg cfg =>
      cases h
      trivial
  case setResolution cfg p =>
      obtain ⟨-, -, -, rfl, -⟩ | ⟨-, -, -, rfl, -⟩ | ⟨rfl, -⟩ := onWorld_stepCall_cases h <;>
        trivial
  all_goals exact absurd hp id

lemma switching_of_reach {s : State}
    (h : (clients.system ℕ).Reach (fun s e => SwitchesOnly s e ∧ OneAtATime s e) s) (c : ℕ) :
    Switching (s.pc c) := by
  refine h.invariant (fun s => ∀ c, Switching (s.pc c)) ?_ ?_ c
  · rintro s ⟨-, hpc⟩ c
    rw [hpc c]
    trivial
  · intro s e s' _ hs hC hstep c
    cases e with
    | run d a =>
        obtain ⟨t, q, hact, rfl⟩ := step_run_iff.mp hstep
        by_cases hcd : c = d
        · subst hcd
          simp only [Function.update_self]
          exact switching_act (hs c) hC.1 hact
        · simp only [Function.update_of_ne hcd]
          exact hs c
    | env e =>
        obtain ⟨t, henv, rfl⟩ := step_env_iff.mp hstep
        exact hs c

lemma cleanSwitch_of_oneAtATime {s : State} {c : ℕ} {a : Command × Choice}
    {cfg : ResolutionConfig} {p : SetResolutionPc} (hC : OneAtATime s (.run c a))
    (hp : s.pc c = .setResolution cfg p) : CleanSwitch false a.2 p := by
  cases p with
  | start p => exact hC.2 p (by rw [hp, startPoint])
  | _ => trivial

/-- The region looks at the source only. -/
lemma switchRegion_world {s t : Server}
    (hsettled : Settled false s.toWorld → Settled false t.toWorld)
    (hswitch : ∀ p, SetResolutionA false p s.toWorld → SetResolutionA false p t.toWorld)
    (hl : Ledger s.toWorld → Ledger t.toWorld) :
    (switchRegion.Q s → switchRegion.Q t) ∧
      ∀ q, InSwitch q → switchRegion.A q s → switchRegion.A q t := by
  refine ⟨fun hQ => ⟨hsettled hQ.1, hl hQ.2⟩, fun q hq hA => ?_⟩
  cases q with
  | setResolution cfg p => exact ⟨hswitch p hA.1, hl hA.2⟩
  | _ => exact absurd hq id

lemma switchRegion_congr {s t : Server} (h : t.toWorld = s.toWorld) :
    (switchRegion.Q s → switchRegion.Q t) ∧
      ∀ q, InSwitch q → switchRegion.A q s → switchRegion.A q t := by
  refine switchRegion_world ?_ (fun p => ?_) ?_ <;> rw [h] <;> exact id

/-- What happens around the clients leaves the switch alone. -/
lemma switchRegion_around {e : Env} {s t : Server} (hmsg : ∀ m, e = .message m → m = .warning)
    (h : around e s = some t) :
    (switchRegion.Q s → switchRegion.Q t) ∧
      ∀ q, InSwitch q → switchRegion.A q s → switchRegion.A q t := by
  obtain ⟨-, hsame | hexit | ⟨m, he, hw⟩⟩ := around_cases h
  · exact switchRegion_congr hsame
  · have hledger : Ledger s.toWorld → Ledger t.toWorld := by
      intro hl
      obtain ⟨-, hw⟩ | ⟨-, hw⟩ := hexit.cases
      · rw [hw]
        exact hl.congr rfl
      · rw [hw]
        exact hl.congr rfl
    exact switchRegion_world (fun hs => hs.exit hexit)
      (fun p hp => SetResolutionA.exit hp hexit) hledger
  · rw [hmsg m he] at hw
    exact switchRegion_congr (busMessage_warning hw)

/-- Outside the switch a client is at the first statement of `set_resolution`, from where it
enters, or leaves the source alone and stays outside. -/
lemma outside_act {a : Command × Choice} {p q : Pc} {s t : Server} (hp : Switching p)
    (hout : ¬ InSwitch p) (h : act a p s = some (t, q)) :
    (∃ cfg, p = .setResolution cfg .testRecording ∧ InSwitch q) ∨
      (t.toWorld = s.toWorld ∧ ¬ InSwitch q) := by
  replace h := program_of_act h
  cases p
  case idle =>
      cases h
      refine Or.inr ⟨rfl, ?_⟩
      cases a.1 <;> exact id
  case lockCfg cfg =>
      obtain ⟨-, rfl, rfl⟩ := lockRes_eq_some h
      exact Or.inr ⟨rfl, id⟩
  case setCfgPtr cfg =>
      cases h
      exact Or.inr ⟨rfl, id⟩
  case unlockCfg cfg =>
      cases h
      exact Or.inr ⟨rfl, fun hq => hq rfl⟩
  case setResolution cfg p =>
      obtain rfl : p = .testRecording := by
        by_contra hne
        exact hout hne
      refine Or.inl ⟨cfg, rfl, ?_⟩
      obtain ⟨w, p', hbody, rfl, -⟩ | ⟨w, r, hbody, -⟩ | ⟨rfl, rfl⟩ := onWorld_stepCall_cases h
      · cases hbody
        cases s.recording <;> exact SetResolutionPc.noConfusion
      · cases hbody
      · obtain ⟨w, hcall, -⟩ := onWorld_eq_some h
        cases hrec : s.recording <;> simp [stepCall, setResolutionStep, hrec] at hcall
  all_goals exact absurd hp id

lemma switchRegion_guarded :
    switchRegion.Guarded clients ℕ fun s e => SwitchesOnly s e ∧ OneAtATime s e where
  init := by
    rintro s ⟨cfg, rfl⟩
    refine ⟨Or.inl ⟨rfl, Or.inl ⟨rfl, rfl, ?_⟩⟩, ledger_started cfg⟩
    intro r hr
    cases hr
  start := id
  enter := by
    intro s c a t q hs hC hheld hact hout hin
    obtain ⟨cfg, hpc, -⟩ | ⟨-, hout'⟩ := outside_act (switching_of_reach hs c) hout hact
    · refine ⟨hC.2.1 cfg hpc, ?_⟩
      rintro ⟨hsettled, hl⟩
      rw [hpc] at hact
      obtain ⟨hl', ⟨p', rfl, hA⟩ | ⟨rfl, -⟩⟩ :=
        program_setResolution (program_of_act hact) trivial hsettled hl
      · exact ⟨hA, hl'⟩
      · exact absurd hin id
    · exact absurd hin hout'
  within := by
    intro s c a t q hs hC hact hin hA
    cases hpc : s.pc c with
    | setResolution cfg p =>
        rw [hpc] at hact hA
        obtain ⟨hl', ⟨p', rfl, hA'⟩ | ⟨rfl, hsettled⟩⟩ :=
          program_setResolution (program_of_act hact) (cleanSwitch_of_oneAtATime hC.2 hpc) hA.1 hA.2
        · refine ⟨fun _ => ⟨hA', hl'⟩, fun hout => ?_⟩
          obtain rfl : p' = .testRecording := by
            by_contra hne
            exact hout hne
          exact ⟨hA', hl'⟩
        · exact ⟨fun hin' => absurd hin' id, fun _ => ⟨hsettled, hl'⟩⟩
    | _ =>
        rw [hpc] at hin
        exact absurd hin id
  outside := by
    intro s c a t q hs hC hact hout hout'
    obtain ⟨-, -, hin⟩ | ⟨hworld, -⟩ := outside_act (switching_of_reach hs c) hout hact
    · exact absurd hin hout'
    · exact switchRegion_congr hworld
  env := by
    intro s e t hs hC henv
    refine switchRegion_around (fun m hm => ?_) (around_of_env henv)
    subst hm
    exact hC.1

lemma Exclusive.of_ledger {w : World} (h : Ledger w) :
    (∀ i j, Live w i → Live w j → i = j) ∧
      ∀ i, .pipeline i ∈ w.acquired → w.released.count (.pipeline i) = 1 ∨
        (Live w i ∧ ∃ p, w.pipeline = some p ∧ p.id = i) := by
  have hone : ∀ i, Live w i → ∃ p, w.pipeline = some p ∧ p.id = i := by
    intro i hi
    by_contra hno
    have hcount := h.past i ((h.made i).mp hi.1) fun p hp hpi => hno ⟨p, hp, hpi⟩
    rw [List.count_eq_zero_of_not_mem hi.2] at hcount
    cases hcount
  refine ⟨fun i j hi hj => ?_, fun i hi => ?_⟩
  · obtain ⟨p, hp, rfl⟩ := hone i hi
    obtain ⟨p', hp', rfl⟩ := hone j hj
    rw [hp] at hp'
    cases hp'
    rfl
  · by_cases hp : ∃ p, w.pipeline = some p ∧ p.id = i
    · obtain ⟨p, hp, rfl⟩ := hp
      exact Or.inr ⟨⟨hi, List.count_eq_zero.mp (h.current p hp).2⟩, p, hp, rfl⟩
    · exact Or.inl (h.past i ((h.made i).mp hi) fun p hp' hpi => hp ⟨p, hp', hpi⟩)

end Clients

open Clients

/-- **Switches that do not overlap handle one pipeline at a time**, release each once, and neither
join a thread twice nor assign to a joinable one. -/
theorem switches_exclusive {s : Clients.State}
    (h : (clients.system ℕ).Reach (fun s e => SwitchesOnly s e ∧ OneAtATime s e) s) :
    Exclusive s := by
  have hheld := switchRegion_guarded.held h
  have hledger : Ledger s.shared.toWorld := by
    by_cases hin : ∃ c, InSwitch (s.pc c)
    · obtain ⟨c, hc⟩ := hin
      have hA := hheld.inside c hc
      cases hpc : s.pc c with
      | setResolution cfg p =>
          rw [hpc] at hA
          exact hA.2
      | _ =>
          rw [hpc] at hc
          exact absurd hc id
    · exact (hheld.empty fun c hc => hin ⟨c, hc⟩).2
  have hjoin : ∀ p : Pc, (JoinsRec p ∨ JoinsBus p) → InSwitch p := by
    intro p hp
    cases p with
    | setResolution cfg p => cases p <;> simp [JoinsRec, JoinsBus, InSwitch] at hp ⊢
    | _ => simp [JoinsRec, JoinsBus] at hp
  refine ⟨(Exclusive.of_ledger hledger).1, (Exclusive.of_ledger hledger).2, ?_, ?_, ?_⟩
  · intro c d hc hd
    exact hheld.unique c d (hjoin _ (Or.inl hc)) (hjoin _ (Or.inl hd))
  · intro c d hc hd
    exact hheld.unique c d (hjoin _ (Or.inr hc)) (hjoin _ (Or.inr hd))
  · intro c p hp
    cases hpc : s.pc c with
    | setResolution cfg q =>
        have hA := hheld.inside c
        rw [hpc] at hp hA
        cases q with
        | start q =>
            cases hp
            have hstart : StartA false p s.shared.toWorld := (hA SetResolutionPc.noConfusion).1
            cases p with
            | spawnRecThread =>
                rw [Unjoinable, Halted.recThread hstart]
                rfl
            | spawnBusThread =>
                rw [Unjoinable, hstart.2]
                rfl
            | _ => trivial
        | _ => cases hp
    | _ =>
        rw [hpc] at hp
        cases hp

namespace Clients

/-- Client 0 alone switches, and nothing fails. -/
def switchesAlone (s : State) : Step → Bool
  | .run c (.setResolution _ _, o) => c = 0 && (!(startPoint (s.pc 0)).isSome || o.parse = .ok)
  | .run _ _ => false
  | .env (.message _) => false
  | .env _ => true

lemma oneAtATime_of_switchesAlone {s : State} {e : Step} (hsolo : Solo clients 0 s)
    (h : switchesAlone s e = true) : SwitchesOnly s e ∧ OneAtATime s e := by
  cases e with
  | run c a =>
      obtain ⟨cmd, o⟩ := a
      cases cmd with
      | setResolution w h' =>
          simp only [switchesAlone, Bool.and_eq_true, decide_eq_true_eq] at h
          obtain ⟨rfl, hparse⟩ := h
          refine ⟨fun _ => ⟨w, h', rfl⟩, fun cfg hpc d hd => ?_, fun p hp => ?_⟩
          · by_cases hd0 : d = 0
            · subst hd0
              rw [hpc] at hd
              exact hd rfl
            · rw [hsolo d hd0] at hd
              exact hd
          · rw [hp] at hparse
            have hok : o.parse = .ok := by simpa using hparse
            cases p <;> simp [CleanStart, hok]
      | _ => cases h
  | env e =>
      cases e with
      | message m => cases h
      | _ => exact ⟨trivial, trivial⟩

end Clients

/-- A client switches twice. -/
theorem two_switches_in_turn :
    ∃ s, (clients.system ℕ).exec switchesAlone initial (switch 0 ++ switch 0) = some s ∧
      s.shared.made = 3 ∧ Exclusive s := by
  have hrun : ((clients.system ℕ).exec switchesAlone initial (switch 0 ++ switch 0)).map
      (fun s => s.shared.made) = some 3 := by decide
  obtain ⟨s, hs, hmade⟩ := Option.map_eq_some_iff.mp hrun
  have hby : ∀ (s : State) (e : Step), switchesAlone s e = true → e.by 0 = true := by
    intro s e he
    cases e with
    | run c a =>
        obtain ⟨cmd, o⟩ := a
        cases cmd with
        | setResolution w h => exact (Bool.and_eq_true_iff.mp he).1
        | _ => cases he
    | env e => rfl
  exact ⟨s, hs, hmade, switches_exclusive (Solo.reach hby
    (fun _ _ => oneAtATime_of_switchesAlone) ⟨⟨_, rfl⟩, fun _ => rfl⟩ hs)⟩

/-- Two switches that overlap: client 1 finds `running_` cleared by client 0 and makes a second
pipeline while the first has not been released. -/
theorem two_switches_two_pipelines :
    ¬ ∀ s : Clients.State, (clients.system ℕ).Reach SwitchesOnly s → Exclusive s := by
  intro h
  have hrun : ((clients.system ℕ).exec (fun _ e => match e with
      | .run _ (.setResolution _ _, _) => true
      | _ => false) initial
      (steps 0 8 (.setResolution 640 480) ++ steps 1 9 (.setResolution 640 480))).map
      (fun s => (s.shared.acquired, s.shared.released)) =
        some ([.pipeline 0, .appsink 0, .recSink 0, .bus 0, .pipeline 1], []) := by decide
  obtain ⟨s, hs, hend⟩ := Option.map_eq_some_iff.mp hrun
  obtain ⟨hacq, hrel⟩ := Prod.mk.inj hend
  have hreach : (clients.system ℕ).Reach SwitchesOnly s := by
    refine .of_exec_check (fun s e he => ?_) ⟨⟨_, rfl⟩, fun _ => rfl⟩ hs
    cases e with
    | run c a =>
        obtain ⟨cmd, o⟩ := a
        cases cmd with
        | setResolution w h => exact fun _ => ⟨w, h, rfl⟩
        | _ => cases he
    | env e => cases he
  have hlive : ∀ i, i = 0 ∨ i = 1 → Live s.shared.toWorld i := by
    rintro i (rfl | rfl) <;> exact ⟨by simp [hacq], by simp [hrel]⟩
  exact absurd ((h s hreach).one 0 1 (hlive 0 (Or.inl rfl)) (hlive 1 (Or.inr rfl))) (by decide)

end RasPiZeroCam
