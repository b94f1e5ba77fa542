import RasPiZeroCam.Camera.FrameBuffer
import RasPiZeroCam.Transition.Custody

/-!
`Frame` objects, and who has the callback in their `release`.

* `FrameObjects`: the objects that are alive, and the callbacks their destructors called.
  `FrameOp`: what can be done with them.
* `places`: the objects a callback waits in, and the calls of it.  `step_places`: an operation
  adds the callback it installs, and takes away the one it assigns over.
* `callbacks_called_iff`: once no object is alive, every callback has been called once if and only
  if no operation assigned over one.
-/

namespace RasPiZeroCam

open Transition

namespace Frame

variable {ρ : Type*}

/-- `Frame()`: the default member initialisers. -/
def new (a : FramePtr) : Frame (Option ρ) where
  id := a
  data := 0
  dataSize := 0
  width := 0
  height := 0
  stride := 0
  format := .nv12
  sequence := 0
  timestamp := 0
  streamType := .video
  dmaFd := -1
  release := none

/-- What `Frame(Frame&&)` and `operator=(Frame&&)` put into the object at `a`: the members of
`f`. -/
def moved (f : Frame (Option ρ)) (a : FramePtr) : Frame (Option ρ) := { f with id := a }

/-- What they leave behind: the other members are only copied. -/
def movedFrom (f : Frame (Option ρ)) : Frame (Option ρ) := { f with release := none }

end Frame

/-- `Frame` objects, by their addresses.  The callbacks are numbered in the order in which they
were installed. -/
structure FrameObjects where
  frames : List (Frame (Option ℕ))   -- the objects that are alive
  installed : ℕ
  called : List ℕ

/-- What can be done with `Frame` objects. -/
inductive FrameOp where
  | construct (a : FramePtr)
  | setData (a : FramePtr) (m : Frame Unit)   -- any members but `release`
  | setRelease (a : FramePtr)                 -- to a callback
  | clearRelease (a : FramePtr)               -- to an empty `std::function`
  | moveConstruct (a b : FramePtr)            -- `Frame a(std::move(b))`
  | moveAssign (a b : FramePtr)               -- `a = std::move(b)`
  | destroy (a : FramePtr)
  deriving DecidableEq

namespace FrameObjects

/-- The object at an address. -/
def get (s : FrameObjects) (a : FramePtr) : Option (Frame (Option ℕ)) :=
  s.frames.find? fun f => f.id = a

/-- One object more. -/
def add (s : FrameObjects) (f : Frame (Option ℕ)) : FrameObjects :=
  { s with frames := f :: s.frames }

/-- One object less. -/
def remove (s : FrameObjects) (f : Frame (Option ℕ)) : FrameObjects :=
  { s with frames := s.frames.erase f }

/-- Another value for an object. -/
def put (s : FrameObjects) (f f' : Frame (Option ℕ)) : FrameObjects := (s.remove f).add f'

/-- `~Frame()`. -/
def destroyFrame (s : FrameObjects) (f : Frame (Option ℕ)) : FrameObjects :=
  { s.remove f with called := s.called ++ f.release.toList }

/-- An operation, on objects that are alive and at an address that is free.  Assigned to itself, a
`std::function` may or may not keep its target. -/
def step (selfMove : Bool) (s : FrameObjects) : FrameOp → Option FrameObjects
  | .construct a => if (s.get a).isSome then none else some (s.add (.new a))
  | .setData a m =>
      (s.get a).map fun f => s.put f { m with
        id := f.id
        release := f.release }
  | .setRelease a =>
      (s.get a).map fun f => { s.put f { f with release := some s.installed } with
        installed := s.installed + 1 }
  | .clearRelease a => (s.get a).map fun f => s.put f { f with release := none }
  | .moveConstruct a b =>
      if (s.get a).isSome then none
      else (s.get b).map fun g => (s.put g g.movedFrom).add (g.moved a)
  | .moveAssign a b =>
      (s.get a).bind fun f =>
        if a = b then some (s.put f (if selfMove then f else f.movedFrom))
        else (s.get b).map fun g => (s.put g g.movedFrom).put f (g.moved a)
  | .destroy a => (s.get a).map s.destroyFrame

end FrameObjects

/-- The operations on `Frame` objects, of which there are none at first. -/
def frameObjects (selfMove : Bool) : System FrameObjects FrameOp where
  init s := s = ⟨[], 0, []⟩
  step s e := s.step selfMove e

/-- The object to whose `release` the operation assigns. -/
def FrameOp.assigns (selfMove : Bool) : FrameOp → Option FramePtr
  | .setRelease a => some a
  | .clearRelease a => some a
  | .moveAssign a b => if a = b ∧ selfMove = true then none else some a
  | _ => none

namespace FrameObjects

/-- The callback that the operation assigns over. -/
def overwritten (selfMove : Bool) (s : FrameObjects) (e : FrameOp) : Option ℕ :=
  (e.assigns selfMove).bind fun a => (s.get a).bind (·.release)

/-- The operation assigns to no `release` that has a callback. -/
def Spares (selfMove : Bool) (s : FrameObjects) (e : FrameOp) : Prop :=
  s.overwritten selfMove e = none

instance (selfMove : Bool) (s : FrameObjects) (e : FrameOp) : Decidable (s.Spares selfMove e) :=
  inferInstanceAs (Decidable (_ = _))

/-- The callback that the operation installs. -/
def installs (s : FrameObjects) : FrameOp → List ℕ
  | .setRelease _ => [s.installed]
  | _ => []

/-- The callbacks in the objects that are alive. -/
def waiting (s : FrameObjects) : List ℕ := s.frames.filterMap (·.release)

/-- In how many places a callback is: the objects it waits in, and the calls of it. -/
def places (s : FrameObjects) (k : ℕ) : ℕ := s.waiting.count k + s.called.count k

/-- A callback that has been installed. -/
def Installed (s : FrameObjects) (k : ℕ) : Prop := k < s.installed

variable {selfMove : Bool} {s s' : FrameObjects} {e : FrameOp} {f : Frame (Option ℕ)}
  {a : FramePtr}

lemma get_eq_some (h : s.get a = some f) : f ∈ s.frames ∧ f.id = a :=
  ⟨List.mem_of_find?_eq_some h, by simpa using List.find?_some h⟩

/-! ### What the operations do to the callbacks -/

lemma places_add (s : FrameObjects) (f : Frame (Option ℕ)) (k : ℕ) :
    (s.add f).places k = f.release.toList.count k + s.places k := by
  have hwait : (s.add f).waiting = f.release.toList ++ s.waiting := by
    cases hf : f.release <;> simp [waiting, add, hf]
  rw [places, places, hwait, List.count_append, Nat.add_assoc]
  rfl

lemma places_remove (hf : f ∈ s.frames) (k : ℕ) :
    f.release.toList.count k + (s.remove f).places k = s.places k := by
  have hperm : (f :: s.frames.erase f).Perm s.frames := (List.perm_cons_erase hf).symm
  rw [← places_add, places, places, waiting, waiting, ← (hperm.filterMap _).count_eq]
  rfl

lemma places_put (hf : f ∈ s.frames) (f' : Frame (Option ℕ)) (k : ℕ) :
    f.release.toList.count k + (s.put f f').places k =
      f'.release.toList.count k + s.places k := by
  have hremove := places_remove hf k
  rw [put, places_add]
  omega

/-- The destructor calls the callback: it no longer waits, and has been called. -/
lemma places_destroyFrame (hf : f ∈ s.frames) (k : ℕ) :
    (s.destroyFrame f).places k = s.places k :=
  calc (s.destroyFrame f).places k
      = (s.remove f).waiting.count k + (s.called ++ f.release.toList).count k := rfl
    _ = f.release.toList.count k + (s.remove f).places k := by
        rw [List.count_append, ← Nat.add_assoc, Nat.add_comm]
        rfl
    _ = s.places k := places_remove hf k

/-- `moveAssign` takes the callback from one object to another, and drops the one that was there. -/
lemma places_moveAssign {g : Frame (Option ℕ)} (hf : f ∈ s.frames) (hg : g ∈ s.frames)
    (hne : f.id ≠ g.id) (k : ℕ) :
    f.release.toList.count k +
      ((s.put g g.movedFrom).put f (g.moved f.id)).places k = s.places k := by
  have hf' : f ∈ (s.put g g.movedFrom).frames :=
    List.mem_cons_of_mem _ ((List.mem_erase_of_ne fun heq => hne (congrArg _ heq)).mpr hf)
  have hto := places_put hf' (g.moved f.id) k
  have hfrom := places_put hg g.movedFrom k
  have hmoved : (g.moved f.id).release = g.release := rfl
  have hleft : g.movedFrom.release = none := rfl
  rw [hmoved] at hto
  rw [hleft, Option.toList_none, List.count_nil] at hfrom
  omega

/-- **What a step does**: the callback it assigns over goes, the one it installs comes, and all
others wait in an object or have been called. -/
lemma step_places (h : s.step selfMove e = some s') :
    (∀ k, (s.overwritten selfMove e).toList.count k + s'.places k =
      (s.installs e).count k + s.places k) ∧
    s'.installed = s.installed + (s.installs e).length := by
  cases e with
  | construct a =>
      simp only [step] at h
      split_ifs at h
      cases h
      exact ⟨fun k => by simp [overwritten, FrameOp.assigns, installs, places_add, Frame.new], rfl⟩
  | setData a m =>
      obtain ⟨f, hget, rfl⟩ := Option.map_eq_some_iff.mp h
      obtain ⟨hf, -⟩ := get_eq_some hget
      refine ⟨fun k => ?_, rfl⟩
      have hput := places_put hf { m with id := f.id, release := f.release } k
      simpa [overwritten, FrameOp.assigns, installs] using hput
  | setRelease a =>
      obtain ⟨f, hget, rfl⟩ := Option.map_eq_some_iff.mp h
      obtain ⟨hf, -⟩ := get_eq_some hget
      refine ⟨fun k => ?_, rfl⟩
      simp only [overwritten, FrameOp.assigns, Option.bind_some, hget]
      exact places_put hf { f with release := some s.installed } k
  | clearRelease a =>
      obtain ⟨f, hget, rfl⟩ := Option.map_eq_some_iff.mp h
      obtain ⟨hf, -⟩ := get_eq_some hget
      refine ⟨fun k => ?_, rfl⟩
      simp only [overwritten, FrameOp.assigns, Option.bind_some, hget]
      exact places_put hf { f with release := none } k
  | moveConstruct a b =>
      simp only [step] at h
      split_ifs at h
      obtain ⟨g, hget, rfl⟩ := Option.map_eq_some_iff.mp h
      obtain ⟨hg, -⟩ := get_eq_some hget
      refine ⟨fun k => ?_, rfl⟩
      have hput := places_put hg g.movedFrom k
      have hleft : g.movedFrom.release = none := rfl
      have hmoved : (g.moved a).release = g.release := rfl
      rw [hleft, Option.toList_none, List.count_nil] at hput
      rw [places_add, hmoved]
      simp only [overwritten, FrameOp.assigns, installs, Option.bind_none, Option.toList_none,
        List.count_nil]
      omega
  | moveAssign a b =>
      obtain ⟨f, hget, h⟩ := Option.bind_eq_some_iff.mp h
      obtain ⟨hf, hfa⟩ := get_eq_some hget
      split_ifs at h with hab hself
      · -- onto itself, and it keeps its target
        cases h
        refine ⟨fun k => ?_, rfl⟩
        have hput := places_put hf f k
        simpa [overwritten, FrameOp.assigns, installs, hab, hself] using hput
      · cases h
        refine ⟨fun k => ?_, rfl⟩
        have hput := places_put hf f.movedFrom k
        simpa [overwritten, FrameOp.assigns, installs, hget, hself, Frame.movedFrom] using hput
      · obtain ⟨g, hget', rfl⟩ := Option.map_eq_some_iff.mp h
        obtain ⟨hg, hgb⟩ := get_eq_some hget'
        refine ⟨fun k => ?_, rfl⟩
        subst hfa
        have hmove := places_moveAssign hf hg (fun heq => hab (heq.trans hgb)) k
        simpa [overwritten, FrameOp.assigns, installs, hab, hget] using hmove
  | destroy a =>
      obtain ⟨f, hget, rfl⟩ := Option.map_eq_some_iff.mp h
      obtain ⟨hf, -⟩ := get_eq_some hget
      exact ⟨fun k => by simp [overwritten, FrameOp.assigns, installs, places_destroyFrame hf], rfl⟩

/-! ### Along a run -/

lemma installs_cases (s : FrameObjects) (e : FrameOp) :
    s.installs e = [] ∨ s.installs e = [s.installed] := by
  cases e with
  | setRelease a => exact Or.inr rfl
  | _ => exact Or.inl rfl

/-- A callback that has been installed is not installed again. -/
lemma count_installs {k : ℕ} (hk : k < s.installed) (e : FrameOp) : (s.installs e).count k = 0 := by
  obtain hnone | hone := installs_cases s e
  · rw [hnone, List.count_nil]
  · rw [hone, List.count_eq_zero, List.mem_singleton]
    exact hk.ne

/-- No operation makes a second place for a callback. -/
lemma step_conserves (h : s.step selfMove e = some s') : Conserves places Installed s s' := by
  obtain ⟨hplaces, hinstalled⟩ := step_places h
  refine ⟨fun k hk => ⟨?_, ?_⟩, fun k hk => ?_⟩
  · have hk' := hplaces k
    rw [count_installs hk] at hk'
    omega
  · exact hk.trans_le (by omega)
  · have hk' := hplaces k
    obtain hnone | hone := installs_cases s e
    · rw [hnone, List.count_nil] at hk'
      exact Or.inl (by omega)
    · rw [hone, List.count_singleton] at hk'
      rw [hone, List.length_singleton] at hinstalled
      split_ifs at hk' with heq
      · -- the callback that is installed
        have hnew : s.installed = k := by simpa using heq
        exact Or.inr ⟨by omega, by rw [Installed, hinstalled, hnew]; exact Nat.lt_succ_self k⟩
      · exact Or.inl (by omega)

/-- An operation that assigns over no callback loses none. -/
lemma step_keeps (hspares : s.Spares selfMove e) (h : s.step selfMove e = some s') :
    Keeps places Installed s s' := by
  obtain ⟨hplaces, hinstalled⟩ := step_places h
  have hsame : ∀ k, s'.places k = (s.installs e).count k + s.places k := by
    intro k
    rw [← hplaces k, hspares, Option.toList_none, List.count_nil, Nat.zero_add]
  refine ⟨fun k hk => ?_, fun k hk hk' => ?_⟩
  · rw [hsame, count_installs hk, Nat.zero_add]
  · simp only [Installed] at hk hk'
    obtain hnone | hone := installs_cases s e
    · rw [hnone, List.length_nil] at hinstalled
      omega
    · rw [hone, List.length_singleton] at hinstalled
      obtain rfl : k = s.installed := by omega
      rw [hsame, hone, List.count_singleton_self, Nat.add_comm]

/-- A callback that is assigned over waits in the object. -/
lemma mem_of_overwritten {k : ℕ} (h : s.overwritten selfMove e = some k) : k ∈ s.waiting := by
  obtain ⟨a, -, h⟩ := Option.bind_eq_some_iff.mp h
  obtain ⟨f, hget, hk⟩ := Option.bind_eq_some_iff.mp h
  exact List.mem_filterMap.mpr ⟨f, (get_eq_some hget).1, hk⟩

/-- Every callback is in one place at most, and only callbacks that were installed are in any. -/
lemma callback_custody (h : (frameObjects selfMove).Reach (fun _ _ => True) s) (k : ℕ) :
    s.places k ≤ 1 ∧ (0 < s.places k → s.Installed k) := by
  refine h.custody places Installed ?_ (fun _ _ _ _ _ hstep => step_conserves hstep) k
  rintro s rfl k
  rfl

/-- An operation that assigns over a callback loses it. -/
lemma step_loses (hs : (frameObjects selfMove).Reach (fun _ _ => True) s)
    (hspares : ¬ s.Spares selfMove e) (h : s.step selfMove e = some s') :
    ∃ k, s.Installed k ∧ s'.places k < s.places k := by
  obtain ⟨k, hk⟩ := Option.ne_none_iff_exists'.mp hspares
  have hplace : 0 < s.places k :=
    Nat.add_pos_left (List.count_pos_iff.mpr (mem_of_overwritten hk)) _
  have hissued : s.Installed k := (callback_custody hs k).2 hplace
  have hcount := (step_places h).1 k
  rw [hk, Option.toList_some, List.count_singleton_self, count_installs hissued] at hcount
  exact ⟨k, hissued, by omega⟩

/-- With no object left, no callback waits. -/
lemma places_of_frames_nil (hend : s.frames = []) (k : ℕ) : s.places k = s.called.count k := by
  rw [places, waiting, hend, List.filterMap_nil, List.count_nil, Nat.zero_add]

/-- **No callback is lost** if and only if none was assigned over. -/
lemma callbacks_kept_iff (h : (frameObjects selfMove).Reach (fun _ _ => True) s) :
    Kept places Installed s ↔ (frameObjects selfMove).Reach (Spares selfMove) s := by
  refine h.kept_iff (fun _ _ _ => trivial) ?_ (fun _ _ _ _ _ => step_conserves)
    (fun _ _ _ _ => step_keeps) fun _ _ _ hs _ => step_loses hs
  rintro s rfl k
  exact ⟨rfl, Nat.not_lt_zero k⟩

end FrameObjects

open FrameObjects

/-- **Every release callback is called exactly once**, when all objects are destroyed, if and only
if no operation of the run assigned over one; and in every run none is called twice, nor one that
was not installed. -/
theorem callbacks_called_iff {selfMove : Bool} {s : FrameObjects}
    (h : (frameObjects selfMove).Reach (fun _ _ => True) s) :
    (∀ k, s.called.count k ≤ if k < s.installed then 1 else 0) ∧
    (s.frames = [] → ((∀ k < s.installed, s.called.count k = 1) ↔
      (frameObjects selfMove).Reach (Spares selfMove) s)) := by
  refine ⟨fun k => ?_, fun hend => ?_⟩
  · obtain ⟨hone, hissued⟩ := callback_custody h k
    have hcalled : s.called.count k ≤ s.places k := Nat.le_add_left _ _
    split_ifs with hk
    · exact hcalled.trans hone
    · exact hcalled.trans (Nat.not_lt.mp fun hpos => hk (hissued hpos))
  · rw [← callbacks_kept_iff h]
    refine forall₂_congr fun k _ => ?_
    rw [places_of_frames_nil hend]

namespace FrameObjects

/-- A callback goes from the object it was installed in to a second, and on to a third. -/
def handedOn : List FrameOp :=
  [.construct 0, .setRelease 0, .moveConstruct 1 0, .destroy 0, .construct 2, .moveAssign 2 1,
    .destroy 1, .destroy 2]

end FrameObjects

/-- No operation assigns over it, and it has been called once in the end. -/
theorem handedOn_called : ∃ s, (frameObjects true).exec (fun s e => s.Spares true e) ⟨[], 0, []⟩
      handedOn = some s ∧
    s.installed = 1 ∧ s.frames = [] ∧ ∀ k < s.installed, s.called.count k = 1 := by
  have hrun : ((frameObjects true).exec (fun s e => s.Spares true e) ⟨[], 0, []⟩ handedOn).map
      (fun s => (s.installed, s.frames)) = some (1, []) := by decide
  obtain ⟨s, hs, hend⟩ := Option.map_eq_some_iff.mp hrun
  obtain ⟨hone, hempty⟩ := Prod.mk.inj hend
  have hreach : (frameObjects true).Reach (Spares true) s :=
    .of_exec_check (fun _ _ hcheck => of_decide_eq_true hcheck) rfl hs
  exact ⟨s, hs, hone, hempty, ((callbacks_called_iff (hreach.mono fun _ _ _ => trivial)).2
    hempty).mpr hreach⟩

namespace FrameObjects

/-- Two objects with a callback each; the second is move-assigned to the first. -/
def assignedOver : List FrameOp :=
  [.construct 0, .setRelease 0, .construct 1, .setRelease 1, .moveAssign 0 1, .destroy 0,
    .destroy 1]

end FrameObjects

/-- The callback of the first is never called. -/
theorem assigned_over_not_called : ¬ ∀ (selfMove : Bool) (s : FrameObjects),
    (frameObjects selfMove).Reach (fun _ _ => True) s → s.frames = [] →
      ∀ k < s.installed, s.called.count k = 1 := by
  intro h
  have hrun : ((frameObjects true).exec (fun _ _ => true) ⟨[], 0, []⟩ assignedOver).map
      (fun s => (s.frames, s.installed, s.called)) = some ([], 2, [1]) := by decide
  obtain ⟨s, hs, hend⟩ := Option.map_eq_some_iff.mp hrun
  simp only [Prod.mk.injEq] at hend
  obtain ⟨hempty, hinstalled, hcalled⟩ := hend
  have hreach : (frameObjects true).Reach (fun _ _ => True) s :=
    .of_exec_check (fun _ _ _ => trivial) rfl hs
  have hfirst := h true s hreach hempty 0 (by rw [hinstalled]; decide)
  rw [hcalled] at hfirst
  exact absurd hfirst (by decide)

end RasPiZeroCam
