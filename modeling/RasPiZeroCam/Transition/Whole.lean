import RasPiZeroCam.Transition.Mutex

/-!
A record that several threads write and read member by member, inside a mutex.

* `RecordMembers`: the members of a record, copied one at a time.
* `MemberView`, `MemberMove`: where a thread is in its critical section, and what it does there.
* `Whole`: the invariant; `Whole.move`: every move keeps it.
* `Whole.read_done`: what was read is the last record that was written.
-/

namespace Transition

variable {μ β κ : Type*}

/-- A record with members `μ`: `copy m a b` is `b` with the member `m` of `a`. -/
structure RecordMembers (μ β : Type*) where
  all : List μ
  copy : μ → β → β → β
  same : μ → β → β → Prop
  mem_all : ∀ m, m ∈ all
  same_copy : ∀ m a b, same m (copy m a b) a
  same_copy_of : ∀ m n a b c, same m b c → same m (copy n a b) c ∨ m = n
  ext : ∀ a b, (∀ m, same m a b) → a = b

/-- Where a thread is: outside, or inside with some members left to write or to read. -/
inductive MemberView (μ β : Type*)
  | out
  | write (r : β) (left : List μ)
  | read (acc : β) (left : List μ)

/-- The record, the owner of its mutex, and the records that have been written. -/
structure SharedRecord (κ β : Type*) where
  data : β
  owner : Option κ
  stored : List β

/-- What the thread `x` does to its view and to the record. -/
inductive MemberMove (M : RecordMembers μ β) (x : κ) :
    MemberView μ β → SharedRecord κ β → MemberView μ β → SharedRecord κ β → Prop
  | stay (v : MemberView μ β) (g : SharedRecord κ β) : MemberMove M x v g v g
  | beginWrite (r : β) (g : SharedRecord κ β) : g.owner = none →
      MemberMove M x .out g (.write r M.all) { g with owner := some x }
  | write (r : β) (m : μ) (left : List μ) (g : SharedRecord κ β) :
      MemberMove M x (.write r (m :: left)) g (.write r left) { g with data := M.copy m r g.data }
  | endWrite (r : β) (g : SharedRecord κ β) :
      MemberMove M x (.write r []) g .out { g with owner := none, stored := g.stored ++ [r] }
  | beginRead (acc : β) (g : SharedRecord κ β) : g.owner = none →
      MemberMove M x .out g (.read acc M.all) { g with owner := some x }
  | read (acc : β) (m : μ) (left : List μ) (g : SharedRecord κ β) :
      MemberMove M x (.read acc (m :: left)) g (.read (M.copy m g.data acc) left) g
  | endRead (acc : β) (g : SharedRecord κ β) :
      MemberMove M x (.read acc []) g .out { g with owner := none }

/-- What a thread has left is an end of all members. -/
def MemberView.Suffix (M : RecordMembers μ β) : MemberView μ β → Prop
  | .out => True
  | .write _ left => left <:+ M.all
  | .read _ left => left <:+ M.all

lemma MemberMove.suffix {M : RecordMembers μ β} {x : κ} {v v' : MemberView μ β}
    {g g' : SharedRecord κ β} (h : MemberMove M x v g v' g') (hv : v.Suffix M) : v'.Suffix M := by
  cases h with
  | stay => exact hv
  | beginWrite r _ _ => exact List.suffix_rfl
  | write r m left _ => exact (List.suffix_cons m left).trans hv
  | endWrite r _ => trivial
  | beginRead acc _ _ => exact List.suffix_rfl
  | read acc m left _ => exact (List.suffix_cons m left).trans hv
  | endRead acc _ => trivial

/-- The mutex is left alone, taken, or given back. -/
lemma MemberMove.owner {M : RecordMembers μ β} {x : κ} {v v' : MemberView μ β}
    {g g' : SharedRecord κ β} (h : MemberMove M x v g v' g') :
    g'.owner = g.owner ∨ g'.owner = some x ∨ g'.owner = none := by
  cases h <;> simp

/-- **Nothing is torn**: a writer has written all but what it has left, a reader has read all but
what it has left, and without a writer the record is the last one written. -/
structure Whole (M : RecordMembers μ β) (view : κ → MemberView μ β) (g : SharedRecord κ β) :
    Prop where
  held : Held (fun x => view x ≠ .out) g.owner
  written : ∀ x r left, view x = .write r left → ∀ m, m ∉ left → M.same m g.data r
  taken : ∀ x acc left, view x = .read acc left → ∀ m, m ∉ left → M.same m acc g.data
  last : (∀ x r left, view x ≠ .write r left) → g.stored.getLast? = some g.data

namespace Whole

variable {M : RecordMembers μ β} {view view' : κ → MemberView μ β} {g g' : SharedRecord κ β} {x : κ}

/-- At the start. -/
lemma init (r : β) : Whole M (fun _ : κ => .out) ⟨r, none, [r]⟩ where
  held y := iff_of_false (fun h => h rfl) (by simp)
  written y r left h := by cases h
  taken y acc left h := by cases h
  last _ := rfl

/-- Who is inside is alone there. -/
lemma alone (h : Whole M view g) (hx : view x ≠ .out) {y : κ} (hy : y ≠ x) : view y = .out := by
  by_contra hin
  exact hy (h.held.unique hin hx)

/-- A member that is not left after a copy was copied, or was not left before. -/
lemma same_of_copy {m n : μ} {left : List μ} {a b c : β} (hm : m ∉ left)
    (hbefore : ∀ m, m ∉ n :: left → M.same m b c) (hcopied : M.same n (M.copy n a b) c) :
    M.same m (M.copy n a b) c := by
  by_cases hmn : m = n
  · rw [hmn]
    exact hcopied
  · have hleft : m ∉ n :: left := by simp [hmn, hm]
    exact (M.same_copy_of m n a b c (hbefore m hleft)).resolve_right hmn

/-- **A move keeps it**, when the others do not move. -/
theorem move (h : Whole M view g) (hmove : MemberMove M x (view x) g (view' x) g')
    (hothers : ∀ y, y ≠ x → view' y = view y) : Whole M view' g' := by
  have hsame : ∀ y, y ≠ x → (view' y ≠ .out ↔ view y ≠ .out) := fun y hy => by rw [hothers y hy]
  -- a thread at a view is `x`, at its new view, or another, at its old one
  have hcases : ∀ y v, view' y = v → (y = x ∧ view' x = v) ∨ (y ≠ x ∧ view y = v) := by
    intro y v hv
    by_cases hy : y = x
    · exact Or.inl ⟨hy, hy ▸ hv⟩
    · exact Or.inr ⟨hy, hothers y hy ▸ hv⟩
  generalize hv : view x = v at hmove
  generalize hv' : view' x = v' at hmove hcases
  cases hmove with
  | stay =>
      have heq : view' = view := by
        funext y
        by_cases hy : y = x
        · rw [hy, hv, hv']
        · exact hothers y hy
      rw [heq]
      exact h
  | beginWrite r _ hfree =>
      have hout := h.held.not_inside hfree
      refine ⟨h.held.take hfree (by simp [hv']) hsame rfl, ?_, ?_, ?_⟩
      · intro y r' left hy m hm
        rcases hcases y _ hy with ⟨-, hat⟩ | ⟨-, hat⟩
        · cases hat
          exact absurd (M.mem_all m) hm
        · exact absurd (by simp [hat]) (hout y)
      · intro y acc left hy
        rcases hcases y _ hy with ⟨-, hat⟩ | ⟨-, hat⟩
        · cases hat
        · exact absurd (by simp [hat]) (hout y)
      · intro hnone
        exact absurd hv' (hnone x r M.all)
  | write r n left =>
      have hothers' : ∀ y, y ≠ x → view y = .out := fun y hy => h.alone (by simp [hv]) hy
      refine ⟨h.held.keep (fun y => ?_) rfl, ?_, ?_, ?_⟩
      · by_cases hy : y = x
        · simp [hy, hv, hv']
        · exact hsame y hy
      · intro y r' left' hy m hm
        rcases hcases y _ hy with ⟨-, hat⟩ | ⟨hne, hat⟩
        · cases hat
          exact same_of_copy hm (h.written x r _ hv) (M.same_copy n r _)
        · cases (hothers' y hne).symm.trans hat
      · intro y acc left' hy
        rcases hcases y _ hy with ⟨-, hat⟩ | ⟨hne, hat⟩
        · cases hat
        · cases (hothers' y hne).symm.trans hat
      · intro hnone
        exact absurd hv' (hnone x r left)
  | endWrite r =>
      have hothers' : ∀ y, y ≠ x → view y = .out := fun y hy => h.alone (by simp [hv]) hy
      have hdata : g.data = r := M.ext _ _ fun m => h.written x r [] hv m List.not_mem_nil
      refine ⟨h.held.release (x := x) (by simp [hv]) (by simp [hv']) hsame rfl, ?_, ?_, ?_⟩
      · intro y r' left hy
        rcases hcases y _ hy with ⟨-, hat⟩ | ⟨hne, hat⟩
        · cases hat
        · cases (hothers' y hne).symm.trans hat
      · intro y acc left hy
        rcases hcases y _ hy with ⟨-, hat⟩ | ⟨hne, hat⟩
        · cases hat
        · cases (hothers' y hne).symm.trans hat
      · intro _
        rw [List.getLast?_concat, hdata]
  | beginRead acc _ hfree =>
      have hout := h.held.not_inside hfree
      refine ⟨h.held.take hfree (by simp [hv']) hsame rfl, ?_, ?_, ?_⟩
      · intro y r' left hy
        rcases hcases y _ hy with ⟨-, hat⟩ | ⟨-, hat⟩
        · cases hat
        · exact absurd (by simp [hat]) (hout y)
      · intro y acc' left hy m hm
        rcases hcases y _ hy with ⟨-, hat⟩ | ⟨-, hat⟩
        · cases hat
          exact absurd (M.mem_all m) hm
        · exact absurd (by simp [hat]) (hout y)
      · intro _
        refine h.last fun y r left hy => hout y ?_
        simp [hy]
  | read acc n left =>
      have hothers' : ∀ y, y ≠ x → view y = .out := fun y hy => h.alone (by simp [hv]) hy
      refine ⟨h.held.keep (fun y => ?_) rfl, ?_, ?_, ?_⟩
      · by_cases hy : y = x
        · simp [hy, hv, hv']
        · exact hsame y hy
      · intro y r left' hy
        rcases hcases y _ hy with ⟨-, hat⟩ | ⟨hne, hat⟩
        · cases hat
        · cases (hothers' y hne).symm.trans hat
      · intro y acc' left' hy m hm
        rcases hcases y _ hy with ⟨-, hat⟩ | ⟨hne, hat⟩
        · cases hat
          exact same_of_copy hm (h.taken x acc _ hv) (M.same_copy n _ acc)
        · cases (hothers' y hne).symm.trans hat
      · intro _
        refine h.last fun y r left' hy => ?_
        by_cases hyx : y = x
        · rw [hyx, hv] at hy
          cases hy
        · cases (hothers' y hyx).symm.trans hy
  | endRead acc =>
      have hothers' : ∀ y, y ≠ x → view y = .out := fun y hy => h.alone (by simp [hv]) hy
      refine ⟨h.held.release (x := x) (by simp [hv]) (by simp [hv']) hsame rfl, ?_, ?_, ?_⟩
      · intro y r left hy
        rcases hcases y _ hy with ⟨-, hat⟩ | ⟨hne, hat⟩
        · cases hat
        · cases (hothers' y hne).symm.trans hat
      · intro y acc' left hy
        rcases hcases y _ hy with ⟨-, hat⟩ | ⟨hne, hat⟩
        · cases hat
        · cases (hothers' y hne).symm.trans hat
      · intro _
        refine h.last fun y r left hy => ?_
        by_cases hyx : y = x
        · rw [hyx, hv] at hy
          cases hy
        · cases (hothers' y hyx).symm.trans hy

/-- **What a reader has read** is the last record that was written. -/
theorem read_done {acc : β} (h : Whole M view g) (hx : view x = .read acc []) :
    g.stored.getLast? = some acc := by
  have hdata : acc = g.data := M.ext _ _ fun m => h.taken x acc [] hx m List.not_mem_nil
  rw [hdata]
  refine h.last fun y r left hy => ?_
  by_cases hyx : y = x
  · rw [hyx, hx] at hy
    cases hy
  · cases (h.alone (by simp [hx]) hyx).symm.trans hy

end Whole

end Transition
