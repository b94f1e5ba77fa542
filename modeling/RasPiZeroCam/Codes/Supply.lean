import RasPiZeroCam.Codes.Reader

/-!
Supplies, which hand out what is left of a sequence a piece at a time.

* `Supply`: a read of `n` letters gives `n` at most, and one at least where there are any.
* `Supply.exactly`: one read, which fails where it gives fewer.  `Supply.fully`: reads until there
  are enough.
* `flat`: the supply that gives as many as it has.
* `Supply.Refines`: what a program reads from the supply, it reads from what is left of it at once.
  `Refines.bind` composes it along the program, so that programs are compared by their parts.
* `Supply.readAll`: a program that is repeated until it fails.  `Refines.readAll_first`: however
  the supply hands out the words of a code, those that are read are the first of them.
  `readAll_of_held`: all of them, where each can be read.
-/

namespace Codes

universe u

/-- A supply of letters. -/
structure Supply (β σ : Type u) where
  /-- A read of at most so many letters. -/
  read : ℕ → σ → List β × σ
  /-- What is left. -/
  left : σ → List β
  split : ∀ n s, (read n s).1 ++ left (read n s).2 = left s
  short : ∀ n s, (read n s).1.length ≤ n
  progress : ∀ n s, 0 < n → left s ≠ [] → (read n s).1 ≠ []

/-- The supply that gives as many as it has. -/
def flat (β : Type u) : Supply β (List β) where
  read n s := (s.take n, s.drop n)
  left s := s
  split n s := List.take_append_drop n s
  short n s := List.length_take_le n s
  progress n s hn hs := by
    rw [Ne, List.take_eq_nil_iff]
    exact not_or_intro hn.ne' hs

namespace Supply

variable {α β γ σ : Type u}

/-- A read that fails where it gives fewer. -/
def exactly (S : Supply β σ) (n : ℕ) : StateT σ Option (List β) := fun s =>
  if (S.read n s).1.length = n then some (S.read n s) else none

/-- Reads until there are `len`, as long as they give anything; `fuel` of them at most. -/
def fully (S : Supply β σ) : ℕ → ℕ → StateT σ Option (List β)
  | _, 0 => fun s => some ([], s)
  | 0, _ + 1 => fun _ => none
  | fuel + 1, len + 1 => fun s =>
      if (S.read (len + 1) s).1 = [] then none
      else (S.fully fuel (len + 1 - (S.read (len + 1) s).1.length) (S.read (len + 1) s).2).map
        fun r => ((S.read (len + 1) s).1 ++ r.1, r.2)

variable (S : Supply β σ) {s s' : σ} {bs : List β} {n : ℕ}

/-- One read, as a split of what is left. -/
lemma exactly_eq_some (h : S.exactly n s = some (bs, s')) :
    bs.length = n ∧ S.left s = bs ++ S.left s' := by
  rw [exactly] at h
  split_ifs at h with hlen
  have hsplit := S.split n s
  rw [Option.some.inj h] at hlen hsplit
  exact ⟨hlen, hsplit.symm⟩

/-- A read, and the reads that are still needed. -/
lemma fully_read {s₁ : σ} {cs : List β} (fuel : ℕ) (hn : 0 < n) (hread : S.read n s = (bs, s₁))
    (hbs : bs ≠ []) (hrest : S.fully fuel (n - bs.length) s₁ = some (cs, s')) :
    S.fully (fuel + 1) n s = some (bs ++ cs, s') := by
  obtain ⟨n, rfl⟩ := Nat.exists_eq_add_one_of_ne_zero hn.ne'
  simp only [fully, hread, if_neg hbs, hrest, Option.map_some]

/-- A read that is enough. -/
lemma fully_one {fuel : ℕ} (hread : S.read n s = (bs, s')) (hlen : bs.length = n) (hbs : bs ≠ [])
    (hfuel : n ≤ fuel) : S.fully fuel n s = some (bs, s') := by
  have hn : 0 < n := hlen ▸ List.length_pos_iff.mpr hbs
  obtain ⟨fuel, rfl⟩ := Nat.exists_eq_add_one_of_ne_zero (hn.trans_le hfuel).ne'
  have hrest : S.fully fuel (n - bs.length) s' = some ([], s') := by
    rw [hlen, Nat.sub_self]
    cases fuel <;> rfl
  have hfull := S.fully_read fuel hn hread hbs hrest
  rw [List.append_nil] at hfull
  exact hfull

/-- **Reads until there are enough** give what is asked for, if that much is left. -/
lemma fully_spec : ∀ {fuel len : ℕ}, len ≤ fuel → ∀ s,
    (len ≤ (S.left s).length → ∃ s', S.fully fuel len s = some ((S.left s).take len, s') ∧
      S.left s' = (S.left s).drop len) ∧
    ((S.left s).length < len → S.fully fuel len s = none) := by
  intro fuel
  induction fuel with
  | zero =>
      intro len hlen s
      obtain rfl : len = 0 := Nat.le_zero.mp hlen
      exact ⟨fun _ => ⟨s, rfl, rfl⟩, fun h => absurd h (Nat.not_lt_zero _)⟩
  | succ fuel ih =>
      intro len hlen s
      cases len with
      | zero => exact ⟨fun _ => ⟨s, rfl, rfl⟩, fun h => absurd h (Nat.not_lt_zero _)⟩
      | succ len =>
          have hsplit := S.split (len + 1) s
          have hshort := S.short (len + 1) s
          have hprogress := S.progress (len + 1) s (Nat.succ_pos len)
          rcases hread : S.read (len + 1) s with ⟨bs, s₁⟩
          rw [hread] at hsplit hshort hprogress
          have hfully : S.fully (fuel + 1) (len + 1) s = if bs = [] then none else
              (S.fully fuel (len + 1 - bs.length) s₁).map fun r => (bs ++ r.1, r.2) := by
            simp only [fully, hread]
          rw [hfully]
          by_cases hbs : bs = []
          · have hnil : S.left s = [] := by_contra fun hne => hprogress hne hbs
            rw [hnil]
            exact ⟨fun h => absurd h (Nat.not_succ_le_zero len), fun _ => if_pos hbs⟩
          · have hpos : 0 < bs.length := List.length_pos_iff.mpr hbs
            have hlength : (S.left s).length = bs.length + (S.left s₁).length := by
              rw [← hsplit, List.length_append]
            have hfuel : len + 1 - bs.length ≤ fuel := by omega
            obtain ⟨henough, hless⟩ := ih hfuel s₁
            constructor
            · intro hle
              obtain ⟨s', hrest, hleft⟩ := henough (by omega)
              refine ⟨s', ?_, ?_⟩
              · rw [if_neg hbs, hrest, Option.map_some, ← hsplit, List.take_append,
                  List.take_of_length_le hshort]
              · rw [hleft, ← hsplit, List.drop_append, List.drop_of_length_le hshort,
                  List.nil_append]
            · intro hlt
              rw [if_neg hbs, hless (by omega), Option.map_none]

/-- They give as many as are asked for, or none. -/
lemma fully_length (h : S.fully n n s = some (bs, s')) : bs.length = n := by
  obtain ⟨henough, hless⟩ := S.fully_spec (le_refl n) s
  by_cases hle : n ≤ (S.left s).length
  · obtain ⟨s₁, hfull, -⟩ := henough hle
    obtain ⟨rfl, -⟩ := Prod.mk.inj (Option.some.inj (hfull.symm.trans h))
    exact List.length_take_of_le hle
  · cases (hless (Nat.lt_of_not_le hle)).symm.trans h

/-! ### Programs on supplies -/

/-- What `x` reads from the supply, `y` reads from what is left of it, with anything behind; and
what is left then is the end of it. -/
def Refines (x : StateT σ Option α) (y : StateT (List β) Option α) : Prop :=
  ∀ s a s', x s = some (a, s') → S.left s' <:+ S.left s ∧
    ∀ u, y (S.left s ++ u) = some (a, S.left s' ++ u)

variable {S}

lemma Refines.pure (a : α) : S.Refines (pure a) (pure a) := by
  intro s a' s' h
  obtain ⟨rfl, rfl⟩ := Prod.mk.inj (Option.some.inj h)
  exact ⟨List.suffix_rfl, fun _ => rfl⟩

lemma Refines.fail (y : StateT (List β) Option α) : S.Refines (fun _ => none) y :=
  fun _ _ _ h => by cases h

lemma Refines.bind {x : StateT σ Option α} {y : StateT (List β) Option α}
    {f : α → StateT σ Option γ} {g : α → StateT (List β) Option γ} (hx : S.Refines x y)
    (hf : ∀ a, S.Refines (f a) (g a)) : S.Refines (x >>= f) (y >>= g) := by
  intro s c s' h
  obtain ⟨⟨a, s₁⟩, ha, hc⟩ := Option.bind_eq_some_iff.mp h
  obtain ⟨hend, hy⟩ := hx s a s₁ ha
  obtain ⟨hend', hg⟩ := hf a s₁ c s' hc
  exact ⟨hend'.trans hend, fun u =>
    Option.bind_eq_some_iff.mpr ⟨(a, S.left s₁ ++ u), hy u, hg u⟩⟩

lemma Refines.ite {p : Prop} [Decidable p] {x x' : StateT σ Option α}
    {y y' : StateT (List β) Option α} (h : S.Refines x y) (h' : S.Refines x' y') :
    S.Refines (if p then x else x') (if p then y else y') := by
  split_ifs
  · exact h
  · exact h'

lemma Refines.exactly (n : ℕ) : S.Refines (S.exactly n) ((flat β).exactly n) := by
  intro s bs s' h
  obtain ⟨hlen, hleft⟩ := S.exactly_eq_some h
  refine ⟨⟨bs, hleft.symm⟩, fun u => ?_⟩
  have hread : (flat β).read n (S.left s ++ u) = (bs, S.left s' ++ u) := by
    show ((S.left s ++ u).take n, (S.left s ++ u).drop n) = _
    rw [hleft, List.append_assoc, List.take_left' hlen, List.drop_left' hlen]
  rw [Supply.exactly, hread, if_pos hlen]

lemma Refines.fully (n : ℕ) : S.Refines (S.fully n n) ((flat β).fully n n) := by
  intro s bs s' h
  obtain ⟨henough, hless⟩ := S.fully_spec (le_refl n) s
  by_cases hle : n ≤ (S.left s).length
  · obtain ⟨s₁, hfull, hleft⟩ := henough hle
    obtain ⟨rfl, rfl⟩ := Prod.mk.inj (Option.some.inj (hfull.symm.trans h))
    refine ⟨hleft ▸ List.drop_suffix _ _, fun u => ?_⟩
    have hle' : n ≤ ((flat β).left (S.left s ++ u)).length := by
      show n ≤ (S.left s ++ u).length
      rw [List.length_append]
      exact hle.trans (Nat.le_add_right _ _)
    obtain ⟨s₂, hflat, hrest⟩ := ((flat β).fully_spec (le_refl n) (S.left s ++ u)).1 hle'
    obtain rfl : s₂ = S.left s₁ ++ u := by
      refine hrest.trans ?_
      show (S.left s ++ u).drop n = _
      rw [hleft, List.drop_append_of_le_length hle]
    rw [hflat]
    show some ((S.left s ++ u).take n, _) = _
    rw [List.take_append_of_le_length hle]
  · cases (hless (Nat.lt_of_not_le hle)).symm.trans h

/-! ### Words -/

/-- Read words until that fails, `n` of them at most. -/
def readAll (x : StateT σ Option α) : ℕ → σ → List α
  | 0, _ => []
  | n + 1, s =>
      match x s with
      | none => []
      | some (a, s') => a :: readAll x n s'

/-- **However they are handed out**, and wherever they are cut off, the words that are read are the
first of those that were written. -/
theorem Refines.readAll_first {x : StateT σ Option α} {y : StateT (List β) Option α}
    {code : γ → List β} {value : γ → α} (h : S.Refines x y) (hnil : y [] = none) :
    ∀ (n : ℕ) {cs : List γ} {s : σ},
      (∀ c ∈ cs, ∀ u, y (code c ++ u) = some (value c, u)) → S.left s <+: cs.flatMap code →
      readAll x n s <+: cs.map value := by
  intro n
  induction n with
  | zero => exact fun _ _ => List.nil_prefix
  | succ n ih =>
      intro cs s hcs ⟨u, hu⟩
      rw [readAll]
      rcases hx : x s with _ | ⟨a, s'⟩
      · exact List.nil_prefix
      · have hread := (h s a s' hx).2 u
        rw [hu] at hread
        cases cs with
        | nil => cases hnil.symm.trans hread
        | cons c cs =>
            rw [List.flatMap_cons, hcs c List.mem_cons_self] at hread
            obtain ⟨rfl, hrest⟩ := Prod.mk.inj (Option.some.inj hread)
            have htail := ih (fun c hc => hcs c (List.mem_cons_of_mem _ hc)) ⟨u, hrest.symm⟩
            exact (List.prefix_cons_inj _).mpr htail

/-- **Where the words arrive so that each can be read**, all of them are. -/
theorem readAll_of_held {x : StateT σ Option α} (held : List γ → σ → Prop) {value : γ → α}
    (hx : ∀ c cs s, held (c :: cs) s → ∃ s', x s = some (value c, s') ∧ held cs s')
    (hnil : ∀ s, held [] s → x s = none) :
    ∀ {n : ℕ} {cs : List γ} {s : σ}, held cs s → cs.length ≤ n → readAll x n s = cs.map value := by
  intro n
  induction n with
  | zero =>
      intro cs s _ hlen
      rw [List.length_eq_zero_iff.mp (Nat.le_zero.mp hlen)]
      rfl
  | succ n ih =>
      intro cs s hheld hlen
      rw [readAll]
      cases cs with
      | nil => rw [hnil s hheld]; rfl
      | cons c cs =>
          obtain ⟨s', hread, hrest⟩ := hx c cs s hheld
          rw [hread]
          exact congrArg (value c :: ·) (ih hrest (Nat.le_of_succ_le_succ hlen))

end Supply

end Codes
