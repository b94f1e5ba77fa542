import Mathlib.Tactic

/-!
Codes that a reader can split off the front of whatever follows.

* `Reads`: the reader gives back the value and the rest, for every rest.
* `Reads.append_inj`: such a code tells where each of its words ends.
* `Reads.flatMap_prefix`: so a concatenation of words determines the words, and a prefix of a
  concatenation that is one itself is that of a prefix.  `Reads.readAll`: they are read back.
* `strip`, `takeWhile_stop`: readers of a literal, and of all that satisfies a test.
-/

namespace Codes

variable {α β : Type*} {read : List β → Option (α × List β)} {code : α → List β}

/-- `read` gives back what `code` wrote, and leaves what follows. -/
def Reads (read : List β → Option (α × List β)) (code : α → List β) : Prop :=
  ∀ x u, read (code x ++ u) = some (x, u)

/-- **A code that can be read** tells where its words end. -/
lemma Reads.append_inj (h : Reads read code) {x y : α} {u v : List β}
    (heq : code x ++ u = code y ++ v) : x = y ∧ u = v := by
  have hread : some (x, u) = some (y, v) := by rw [← h x u, ← h y v, heq]
  exact Prod.mk.inj (Option.some.inj hread)

/-- **Prefixes of concatenations** are concatenations of prefixes. -/
theorem Reads.flatMap_prefix (h : Reads read code) (hne : ∀ x, code x ≠ []) {xs : List α} :
    ∀ {ys : List α}, xs.flatMap code <+: ys.flatMap code → xs <+: ys := by
  induction xs with
  | nil => exact fun _ => List.nil_prefix
  | cons x xs ih =>
      rintro (_ | ⟨y, ys⟩) hprefix
      · have hnil : (x :: xs).flatMap code = [] := List.prefix_nil.mp hprefix
        rw [List.flatMap_cons, List.append_eq_nil_iff] at hnil
        exact absurd hnil.1 (hne x)
      · obtain ⟨rest, hrest⟩ := hprefix
        rw [List.flatMap_cons, List.flatMap_cons, List.append_assoc] at hrest
        obtain ⟨rfl, htail⟩ := h.append_inj hrest
        exact (List.prefix_cons_inj x).mpr (ih ⟨rest, htail⟩)

/-- Equal concatenations are those of equal sequences. -/
lemma Reads.flatMap_injective (h : Reads read code) (hne : ∀ x, code x ≠ []) {xs ys : List α}
    (heq : xs.flatMap code = ys.flatMap code) : xs = ys := by
  have hxy : xs <+: ys := h.flatMap_prefix hne (heq ▸ List.prefix_rfl)
  have hyx : ys <+: xs := h.flatMap_prefix hne (heq ▸ List.prefix_rfl)
  exact hxy.eq_of_length (le_antisymm hxy.length_le hyx.length_le)

/-- Read words until nothing is left, `n` at most. -/
def readAll (read : List β → Option (α × List β)) : ℕ → List β → Option (List α)
  | _, [] => some []
  | 0, _ :: _ => none
  | n + 1, b :: bs =>
      (read (b :: bs)).bind fun r => (readAll read n r.2).map (r.1 :: ·)

/-- **The words are read back.** -/
theorem Reads.readAll_flatMap (h : Reads read code) (hne : ∀ x, code x ≠ []) {xs : List α} :
    ∀ {n : ℕ}, xs.length ≤ n → readAll read n (xs.flatMap code) = some xs := by
  induction xs with
  | nil =>
      intro n _
      rw [List.flatMap_nil, readAll]
  | cons x xs ih =>
      intro n hn
      obtain ⟨n, rfl⟩ : ∃ m, n = m + 1 := Nat.exists_eq_add_one_of_ne_zero (by
        rw [List.length_cons] at hn
        omega)
      obtain ⟨b, bs, hcode⟩ := List.exists_cons_of_ne_nil (hne x)
      have hfirst : (x :: xs).flatMap code = b :: (bs ++ xs.flatMap code) := by
        rw [List.flatMap_cons, hcode, List.cons_append]
      have hread : read (b :: (bs ++ xs.flatMap code)) = some (x, xs.flatMap code) := by
        rw [← hfirst, List.flatMap_cons, h x]
      rw [hfirst, readAll, hread, Option.bind_some, ih (Nat.le_of_succ_le_succ hn), Option.map_some]

/-- As many words as they have letters are enough. -/
lemma length_le_flatMap (hne : ∀ x, code x ≠ []) (xs : List α) :
    xs.length ≤ (xs.flatMap code).length := by
  induction xs with
  | nil => exact Nat.zero_le _
  | cons x xs ih =>
      have hpos := List.length_pos_iff.mpr (hne x)
      rw [List.flatMap_cons, List.length_append, List.length_cons]
      omega

/-! ### Readers -/

/-- Read a literal. -/
def strip [BEq β] (p s : List β) : Option (List β) :=
  if p.isPrefixOf s then some (s.drop p.length) else none

lemma strip_append [BEq β] [LawfulBEq β] (p u : List β) : strip p (p ++ u) = some u := by
  rw [strip, if_pos (List.isPrefixOf_iff_prefix.mpr (List.prefix_append p u)),
    List.drop_left]

/-- What satisfies a test ends where something does not. -/
lemma takeWhile_stop {p : β → Bool} {l u : List β} {c : β} (hl : ∀ b ∈ l, p b = true)
    (hc : p c = false) :
    (l ++ c :: u).takeWhile p = l ∧ (l ++ c :: u).dropWhile p = c :: u := by
  have hstop : (c :: u).takeWhile p = [] ∧ (c :: u).dropWhile p = c :: u := by simp [hc]
  constructor
  · rw [List.takeWhile_append_of_pos hl, hstop.1, List.append_nil]
  · rw [List.dropWhile_append_of_pos hl, hstop.2]

end Codes
