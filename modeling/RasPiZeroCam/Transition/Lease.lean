import Mathlib.Tactic

/-!
Slots that are leased out, and what is kept for each lease until its slot comes back.

* `Leased`: the slots below `c` are free or leased out, each once; a leased slot has the deposit of
  its lease, a free one has none; the deposits of the other leases have been given back.
* `Leased.take`, `Leased.giveBack`: a free slot is leased out, a leased one comes back.
* `existsUnique_of_perm`: what is spread over several places is in exactly one of them.
-/

namespace Transition

variable {ι α β κ : Type*}

/-- **One place each**: places whose lists make up the numbers below `n`. -/
theorem existsUnique_of_perm {f : ι → List ℕ} {ps : List ι} (hps : ∀ p, p ∈ ps)
    {n : ℕ} (h : (ps.flatMap f).Perm (List.range n)) {i : ℕ} (hi : i < n) :
    ∃! p, i ∈ f p := by
  obtain ⟨p, -, hp⟩ := List.mem_flatMap.mp (h.mem_iff.mpr (List.mem_range.mpr hi))
  refine ⟨p, hp, fun q hq => ?_⟩
  by_contra hne
  have hdisj : ps.Pairwise fun p q => (f p).Disjoint (f q) :=
    (List.nodup_flatMap.mp (h.nodup_iff.mpr List.nodup_range)).2
  have hsymm : Std.Symm fun p q => (f p).Disjoint (f q) := ⟨fun _ _ => List.Disjoint.symm⟩
  exact hdisj.forall (hps q) (hps p) hne hq hp

/-- No place has a number twice. -/
lemma nodup_of_perm {f : ι → List ℕ} {ps : List ι} {n : ℕ}
    (h : (ps.flatMap f).Perm (List.range n)) {p : ι} (hp : p ∈ ps) : (f p).Nodup :=
  (List.nodup_flatMap.mp (h.nodup_iff.mpr List.nodup_range)).1 p hp

/-- The slots below `c`: `free` ones, and those of the leases `out`.  The lease with ticket `t` made
the deposit number `t`; `kept` has the deposits of the leased slots, `back` the tickets of the
leases whose deposits have been taken out. -/
structure Leased (slot ticket : β → ℕ) (c : ℕ) (free : List ℕ) (out : List β)
    (kept : ℕ → Option κ) (back : List ℕ) (deposits : List κ) : Prop where
  slots : (free ++ out.map slot).Perm (List.range c)
  tickets : (out.map ticket ++ back).Perm (List.range deposits.length)
  leased : ∀ b ∈ out, ∃ k, kept (slot b) = some k ∧ deposits[ticket b]? = some k
  free : ∀ i ∈ free, kept i = none

namespace Leased

variable {slot ticket : β → ℕ} {c : ℕ} {free : List ℕ} {out out' : List β}
  {kept : ℕ → Option κ} {back back' : List ℕ} {deposits : List κ} {b : β}

/-- All slots are free. -/
lemma empty (slot ticket : β → ℕ) (c : ℕ) :
    Leased slot ticket c (List.range c) [] (fun _ => none) [] ([] : List κ) where
  slots := by rw [List.map_nil, List.append_nil]
  tickets := List.Perm.refl _
  leased b hb := absurd hb List.not_mem_nil
  free _ _ := rfl

lemma nodup_slots (h : Leased slot ticket c free out kept back deposits) :
    (free ++ out.map slot).Nodup :=
  h.slots.nodup_iff.mpr List.nodup_range

lemma free_lt (h : Leased slot ticket c free out kept back deposits) {i : ℕ} (hi : i ∈ free) :
    i < c :=
  List.mem_range.mp (h.slots.mem_iff.mp (List.mem_append_left _ hi))

lemma leased_lt (h : Leased slot ticket c free out kept back deposits) (hb : b ∈ out) :
    slot b < c :=
  List.mem_range.mp (h.slots.mem_iff.mp (List.mem_append_right _ (List.mem_map_of_mem hb)))

/-- A slot has a deposit as long as it is not free. -/
lemma kept_iff (h : Leased slot ticket c free out kept back deposits) {i : ℕ} (hi : i < c) :
    (kept i).isSome ↔ i ∉ free := by
  constructor
  · intro hsome hfree
    rw [h.free i hfree] at hsome
    cases hsome
  · intro hout
    have hmem := h.slots.mem_iff.mpr (List.mem_range.mpr hi)
    obtain ⟨b, hb, rfl⟩ := List.mem_map.mp ((List.mem_append.mp hmem).resolve_left hout)
    obtain ⟨k, hk, -⟩ := h.leased b hb
    rw [hk]
    rfl

/-- A lease may go from hand to hand. -/
lemma moved (h : Leased slot ticket c free out kept back deposits) (hout : out.Perm out') :
    Leased slot ticket c free out' kept back deposits where
  slots := ((hout.map slot).append_left free).symm.trans h.slots
  tickets := ((hout.map ticket).append_right back).symm.trans h.tickets
  leased b hb := h.leased b (hout.mem_iff.mpr hb)
  free := h.free

/-- So may what was given back. -/
lemma moved_back (h : Leased slot ticket c free out kept back deposits) (hback : back.Perm back') :
    Leased slot ticket c free out kept back' deposits :=
  { h with tickets := (hback.append_left _).symm.trans h.tickets }

/-- **A free slot is leased out**, for the next deposit. -/
lemma take (h : Leased slot ticket c (slot b :: free) out kept back deposits)
    (hticket : ticket b = deposits.length) (k : κ) :
    Leased slot ticket c free (b :: out) (Function.update kept (slot b) (some k)) back
      (deposits ++ [k]) := by
  have hnodup := h.nodup_slots
  rw [List.cons_append, List.nodup_cons, List.mem_append, not_or] at hnodup
  obtain ⟨⟨hfree, hout⟩, -⟩ := hnodup
  refine ⟨?_, ?_, ?_, ?_⟩
  · rw [List.map_cons]
    exact List.perm_middle.trans h.slots
  · rw [List.map_cons, List.cons_append, hticket, List.length_append, List.length_singleton,
      List.range_succ]
    exact (h.tickets.cons _).trans (List.perm_append_singleton _ _).symm
  · intro d hd
    obtain rfl | hold := List.mem_cons.mp hd
    · exact ⟨k, Function.update_self _ _ _, by rw [hticket, List.getElem?_concat_length]⟩
    · have hne : slot d ≠ slot b := fun heq => hout (heq ▸ List.mem_map_of_mem hold)
      obtain ⟨e, he, hdeposit⟩ := h.leased d hold
      refine ⟨e, by rw [Function.update_of_ne hne, he], ?_⟩
      rw [List.getElem?_append_left (List.getElem?_eq_some_iff.mp hdeposit).1, hdeposit]
  · intro i hi
    have hne : i ≠ slot b := fun heq => hfree (heq ▸ hi)
    rw [Function.update_of_ne hne]
    exact h.free i (List.mem_cons_of_mem _ hi)

/-- **A leased slot comes back**, and its deposit is taken out. -/
lemma giveBack (h : Leased slot ticket c free out kept back deposits)
    (hout : out.Perm (b :: out')) :
    Leased slot ticket c (free ++ [slot b]) out' (Function.update kept (slot b) none)
      (ticket b :: back) deposits := by
  have h := h.moved hout
  have hnodup : (slot b :: (free ++ out'.map slot)).Nodup := by
    have hall := h.nodup_slots
    rw [List.map_cons] at hall
    exact List.perm_middle.nodup_iff.mp hall
  rw [List.nodup_cons, List.mem_append, not_or] at hnodup
  obtain ⟨⟨-, hrest⟩, -⟩ := hnodup
  refine ⟨?_, ?_, ?_, ?_⟩
  · rw [List.append_assoc, List.singleton_append, ← List.map_cons]
    exact h.slots
  · exact List.perm_middle.trans h.tickets
  · intro d hd
    have hne : slot d ≠ slot b := fun heq => hrest (heq ▸ List.mem_map_of_mem hd)
    rw [Function.update_of_ne hne]
    exact h.leased d (List.mem_cons_of_mem _ hd)
  · intro i hi
    by_cases heq : i = slot b
    · rw [heq, Function.update_self]
    · rw [Function.update_of_ne heq]
      obtain hold | hnew := List.mem_append.mp hi
      · exact h.free i hold
      · exact absurd (List.mem_singleton.mp hnew) heq

end Leased

end Transition
