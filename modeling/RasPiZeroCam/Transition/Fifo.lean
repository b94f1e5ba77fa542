import Mathlib.Tactic

/-!
Bounded queues, as a specification: operations together with their results.

* `Fifo.Step`: what a queue of capacity `n` may do.  `Fifo.Run`: the histories it may have, from
  the empty queue.
* `Fifo.Run.conserves`: what was accepted is what was popped, and then what is queued.
-/

namespace Transition

namespace Fifo

/-- An operation on a queue, with its result; a pop of the empty queue has none. -/
inductive Op (α : Type*)
  | push (a : α) (ok : Bool)
  | pop (r : Option α)
  deriving DecidableEq

variable {α : Type*} {n : ℕ} {q : List α} {ops : List (Op α)}

/-- What an operation does to a queue that holds at most `n` elements. -/
inductive Step (n : ℕ) : List α → Op α → List α → Prop
  | push {q : List α} {a : α} : q.length < n → Step n q (.push a true) (q ++ [a])
  | full {q : List α} {a : α} : q.length = n → Step n q (.push a false) q
  | pop {q : List α} {a : α} : Step n (a :: q) (.pop (some a)) q
  | empty : Step n [] (.pop none) []

/-- The histories of a queue that was empty, and what it holds after them. -/
inductive Run (n : ℕ) : List (Op α) → List α → Prop
  | nil : Run n [] []
  | snoc {ops : List (Op α)} {e : Op α} {q q' : List α} :
      Run n ops q → Step n q e q' → Run n (ops ++ [e]) q'

/-- What an operation puts into the queue. -/
def Op.accepted : Op α → Option α
  | push a true => some a
  | _ => none

/-- What an operation takes out of the queue. -/
def Op.popped : Op α → Option α
  | pop r => r
  | _ => none

/-- The elements that a history put into the queue, in order. -/
def accepted (ops : List (Op α)) : List α := ops.filterMap Op.accepted

/-- The elements that a history took out of the queue, in order. -/
def popped (ops : List (Op α)) : List α := ops.filterMap Op.popped

@[simp] lemma accepted_nil : accepted ([] : List (Op α)) = [] := rfl

@[simp] lemma popped_nil : popped ([] : List (Op α)) = [] := rfl

@[simp] lemma accepted_snoc (e : Op α) :
    accepted (ops ++ [e]) = accepted ops ++ e.accepted.toList := by
  rw [accepted, List.filterMap_append]
  cases h : e.accepted <;> simp [accepted, h]

@[simp] lemma popped_snoc (e : Op α) : popped (ops ++ [e]) = popped ops ++ e.popped.toList := by
  rw [popped, List.filterMap_append]
  cases h : e.popped <;> simp [popped, h]

/-- **Nothing is lost, made up or reordered.** -/
theorem Run.conserves (h : Run n ops q) : popped ops ++ q = accepted ops := by
  induction h with
  | nil => rfl
  | snoc _ hstep ih =>
      cases hstep with
      | push _ => simp [Op.accepted, Op.popped, ← ih]
      | full _ => simp [Op.accepted, Op.popped, ih]
      | pop => simp [Op.accepted, Op.popped, ← ih]
      | empty => simpa [Op.accepted, Op.popped] using ih

/-- A queue holds at most its capacity. -/
lemma Run.length_le (h : Run n ops q) : q.length ≤ n := by
  induction h with
  | nil => exact Nat.zero_le n
  | snoc _ hstep ih =>
      cases hstep with
      | push hlt =>
          rw [List.length_append, List.length_singleton]
          exact hlt
      | full _ => exact ih
      | pop => exact (Nat.le_succ _).trans ih
      | empty => exact ih

/-- The number of elements that were accepted and not popped. -/
lemma Run.length_eq (h : Run n ops q) : (accepted ops).length = (popped ops).length + q.length := by
  rw [← h.conserves, List.length_append]

end Fifo

end Transition
