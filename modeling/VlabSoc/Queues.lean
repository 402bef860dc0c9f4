/-
Bounded first-in first-out queues.

A queue of capacity `cap` is offered chunks, of which it takes what fits, and is asked
for a number of elements, of which it hands out as many as it holds.  Over a run

* `run_conserves` — what was taken is what was handed out and what is still there, in order;
* `refused_full` — elements are refused only by a queue that is full afterwards.
-/
import VlabSoc.Runs

namespace Queues

open Runs

variable {α : Type*} (cap : ℕ)

inductive Op (α : Type*)
  | put (xs : List α)
  | get (n : ℕ)

def step (q : List α) : Op α → List α
  | .put xs => q ++ xs.take (cap - q.length)
  | .get n => q.drop n

/-- What a queue takes of an offer. -/
def taken : List α × Op α → List α
  | (q, .put xs) => xs.take (cap - q.length)
  | (_, .get _) => []

/-- What it refuses. -/
def refused : List α × Op α → List α
  | (q, .put xs) => xs.drop (cap - q.length)
  | (_, .get _) => []

/-- What it hands out. -/
def handed : List α × Op α → List α
  | (_, .put _) => []
  | (q, .get n) => q.take n

variable {cap}

/-- One operation moves elements in at the end and out at the head. -/
theorem step_conserves (q : List α) (o : Op α) :
    q ++ taken cap (q, o) = handed (q, o) ++ step cap q o := by
  cases o with
  | put xs => rfl
  | get n => rw [taken, handed, step, List.append_nil, List.take_append_drop]

theorem run_conserves (q : List α) (os : List (Op α)) :
    q ++ (stages (step cap) q os).flatMap (taken cap) =
      (stages (step cap) q os).flatMap handed ++ run (step cap) q os :=
  run_flow (step cap) (P := fun _ => True) (C := fun _ => True) (fun _ _ _ _ => trivial) id
    (taken cap) handed (fun q o _ _ => step_conserves q o) (fun _ _ => trivial) trivial

theorem taken_append_refused (q : List α) (xs : List α) :
    taken cap (q, .put xs) ++ refused cap (q, .put xs) = xs :=
  List.take_append_drop _ xs

theorem refused_full {q : List α} (hq : q.length ≤ cap) {o : Op α}
    (h : refused cap (q, o) ≠ []) : (step cap q o).length = cap := by
  cases o with
  | put xs =>
    have hlong := List.length_pos_iff.mpr h
    rw [refused, List.length_drop] at hlong
    rw [step, List.length_append, List.length_take]
    omega
  | get n => exact absurd rfl h

/-- Operations that only put fill the queue up to its capacity. -/
theorem step_put {q : List α} (hq : q.length ≤ cap) (xs : List α) :
    step cap q (.put xs) = (q ++ xs).take cap := by
  rw [step, List.take_append, List.take_of_length_le hq]

end Queues
