import Mathlib.Algebra.Order.BigOperators.Group.List
import Mathlib.Algebra.Order.Ring.Nat

/-!
# Tasks that take turns on shared state

A pool is a list of tasks and the state they share. A task is the code it has left
to run; a step of one task changes the task and the shared state. What every step
of a task with a property `P` keeps, where the shared state satisfies `I`, the
pool keeps whatever the order of the steps (`Pool.Inv.advance`, `Pool.Inv.spawn`).
What the tasks and the shared state weigh together does not grow if no step of a task
makes the task and the shared state heavier (`Pool.weight_advance_le`).
-/

namespace MeshCore.Lib

/-- Tasks and the state they share. -/
structure Pool (τ σ : Type) where
  tasks : List τ
  shared : σ

namespace Pool

variable {τ σ : Type}

/-- The task with this number takes a step. -/
def advance (step : τ → σ → τ × σ) (p : Pool τ σ) (i : Nat) : Pool τ σ :=
  match p.tasks[i]? with
  | some t => { tasks := p.tasks.set i (step t p.shared).1, shared := (step t p.shared).2 }
  | none => p

/-- The tasks after a step: one of them has moved. -/
theorem getElem?_advance (step : τ → σ → τ × σ) (p : Pool τ σ) (i j : Nat) :
    (p.advance step i).tasks[j]?
      = if j = i then p.tasks[j]?.map fun t => (step t p.shared).1 else p.tasks[j]? := by
  unfold advance
  cases hi : p.tasks[i]? with
  | none =>
    by_cases hj : j = i
    · rw [if_pos hj, hj, hi]
      rfl
    · rw [if_neg hj]
  | some t =>
    obtain ⟨hlt, -⟩ := List.getElem?_eq_some_iff.mp hi
    by_cases hj : j = i
    · rw [if_pos hj, hj, hi]
      exact List.getElem?_set_self hlt
    · rw [if_neg hj]
      exact List.getElem?_set_ne (fun h => hj h.symm)

/-- A new task. -/
def spawn (p : Pool τ σ) (t : τ) : Pool τ σ := { p with tasks := p.tasks ++ [t] }

/-- Every task satisfies `P`, and the shared state satisfies `I`. -/
structure Inv (P : τ → Prop) (I : σ → Prop) (p : Pool τ σ) : Prop where
  tasks : ∀ t ∈ p.tasks, P t
  shared : I p.shared

variable {P : τ → Prop} {I : σ → Prop}

/-- **One step** of some task. -/
theorem Inv.advance {step : τ → σ → τ × σ}
    (hstep : ∀ t s, P t → I s → P (step t s).1 ∧ I (step t s).2) {p : Pool τ σ}
    (h : p.Inv P I) (i : Nat) : (p.advance step i).Inv P I := by
  unfold Pool.advance
  cases hget : p.tasks[i]? with
  | none => exact h
  | some t =>
    obtain ⟨htask, hshared⟩ := hstep t p.shared (h.tasks t (List.mem_of_getElem? hget)) h.shared
    refine ⟨fun u hu => ?_, hshared⟩
    rcases List.mem_or_eq_of_mem_set hu with hold | rfl
    · exact h.tasks u hold
    · exact htask

theorem Inv.spawn {p : Pool τ σ} (h : p.Inv P I) {t : τ} (ht : P t) : (p.spawn t).Inv P I := by
  refine ⟨fun u hu => ?_, h.shared⟩
  rcases List.mem_append.mp hu with hold | hnew
  · exact h.tasks u hold
  · rw [List.mem_singleton.mp hnew]
    exact ht

/-- The weight of the tasks, and of the shared state. -/
def weight (w : τ → Nat) (v : σ → Nat) (p : Pool τ σ) : Nat :=
  (p.tasks.map w).sum + v p.shared

theorem weight_spawn (w : τ → Nat) (v : σ → Nat) (p : Pool τ σ) (t : τ) :
    (p.spawn t).weight w v = p.weight w v + w t := by
  unfold weight spawn
  dsimp only
  rw [List.map_append, List.sum_append, List.map_singleton, List.sum_singleton]
  omega

theorem sum_set_add {l : List Nat} {i a b : Nat} (h : l[i]? = some a) :
    (l.set i b).sum + a = l.sum + b := by
  induction l generalizing i with
  | nil => exact absurd h (by simp)
  | cons c l ih =>
    cases i with
    | zero =>
      obtain rfl := Option.some.inj h
      rw [List.set_cons_zero, List.sum_cons, List.sum_cons]
      omega
    | succ i =>
      rw [List.set_cons_succ, List.sum_cons, List.sum_cons]
      have hrest := ih h
      omega

/-- **One step** changes the weight by what it changes of the task and of the shared state. -/
theorem weight_advance (w : τ → Nat) (v : σ → Nat) (step : τ → σ → τ × σ) {p : Pool τ σ}
    {i : Nat} {t : τ} (h : p.tasks[i]? = some t) :
    (p.advance step i).weight w v + (w t + v p.shared)
      = p.weight w v + (w (step t p.shared).1 + v (step t p.shared).2) := by
  have hsum : ((p.tasks.set i (step t p.shared).1).map w).sum + w t
      = (p.tasks.map w).sum + w (step t p.shared).1 := by
    rw [List.map_set]
    exact sum_set_add (by rw [List.getElem?_map, h]; rfl)
  unfold weight Pool.advance
  rw [h]
  dsimp only
  omega

/-- A step that makes no task and shared state heavier does not make the pool heavier. -/
theorem weight_advance_le {w : τ → Nat} {v : σ → Nat} {step : τ → σ → τ × σ}
    (hstep : ∀ t s, P t → I s → w (step t s).1 + v (step t s).2 ≤ w t + v s) {p : Pool τ σ}
    (h : p.Inv P I) (i : Nat) : (p.advance step i).weight w v ≤ p.weight w v := by
  cases hget : p.tasks[i]? with
  | none =>
    unfold Pool.advance
    rw [hget]
  | some t =>
    have hweight := weight_advance w v step hget
    have hle := hstep t p.shared (h.tasks t (List.mem_of_getElem? hget)) h.shared
    omega

/-- A task weighs no more than the pool. -/
theorem le_weight (w : τ → Nat) (v : σ → Nat) {p : Pool τ σ} {t : τ} (ht : t ∈ p.tasks) :
    w t + v p.shared ≤ p.weight w v :=
  Nat.add_le_add_right (List.le_sum_of_mem (List.mem_map_of_mem ht)) _

end Pool

end MeshCore.Lib
