import Mathlib

/-!
# Where tasks are

A task that was handed over is at one place: in a queue, in the hand of a worker who has not begun
with it, among those that were started, or among those that were thrown away.  `Ledger.count` says
how often it is there.  Most steps of a system carry tasks from one place to another; a few bring a
new one.
-/

structure Ledger (τ : Type) where
  queued : List τ := []
  held : List τ := []
  started : List τ := []
  discarded : List τ := []

namespace Ledger

variable {τ : Type} [DecidableEq τ] {l : Ledger τ} {task : τ}

def count (l : Ledger τ) (task : τ) : Nat :=
  l.queued.count task + l.held.count task + l.started.count task + l.discarded.count task

def Carried (l l' : Ledger τ) : Prop := ∀ task, l'.count task = l.count task

def Entered (task : τ) (l l' : Ledger τ) : Prop :=
  ∀ other, l'.count other = l.count other + if other = task then 1 else 0

theorem count_cons_eq (other : τ) (tasks : List τ) :
    (task :: tasks).count other = tasks.count other + if other = task then 1 else 0 := by
  by_cases hother : other = task
  · subst hother; simp
  · simp [hother, Ne.symm hother]

theorem entered_queue {queued : List τ} (h : queued.Perm (task :: l.queued)) :
    Entered task l { l with queued := queued } := by
  intro other
  simp only [count, h.count_eq, count_cons_eq]; omega

theorem entered_start : Entered task l { l with started := l.started ++ [task] } := by
  intro other
  simp only [count, List.count_append, count_cons_eq, List.count_nil]; omega

theorem carried_take {rest : List τ} (h : l.queued = task :: rest) :
    Carried l { l with queued := rest, held := task :: l.held } := by
  intro other
  simp only [count, h, count_cons_eq]; omega

theorem carried_start {held : List τ} (h : l.held.Perm (task :: held)) :
    Carried l { l with held := held, started := l.started ++ [task] } := by
  intro other
  simp only [count, h.count_eq, List.count_append, count_cons_eq, List.count_nil]
  omega

theorem carried_discard :
    Carried l { l with queued := [], discarded := l.discarded ++ l.queued } := by
  intro other
  simp only [count, List.count_append, List.count_nil]; omega

end Ledger
