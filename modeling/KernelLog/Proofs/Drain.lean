import KernelLog.Source

/-!
This module contains the draining of a source: what it gives when it is pulled until a pull finds nothing.
-/

namespace KernelLog

theorem Pull.isFound_eq_false {α ε : Type} {p : Pull α ε} (h : ∀ value, p ≠ .found value) :
    p.isFound = false := by
  cases p with
  | found value => exact absurd rfl (h value)
  | done => rfl
  | failed error => rfl

structure Drained (σ : Type) where
  records : List Record
  last : Pull Record Fault
  source : σ

namespace Source

variable {σ : Type} [Source σ]

def drain (s : σ) : Drained σ :=
  match _hpull : Source.pull s with
  | (.found r, s') =>
    let rest := drain s'
    { rest with records := r :: rest.records }
  | (last, s') => { records := [], last, source := s' }
termination_by Source.backlog s
decreasing_by
  have := Source.backlog_pull_lt s
  simpa [_hpull, Pull.isFound] using this

def after (s : σ) : Nat → σ
  | 0 => s
  | n + 1 => after (Source.pull s).2 n

theorem drain_of_found {s s' : σ} {r : Record} (h : Source.pull s = (.found r, s')) :
    drain s = { drain s' with records := r :: (drain s').records } := by
  rw [drain]
  split
  . next heq =>
    rw [h, Prod.mk.injEq, Pull.found.injEq] at heq
    rw [heq.1, heq.2]
  . next hnot heq =>
    rw [h, Prod.mk.injEq] at heq
    exact absurd heq.1.symm (hnot r)

theorem drain_of_not_found {s s' : σ} {last : Pull Record Fault} (h : Source.pull s = (last, s'))
    (hlast : last.isFound = false) : drain s = { records := [], last, source := s' } := by
  rw [drain]
  split
  . next heq =>
    rw [h, Prod.mk.injEq] at heq
    rw [heq.1] at hlast
    cases hlast
  . next heq =>
    rw [h, Prod.mk.injEq] at heq
    rw [heq.1, heq.2]

theorem isFound_last_drain (s : σ) : (drain s).last.isFound = false := by
  fun_induction drain s with
  | case1 s r s' hpull rest ih => exact ih
  | case2 s last s' hnot hpull => exact Pull.isFound_eq_false hnot

end Source
end KernelLog
