import KernelLog.Proofs.Drain
import KernelLog.Scan.Basic

/-!
This module relates a scan to two simpler runs: draining its source, and printing the accepted records.
-/

namespace KernelLog

variable {σ ω : Type}

structure Printed (ω : Type) where
  count : Nat
  fault : Option Fault
  printer : Option (Printer ω)

section

variable [Sink ω]

def Printer.printAll (p : Printer ω) : List Record → Printed ω
  | [] => { count := 0, fault := none, printer := some p }
  | r :: rs =>
    match p.print r with
    | (.ok _, p) =>
      let rest := p.printAll rs
      { rest with count := rest.count + 1 }
    | (.error fault, p) => { count := 0, fault := some fault, printer := some p }

def printAll (printer : Option (Printer ω)) (rs : List Record) : Printed ω :=
  match printer with
  | none => { count := rs.length, fault := none, printer := none }
  | some p => p.printAll rs

@[simp]
theorem printAll_nil (printer : Option (Printer ω)) :
    printAll printer [] = { count := 0, fault := none, printer } := by
  cases printer <;> rfl

theorem Printer.printAll_cons_of_ok {p p' : Printer ω} {r : Record} {n : Nat} (h : p.print r = (.ok n, p'))
    (rs : List Record) :
    p.printAll (r :: rs) = { p'.printAll rs with count := (p'.printAll rs).count + 1 } := by
  rw [printAll, h]

theorem Printer.printAll_cons_of_error {p p' : Printer ω} {r : Record} {fault : Fault}
    (h : p.print r = (.error fault, p')) (rs : List Record) :
    p.printAll (r :: rs) = { count := 0, fault := some fault, printer := some p' } := by
  rw [printAll, h]

theorem printAll_of_deliver_none {count : Nat} {printer printer' : Option (Printer ω)} {r : Record}
    (h : deliver count printer r = (none, printer')) (rs : List Record) :
    printAll printer (r :: rs) =
      { printAll printer' rs with count := (printAll printer' rs).count + 1 } := by
  cases printer with
  | none =>
    cases h
    rfl
  | some p =>
    rcases hprint : p.print r with ⟨outcome, p'⟩
    rw [deliver, hprint] at h
    cases outcome with
    | ok n =>
      cases h
      exact Printer.printAll_cons_of_ok hprint rs
    | error fault => cases h

theorem printAll_of_deliver_some {count : Nat} {printer printer' : Option (Printer ω)} {r : Record}
    {result : Except ScanError Nat} (h : deliver count printer r = (some result, printer')) (rs : List Record) :
    ∃ fault, printAll printer (r :: rs) = { count := 0, fault := some fault, printer := printer' } ∧
      result = if fault.kind = .brokenPipe then .ok (count + 1) else .error (.write fault) := by
  cases printer with
  | none => cases h
  | some p =>
    rcases hprint : p.print r with ⟨outcome, p'⟩
    rw [deliver, hprint] at h
    cases outcome with
    | ok n => cases h
    | error fault =>
      cases h
      exact ⟨fault, Printer.printAll_cons_of_error hprint rs, rfl⟩

def flushFault? (printer : Option (Printer ω)) : Option Fault := do
  let p ← printer
  match p.flush.1 with
  | .ok () => none
  | .error fault => some fault

theorem isOk_finish (count : Nat) (printer : Option (Printer ω)) :
    (finish count printer).1.isOk ↔ ∀ fault ∈ flushFault? printer, fault.kind = .brokenPipe := by
  cases printer with
  | none => simp [finish, flushFault?, Except.isOk, Except.toBool]
  | some p =>
    simp only [finish, flushFault?, Option.bind_eq_bind, Option.bind_some]
    rcases hflush : p.flush with ⟨outcome, p'⟩
    cases outcome with
    | ok => simp [Except.isOk, Except.toBool]
    | error fault =>
      by_cases hkind : fault.kind = .brokenPipe <;> simp [hkind, Except.isOk, Except.toBool]

end

variable [Source σ]

def accepted (source : σ) (filter : Filter) : List Record :=
  (Source.drain source).records.filter filter.accepts

theorem accepted_of_accepts {source source' : σ} {filter : Filter} {r : Record}
    (h : Source.pull source = (.found r, source')) (hr : filter.accepts r) :
    accepted source filter = r :: accepted source' filter := by
  rw [accepted, Source.drain_of_found h]
  exact List.filter_cons_of_pos hr

theorem accepted_of_not_accepts {source source' : σ} {filter : Filter} {r : Record}
    (h : Source.pull source = (.found r, source')) (hr : ¬ filter.accepts r) :
    accepted source filter = accepted source' filter := by
  rw [accepted, Source.drain_of_found h]
  exact List.filter_cons_of_neg hr

theorem accepted_of_not_found {source source' : σ} {filter : Filter} {last : Pull Record Fault}
    (h : Source.pull source = (last, source')) (hlast : last.isFound = false) :
    accepted source filter = [] := by
  rw [accepted, Source.drain_of_not_found h hlast]
  rfl

namespace scan

variable [Sink ω] {filter : Filter} {source source' : σ} {printer : Option (Printer ω)} {r : Record}

theorem go_of_accepts (h : Source.pull source = (.found r, source')) (hr : filter.accepts r) (count : Nat) :
    go filter count source printer =
      match deliver count printer r with
      | (some result, printer) => (result, source', printer)
      | (none, printer) => go filter (count + 1) source' printer := by
  rw [go]
  split
  . next heq =>
    rw [h, Prod.mk.injEq, Pull.found.injEq] at heq
    obtain ⟨rfl, rfl⟩ := heq
    exact if_pos hr
  . next hnot heq =>
    rw [h, Prod.mk.injEq] at heq
    exact absurd heq.1.symm (hnot r)

theorem go_of_not_accepts (h : Source.pull source = (.found r, source')) (hr : ¬ filter.accepts r)
    (count : Nat) : go filter count source printer = go filter count source' printer := by
  rw [go]
  split
  . next heq =>
    rw [h, Prod.mk.injEq, Pull.found.injEq] at heq
    obtain ⟨rfl, rfl⟩ := heq
    exact if_neg hr
  . next hnot heq =>
    rw [h, Prod.mk.injEq] at heq
    exact absurd heq.1.symm (hnot r)

theorem go_of_not_found {last : Pull Record Fault} (h : Source.pull source = (last, source'))
    (hlast : last.isFound = false) (count : Nat) :
    go filter count source printer = ((finish count printer).1, source', (finish count printer).2) := by
  rw [go]
  split
  . next heq =>
    rw [h, Prod.mk.injEq] at heq
    rw [heq.1] at hlast
    cases hlast
  . next heq =>
    rw [h, Prod.mk.injEq] at heq
    rw [heq.2]

theorem go_keeps {P : σ → Prop} (hkeeps : ∀ source, P source → P (Source.pull source).2) (count : Nat)
    (h : P source) : P (go filter count source printer).2.1 := by
  induction source using Source.drain.induct generalizing count printer with
  | case1 source r source' hpull ih =>
    have hsource' : P source' := by
      have := hkeeps source h
      rwa [hpull] at this
    by_cases hr : filter.accepts r
    . rw [go_of_accepts hpull hr]
      split
      . exact hsource'
      . exact ih _ hsource'
    . rw [go_of_not_accepts hpull hr]
      exact ih _ hsource'
  | case2 source last source' hnot hpull =>
    rw [go_of_not_found hpull (Pull.isFound_eq_false hnot)]
    have := hkeeps source h
    rwa [hpull] at this

theorem go_of_fault_eq_none (count : Nat) (h : (printAll printer (accepted source filter)).fault = none) :
    let printed := printAll printer (accepted source filter)
    let finished := finish (count + (accepted source filter).length) printed.printer
    go filter count source printer = (finished.1, (Source.drain source).source, finished.2) := by
  induction source using Source.drain.induct generalizing count printer with
  | case1 source r source' hpull ih =>
    by_cases hr : filter.accepts r
    . rw [accepted_of_accepts hpull hr] at h ⊢
      rw [go_of_accepts hpull hr, Source.drain_of_found hpull]
      rcases hdeliver : deliver count printer r with ⟨_ | result, printer'⟩
      . rw [printAll_of_deliver_none hdeliver] at h ⊢
        rw [List.length_cons, Nat.add_comm (accepted source' filter).length, ← Nat.add_assoc]
        exact ih (count + 1) h
      . obtain ⟨fault, hprint, -⟩ := printAll_of_deliver_some hdeliver (accepted source' filter)
        rw [hprint] at h
        cases h
    . rw [accepted_of_not_accepts hpull hr] at h ⊢
      rw [go_of_not_accepts hpull hr, Source.drain_of_found hpull]
      exact ih count h
  | case2 source last source' hnot hpull =>
    have hlast := Pull.isFound_eq_false hnot
    rw [accepted_of_not_found hpull hlast, go_of_not_found hpull hlast, Source.drain_of_not_found hpull hlast,
      printAll_nil]
    rfl

theorem go_of_fault_eq_some (count : Nat) {fault : Fault}
    (h : (printAll printer (accepted source filter)).fault = some fault) :
    let printed := printAll printer (accepted source filter)
    ∃ before r later, (Source.drain source).records = before ++ r :: later ∧ filter.accepts r ∧
      (before.filter filter.accepts).length = printed.count ∧
      go filter count source printer =
        (if fault.kind = .brokenPipe then .ok (count + printed.count + 1) else .error (.write fault),
          Source.after source (before.length + 1), printed.printer) := by
  induction source using Source.drain.induct generalizing count printer with
  | case1 source r source' hpull ih =>
    have hsource' : (Source.pull source).2 = source' := by rw [hpull]
    have hafter (before : List Record) :
        Source.after source ((r :: before).length + 1) = Source.after source' (before.length + 1) := by
      rw [List.length_cons, Source.after, hsource']
    by_cases hr : filter.accepts r
    . rw [accepted_of_accepts hpull hr] at h ⊢
      rw [go_of_accepts hpull hr, Source.drain_of_found hpull]
      rcases hdeliver : deliver count printer r with ⟨_ | result, printer'⟩
      . rw [printAll_of_deliver_none hdeliver] at h ⊢
        obtain ⟨before, r', later, hrecords, hr', hlength, hgo⟩ := ih (count + 1) h
        -- the record that was delivered stands in front of the others that are pulled before the fault
        refine ⟨r :: before, r', later, ?_, hr', ?_, ?_⟩
        . rw [List.cons_append, ← hrecords]
        . rw [List.filter_cons_of_pos hr, List.length_cons, hlength]
        . dsimp only
          rw [hgo, hafter, Nat.add_assoc count 1, Nat.add_comm 1]
      . obtain ⟨fault', hprint, hresult⟩ := printAll_of_deliver_some hdeliver (accepted source' filter)
        rw [hprint] at h ⊢
        rw [Option.some.injEq] at h
        subst h
        refine ⟨[], r, _, rfl, hr, rfl, ?_⟩
        rw [List.length_nil, Source.after, hsource', hresult]
        rfl
    . rw [accepted_of_not_accepts hpull hr] at h ⊢
      rw [go_of_not_accepts hpull hr, Source.drain_of_found hpull]
      obtain ⟨before, r', later, hrecords, hr', hlength, hgo⟩ := ih count h
      refine ⟨r :: before, r', later, ?_, hr', ?_, ?_⟩
      . rw [List.cons_append, ← hrecords]
      . rw [List.filter_cons_of_neg hr, hlength]
      . rw [hgo, hafter]
  | case2 source last source' hnot hpull =>
    rw [accepted_of_not_found hpull (Pull.isFound_eq_false hnot), printAll_nil] at h
    cases h

end scan

variable [Sink ω]

theorem isOk_scan (source : σ) (filter : Filter) (printer : Option (Printer ω)) :
    let printed := printAll printer (accepted source filter)
    (scan source filter printer).1.isOk ↔
      ∀ fault ∈ printed.fault.or (flushFault? printed.printer), fault.kind = .brokenPipe := by
  intro printed
  cases hfault : printed.fault with
  | none =>
    rw [scan, scan.go_of_fault_eq_none 0 hfault, isOk_finish, Option.none_or]
  | some fault =>
    obtain ⟨before, r, later, -, -, -, hgo⟩ := scan.go_of_fault_eq_some 0 hfault
    rw [scan, hgo, Option.some_or]
    by_cases hkind : fault.kind = .brokenPipe <;> simp [hkind, Except.isOk, Except.toBool]

end KernelLog
