import KernelLog.Kernel.RingBuffer
import KernelLog.Printer.Tape
import KernelLog.Proofs.Scan
import KernelLog.Session.Basic

/-!
This module contains what the scans of a session ask of the kernel. Main statement: when the buffer of the
kernel is cleared after a scan, and when that takes records away that nobody has seen.
-/

namespace Except

variable {ε α : Type}

theorem eq_ok_of_mem_toOption {result : Except ε α} {a : α} (h : a ∈ result.toOption) : result = .ok a := by
  cases result with
  | error error => cases h
  | ok value =>
    cases h
    rfl

theorem isSome_toOption (result : Except ε α) : result.toOption.isSome = result.isOk := by
  cases result with
  | error error => rfl
  | ok value => rfl

end Except

namespace KernelLog

structure Watched (κ : Type) where
  kernel : κ
  calls : List (ControlAction × Nat)

namespace Watched

variable {κ : Type}

def ofKernel (kernel : κ) : Watched κ :=
  { kernel, calls := [] }

instance [Control κ] : Control (Watched κ) where
  control action room w :=
    ((Control.control action room w.kernel).1,
      { kernel := (Control.control action room w.kernel).2, calls := w.calls ++ [(action, room)] })

theorem calls_clear [Control κ] (w : Watched κ) : (Control.clear w).2.calls = w.calls ++ [(.clear, 0)] := by
  rw [Control.clear]
  split
  . next heq => rw [← (Prod.mk.inj heq).2]
  . next heq => rw [← (Prod.mk.inj heq).2]

end Watched

namespace Session

variable {δ κ ω : Type}

theorem clearsAfterScan_of_kmsg {s : Session δ κ} {reader : Kmsg.Reader δ}
    (hbackend : s.backend = .kmsg reader) (haction : s.config.action = .readClear) :
    s.clearsAfterScan := by
  rw [clearsAfterScan, hbackend]
  simpa using haction

theorem clearsAfterScan_eq_of_name (s s' : Session δ κ) (hname : s.backend.name = s'.backend.name)
    (haction : s.config.action = s'.config.action) : s.clearsAfterScan = s'.clearsAfterScan := by
  rw [clearsAfterScan, clearsAfterScan, haction]
  cases hs : s.backend <;> cases hs' : s'.backend <;> simp [hs, hs', Backend.name] at hname ⊢

variable [Kmsg.Device δ] [Control κ] [Sink ω]

theorem name_scan (backend : Backend δ) (filter : Filter) (printer : Option (Printer ω)) :
    (KernelLog.scan backend filter printer).2.1.name = backend.name := by
  refine scan.go_keeps (P := fun b : Backend δ => b.name = backend.name) ?_ 0 rfl
  intro b h
  rw [← h]
  cases b <;> rfl

def coming (s : Session δ κ) : List Record :=
  accepted s.backend s.config.filter

/--
A scan of the session comes to the end of what there is, without a fault, and prints every accepted record.
-/
def Drains (s : Session δ κ) (printer : Option (Printer ω)) : Prop :=
  (Source.drain s.backend).last = .done ∧ (printAll printer s.coming).fault = none

instance (s : Session δ κ) (printer : Option (Printer ω)) : Decidable (s.Drains printer) :=
  inferInstanceAs (Decidable (_ ∧ _))

/--
A scan of the session clears the buffer of the kernel, and calls the kernel for nothing else.
-/
def Clears (s : Session δ (Watched κ)) (printer : Option (Printer ω)) : Prop :=
  (s.scan printer).2.kernel.calls = s.kernel.calls ++ [(.clear, 0)]

instance (s : Session δ (Watched κ)) (printer : Option (Printer ω)) : Decidable (s.Clears printer) :=
  inferInstanceAs (Decidable (_ = _))

theorem scan_eq (s : Session δ κ) (printer : Option (Printer ω)) :
    let scanned := KernelLog.scan s.backend s.config.filter printer
    s.scan printer =
      ((scanned.1, scanned.2.2),
        { s with
          backend := scanned.2.1
          matched := s.matched + scanned.1.toOption.getD 0
          kernel :=
            if s.clearsAfterScan ∧ scanned.1.isOk then (Control.clear s.kernel).2 else s.kernel }) := by
  have hname := name_scan s.backend s.config.filter printer
  rcases hscan : KernelLog.scan s.backend s.config.filter printer with ⟨_ | count, backend, printer'⟩
  . simp [scan, hscan, Except.isOk, Except.toBool, Except.toOption]
  . rw [hscan] at hname
    have hclears : { s with backend, matched := s.matched + count }.clearsAfterScan = s.clearsAfterScan :=
      clearsAfterScan_eq_of_name _ _ hname rfl
    simp only [scan, hscan, hclears]
    by_cases h : s.clearsAfterScan
    . simp [h, Except.isOk, Except.toBool, Except.toOption]
    . simp [h, Except.toOption]

theorem outcome_scan (s : Session δ κ) (printer : Option (Printer ω)) :
    (s.scan printer).1.1 = (KernelLog.scan s.backend s.config.filter printer).1 := by
  rw [scan_eq]

theorem calls_scan (s : Session δ (Watched κ)) (printer : Option (Printer ω)) :
    (s.scan printer).2.kernel.calls = s.kernel.calls ++
      (if s.clearsAfterScan ∧ (s.scan printer).1.1.isOk then [(.clear, 0)] else []) := by
  rw [scan_eq]
  dsimp only
  split
  . exact Watched.calls_clear s.kernel
  . exact (List.append_nil _).symm

theorem clears_iff_isOk {s : Session δ (Watched κ)} (h : s.clearsAfterScan) (printer : Option (Printer ω)) :
    s.Clears printer ↔ (KernelLog.scan s.backend s.config.filter printer).1.isOk := by
  rw [Clears, calls_scan, outcome_scan]
  by_cases hok : (KernelLog.scan s.backend s.config.filter printer).1.isOk <;> simp [h, hok]

/--
When a scan of the device clears the buffer of the kernel: unless its output could not be written for another
reason than being closed. So it clears not only after it has drained the device, but also when a fault of the
device has ended it, or when the output was closed while records were still to come.
-/
theorem clears_iff (s : Session δ (Watched κ)) (reader : Kmsg.Reader δ) (hbackend : s.backend = .kmsg reader)
    (haction : s.config.action = .readClear) (printer : Option (Printer ω)) :
    let printed := printAll printer s.coming
    let flushFault? := flushFault? printed.printer
    (s.Clears printer ∨ (s.scan printer).2.kernel.calls = s.kernel.calls) ∧
      (s.Clears printer ↔ ∀ fault ∈ printed.fault.or flushFault?, fault.kind = .brokenPipe) ∧
      (s.Clears printer ∧ ¬ s.Drains printer ↔
        (printed.fault = none ∧ (∀ fault ∈ flushFault?, fault.kind = .brokenPipe) ∧
            ∃ fault, (Source.drain s.backend).last = .failed fault) ∨
          ∃ fault, printed.fault = some fault ∧ fault.kind = .brokenPipe) := by
  intro printed flushFault?
  have hclears : s.Clears printer ↔ ∀ fault ∈ printed.fault.or flushFault?, fault.kind = .brokenPipe :=
    (clears_iff_isOk (clearsAfterScan_of_kmsg hbackend haction) printer).trans (isOk_scan _ _ printer)
  refine ⟨?_, hclears, ?_⟩
  . rw [Clears, calls_scan]
    split
    . exact .inl rfl
    . exact .inr (List.append_nil _)
  . rw [hclears, Drains]
    have hlast := Source.isFound_last_drain s.backend
    -- only a scan that prints everything comes to the last pull of the source
    cases hfault : printed.fault with
    | some fault => simp
    | none =>
      cases hdrain : (Source.drain s.backend).last with
      | found r =>
        rw [hdrain] at hlast
        cases hlast
      | done => simp
      | failed fault => simp

def clearing : Config :=
  { Config.new Level.max Timestamp.zero false 0 with action := .readClear }

def failing : Kmsg.Script :=
  .ofLists
    [.ok (Octets.ofString "6,1,5,-;first"), .error (.ofKind .other), .ok (Octets.ofString "6,2,6,-;second")] []

def uncleared : Watched RingBuffer :=
  .ofKernel
    { text := Octets.ofString "<6>first\n<6>second\n", size := 0, full := 0, faults := [], calls := [] }

theorem clears_iff_failing :
    let s : Session Kmsg.Script (Watched RingBuffer) :=
      { config := clearing, backend := .kmsg (.new failing false), kernel := uncleared, boot := none
        matched := 0 }
    s.Clears (none : Option (Printer Tape)) ∧ ¬ s.Drains (none : Option (Printer Tape)) := by
  intro s
  have := (clears_iff s (.new failing false) rfl rfl (none : Option (Printer Tape))).2.2
  rw [this]
  exact .inl ⟨rfl, by decide +kernel, .ofKind .other, by decide +kernel⟩

/--
A session over a device that fails clears the buffer before the second record was read, and so does one whose
output is closed in the first.
-/
theorem clears_undrained :
    let closed := { Tape.blank with limit := some 3, refusal := .ofKind .brokenPipe }
    ∃ s ∈ (start clearing (fun _ => .ok failing) .empty none uncleared).toOption,
      s.backend.name = .kmsg ∧ s.config.action = .readClear ∧
        (s.Clears (none : Option (Printer Tape)) ∧ ¬ s.Drains (none : Option (Printer Tape))) ∧
        s.Clears (some (s.printer closed false)) ∧ ¬ s.Drains (some (s.printer closed false)) := by
  decide +kernel

end Session
end KernelLog
