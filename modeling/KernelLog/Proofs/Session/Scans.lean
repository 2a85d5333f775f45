import KernelLog.Proofs.Session
import Mathlib.Algebra.Ring.Nat

/-!
This module contains what a session asks of the kernel over its whole life. Main statement: the buffer of the kernel
is called for when a session over it is started, or else only to clear it after scans of the device.
-/

namespace KernelLog

namespace Backend

variable {δ κ : Type} [Control κ] {config : Config} {openDevice : Bool → Except Fault δ} {storage : Storage}
  {kernel kernel' : κ} {backend : Backend δ}

theorem name_openBuffer (h : acquire.openBuffer config kernel = (.ok backend, kernel')) : backend.name = .syslog := by
  unfold acquire.openBuffer at h
  dsimp only at h
  rcases hopen : Legacy.Reader.openSyslog config.action config.bufferSize kernel with ⟨_ | reader, opened⟩
  . rw [hopen] at h
    cases h
  . rw [hopen] at h
    cases h
    rfl

theorem kernel_acquire [Kmsg.Device δ] (h : acquire config openDevice storage kernel = (.ok backend, kernel'))
    (hname : backend.name ≠ .syslog) : kernel' = kernel := by
  unfold acquire at h
  split at h
  . split at h
    . exact (Prod.mk.inj h).2.symm
    . exact absurd (name_openBuffer h) hname
  . exact absurd (name_openBuffer h) hname
  . exact (Prod.mk.inj h).2.symm

end Backend

namespace Session

variable {δ κ κ' ω : Type}

theorem clearsAfterScan_iff (s : Session δ κ) :
    s.clearsAfterScan ↔ s.backend.name = .kmsg ∧ s.config.action = .readClear := by
  unfold clearsAfterScan
  cases s.backend with
  | kmsg reader => simp [Backend.name]
  | syslog reader => simp [Backend.name]
  | file reader => simp [Backend.name]

def onKernel (s : Session δ κ) (kernel : κ') : Session δ κ' :=
  { config := s.config, backend := s.backend, kernel, boot := s.boot, matched := s.matched }

variable [Kmsg.Device δ] [Control κ] [Control κ'] [Sink ω]

theorem start_eq_ok {config : Config} {openDevice : Bool → Except Fault δ} {storage : Storage} {boot : Option Instant}
    {kernel : κ} {s : Session δ κ} (h : start config openDevice storage boot kernel = .ok s) :
    config.problem? = none ∧ Backend.acquire config openDevice storage kernel = (.ok s.backend, s.kernel) ∧
      s.config = config ∧ s.matched = 0 := by
  unfold start at h
  split at h
  . cases h
  . next hproblem =>
    split at h
    . cases h
    . next hacquire =>
      cases h
      exact ⟨hproblem, hacquire, rfl, rfl⟩

structure Scanned : Type 1 where
  ω : Type
  sink : Sink ω
  given : Option (Printer ω)
  result : Except ScanError Nat
  returned : Option (Printer ω)

def Scanned.count (x : Scanned) : Nat :=
  x.result.toOption.getD 0

def scanned (s : Session δ κ) (printer : Option (Printer ω)) : Scanned :=
  { ω
    sink := inferInstance
    given := printer
    result := (s.scan printer).1.1
    returned := (s.scan printer).1.2 }

/--
The scans that a session may make, the first one first, with any printers, and the session as it is then.
-/
inductive Scans (s : Session δ κ) : List Scanned → Session δ κ → Prop where
  | opened : Scans s [] s
  | next {xs : List Scanned} {s' : Session δ κ} {ω : Type} [Sink ω] (printer : Option (Printer ω)) :
    Scans s xs s' → Scans s (xs ++ [s'.scanned printer]) (s'.scan printer).2

theorem scan_onKernel (s : Session δ κ) (kernel : κ') (printer : Option (Printer ω)) :
    ((s.onKernel kernel).scan printer).1 = (s.scan printer).1 ∧
      ((s.onKernel kernel).scan printer).2.matched = (s.scan printer).2.matched := by
  rw [scan_eq, scan_eq]
  exact ⟨rfl, rfl⟩

structure Lives (s : Session δ κ) (xs : List Scanned) (s' : Session δ κ) : Prop where
  config : s'.config = s.config
  name : s'.backend.name = s.backend.name
  matched : s'.matched = s.matched + (xs.map Scanned.count).sum

theorem Scans.lives {s s' : Session δ κ} {xs : List Scanned} (h : s.Scans xs s') : s.Lives xs s' := by
  induction h with
  | opened => exact ⟨rfl, rfl, rfl⟩
  | @next xs s' ω _ printer h ih =>
    refine ⟨?_, ?_, ?_⟩
    . rw [scan_eq]
      exact ih.config
    . rw [scan_eq]
      exact (name_scan s'.backend s'.config.filter printer).trans ih.name
    . rw [scan_eq, List.map_append, List.sum_append, ← Nat.add_assoc, ← ih.matched, scanned, scan_eq]
      rfl

theorem Scans.clearsAfterScan {s s' : Session δ κ} {xs : List Scanned} (h : s.Scans xs s') :
    s'.clearsAfterScan = s.clearsAfterScan :=
  clearsAfterScan_eq_of_name _ _ h.lives.name (by rw [h.lives.config])

theorem Scans.calls {s s' : Session δ (Watched κ)} {xs : List Scanned} (h : s.Scans xs s') :
    s'.kernel.calls = s.kernel.calls ++
      if s.clearsAfterScan then (xs.filter (·.result.isOk)).map fun _ => (.clear, 0) else [] := by
  induction h with
  | opened => simp
  | @next xs s' ω _ printer h ih =>
    have hfilter : [s'.scanned printer].filter (·.result.isOk) =
        if (s'.scan printer).1.1.isOk then [s'.scanned printer] else [] := List.filter_cons
    rw [calls_scan, h.clearsAfterScan, ih, List.append_assoc, List.filter_append, List.map_append, hfilter]
    by_cases hkmsg : s.clearsAfterScan
    . by_cases hok : (s'.scan printer).1.1.isOk
      . simp [hkmsg, hok]
      . simp [hkmsg, hok]
    . simp [hkmsg]

/--
What a session asks of the kernel over its whole life, and what it counts. Only to read the buffer that is its source
the kernel is called before the first scan. After that it is called once for each scan that succeeds, to clear the
buffer, if the source is the device and the configuration says so; how the kernel answers to that has no influence
on what scans give and count.
-/
theorem Scans.calls_of_start {config : Config} {openDevice : Bool → Except Fault δ} {storage : Storage}
    {boot : Option Instant} {kernel : κ} {s s' : Session δ (Watched κ)} {xs : List Scanned}
    (hstart : start config openDevice storage boot (.ofKernel kernel) = .ok s) (hscans : s.Scans xs s') :
    (s.backend.name ≠ .syslog → s.kernel.calls = []) ∧
      s'.kernel.calls = s.kernel.calls ++
        (if s.backend.name = .kmsg ∧ config.action = .readClear then
          (xs.filter (·.result.isOk)).map fun _ => (.clear, 0) else []) ∧
      s'.matched = (xs.map Scanned.count).sum ∧
      ∀ {ω : Type} [Sink ω] (printer : Option (Printer ω)),
        (s'.scan printer).2.kernel.calls = s'.kernel.calls ++
            (if (s.backend.name = .kmsg ∧ config.action = .readClear) ∧ (s'.scan printer).1.1.isOk then
              [(.clear, 0)] else []) ∧
          ∀ {κ' : Type} [Control κ'] (kernel' : κ'),
            ((s'.onKernel kernel').scan printer).1 = (s'.scan printer).1 ∧
              ((s'.onKernel kernel').scan printer).2.matched = (s'.scan printer).2.matched := by
  obtain ⟨hvalid, hacquire, hconfig, hmatched⟩ := start_eq_ok hstart
  have hlives := hscans.lives
  have hclears : s.clearsAfterScan ↔ s.backend.name = .kmsg ∧ config.action = .readClear := by
    rw [clearsAfterScan_iff, hconfig]
  refine ⟨?_, ?_, ?_, ?_⟩
  . intro hname
    rw [Backend.kernel_acquire hacquire hname]
    rfl
  . simp only [hscans.calls, hclears]
  . rw [hlives.matched, hmatched, Nat.zero_add]
  . intro ω _ printer
    refine ⟨?_, ?_⟩
    . simp only [calls_scan, hscans.clearsAfterScan, hclears]
    . intro κ' _ kernel'
      exact scan_onKernel s' kernel' printer

def twoRecords : Kmsg.Script :=
  .ofLists [.ok (Octets.ofString "6,1,5,-;first"), .ok (Octets.ofString "6,2,6,-;second")] []

theorem Scans.calls_of_start_twoRecords :
    ∃ s, start clearing (fun _ => .ok twoRecords) .empty none uncleared = .ok s ∧ ∃ xs s', s.Scans xs s' ∧
      xs.map (·.result.toOption) = [none, some 1, some 0] ∧ s'.kernel.calls = [(.clear, 0), (.clear, 0)] ∧
        s'.matched = 1 := by
  let full : Tape := { Tape.blank with limit := some 3, refusal := .ofKind .storageFull }
  let counts (s : Session Kmsg.Script (Watched RingBuffer)) : List (Option Nat) :=
    let first := s.scan (some (s.printer full false))
    let second := first.2.scan (none : Option (Printer Tape))
    let third := second.2.scan (none : Option (Printer Tape))
    [first.1.1.toOption, second.1.1.toOption, third.1.1.toOption]
  obtain ⟨s, hs, hname, hcounts⟩ : ∃ s ∈ (start clearing (fun _ => .ok twoRecords) .empty none uncleared).toOption,
      s.backend.name = .kmsg ∧ counts s = [none, some 1, some 0] := by
    decide +kernel
  have hstart := Except.eq_ok_of_mem_toOption hs
  have hscans := ((Scans.opened (s := s)).next (some (s.printer full false))).next (none : Option (Printer Tape))
    |>.next (none : Option (Printer Tape))
  obtain ⟨hopened, hcalls, hmatched, -⟩ := Scans.calls_of_start hstart hscans
  rw [hname] at hopened hcalls
  simp only [counts, List.cons.injEq] at hcounts
  obtain ⟨h₁, h₂, h₃, -⟩ := hcounts
  refine ⟨s, hstart, _, _, hscans, ?_, ?_, ?_⟩
  . simp [scanned, h₁, h₂, h₃]
  . rw [hcalls, hopened (by decide)]
    simp [scanned, ← Except.isSome_toOption, h₁, h₂, h₃, clearing]
  . rw [hmatched]
    simp [Scanned.count, scanned, h₁, h₂, h₃]

end Session
end KernelLog
