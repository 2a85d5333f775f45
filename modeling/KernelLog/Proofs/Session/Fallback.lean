import KernelLog.Proofs.Kmsg.Arrival
import KernelLog.Proofs.Session.Scans

/-!
This module contains the fallback of a session. Main statement: when the device is usable, and that otherwise a session
over it is one over the buffer of the kernel.
-/

namespace KernelLog

namespace Kmsg

variable {δ : Type}

variable [Device δ]

def Device.outcomes (d : δ) : Nat → Except Fault Octets
  | 0 => (Device.read bufferSize d).1
  | n + 1 => Device.outcomes (Device.read bufferSize d).2 n

/--
The first read of a device that is not to be tried again gives a record, or an empty one, or would block.
-/
def Device.Usable (d : δ) : Prop :=
  ∃ n,
    (∀ i < n, ∃ fault, Device.outcomes d i = .error fault ∧
      (fault.kind = .brokenPipe ∨ fault.kind = .interrupted)) ∧
    ((∃ raw, Device.outcomes d n = .ok raw) ∨
      ∃ fault, Device.outcomes d n = .error fault ∧ fault.kind = .wouldBlock)

theorem Device.usable_iff (d : δ) :
    Device.Usable d ↔
      let read := Device.read bufferSize d
      ((∃ raw, Arrival.ofRead read.1 = .record raw) ∨ Arrival.ofRead read.1 = .dry) ∨
        Arrival.ofRead read.1 = .retry ∧ Device.Usable read.2 := by
  dsimp only
  rw [Arrival.ofRead_eq_record_or_dry_iff, Arrival.ofRead_eq_retry_iff]
  constructor
  . rintro ⟨n, hbefore, hat⟩
    cases n with
    | zero => exact .inl hat
    | succ n => exact .inr ⟨hbefore 0 (by omega), n, fun i hi => hbefore (i + 1) (by omega), hat⟩
  . rintro (hat | ⟨hretry, n, hbefore, hat⟩)
    . exact ⟨0, by simp, hat⟩
    . refine ⟨n + 1, ?_, hat⟩
      intro i hi
      cases i with
      | zero => exact hretry
      | succ i => exact hbefore i (by omega)

theorem Reader.isOk_openDevice_go (r : Reader δ) : (openDevice.go r).isOk ↔ Device.Usable r.device := by
  rw [Device.usable_iff]
  fun_induction openDevice.go r with
  | case1 r read r' raw harrival => simp [read, harrival, Except.isOk, Except.toBool]
  | case2 r read r' harrival ih =>
    rw [ih, ← Device.usable_iff]
    simp [read, r', harrival]
  | case3 r read r' harrival => simp [read, harrival, Except.isOk, Except.toBool]
  | case4 r read fault harrival => simp [read, harrival, Except.isOk, Except.toBool]

theorem Reader.isOk_openDevice (device : δ) (follow : Bool) :
    (openDevice device follow).isOk ↔ Device.Usable device :=
  isOk_openDevice_go (new device follow)

end Kmsg

namespace Backend

variable {δ κ : Type} [Control κ] {config : Config}

theorem fault_of_openBuffer {kernel : κ} {error : ScanError}
    (h : (acquire.openBuffer (δ := δ) config kernel).1 = .error error) : ∃ fault, error = .acquire .syslog fault := by
  unfold acquire.openBuffer Legacy.Reader.openSyslog at h
  dsimp only at h
  split at h
  . cases h
  . next fault _ _ =>
    cases h
    exact ⟨fault, rfl⟩

variable [Kmsg.Device δ] {openDevice : Bool → Except Fault δ}

theorem isSome_openDevice? (openDevice : Bool → Except Fault δ) (follow : Bool) :
    (openDevice? openDevice follow).isSome ↔ ∃ device, openDevice follow = .ok device ∧ Kmsg.Device.Usable device := by
  unfold openDevice?
  cases hopen : openDevice follow with
  | error fault => simp
  | ok device => simp [Except.isSome_toOption, Kmsg.Reader.isOk_openDevice]

theorem acquire_of_usable (hkmsg : config.backend = .kmsg)
    (husable : ∃ device, openDevice config.follow = .ok device ∧ Kmsg.Device.Usable device) (storage : Storage)
    (kernel : κ) : ∃ reader, acquire config openDevice storage kernel = (.ok (.kmsg reader), kernel) := by
  rw [← isSome_openDevice?, Option.isSome_iff_exists] at husable
  obtain ⟨reader, hreader⟩ := husable
  exact ⟨reader, by rw [acquire, hkmsg, hreader]⟩

theorem acquire_of_not_usable (hkmsg : config.backend = .kmsg)
    (husable : ¬ ∃ device, openDevice config.follow = .ok device ∧ Kmsg.Device.Usable device) (storage : Storage)
    (kernel : κ) : acquire config openDevice storage kernel = acquire.openBuffer config kernel := by
  rw [← isSome_openDevice?, Option.not_isSome_iff_eq_none] at husable
  rw [acquire, hkmsg, husable]

end Backend

namespace Session

variable {δ κ ω : Type}

def withConfig (s : Session δ κ) (config : Config) : Session δ κ :=
  { s with config }

theorem printer_withConfig {s : Session δ κ} {config : Config} (h : s.config = { config with backend := .syslog })
    (out : ω) (color : Bool) : (s.withConfig config).printer out color = s.printer out color := by
  simp [printer, timeFormat, withConfig, h]

variable [Kmsg.Device δ] [Control κ] [Sink ω] {s s' : Session δ κ} {config : Config}

theorem scan_withConfig (hfilter : config.filter = s.config.filter) (haction : config.action = s.config.action)
    (printer : Option (Printer ω)) :
    (s.withConfig config).scan printer = ((s.scan printer).1, (s.scan printer).2.withConfig config) := by
  have hclears : (s.withConfig config).clearsAfterScan = s.clearsAfterScan :=
    clearsAfterScan_eq_of_name _ _ rfl haction
  simp only [scan_eq, hclears]
  simp only [withConfig, hfilter]

theorem scanned_withConfig (hfilter : config.filter = s.config.filter) (haction : config.action = s.config.action)
    (printer : Option (Printer ω)) : (s.withConfig config).scanned printer = s.scanned printer := by
  rw [scanned, scan_withConfig hfilter haction, scanned]

theorem Scans.withConfig_iff {xs : List Scanned} (hfilter : config.filter = s.config.filter)
    (haction : config.action = s.config.action) :
    (s.withConfig config).Scans xs s' ↔ ∃ t, s.Scans xs t ∧ s' = t.withConfig config := by
  constructor
  . intro h
    induction h with
    | opened => exact ⟨s, .opened, rfl⟩
    | next printer h ih =>
      obtain ⟨t, ht, rfl⟩ := ih
      rw [← ht.lives.config] at hfilter haction
      refine ⟨(t.scan printer).2, ?_, ?_⟩
      . rw [scanned_withConfig hfilter haction]
        exact .next printer ht
      . rw [scan_withConfig hfilter haction]
  . rintro ⟨t, h, rfl⟩
    induction h with
    | opened => exact .opened
    | @next xs t ω _ printer h ih =>
      rw [← h.lives.config] at hfilter haction
      have hnext := Scans.next printer ih
      rw [scanned_withConfig hfilter haction, scan_withConfig hfilter haction] at hnext
      exact hnext

variable {openDevice : Bool → Except Fault δ} {storage : Storage} {boot : Option Instant} {kernel : κ}

theorem start_eq_error_iff (hvalid : config.problem? = none) (error : ScanError) :
    start config openDevice storage boot kernel = .error error ↔
      (Backend.acquire config openDevice storage kernel).1 = .error error := by
  rw [start, hvalid]
  rcases Backend.acquire config openDevice storage kernel with ⟨_ | backend, kernel'⟩ <;> simp

theorem name_start_eq_kmsg_iff (hvalid : config.problem? = none) (hkmsg : config.backend = .kmsg) :
    (∃ s, start config openDevice storage boot kernel = .ok s ∧ s.backend.name = .kmsg) ↔
      ∃ device, openDevice config.follow = .ok device ∧ Kmsg.Device.Usable device := by
  constructor
  . rintro ⟨s, hs, hname⟩
    refine Classical.byContradiction fun husable => ?_
    obtain ⟨-, hacquire, -, -⟩ := start_eq_ok hs
    rw [Backend.acquire_of_not_usable hkmsg husable] at hacquire
    rw [Backend.name_openBuffer hacquire] at hname
    cases hname
  . intro husable
    obtain ⟨reader, hacquire⟩ := Backend.acquire_of_usable hkmsg husable storage kernel
    rw [start, hvalid, hacquire]
    exact ⟨_, rfl, rfl⟩

theorem problem?_of_kmsg (hkmsg : config.backend = .kmsg) :
    { config with backend := .syslog }.problem? = config.problem? := by
  rw [Config.problem?, Config.problem?, hkmsg]

theorem start_of_not_usable (hvalid : config.problem? = none) (hkmsg : config.backend = .kmsg)
    (husable : ¬ ∃ device, openDevice config.follow = .ok device ∧ Kmsg.Device.Usable device) :
    start config openDevice storage boot kernel =
      (start { config with backend := .syslog } openDevice storage boot kernel).map (·.withConfig config) := by
  have hbuffer : Backend.acquire { config with backend := .syslog } openDevice storage kernel =
      Backend.acquire.openBuffer config kernel := rfl
  rw [start, start, problem?_of_kmsg hkmsg, hvalid, hbuffer, Backend.acquire_of_not_usable hkmsg husable]
  rcases Backend.acquire.openBuffer (δ := δ) config kernel with ⟨_ | backend, kernel'⟩ <;> rfl

theorem openBuffer_of_start_eq_error (hvalid : config.problem? = none) (hkmsg : config.backend = .kmsg)
    {error : ScanError} (h : start config openDevice storage boot kernel = .error error) :
    (Backend.acquire.openBuffer (δ := δ) config kernel).1 = .error error := by
  rw [start_eq_error_iff hvalid] at h
  by_cases husable : ∃ device, openDevice config.follow = .ok device ∧ Kmsg.Device.Usable device
  . obtain ⟨reader, hacquire⟩ := Backend.acquire_of_usable hkmsg husable storage kernel
    rw [hacquire] at h
    cases h
  . rw [Backend.acquire_of_not_usable hkmsg husable] at h
    exact h

/--
A session over the device is started as one if the device is usable. Otherwise it is the session over the buffer of the
kernel: it fails alike, asks the same of the kernel, and its scans give, print and count the same. What is wrong with
the device is never told.
-/
theorem start_fallback {config : Config} (hvalid : config.problem? = none) (hkmsg : config.backend = .kmsg)
    (openDevice : Bool → Except Fault δ) (storage : Storage) (boot : Option Instant) (kernel : κ) :
    let overBuffer := { config with backend := .syslog }
    let usable := ∃ device, openDevice config.follow = .ok device ∧ Kmsg.Device.Usable device
    let started := start config openDevice storage boot kernel
    ((∃ s, started = .ok s ∧ s.backend.name = .kmsg) ↔ usable) ∧
      (¬ usable →
        Backend.acquire config openDevice storage kernel = Backend.acquire overBuffer openDevice storage kernel ∧
        started = (start overBuffer openDevice storage boot kernel).map (·.withConfig config) ∧
        ∀ t, start overBuffer openDevice storage boot kernel = .ok t →
          t.config = overBuffer ∧ t.backend.name = .syslog ∧
          ∀ xs,
            (∀ s', (t.withConfig config).Scans xs s' ↔ ∃ t', t.Scans xs t' ∧ s' = t'.withConfig config) ∧
            ∀ t', t.Scans xs t' → ∀ {ω : Type} (out : ω) (color : Bool),
              (t'.withConfig config).printer out color = t'.printer out color) ∧
      ∀ error, started = .error error →
        (∃ fault, error = .acquire .syslog fault) ∧
        ∀ openDevice' storage', start overBuffer (δ := δ) openDevice' storage' boot kernel = .error error := by
  intro overBuffer usable started
  refine ⟨name_start_eq_kmsg_iff hvalid hkmsg, ?_, ?_⟩
  . intro husable
    refine ⟨Backend.acquire_of_not_usable hkmsg husable storage kernel, start_of_not_usable hvalid hkmsg husable, ?_⟩
    intro t ht
    obtain ⟨-, hacquire, hconfig, -⟩ := start_eq_ok ht
    refine ⟨hconfig, Backend.name_openBuffer hacquire, ?_⟩
    intro xs
    refine ⟨fun s' => Scans.withConfig_iff (by rw [hconfig]; rfl) (by rw [hconfig]), ?_⟩
    intro t' ht' ω out color
    exact printer_withConfig (ht'.lives.config.trans hconfig) out color
  . intro error herror
    have hbuffer := openBuffer_of_start_eq_error hvalid hkmsg herror
    refine ⟨Backend.fault_of_openBuffer hbuffer, ?_⟩
    intro openDevice' storage'
    exact (start_eq_error_iff ((problem?_of_kmsg hkmsg).trans hvalid) error).mpr hbuffer

def unusable : Kmsg.Script :=
  .ofLists [.error (.ofKind .interrupted), .error (.ofKind .other), .ok (Octets.ofString "6,1,5,-;first")] []

def sized : Watched RingBuffer :=
  .ofKernel { text := Octets.ofString "<6>first\n<6>second\n", size := 64, full := 0, faults := [], calls := [] }

theorem start_fallback_unusable :
    let overBuffer := { clearing with backend := .syslog }
    ∃ s t, start clearing (fun _ => .ok unusable) .empty none sized = .ok s ∧
      start overBuffer (fun _ => .ok unusable) .empty none sized = .ok t ∧
      s = t.withConfig clearing ∧ t.backend.name = .syslog ∧ s.kernel.calls = [(.size, 0), (.readClear, 72)] := by
  intro overBuffer
  obtain ⟨s, hs, hname, hcalls⟩ : ∃ s ∈ (start clearing (fun _ => .ok unusable) .empty none sized).toOption,
      s.backend.name = .syslog ∧ s.kernel.calls = [(.size, 0), (.readClear, 72)] := by
    decide +kernel
  have hstart := Except.eq_ok_of_mem_toOption hs
  obtain ⟨hkmsg, hfallback, -⟩ :=
    start_fallback (by rfl : clearing.problem? = none) (by rfl) (fun _ => .ok unusable) .empty none sized
  have husable : ¬ ∃ device, Except.ok (ε := Fault) unusable = .ok device ∧ Kmsg.Device.Usable device := by
    intro husable
    obtain ⟨s', hs', hname'⟩ := hkmsg.mpr husable
    cases hstart.symm.trans hs'
    rw [hname] at hname'
    cases hname'
  obtain ⟨-, hstarted, hsession⟩ := hfallback husable
  rw [hstart] at hstarted
  cases ht : start overBuffer (fun _ => .ok unusable) .empty none sized with
  | error error =>
    rw [ht] at hstarted
    cases hstarted
  | ok t =>
    rw [ht] at hstarted
    cases hstarted
    exact ⟨_, t, hstart, rfl, rfl, (hsession t ht).2.1, hcalls⟩

end Session
end KernelLog
