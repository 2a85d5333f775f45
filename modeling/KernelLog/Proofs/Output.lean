import KernelLog.Legacy.Reader
import KernelLog.Proofs.Printer

/-!
This module contains what a scan prints without colors. Main statement: a scan counts the same records whether it
prints or not, and output that closes early is a prefix of what would have been printed.
-/

namespace KernelLog

variable {σ : Type} [Source σ]

/--
A tape that takes a number of octets in all and then is closed. Flushing it may fail for that reason as well.
-/
structure Tape.Closes (t : Tape) (n : Nat) : Prop where
  contents : t.contents = []
  size : t.size = 0
  limit : t.limit = some n
  refusal : t.refusal.kind = .brokenPipe
  flush : ∀ fault ∈ t.flushFault, fault.kind = .brokenPipe

theorem Tape.Closes.counts {t : Tape} {n : Nat} (h : t.Closes n) : t.Counts := by
  intro m hm
  rw [h.contents, h.size]
  exact ⟨rfl, Nat.zero_le m⟩

def Printer.outputs (p : Printer Tape) : List Record → List Octets
  | [] => []
  | r :: rs => (p.print r).2.out.contents.drop p.out.contents.length :: (p.print r).2.outputs rs

theorem Printer.outputs_eq_texts {p : Printer Tape} (hcolor : p.color = false) (hlimit : p.out.limit = none)
    (rs : List Record) : p.outputs rs = p.texts rs := by
  induction rs generalizing p with
  | nil => rfl
  | cons r rs ih =>
    obtain ⟨out, printed, hprint, htakes⟩ := exists_print_takes hcolor (counts_of_limit_eq_none hlimit) r
    have hcontents := htakes.contents
    rw [hlimit, Tape.upTo] at hcontents
    rw [outputs, texts, hprint]
    congr 1
    . rw [hcontents, List.drop_left]
    . rw [ih]
      . apply texts_congr
        . rfl
        . rfl
      . exact hcolor
      . exact htakes.limit.trans hlimit

theorem finish_of_flushFault {p : Printer Tape} (h : ∀ fault ∈ p.out.flushFault, fault.kind = .brokenPipe)
    (count : Nat) : finish count (some p) = (.ok count, some p) := by
  rw [finish, Printer.flush, Tape.flush_eq]
  cases hfault : p.out.flushFault with
  | none => rfl
  | some fault =>
    rw [hfault] at h
    exact congrArg (·, some p) (if_pos (h fault rfl))

section

variable (source : σ) (filter : Filter)

theorem scan_none {ω : Type} [Sink ω] :
    scan source filter (none : Option (Printer ω)) =
      (.ok (accepted source filter).length, (Source.drain source).source, none) := by
  have hfault : (printAll (none : Option (Printer ω)) (accepted source filter)).fault = none := rfl
  rw [scan, scan.go_of_fault_eq_none 0 hfault, Nat.zero_add]
  rfl

theorem scan_of_fault_eq_none {p p' : Printer Tape}
    (hprints : p.Prints (accepted source filter) (p.printAll (accepted source filter)) p')
    (hfault : (p.printAll (accepted source filter)).fault = none)
    (hflush : ∀ fault ∈ p.out.flushFault, fault.kind = .brokenPipe) :
    scan source filter (some p) = (.ok (accepted source filter).length, (Source.drain source).source, some p') := by
  have hfault' : (printAll (some p) (accepted source filter)).fault = none := hfault
  have hprinter : (printAll (some p) (accepted source filter)).printer = some p' := hprints.printer
  rw [← hprints.takes.flushFault] at hflush
  rw [scan, scan.go_of_fault_eq_none 0 hfault', hprinter, finish_of_flushFault hflush, Nat.zero_add]

theorem scan_of_limit_eq_none {p : Printer Tape} (hcolor : p.color = false) (hlimit : p.out.limit = none)
    (hflush : ∀ fault ∈ p.out.flushFault, fault.kind = .brokenPipe) :
    ∃ p', scan source filter (some p) = (.ok (accepted source filter).length, (Source.drain source).source, some p') ∧
      p.printAll (accepted source filter) =
        { count := (accepted source filter).length, fault := none, printer := some p' } ∧
      p'.out.contents = p.out.contents ++ (p.texts (accepted source filter)).flatten := by
  obtain ⟨p', hprints⟩ :=
    Printer.exists_prints hcolor (Printer.counts_of_limit_eq_none hlimit) (accepted source filter)
  obtain ⟨hprinted, hcontents⟩ := hprints.of_limit_eq_none hlimit
  refine ⟨p', ?_, hprinted, hcontents⟩
  apply scan_of_fault_eq_none source filter hprints _ hflush
  rw [hprinted]

theorem scan_of_fault_eq_some {p p' : Printer Tape} {fault : Fault}
    (hprints : p.Prints (accepted source filter) (p.printAll (accepted source filter)) p')
    (hfault : (p.printAll (accepted source filter)).fault = some fault) (hkind : fault.kind = .brokenPipe) :
    ∃ before r later, (Source.drain source).records = before ++ r :: later ∧ filter.accepts r ∧
      (before.filter filter.accepts).length = (p.printAll (accepted source filter)).count ∧
      scan source filter (some p) =
        (.ok ((p.printAll (accepted source filter)).count + 1), Source.after source (before.length + 1), some p') := by
  have hfault' : (printAll (some p) (accepted source filter)).fault = some fault := hfault
  have hprinter : (printAll (some p) (accepted source filter)).printer = some p' := hprints.printer
  obtain ⟨before, r, later, hrecords, hr, hlength, hgo⟩ := scan.go_of_fault_eq_some 0 hfault'
  rw [if_pos hkind, hprinter, Nat.zero_add] at hgo
  exact ⟨before, r, later, hrecords, hr, hlength, hgo⟩

end

/--
A scan counts the accepted records that its source gives up to its end or its first fault, and prints these and
nothing else. Without a printer it counts the same. Output that closes after some octets holds the same octets up to
there; the scan then succeeds with the place of the record that was torn, and pulls nothing behind that record.
-/
theorem scan_output {ω : Type} [Sink ω] (source : σ) (filter : Filter) (layout : Layout) (whole torn : Tape) (n : Nat)
    (hlimit : whole.limit = none) (hflush : whole.flushFault = none) (htorn : torn.Closes n) :
    let drained := Source.drain source
    let records := drained.records.filter filter.accepts
    let printer := Printer.new layout false
    let outputs := (printer whole).outputs records
    scan source filter (none : Option (Printer ω)) = (.ok records.length, drained.source, none) ∧
      (∃ p, scan source filter (some (printer whole)) = (.ok records.length, drained.source, some p) ∧
        (printer whole).printAll records = { count := records.length, fault := none, printer := some p } ∧
        p.out.contents = whole.contents ++ outputs.flatten) ∧
      ∃ k p, p.out.contents = outputs.flatten.take n ∧ (outputs.take k).flatten.length ≤ n ∧
        (k = records.length ∧
            scan source filter (some (printer torn)) = (.ok records.length, drained.source, some p) ∨
          n < (outputs.take (k + 1)).flatten.length ∧
            ∃ before r later, drained.records = before ++ r :: later ∧ filter.accepts r ∧
              (before.filter filter.accepts).length = k ∧
              scan source filter (some (printer torn)) =
                (.ok (k + 1), Source.after source (before.length + 1), some p)) := by
  intro drained records printer outputs
  have houtputs : outputs = (printer whole).texts records := Printer.outputs_eq_texts rfl hlimit records
  have htexts : outputs = (printer torn).texts records := by
    rw [houtputs]
    apply Printer.texts_congr
    . rfl
    . rfl
  refine ⟨scan_none source filter, ?_, ?_⟩
  . rw [houtputs]
    apply scan_of_limit_eq_none source filter rfl hlimit
    intro fault hfault
    cases hflush.symm.trans hfault
  . obtain ⟨p, hprints⟩ := Printer.exists_prints (p := printer torn) rfl htorn.counts records
    have hout : (printer torn).out = torn := rfl
    have hcontents := hprints.takes.contents
    have hfits := hprints.fits
    rw [hout, htorn.limit, htorn.contents, List.nil_append, ← htexts] at hcontents hfits
    refine ⟨((printer torn).printAll records).count, p, hcontents, Tape.fits_some.mp hfits, ?_⟩
    rcases hprints.ending with ⟨hfault, hcount⟩ | ⟨hfault, hcount, hfull⟩
    . apply Or.inl
      exact ⟨hcount, scan_of_fault_eq_none source filter hprints hfault htorn.flush⟩
    . rw [hout, htorn.limit, htorn.contents, List.nil_append, ← htexts, Tape.fits_some] at hfull
      apply Or.inr
      refine ⟨by omega, ?_⟩
      exact scan_of_fault_eq_some source filter hprints hfault htorn.refusal

def fourLines : Legacy.Reader :=
  .new (.owned (.ofOctets (Octets.ofString "<6>[1.0] a\n<7>[2.0] b\n<4>[3.0] c\n<3>[4.0] d"))) .full

theorem scan_output_fourLines :
    let filter : Filter := { minSeverity := 6, since := .zero }
    let layout : Layout := { mode := .raw, format := .noTime, boot := none, offset := 0 }
    let torn : Tape :=
      { Tape.blank with limit := some 25, refusal := .ofKind .brokenPipe, flushFault := some (.ofKind .brokenPipe) }
    (scan fourLines filter (none : Option (Printer Tape))).1 = .ok 3 ∧
      (scan fourLines filter (some (Printer.new layout false Tape.blank))).1 = .ok 3 ∧
      ∃ p source, scan fourLines filter (some (Printer.new layout false torn)) = (.ok 2, source, some p) ∧
        p.out.contents = Octets.ofString "<6>[    1.000000] a\n<4>[ " := by
  intro filter layout torn
  have hrecords : ((Source.drain fourLines).records.filter filter.accepts).length = 3 := by decide +kernel
  have houtputs : (Printer.new layout false Tape.blank).outputs
      ((Source.drain fourLines).records.filter filter.accepts) =
        ["<6>[    1.000000] a\n", "<4>[    3.000000] c\n", "<3>[    4.000000] d\n"].map Octets.ofString := by
    decide +kernel
  have htorn : torn.Closes 25 := ⟨rfl, rfl, rfl, rfl, by decide⟩
  obtain ⟨hquiet, ⟨p, hwhole, -⟩, k, q, hcontents, hfits, h⟩ :=
    scan_output (ω := Tape) fourLines filter layout Tape.blank torn 25 rfl rfl htorn
  rw [hrecords] at hquiet hwhole h
  rw [houtputs] at hcontents hfits h
  refine ⟨congrArg Prod.fst hquiet, congrArg Prod.fst hwhole, q, ?_⟩
  rcases h with ⟨rfl, -⟩ | ⟨hfull, before, r, later, -, -, -, hscan⟩
  . exact absurd hfits (by decide +kernel)
  . have hk : k = 1 := by
      rcases k with _ | _ | k
      . exact absurd hfull (by decide +kernel)
      . rfl
      . have hfirst : (Octets.ofString "<6>[    1.000000] a\n").length = 20 := by decide +kernel
        have hsecond : (Octets.ofString "<4>[    3.000000] c\n").length = 20 := by decide +kernel
        simp only [List.map, List.take_succ_cons, List.flatten_cons, List.length_append, hfirst, hsecond] at hfits
        omega
    rw [hk] at hscan
    exact ⟨_, hscan, hcontents.trans (by decide +kernel)⟩

end KernelLog
