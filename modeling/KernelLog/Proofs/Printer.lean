import KernelLog.Proofs.Printer.Shown
import KernelLog.Proofs.Scan
import KernelLog.Proofs.Tape

/-!
This module contains what a printer without colors writes on a tape: the texts of the records, one behind the other,
until the tape is full.
-/

namespace KernelLog

def Line.text (line : Line) : Octets :=
  line.label ++ line.time ++ line.body

theorem Line.exists_strokes_eq (line : Line) :
    ∃ texts : List Octets, line.strokes false = texts.map .text ∧ texts.flatten = line.text := by
  refine ⟨(if line.label.isEmpty then [] else [line.label]) ++
    (if line.time.isEmpty then [] else [line.time]) ++ [line.body], ?_, ?_⟩
  . simp only [strokes, Bool.false_and, Bool.false_eq_true, ↓reduceIte, List.map_append]
    split <;> split <;> rfl
  . rw [text]
    simp only [List.flatten_append, List.flatten_singleton]
    congr 2
    . split <;> simp_all
    . split <;> simp_all

namespace Layout

def rawBody (r : Record) : Octets :=
  closed (Escape.terminal (rawLabel r).length r.message)

def rawText (r : Record) : Octets :=
  rawLabel r ++ rawBody r

theorem newline_not_mem_rawLabel (r : Record) : Octet.newline ∉ rawLabel r :=
  (shown_rawLabel r).not_mem (by decide)

theorem closed_eq_concat (s : Octets) : closed s = (closed s).dropLast ++ [Octet.newline] := by
  unfold closed
  split
  . next h =>
    obtain ⟨t, rfl⟩ := List.getLast?_eq_some_iff.mp h
    rw [List.dropLast_concat]
  . rw [List.dropLast_concat]

theorem rawText_eq_concat (r : Record) :
    rawText r = rawLabel r ++ (rawBody r).dropLast ++ [Octet.newline] := by
  rw [List.append_assoc, rawBody, ← closed_eq_concat]
  rfl

theorem head?_rawLabel {r : Record} (h : r.priority.isSome) : (rawLabel r).head? = some Octet.less := by
  obtain ⟨p, hp⟩ := Option.isSome_iff_exists.mp h
  rw [rawLabel, hp]
  rfl

end Layout

namespace Printer

variable {ω ω' : Type}

def text (p : Printer ω) (r : Record) : Octets :=
  if r.message.isEmpty then [Octet.newline] else (p.layout.line p.last r).text

def texts (p : Printer ω) : List Record → List Octets
  | [] => []
  | r :: rs => p.text r :: texts { p with last := p.remember r } rs

theorem texts_congr {p : Printer ω} {q : Printer ω'} (hlayout : p.layout = q.layout) (hlast : p.last = q.last)
    (rs : List Record) : p.texts rs = q.texts rs := by
  induction rs generalizing p q with
  | nil => rfl
  | cons r rs ih =>
    have hremember : p.remember r = q.remember r := by
      rw [remember, remember, hlayout, hlast]
    rw [texts, texts, text, text, hlayout, hlast]
    congr 1
    apply ih
    . rfl
    . exact hremember

theorem text_of_raw {p : Printer ω} (hmode : p.layout.mode = .raw) {r : Record} (hr : r.message ≠ []) :
    p.text r = Layout.rawText r := by
  rw [text, if_neg (by simpa using hr), Layout.line, hmode]
  simp [Line.text, Layout.rawText, Layout.rawBody]

theorem texts_of_raw {p : Printer ω} (hmode : p.layout.mode = .raw) {rs : List Record}
    (hrs : ∀ r ∈ rs, r.message ≠ []) : p.texts rs = rs.map Layout.rawText := by
  induction rs generalizing p with
  | nil => rfl
  | cons r rs ih =>
    rw [texts, List.map_cons, text_of_raw hmode (hrs r List.mem_cons_self)]
    congr 1
    apply ih
    . exact hmode
    . intro r' hr'
      exact hrs r' (List.mem_cons_of_mem r hr')

theorem exists_strokes_eq {p : Printer ω} (hcolor : p.color = false) (r : Record) :
    ∃ texts : List Octets, p.strokes r = texts.map .text ∧ texts.flatten = p.text r := by
  unfold strokes text
  split
  . exact ⟨[[Octet.newline]], rfl, rfl⟩
  . rw [hcolor]
    exact Line.exists_strokes_eq _

variable {p : Printer Tape}

theorem exists_print_takes (hcolor : p.color = false) (h : p.out.Counts) (r : Record) :
    ∃ out printed,
      p.print r =
          (if Tape.fits p.out.limit (p.out.contents ++ p.text r) then .ok (Stroke.totalSize (p.strokes r))
            else .error p.out.refusal, { p with out, last := p.remember r, printed }) ∧
        p.out.Takes (p.text r) out := by
  obtain ⟨texts, hstrokes, htext⟩ := exists_strokes_eq hcolor r
  obtain ⟨out, happly, htakes⟩ := Tape.exists_applyAll_takes h texts
  rw [htext] at happly htakes
  unfold print
  dsimp only
  rw [hstrokes, happly]
  by_cases hfits : Tape.fits p.out.limit (p.out.contents ++ p.text r)
  . rw [if_pos hfits, if_pos hfits]
    exact ⟨out, _, rfl, htakes⟩
  . rw [if_neg hfits, if_neg hfits]
    exact ⟨out, _, rfl, htakes⟩

/--
What came of printing records on a tape: their texts have been given to it. Those of the records that were printed
had room there, and that of the record at which a fault ended the printing had not.
-/
structure Prints (p : Printer Tape) (rs : List Record) (printed : Printed Tape) (p' : Printer Tape) : Prop where
  printer : printed.printer = some p'
  takes : p.out.Takes (p.texts rs).flatten p'.out
  fits : Tape.fits p.out.limit (p.out.contents ++ ((p.texts rs).take printed.count).flatten)
  ending : printed.fault = none ∧ printed.count = rs.length ∨
    printed.fault = some p.out.refusal ∧ printed.count < rs.length ∧
      ¬ Tape.fits p.out.limit (p.out.contents ++ ((p.texts rs).take (printed.count + 1)).flatten)

theorem exists_prints (hcolor : p.color = false) (h : p.out.Counts) (rs : List Record) :
    ∃ p', p.Prints rs (p.printAll rs) p' := by
  induction rs generalizing p with
  | nil =>
    refine ⟨p, rfl, Tape.Takes.nil h, ?_, .inl ⟨rfl, rfl⟩⟩
    simpa [texts] using h.fits
  | cons r rs ih =>
    obtain ⟨out, printed, hprint, htakes⟩ := exists_print_takes hcolor h r
    by_cases hfits : Tape.fits p.out.limit (p.out.contents ++ p.text r)
    . rw [if_pos hfits] at hprint
      rw [printAll_cons_of_ok hprint]
      obtain ⟨p', hrest⟩ := ih (p := { p with out, last := p.remember r, printed }) hcolor htakes.counts
      have htexts :
          texts { p with out, last := p.remember r, printed } rs = texts { p with last := p.remember r } rs := by
        apply texts_congr
        . rfl
        . rfl
      -- what the rest finds on the tape is what was there and the first text
      have hcontents : out.contents = p.out.contents ++ p.text r := by
        rw [htakes.contents, Tape.upTo_of_fits hfits]
      have hkept (n : Nat) : out.contents ++ ((texts { p with out, last := p.remember r, printed } rs).take n).flatten =
          p.out.contents ++ ((p.texts (r :: rs)).take (n + 1)).flatten := by
        rw [hcontents, htexts, texts, List.take_succ_cons, List.flatten_cons, List.append_assoc]
      refine ⟨p', hrest.printer, ?_, ?_, ?_⟩
      . rw [texts, List.flatten_cons, ← htexts]
        exact htakes.append hfits hrest.takes
      . rw [← htakes.limit, ← hkept]
        exact hrest.fits
      . rw [← htakes.limit, ← htakes.refusal, ← hkept]
        rcases hrest.ending with ⟨hfault, hcount⟩ | ⟨hfault, hcount, hfull⟩
        . exact .inl ⟨hfault, congrArg (· + 1) hcount⟩
        . exact .inr ⟨hfault, Nat.succ_lt_succ hcount, hfull⟩
    . rw [if_neg hfits] at hprint
      rw [printAll_cons_of_error hprint]
      refine ⟨_, rfl, ?_, ?_, .inr ⟨rfl, Nat.zero_lt_succ _, ?_⟩⟩
      . exact htakes.append_of_not_fits hfits _
      . simpa using h.fits
      . simpa [texts] using hfits

theorem Prints.of_limit_eq_none {rs : List Record} {printed : Printed Tape} {p' : Printer Tape}
    (h : p.Prints rs printed p') (hlimit : p.out.limit = none) :
    printed = { count := rs.length, fault := none, printer := some p' } ∧
      p'.out.contents = p.out.contents ++ (p.texts rs).flatten := by
  obtain ⟨count, fault, printer⟩ := printed
  have hcontents := h.takes.contents
  rw [hlimit] at hcontents
  refine ⟨?_, hcontents⟩
  rcases h.ending with ⟨hfault, hcount⟩ | ⟨-, -, hfull⟩
  . rw [Printed.mk.injEq]
    exact ⟨hcount, hfault, h.printer⟩
  . rw [hlimit] at hfull
    exact absurd rfl hfull

theorem counts_of_limit_eq_none {t : Tape} (h : t.limit = none) : t.Counts := by
  intro n hn
  rw [h] at hn
  cases hn

theorem printAll_of_raw (hcolor : p.color = false) (hlimit : p.out.limit = none) (hmode : p.layout.mode = .raw)
    {rs : List Record} (hrs : ∀ r ∈ rs, r.message ≠ []) :
    ∃ p', (p.printAll rs).printer = some p' ∧ (p.printAll rs).fault = none ∧
      (p.printAll rs).count = rs.length ∧ p'.out.contents = p.out.contents ++ rs.flatMap Layout.rawText := by
  obtain ⟨p', hprints⟩ := exists_prints hcolor (counts_of_limit_eq_none hlimit) rs
  obtain ⟨hprinted, hcontents⟩ := hprints.of_limit_eq_none hlimit
  rw [hprinted]
  refine ⟨p', rfl, rfl, rfl, ?_⟩
  rw [hcontents, texts_of_raw hmode hrs, List.flatMap]

end Printer
end KernelLog
