import KernelLog.Proofs.Printer
import KernelLog.Proofs.Printer.Written
import KernelLog.Proofs.Text.Octet
import Mathlib.Data.List.Basic
import Mathlib.Data.List.Forall2

/-!
This module contains how the lines of a printed text begin. Main statement: no message imitates a line of its own. Only the
line that carries the label and the time of a record is not indented, whatever the messages are.
-/

namespace KernelLog

/--
A number of spaces follows each newline but one at the end.
-/
def Hangs (n : Nat) (s : Octets) : Prop :=
  ∀ before behind, s = before ++ Octet.newline :: behind → behind ≠ [] → List.replicate n Octet.space <+: behind

namespace Hangs

variable {n : Nat} {s t : Octets} {b : UInt8}

theorem nil (n : Nat) : Hangs n [] := by
  intro before behind h
  simp at h

theorem cons_iff : Hangs n (b :: s) ↔
    (b = Octet.newline → s ≠ [] → List.replicate n Octet.space <+: s) ∧ Hangs n s := by
  constructor
  . intro h
    refine ⟨?_, ?_⟩
    . rintro rfl hs
      exact h [] s rfl hs
    . intro before behind hs
      exact h (b :: before) behind (by rw [hs, List.cons_append])
  . rintro ⟨hb, h⟩ before behind heq
    cases before with
    | nil =>
      obtain ⟨rfl, rfl⟩ := List.cons.inj heq
      exact hb rfl
    | cons c before => exact h before behind (List.cons.inj heq).2

theorem append_of_not_mem (hs : Octet.newline ∉ s) (ht : Hangs n t) : Hangs n (s ++ t) := by
  induction s with
  | nil => exact ht
  | cons b s ih =>
    rw [List.mem_cons, not_or] at hs
    rw [List.cons_append, cons_iff]
    exact ⟨fun hb => absurd hb.symm hs.1, ih hs.2⟩

theorem concat_newline (h : Hangs n s) (hlast : s.getLast? ≠ some Octet.newline) : Hangs n (s ++ [Octet.newline]) := by
  induction s with
  | nil => exact cons_iff.mpr ⟨fun _ hs => absurd rfl hs, nil n⟩
  | cons b s ih =>
    obtain ⟨hb, hs⟩ := cons_iff.mp h
    rw [List.cons_append, cons_iff]
    cases s with
    | nil =>
      refine ⟨?_, cons_iff.mpr ⟨fun _ hs => absurd rfl hs, nil n⟩⟩
      rintro rfl
      exact absurd rfl hlast
    | cons c s =>
      rw [List.getLast?_cons_cons] at hlast
      refine ⟨?_, ih hs hlast⟩
      intro hnewline _
      exact (hb hnewline (List.cons_ne_nil c s)).trans (List.prefix_append _ _)

theorem exists_splitOn_eq {s : Octets} (h : Hangs n s) (hlast : s.getLast? = some Octet.newline) :
    ∃ rest, s.splitOn Octet.newline = s.takeWhile (· != Octet.newline) :: rest ++ [[]] ∧
      ∀ line ∈ rest, List.replicate n Octet.space <+: line := by
  obtain ⟨before, behind, rfl, hbefore⟩ := List.eq_append_cons_of_mem (List.mem_of_getLast? hlast)
  rw [List.splitOn_append_cons_self_of_not_mem hbefore, Octets.takeWhile_bne_append hbefore]
  by_cases hbehind : behind = []
  . rw [hbehind]
    exact ⟨[], by simp, nofun⟩
  . have hspaces := h before behind rfl hbehind
    have hrest : Hangs n behind := by
      intro before' behind' heq
      exact h (before ++ Octet.newline :: before') behind' (by rw [heq]; simp)
    rw [List.getLast?_append_of_ne_nil _ (List.cons_ne_nil _ _), List.getLast?_cons_of_ne_nil hbehind] at hlast
    obtain ⟨rest, heq, hlines⟩ := exists_splitOn_eq hrest hlast
    refine ⟨_ :: rest, by rw [heq]; rfl, ?_⟩
    intro line hline
    rcases List.mem_cons.mp hline with rfl | hline
    . obtain ⟨behind, rfl⟩ := hspaces
      rw [List.takeWhile_append_of_pos]
      . exact List.prefix_append _ _
      . intro b hb
        rw [List.eq_of_mem_replicate hb]
        rfl
    . exact hlines line hline
termination_by s.length

end Hangs

namespace Escape

theorem hangs_terminalPieces (indent : Nat) {s : Octets} {ps : List Utf8.Piece} (h : Utf8.Splits s ps) :
    Hangs indent (terminalPieces indent ps) := by
  induction h with
  | nil => exact .nil indent
  | broken _ _ ih => exact .append_of_not_mem (newline_not_mem_flatMap_hex _) ih
  | @char c s ps hrest ih =>
    rcases Utf8.utf8EncodeChar_cases c with ⟨b, -, -, hencode⟩ | ⟨hc, x, y, rest, hencode⟩
    . rw [hencode, terminalPieces]
      split
      . exact .nil indent
      split
      . have hescape := newline_not_mem_flatMap_hex [b]
        rw [List.flatMap_singleton] at hescape
        exact .append_of_not_mem hescape ih
      split
      . have hspaces : Octet.newline ∉ List.replicate indent Octet.space :=
          (Shown.replicate_space indent).not_mem (by decide)
        exact Hangs.cons_iff.mpr ⟨fun _ _ => List.prefix_append _ _, .append_of_not_mem hspaces ih⟩
      . next hnewline =>
        refine Hangs.cons_iff.mpr ⟨?_, ih⟩
        intro hb hne
        have hps : continues ps = false := by
          simpa [hb] using hnewline
        exact absurd (terminalPieces_of_not_continues indent hrest hps) hne
    . have hnewline := Utf8.not_mem_utf8EncodeChar_of_lt (b := Octet.newline) (by decide) hc
      rw [hencode] at hnewline ⊢
      rw [terminalPieces]
      . split
        . exact .append_of_not_mem (newline_not_mem_flatMap_hex _) ih
        . exact .append_of_not_mem hnewline ih
      . simp

end Escape

def Line.front (line : Line) : Octets :=
  line.label ++ line.time

/--
The lines of a text that show one record: the first one begins with the front of its line and is not indented, and all
others are indented to the width of that.
-/
def Line.Heads (line : Line) : List Octets → Prop
  | [] => False
  | first :: rest =>
    line.front <+: first ∧ ¬ List.replicate line.front.length Octet.space <+: first ∧
      ∀ l ∈ rest, List.replicate line.front.length Octet.space <+: l

theorem head?_of_isPrefix {s t : Octets} (h : s <+: t) (hs : s ≠ []) : t.head? = s.head? := by
  obtain ⟨rest, rfl⟩ := h
  rw [List.head?_append, Option.or_of_isSome]
  simpa using hs

theorem head?_of_replicate_isPrefix {n : Nat} {s : Octets} (h : List.replicate n Octet.space <+: s) (hn : n ≠ 0) :
    s.head? = some Octet.space := by
  obtain ⟨k, rfl⟩ := Nat.exists_eq_succ_of_ne_zero hn
  rw [head?_of_isPrefix h (by simp)]
  rfl

theorem Line.Heads.filter_eq {line : Line} {group : List Octets} (h : line.Heads group) (hfront : line.front ≠ [])
    (hhead : line.front.head? ≠ some Octet.space) :
    group.filter (·.head? != some Octet.space) = group.head?.toList := by
  have hwidth : line.front.length ≠ 0 := by simpa using hfront
  cases group with
  | nil => exact h.elim
  | cons first rest =>
    obtain ⟨hfirst, -, hrest⟩ := h
    rw [List.filter_cons_of_pos, List.filter_eq_nil_iff.mpr]
    . rfl
    . intro l hl
      rw [head?_of_replicate_isPrefix (hrest l hl) hwidth]
      simp
    . rw [head?_of_isPrefix hfirst hfront]
      simpa using hhead

namespace Layout

theorem hangs_closed {n : Nat} {s : Octets} (h : Hangs n s) :
    Hangs n (closed s) ∧ (closed s).getLast? = some Octet.newline := by
  unfold closed
  split
  . next hlast => exact ⟨h, hlast⟩
  . next hlast => exact ⟨h.concat_newline hlast, by simp⟩

theorem head?_name_append (namings : List Naming)
    (h : ∀ naming ∈ namings, (Octets.ofString naming.name).head?.any (· != Octet.space)) (n : Option Nat) (s : Octets) :
    (Decimal.padRight 6 Octet.space
      (((n.bind fun n => namings[n]?).map fun naming => Octets.ofString naming.name).getD absent) ++ s).head?.any
        (· != Octet.space) := by
  have hname : (((n.bind fun n => namings[n]?).map fun naming => Octets.ofString naming.name).getD absent).head?.any
      (· != Octet.space) := by
    cases hnaming : n.bind fun n => namings[n]? with
    | none => decide
    | some naming =>
      obtain ⟨n, -, hn⟩ := Option.bind_eq_some_iff.mp hnaming
      exact h naming (List.mem_of_getElem? hn)
  revert hname
  generalize ((n.bind fun n => namings[n]?).map fun naming => Octets.ofString naming.name).getD absent = name
  intro hname
  cases name with
  | nil => cases hname
  | cons b name => exact hname

theorem head?_decodedLabel_append (r : Record) (s : Octets) :
    (decodedLabel r ++ s).head?.any (· != Octet.space) := by
  unfold decodedLabel
  simp only [List.append_assoc]
  exact head?_name_append Facility.namings (by decide +kernel) r.facility _

theorem head?_front (layout : Layout) (last : Option Timestamp) (r : Record) :
    (layout.line last r).front.head? ≠ some Octet.space := by
  unfold line
  cases layout.mode with
  | raw =>
    unfold Line.front rawLabel
    cases r.priority with
    | some p => simp [show Octet.less ≠ Octet.space by decide]
    | none =>
      cases r.timestamp with
      | some t => simp [stampText, bracketed, show Octet.openBracket ≠ Octet.space by decide]
      | none => simp
  | decoded =>
    intro hspace
    have hname := head?_decodedLabel_append r (layout.timePart last r.time)
    rw [show (decodedLabel r ++ _).head? = _ from hspace] at hname
    cases hname

theorem newline_not_mem_front (layout : Layout) (last : Option Timestamp) (r : Record) :
    Octet.newline ∉ (layout.line last r).front := by
  obtain ⟨hlabel, htime⟩ := shown_line layout last r
  exact (Shown.append_iff.mpr ⟨hlabel, htime⟩).not_mem (by decide)

theorem hangs_body (layout : Layout) (last : Option Timestamp) (r : Record) :
    let line := layout.line last r
    Hangs line.front.length line.body ∧ line.body.getLast? = some Octet.newline := by
  intro line
  have hwidth : line.front.length = line.label.length + line.time.length := List.length_append
  have hbody : line.body = closed (Escape.terminal (line.label.length + line.time.length) r.message) := rfl
  rw [hwidth, hbody]
  exact hangs_closed (Escape.hangs_terminalPieces _ (Utf8.splits_pieces r.message))

theorem exists_heads (layout : Layout) (last : Option Timestamp) (r : Record)
    (hfront : (layout.line last r).front ≠ []) :
    ∃ group, (layout.line last r).Heads group ∧ ∀ behind,
      ((layout.line last r).text ++ behind).splitOn Octet.newline = group ++ behind.splitOn Octet.newline := by
  obtain ⟨hbody, hlast⟩ := hangs_body layout last r
  have hhead := head?_front layout last r
  have hnewline := newline_not_mem_front layout last r
  have htext : (layout.line last r).text = (layout.line last r).front ++ (layout.line last r).body := rfl
  revert hbody hlast hhead hnewline htext hfront
  generalize layout.line last r = line
  intro hfront hbody hlast hhead hnewline htext
  have hlast' : line.text.getLast? = some Octet.newline := by
    rw [htext, List.getLast?_append, hlast]
    rfl
  have hangs := Hangs.append_of_not_mem hnewline hbody
  rw [← htext] at hangs
  obtain ⟨rest, hlines, hrest⟩ := hangs.exists_splitOn_eq hlast'
  have hfirst : line.front <+: line.text.takeWhile (· != Octet.newline) := by
    rw [htext, List.takeWhile_append_of_pos (Octets.bne_of_not_mem hnewline)]
    exact List.prefix_append _ _
  refine ⟨_ :: rest, ⟨hfirst, ?_, hrest⟩, ?_⟩
  . intro hspaces
    have hspace := head?_of_replicate_isPrefix hspaces (by simpa using hfront)
    rw [head?_of_isPrefix hfirst hfront] at hspace
    exact hhead hspace
  . intro behind
    obtain ⟨before, hbefore⟩ := List.getLast?_eq_some_iff.mp hlast'
    rw [hbefore, List.splitOn_append_cons_self, List.splitOn_nil, List.append_cancel_right_eq] at hlines
    rw [hbefore, List.append_assoc, List.singleton_append, List.splitOn_append_cons_self, hlines]

end Layout

theorem Stroke.totalSize_map_text (texts : List Octets) :
    totalSize (texts.map .text) = texts.flatten.length := by
  induction texts with
  | nil => rfl
  | cons s texts ih => rw [List.map_cons, totalSize, size, ih, List.flatten_cons, List.length_append]

open Sink.Legible

namespace Printer

variable {ω : Type}

def lines (p : Printer ω) : List Record → List Line
  | [] => []
  | r :: rs => p.layout.line p.last r :: lines { p with last := p.remember r } rs

theorem exists_groups (p : Printer ω) {rs : List Record} (hrs : ∀ r ∈ rs, r.message ≠ [])
    (hfronts : ∀ line ∈ p.lines rs, line.front ≠ []) :
    ∃ groups, (p.texts rs).flatten.splitOn Octet.newline = groups.flatten ++ [[]] ∧
      List.Forall₂ Line.Heads (p.lines rs) groups ∧
      groups.flatten.filter (·.head? != some Octet.space) = groups.filterMap List.head? := by
  induction rs generalizing p with
  | nil => exact ⟨[], rfl, .nil, rfl⟩
  | cons r rs ih =>
    rw [lines] at hfronts
    have hfront := hfronts _ List.mem_cons_self
    obtain ⟨groups, hlines, hheads, hfilter⟩ := ih { p with last := p.remember r }
      (fun r' hr' => hrs r' (List.mem_cons_of_mem r hr')) fun line hline => hfronts line (List.mem_cons_of_mem _ hline)
    obtain ⟨group, hgroup, hcut⟩ := Layout.exists_heads p.layout p.last r hfront
    have htext : p.text r = (p.layout.line p.last r).text := if_neg (by simpa using hrs r List.mem_cons_self)
    refine ⟨group :: groups, ?_, .cons hgroup hheads, ?_⟩
    . rw [texts, List.flatten_cons, htext, hcut, hlines, List.flatten_cons, List.append_assoc]
    . rw [List.flatten_cons, List.filter_append, hfilter,
        hgroup.filter_eq hfront (Layout.head?_front p.layout p.last r), List.filterMap_cons]
      cases group.head? <;> rfl

variable {p p' : Printer ω}

theorem totalSize_strokes (hcolor : p.color = false) (r : Record) :
    Stroke.totalSize (p.strokes r) = (p.text r).length := by
  obtain ⟨texts, hstrokes, htext⟩ := exists_strokes_eq hcolor r
  rw [hstrokes, ← htext, Stroke.totalSize_map_text]

variable [Sink ω] [Sink.Legible ω]

theorem flatMap_octets_strokes (hcolor : p.color = false) (r : Record) :
    (p.strokes r).flatMap (Sink.Legible.octets p.out) = p.text r := by
  obtain ⟨texts, hstrokes, htext⟩ := exists_strokes_eq hcolor r
  rw [hstrokes, List.flatMap_map, ← htext]
  simp only [octets_text]
  exact List.flatMap_id'

theorem contents_printAll (hcolor : p.color = false) {rs : List Record} (hfault : (p.printAll rs).fault = none)
    (hprinter : (p.printAll rs).printer = some p') :
    contents p'.out = contents p.out ++ (p.texts rs).flatten := by
  induction rs generalizing p with
  | nil =>
    cases hprinter
    simp [texts]
  | cons r rs ih =>
    rcases hprint : p.print r with ⟨fault | n, p₁⟩
    . rw [printAll_cons_of_error hprint] at hfault
      cases hfault
    . rw [printAll_cons_of_ok hprint] at hfault hprinter
      obtain ⟨hlayout, hcolor₁, hlast⟩ := p.print_keeps r
      rw [hprint] at hlayout hcolor₁ hlast
      have htexts : p₁.texts rs = texts { p with last := p.remember r } rs := by
        apply texts_congr
        . exact hlayout
        . exact hlast
      rw [ih (hcolor₁.trans hcolor) hfault hprinter, (contents_out_print hprint).1, flatMap_octets_strokes hcolor,
        List.append_assoc, htexts, texts, List.flatten_cons]

/--
A printer without colors cannot be made to forge a line. For a record with a message it writes the front of a line and a
text that ends in a newline. Each other newline of this text is followed by as many spaces as the front has octets. So, if
any number of such records have a front and are printed without a fault, the lines that come of it are in one group for
each record, in which the first line begins with the front of the record and all others are indented to the width of that,
and the first lines are exactly those that do not begin with a space.
-/
theorem print_unforged (p : Printer ω) (hcolor : p.color = false) :
    (∀ r n p', r.message ≠ [] → p.print r = (.ok n, p') →
      let line := p.layout.line p.last r
      ∃ text, contents p'.out = contents p.out ++ (line.front ++ text) ∧ n = (line.front ++ text).length ∧
        text.getLast? = some Octet.newline ∧ Hangs line.front.length text) ∧
      ∀ rs p', (∀ r ∈ rs, r.message ≠ []) → (∀ line ∈ p.lines rs, line.front ≠ []) →
        (p.printAll rs).fault = none → (p.printAll rs).printer = some p' →
        ∃ written groups, contents p'.out = contents p.out ++ written ∧
          written.splitOn Octet.newline = groups.flatten ++ [[]] ∧ List.Forall₂ Line.Heads (p.lines rs) groups ∧
          groups.flatten.filter (·.head? != some Octet.space) = groups.filterMap List.head? := by
  refine ⟨?_, ?_⟩
  . intro r n p' hr hprint line
    obtain ⟨hcontents, hn⟩ := contents_out_print hprint
    obtain ⟨hangs, hlast⟩ := Layout.hangs_body p.layout p.last r
    have htext : p.text r = line.front ++ line.body := if_neg (by simpa using hr)
    refine ⟨line.body, ?_, ?_, hlast, hangs⟩
    . rw [hcontents, flatMap_octets_strokes hcolor, htext]
    . rw [hn, totalSize_strokes hcolor, htext]
  . intro rs p' hrs hfronts hfault hprinter
    obtain ⟨groups, hgroups⟩ := exists_groups p hrs hfronts
    exact ⟨_, groups, contents_printAll hcolor hfault hprinter, hgroups⟩

def imitations : List Record :=
  [{ Record.ofMessage (Octets.ofString "a\nkern  :emerg (0:0) b\r\n") with level := some 6, facility := some 0 },
    { Record.ofMessage (Octets.ofString "c\n\n" ++ 0xFF :: Octets.ofString "d\n\x00\ne") with level := some 4 }]

theorem print_unforged_imitations :
    let printer := new { mode := .decoded, format := .noTime, boot := none, offset := 0 } false Tape.blank
    let output := Octets.ofString
      "kern  :info  (0:6) a\n                   kern  :emerg (0:0) b\r\n-     :warn  (-:4) c\n                   \n                   \\xffd\n"
    ∃ p groups, (printer.printAll imitations).printer = some p ∧ p.out.contents = output ∧
      output.splitOn Octet.newline = groups.flatten ++ [[]] ∧
      List.Forall₂ Line.Heads (printer.lines imitations) groups ∧ groups.length = 2 ∧
      groups.filterMap List.head? = ["kern  :info  (0:6) a", "-     :warn  (-:4) c"].map Octets.ofString := by
  intro printer output
  have hcontents : (printer.printAll imitations).printer.map (·.out.contents) = some output := by decide +kernel
  obtain ⟨p, hprinter, hp⟩ := Option.map_eq_some_iff.mp hcontents
  obtain ⟨written, groups, hwritten, hlines, hheads, hfirsts⟩ :=
    (print_unforged printer rfl).2 imitations p (by decide +kernel) (by decide +kernel) (by decide +kernel) hprinter
  have heq : output = written := hp.symm.trans hwritten
  rw [← heq] at hlines
  have hcut : output.splitOn Octet.newline = (output.splitOn Octet.newline).dropLast ++ [[]] := by decide +kernel
  refine ⟨p, groups, hprinter, hp, hlines, hheads, hheads.length_eq.symm, ?_⟩
  rw [hcut, List.append_cancel_right_eq] at hlines
  rw [← hfirsts, ← hlines]
  decide +kernel

end Printer
end KernelLog
