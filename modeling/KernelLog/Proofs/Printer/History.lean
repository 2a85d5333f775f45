import KernelLog.Proofs.Printer
import KernelLog.Proofs.Printer.Buffered
import Mathlib.Data.List.Induction

/-!
This module contains what a printer carries on from one record to the next. Main statement: it is the time of the last
record that had a message, and nothing else, whatever came of the writing of the records before.
-/

namespace KernelLog

def Record.lastTime (rs : List Record) : Option Timestamp :=
  (rs.filter (!·.message.isEmpty)).getLast?.map time

theorem Record.lastTime_append_cons_of_empty {r : Record} (hr : r.message = []) (rs rs' : List Record) :
    lastTime (rs ++ r :: rs') = lastTime (rs ++ rs') := by
  simp [lastTime, hr]

theorem Record.lastTime_concat (rs : List Record) (r : Record) :
    lastTime (rs ++ [r]) = if r.message.isEmpty then lastTime rs else some r.time := by
  unfold lastTime
  rw [List.filter_append]
  split
  . next hempty => simp [hempty]
  . next hempty => simp [hempty]

theorem Line.flatMap_octets_strokes (line : Line) (color : Bool) :
    (line.strokes color).flatMap (Stroke.octets false) = line.text := by
  have hbody : (Stroke.ofBody color line.isAlert line.body).flatMap (Stroke.octets false) = line.body := by
    unfold Stroke.ofBody
    split <;> simp [Stroke.octets]
  have htime (style : Style) : (if line.time.isEmpty then [] else if color then [.style style, .text line.time, .plain]
      else [.text line.time] : List Stroke).flatMap (Stroke.octets false) = line.time := by
    split
    . next hempty => simp_all
    . split <;> simp [Stroke.octets]
  have hlabel : (if line.label.isEmpty then [] else [.text line.label] : List Stroke).flatMap (Stroke.octets false) =
      line.label := by
    split
    . next hempty => simp_all
    . simp [Stroke.octets]
  rw [strokes_eq_append, List.flatMap_append, hbody, Stroke.ofFront, List.flatMap_append, hlabel, htime, text]

namespace Layout

variable {layout : Layout}

def isRelative (layout : Layout) : Bool :=
  layout.mode = .decoded && layout.format.usesDelta

theorem remember_eq (layout : Layout) (last : Option Timestamp) (r : Record) :
    layout.remember last r = if layout.isRelative then some r.time else last := by
  unfold remember isRelative
  cases layout.mode <;> simp

theorem line_congr (h : layout.isRelative = false) (last last' : Option Timestamp) (r : Record) :
    layout.line last r = layout.line last' r := by
  unfold line
  cases hmode : layout.mode with
  | raw => rfl
  | decoded =>
    have hformat : layout.format.usesDelta = false := by simpa [isRelative, hmode] using h
    have htime : layout.timePart last r.time = layout.timePart last' r.time := by
      unfold timePart
      cases hcase : layout.format <;> simp_all [TimeFormat.usesDelta]
    have hnew : layout.isNewTime last r.time = layout.isNewTime last' r.time := by
      unfold isNewTime
      cases hcase : layout.format <;> simp_all [TimeFormat.usesDelta]
    rw [htime, hnew]

def strokes (layout : Layout) (color : Bool) (last : Option Timestamp) (r : Record) : List Stroke :=
  if r.message.isEmpty then [.text [Octet.newline]] else (layout.resolve.line last r).strokes color

def rawLine (r : Record) : Line :=
  { label := rawLabel r
    time := []
    isNewTime := false
    body := rawBody r
    isAlert := r.level.any (· ≤ Level.error) }

theorem text_rawLine (r : Record) : (rawLine r).text = rawText r := by
  rw [Line.text, rawText, rawLine, List.append_nil]

theorem line_of_raw (hmode : layout.mode = .raw) (last : Option Timestamp) (r : Record) :
    layout.line last r = rawLine r := by
  rw [line, hmode]
  rfl

end Layout

namespace Printer

variable {ω : Type} [Sink ω]

theorem after_append (p : Printer ω) (rs rs' : List Record) : p.after (rs ++ rs') = (p.after rs).after rs' :=
  List.foldl_append

theorem after_concat (p : Printer ω) (rs : List Record) (r : Record) :
    p.after (rs ++ [r]) = ((p.after rs).print r).2 := by
  rw [after_append]
  rfl

theorem after_new (layout : Layout) (color : Bool) (out : ω) (rs : List Record) :
    let p := (new layout color out).after rs
    p.layout = layout.resolve ∧ p.color = color ∧
      p.last = if layout.resolve.isRelative then Record.lastTime rs else none := by
  induction rs using List.reverseRecOn with
  | nil =>
    refine ⟨rfl, rfl, ?_⟩
    simp [after, new, Record.lastTime]
  | append_singleton rs r ih =>
    obtain ⟨hlayout, hcolor, hlast⟩ := ih
    obtain ⟨hlayout', hcolor', hlast'⟩ := print_keeps ((new layout color out).after rs) r
    rw [after_concat]
    refine ⟨hlayout'.trans hlayout, hcolor'.trans hcolor, ?_⟩
    rw [hlast', remember, hlayout, hlast, Layout.remember_eq, Record.lastTime_concat]
    split <;> split <;> simp_all

theorem strokes_after (layout : Layout) (color : Bool) (out : ω) (rs : List Record) (r : Record) :
    ((new layout color out).after rs).strokes r = layout.strokes color (Record.lastTime rs) r := by
  obtain ⟨hlayout, hcolor, hlast⟩ := after_new layout color out rs
  rw [strokes, Layout.strokes, hlayout, hcolor, hlast]
  cases hrelative : layout.resolve.isRelative with
  | true => rfl
  | false => rw [Layout.line_congr hrelative _ (Record.lastTime rs)]

variable [Sink.Legible ω]

theorem octets_out_after (p : Printer ω) (rs : List Record) :
    Sink.Legible.octets (p.after rs).out = Sink.Legible.octets p.out := by
  induction rs generalizing p with
  | nil => rfl
  | cons r rs ih =>
    rw [after, List.foldl_cons, ← after, ih, octets_out_print]

/--
What is done to print a record is a function of the settings, of the record, and of the time of the last record before it
that has a message, whatever came of the records before. So are the octets that are written for it, if nothing of this
fails. A record without a message is printed as a newline and leaves no trace in what is printed later. In the form of the
kernel, the text of a record depends on that record alone. A printer that composes its lines in texts which it uses again
does the same, although it loses one of them when something fails.
-/
theorem print_after (layout : Layout) (color : Bool) (out : ω) (rs : List Record) (r : Record) :
    let p := (new layout color out).after rs
    let b := (Buffered.new layout color out).after rs
    let strokes := layout.strokes color (Record.lastTime rs) r
    ((p.print r).1 = (Stroke.applyAll strokes p.out).1.map (fun () => Stroke.totalSize strokes) ∧
      (p.print r).2.out = (Stroke.applyAll strokes p.out).2) ∧
      (∀ n, (p.print r).1 = .ok n → Sink.Legible.contents (p.print r).2.out =
        Sink.Legible.contents p.out ++ strokes.flatMap (Sink.Legible.octets out)) ∧
      (r.message = [] → strokes = [.text [Octet.newline]] ∧
        ∀ rs' r', ((p.print r).2.after rs').strokes r' = (p.after rs').strokes r') ∧
      (layout.mode = .raw → r.message ≠ [] → strokes = (Layout.rawLine r).strokes color ∧
        strokes.flatMap (Stroke.octets false) = Layout.rawText r) ∧
      (b.print r).1 = (p.print r).1 ∧ (b.print r).2.toPrinter = (p.print r).2 := by
  intro p b strokes
  have hstrokes : p.strokes r = strokes := strokes_after layout color out rs r
  obtain ⟨hb, hcoherent⟩ := Buffered.after_spec (Buffered.coherent_new layout color out) rs
  obtain ⟨hresult, hprinter, -⟩ := Buffered.print_spec hcoherent r
  refine ⟨?_, ?_, ?_, ?_, ?_⟩
  . rw [← hstrokes]
    exact p.print_applies r
  . intro n hn
    obtain ⟨hcontents, -⟩ := contents_out_print (Prod.ext hn rfl : p.print r = (.ok n, (p.print r).2))
    rw [hcontents, hstrokes, octets_out_after]
    rfl
  . intro hr
    refine ⟨if_pos (by simp [hr]), ?_⟩
    intro rs' r'
    have hprinted : (p.print r).2.after rs' = (new layout color out).after (rs ++ r :: rs') := by
      rw [after_append]
      rfl
    rw [hprinted, ← after_append, strokes_after, strokes_after, Record.lastTime_append_cons_of_empty hr]
  . intro hmode hr
    have hraw : strokes = (Layout.rawLine r).strokes color := by
      have hresolve : layout.resolve.mode = .raw := hmode
      rw [← Layout.line_of_raw hresolve (Record.lastTime rs) r]
      exact if_neg (by simpa using hr)
    rw [hraw, Line.flatMap_octets_strokes, Layout.text_rawLine]
    exact ⟨rfl, rfl⟩
  . rw [hb] at hresult hprinter
    exact ⟨hresult, hprinter⟩

end Printer

structure Flaky where
  failures : List Bool
  kept : Octets

namespace Flaky

def take (s : Octets) (sink : Flaky) : Except Fault Unit × Flaky :=
  if sink.failures.headD false then
    (.error (.ofKind .brokenPipe), { failures := sink.failures.tail, kept := sink.kept ++ s.take 1 })
  else
    (.ok (), { failures := sink.failures.tail, kept := sink.kept ++ s })

instance : Sink Flaky where
  write := take
  flush sink := (.ok (), sink)
  setStyle style := take (Tape.styleCode style)
  resetStyle := take Tape.resetCode

theorem kept_take {s : Octets} {sink sink' : Flaky} (h : sink.take s = (.ok (), sink')) :
    sink'.kept = sink.kept ++ s := by
  unfold take at h
  split at h
  . cases h
  . cases h
    rfl

instance : Sink.Legible Flaky where
  contents := kept
  octets _ := Stroke.octets true
  octets_text _ _ := rfl
  octets_apply _ _ := rfl
  contents_apply := by
    intro stroke sink sink' h
    cases stroke with
    | text s => exact kept_take h
    | style s => exact kept_take h
    | plain => exact kept_take h

end Flaky

namespace Printer

theorem print_after_failure :
    let layout : Layout :=
      { mode := .decoded, format := .reltime, boot := some { seconds := 0, nanos := 0 }, offset := 0 }
    let sink : Flaky := { failures := List.replicate 10 false ++ [true], kept := [] }
    let record (sec : UInt64) (message : String) : Record :=
      { Record.ofMessage (Octets.ofString message) with
        level := some 3
        facility := some 0
        timestamp := some { Timestamp.zero with sec } }
    let p := (new layout true sink).after [record 0 "a", record 61 "b", record 122 ""]
    p.printed = 36 ∧ ∃ p', p.print (record 30 "c\nd") = (.ok 70, p') ∧
      p'.out.kept = p.out.kept ++ Octets.ofString
        "kern  :err   (0:3) \x1b[0m\x1b[1m\x1b[32m[Jan 1 00:00] \x1b[0m\x1b[0m\x1b[31mc\n                                 d\n\x1b[0m" := by
  intro layout sink record p
  obtain ⟨-, hcontents, -⟩ := print_after layout true sink
    [record 0 "a", record 61 "b", record 122 ""] (record 30 "c\nd")
  have hresult : (p.print (record 30 "c\nd")).1 = .ok 70 := by decide +kernel
  refine ⟨by decide +kernel, _, Prod.ext hresult rfl, ?_⟩
  refine (hcontents 70 hresult).trans (congrArg (p.out.kept ++ ·) ?_)
  decide +kernel

end Printer
end KernelLog
