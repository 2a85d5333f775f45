import KernelLog.Proofs.Printer.Written

/-!
This module contains a printer that composes each line in texts which it keeps and uses again, and that remembers the time
of day it has shown. Main statement: whatever is left in these texts, it does what a printer without them does.
-/

namespace KernelLog

theorem Stroke.applyAll_append {ω : Type} [Sink ω] (strokes strokes' : List Stroke) (out : ω) :
    applyAll (strokes ++ strokes') out =
      match (applyAll strokes out).1 with
      | .ok () => applyAll strokes' (applyAll strokes out).2
      | .error fault => (.error fault, (applyAll strokes out).2) := by
  induction strokes generalizing out with
  | nil => rfl
  | cons stroke strokes ih =>
    rw [List.cons_append, applyAll, applyAll]
    rcases stroke.apply out with ⟨fault | _, out'⟩
    . rfl
    . exact ih out'

theorem Stroke.totalSize_append (strokes strokes' : List Stroke) :
    totalSize (strokes ++ strokes') = totalSize strokes + totalSize strokes' := by
  induction strokes with
  | nil => exact (Nat.zero_add _).symm
  | cons stroke strokes ih => rw [List.cons_append, totalSize, totalSize, ih, Nat.add_assoc]

def Stroke.ofFront (color isNewTime : Bool) (label time : Octets) : List Stroke :=
  let style := if isNewTime then Style.newTime else Style.time
  (if label.isEmpty then [] else [.text label]) ++
    if time.isEmpty then [] else if color then [.style style, .text time, .plain] else [.text time]

def Stroke.ofBody (color isAlert : Bool) (body : Octets) : List Stroke :=
  if color && isAlert then [.style .alert, .text body, .plain] else [.text body]

theorem Line.strokes_eq_append (line : Line) (color : Bool) :
    line.strokes color =
      Stroke.ofFront color line.isNewTime line.label line.time ++ Stroke.ofBody color line.isAlert line.body := by
  simp only [strokes, Bool.and_true]
  rfl

/--
A printer with the texts that it composes a line in, the front of label and time and the body, which are not made anew for
each record. `shown` are the minute, the hour and the day of the record before, if they are known.
-/
structure Printer.Buffered (ω : Type) extends Printer ω where
  shown : Option (Nat × Nat × Nat)
  front : Octets
  body : Octets

namespace Printer.Buffered

variable {ω : Type}

def new (layout : Layout) (color : Bool) (out : ω) : Buffered ω :=
  { Printer.new layout color out with
    shown := none
    front := []
    body := [] }

def push (b : Buffered ω) (s : Octets) : Buffered ω :=
  { b with front := b.front ++ s }

def count (b : Buffered ω) (t : Timestamp) : Option Timestamp × Buffered ω :=
  (b.last, { b with last := some t })

def pushTime (b : Buffered ω) (t : Timestamp) : Bool × Buffered ω :=
  match b.layout.format with
  | .noTime | .ctime | .time | .iso => (false, b.push (b.layout.timePart none t))
  | .ctimeDelta | .delta | .timeDelta =>
    let (since, b) := b.count t
    (false, b.push (b.layout.timePart since t))
  | .reltime =>
    let (since, b) := b.count t
    let current := b.layout.timeBreak? t
    let (isNew, time) :=
      match b.layout.dateTime? t with
      | some now =>
        if b.shown = current then
          (false, Layout.timePart.elapsed since t)
        else
          (true, Layout.bracketed now.shortText)
      | none => (false, Layout.timePart.elapsed since t)
    (isNew, { b.push time with shown := current })

def composeFront (b : Buffered ω) (r : Record) : Nat × Bool × Buffered ω :=
  let b := { b with front := [] }
  match b.layout.mode with
  | .raw =>
    let b := b.push (Layout.rawLabel r)
    (b.front.length, false, b)
  | .decoded =>
    let b := b.push (Layout.decodedLabel r)
    let width := b.front.length
    let (isNew, b) := b.pushTime r.time
    (width, isNew, b)

def composeBody (b : Buffered ω) (message : Octets) : Buffered ω :=
  let b := { b with body := [] }
  let b := { b with body := b.body ++ Escape.terminal b.front.length message }
  if b.body.getLast? = some Octet.newline then b else { b with body := b.body ++ [Octet.newline] }

def compose (b : Buffered ω) (r : Record) : Nat × Bool × Buffered ω :=
  let (width, isNew, b) := b.composeFront r
  (width, isNew, b.composeBody r.message)

def Coherent (b : Buffered ω) : Prop :=
  b.layout.format = .reltime → b.shown = b.last.bind b.layout.timeBreak?

theorem coherent_new (layout : Layout) (color : Bool) (out : ω) : (new layout color out).Coherent :=
  fun _ => rfl

theorem exists_pushTime {b : Buffered ω} (h : b.Coherent) (t : Timestamp) :
    ∃ shown, b.pushTime t =
        (b.layout.isNewTime b.last t,
          { b with
            last := if b.layout.format.usesDelta then some t else b.last
            shown
            front := b.front ++ b.layout.timePart b.last t }) ∧
      (b.layout.format = .reltime → shown = b.layout.timeBreak? t) := by
  have hbreak (hformat : b.layout.format ≠ .reltime) : b.layout.isNewTime b.last t = false := by
    simp [Layout.isNewTime, hformat]
  cases hformat : b.layout.format with
  | reltime =>
    have hshown := h hformat
    refine ⟨b.layout.timeBreak? t, ?_, fun _ => rfl⟩
    simp only [pushTime, hformat, count, push, hshown, Layout.isNewTime, Layout.timePart, TimeFormat.usesDelta]
    cases hnow : b.layout.dateTime? t with
    | none => simp [Layout.timeBreak?, hnow]
    | some now =>
      have hknown : (b.layout.timeBreak? t).isSome := by simp [Layout.timeBreak?, hnow]
      by_cases hsame : b.last.bind b.layout.timeBreak? = b.layout.timeBreak? t
      . simp [hsame]
      . simp [hsame, hknown]
  | _ =>
    refine ⟨b.shown, ?_, by rintro ⟨⟩⟩
    rw [hbreak (by rw [hformat]; rintro ⟨⟩)]
    simp [pushTime, hformat, count, push, Layout.timePart, TimeFormat.usesDelta]

theorem exists_composeFront {b : Buffered ω} (h : b.Coherent) (r : Record) :
    let line := b.layout.line b.last r
    ∃ shown, b.composeFront r =
        (line.label.length, line.isNewTime,
          { b with
            last := b.layout.remember b.last r
            shown
            front := line.label ++ line.time }) ∧
      (b.layout.format = .reltime → shown = (b.layout.remember b.last r).bind b.layout.timeBreak?) := by
  intro line
  unfold composeFront
  cases hmode : b.layout.mode with
  | raw =>
    refine ⟨b.shown, ?_, ?_⟩
    . simp [line, Layout.line, Layout.remember, hmode, push]
    . intro hformat
      rw [Layout.remember, hmode]
      exact h hformat
  | decoded =>
    have hcoherent : Coherent { b with front := Layout.decodedLabel r } := h
    obtain ⟨shown, hpush, hshown⟩ := exists_pushTime hcoherent r.time
    refine ⟨shown, ?_, ?_⟩
    . simp only [push, List.nil_append, hpush]
      simp [line, Layout.line, Layout.remember, hmode]
    . intro hformat
      simp only at hshown
      rw [hshown hformat, Layout.remember, hmode]
      simp [hformat, TimeFormat.usesDelta]

theorem composeBody_eq (b : Buffered ω) (message : Octets) :
    b.composeBody message = { b with body := Layout.closed (Escape.terminal b.front.length message) } := by
  unfold composeBody Layout.closed
  simp only [List.nil_append]
  split <;> rfl

theorem exists_compose {b : Buffered ω} (h : b.Coherent) (r : Record) :
    let line := b.layout.line b.last r
    ∃ shown, b.compose r =
        (line.label.length, line.isNewTime,
          { b with
            last := b.layout.remember b.last r
            shown
            front := line.label ++ line.time
            body := line.body }) ∧
      (b.layout.format = .reltime → shown = (b.layout.remember b.last r).bind b.layout.timeBreak?) := by
  intro line
  obtain ⟨shown, hfront, hshown⟩ := exists_composeFront h r
  refine ⟨shown, ?_, hshown⟩
  simp only [compose, hfront, composeBody_eq, List.length_append]
  rfl

variable [Sink ω]

def write (b : Buffered ω) (strokes : List Stroke) : Except Fault Nat × Buffered ω :=
  match Stroke.applyAll strokes b.out with
  | (.ok (), out) => (.ok (Stroke.totalSize strokes), { b with out })
  | (.error fault, out) => (.error fault, { b with out })

def writeFront (b : Buffered ω) (width : Nat) (isNew : Bool) : Except Fault Nat × Buffered ω :=
  let front := b.front
  let b := { b with front := [] }
  match b.write (Stroke.ofFront b.color isNew (front.take width) (front.drop width)) with
  | (.ok n, b) => (.ok n, { b with front })
  | (.error fault, b) => (.error fault, b)

def writeLine (b : Buffered ω) (width : Nat) (isNew isAlert : Bool) : Except Fault Nat × Buffered ω :=
  match b.writeFront width isNew with
  | (.error fault, b) => (.error fault, b)
  | (.ok n, b) =>
    match b.write (Stroke.ofBody b.color isAlert b.body) with
    | (.error fault, b) => (.error fault, b)
    | (.ok k, b) => (.ok (n + k), { b with printed := b.printed + (n + k) })

def print (b : Buffered ω) (r : Record) : Except Fault Nat × Buffered ω :=
  if r.message.isEmpty then
    match b.write [.text [Octet.newline]] with
    | (.ok n, b) => (.ok n, { b with printed := b.printed + n })
    | (.error fault, b) => (.error fault, b)
  else
    let (width, isNew, b) := b.compose r
    b.writeLine width isNew (r.level.any (· ≤ Level.error))

def after (b : Buffered ω) (rs : List Record) : Buffered ω :=
  rs.foldl (fun b r => (b.print r).2) b

theorem exists_writeLine (b : Buffered ω) (line : Line) (hfront : b.front = line.label ++ line.time)
    (hbody : b.body = line.body) :
    ∃ front, b.writeLine line.label.length line.isNewTime line.isAlert =
      match Stroke.applyAll (line.strokes b.color) b.out with
      | (.ok (), out) =>
        (.ok (Stroke.totalSize (line.strokes b.color)),
          { b with out, front, printed := b.printed + Stroke.totalSize (line.strokes b.color) })
      | (.error fault, out) => (.error fault, { b with out, front }) := by
  have hlabel : b.front.take line.label.length = line.label := by rw [hfront, List.take_left']; rfl
  have htime : b.front.drop line.label.length = line.time := by rw [hfront, List.drop_left']; rfl
  rw [Line.strokes_eq_append, Stroke.applyAll_append, Stroke.totalSize_append]
  simp only [writeLine, writeFront, write, hlabel, htime, hbody]
  rcases Stroke.applyAll (Stroke.ofFront b.color line.isNewTime line.label line.time) b.out with ⟨fault | _, out⟩
  . exact ⟨[], rfl⟩
  . refine ⟨b.front, ?_⟩
    dsimp only
    rcases Stroke.applyAll (Stroke.ofBody b.color line.isAlert line.body) out with ⟨fault | _, out'⟩
    . rfl
    . rfl

/--
A printer with texts does for a record what the printer without them does, whatever is left in the texts.
-/
theorem print_spec {b : Buffered ω} (h : b.Coherent) (r : Record) :
    (b.print r).1 = (b.toPrinter.print r).1 ∧ (b.print r).2.toPrinter = (b.toPrinter.print r).2 ∧
      (b.print r).2.Coherent := by
  rw [print, Printer.print]
  by_cases hempty : r.message.isEmpty
  . simp only [write, strokes, remember, hempty, ↓reduceIte]
    rcases Stroke.applyAll [.text [Octet.newline]] b.out with ⟨fault | _, out⟩
    . exact ⟨rfl, rfl, h⟩
    . exact ⟨rfl, rfl, h⟩
  . obtain ⟨shown, hcompose, hshown⟩ := exists_compose h r
    have halert : r.level.any (· ≤ Level.error) = (b.layout.line b.last r).isAlert := rfl
    simp only [strokes, remember, hempty, hcompose, halert, Bool.false_eq_true, ↓reduceIte]
    generalize hcomposed : Buffered.mk _ _ _ _ = composed
    obtain ⟨front, hline⟩ := exists_writeLine composed (b.layout.line b.last r)
      (by rw [← hcomposed]) (by rw [← hcomposed])
    rw [hline, ← hcomposed]
    dsimp only
    rcases Stroke.applyAll ((b.layout.line b.last r).strokes b.color) b.out with ⟨fault | _, out⟩
    . exact ⟨rfl, rfl, hshown⟩
    . exact ⟨rfl, rfl, hshown⟩

theorem after_spec {b : Buffered ω} (h : b.Coherent) (rs : List Record) :
    (b.after rs).toPrinter = b.toPrinter.after rs ∧ (b.after rs).Coherent := by
  induction rs generalizing b with
  | nil => exact ⟨rfl, h⟩
  | cons r rs ih =>
    obtain ⟨-, hprinter, hcoherent⟩ := print_spec h r
    rw [after, Printer.after, List.foldl_cons, List.foldl_cons, ← hprinter]
    exact ih hcoherent

end Printer.Buffered
end KernelLog
