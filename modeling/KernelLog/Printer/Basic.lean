import KernelLog.Printer.Line
import KernelLog.Printer.Sink

/-!
This module contains the printer of records.
-/

namespace KernelLog

/--
A printer: its settings, its sink, the time that the next difference counts from, and the number of octets
printed without a fault.
-/
structure Printer (ω : Type) where
  layout : Layout
  color : Bool
  out : ω
  last : Option Timestamp
  printed : Nat

def Line.strokes (line : Line) (color : Bool) : List Stroke :=
  let colored (on : Bool) (style : Style) (s : Octets) : List Stroke :=
    if color && on then [.style style, .text s, .plain] else [.text s]
  (if line.label.isEmpty then [] else [.text line.label]) ++
    (if line.time.isEmpty then [] else
      colored true (if line.isNewTime then .newTime else .time) line.time) ++
    colored line.isAlert .alert line.body

namespace Printer

variable {ω : Type}

/--
A printer that has printed nothing yet. A format that needs the start of the kernel falls back to none if
that instant is not known.
-/
def new (layout : Layout) (color : Bool) (out : ω) : Printer ω :=
  { layout := layout.resolve
    color
    out
    last := none
    printed := 0 }

def strokes (p : Printer ω) (r : Record) : List Stroke :=
  if r.message.isEmpty then
    [.text [Octet.newline]]
  else
    (p.layout.line p.last r).strokes p.color

def remember (p : Printer ω) (r : Record) : Option Timestamp :=
  if r.message.isEmpty then p.last else p.layout.remember p.last r

/--
Print a record and tell the number of octets of its text. A fault ends the record where it stands; the
octets of such a record are not counted.
-/
def print [Sink ω] (p : Printer ω) (r : Record) : Except Fault Nat × Printer ω :=
  let strokes := p.strokes r
  let size := Stroke.totalSize strokes
  match Stroke.applyAll strokes p.out with
  | (.ok (), out) => (.ok size, { p with out, last := p.remember r, printed := p.printed + size })
  | (.error fault, out) => (.error fault, { p with out, last := p.remember r })

def flush [Sink ω] (p : Printer ω) : Except Fault Unit × Printer ω :=
  match Sink.flush p.out with
  | (result, out) => (result, { p with out })

def inspect (p : Printer ω) : String :=
  Inspect.fields "RecordPrinter"
    [("mode", p.layout.mode.inspect),
     ("time_format", p.layout.format.inspect),
     ("boot", Inspect.option Instant.inspect p.layout.boot),
     ("tz", Offset.inspect p.layout.offset),
     ("last_ts", Inspect.option Timestamp.inspect p.last),
     ("do_color", Inspect.bool p.color),
     ("printed", toString p.printed)]

end Printer
end KernelLog
