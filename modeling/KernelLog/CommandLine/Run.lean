import KernelLog.CommandLine.Arguments
import KernelLog.Session.Basic

/-!
This module contains the run of the program: a session for the given arguments is scanned once, and a summary
follows what is printed.
-/

namespace KernelLog.CommandLine

/--
What the program runs on. `boot` is what the clock tells about the start of the kernel, `offset` how many seconds it is
ahead of universal time.
-/
structure Environment (δ κ : Type) where
  storage : Storage
  openDevice : Bool → Except Fault δ
  kernel : κ
  boot : Option Instant
  offset : Int

structure Outcome (ω : Type) where
  status : Nat
  out : ω
  complaint : Option String

variable {δ κ ω : Type}

def summary (count : Nat) (config : Config) : Octets :=
  Octets.ofString <|
    "\n" ++ toString count ++ " messages of <= " ++ toString config.minSeverity ++ " level after " ++
      toString config.since.sec.toNat ++ " sec\n"

def usage : String :=
  "Usage: [OPTIONS] [LEVEL]\n\nOptions:\n" ++
    String.join (longNames.map fun (name, _) => "  --" ++ name ++ "\n")

def conclude [Sink ω] (text : Octets) (out : ω) : Outcome ω :=
  let (result, out) := Sink.write text out
  let (result, out) :=
    match result with
    | .ok () => Sink.flush out
    | .error fault => (.error fault, out)
  match result with
  | .ok () => { status := 0, out, complaint := none }
  | .error fault =>
    if fault.kind = .brokenPipe then
      { status := 0, out, complaint := none }
    else
      { status := 1, out, complaint := some ("write of summary failed: " ++ fault.message) }

def scanOnce [Kmsg.Device δ] [Control κ] [Sink ω] (env : Environment δ κ) (config : Config) (out : ω) :
    Outcome ω :=
  match Session.start config env.openDevice env.storage env.boot env.kernel with
  | .error error =>
    { status := error.status
      out
      complaint := some ("open of " ++ config.backend.text ++ " failed: " ++ error.message) }
  | .ok session =>
    let printer := if config.render then some (session.printer out (config.color ≠ .never)) else none
    let ((result, printer), session) := session.scan printer
    let out := (printer.map (·.out)).getD out
    match result with
    | .ok count => conclude (summary count config) out
    | .error error =>
      { status := error.status
        out
        complaint :=
          some ("scan of " ++ session.backend.name.text ++ " failed: " ++ error.message) }

def run [Kmsg.Device δ] [Control κ] [Sink ω] (env : Environment δ κ) (arguments : List String) (out : ω) :
    Outcome ω :=
  match Arguments.parse arguments with
  | .error .help => { conclude (Octets.ofString usage) out with status := 0 }
  | .error .version => { conclude (Octets.ofString "kernel ring reader\n") out with status := 0 }
  | .error (.error error) => { status := 2, out, complaint := some error.message }
  | .ok given => scanOnce env (given.config env.offset) out

end KernelLog.CommandLine
