import KernelLog.Text.Blank
import KernelLog.Text.Quoted

/-!
This module contains the severity levels and the facilities of records, and the packed priority that holds
both.
-/

namespace KernelLog

abbrev Level := Nat

abbrev Facility := Nat

structure Naming where
  name : String
  help : String
  deriving Repr, DecidableEq

namespace Level

def max : Level := 7

def error : Level := 3

def namings : List Naming :=
  [⟨"emerg", "system is unusable"⟩,
   ⟨"alert", "action must be taken immediately"⟩,
   ⟨"crit", "critical conditions"⟩,
   ⟨"err", "error conditions"⟩,
   ⟨"warn", "warning conditions"⟩,
   ⟨"notice", "normal but significant condition"⟩,
   ⟨"info", "informational"⟩,
   ⟨"debug", "debug-level messages"⟩]

def naming? (level : Level) : Option Naming :=
  namings[level]?

inductive Malformed where
  | empty
  | outOfRange (text : String)
  | unknown (text : String)
  deriving Repr, DecidableEq

def Malformed.message : Malformed → String
  | .empty => "empty level"
  | .outOfRange text => "level " ++ quote text ++ " is not within 0 to " ++ toString max
  | .unknown text => "unknown level " ++ quote text

def parse (s : String) : Except Malformed Level :=
  let s := trim s
  if s.isEmpty then
    .error .empty
  else if s.toList.all Char.isDigit then
    let level := s.toList.foldl (fun n c => n * 10 + (c.toNat - 48)) 0
    if level ≤ max then .ok level else .error (.outOfRange s)
  else
    match namings.findIdx? (·.name == String.ofList (s.toList.map Char.toLower)) with
    | some level => .ok level
    | none => .error (.unknown s)

end Level

namespace Facility

def namings : List Naming :=
  [⟨"kern", "kernel messages"⟩,
   ⟨"user", "random user-level messages"⟩,
   ⟨"mail", "mail system"⟩,
   ⟨"daemon", "system daemons"⟩,
   ⟨"auth", "security/authorization messages"⟩,
   ⟨"syslog", "messages generated internally by syslogd"⟩,
   ⟨"lpr", "line printer subsystem"⟩,
   ⟨"news", "network news subsystem"⟩,
   ⟨"uucp", "UUCP subsystem"⟩,
   ⟨"cron", "clock daemon"⟩,
   ⟨"authpriv", "security/authorization messages (private)"⟩,
   ⟨"ftp", "FTP daemon"⟩]

def naming? (facility : Facility) : Option Naming :=
  namings[facility]?

end Facility

/--
A packed priority, eight times the facility plus the level.
-/
abbrev Priority := UInt64

namespace Priority

def level (p : Priority) : Level :=
  p.toNat % 8

def facility? (p : Priority) : Option Facility :=
  let facility := p.toNat / 8
  if facility < Facility.namings.length then some facility else none

end Priority
end KernelLog
