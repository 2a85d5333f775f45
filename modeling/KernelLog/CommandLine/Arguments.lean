import KernelLog.Session.Config

/-!
This module contains the arguments of the command line and how they are read.
-/

namespace KernelLog.CommandLine

inductive Switch where
  | syslog
  | follow
  | clear
  | raw
  | quiet
  deriving Repr, DecidableEq

inductive Setting where
  | since
  | file
  | bufferSize
  | timeFormat
  | color
  deriving Repr, DecidableEq

inductive Opt where
  | switch (switch : Switch)
  | setting (setting : Setting)
  | help
  | version
  deriving Repr, DecidableEq

def longNames : List (String × Opt) :=
  [("since", .setting .since),
   ("file", .setting .file),
   ("syslog", .switch .syslog),
   ("follow", .switch .follow),
   ("clear", .switch .clear),
   ("buffer-size", .setting .bufferSize),
   ("time-format", .setting .timeFormat),
   ("raw", .switch .raw),
   ("color", .setting .color),
   ("quiet", .switch .quiet),
   ("help", .help),
   ("version", .version)]

def shortNames : List (Char × Opt) :=
  [('s', .setting .since),
   ('F', .setting .file),
   ('S', .switch .syslog),
   ('w', .switch .follow),
   ('c', .switch .clear),
   ('b', .setting .bufferSize),
   ('t', .setting .timeFormat),
   ('r', .switch .raw),
   ('q', .switch .quiet),
   ('h', .help),
   ('V', .version)]

def Opt.text (opt : Opt) : String :=
  match longNames.find? (·.2 = opt) with
  | some (name, _) => "--" ++ name
  | none => ""

inductive UsageError where
  | unknown (argument : String)
  | surplus (argument : String)
  | repeated (opt : Opt)
  | unneededValue (opt : Opt)
  | missingValue (setting : Setting)
  | invalidLevel (reason : Level.Malformed)
  | invalidSince (value : String) (reason : Timestamp.Malformed)
  | invalidSize (value : String) (reason : Decimal.Malformed)
  | emptyBuffer
  | invalidFormat (reason : String)
  | invalidColor (value : String)
  | conflict (a b : Opt)
  deriving Repr, DecidableEq

def UsageError.message : UsageError → String
  | .unknown argument => "unexpected argument " ++ quote argument
  | .surplus argument => "unexpected argument " ++ quote argument
  | .repeated opt => opt.text ++ " cannot be used multiple times"
  | .unneededValue opt => opt.text ++ " takes no value"
  | .missingValue setting => (Opt.setting setting).text ++ " needs a value"
  | .invalidLevel reason => reason.message
  | .invalidSince value reason =>
    "Unable to parse --since " ++ quote value ++ "; " ++ reason.message
  | .invalidSize value reason =>
    "Unable to parse a number for --buffer-size " ++ quote value ++ "; " ++ reason.message
  | .emptyBuffer => "--buffer-size must be at least 1"
  | .invalidFormat reason => reason
  | .invalidColor value => "unknown color choice " ++ quote value
  | .conflict a b => a.text ++ " cannot be used with " ++ b.text

inductive Halt where
  | error (error : UsageError)
  | help
  | version
  deriving Repr, DecidableEq

structure Arguments where
  level : Option Level
  since : Option Timestamp
  file : Option String
  bufferSize : Option UInt64
  timeFormat : Option TimeFormat
  color : Option ColorChoice
  switches : List Switch
  deriving Repr, DecidableEq

namespace Arguments

def none : Arguments :=
  { level := .none
    since := .none
    file := .none
    bufferSize := .none
    timeFormat := .none
    color := .none
    switches := [] }

def has (given : Arguments) (switch : Switch) : Bool :=
  given.switches.contains switch

def once {α : Type} (setting : Setting) (before : Option α) (value : Except UsageError α) :
    Except Halt (Option α) :=
  if before.isSome then
    .error (.error (.repeated (.setting setting)))
  else
    match value with
    | .ok value => .ok (some value)
    | .error error => .error (.error error)

def readSize (value : String) : Except UsageError UInt64 :=
  match Decimal.parse value with
  | .ok n => if n = 0 then .error .emptyBuffer else .ok n
  | .error reason => .error (.invalidSize value reason)

def readColor (value : String) : Except UsageError ColorChoice :=
  if value = "always" then
    .ok .always
  else if value = "auto" then
    .ok .auto
  else if value = "never" then
    .ok .never
  else
    .error (.invalidColor value)

def set (given : Arguments) (setting : Setting) (value : String) : Except Halt Arguments := do
  match setting with
  | .since =>
    let since ← once .since given.since ((Timestamp.parse value).mapError (.invalidSince value))
    return { given with since }
  | .file =>
    let file ← once .file given.file (.ok value)
    return { given with file }
  | .bufferSize =>
    let bufferSize ← once .bufferSize given.bufferSize (readSize value)
    return { given with bufferSize }
  | .timeFormat =>
    let timeFormat ←
      once .timeFormat given.timeFormat ((TimeFormat.ofName value).mapError .invalidFormat)
    return { given with timeFormat }
  | .color =>
    let color ← once .color given.color (readColor value)
    return { given with color }

def turnOn (given : Arguments) (switch : Switch) : Except Halt Arguments :=
  if given.has switch then
    .error (.error (.repeated (.switch switch)))
  else
    .ok { given with switches := switch :: given.switches }

def position (given : Arguments) (argument : String) : Except Halt Arguments :=
  if given.level.isSome then
    .error (.error (.surplus argument))
  else
    match Level.parse argument with
    | .ok level => .ok { given with level := some level }
    | .error reason => .error (.error (.invalidLevel reason))

def long (given : Arguments) (body : List Char) : Except Halt (Arguments × Option Setting) :=
  let name := body.takeWhile (· != '=')
  let value :=
    match body.dropWhile (· != '=') with
    | [] => Option.none
    | _ :: value => some (String.ofList value)
  match longNames.lookup (String.ofList name), value with
  | some (.setting setting), some value => (given.set setting value).map (·, Option.none)
  | some (.setting setting), .none => .ok (given, some setting)
  | some (.switch switch), .none => (given.turnOn switch).map (·, Option.none)
  | some .help, .none => .error .help
  | some .version, .none => .error .version
  | some opt, some _ => .error (.error (.unneededValue opt))
  | .none, _ => .error (.error (.unknown (String.ofList ('-' :: '-' :: body))))

/--
Take in the letters behind a single dash. What is behind the letter of a setting is its value, without an equals
sign at its beginning; a setting without a value is returned to get one.
-/
def short (given : Arguments) (letters : List Char) : Except Halt (Arguments × Option Setting) :=
  match letters with
  | [] => .ok (given, Option.none)
  | c :: rest =>
    match shortNames.lookup c with
    | some (.switch switch) =>
      match given.turnOn switch with
      | .ok given => given.short rest
      | .error halt => .error halt
    | some (.setting setting) =>
      match rest with
      | [] => .ok (given, some setting)
      | '=' :: value => (given.set setting (String.ofList value)).map (·, Option.none)
      | value => (given.set setting (String.ofList value)).map (·, Option.none)
    | some .help => .error .help
    | some .version => .error .version
    | .none => .error (.error (.unknown (String.ofList ['-', c])))

def argument (given : Arguments) (s : String) : Except Halt (Arguments × Option Setting) :=
  match s.toList with
  | '-' :: '-' :: body => given.long body
  | ['-'] => (given.position s).map (·, Option.none)
  | '-' :: letters => given.short letters
  | _ => (given.position s).map (·, Option.none)

def isOption (s : String) : Bool :=
  match s.toList with
  | ['-'] => false
  | '-' :: _ => true
  | _ => false

/--
Read arguments in order. Behind `--`, all of them are positional.
-/
def read (given : Arguments) (arguments : List String) : Except Halt Arguments :=
  match arguments with
  | [] => .ok given
  | s :: rest =>
    if s = "--" then
      rest.foldlM position given
    else
      match given.argument s with
      | .error halt => .error halt
      | .ok (given, .none) => given.read rest
      | .ok (given, some setting) =>
        match rest with
        | [] => .error (.error (.missingValue setting))
        | value :: rest =>
          if isOption value then
            .error (.error (.missingValue setting))
          else
            match given.set setting value with
            | .error halt => .error halt
            | .ok given => given.read rest
termination_by arguments.length

def conflict? (given : Arguments) : Option UsageError :=
  if given.file.isSome ∧ given.has .syslog then
    some (.conflict (.setting .file) (.switch .syslog))
  else if given.file.isSome ∧ given.has .follow then
    some (.conflict (.setting .file) (.switch .follow))
  else if given.has .syslog ∧ given.has .follow then
    some (.conflict (.switch .syslog) (.switch .follow))
  else
    .none

def parse (arguments : List String) : Except Halt Arguments := do
  let given ← Arguments.none.read arguments
  match given.conflict? with
  | some error => .error (.error error)
  | .none => return given

def config (given : Arguments) (offset : Int) : Config :=
  let base :=
    Config.new (given.level.getD Level.max) (given.since.getD .zero) (!given.has .quiet) offset
  { base with
    backend :=
      match given.file with
      | some path => .file path
      | .none => if given.has .syslog then .syslog else .kmsg
    action := if given.has .clear then .readClear else .readAll
    follow := given.has .follow
    bufferSize := given.bufferSize
    mode := if given.has .raw then .raw else .decoded
    timeFormat := given.timeFormat.getD .time
    color := given.color.getD .never }

end Arguments
end KernelLog.CommandLine
