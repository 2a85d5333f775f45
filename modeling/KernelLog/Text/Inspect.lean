/-!
This module contains the shape in which values are shown for inspection: named fields in braces, and
optional values as `Some(…)` or `None`.
-/

namespace KernelLog.Inspect

def fields (name : String) (entries : List (String × String)) : String :=
  let shown := entries.map fun (field, value) => field ++ ": " ++ value
  name ++ " \x7b " ++ ", ".intercalate shown ++ " \x7d"

def option {α : Type} (inspect : α → String) : Option α → String
  | none => "None"
  | some a => "Some(" ++ inspect a ++ ")"

def bool : Bool → String
  | true => "true"
  | false => "false"

end KernelLog.Inspect
