import KernelLog.Fault
import KernelLog.Record

/-!
This module contains the sources of records: what one pull of a source gives, and the operations of a
source.
-/

namespace KernelLog

/--
What a pull gives: something found, the end of the source, or a fault. The end is not a fault.
-/
inductive Pull (α : Type) (ε : Type) where
  | found (value : α)
  | done
  | failed (error : ε)
  deriving Repr, DecidableEq

namespace Pull

variable {α ε : Type}

def isFound : Pull α ε → Bool
  | .found _ => true
  | .done => false
  | .failed _ => false

def isDone : Pull α ε → Bool
  | .found _ => false
  | .done => true
  | .failed _ => false

def isFailed : Pull α ε → Bool
  | .found _ => false
  | .done => false
  | .failed _ => true

def found? : Pull α ε → Option α
  | .found value => some value
  | .done => none
  | .failed _ => none

def error? : Pull α ε → Option ε
  | .found _ => none
  | .done => none
  | .failed error => some error

def name : Pull α ε → String
  | .found _ => "ResultS3::Found"
  | .done => "ResultS3::Done"
  | .failed _ => "ResultS3::Err"

end Pull

/--
A source of records. Its backlog bounds the number of records that it still has.
-/
class Source (σ : Type) where
  pull : σ → Pull Record Fault × σ
  backlog : σ → Nat
  backlog_pull_lt (s : σ) : (pull s).1.isFound → backlog (pull s).2 < backlog s

end KernelLog
