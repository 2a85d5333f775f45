import KernelLog.Kmsg.Device

/-!
This module contains which outcomes of reads are tried again, which say that the device can be read, and which are
faults.
-/

namespace KernelLog.Kmsg.Arrival

theorem ofRead_eq_retry_iff (outcome : Except Fault Octets) :
    ofRead outcome = .retry ↔
      ∃ fault, outcome = .error fault ∧ (fault.kind = .brokenPipe ∨ fault.kind = .interrupted) := by
  fun_cases ofRead outcome with
  | case1 => simp
  | case2 raw h => simp
  | case3 fault h => simp [h]
  | case4 fault h => simp [h]
  | case5 fault h => simp [h]
  | case6 fault hblock hpipe hinterrupted => simpa using ⟨hpipe, hinterrupted⟩

theorem ofRead_eq_record_or_dry_iff (outcome : Except Fault Octets) :
    ((∃ raw, ofRead outcome = .record raw) ∨ ofRead outcome = .dry) ↔
      (∃ raw, outcome = .ok raw) ∨ ∃ fault, outcome = .error fault ∧ fault.kind = .wouldBlock := by
  fun_cases ofRead outcome with
  | case1 => simp
  | case2 raw h => simp
  | case3 fault h => simp [h]
  | case4 fault h => simp [h]
  | case5 fault h => simp [h]
  | case6 fault hblock hpipe hinterrupted => simpa using hblock

theorem eq_error_of_ofRead_eq_failed {outcome : Except Fault Octets} {fault : Fault} :
    ofRead outcome = .failed fault → outcome = .error fault := by
  fun_cases ofRead outcome with
  | case6 fault' =>
    intro h
    rw [failed.inj h]
  | _ => simp

theorem ofRead_eq_record_iff {outcome : Except Fault Octets} {raw : Octets} :
    ofRead outcome = .record raw ↔ outcome = .ok raw ∧ raw ≠ [] := by
  unfold ofRead
  split
  . simp
  . next raw' hne =>
    constructor
    . rintro ⟨⟩
      exact ⟨rfl, hne⟩
    . rintro ⟨⟨⟩, -⟩
      rfl
  . split <;> simp

end KernelLog.Kmsg.Arrival
