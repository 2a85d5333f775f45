import KernelLog.Text.Octet

/-!
This module contains what a read of the kernel's buffer brings: octets, and behind them zeros that the kernel
counted without writing them.
-/

namespace KernelLog

/--
Octets followed by a number of zeros. The zeros are kept as their number, for they can be many.
-/
structure Snapshot where
  text : Octets
  padding : Nat
  deriving Repr, DecidableEq

namespace Snapshot

def ofOctets (text : Octets) : Snapshot :=
  { text, padding := 0 }

def length (s : Snapshot) : Nat :=
  s.text.length + s.padding

def toOctets (s : Snapshot) : Octets :=
  s.text ++ List.replicate s.padding Octet.nul

def zeros (n : Nat) : Snapshot :=
  { text := [], padding := n }

def cut (text : Octets) (n : Nat) : Octets :=
  if text.length ≤ n then text else text.take n

def overwrite (s : Snapshot) (written : Octets) : Snapshot :=
  let written := cut written s.length
  let padding := s.length - max written.length s.text.length
  match s.text.drop written.length with
  | [] => { text := written, padding }
  | rest => { text := written ++ rest, padding }

def truncate (s : Snapshot) (n : Nat) : Snapshot :=
  { text := cut s.text n
    padding := min s.padding (n - s.text.length) }

theorem cut_eq_take (text : Octets) (n : Nat) : cut text n = text.take n := by
  rw [cut]
  split
  . next h => exact (List.take_of_length_le h).symm
  . rfl

theorem overwrite_eq (s : Snapshot) (written : Octets) :
    s.overwrite written =
      { text := written.take s.length ++ s.text.drop (written.take s.length).length
        padding := s.length - max (written.take s.length).length s.text.length } := by
  rw [overwrite, cut_eq_take]
  split
  . next h => rw [h, List.append_nil]
  . rfl

@[simp]
theorem length_toOctets (s : Snapshot) : s.toOctets.length = s.length := by
  simp [toOctets, length]

@[simp]
theorem toOctets_ofOctets (s : Octets) : (ofOctets s).toOctets = s := by
  simp [toOctets, ofOctets]

theorem toOctets_truncate (s : Snapshot) (n : Nat) : (s.truncate n).toOctets = s.toOctets.take n := by
  simp [toOctets, truncate, cut_eq_take, List.take_append, Nat.min_comm]

theorem toOctets_overwrite (s : Snapshot) (written : Octets) :
    (s.overwrite written).toOctets = written.take s.length ++ s.toOctets.drop written.length := by
  simp only [toOctets, overwrite_eq, length, List.append_assoc, List.drop_append, List.drop_replicate,
    List.length_take]
  by_cases h : written.length ≤ s.text.length + s.padding
  . rw [Nat.min_eq_right h]
    congr 3
    omega
  . rw [Nat.min_eq_left (by omega), List.drop_of_length_le (by omega), List.drop_of_length_le (by omega)]
    congr 3
    omega

@[simp]
theorem length_zeros (n : Nat) : (zeros n).length = n := by
  simp [zeros, length]

@[simp]
theorem length_overwrite (s : Snapshot) (written : Octets) : (s.overwrite written).length = s.length := by
  rw [← length_toOctets, toOctets_overwrite, List.length_append, List.length_take, List.length_drop, length_toOctets]
  omega

theorem toOctets_truncate_overwrite (s : Snapshot) (written : Octets) (h : written.length ≤ s.length) :
    ((s.overwrite written).truncate written.length).toOctets = written := by
  rw [toOctets_truncate, toOctets_overwrite, List.take_of_length_le h, List.take_left]

theorem truncate_overwrite_zeros {written : Octets} {room : Nat} (h : written.length ≤ room) :
    ((zeros room).overwrite written).truncate written.length = ofOctets written := by
  rw [overwrite_eq, length_zeros, List.take_of_length_le h]
  simp [truncate, zeros, ofOctets, cut_eq_take]

end Snapshot
end KernelLog
