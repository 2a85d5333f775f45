import KernelLog.Timestamp.Basic

/-!
This module relates times to numbers of microseconds. Main statement: the arithmetic of times is exact, up to the
largest number of 64 bits.
-/

namespace KernelLog

theorem toNat_saturate_saturate_add (a b : Nat) :
    (saturate ((saturate a).toNat + b)).toNat = min (a + b) (UInt64.size - 1) := by
  rw [toNat_saturate, toNat_saturate]
  omega

namespace Timestamp

def elapsed (t : Timestamp) : Nat :=
  t.sec.toNat * 1000000 + t.usec.val

variable {t t' : Timestamp}

theorem elapsed_lt_elapsed_iff : t.elapsed < t'.elapsed ↔ t < t' := by
  have husec : t.usec.val < 1000000 := t.usec.isLt
  have husec' : t'.usec.val < 1000000 := t'.usec.isLt
  change _ ↔ t.sec < t'.sec ∨ t.sec = t'.sec ∧ t.usec < t'.usec
  rw [elapsed, elapsed, UInt64.lt_iff_toNat_lt, ← UInt64.toNat_inj, Fin.lt_def]
  omega

theorem elapsed_le_elapsed_iff : t.elapsed ≤ t'.elapsed ↔ ¬t' < t := by
  rw [← elapsed_lt_elapsed_iff, Nat.not_lt]

theorem eq_of_elapsed_eq (h : t.elapsed = t'.elapsed) : t = t' := by
  obtain ⟨sec, usec, husec⟩ := t
  obtain ⟨sec', usec', husec'⟩ := t'
  simp only [elapsed] at h
  have hsec : sec = sec' := by
    rw [← UInt64.toNat_inj]
    omega
  have husec : usec = usec' := by
    rw [hsec] at h
    omega
  simp only [hsec, husec]

theorem toNat_micros (t : Timestamp) : t.micros.toNat = min t.elapsed (UInt64.size - 1) :=
  toNat_saturate_saturate_add _ _

theorem toNat_micros_of_lt (h : t.elapsed < UInt64.size) : t.micros.toNat = t.elapsed := by
  rw [toNat_micros]
  omega

theorem toNat_micros_ofParts (sec usec : UInt64) :
    (ofParts sec usec).micros.toNat = min (sec.toNat * 1000000 + usec.toNat) (UInt64.size - 1) := by
  have hsize : 1 < UInt64.size := by decide
  rw [toNat_micros, elapsed, ofParts]
  dsimp only
  rw [toNat_saturate]
  omega

theorem elapsed_ofMicros (m : UInt64) : (ofMicros m).elapsed = m.toNat := by
  rw [elapsed, ofMicros, UInt64.toNat_div]
  exact Nat.div_add_mod' m.toNat 1000000

theorem micros_ofMicros (m : UInt64) : (ofMicros m).micros = m := by
  have helapsed := elapsed_ofMicros m
  rw [← UInt64.toNat_inj, toNat_micros_of_lt, helapsed]
  rw [helapsed]
  exact m.toNat_lt_size

theorem ofMicros_micros_iff : ofMicros t.micros = t ↔ t.elapsed < UInt64.size := by
  constructor
  . intro h
    rw [← h, elapsed_ofMicros]
    exact UInt64.toNat_lt_size _
  . intro h
    apply eq_of_elapsed_eq
    rw [elapsed_ofMicros, toNat_micros_of_lt h]

theorem micros_le_micros (h : ¬t' < t) : t.micros ≤ t'.micros := by
  have hle := elapsed_le_elapsed_iff.mpr h
  rw [UInt64.le_iff_toNat_le, toNat_micros, toNat_micros]
  omega

theorem micros_lt_micros_iff (h : t.elapsed < UInt64.size) (h' : t'.elapsed < UInt64.size) :
    t.micros < t'.micros ↔ t < t' := by
  rw [UInt64.lt_iff_toNat_lt, toNat_micros_of_lt h, toNat_micros_of_lt h', elapsed_lt_elapsed_iff]

/--
The arithmetic of times is exact as long as the microseconds need at most 64 bits, and beyond that it stops at the
largest number. This is so of a time that is put together from seconds and any number of microseconds, also if its
seconds stop at the largest number. A number of microseconds is always got back, and a time if and only if its
microseconds need at most 64 bits. Microseconds never turn the order of two times around, and keep it strict if
neither stops.
-/
theorem micros_exact :
    (∀ sec usec : UInt64,
        (ofParts sec usec).sec.toNat = min (sec.toNat + usec.toNat / 1000000) (UInt64.size - 1) ∧
          (ofParts sec usec).usec.val = usec.toNat % 1000000 ∧ (ofParts sec usec).usec.val < 1000000 ∧
          (ofParts sec usec).micros.toNat = min (sec.toNat * 1000000 + usec.toNat) (UInt64.size - 1)) ∧
      (∀ m : UInt64, (ofMicros m).micros = m) ∧
      (∀ t : Timestamp, ofMicros t.micros = t ↔ t.sec.toNat * 1000000 + t.usec.val < UInt64.size) ∧
      (∀ t t' : Timestamp, ¬t' < t → t.micros ≤ t'.micros) ∧
      ∀ t t' : Timestamp, t.sec.toNat * 1000000 + t.usec.val < UInt64.size →
        t'.sec.toNat * 1000000 + t'.usec.val < UInt64.size → (t < t' ↔ t.micros < t'.micros) := by
  refine ⟨?_, micros_ofMicros, fun _ => ofMicros_micros_iff, fun _ _ => micros_le_micros, ?_⟩
  . intro sec usec
    exact ⟨toNat_saturate _, rfl, (ofParts sec usec).usec.isLt, toNat_micros_ofParts sec usec⟩
  . intro t t' h h'
    exact (micros_lt_micros_iff h h').symm

theorem micros_exact_limit :
    let last := ofParts 18446744073709 551615
    let behind := ofParts 18446744073708 1551616
    let stopped := ofParts 18446744073709551615 18446744073709551615
    ofMicros last.micros = last ∧ ofMicros behind.micros ≠ behind ∧ last < behind ∧ last.micros ≤ behind.micros ∧
      ofParts 0 18446744073709551614 < last ∧ (ofParts 0 18446744073709551614).micros < last.micros ∧
      stopped.micros.toNat = UInt64.size - 1 := by
  intro last behind stopped
  obtain ⟨hparts, -, hback, hweak, hstrict⟩ := micros_exact
  have hbefore : ofParts 0 18446744073709551614 < last := by decide +kernel
  have hlt : last < behind := by decide +kernel
  refine ⟨(hback last).mpr (by decide +kernel), fun h => absurd ((hback behind).mp h) (by decide +kernel), hlt,
    hweak last behind (by decide +kernel), hbefore,
    (hstrict _ last (by decide +kernel) (by decide +kernel)).mp hbefore, ?_⟩
  rw [(hparts 18446744073709551615 18446744073709551615).2.2.2]
  decide +kernel

end Timestamp
end KernelLog
