import KernelLog.Text.Octet

/-!
This module contains what is found in front of the first occurrence of an octet, and behind it.
-/

namespace KernelLog.Octets

variable {before : Octets} {b : UInt8}

theorem bne_of_not_mem (h : b ∉ before) : ∀ c ∈ before, (c != b) = true := by
  intro c hc
  rw [bne_iff_ne]
  rintro rfl
  exact h hc

theorem takeWhile_bne_of_not_mem (h : b ∉ before) : before.takeWhile (· != b) = before := by
  rw [← List.append_nil before, List.takeWhile_append_of_pos, List.takeWhile_nil]
  exact bne_of_not_mem h

theorem dropWhile_bne_of_not_mem (h : b ∉ before) : before.dropWhile (· != b) = [] := by
  rw [← List.append_nil before, List.dropWhile_append_of_pos, List.dropWhile_nil]
  exact bne_of_not_mem h

theorem takeWhile_bne_append (h : b ∉ before) (behind : Octets) :
    (before ++ b :: behind).takeWhile (· != b) = before := by
  rw [List.takeWhile_append_of_pos (bne_of_not_mem h), List.takeWhile_cons_of_neg (by simp), List.append_nil]

theorem dropWhile_bne_append (h : b ∉ before) (behind : Octets) :
    (before ++ b :: behind).dropWhile (· != b) = b :: behind := by
  rw [List.dropWhile_append_of_pos (bne_of_not_mem h), List.dropWhile_cons_of_neg (by simp)]

theorem idxOf?_append (h : b ∉ before) (behind : Octets) :
    (before ++ b :: behind).idxOf? b = some before.length := by
  induction before with
  | nil => simp [List.idxOf?_cons]
  | cons c before ih =>
    rw [List.mem_cons, not_or] at h
    rw [List.cons_append, List.idxOf?_cons, if_neg (by simpa using Ne.symm h.1), ih h.2]
    rfl

theorem getElem?_length_append (s t : Octets) : (s ++ t)[s.length]? = t.head? := by
  rw [List.getElem?_append_right (Nat.le_refl _), Nat.sub_self, List.head?_eq_getElem?]

theorem getElem?_length_add_append (s t : Octets) (i : Nat) : (s ++ t)[s.length + i]? = t[i]? := by
  rw [List.getElem?_append_right (Nat.le_add_right _ _), Nat.add_sub_cancel_left]

theorem from?_eq_some_iff {s t : Octets} {i : Nat} : s.from? i = some t ↔ i ≤ s.length ∧ s.drop i = t := by
  unfold from?
  split <;> simp [*]

theorem from?_append (s t : Octets) : (s ++ t).from? s.length = some t :=
  from?_eq_some_iff.mpr ⟨by simp, List.drop_left⟩

theorem from?_append_cons (s : Octets) (b : UInt8) (t : Octets) : (s ++ b :: t).from? (s.length + 1) = some t := by
  have h := from?_append (s ++ [b]) t
  rwa [List.append_assoc, List.singleton_append, List.length_append, List.length_singleton] at h

theorem from?_zero (s : Octets) : s.from? 0 = some s :=
  from?_append [] s

theorem from?_length (s : Octets) : s.from? s.length = some [] :=
  from?_eq_some_iff.mpr ⟨Nat.le_refl _, List.drop_length⟩

theorem from?_add {s t : Octets} {i : Nat} (h : s.from? i = some t) (j : Nat) : s.from? (i + j) = t.from? j := by
  obtain ⟨hi, rfl⟩ := from?_eq_some_iff.mp h
  have hle : i + j ≤ s.length ↔ j ≤ s.length - i := by omega
  simp only [from?, List.length_drop, List.drop_drop, hle]

theorem getElem?_add {s t : Octets} {i : Nat} (h : s.from? i = some t) (j : Nat) : s[i + j]? = t[j]? := by
  obtain ⟨-, rfl⟩ := from?_eq_some_iff.mp h
  rw [List.getElem?_drop]

end KernelLog.Octets
