import KernelLog.Proofs.Number.Decimal

/-!
This module contains the reading of a number with an index, where each product and each sum is checked on its own. Main
statement: a number is read exactly, whatever stands around it, and with all the octets that it takes.
-/

namespace KernelLog.Decimal

def mul? (a b : UInt64) : Option UInt64 :=
  if a.toNat * b.toNat < UInt64.size then some (a * b) else none

def add? (a b : UInt64) : Option UInt64 :=
  if a.toNat + b.toNat < UInt64.size then some (a + b) else none

def skip (p : UInt8 → Bool) (s : Octets) (i : Nat) : Nat :=
  if h : i < s.length then
    if p s[i] then skip p s (i + 1) else i
  else
    i
termination_by s.length - i

def walkDigits? (s : Octets) (i : Nat) (v : UInt64) : Option (UInt64 × Nat) :=
  if h : i < s.length then
    if Octet.isDigit s[i] then do
      let v ← mul? v 10
      let v ← add? v (s[i] - Octet.zero).toUInt64
      walkDigits? s (i + 1) v
    else
      some (v, i)
  else
    some (v, i)
termination_by s.length - i

def walk? (s : Octets) : Option (UInt64 × Nat) := do
  let i := skip Octet.isBlank s 0
  let i := if s[i]? = some Octet.plus then i + 1 else i
  let (v, j) ← walkDigits? s i 0
  if j = i then none else return (v, j)

theorem mul?_bind_add? (v : UInt64) {d : UInt8} (hd : Octet.isDigit d) :
    (mul? v 10).bind (add? · (d - Octet.zero).toUInt64) = push? v d := by
  simp only [Octet.isDigit, Bool.and_eq_true, decide_eq_true_eq, UInt8.le_iff_toNat_le, UInt8.reduceToNat] at hd
  have hdigit : (d - Octet.zero).toUInt64.toNat = Octet.digitValue d := by
    have hle : Octet.zero ≤ d := UInt8.le_iff_toNat_le.mpr hd.1
    rw [UInt8.toNat_toUInt64, UInt8.toNat_sub_of_le _ _ hle]
    rfl
  have hten : v.toNat * (10 : UInt64).toNat = v.toNat * 10 := rfl
  unfold mul? push?
  rw [hten]
  dsimp only
  split
  . next hmul =>
    have hproduct : (v * 10).toNat = v.toNat * 10 := by
      rw [UInt64.toNat_mul, hten]
      exact Nat.mod_eq_of_lt hmul
    rw [Option.bind_some, add?, hproduct, hdigit]
    split
    . next hadd =>
      rw [Option.some.injEq, ← UInt64.toNat_inj, UInt64.toNat_ofNat_of_lt' hadd, UInt64.toNat_add, hproduct, hdigit]
      exact Nat.mod_eq_of_lt hadd
    . rfl
  . next hmul =>
    rw [if_neg (by omega)]
    rfl

theorem skip_eq {p : UInt8 → Bool} (front : Octets) {xs rest : Octets} (hxs : ∀ b ∈ xs, p b)
    (hrest : ∀ b ∈ rest.head?, p b = false) :
    skip p (front ++ (xs ++ rest)) front.length = front.length + xs.length := by
  induction xs generalizing front with
  | nil =>
    unfold skip
    cases rest with
    | nil => simp
    | cons b rest => simp [hrest b rfl]
  | cons x xs ih =>
    have hstep := ih (front ++ [x]) fun b hb => hxs b (List.mem_cons_of_mem x hb)
    have hx : p x := hxs x List.mem_cons_self
    unfold skip
    simp only [List.append_assoc, List.singleton_append, List.length_append, List.length_singleton] at hstep
    simp [hx, hstep]
    omega

theorem walkDigits?_eq (front : Octets) {ds rest : Octets} (hds : ∀ d ∈ ds, Octet.isDigit d)
    (hrest : ∀ b ∈ rest.head?, Octet.isDigit b = false) (v : UInt64) :
    walkDigits? (front ++ (ds ++ rest)) front.length v =
      (ds.foldlM push? v).map (·, front.length + ds.length) := by
  induction ds generalizing front v with
  | nil =>
    unfold walkDigits?
    cases rest with
    | nil => simp
    | cons b rest => simp [hrest b rfl]
  | cons d ds ih =>
    have hd : Octet.isDigit d := hds d List.mem_cons_self
    have hlt : front.length < (front ++ (d :: ds ++ rest)).length := by simp
    have hget : (front ++ (d :: ds ++ rest))[front.length] = d := by simp
    have hstep := ih (front ++ [d]) fun b hb => hds b (List.mem_cons_of_mem d hb)
    simp only [List.append_assoc, List.singleton_append, List.length_append, List.length_singleton] at hstep
    have hpush := Option.bind_assoc (mul? v 10) (add? · (d - Octet.zero).toUInt64)
      (walkDigits? (front ++ (d :: ds ++ rest)) (front.length + 1))
    rw [mul?_bind_add? v hd] at hpush
    rw [walkDigits?, dif_pos hlt, hget, if_pos hd, List.foldlM_cons]
    dsimp only [Option.bind_eq_bind]
    rw [← hpush]
    cases push? v d with
    | none => rfl
    | some v' =>
      rw [Option.bind_some, Option.bind_some, List.cons_append, hstep v', List.length_cons, Nat.add_assoc,
        Nat.add_comm 1]

theorem walk?_eq (s : Octets) : walk? s = measure? s := by
  obtain ⟨blanks, sign, ds, rest, h⟩ := exists_parts s
  have hskip : skip Octet.isBlank s 0 = blanks.length := by
    have := skip_eq [] h.blanks h.behindBlanks
    rwa [List.nil_append, ← h.eq, List.length_nil, Nat.zero_add] at this
  have hsign : (if s[blanks.length]? = some Octet.plus then blanks.length + 1 else blanks.length) =
      (blanks ++ sign).length := by
    have hhead : s[blanks.length]? = (sign ++ (ds ++ rest)).head? := by
      rw [h.eq, List.getElem?_append_right (Nat.le_refl _), Nat.sub_self, List.head?_eq_getElem?]
    rw [hhead]
    rcases h.sign with hsign | ⟨hsign, hplus⟩
    . simp [hsign]
    . rw [hsign, List.nil_append, if_neg hplus, List.append_nil]
  have hwalk := walkDigits?_eq (blanks ++ sign) h.digits h.behindDigits 0
  rw [List.append_assoc, ← h.eq] at hwalk
  unfold walk?
  rw [hskip]
  dsimp only
  rw [hsign, hwalk]
  by_cases hne : ds = []
  . have hnone := h.measure?_eq_none_iff.mpr (.inl hne)
    simp [hne, hnone]
  . cases hfold : ds.foldlM push? 0 with
    | none => simp [measure?, h.read?_eq, hfold]
    | some v =>
      have hmeasure : measure? s = some (v, (blanks ++ sign).length + ds.length) := by
        have hread : read? s = some (v, rest) := by simp [h.read?_eq, hne, hfold]
        obtain ⟨-, hvalue, -⟩ := h.read?_eq_some_iff.mp hread
        rw [h.measure?_eq_some_iff, List.length_append]
        exact ⟨hne, hvalue, rfl⟩
      rw [hmeasure]
      simp [hne]

/--
What is read of a number is exact. All blanks are skipped, and a plus sign if one follows; the number is what all the
digits behind denote, leading zeros included, and the octets that it takes are all of these. There is no number if and
only if there is no digit, or the digits denote a number that needs more than 64 bits. Reading with an index and two
checks on each digit comes to the same. So a number that is written is read back, in front of anything but another
digit.
-/
theorem measure?_exact :
    (∀ s blanks sign ds rest, Parts s blanks sign ds rest →
        (∀ v n, measure? s = some (v, n) ↔
            ds ≠ [] ∧ value ds = v.toNat ∧ n = blanks.length + sign.length + ds.length) ∧
          (measure? s = none ↔ ds = [] ∨ UInt64.size ≤ value ds) ∧
          ∀ v r, read? s = some (v, r) ↔ ds ≠ [] ∧ value ds = v.toNat ∧ r = rest) ∧
      (∀ s, ∃ blanks sign ds rest, Parts s blanks sign ds rest) ∧
      (∀ s, walk? s = measure? s) ∧
      ∀ (v : UInt64) (text : Octets), (∀ b ∈ text.head?, Octet.isDigit b = false) →
        let written := Octets.ofString (toString v.toNat)
        digits v.toNat = written ∧ measure? (written ++ text) = some (v, written.length) ∧
          read? (written ++ text) = some (v, text) := by
  refine ⟨?_, exists_parts, walk?_eq, ?_⟩
  . intro s blanks sign ds rest h
    exact ⟨fun _ _ => h.measure?_eq_some_iff, h.measure?_eq_none_iff, fun _ _ => h.read?_eq_some_iff⟩
  . intro v text htext written
    have hwritten : digits v.toNat = written := digits_eq_ofString v.toNat
    have hparts : Parts (written ++ text) [] [] written text := by
      rw [← hwritten]
      exact .of_ne_nil (List.forall_mem_nil _) (.inl rfl) (isDigit_of_mem_digits _) (digits_ne_nil _) htext
    have hne : written ≠ [] := hwritten ▸ digits_ne_nil v.toNat
    have hvalue : value written = v.toNat := hwritten ▸ value_digits v.toNat
    exact ⟨hwritten, hparts.measure?_eq_some_iff.mpr ⟨hne, hvalue, by simp⟩,
      hparts.read?_eq_some_iff.mpr ⟨hne, hvalue, rfl⟩⟩

theorem measure?_exact_largest :
    let blanks := Octets.ofString "\t "
    let sign := [Octet.plus]
    let largest := Octets.ofString "00018446744073709551615"
    let tooLarge := Octets.ofString "18446744073709551616"
    let rest := Octets.ofString "+7"
    Parts (blanks ++ (sign ++ (largest ++ rest))) blanks sign largest rest ∧
      measure? (blanks ++ (sign ++ (largest ++ rest))) = some (18446744073709551615, 26) ∧
      Parts (tooLarge ++ rest) [] [] tooLarge rest ∧ measure? (tooLarge ++ rest) = none ∧
      measure? (Octets.ofString (toString (18446744073709551615 : UInt64).toNat) ++ rest) =
        some (18446744073709551615, 20) := by
  intro blanks sign largest tooLarge rest
  obtain ⟨hparts, -, -, hwritten⟩ := measure?_exact
  have hlargest : Parts (blanks ++ (sign ++ (largest ++ rest))) blanks sign largest rest :=
    ⟨rfl, by decide +kernel, by decide +kernel, .inl rfl, by decide +kernel, by decide +kernel⟩
  have htooLarge : Parts (tooLarge ++ rest) [] [] tooLarge rest :=
    ⟨rfl, by decide +kernel, by decide +kernel, .inr ⟨rfl, by decide +kernel⟩, by decide +kernel,
      by decide +kernel⟩
  refine ⟨hlargest, ?_, htooLarge, ?_, ?_⟩
  . exact ((hparts _ _ _ _ _ hlargest).1 _ _).mpr (by decide +kernel)
  . exact (hparts _ _ _ _ _ htooLarge).2.1.mpr (.inr (by decide +kernel))
  . have hlength : (Octets.ofString (toString (18446744073709551615 : UInt64).toNat)).length = 20 := by decide +kernel
    rw [← hlength]
    exact (hwritten 18446744073709551615 rest (by decide +kernel)).2.1

end KernelLog.Decimal
