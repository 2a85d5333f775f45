import KernelLog.Number.Decimal
import KernelLog.Proofs.Text.Utf8
import Mathlib.Algebra.Group.Nat.Defs

/-!
This module relates decimal numerals to the numbers that they denote. Main statement: a run of digits is read as
the number that it denotes, or not at all if that number needs more than 64 bits.
-/

namespace KernelLog.Decimal

theorem le_foldl_digits (v : Nat) (ds : Octets) : v ≤ ds.foldl (fun v d => v * 10 + Octet.digitValue d) v := by
  induction ds generalizing v with
  | nil => exact Nat.le_refl _
  | cons d ds ih =>
    have := ih (v * 10 + Octet.digitValue d)
    rw [List.foldl_cons]
    omega

theorem foldlM_push? (v : UInt64) (ds : Octets) :
    ds.foldlM push? v =
      let n := ds.foldl (fun v d => v * 10 + Octet.digitValue d) v.toNat
      if n < UInt64.size then some (UInt64.ofNat n) else none := by
  induction ds generalizing v with
  | nil => simp [v.toNat_lt_size]
  | cons d ds ih =>
    rw [List.foldlM_cons, List.foldl_cons, push?]
    dsimp only
    split
    . next h =>
      rw [Option.bind_eq_bind, Option.bind_some, ih, UInt64.toNat_ofNat_of_lt' h]
    . next h =>
      have := le_foldl_digits (v.toNat * 10 + Octet.digitValue d) ds
      rw [if_neg (by omega)]
      rfl

theorem value_concat (ds : Octets) (d : UInt8) : value (ds ++ [d]) = value ds * 10 + Octet.digitValue d := by
  simp [value]

theorem digitValue_digit {n : Nat} (h : n < 10) : Octet.digitValue (Octet.digit n) = n := by
  rw [Octet.digitValue, Octet.digit, UInt8.toNat_ofNat']
  omega

theorem isDigit_digit {n : Nat} (h : n < 10) : Octet.isDigit (Octet.digit n) := by
  simp only [Octet.isDigit, Octet.digit, Bool.and_eq_true, decide_eq_true_eq, UInt8.le_iff_toNat_le,
    UInt8.toNat_ofNat', UInt8.reduceToNat]
  omega

theorem value_digits (n : Nat) : value (digits n) = n := by
  fun_induction digits n with
  | case1 n h => simp [value, digitValue_digit h]
  | case2 n h ih =>
    rw [value_concat, ih, digitValue_digit (Nat.mod_lt n (by decide))]
    omega

theorem isDigit_of_mem_digits (n : Nat) : ∀ d ∈ digits n, Octet.isDigit d := by
  fun_induction digits n with
  | case1 n h =>
    intro d hd
    rw [List.mem_singleton.mp hd]
    exact isDigit_digit h
  | case2 n h ih =>
    intro d hd
    rcases List.mem_append.mp hd with hd | hd
    . exact ih d hd
    . rw [List.mem_singleton.mp hd]
      exact isDigit_digit (Nat.mod_lt n (by decide))

theorem utf8EncodeChar_digitChar : ∀ n < 10, String.utf8EncodeChar n.digitChar = [Octet.digit n] := by
  decide

theorem digits_eq_encode (n : Nat) : digits n = Utf8.encode (Nat.toDigits 10 n) := by
  fun_induction digits n with
  | case1 n h =>
    rw [Nat.toDigits_of_lt_base h, Utf8.encode_cons, utf8EncodeChar_digitChar n h]
    rfl
  | case2 n h ih =>
    rw [Nat.toDigits_of_base_le (by decide) (Nat.le_of_not_lt h), Utf8.encode_append, ih, Utf8.encode_cons,
      utf8EncodeChar_digitChar _ (Nat.mod_lt n (by decide))]
    rfl

theorem length_digits (n : Nat) : (digits n).length = (Nat.toDigits 10 n).length := by
  fun_induction digits n with
  | case1 n h =>
    rw [Nat.toDigits_of_lt_base h]
    rfl
  | case2 n h ih =>
    rw [Nat.toDigits_of_base_le (by decide) (Nat.le_of_not_lt h), List.length_append, List.length_append, ih]
    rfl

theorem encode_replicate_zero (k : Nat) : Utf8.encode (List.replicate k '0') = List.replicate k Octet.zero := by
  induction k with
  | zero => rfl
  | succ k ih =>
    rw [List.replicate_succ, Utf8.encode_cons, ih]
    rfl

theorem zeroed_eq_encode (width n : Nat) :
    zeroed width n =
      Utf8.encode (List.replicate (width - (Nat.toDigits 10 n).length) '0' ++ Nat.toDigits 10 n) := by
  rw [zeroed, padLeft, length_digits, digits_eq_encode, Utf8.encode_append, encode_replicate_zero]

theorem digits_eq_ofString (n : Nat) : digits n = Octets.ofString (toString n) := by
  rw [Nat.toString_eq_ofList_toDigits, Utf8.ofString_ofList, digits_eq_encode]

theorem digits_ne_nil (n : Nat) : digits n ≠ [] := by
  rw [digits]
  split <;> simp

theorem value_replicate_zero_append (k : Nat) (ds : Octets) :
    value (List.replicate k Octet.zero ++ ds) = value ds := by
  induction k with
  | zero => rfl
  | succ k ih =>
    rw [List.replicate_succ, List.cons_append, value, List.foldl_cons]
    exact ih

theorem value_zeroed (width n : Nat) : value (zeroed width n) = n := by
  rw [zeroed, padLeft, value_replicate_zero_append, value_digits]

theorem isDigit_of_mem_zeroed (width n : Nat) : ∀ d ∈ zeroed width n, Octet.isDigit d := by
  intro d hd
  rcases List.mem_append.mp hd with hd | hd
  . rw [List.eq_of_mem_replicate hd]
    decide
  . exact isDigit_of_mem_digits n d hd

theorem zeroed_ne_nil (width n : Nat) : zeroed width n ≠ [] :=
  List.append_ne_nil_of_right_ne_nil _ (digits_ne_nil n)

theorem length_digits_le {n width : Nat} (hpos : 0 < width) (h : n < 10 ^ width) : (digits n).length ≤ width := by
  fun_induction digits n generalizing width with
  | case1 n hn => exact hpos
  | case2 n hn ih =>
    obtain ⟨width, rfl⟩ := Nat.exists_eq_add_of_lt hpos
    rw [Nat.zero_add, pow_succ] at h
    have hwidth : 0 < width := by
      rcases Nat.eq_zero_or_pos width with rfl | hwidth
      . omega
      . exact hwidth
    have hdiv : n / 10 < 10 ^ width := by omega
    have hlength := ih hwidth hdiv
    rw [List.length_append, List.length_singleton]
    omega

theorem le_length_zeroed (width n : Nat) : width ≤ (zeroed width n).length := by
  rw [zeroed, padLeft, List.length_append, List.length_replicate]
  omega

theorem length_zeroed {n width : Nat} (hpos : 0 < width) (h : n < 10 ^ width) : (zeroed width n).length = width := by
  have hdigits := length_digits_le hpos h
  rw [zeroed, padLeft, List.length_append, List.length_replicate]
  omega

theorem takeWhile_append_of_head? {p : UInt8 → Bool} {ds rest : Octets} (hds : ∀ d ∈ ds, p d)
    (hrest : ∀ b ∈ rest.head?, p b = false) :
    (ds ++ rest).takeWhile p = ds ∧ (ds ++ rest).dropWhile p = rest := by
  rw [List.takeWhile_append_of_pos hds, List.dropWhile_append_of_pos hds]
  cases rest with
  | nil => simp
  | cons b rest =>
    have := hrest b rfl
    simp [this]

theorem not_isBlank_of_isDigit {b : UInt8} (h : Octet.isDigit b) : Octet.isBlank b = false := by
  simp only [Octet.isDigit, Bool.and_eq_true, decide_eq_true_eq, UInt8.le_iff_toNat_le, UInt8.reduceToNat] at h
  simp only [Octet.isBlank, Bool.or_eq_false_iff, beq_eq_false_iff_ne, ne_eq, ← UInt8.toNat_inj, UInt8.reduceToNat]
  omega

/--
The text of a number: blanks, at most one plus sign, and at least one digit. The digits denote the number.
-/
inductive Numeral : Octets → UInt64 → Prop where
  | mk {blanks sign ds : Octets} {n : UInt64} : (∀ b ∈ blanks, Octet.isBlank b) →
    (sign = [] ∨ sign = [Octet.plus]) → ds ≠ [] → (∀ d ∈ ds, Octet.isDigit d) → value ds = n.toNat →
    Numeral (blanks ++ (sign ++ ds)) n

structure Parts (s blanks sign ds rest : Octets) : Prop where
  eq : s = blanks ++ (sign ++ (ds ++ rest))
  blanks : ∀ b ∈ blanks, Octet.isBlank b
  behindBlanks : ∀ b ∈ (sign ++ (ds ++ rest)).head?, Octet.isBlank b = false
  sign : sign = [Octet.plus] ∨ sign = [] ∧ (ds ++ rest).head? ≠ some Octet.plus
  digits : ∀ d ∈ ds, Octet.isDigit d
  behindDigits : ∀ b ∈ rest.head?, Octet.isDigit b = false

theorem head?_dropWhile_eq_false (p : UInt8 → Bool) (s : Octets) : ∀ b ∈ (s.dropWhile p).head?, p b = false := by
  intro b hb
  have hnot := List.head?_dropWhile_not p s
  rw [Option.mem_def.mp hb] at hnot
  simpa using hnot

theorem exists_parts (s : Octets) : ∃ blanks sign ds rest, Parts s blanks sign ds rest := by
  have hs := (List.takeWhile_append_dropWhile (p := Octet.isBlank) (l := s)).symm
  have hblanks : ∀ b ∈ s.takeWhile Octet.isBlank, Octet.isBlank b := List.all_eq_true.mp List.all_takeWhile
  have hbehind := head?_dropWhile_eq_false Octet.isBlank s
  generalize s.dropWhile Octet.isBlank = behind at hs hbehind
  -- what stands behind the sign
  obtain ⟨sign, body, rfl, hsign⟩ : ∃ sign body, behind = sign ++ body ∧
      (sign = [Octet.plus] ∨ sign = [] ∧ body.head? ≠ some Octet.plus) := by
    by_cases hplus : behind.head? = some Octet.plus
    . obtain ⟨body, rfl⟩ := List.head?_eq_some_iff.mp hplus
      exact ⟨[Octet.plus], body, rfl, .inl rfl⟩
    . exact ⟨[], behind, rfl, .inr ⟨rfl, hplus⟩⟩
  have hbody := (List.takeWhile_append_dropWhile (p := Octet.isDigit) (l := body)).symm
  have hdigits : ∀ d ∈ body.takeWhile Octet.isDigit, Octet.isDigit d := List.all_eq_true.mp List.all_takeWhile
  have hrest := head?_dropWhile_eq_false Octet.isDigit body
  rw [hbody] at hs hbehind hsign
  exact ⟨_, sign, _, _, hs, hblanks, hbehind, hsign, hdigits, hrest⟩

namespace Parts

variable {s blanks sign ds rest : Octets}

theorem of_ne_nil (hblanks : ∀ b ∈ blanks, Octet.isBlank b) (hsign : sign = [] ∨ sign = [Octet.plus])
    (hds : ∀ d ∈ ds, Octet.isDigit d) (hne : ds ≠ []) (hrest : ∀ b ∈ rest.head?, Octet.isDigit b = false) :
    Parts (blanks ++ (sign ++ (ds ++ rest))) blanks sign ds rest := by
  obtain ⟨d, ds', rfl⟩ := List.exists_cons_of_ne_nil hne
  have hd := hds d List.mem_cons_self
  refine ⟨rfl, hblanks, ?_, ?_, hds, hrest⟩
  . rcases hsign with rfl | rfl
    . simpa using not_isBlank_of_isDigit hd
    . rintro b ⟨⟩
      rfl
  . rcases hsign with rfl | rfl
    . refine .inr ⟨rfl, ?_⟩
      rintro ⟨⟩
      contradiction
    . exact .inl rfl

theorem read?_eq (h : Parts s blanks sign ds rest) :
    read? s = if ds.isEmpty then none else (ds.foldlM push? 0).map (·, rest) := by
  have hdrop := (takeWhile_append_of_head? h.blanks h.behindBlanks).2
  obtain ⟨htake, hbehind⟩ := takeWhile_append_of_head? h.digits h.behindDigits
  unfold read?
  rw [h.eq, hdrop]
  dsimp only
  rcases h.sign with hsign | ⟨hsign, hplus⟩
  . rw [hsign]
    split
    . next rest' heq =>
      have hbody : ds ++ rest = rest' := (List.cons.inj heq).2
      rw [← hbody, htake, hbehind]
    . next hnot => exact absurd rfl (hnot _)
  . rw [hsign, List.nil_append]
    split
    . next rest' heq =>
      rw [heq] at hplus
      exact absurd rfl hplus
    . rw [htake, hbehind]

theorem read?_eq_ite (h : Parts s blanks sign ds rest) (hne : ds ≠ []) :
    read? s = if value ds < UInt64.size then some (UInt64.ofNat (value ds), rest) else none := by
  rw [h.read?_eq, if_neg (by simpa using hne), foldlM_push?, UInt64.toNat_zero, ← value]
  dsimp only
  split <;> rfl

theorem read?_eq_some_iff (h : Parts s blanks sign ds rest) {n : UInt64} {r : Octets} :
    read? s = some (n, r) ↔ ds ≠ [] ∧ value ds = n.toNat ∧ r = rest := by
  by_cases hne : ds = []
  . simp [h.read?_eq, hne]
  . rw [h.read?_eq_ite hne]
    split
    . next hlt =>
      rw [Option.some.injEq, Prod.mk.injEq, ← UInt64.toNat_inj, UInt64.toNat_ofNat_of_lt' hlt]
      simp [hne, eq_comm]
    . next hge =>
      have := n.toNat_lt_size
      simp only [reduceCtorEq, false_iff, not_and]
      intro _ hvalue
      omega

theorem read?_eq_none_iff (h : Parts s blanks sign ds rest) :
    read? s = none ↔ ds = [] ∨ UInt64.size ≤ value ds := by
  by_cases hne : ds = []
  . simp [h.read?_eq, hne]
  . rw [h.read?_eq_ite hne]
    split
    . next hlt => simp [hne, hlt]
    . next hge => simpa [hne] using hge

end Parts

theorem read?_parts {blanks sign ds rest : Octets} (hblanks : ∀ b ∈ blanks, Octet.isBlank b)
    (hsign : sign = [] ∨ sign = [Octet.plus]) (hds : ∀ d ∈ ds, Octet.isDigit d) (hne : ds ≠ [])
    (hrest : ∀ b ∈ rest.head?, Octet.isDigit b = false) :
    read? (blanks ++ (sign ++ (ds ++ rest))) =
      if value ds < UInt64.size then some (UInt64.ofNat (value ds), rest) else none :=
  (Parts.of_ne_nil hblanks hsign hds hne hrest).read?_eq_ite hne

theorem read?_append {blanks ds rest : Octets} (hblanks : ∀ b ∈ blanks, Octet.isBlank b)
    (hds : ∀ d ∈ ds, Octet.isDigit d) (hne : ds ≠ []) (hrest : ∀ b ∈ rest.head?, Octet.isDigit b = false) :
    read? (blanks ++ (ds ++ rest)) =
      if value ds < UInt64.size then some (UInt64.ofNat (value ds), rest) else none :=
  read?_parts hblanks (.inl rfl) hds hne hrest

theorem read?_eq_some_iff {s rest : Octets} {n : UInt64} :
    read? s = some (n, rest) ↔
      ∃ text, s = text ++ rest ∧ Numeral text n ∧ ∀ b ∈ rest.head?, Octet.isDigit b = false := by
  constructor
  . intro h
    obtain ⟨blanks, sign, ds, rest', hparts⟩ := exists_parts s
    obtain ⟨hne, hvalue, rfl⟩ := hparts.read?_eq_some_iff.mp h
    have hsign : sign = [] ∨ sign = [Octet.plus] := by
      rcases hparts.sign with hsign | ⟨hsign, -⟩
      . exact .inr hsign
      . exact .inl hsign
    refine ⟨blanks ++ (sign ++ ds), ?_, .mk hparts.blanks hsign hne hparts.digits hvalue, hparts.behindDigits⟩
    rw [hparts.eq, List.append_assoc, List.append_assoc]
  . rintro ⟨text, rfl, ⟨hblanks, hsign, hne, hds, hvalue⟩, hrest⟩
    rw [List.append_assoc, List.append_assoc, read?_parts hblanks hsign hds hne hrest, hvalue, if_pos n.toNat_lt_size,
      UInt64.ofNat_toNat]

theorem read?_cons_eq_some_iff {s rest : Octets} {n : UInt64} {b : UInt8} (hb : Octet.isDigit b = false) :
    read? s = some (n, b :: rest) ↔ ∃ text, s = text ++ b :: rest ∧ Numeral text n := by
  simp [read?_eq_some_iff, hb]

theorem Numeral.read?_append {text : Octets} {n : UInt64} (h : Numeral text n) {b : UInt8}
    (hb : Octet.isDigit b = false) (rest : Octets) : read? (text ++ b :: rest) = some (n, b :: rest) :=
  (read?_cons_eq_some_iff hb).mpr ⟨text, rfl, h⟩

theorem Numeral.not_mem {s : Octets} {n : UInt64} (h : Numeral s n) {b : UInt8} (hblank : Octet.isBlank b = false)
    (hplus : b ≠ Octet.plus) (hdigit : Octet.isDigit b = false) : b ∉ s := by
  obtain ⟨hblanks, hsign, -, hds, -⟩ := h
  simp only [List.mem_append, not_or]
  refine ⟨?_, ?_, ?_⟩
  . intro hmem
    rw [hblanks b hmem] at hblank
    cases hblank
  . rcases hsign with rfl | rfl
    . exact List.not_mem_nil
    . simpa using hplus
  . intro hmem
    rw [hds b hmem] at hdigit
    cases hdigit

theorem Numeral.ne_nil {s : Octets} {n : UInt64} (h : Numeral s n) : s ≠ [] := by
  obtain ⟨-, -, hne, -, -⟩ := h
  simp [hne]

def whole? (s : Octets) : Option UInt64 :=
  match read? s with
  | some (n, []) => some n
  | _ => none

theorem whole?_eq_some_iff {s : Octets} {n : UInt64} : whole? s = some n ↔ Numeral s n := by
  have hread : read? s = some (n, []) ↔ Numeral s n := by
    simp [read?_eq_some_iff]
  rw [← hread]
  unfold whole?
  split
  . next heq => simp [heq]
  . next hnot => simpa using hnot n

def measure? (s : Octets) : Option (UInt64 × Nat) :=
  (read? s).map fun (n, rest) => (n, s.length - rest.length)

theorem measure?_cases (s : Octets) :
    read? s = none ∧ measure? s = none ∨
      ∃ n text rest, Numeral text n ∧ s = text ++ rest ∧ read? s = some (n, rest) ∧
        measure? s = some (n, text.length) := by
  unfold measure?
  cases hread : read? s with
  | none => exact .inl ⟨rfl, rfl⟩
  | some r =>
    obtain ⟨n, rest⟩ := r
    obtain ⟨text, rfl, htext, -⟩ := read?_eq_some_iff.mp hread
    exact .inr ⟨n, text, rest, htext, rfl, rfl, by simp⟩

theorem read?_padLeft_digits (width : Nat) (n : UInt64) (rest : Octets)
    (hrest : ∀ b ∈ rest.head?, Octet.isDigit b = false) :
    read? (padLeft width Octet.space (digits n.toNat) ++ rest) = some (n, rest) := by
  have hblanks : ∀ b ∈ List.replicate (width - (digits n.toNat).length) Octet.space, Octet.isBlank b := by
    intro b hb
    rw [List.eq_of_mem_replicate hb]
    rfl
  rw [padLeft, List.append_assoc, read?_append hblanks (isDigit_of_mem_digits _) (digits_ne_nil _) hrest,
    value_digits, if_pos n.toNat_lt_size, UInt64.ofNat_toNat]

theorem read?_digits (n : UInt64) (rest : Octets) (hrest : ∀ b ∈ rest.head?, Octet.isDigit b = false) :
    read? (digits n.toNat ++ rest) = some (n, rest) := by
  have h := read?_padLeft_digits 0 n rest hrest
  rwa [padLeft, Nat.zero_sub, List.replicate_zero, List.nil_append] at h

theorem read?_zeroed (width : Nat) {n : Nat} (hn : n < UInt64.size) (rest : Octets)
    (hrest : ∀ b ∈ rest.head?, Octet.isDigit b = false) :
    read? (zeroed width n ++ rest) = some (UInt64.ofNat n, rest) := by
  have h := read?_append (List.forall_mem_nil _) (isDigit_of_mem_zeroed width n) (zeroed_ne_nil width n) hrest
  rwa [value_zeroed, if_pos hn] at h

namespace Parts

variable {s blanks sign ds rest : Octets}

theorem measure?_eq_some_iff (h : Parts s blanks sign ds rest) {v : UInt64} {n : Nat} :
    measure? s = some (v, n) ↔
      ds ≠ [] ∧ value ds = v.toNat ∧ n = blanks.length + sign.length + ds.length := by
  have hlength : s.length - rest.length = blanks.length + sign.length + ds.length := by
    rw [h.eq]
    simp only [List.length_append]
    omega
  constructor
  . intro hmeasure
    obtain ⟨⟨v', r⟩, hread, heq⟩ := Option.map_eq_some_iff.mp hmeasure
    obtain ⟨hne, hvalue, rfl⟩ := h.read?_eq_some_iff.mp hread
    cases heq
    exact ⟨hne, hvalue, hlength⟩
  . rintro ⟨hne, hvalue, rfl⟩
    rw [measure?, h.read?_eq_some_iff.mpr ⟨hne, hvalue, rfl⟩, ← hlength]
    rfl

theorem measure?_eq_none_iff (h : Parts s blanks sign ds rest) :
    measure? s = none ↔ ds = [] ∨ UInt64.size ≤ value ds := by
  rw [measure?, Option.map_eq_none_iff, h.read?_eq_none_iff]

end Parts

end KernelLog.Decimal
