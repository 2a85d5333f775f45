import KernelLog.Proofs.Escape.Hex

/-!
This module contains the exact meaning of reversing the kernel's escapes within the buffer that holds them. Main statement:
what is left at the front of the buffer is what a rewriting from left to right gives on a copy, no index is out of range,
and every spelling of a message is brought back to that message.
-/

namespace KernelLog.Escape

def IsHexDigit (d : UInt8) (value : Nat) : Prop :=
  (Octets.ofString "0123456789abcdef")[value]? = some d ∨ (Octets.ofString "0123456789ABCDEF")[value]? = some d

instance (d : UInt8) (value : Nat) : Decidable (IsHexDigit d value) :=
  inferInstanceAs (Decidable (_ ∨ _))

def Denotes (high low b : UInt8) : Prop :=
  ∃ h l, IsHexDigit high h ∧ IsHexDigit low l ∧ b.toNat = 16 * h + l

def BeginsEscape (s : Octets) : Prop :=
  ∃ high low b rest, s = Octet.backslash :: Octet.lowerX :: high :: low :: rest ∧ Denotes high low b

/--
Rewriting from left to right: an escape is replaced by the octet it denotes, and what is behind it is rewritten next.
Where no escape stands, one octet is kept. What has been written is not looked at again.
-/
inductive Rewrites : Octets → Octets → Prop where
  | nil : Rewrites [] []
  | escape {high low b : UInt8} {s m : Octets} : Denotes high low b → Rewrites s m →
    Rewrites (Octet.backslash :: Octet.lowerX :: high :: low :: s) (b :: m)
  | keep {b : UInt8} {s m : Octets} : ¬BeginsEscape (b :: s) → Rewrites s m → Rewrites (b :: s) (b :: m)

theorem hexValue?_eq_some_iff {d v : UInt8} : Octet.hexValue? d = some v ↔ IsHexDigit d v.toNat := by
  have hread : ∀ n < 256, (Octet.hexValue? (UInt8.ofNat n)).all fun v => IsHexDigit (UInt8.ofNat n) v.toNat := by
    decide +kernel
  have hdigits : ∀ n < 256, ((Octets.ofString "0123456789abcdef")[n]?.toList ++
      (Octets.ofString "0123456789ABCDEF")[n]?.toList).all fun d => Octet.hexValue? d = some (UInt8.ofNat n) := by
    decide +kernel
  constructor
  . intro h
    have hd := hread d.toNat d.toNat_lt
    rw [UInt8.ofNat_toNat, h] at hd
    exact of_decide_eq_true hd
  . intro h
    have hv := List.all_eq_true.mp (hdigits v.toNat v.toNat_lt) d
    rw [UInt8.ofNat_toNat, List.mem_append, Option.mem_toList, Option.mem_toList] at hv
    exact of_decide_eq_true (hv h)

theorem IsHexDigit.lt {d : UInt8} {value : Nat} (h : IsHexDigit d value) : value < 16 := by
  have hlower : (Octets.ofString "0123456789abcdef").length = 16 := by decide +kernel
  have hupper : (Octets.ofString "0123456789ABCDEF").length = 16 := by decide +kernel
  rcases h with h | h
  . exact hlower ▸ (List.getElem?_eq_some_iff.mp h).1
  . exact hupper ▸ (List.getElem?_eq_some_iff.mp h).1

theorem hexPair?_eq_some_iff {high low b : UInt8} : hexPair? high low = some b ↔ Denotes high low b := by
  simp only [hexPair?, Option.bind_eq_bind, Option.bind_eq_some_iff, Option.pure_def, Option.some.injEq,
    hexValue?_eq_some_iff]
  constructor
  . rintro ⟨h, hh, l, hl, rfl⟩
    refine ⟨h.toNat, l.toNat, hh, hl, ?_⟩
    have := hh.lt
    have := hl.lt
    simp only [UInt8.toNat_add, UInt8.toNat_mul, UInt8.reduceToNat]
    omega
  . rintro ⟨h, l, hh, hl, hb⟩
    have := hh.lt
    have := hl.lt
    have hnat (n : Nat) (hn : n < 16) : (UInt8.ofNat n).toNat = n := by
      rw [UInt8.toNat_ofNat']
      omega
    refine ⟨UInt8.ofNat h, by rwa [hnat h hh.lt], UInt8.ofNat l, by rwa [hnat l hl.lt], ?_⟩
    rw [← UInt8.toNat_inj]
    simp only [UInt8.toNat_add, UInt8.toNat_mul, hnat h hh.lt, hnat l hl.lt, hb, UInt8.reduceToNat]
    omega

theorem hexHead?_eq_some_iff {s : Octets} {b : UInt8} :
    hexHead? s = some b ↔
      ∃ high low rest, s = Octet.backslash :: Octet.lowerX :: high :: low :: rest ∧ Denotes high low b := by
  fun_cases hexHead? s with
  | case1 high low rest =>
    rw [hexPair?_eq_some_iff]
    constructor
    . intro h
      exact ⟨high, low, rest, rfl, h⟩
    . rintro ⟨high', low', rest', heq, h⟩
      cases heq
      exact h
  | case2 s hnot =>
    constructor
    . intro h
      cases h
    . rintro ⟨high, low, rest, rfl, -⟩
      exact absurd rfl (hnot high low rest)

theorem hexHead?_eq_none_iff {s : Octets} : hexHead? s = none ↔ ¬BeginsEscape s := by
  rw [Option.eq_none_iff_forall_ne_some]
  constructor
  . rintro h ⟨high, low, b, rest, heq, hdenotes⟩
    exact h b (hexHead?_eq_some_iff.mpr ⟨high, low, rest, heq, hdenotes⟩)
  . intro h b hb
    obtain ⟨high, low, rest, heq, hdenotes⟩ := hexHead?_eq_some_iff.mp hb
    exact h ⟨high, low, b, rest, heq, hdenotes⟩

theorem rewrites_unhex (s : Octets) : Rewrites s (unhex s) := by
  fun_induction unhex s with
  | case1 => exact .nil
  | case2 high low rest b hpair ih => exact .escape (hexPair?_eq_some_iff.mp hpair) ih
  | case3 high low rest hpair ih =>
    exact .keep (hexHead?_eq_none_iff.mp ((hexHead?_escape high low rest).trans hpair)) ih
  | case4 b rest hnot ih =>
    refine .keep ?_ ih
    rintro ⟨high, low, c, rest', heq, -⟩
    obtain ⟨hb, hrest⟩ := List.cons.inj heq
    exact hnot high low rest' hb hrest

theorem Rewrites.unhex_eq {s m : Octets} (h : Rewrites s m) : unhex s = m := by
  induction h with
  | nil => rfl
  | @escape high low b s m hdenotes _ ih =>
    rw [unhex_cons, hexHead?_escape, hexPair?_eq_some_iff.mpr hdenotes]
    exact congrArg (b :: ·) ih
  | keep hnot _ ih => rw [unhex_cons, hexHead?_eq_none_iff.mpr hnot, ih]

def hexWithin? (buffer : Array UInt8) (i : Nat) : Option (Option UInt8) := do
  if (← buffer[i]?) = Octet.backslash ∧ i + 3 < buffer.size then
    if (← buffer[i + 1]?) = Octet.lowerX then
      return hexPair? (← buffer[i + 2]?) (← buffer[i + 3]?)
  return none

def step? (buffer : Array UInt8) (source target : Nat) : Option (UInt8 × Nat) := do
  let escaped ← hexWithin? buffer source
  let b ← buffer[source]?
  guard (target < buffer.size)
  return match escaped with
    | some c => (c, 3)
    | none => (b, 0)

def unhexWithin? (buffer : Array UInt8) : Option (Array UInt8 × Nat) :=
  go buffer 0 0
where
  go (buffer : Array UInt8) (source target : Nat) : Option (Array UInt8 × Nat) :=
    if source < buffer.size then
      match step? buffer source target with
      | some (b, more) => go (buffer.setIfInBounds target b) (source + more + 1) (target + 1)
      | none => none
    else
      some (buffer, target)
  termination_by buffer.size - source
  decreasing_by simp only [Array.size_setIfInBounds]; omega

theorem hexWithin?_eq {buffer : Array UInt8} {i : Nat} (h : i < buffer.size) :
    hexWithin? buffer i = some (hexAt? buffer i) := by
  unfold hexWithin? hexAt?
  rw [Array.getElem?_eq_getElem h]
  by_cases hend : i + 3 < buffer.size
  . rw [Array.getElem?_eq_getElem (show i + 1 < buffer.size by omega),
      Array.getElem?_eq_getElem (show i + 2 < buffer.size by omega), Array.getElem?_eq_getElem hend]
    by_cases hb : buffer[i] = Octet.backslash
    . by_cases hx : buffer[i + 1] = Octet.lowerX <;> simp [guard, hb, hx, hend]
    . simp [guard, hb]
  -- where the buffer ends within four octets, there is no escape and nothing further is looked at
  . rw [Array.getElem?_eq_none (show buffer.size ≤ i + 3 by omega)]
    simp [hend]

theorem step?_eq {buffer : Array UInt8} {source target : Nat} (hsource : source < buffer.size)
    (htarget : target ≤ source) :
    step? buffer source target =
      some (match hexAt? buffer source with
        | some c => (c, 3)
        | none => (buffer[source], 0)) := by
  rw [step?, hexWithin?_eq hsource, Array.getElem?_eq_getElem hsource]
  simp only [Option.bind_eq_bind, Option.bind_some, guard, show target < buffer.size by omega, ↓reduceIte]
  rfl

theorem unhexWithin?_go_eq (buffer : Array UInt8) (source target : Nat) (h : target ≤ source) :
    unhexWithin?.go buffer source target = some (unhexInPlace.go buffer source target) := by
  fun_induction unhexInPlace.go buffer source target with
  | case1 buffer source target hsource b hb ih =>
    rw [unhexWithin?.go, if_pos hsource, step?_eq hsource h, hb]
    exact ih (by omega)
  | case2 buffer source target hsource hb ih =>
    rw [unhexWithin?.go, if_pos hsource, step?_eq hsource h, hb]
    exact ih (by omega)
  | case3 buffer source target hsource => rw [unhexWithin?.go, if_neg hsource]

/--
Reversing the escapes within the buffer takes and puts no octet out of range and keeps the size of the buffer. What it
leaves at the front is the one rewriting of what the buffer held, although that is overwritten meanwhile. It is the
message, whichever that is, if the buffer held any spelling of a message, with digits of either case.
-/
theorem unhexInPlace_exact (buffer : Array UInt8) :
    unhexWithin? buffer = some (unhexInPlace buffer) ∧ (unhexInPlace buffer).1.size = buffer.size ∧
      (unhexInPlace buffer).2 ≤ buffer.size ∧
      (∀ m, Rewrites buffer.toList m ↔ (unhexInPlace buffer).1.toList.take (unhexInPlace buffer).2 = m) ∧
      (∀ m, Spells m buffer.toList → (unhexInPlace buffer).1.toList.take (unhexInPlace buffer).2 = m) ∧
      ∀ high low b, hexPair? high low = some b ↔ Denotes high low b := by
  have htake := take_toList_unhexInPlace buffer
  refine ⟨unhexWithin?_go_eq buffer 0 0 (Nat.le_refl 0), size_go buffer 0 0,
    go_le_size buffer 0 0 (Nat.le_refl 0) (Nat.zero_le _), ?_, ?_, fun _ _ _ => hexPair?_eq_some_iff⟩
  . intro m
    rw [htake]
    constructor
    . exact Rewrites.unhex_eq
    . rintro rfl
      exact rewrites_unhex buffer.toList
  . intro m hspells
    rw [htake]
    exact unhex_of_spells hspells

theorem unhexInPlace_exact_backslash :
    let escape := Octets.ofString "\\x5Cx41\\x4a"
    let message := Octets.ofString "\\x41J"
    let result := unhexInPlace escape.toArray
    Spells message escape ∧ result.2 = 5 ∧ result.1.size = 11 ∧ result.1.toList.take result.2 = message ∧
      Rewrites escape message ∧ ¬Rewrites escape (Octets.ofString "AJ") := by
  have hspells : Spells (Octets.ofString "\\x41J") (Octets.ofString "\\x5Cx41\\x4a") := by
    have hescape : Octets.ofString "\\x5Cx41\\x4a" =
        Octet.backslash :: Octet.lowerX :: 53 :: 67 :: 120 :: 52 :: 49 :: Octet.backslash :: Octet.lowerX :: 52 ::
          97 :: [] := by
      decide +kernel
    have hmessage : Octets.ofString "\\x41J" = 92 :: 120 :: 52 :: 49 :: 74 :: [] := by decide +kernel
    rw [hescape, hmessage]
    exact .escape (by decide) (.plain (by decide) (.plain (by decide) (.plain (by decide) (.escape (by decide) .nil))))
  obtain ⟨-, hsize, -, hrewrites, hspelled, -⟩ :=
    unhexInPlace_exact (Octets.ofString "\\x5Cx41\\x4a").toArray
  have hmessage := hspelled _ hspells
  refine ⟨hspells, by decide +kernel, hsize.trans (by decide +kernel), hmessage, (hrewrites _).mpr hmessage, ?_⟩
  intro h
  have hother := (hrewrites _).mp h
  rw [hmessage] at hother
  revert hother
  decide +kernel

end KernelLog.Escape
