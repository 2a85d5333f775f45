import KernelLog.Escape.Hex
import Mathlib.Data.Option.Basic

/-!
This module contains what the reversal of the kernel's escapes brings back. Main statements: it brings back a message
however that was spelled, the spelling of the kernel among them, and it does so within the buffer just as for a list.
-/

namespace KernelLog.Escape

/--
A message is spelled by octets that stand for themselves, the backslash excepted, and by escapes with digits of
either case.
-/
inductive Spells : Octets → Octets → Prop where
  | nil : Spells [] []
  | plain {b : UInt8} {m s : Octets} : b ≠ Octet.backslash → Spells m s → Spells (b :: m) (b :: s)
  | escape {b high low : UInt8} {m s : Octets} : hexPair? high low = some b → Spells m s →
    Spells (b :: m) (Octet.backslash :: Octet.lowerX :: high :: low :: s)

def hexHead? : Octets → Option UInt8
  | Octet.backslash :: Octet.lowerX :: high :: low :: _ => hexPair? high low
  | _ => none

theorem hexHead?_escape (high low : UInt8) (s : Octets) :
    hexHead? (Octet.backslash :: Octet.lowerX :: high :: low :: s) = hexPair? high low :=
  rfl

theorem hexHead?_of_ne {b : UInt8} (h : b ≠ Octet.backslash) (s : Octets) : hexHead? (b :: s) = none := by
  rw [hexHead?.eq_2]
  rintro high low rest heq
  exact h (List.cons.inj heq).1

theorem unhex_cons (b : UInt8) (s : Octets) :
    unhex (b :: s) =
      match hexHead? (b :: s) with
      | some c => c :: unhex (s.drop 3)
      | none => b :: unhex s := by
  generalize hl : b :: s = l
  fun_cases hexHead? l with
  | case1 high low rest =>
    obtain ⟨rfl, rfl⟩ := List.cons.inj hl
    cases hpair : hexPair? high low with
    | some c => rw [unhex, hpair]; rfl
    | none => rw [unhex, hpair]; rfl
  | case2 l h =>
    subst hl
    rw [unhex.eq_3]
    intro high low rest hb hs
    exact h high low rest (by rw [hb, hs])

theorem unhex_of_spells {m s : Octets} (h : Spells m s) : unhex s = m := by
  induction h with
  | nil => rfl
  | @plain b m s hb _ ih =>
    rw [unhex_cons, hexHead?_of_ne hb, ih]
  | @escape b high low m s hpair _ ih =>
    rw [unhex_cons, hexHead?_escape, hpair]
    exact congrArg (b :: ·) ih

theorem hexAt?_eq (buffer : Array UInt8) (i : Nat) : hexAt? buffer i = hexHead? (buffer.toList.drop i) := by
  have hget (k : Nat) : buffer[i + k]? = (buffer.toList.drop i)[k]? := by
    rw [List.getElem?_drop, Array.getElem?_toList]
  rw [hexAt?, hget 1, hget 2, hget 3, show buffer[i]? = _ from hget 0]
  generalize buffer.toList.drop i = s
  fun_cases hexHead? s with
  | case1 high low rest => rfl
  | case2 s h =>
    rw [Option.eq_none_iff_forall_ne_some]
    intro b heq
    simp only [Option.bind_eq_bind, Option.bind_eq_some_iff, Option.guard_eq_some', exists_const] at heq
    obtain ⟨hb, hx, high, hhigh, low, hlow, -⟩ := heq
    match s with
    | a :: c :: _ :: _ :: _ =>
      obtain rfl := Option.some.inj hb
      obtain rfl := Option.some.inj hx
      exact h _ _ _ rfl

theorem unhex_drop (buffer : Array UInt8) {source : Nat} (h : source < buffer.size) :
    unhex (buffer.toList.drop source) =
      match hexAt? buffer source with
      | some c => c :: unhex (buffer.toList.drop (source + 4))
      | none => buffer[source] :: unhex (buffer.toList.drop (source + 1)) := by
  rw [hexAt?_eq, List.drop_eq_getElem_cons (by simpa using h), unhex_cons, List.drop_drop, Array.getElem_toList]

theorem take_append_unhex_set (buffer : Array UInt8) (b : UInt8) {source target n : Nat} (h : target ≤ source)
    (hsource : source < buffer.size) (hn : source < n) :
    (buffer.setIfInBounds target b).toList.take (target + 1) ++
        unhex ((buffer.setIfInBounds target b).toList.drop n) =
      buffer.toList.take target ++ b :: unhex (buffer.toList.drop n) := by
  have htarget : target < buffer.toList.length := by
    simp only [Array.length_toList]
    omega
  rw [Array.toList_setIfInBounds, List.take_add_one, List.take_set_of_le (Nat.le_refl target),
    List.getElem?_set_self htarget, List.drop_set_of_lt (by omega), List.append_assoc]
  rfl

theorem take_toList_go (buffer : Array UInt8) (source target : Nat) (h : target ≤ source) :
    (unhexInPlace.go buffer source target).1.toList.take (unhexInPlace.go buffer source target).2 =
      buffer.toList.take target ++ unhex (buffer.toList.drop source) := by
  -- what is in front of `target` is done, and what is from `source` on is still as it was
  fun_induction unhexInPlace.go buffer source target with
  | case1 buffer source target hsource b hb ih =>
    rw [ih (by omega), take_append_unhex_set _ _ h hsource (by omega), unhex_drop _ hsource, hb]
  | case2 buffer source target hsource hb ih =>
    rw [ih (by omega), take_append_unhex_set _ _ h hsource (by omega), unhex_drop _ hsource, hb]
  | case3 buffer source target hsource =>
    rw [List.drop_eq_nil_of_le (by simpa using hsource), unhex, List.append_nil]

theorem take_toList_unhexInPlace (buffer : Array UInt8) :
    (unhexInPlace buffer).1.toList.take (unhexInPlace buffer).2 = unhex buffer.toList := by
  have h := take_toList_go buffer 0 0 (Nat.le_refl 0)
  rwa [List.take_zero, List.nil_append, List.drop_zero] at h

theorem size_go (buffer : Array UInt8) (source target : Nat) :
    (unhexInPlace.go buffer source target).1.size = buffer.size := by
  fun_induction unhexInPlace.go buffer source target with
  | case1 buffer source target hsource b hb ih => rw [ih, Array.size_setIfInBounds]
  | case2 buffer source target hsource hb ih => rw [ih, Array.size_setIfInBounds]
  | case3 buffer source target hsource => rfl

theorem go_le_size (buffer : Array UInt8) (source target : Nat) (h : target ≤ source) (htarget : target ≤ buffer.size) :
    (unhexInPlace.go buffer source target).2 ≤ buffer.size := by
  fun_induction unhexInPlace.go buffer source target with
  | case1 buffer source target hsource b hb ih =>
    rw [Array.size_setIfInBounds] at ih
    exact ih (by omega) (by omega)
  | case2 buffer source target hsource hb ih =>
    rw [Array.size_setIfInBounds] at ih
    exact ih (by omega) (by omega)
  | case3 buffer source target hsource => exact htarget

theorem exists_unhexInPlace_eq (s : Octets) :
    ∃ left, (unhexInPlace s.toArray).1.toList = unhex s ++ left ∧
      (unhexInPlace s.toArray).2 = (unhex s).length ∧ (unhex s).length + left.length = s.length := by
  have hsize : (unhexInPlace s.toArray).1.toList.length = s.length := size_go s.toArray 0 0
  have hle : (unhexInPlace s.toArray).2 ≤ s.length := go_le_size s.toArray 0 0 (Nat.le_refl 0) (Nat.zero_le _)
  have htake := take_toList_unhexInPlace s.toArray
  rw [List.toList_toArray] at htake
  have hlength : (unhexInPlace s.toArray).2 = (unhex s).length := by
    rw [← htake, List.length_take, hsize, Nat.min_eq_left hle]
  refine ⟨(unhexInPlace s.toArray).1.toList.drop (unhexInPlace s.toArray).2, ?_, hlength, ?_⟩
  . rw [← htake, List.take_append_drop]
  . rw [← hlength, List.length_drop, hsize, Nat.add_sub_cancel' hle]

def NeedsEscape (b : UInt8) : Prop :=
  b < 0x20 ∨ 0x7E < b ∨ b = Octet.backslash

instance : DecidablePred NeedsEscape :=
  fun _ => inferInstanceAs (Decidable (_ ∨ _))

inductive Escaped : Octets → Octets → Prop where
  | nil : Escaped [] []
  | plain {b : UInt8} {m s : Octets} : ¬NeedsEscape b → Escaped m s → Escaped (b :: m) (b :: s)
  | escape {b high low : UInt8} {m s : Octets} : NeedsEscape b → hexPair? high low = some b → Escaped m s →
    Escaped (b :: m) (Octet.backslash :: Octet.lowerX :: high :: low :: s)

theorem hexValue?_hexDigit {n : UInt8} (h : n.toNat < 16) : Octet.hexValue? (Octet.hexDigit n) = some n := by
  have hdigits : ∀ k : Fin 16, Octet.hexValue? (Octet.hexDigit (UInt8.ofNat k)) = some (UInt8.ofNat k) := by decide
  have hn := hdigits ⟨n.toNat, h⟩
  rwa [UInt8.ofNat_toNat] at hn

theorem toNat_div_sixteen_lt (b : UInt8) : (b / 16).toNat < 16 := by
  have := b.toNat_lt
  simp only [UInt8.toNat_div, UInt8.reduceToNat]
  omega

theorem toNat_mod_sixteen_lt (b : UInt8) : (b % 16).toNat < 16 := by
  rw [UInt8.toNat_mod]
  exact Nat.mod_lt _ (by decide)

theorem hexPair?_hexDigit (b : UInt8) :
    hexPair? (Octet.hexDigit (b / 16)) (Octet.hexDigit (b % 16)) = some b := by
  have hb := b.toNat_lt
  have hvalue : b / 16 * 16 + b % 16 = b := by
    rw [← UInt8.toNat_inj]
    simp only [UInt8.toNat_add, UInt8.toNat_mul, UInt8.toNat_div, UInt8.toNat_mod, UInt8.reduceToNat]
    omega
  rw [hexPair?, hexValue?_hexDigit (toNat_div_sixteen_lt b), hexValue?_hexDigit (toNat_mod_sixteen_lt b)]
  exact congrArg some hvalue

theorem hexPair?_newline_right (high : UInt8) : hexPair? high Octet.newline = none := by
  rw [hexPair?]
  cases Octet.hexValue? high <;> rfl

namespace Escaped

variable {m s : Octets}

theorem spells (h : Escaped m s) : Spells m s := by
  induction h with
  | nil => exact .nil
  | plain hb _ ih => exact .plain (fun hbackslash => hb (.inr (.inr hbackslash))) ih
  | escape _ hpair _ ih => exact .escape hpair ih

theorem newline_not_mem (h : Escaped m s) : Octet.newline ∉ s := by
  induction h with
  | nil => exact List.not_mem_nil
  | @plain b m s hb _ ih =>
    have hne : Octet.newline ≠ b := by
      rintro rfl
      exact hb (by decide)
    simp [hne, ih]
  | @escape b high low m s _ hpair _ ih =>
    have hhigh : Octet.newline ≠ high := by
      rintro rfl
      cases hpair
    have hlow : Octet.newline ≠ low := by
      rintro rfl
      rw [hexPair?_newline_right] at hpair
      cases hpair
    have hescape : Octet.newline ≠ Octet.backslash ∧ Octet.newline ≠ Octet.lowerX := by decide
    simp [hescape, hhigh, hlow, ih]

end Escaped

theorem exists_escaped (m : Octets) : ∃ s, Escaped m s := by
  induction m with
  | nil => exact ⟨[], .nil⟩
  | cons b m ih =>
    obtain ⟨s, hs⟩ := ih
    by_cases hb : NeedsEscape b
    . exact ⟨_, .escape hb (hexPair?_hexDigit b) hs⟩
    . exact ⟨_, .plain hb hs⟩

end KernelLog.Escape
