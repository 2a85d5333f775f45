import KernelLog.Escape.Terminal
import KernelLog.Proofs.Escape.Hex
import KernelLog.Proofs.Text.Utf8

/-!
This module contains what the safe form of a message may hold. Main statement: whatever the message is, it is text
without any character that controls a terminal, white space apart, and making it safe again changes nothing.
-/

namespace KernelLog.Escape

/--
A character that a terminal shows, or white space: a printable character of ASCII, a tab, a line feed, a vertical
tab, a form feed, a carriage return, or a character past the control characters that follow ASCII.
-/
def IsSafe (c : Char) : Prop :=
  (0x20 ≤ c.toNat ∧ c.toNat ≤ 0x7E) ∨ (0x09 ≤ c.toNat ∧ c.toNat ≤ 0x0D) ∨ 0xA0 ≤ c.toNat

instance : DecidablePred IsSafe :=
  fun _ => inferInstanceAs (Decidable (_ ∨ _))

def SafeText (s : Octets) : Prop :=
  ∃ cs, s = Utf8.encode cs ∧ ∀ c ∈ cs, IsSafe c

namespace SafeText

theorem nil : SafeText [] :=
  ⟨[], rfl, by simp⟩

theorem append {s t : Octets} (hs : SafeText s) (ht : SafeText t) : SafeText (s ++ t) := by
  obtain ⟨cs, rfl, hcs⟩ := hs
  obtain ⟨ds, rfl, hds⟩ := ht
  refine ⟨cs ++ ds, by simp, ?_⟩
  intro c hc
  rcases List.mem_append.mp hc with hc | hc
  . exact hcs c hc
  . exact hds c hc

theorem char {c : Char} (h : IsSafe c) : SafeText (String.utf8EncodeChar c) :=
  ⟨[c], by simp, by simpa using h⟩

theorem of_isPrintable {s : Octets} (h : ∀ b ∈ s, Octet.isPrintable b) : SafeText s := by
  induction s with
  | nil => exact nil
  | cons b s ih =>
    have hb := h b List.mem_cons_self
    simp only [Octet.isPrintable, Bool.or_eq_true, Bool.and_eq_true, decide_eq_true_eq,
      UInt8.le_iff_toNat_le, UInt8.reduceToNat] at hb
    rw [← List.singleton_append, ← Utf8.utf8EncodeChar_ofNat_toNat (b := b) (by omega)]
    refine append (char ?_) (ih fun x hx => h x (List.mem_cons_of_mem b hx))
    have htoNat : (Char.ofNat b.toNat).toNat = b.toNat := Utf8.toNat_val_ofNat (by omega)
    rw [IsSafe, htoNat]
    omega

theorem control_not_mem {s : Octets} (h : SafeText s) {b : UInt8}
    (hb : b.toNat < 0x09 ∨ 0x0D < b.toNat ∧ b.toNat < 0x20) : b ∉ s := by
  obtain ⟨cs, rfl, hcs⟩ := h
  intro hmem
  obtain ⟨c, hc, hbc⟩ := List.mem_flatMap.mp hmem
  have hsafe := hcs c hc
  rw [IsSafe] at hsafe
  rcases Utf8.utf8EncodeChar_cases c with ⟨x, hx, -, hencode⟩ | ⟨hc, -⟩
  . rw [hencode, List.mem_singleton] at hbc
    subst hbc
    omega
  . exact Utf8.not_mem_utf8EncodeChar_of_lt (by omega) hc hbc

end SafeText

theorem hexDigit_bounds {n : UInt8} (h : n.toNat < 16) :
    0x30 ≤ (Octet.hexDigit n).toNat ∧ (Octet.hexDigit n).toNat ≤ 0x7E := by
  unfold Octet.hexDigit
  split
  all_goals
    simp only [UInt8.lt_iff_toNat_lt, UInt8.toNat_add, UInt8.reduceToNat] at *
    omega

theorem hex_bounds (b : UInt8) : ∀ x ∈ hex b, 0x30 ≤ x.toNat ∧ x.toNat ≤ 0x7E := by
  simp [hex, hexDigit_bounds (toNat_div_sixteen_lt b), hexDigit_bounds (toNat_mod_sixteen_lt b)]
  decide

theorem isPrintable_hex (b : UInt8) : ∀ x ∈ hex b, Octet.isPrintable x := by
  intro x hx
  have := hex_bounds b x hx
  simp only [Octet.isPrintable, Bool.or_eq_true, Bool.and_eq_true, decide_eq_true_eq, UInt8.le_iff_toNat_le,
    UInt8.reduceToNat]
  omega

theorem newline_not_mem_flatMap_hex (s : Octets) : Octet.newline ∉ s.flatMap hex := by
  intro h
  obtain ⟨b, -, hb⟩ := List.mem_flatMap.mp h
  have := (hex_bounds b _ hb).1
  contradiction

theorem safeText_flatMap_hex (s : Octets) : SafeText (s.flatMap hex) := by
  apply SafeText.of_isPrintable
  intro x hx
  obtain ⟨b, -, hb⟩ := List.mem_flatMap.mp hx
  exact isPrintable_hex b x hb

theorem safeText_terminalPieces (indent : Nat) {s : Octets} {ps : List Utf8.Piece} (h : Utf8.Splits s ps) :
    SafeText (terminalPieces indent ps) := by
  induction h with
  | nil => exact .nil
  | broken _ _ ih => exact (safeText_flatMap_hex _).append ih
  | @char c s ps _ ih =>
    rcases Utf8.utf8EncodeChar_cases c with ⟨b, hb, hc, hencode⟩ | ⟨hc, x, y, rest, hencode⟩
    . rw [hencode, terminalPieces]
      split
      . exact .nil
      split
      . exact (SafeText.of_isPrintable (isPrintable_hex b)).append ih
      next hprintable =>
      have hsafe : SafeText [b] := SafeText.of_isPrintable (by simpa using hprintable)
      split
      . have hspaces : SafeText (List.replicate indent Octet.space) := by
          apply SafeText.of_isPrintable
          intro x hx
          rw [List.eq_of_mem_replicate hx]
          decide
        exact hsafe.append (hspaces.append ih)
      . exact hsafe.append ih
    . rw [hencode, terminalPieces]
      . split
        . exact (safeText_flatMap_hex _).append ih
        . next hcontrol =>
          rw [← hencode]
          refine SafeText.append (.char (.inr (.inr ?_))) ih
          simp only [isHighControl, Bool.and_eq_true, decide_eq_true_eq] at hcontrol
          omega
      . simp

theorem terminal_zero_encode {cs : List Char} (h : ∀ c ∈ cs, IsSafe c) :
    terminal 0 (Utf8.encode cs) = Utf8.encode cs := by
  rw [terminal, Utf8.pieces_encode]
  induction cs with
  | nil => rfl
  | cons c cs ih =>
    have hsafe : IsSafe c := h c List.mem_cons_self
    have ih := ih fun d hd => h d (List.mem_cons_of_mem c hd)
    rw [IsSafe] at hsafe
    rw [List.map_cons, Utf8.encode_cons]
    rcases Utf8.utf8EncodeChar_cases c with ⟨b, hb, hc, hencode⟩ | ⟨hc, x, y, rest, hencode⟩
    . have hnul : b ≠ Octet.nul := by
        intro hnul
        have : Octet.nul.toNat = 0 := rfl
        rw [hnul] at hb
        omega
      have hprintable : Octet.isPrintable b := by
        simp only [Octet.isPrintable, Bool.or_eq_true, Bool.and_eq_true, decide_eq_true_eq,
          UInt8.le_iff_toNat_le, UInt8.reduceToNat]
        omega
      rw [hencode, terminalPieces, if_neg hnul, if_neg (by simp [hprintable]), ih]
      split <;> rfl
    . have hcontrol : isHighControl c = false := by
        simp only [isHighControl, Bool.and_eq_false_iff, decide_eq_false_iff_not]
        omega
      rw [hencode, terminalPieces, hcontrol, ih]
      . rfl
      . simp

theorem terminalPieces_of_not_continues (indent : Nat) {s : Octets} {ps : List Utf8.Piece}
    (h : Utf8.Splits s ps) (hps : continues ps = false) : terminalPieces indent ps = [] := by
  cases h with
  | nil => rfl
  | @broken octets s ps hbroken _ =>
    cases octets with
    | nil => simpa using hbroken.begins
    | cons b octets =>
      have hb : b = Octet.nul := by
        simpa [continues, Utf8.Piece.octets] using hps
      have hnul : String.utf8EncodeChar (Char.ofNat Octet.nul.toNat) = [Octet.nul] :=
        Utf8.utf8EncodeChar_ofNat_toNat (by decide)
      apply absurd _ (hbroken.noChar (Char.ofNat Octet.nul.toNat))
      rw [hnul, hb]
      exact List.cons_prefix_cons.mpr ⟨rfl, List.nil_prefix⟩
  | char c _ =>
    have hnul : (String.utf8EncodeChar c).head? = some Octet.nul := by
      simpa [continues, Utf8.Piece.octets] using hps
    rcases Utf8.utf8EncodeChar_cases c with ⟨b, -, -, hencode⟩ | ⟨hc, x, y, rest, hencode⟩
    . rw [hencode, List.head?_cons, Option.some.injEq] at hnul
      rw [hencode, terminalPieces, if_pos hnul]
    . exact absurd (List.mem_of_mem_head? hnul) (Utf8.not_mem_utf8EncodeChar_of_lt (by decide) hc)

theorem continues_append_nul (ps qs : List Utf8.Piece) (c : Char) :
    continues (ps ++ .char c [Octet.nul] :: qs) = continues ps := by
  cases ps with
  | nil => rfl
  | cons p ps => rfl

theorem terminalPieces_append_nul (indent : Nat) (ps qs : List Utf8.Piece) (c : Char) :
    terminalPieces indent (ps ++ .char c [Octet.nul] :: qs) = terminalPieces indent ps := by
  fun_induction terminalPieces indent ps <;>
    simp_all [terminalPieces, continues_append_nul]

theorem terminal_takeWhile_ne_nul (indent : Nat) (message : Octets) :
    terminal indent (message.takeWhile (· != Octet.nul)) = terminal indent message := by
  have happend := (List.takeWhile_append_dropWhile (p := (· != Octet.nul)) (l := message)).symm
  cases hdrop : message.dropWhile (· != Octet.nul) with
  | nil =>
    rw [hdrop, List.append_nil] at happend
    rw [← happend]
  | cons b rest =>
    have hb : b = Octet.nul := by
      have := List.head?_dropWhile_not (· != Octet.nul) message
      simpa [hdrop] using this
    rw [hdrop, hb] at happend
    have hpieces : Utf8.pieces message =
        Utf8.pieces (message.takeWhile (· != Octet.nul)) ++
          .char (Char.ofNat Octet.nul.toNat) [Octet.nul] :: Utf8.pieces rest := by
      rw [← Utf8.pieces_cons_of_lt (by decide), ← Utf8.pieces_append_of_lt (by decide), ← happend]
    rw [terminal, terminal, hpieces, terminalPieces_append_nul]

/--
What is appended to a buffer for a message, whichever it is, is text of safe characters only; the buffer keeps
what it holds. It is the same for every splitting of the message into characters and broken sequences, and depends
only on what stands before the first NUL. Making it safe again leaves it as it is.
-/
theorem pushTerminal_safe (indent : Nat) (message : Octets) (out : Array UInt8) :
    ∃ text : String,
      (pushTerminal indent message out).toList = out.toList ++ Octets.ofString text ∧
      (∀ c ∈ text.toList, IsSafe c) ∧
      (∀ ps, Utf8.Splits message ps → pushPieces indent out ps = pushTerminal indent message out) ∧
      pushTerminal indent (message.takeWhile (· != Octet.nul)) out = pushTerminal indent message out ∧
      ∀ out', (pushTerminal 0 (Octets.ofString text) out').toList = out'.toList ++ Octets.ofString text := by
  obtain ⟨cs, hterminal, hsafe⟩ := safeText_terminalPieces indent (Utf8.splits_pieces message)
  refine ⟨String.ofList cs, ?_, ?_, ?_, ?_, ?_⟩
  . rw [toList_pushTerminal, terminal, hterminal, Utf8.ofString_ofList]
  . rwa [String.toList_ofList]
  . intro ps hps
    rw [pushTerminal, hps.eq_pieces]
  . apply Array.toList_inj.mp
    rw [toList_pushTerminal, toList_pushTerminal, terminal_takeWhile_ne_nul]
  . intro out'
    rw [toList_pushTerminal, Utf8.ofString_ofList, terminal_zero_encode hsafe]

end KernelLog.Escape
