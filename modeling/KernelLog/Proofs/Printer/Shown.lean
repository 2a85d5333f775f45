import KernelLog.Printer.Line
import KernelLog.Proofs.Escape
import KernelLog.Proofs.Number.Decimal

/-!
This module contains what the parts of a printed line may hold. Main statements: the label and the time are made of
graphic characters of ASCII and of spaces, and nothing in a line begins the code of a color.
-/

namespace KernelLog

def Octet.IsShown (b : UInt8) : Prop :=
  0x20 ≤ b ∧ b ≤ 0x7E

instance : DecidablePred Octet.IsShown :=
  fun _ => inferInstanceAs (Decidable (_ ∧ _))

@[simp]
theorem Octet.isShown_marks :
    IsShown space ∧ IsShown plus ∧ IsShown comma ∧ IsShown minus ∧ IsShown dot ∧ IsShown colon ∧ IsShown less ∧
      IsShown greater ∧ IsShown upperT ∧ IsShown openBracket ∧ IsShown closeBracket := by
  decide

def Shown (s : Octets) : Prop :=
  ∀ b ∈ s, Octet.IsShown b

instance (s : Octets) : Decidable (Shown s) :=
  inferInstanceAs (Decidable (∀ b ∈ s, Octet.IsShown b))

namespace Shown

@[simp]
theorem nil : Shown [] :=
  List.forall_mem_nil _

@[simp]
theorem cons_iff {b : UInt8} {s : Octets} : Shown (b :: s) ↔ Octet.IsShown b ∧ Shown s :=
  List.forall_mem_cons

@[simp]
theorem append_iff {s t : Octets} : Shown (s ++ t) ↔ Shown s ∧ Shown t :=
  List.forall_mem_append

@[simp]
theorem replicate_space (n : Nat) : Shown (List.replicate n Octet.space) := by
  intro b hb
  rw [List.eq_of_mem_replicate hb]
  decide

theorem of_isDigit {s : Octets} (h : ∀ b ∈ s, Octet.isDigit b) : Shown s := by
  intro b hb
  have hdigit := h b hb
  simp only [Octet.isDigit, Octet.IsShown, Bool.and_eq_true, decide_eq_true_eq, UInt8.le_iff_toNat_le,
    UInt8.reduceToNat] at hdigit ⊢
  omega

@[simp]
theorem digits (n : Nat) : Shown (Decimal.digits n) :=
  of_isDigit (Decimal.isDigit_of_mem_digits n)

@[simp]
theorem zeroed (width n : Nat) : Shown (Decimal.zeroed width n) :=
  of_isDigit (Decimal.isDigit_of_mem_zeroed width n)

@[simp]
theorem padLeft_iff {width : Nat} {s : Octets} : Shown (Decimal.padLeft width Octet.space s) ↔ Shown s := by
  simp [Decimal.padLeft]

@[simp]
theorem padRight_iff {width : Nat} {s : Octets} : Shown (Decimal.padRight width Octet.space s) ↔ Shown s := by
  simp [Decimal.padRight]

theorem not_mem {s : Octets} (h : Shown s) {b : UInt8} (hb : b < 0x20) : b ∉ s := by
  intro hmem
  exact absurd hb (UInt8.not_lt.mpr (h b hmem).1)

@[simp]
theorem timestamp (width : Nat) (t : Timestamp) : Shown (t.octets width) := by
  simp [Timestamp.octets]

@[simp]
theorem fixed (places : Nat) (showPlus : Bool) (x : Dyadic) : Shown (x.fixed places showPlus) := by
  have hmagnitude : Shown (x.magnitude places) := by
    simp [Dyadic.magnitude]
  unfold Dyadic.fixed
  split
  . simp [hmagnitude]
  split
  . simp [hmagnitude]
  . exact hmagnitude

theorem getD_ofString {names : List String} (h : ∀ name ∈ names, Shown (Octets.ofString name)) (n : Nat) :
    Shown (Octets.ofString (names.getD n "")) := by
  rw [List.getD_eq_getElem?_getD]
  cases hname : names[n]? with
  | none => decide +kernel
  | some name => exact h name (List.mem_of_getElem? hname)

@[simp]
theorem weekdayName (d : Date) : Shown (Octets.ofString d.weekdayName) :=
  getD_ofString (by decide +kernel) _

@[simp]
theorem monthName (d : Date) : Shown (Octets.ofString d.monthName) :=
  getD_ofString (by decide +kernel) _

@[simp]
theorem yearText (d : Date) : Shown d.yearText := by
  unfold Date.yearText
  dsimp only
  split
  . simp
  split
  . simp
  . simp

@[simp]
theorem timeText (t : DateTime) : Shown t.timeText := by
  simp [DateTime.timeText, DateTime.clockText]

@[simp]
theorem fullText (t : DateTime) : Shown t.fullText := by
  simp [DateTime.fullText, DateTime.dayText]

@[simp]
theorem shortText (t : DateTime) : Shown t.shortText := by
  simp [DateTime.shortText, DateTime.dayText, DateTime.clockText]

@[simp]
theorem isoText (t : DateTime) : Shown t.isoText := by
  simp [DateTime.isoText, Date.isoText]

@[simp]
theorem offsetText (offset : Int) : Shown (Offset.text offset) := by
  unfold Offset.text
  dsimp only
  split <;> simp

end Shown

namespace Layout

@[simp]
theorem shown_bracketed {s : Octets} : Shown (bracketed s) ↔ Shown s := by
  simp [bracketed]

@[simp]
theorem shown_deltaText (last : Option Timestamp) (t : Timestamp) : Shown (deltaText last t) := by
  simp [deltaText, secondsText]

theorem shown_elapsed (last : Option Timestamp) (t : Timestamp) : Shown (timePart.elapsed last t) := by
  unfold timePart.elapsed
  dsimp only
  split <;> simp [secondsText]

theorem shown_timePart (layout : Layout) (last : Option Timestamp) (t : Timestamp) :
    Shown (layout.timePart last t) := by
  have hstamp : Shown (stampText t) := by
    simp [stampText]
  unfold timePart
  split
  . exact .nil
  . exact hstamp
  . split
    . simp
    . exact hstamp
  . split
    . simp
    . simp
  . simp
  . simp
  . split
    . split
      . exact shown_elapsed last t
      . simp
    . exact shown_elapsed last t
  . split
    . simp
    . exact hstamp

theorem shown_name (namings : List Naming) (h : ∀ naming ∈ namings, Shown (Octets.ofString naming.name))
    (n : Option Nat) :
    Shown (((n.bind fun n => namings[n]?).map fun naming => Octets.ofString naming.name).getD absent) := by
  cases hnaming : n.bind fun n => namings[n]? with
  | none => simp [absent]
  | some naming =>
    obtain ⟨n, -, hn⟩ := Option.bind_eq_some_iff.mp hnaming
    exact h naming (List.mem_of_getElem? hn)

theorem shown_number (n : Option Nat) : Shown ((n.map Decimal.digits).getD absent) := by
  cases n <;> simp [absent]

theorem shown_decodedLabel (r : Record) : Shown (decodedLabel r) := by
  have hfacility := shown_name Facility.namings (by decide +kernel) r.facility
  have hlevel := shown_name Level.namings (by decide +kernel) r.level
  have hopen : Shown (Octets.ofString "(") := by decide +kernel
  have hclose : Shown (Octets.ofString ") ") := by decide +kernel
  simp only [decodedLabel, Shown.append_iff, Shown.cons_iff, Shown.padRight_iff, Octet.isShown_marks, shown_number,
    hopen, hclose, true_and, and_true]
  exact ⟨hfacility, hlevel⟩

theorem shown_rawLabel (r : Record) : Shown (rawLabel r) := by
  rw [rawLabel]
  cases r.priority <;> cases r.timestamp <;> simp [stampText]

theorem shown_line (layout : Layout) (last : Option Timestamp) (r : Record) :
    Shown (layout.line last r).label ∧ Shown (layout.line last r).time := by
  unfold line
  cases layout.mode with
  | raw => exact ⟨shown_rawLabel r, .nil⟩
  | decoded => exact ⟨shown_decodedLabel r, shown_timePart layout last r.time⟩

theorem control_not_mem_line (layout : Layout) (last : Option Timestamp) (r : Record) {b : UInt8}
    (hb : b.toNat < 0x09 ∨ 0x0D < b.toNat ∧ b.toNat < 0x20) :
    let line := layout.line last r
    b ∉ line.label ∧ b ∉ line.time ∧ b ∉ line.body := by
  intro line
  have hcontrol : b < 0x20 := by
    simp only [UInt8.lt_iff_toNat_lt, UInt8.reduceToNat]
    omega
  have hnewline : b ≠ Octet.newline := by
    rintro rfl
    exact absurd hb (by decide)
  obtain ⟨hlabel, htime⟩ := shown_line layout last r
  have hmessage : b ∉ Escape.terminal (line.label.length + line.time.length) r.message :=
    (Escape.safeText_terminalPieces _ (Utf8.splits_pieces r.message)).control_not_mem hb
  refine ⟨hlabel.not_mem hcontrol, htime.not_mem hcontrol, ?_⟩
  have hbody : line.body = closed (Escape.terminal (line.label.length + line.time.length) r.message) := rfl
  rw [hbody, closed]
  split
  . exact hmessage
  . simp [hmessage, hnewline]

end Layout
end KernelLog
