import KernelLog.CommandLine.Arguments
import KernelLog.Proofs.Kernel.Growing
import KernelLog.Proofs.Timestamp.Plain
import KernelLog.Session.Backend

/-!
This module relates the size that is given for the buffer of the kernel to what is read of that buffer. Main statement:
the room that a size makes, and when a larger size reads at least what a smaller one reads.
-/

namespace KernelLog

namespace Config

def withBufferSize (config : Config) (size : UInt64) : Config :=
  { config with bufferSize := some size }

theorem problem?_withBufferSize {config : Config} (hvalid : config.problem? = none) (size : UInt64) :
    (config.withBufferSize size).problem? = none ↔ 0 < size := by
  rw [UInt64.pos_iff_ne_zero]
  unfold problem? at hvalid ⊢
  split at hvalid
  . cases hvalid
  . next hseverity =>
    split at hvalid
    . cases hvalid
    . rw [if_neg (show ¬ Level.max < (config.withBufferSize size).minSeverity from hseverity)]
      by_cases hzero : size = 0
      . simp [withBufferSize, hzero]
      . rw [if_neg (by simpa [withBufferSize] using hzero)]
        exact iff_of_true hvalid hzero

end Config

namespace CommandLine.Arguments

theorem readSize_toString {size : UInt64} (hsize : 0 < size) : readSize (toString size.toNat) = .ok size := by
  have hlt : Nat.ofDigitChars 10 (Nat.toDigits 10 size.toNat) 0 < UInt64.size := by
    rw [Nat.ofDigitChars_ten_toDigits]
    exact size.toNat_lt_size
  obtain ⟨n, hparse, hn⟩ := Decimal.exists_parse_ofList_eq
    (fun _ hc => Nat.isDigit_of_mem_toDigits (by decide) (by decide) hc) Nat.toDigits_ne_nil hlt
  rw [Nat.ofDigitChars_ten_toDigits, UInt64.toNat_inj] at hn
  subst hn
  have htext : toString n.toNat = String.ofList (Nat.toDigits 10 n.toNat) := rfl
  rw [readSize, htext, hparse]
  exact if_neg (UInt64.pos_iff_ne_zero.mp hsize)

theorem exists_readSize_eq_iff (size : UInt64) : (∃ value, readSize value = .ok size) ↔ 0 < size := by
  constructor
  . rintro ⟨value, hread⟩
    unfold readSize at hread
    split at hread
    . split at hread
      . cases hread
      . next hne =>
        cases hread
        exact UInt64.pos_iff_ne_zero.mpr hne
    . cases hread
  . intro hsize
    exact ⟨toString size.toNat, readSize_toString hsize⟩

end CommandLine.Arguments

namespace Control

variable {κ : Type} [Control κ] {action : ReadAction} {size : UInt64} {kernel kernel' : κ} {text : Octets}

theorem room_of_le (h : size.toNat + 8 ≤ largestBuffer) : room size = .ok (size.toNat + 8) := by
  have hlt : ¬ UInt64.size ≤ size.toNat + 8 := Nat.not_le.mpr (Nat.lt_of_le_of_lt h (by decide))
  have hle : ¬ largestBuffer < size.toNat + 8 := Nat.not_lt.mpr h
  unfold room
  apply (if_neg hlt).trans
  exact if_neg hle

theorem exists_room_eq_error (h : largestBuffer < size.toNat + 8) :
    ∃ fault, room size = .error fault ∧ fault.kind = .overflow ∧
      fault.message =
        (if UInt64.size ≤ size.toNat + 8 then "attempt to add with overflow" else "capacity overflow") := by
  by_cases hsum : UInt64.size ≤ size.toNat + 8
  . exact ⟨_, if_pos hsum, rfl, (if_pos hsum).symm⟩
  . exact ⟨_, (if_neg hsum).trans (if_pos h), rfl, (if_neg hsum).symm⟩

theorem toNat_add_padding_lt (h : UInt64.size ≤ size.toNat + 8) : (size + padding).toNat < 8 := by
  have := size.toNat_lt_size
  rw [show (size + padding).toNat = (size.toNat + 8) % UInt64.size from UInt64.toNat_add size padding]
  dsimp only [UInt64.size] at *
  omega

theorem read_of_copy {n : Nat} (hsize : 0 < size) (hroom : room size = .ok n) (htext : text.length < UInt64.size)
    (hcontrol : control action.action n kernel = (.ok (.copy text n), kernel')) :
    read action (some size) kernel = (.ok (.ofOctets (text.take n)), kernel') := by
  have hcount : (Reply.copy text n).count.toNat = (text.take n).length := by
    rw [Reply.toNat_count_copy htext, List.length_take]
  have hsnapshot : ((Snapshot.zeros n).overwrite (text.take n)).truncate (text.take n).length =
      .ofOctets (text.take n) :=
    Snapshot.truncate_overwrite_zeros (List.length_take_le n text)
  rw [read, if_neg (UInt64.pos_iff_ne_zero.mp hsize), hroom]
  dsimp only
  rw [hcontrol]
  dsimp only
  rw [hcount, Reply.copy, hsnapshot]

theorem read_of_overflow {fault : Fault} (hsize : 0 < size) (hroom : room size = .error fault) :
    read action (some size) kernel = (.error fault, kernel) := by
  rw [read, if_neg (UInt64.pos_iff_ne_zero.mp hsize), hroom]

end Control

theorem Still.exists_control_eq {κ : Type} [Control κ] {Holds : κ → Octets → Prop} {kernel : κ} {text : Octets}
    (hstill : Still Holds) (hkernel : Holds kernel text) {action : ReadAction} {room : Nat}
    (hanswers : (Control.control action.action room kernel).1.isOk) :
    ∃ kernel', Control.control action.action room kernel = (.ok (.copy text room), kernel') ∧
      Holds kernel' (if action = .readClear then [] else text) := by
  rcases hcontrol : Control.control action.action room kernel with ⟨fault | reply, kernel'⟩
  . rw [hcontrol] at hanswers
    cases hanswers
  . cases action with
    | readAll =>
      obtain ⟨hholds, hreply⟩ := hstill.readAll hkernel hcontrol
      rw [hreply reply rfl]
      exact ⟨kernel', rfl, hholds⟩
    | readClear =>
      obtain ⟨hholds, hreply⟩ := hstill.readClear hkernel hcontrol
      rw [hreply]
      exact ⟨kernel', rfl, hholds⟩

namespace Legacy.Reader

variable {κ : Type} [Control κ] {action : ReadAction} {size : UInt64} {kernel kernel' : κ} {text : Octets}

/--
Opening the buffer of the kernel with a size makes one call, with eight octets more room, and gives a reader of octets.
-/
structure Opens (action : ReadAction) (size : UInt64) (kernel kernel' : κ) (octets : Octets) : Prop where
  opened : openSyslog action (some size) kernel = (.ok (.new (.owned (.ofOctets octets)) .full), kernel')
  recorded : ∃ answer, openSyslog action (some size) (Recorded.ofKernel kernel) =
    (.ok (.new (.owned (.ofOctets octets)) .full),
      { kernel := kernel', exchanges := [{ action := action.action, room := size.toNat + 8, answer }] })

theorem openSyslog_of_read {snapshot : Snapshot}
    (h : Control.read action (some size) kernel = (.ok snapshot, kernel')) :
    openSyslog action (some size) kernel = (.ok (.new (.owned snapshot) .full), kernel') := by
  rw [openSyslog, h]

theorem opens_of_copy (hsize : 0 < size) (hfits : size.toNat + 8 ≤ Control.largestBuffer)
    (htext : text.length < UInt64.size)
    (hcontrol : Control.control action.action (size.toNat + 8) kernel =
      (.ok (.copy text (size.toNat + 8)), kernel')) :
    Opens action size kernel kernel' (text.take (size.toNat + 8)) where
  opened := openSyslog_of_read (Control.read_of_copy hsize (Control.room_of_le hfits) htext hcontrol)
  recorded :=
    ⟨_, openSyslog_of_read (Control.read_of_copy hsize (Control.room_of_le hfits) htext
      (Recorded.control_of_eq hcontrol []))⟩

/--
Opening the buffer of the kernel with a size overflows before the kernel is called.
-/
def Overflows (action : ReadAction) (size : UInt64) (kernel : κ) (message : String) : Prop :=
  ∃ fault, openSyslog action (some size) kernel = (.error (.acquire .syslog fault), kernel) ∧
    fault.kind = .overflow ∧ fault.message = message

theorem overflows_of_lt (hsize : 0 < size) (hfits : Control.largestBuffer < size.toNat + 8) :
    Overflows action size kernel
      (if UInt64.size ≤ size.toNat + 8 then "attempt to add with overflow" else "capacity overflow") := by
  obtain ⟨fault, hroom, hkind, hmessage⟩ := Control.exists_room_eq_error hfits
  refine ⟨fault, ?_, hkind, hmessage⟩
  rw [openSyslog, Control.read_of_overflow hsize hroom]

/--
Every size but zero is valid and can be given on the command line, but only one below 2^63 - 8 opens the buffer of the
kernel. Such a size makes one read, with just eight octets more room, and a larger one reads at least what a smaller one
reads; what a read that clears has no room for is lost. All other sizes overflow before the kernel is called: the eight
largest ones when eight is added, which without a check comes to a room of less than eight octets, and the others
because no buffer has so many octets.
-/
theorem openSyslog_isOk_iff {Holds : κ → Octets → Prop} (hstill : Still Holds) {kernel : κ} {text : Octets}
    (hkernel : Holds kernel text) (htext : text.length < UInt64.size) (action : ReadAction)
    (hanswers : ∀ room, (Control.control action.action room kernel).1.isOk) {config : Config}
    (hvalid : config.problem? = none) :
    let valid (size : UInt64) := (config.withBufferSize size).problem? = none
    let fits (size : UInt64) := size.toNat + 8 ≤ Control.largestBuffer
    (∀ size, (valid size ↔ 0 < size) ∧ (valid size ↔ ∃ value, CommandLine.Arguments.readSize value = .ok size)) ∧
    (∀ size, valid size → ((openSyslog action (some size) kernel).1.isOk ↔ fits size)) ∧
    (∀ size, valid size → fits size → ∃ kernel', Opens action size kernel kernel' (text.take (size.toNat + 8)) ∧
      Holds kernel' (if action = .readClear then [] else text)) ∧
    (∀ size size', size ≤ size' → fits size' →
      fits size ∧ text.take (size.toNat + 8) <+: text.take (size'.toNat + 8)) ∧
    (∀ size, valid size → ¬ fits size → size.toNat + 8 < UInt64.size →
      Overflows action size kernel "capacity overflow") ∧
    ∀ size, valid size → UInt64.size ≤ size.toNat + 8 →
      Overflows action size kernel "attempt to add with overflow" ∧ (size + Control.padding).toNat < 8 := by
  intro valid fits
  have hsizes (size : UInt64) : valid size ↔ 0 < size := Config.problem?_withBufferSize hvalid size
  have hopens (size : UInt64) (hsize : valid size) (hfits : fits size) :
      ∃ kernel', Opens action size kernel kernel' (text.take (size.toNat + 8)) ∧
        Holds kernel' (if action = .readClear then [] else text) := by
    obtain ⟨kernel', hcontrol, hholds⟩ := hstill.exists_control_eq hkernel (hanswers (size.toNat + 8))
    exact ⟨kernel', opens_of_copy ((hsizes size).mp hsize) hfits htext hcontrol, hholds⟩
  have hoverflows (size : UInt64) (hsize : valid size) (hfits : ¬ fits size) : Overflows action size kernel
      (if UInt64.size ≤ size.toNat + 8 then "attempt to add with overflow" else "capacity overflow") :=
    overflows_of_lt ((hsizes size).mp hsize) (Nat.lt_of_not_le hfits)
  refine ⟨?_, ?_, hopens, ?_, ?_, ?_⟩
  . intro size
    exact ⟨hsizes size, (hsizes size).trans (CommandLine.Arguments.exists_readSize_eq_iff size).symm⟩
  . intro size hsize
    by_cases hfits : fits size
    . obtain ⟨kernel', hopens, -⟩ := hopens size hsize hfits
      rw [hopens.opened]
      exact iff_of_true rfl hfits
    . obtain ⟨fault, hopen, -⟩ := hoverflows size hsize hfits
      rw [hopen]
      exact iff_of_false nofun hfits
  . intro size size' hle hfits
    have hroom : size.toNat + 8 ≤ size'.toNat + 8 := Nat.add_le_add_right (UInt64.le_iff_toNat_le.mp hle) 8
    exact ⟨Nat.le_trans hroom hfits, List.take_prefix_take_left hroom⟩
  . intro size hsize hfits hsum
    have hoverflow := hoverflows size hsize hfits
    rwa [if_neg (Nat.not_le.mpr hsum)] at hoverflow
  . intro size hsize hsum
    have hfits : ¬ fits size := Nat.not_le.mpr (Nat.lt_of_lt_of_le (by decide) hsum)
    have hoverflow := hoverflows size hsize hfits
    rw [if_pos hsum] at hoverflow
    exact ⟨hoverflow, Control.toNat_add_padding_lt hsum⟩

def twoLines : RingBuffer :=
  { text := Octets.ofString "<6>first\n<6>second\n", size := 0, full := 0, faults := [], calls := [] }

def overBuffer : Config :=
  { Config.new Level.max Timestamp.zero false 0 with backend := .syslog }

theorem openSyslog_isOk_iff_twoLines :
    (∃ k, Opens .readClear 10 twoLines k (Octets.ofString "<6>first\n<6>second") ∧ k.text = []) ∧
      Overflows .readClear 9223372036854775800 twoLines "capacity overflow" ∧
      Overflows .readClear 18446744073709551615 twoLines "attempt to add with overflow" := by
  have hkernel : twoLines.text = twoLines.text ∧ twoLines.full = 0 := ⟨rfl, rfl⟩
  have hvalid : overBuffer.problem? = none := rfl
  obtain ⟨hsizes, -, hopens, -, hcapacity, hsum⟩ :=
    openSyslog_isOk_iff RingBuffer.still hkernel (by decide +kernel) .readClear (fun _ => rfl) hvalid
  have hread : twoLines.text.take 18 = Octets.ofString "<6>first\n<6>second" := by decide +kernel
  obtain ⟨k, hk, htext, -⟩ := hopens 10 ((hsizes 10).1.mpr (by decide)) (by decide)
  rw [← hread]
  refine ⟨⟨k, hk, htext⟩, ?_, ?_⟩
  . exact hcapacity _ ((hsizes _).1.mpr (by decide)) (by decide) (by decide)
  . exact (hsum _ ((hsizes _).1.mpr (by decide)) (by decide)).1

/--
The smallest size reads a line. Two larger ones are valid too, and read nothing.
-/
theorem openSyslog_largest :
    let opened (size : UInt64) := openSyslog .readClear (some size) twoLines
    let valid (size : UInt64) := (overBuffer.withBufferSize size).problem? = none
    (valid 1 ∧ (opened 1).1.toOption = some (.new (.owned (.ofOctets (Octets.ofString "<6>first\n"))) .full)) ∧
      (valid 9223372036854775800 ∧ (opened 9223372036854775800).1.toOption = none) ∧
      valid 18446744073709551615 ∧ (opened 18446744073709551615).1.toOption = none :=
  ⟨⟨rfl, by decide +kernel⟩, ⟨rfl, rfl⟩, rfl, rfl⟩

end Legacy.Reader
end KernelLog
