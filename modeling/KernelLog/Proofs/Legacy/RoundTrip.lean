import KernelLog.Proofs.Escape
import KernelLog.Proofs.Legacy.Reader
import KernelLog.Proofs.Printer
import KernelLog.Proofs.Timestamp

/-!
This module relates the printer of the form of the kernel to the reader of the legacy encoding. Main statement: the
records that are printed are read back one by one, whatever their messages hold.
-/

namespace KernelLog

namespace Escape

theorem boundary?_terminalPieces {indent : Nat} (hindent : 0 < indent) {s : Octets} {ps : List Utf8.Piece}
    (h : Utf8.Splits s ps) : Legacy.boundary? (terminalPieces indent ps) = none := by
  induction h with
  | nil => rfl
  | broken _ _ ih => exact Legacy.boundary?_append_of_not_mem (newline_not_mem_flatMap_hex _) ih
  | @char c s ps hrest ih =>
    rcases Utf8.utf8EncodeChar_cases c with ⟨b, hb, hc, hencode⟩ | ⟨hc, x, y, rest, hencode⟩
    . rw [hencode, terminalPieces]
      split
      . rfl
      split
      . have := newline_not_mem_flatMap_hex [b]
        rw [List.flatMap_singleton] at this
        exact Legacy.boundary?_append_of_not_mem this ih
      split
      . next hnewline =>
        -- the indentation parts the newline from what follows it
        obtain ⟨n, rfl⟩ := Nat.exists_eq_add_of_lt hindent
        rw [Legacy.boundary?_cons_eq_none]
        refine ⟨?_, Legacy.boundary?_append_of_not_mem ?_ ih⟩
        . intro _
          rw [Nat.zero_add, List.replicate_succ]
          simp [show Octet.space ≠ Octet.less by decide]
        . intro hmem
          exact absurd (List.eq_of_mem_replicate hmem) (by decide)
      . next hnewline =>
        rw [Legacy.boundary?_cons_eq_none]
        refine ⟨?_, ih⟩
        intro hb
        have hps : continues ps = false := by
          simpa [hb] using hnewline
        rw [terminalPieces_of_not_continues indent hrest hps]
        simp
    . have hnewline := Utf8.not_mem_utf8EncodeChar_of_lt (b := Octet.newline) (by decide) hc
      rw [hencode] at hnewline ⊢
      rw [terminalPieces]
      . split
        . exact Legacy.boundary?_append_of_not_mem (newline_not_mem_flatMap_hex _) ih
        . exact Legacy.boundary?_append_of_not_mem hnewline ih
      . simp

end Escape

namespace Layout

theorem boundary?_closed {s : Octets} (h : Legacy.boundary? s = none) : Legacy.boundary? (closed s) = none := by
  unfold closed
  split
  . exact h
  . exact Legacy.boundary?_append_newline h

variable {r : Record}

theorem boundary?_rawText (h : r.priority.isSome) : Legacy.boundary? (rawText r) = none := by
  have hindent : 0 < (rawLabel r).length := by
    rw [List.length_pos_iff]
    intro hnil
    have := head?_rawLabel h
    rw [hnil] at this
    cases this
  apply Legacy.boundary?_append_of_not_mem (newline_not_mem_rawLabel r)
  apply boundary?_closed
  exact Escape.boundary?_terminalPieces hindent (Utf8.splits_pieces r.message)

end Layout

namespace Legacy

/--
The record that is read back for a record that was printed, with the message that is read back.
-/
def echo (r : Record) (message : Octets) : Record :=
  { Record.ofMessage message with
    priority := r.priority
    level := r.priority.map Priority.level
    facility := r.priority.bind Priority.facility?
    timestamp := r.timestamp }

theorem readPriority_digits (p : Priority) (rest : Octets) :
    readPriority true (Octet.less :: (Decimal.digits p.toNat ++ Octet.greater :: rest)) = (some p, rest) := by
  have hread := Decimal.read?_digits p (Octet.greater :: rest) (by rintro b ⟨⟩; rfl)
  rw [readPriority_less, hread]
  rfl

theorem readTimestamp_stampText (t : Timestamp) (rest : Octets) :
    readTimestamp true (Layout.stampText t ++ rest) = (some t, rest) := by
  have hread := Timestamp.readLegacy?_octets 5 t (Octet.space :: rest)
  obtain ⟨b, body, hoctets, hb⟩ := Timestamp.exists_octets_eq_cons 5 t
  have hstamp : Layout.stampText t ++ rest =
      Octet.openBracket :: (t.octets 5 ++ Octet.closeBracket :: Octet.space :: rest) := by
    simp [Layout.stampText, Layout.bracketed]
  rw [hoctets, List.cons_append] at hread hstamp
  rw [hstamp, readTimestamp_openBracket _ hb, hread]
  rfl

theorem decode_rawLabel_append {r : Record} (hpriority : r.priority.isSome) (htimestamp : r.timestamp.isSome)
    (message : Octets) : decode .full (Layout.rawLabel r ++ message) = echo r message := by
  obtain ⟨p, hp⟩ := Option.isSome_iff_exists.mp hpriority
  obtain ⟨t, ht⟩ := Option.isSome_iff_exists.mp htimestamp
  have hline : Layout.rawLabel r ++ message =
      Octet.less :: (Decimal.digits p.toNat ++ Octet.greater :: (Layout.stampText t ++ message)) := by
    rw [Layout.rawLabel, hp, ht]
    simp
  rw [hline, decode, Decode.full]
  dsimp only
  rw [readPriority_digits]
  dsimp only
  rw [readTimestamp_stampText]
  simp [echo, hp, ht, Record.withPriority]

theorem head?_flatMap_rawText {r : Record} (rs : List Record) (h : r.priority.isSome) :
    ((r :: rs).flatMap Layout.rawText).head? = some Octet.less := by
  rw [List.flatMap_cons, Layout.rawText, List.append_assoc, List.head?_append, Layout.head?_rawLabel h,
    Option.some_or]

theorem cut_flatMap_rawText {rs : List Record} (hne : rs ≠ []) (hrs : ∀ r ∈ rs, r.priority.isSome) :
    cut (rs.flatMap Layout.rawText) =
      (rs.dropLast.map fun r => Layout.rawLabel r ++ (Layout.rawBody r).dropLast) ++
        rs.getLast?.toList.map Layout.rawText := by
  induction rs with
  | nil => exact absurd rfl hne
  | cons r rs ih =>
    have hr := Layout.boundary?_rawText (hrs r List.mem_cons_self)
    cases rs with
    | nil => simpa using cut_of_boundary?_eq_none _ hr
    | cons r' rs =>
      have hrest := ih (by simp) fun r'' hr'' => hrs r'' (List.mem_cons_of_mem r hr'')
      have hhead := head?_flatMap_rawText rs (hrs r' (by simp))
      rw [Layout.rawText_eq_concat] at hr
      rw [List.flatMap_cons, Layout.rawText_eq_concat, List.append_assoc, List.singleton_append,
        cut_append_boundary (boundary?_of_append hr) hhead, hrest]
      simp

theorem pieces_flatMap_rawText {rs : List Record} (hrs : ∀ r ∈ rs, r.priority.isSome) :
    pieces (rs.flatMap Layout.rawText) =
      (rs.dropLast.map fun r => Layout.rawLabel r ++ (Layout.rawBody r).dropLast) ++
        rs.getLast?.toList.map Layout.rawText := by
  cases rs with
  | nil => rfl
  | cons r rs =>
    have hhead := head?_flatMap_rawText rs (hrs r List.mem_cons_self)
    rw [pieces, dropWhile_nul_of_head?_less hhead, filter_cut_of_head?_less hhead,
      cut_flatMap_rawText (by simp) hrs, List.getLast?_cons]
    -- the last line ends in a newline, so no zeros are left out there
    rw [Option.toList_some, List.map_singleton, stripLast_concat, Layout.rawText_eq_concat,
      dropTrailingZeros_concat (by decide)]

/--
Records that have a priority, a time and a message are printed in the form of the kernel and read back. One record
is read for each that was printed, in the same order, with the same priority and time. Its message is what was
printed behind the label, whichever octets that holds; only the last one keeps the newline at its end.
-/
theorem drain_printAll_raw (layout : Layout) (hmode : layout.mode = .raw) (rs : List Record)
    (hrs : ∀ r ∈ rs, r.priority.isSome ∧ r.timestamp.isSome ∧ r.message ≠ []) :
    let printed := (Printer.new layout false Tape.blank).printAll rs
    ∃ p, printed.printer = some p ∧ printed.fault = none ∧ printed.count = rs.length ∧
      let drained := Source.drain (Reader.new (.owned (.ofOctets p.out.contents)) .full)
      drained.last = .done ∧
        drained.records =
          (rs.dropLast.map fun r => echo r (Layout.rawBody r).dropLast) ++
            rs.getLast?.toList.map fun r => echo r (Layout.rawBody r) := by
  obtain ⟨p, hprinter, hfault, hcount, hcontents⟩ :=
    Printer.printAll_of_raw (p := Printer.new layout false Tape.blank) rfl rfl hmode fun r hr => (hrs r hr).2.2
  have hdrains := Reader.drain (Reader.readable_new_owned (.ofOctets p.out.contents) .full)
  have hcoming : (Reader.new (.owned (.ofOctets p.out.contents)) .full).coming =
      (rs.dropLast.map fun r => Layout.rawLabel r ++ (Layout.rawBody r).dropLast) ++
        rs.getLast?.toList.map Layout.rawText := by
    rw [Reader.coming_new_owned, Snapshot.toOctets_ofOctets, hcontents]
    exact pieces_flatMap_rawText fun r hr => (hrs r hr).1
  have hdecode (r : Record) (hr : r ∈ rs) (message : Octets) :
      decode .full (Layout.rawLabel r ++ message) = echo r message :=
    decode_rawLabel_append (hrs r hr).1 (hrs r hr).2.1 message
  refine ⟨p, hprinter, hfault, hcount, hdrains.last, ?_⟩
  rw [hdrains.records, hcoming, List.map_append, List.map_map, List.map_map]
  congr 1
  . apply List.map_congr_left
    intro r hr
    exact hdecode r ((List.dropLast_sublist rs).mem hr) _
  . apply List.map_congr_left
    intro r hr
    exact hdecode r (List.mem_of_getLast? (Option.mem_toList.mp hr)) _

def forged : List Record :=
  [{ Record.ofMessage (Octets.ofString "a\n<0>[    0.000000] b\n") with
      priority := some 6, timestamp := some (.ofMicros 1000005) },
    { Record.ofMessage (Octets.ofString "c\n\x00<0>d") with priority := some 96, timestamp := some (.ofMicros 2000000) },
    { Record.ofMessage [Octet.nul] with priority := some 3, timestamp := some (.ofMicros 123456000007) }]

theorem drain_printAll_raw_forged :
    let layout : Layout := { mode := .raw, format := .noTime, boot := none, offset := 0 }
    ∃ p, ((Printer.new layout false Tape.blank).printAll forged).printer = some p ∧
      let drained := Source.drain (Reader.new (.owned (.ofOctets p.out.contents)) .full)
      drained.records.map (·.message) =
          ["a\n                  <0>[    0.000000] b", "c", "\n"].map Octets.ofString ∧
        drained.records.map (·.facility) = [some 0, none, some 0] := by
  intro layout
  obtain ⟨p, hprinter, -, -, -, hrecords⟩ := drain_printAll_raw layout rfl forged (by decide +kernel)
  refine ⟨p, hprinter, ?_⟩
  dsimp only
  rw [hrecords]
  decide +kernel

end Legacy
end KernelLog
