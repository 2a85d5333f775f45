import KernelLog.Kmsg.Header
import KernelLog.Proofs.Escape.Hex
import KernelLog.Proofs.Legacy.RoundTrip
import KernelLog.Proofs.Text.Octet

/-!
This module relates the two encodings of records. Main statement: the line in the legacy encoding and the record of
the device that hold the same fields and the same message are decoded alike.
-/

namespace KernelLog

theorem Timestamp.ofMicros_ofNat (t : Timestamp) (h : t.sec.toNat * 1000000 + t.usec.val < UInt64.size) :
    ofMicros (UInt64.ofNat (t.sec.toNat * 1000000 + t.usec.val)) = t := by
  obtain ⟨sec, usec, husec⟩ := t
  dsimp only at h
  have hmicros := UInt64.toNat_ofNat_of_lt' h
  have hsec : UInt64.ofNat (sec.toNat * 1000000 + usec) / 1000000 = sec := by
    rw [← UInt64.toNat_inj, UInt64.toNat_div, hmicros]
    simp only [UInt64.reduceToNat]
    omega
  simp only [ofMicros, hmicros, hsec]
  congr 2
  omega

namespace Kmsg

def fieldsText (p : Priority) (sequence micros : UInt64) : Octets :=
  Decimal.digits p.toNat ++ Octet.comma ::
    (Decimal.digits sequence.toNat ++ Octet.comma ::
      (Decimal.digits micros.toNat ++ [Octet.comma, Octet.minus]))

def deviceText (p : Priority) (sequence micros : UInt64) (escaped : Octets) : Octets :=
  fieldsText p sequence micros ++ Octet.semicolon :: escaped

def Header.full (p : Priority) (sequence : UInt64) (t : Timestamp) : Header :=
  { priority := some p
    level := some p.level
    facility := p.facility?
    sequence := some sequence
    timestamp := some t
    flag := .last }

theorem Header.readField?_digits (n : UInt64) (rest : Octets) :
    readField? (Decimal.digits n.toNat ++ Octet.comma :: rest) = some (n, rest) := by
  rw [readField?, Decimal.read?_digits n _ (by rintro b ⟨⟩; rfl)]
  rfl

theorem Header.readMicros?_digits (micros : UInt64) (rest : Octets) :
    Timestamp.readMicros? (Decimal.digits micros.toNat ++ Octet.comma :: rest) =
      some (.ofMicros micros, Octet.comma :: rest) := by
  rw [Timestamp.readMicros?, Decimal.read?_digits micros _ (by rintro b ⟨⟩; rfl)]
  rfl

theorem Header.read_of_fields {s rest rest' rest'' : Octets} {p : Priority} {sequence : UInt64} {t : Timestamp}
    (hp : readField? s = some (p, rest)) (hsequence : readField? rest = some (sequence, rest'))
    (ht : Timestamp.readMicros? rest' = some (t, rest'')) :
    read s = { full p sequence t with flag := .ofOctet? (rest''.drop 1).head? } := by
  rw [read, hp]
  dsimp only
  rw [hsequence]
  dsimp only
  rw [ht]
  rfl

variable (p : Priority) (sequence micros : UInt64)

theorem Header.read_fieldsText :
    read (fieldsText p sequence micros ++ [Octet.semicolon]) = full p sequence (.ofMicros micros) := by
  have hfields : fieldsText p sequence micros ++ [Octet.semicolon] =
      Decimal.digits p.toNat ++ Octet.comma ::
        (Decimal.digits sequence.toNat ++ Octet.comma ::
          (Decimal.digits micros.toNat ++ [Octet.comma, Octet.minus, Octet.semicolon])) := by
    simp [fieldsText]
  rw [hfields, read_of_fields (readField?_digits p _) (readField?_digits sequence _) (readMicros?_digits micros _)]
  rfl

theorem semicolon_not_mem_fieldsText : Octet.semicolon ∉ fieldsText p sequence micros := by
  have hdigits (n : Nat) : Octet.semicolon ∉ Decimal.digits n := fun hmem =>
    absurd (Decimal.isDigit_of_mem_digits n _ hmem) (by decide)
  have hcomma : Octet.semicolon ≠ Octet.comma ∧ Octet.semicolon ≠ Octet.minus := by decide
  simp [fieldsText, hdigits, hcomma]

theorem Physical.decode_deviceText {s : Octets} (hs : Octet.newline ∉ s) :
    decode (deviceText p sequence micros s) =
      { header := .full p sequence (.ofMicros micros)
        start := (fieldsText p sequence micros).length + 1
        escaped := s } := by
  have hfields := semicolon_not_mem_fieldsText p sequence micros
  -- the first semicolon is the one behind the fields
  rw [decode, deviceText, Octets.takeWhile_bne_append hfields, Octets.dropWhile_bne_append hfields]
  dsimp only
  rw [Header.read_fieldsText, Octets.takeWhile_bne_of_not_mem hs]

theorem drop_take_deviceText (s : Octets) :
    let start := (fieldsText p sequence micros).length + 1
    ((deviceText p sequence micros s).take (start + s.length)).drop start = s := by
  intro start
  have htext : deviceText p sequence micros s = (fieldsText p sequence micros ++ [Octet.semicolon]) ++ s := by
    simp [deviceText]
  have hstart : (fieldsText p sequence micros ++ [Octet.semicolon]).length = start := by
    simp [start]
  rw [htext, ← hstart, ← List.length_append, List.take_length, List.drop_left]

end Kmsg

/--
A priority, a time and a message are decoded from the legacy encoding just as from the encoding of the device, which
gives a sequence number besides. The device spells the message with escapes; reversed where they stand, they give the
message that the legacy encoding holds as it is.
-/
theorem decode_rawLabel_deviceText (p : Priority) (sequence : UInt64) (t : Timestamp) (m : Octets)
    (h : t.sec.toNat * 1000000 + t.usec.val < UInt64.size) :
    (∃ s, Escape.Escaped m s) ∧
      ∀ s, Escape.Escaped m s →
        let line := Layout.rawLabel { Record.ofMessage m with priority := some p, timestamp := some t } ++ m
        let text := Kmsg.deviceText p sequence (UInt64.ofNat (t.sec.toNat * 1000000 + t.usec.val)) s
        let record : Record :=
          { message := m
            priority := some p
            level := some (p.toNat % 8)
            facility := if p.toNat / 8 < 12 then some (p.toNat / 8) else none
            timestamp := some t
            sequence := none
            flag := .last }
        Legacy.decode .full line = record ∧
          let device := Kmsg.Physical.decode text
          device.toRecord = { record with sequence := some sequence } ∧
            let buffer := ((text.take device.stop).drop device.start).toArray
            (Escape.unhexInPlace buffer).1.toList.take (Escape.unhexInPlace buffer).2 = m := by
  refine ⟨Escape.exists_escaped m, ?_⟩
  intro s hs line text record
  have hdevice := Kmsg.Physical.decode_deviceText p sequence (UInt64.ofNat (t.sec.toNat * 1000000 + t.usec.val))
    hs.newline_not_mem
  rw [Timestamp.ofMicros_ofNat t h] at hdevice
  have hunhex := Escape.unhex_of_spells hs.spells
  refine ⟨Legacy.decode_rawLabel_append rfl rfl m, ?_⟩
  dsimp only [text]
  rw [hdevice]
  refine ⟨?_, ?_⟩
  . rw [Kmsg.Physical.toRecord, Kmsg.Physical.message, hunhex]
    rfl
  . rw [Kmsg.Physical.stop, Kmsg.drop_take_deviceText, Escape.take_toList_unhexInPlace, hunhex]

theorem decode_rawLabel_deviceText_separators :
    let record : Record :=
      { message := [Octet.backslash, Octet.newline, Octet.semicolon]
        priority := some 99
        level := some 3
        facility := none
        timestamp := some ⟨5, 7⟩
        sequence := none
        flag := .last }
    Legacy.decode .full (Octets.ofString "<99>[    5.000007] \\\n;") = record ∧
      (Kmsg.Physical.decode (Octets.ofString "99,4711,5000007,-;\\x5C\\x0a;")).toRecord =
        { record with sequence := some 4711 } := by
  intro record
  have hescaped : Escape.Escaped [0x5C, 0x0A, 0x3B] [0x5C, 0x78, 0x35, 0x43, 0x5C, 0x78, 0x30, 0x61, 0x3B] :=
    .escape (by decide) rfl (.escape (by decide) rfl (.plain (by decide) .nil))
  obtain ⟨hlegacy, hdevice, -⟩ :=
    (decode_rawLabel_deviceText 99 4711 ⟨5, 7⟩ [0x5C, 0x0A, 0x3B] (by decide)).2 _ hescaped
  have hline : Octets.ofString "<99>[    5.000007] \\\n;" =
      Layout.rawLabel { Record.ofMessage [0x5C, 0x0A, 0x3B] with priority := some 99, timestamp := some ⟨5, 7⟩ } ++
        [0x5C, 0x0A, 0x3B] := by
    decide +kernel
  have htext : Octets.ofString "99,4711,5000007,-;\\x5C\\x0a;" =
      Kmsg.deviceText 99 4711 5000007 [0x5C, 0x78, 0x35, 0x43, 0x5C, 0x78, 0x30, 0x61, 0x3B] := by
    decide +kernel
  rw [hline, htext]
  exact ⟨hlegacy, hdevice⟩

end KernelLog
