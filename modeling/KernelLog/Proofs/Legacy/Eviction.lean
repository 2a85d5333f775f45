import KernelLog.Proofs.MappedFile
import KernelLog.Proofs.Legacy.Reader

/-!
This module relates the reader of a mapped file, which gives back pages behind its cursor, to the reader of a
snapshot with the same octets. Main statement: the two cannot be told apart, and no octet is asked for after it was
given back.
-/

namespace KernelLog

namespace Legacy

namespace Buffer

def ask (buffer : Buffer) (offset : Nat) (notes : List Nat) : Octets × List Nat :=
  (buffer.octetsFrom offset, notes ++ [offset])

def seek (buffer : Buffer) (offset : Nat) (notes : List Nat) : Option Span × List Nat :=
  let (rest, notes) := buffer.ask offset notes
  if buffer.length ≤ offset then
    (none, notes)
  else
    let start := offset + (rest.takeWhile (· == Octet.nul)).length
    let text := rest.dropWhile (· == Octet.nul)
    if text.isEmpty then
      (none, notes)
    else
      match boundary? text with
      | some 0 => seek buffer (start + 1) notes
      | some n => (some { start, stop := start + n, next := start + n + 1 }, notes)
      | none =>
        (some { start, stop := start + (dropTrailingZeros text).length, next := buffer.length }, notes)
termination_by buffer.length - offset

theorem Readable.exists_seek_eq {buffer : Buffer} {offset : Nat} (h : buffer.Readable offset) (notes : List Nat) :
    ∃ more, buffer.seek offset notes = (buffer.span? offset, notes ++ more) ∧
      ∀ a ∈ more, offset ≤ a ∧ a ≤ buffer.length := by
  fun_induction span? buffer offset generalizing notes with
  | case1 offset hlength =>
    refine ⟨[offset], ?_, by simpa using h.offset⟩
    rw [seek, ask]
    dsimp only
    rw [if_pos hlength]
  | case2 offset hlength rest text hempty =>
    refine ⟨[offset], ?_, by simpa using h.offset⟩
    rw [seek, ask]
    dsimp only
    rw [if_neg hlength, if_pos hempty]
  | case3 offset hlength rest start text hempty hboundary ih =>
    obtain ⟨hstart, htext⟩ : buffer.Readable start ∧ buffer.octetsFrom start = text := h.past_nul
    obtain ⟨hnext, -⟩ := hstart.past_boundary (by rwa [htext])
    obtain ⟨more, hseek, hmore⟩ := ih hnext (notes ++ [offset])
    refine ⟨offset :: more, ?_, ?_⟩
    . rw [seek, ask]
      dsimp only
      rw [if_neg hlength, if_neg hempty, hboundary]
      rw [hseek, List.append_assoc, List.singleton_append]
      rfl
    . intro a ha
      rcases List.mem_cons.mp ha with rfl | ha
      . exact ⟨Nat.le_refl _, h.offset⟩
      . have := hmore a ha
        omega
  | case4 offset hlength rest start text hempty n hn hboundary =>
    refine ⟨[offset], ?_, by simpa using h.offset⟩
    rw [seek, ask]
    dsimp only
    rw [if_neg hlength, if_neg hempty, hboundary]
    cases n with
    | zero => exact absurd rfl hn
    | succ n => rfl
  | case5 offset hlength rest start text hempty hboundary =>
    refine ⟨[offset], ?_, by simpa using h.offset⟩
    rw [seek, ask]
    dsimp only
    rw [if_neg hlength, if_neg hempty, hboundary]

theorem Readable.start_of_span? {buffer : Buffer} {offset : Nat} (h : buffer.Readable offset) {span : Span}
    (hspan : buffer.span? offset = some span) : offset ≤ span.start ∧ span.start ≤ buffer.length := by
  fun_induction span? buffer offset with
  | case1 => cases hspan
  | case2 => cases hspan
  | case3 offset hlength rest start text hempty hboundary ih =>
    obtain ⟨hstart, htext⟩ : buffer.Readable start ∧ buffer.octetsFrom start = text := h.past_nul
    obtain ⟨hnext, -⟩ := hstart.past_boundary (by rwa [htext])
    have := ih hnext hspan
    omega
  | case4 =>
    cases hspan
    exact ⟨Nat.le_add_right _ _, h.past_nul.1.offset⟩
  | case5 =>
    cases hspan
    exact ⟨Nat.le_add_right _ _, h.past_nul.1.offset⟩

/--
From an offset on, the second buffer reads as the first, up to zeros at the end.
-/
structure Agrees (buffer buffer' : Buffer) (offset : Nat) : Prop where
  readable : buffer.Readable offset
  readable' : buffer'.Readable offset
  length : buffer'.length = buffer.length
  octets : ∃ n, buffer'.octetsFrom offset = buffer.octetsFrom offset ++ List.replicate n Octet.nul

namespace Agrees

variable {buffer buffer' : Buffer} {offset : Nat}

theorem of_le (h : buffer.Agrees buffer' offset) {offset' : Nat} (hle : offset ≤ offset')
    (hlength : offset' ≤ buffer.length) : buffer.Agrees buffer' offset' := by
  obtain ⟨n, rfl⟩ := Nat.exists_eq_add_of_le hle
  obtain ⟨k, hk⟩ := h.octets
  refine ⟨h.readable.add hlength, h.readable'.add (by rwa [h.length]), h.length, ?_⟩
  rw [h.readable.octetsFrom_add, h.readable'.octetsFrom_add, hk, List.drop_append, List.drop_replicate]
  exact ⟨_, rfl⟩

theorem release (h : buffer.Agrees buffer' offset) (granted granted' : Bool) :
    (buffer.release granted offset).Agrees (buffer'.release granted' offset) offset :=
  { readable := h.readable.release granted
    readable' := h.readable'.release granted'
    length := by rw [length_release, length_release, h.length]
    octets := by
      rw [h.readable.octetsFrom_release, h.readable'.octetsFrom_release]
      exact h.octets }

theorem span?_of_text (h : buffer.Agrees buffer' offset) (hlength : ¬ buffer.length ≤ offset)
    (htext : (buffer.octetsFrom offset).dropWhile (· == Octet.nul) ≠ []) :
    let start := offset + ((buffer.octetsFrom offset).takeWhile (· == Octet.nul)).length
    let text := (buffer.octetsFrom offset).dropWhile (· == Octet.nul)
    buffer'.span? offset =
      match boundary? text with
      | some 0 => span? buffer' (start + 1)
      | some n => some { start, stop := start + n, next := start + n + 1 }
      | none =>
        some { start, stop := start + (dropTrailingZeros text).length, next := buffer.length } := by
  obtain ⟨k, hoctets⟩ := h.octets
  obtain ⟨htake, hdrop, hne⟩ := takeWhile_nul_append htext (List.replicate k Octet.nul)
  rw [span?, if_neg (by rwa [h.length]), hoctets]
  dsimp only
  rw [htake, hdrop, if_neg hne, boundary?_append_zeros]
  cases boundary? ((buffer.octetsFrom offset).dropWhile (· == Octet.nul)) with
  | none => rw [dropTrailingZeros_append_zeros, h.length]
  | some n =>
    cases n with
    | zero => rfl
    | succ n => rfl

theorem span?_eq (h : buffer.Agrees buffer' offset) : buffer'.span? offset = buffer.span? offset := by
  fun_induction span? buffer offset with
  | case1 offset hlength => rw [span?, if_pos (by rwa [h.length])]
  | case2 offset hlength rest text hempty =>
    obtain ⟨k, hoctets⟩ := h.octets
    rw [List.isEmpty_iff] at hempty
    rw [span?, if_neg (by rwa [h.length]), hoctets]
    dsimp only
    rw [dropWhile_nul_append_zeros_of_eq_nil hempty, List.isEmpty_nil, if_pos rfl]
  | case3 offset hlength rest start text hempty hboundary ih =>
    rw [List.isEmpty_iff] at hempty
    -- both go on behind the newline
    obtain ⟨hstart, hbehind⟩ : buffer.Readable start ∧ buffer.octetsFrom start = text := h.readable.past_nul
    obtain ⟨hnext, -⟩ := hstart.past_boundary (by rwa [hbehind])
    rw [h.span?_of_text hlength hempty, hboundary]
    exact ih (h.of_le (by omega) hnext.offset)
  | case4 offset hlength rest start text hempty n hn hboundary =>
    rw [List.isEmpty_iff] at hempty
    rw [h.span?_of_text hlength hempty, hboundary]
    cases n with
    | zero => exact absurd rfl hn
    | succ n => rfl
  | case5 offset hlength rest start text hempty hboundary =>
    rw [List.isEmpty_iff] at hempty
    rw [h.span?_of_text hlength hempty, hboundary]

theorem pieces_eq (h : buffer.Agrees buffer' offset) :
    pieces (buffer'.octetsFrom offset) = pieces (buffer.octetsFrom offset) := by
  obtain ⟨k, hk⟩ := h.octets
  rw [hk, pieces_append_zeros]

end Agrees

end Buffer

namespace Reader

variable {r : Reader}

def pullNoting (r : Reader) (granted : Bool) : (Pull Record Fault × Reader) × List Nat :=
  let buffer := r.buffer.release granted r.cursor
  match buffer.seek r.cursor [] with
  | (some span, notes) =>
    let (rest, notes) := buffer.ask span.start notes
    let line := rest.take (span.stop - span.start)
    ((.found (Legacy.decode r.decode line),
      { r with buffer, cursor := span.next, records := r.records + 1 }), notes)
  | (none, notes) => ((.done, { r with buffer, cursor := buffer.length }), notes)

structure Agrees (r r' : Reader) : Prop where
  buffer : r.buffer.Agrees r'.buffer r.cursor
  cursor : r'.cursor = r.cursor
  decode : r'.decode = r.decode
  records : r'.records = r.records

theorem Agrees.pullGranted {r r' : Reader} (h : r.Agrees r') (granted granted' : Bool) :
    (r'.pullGranted granted').1 = (r.pullGranted granted).1 ∧
      (r.pullGranted granted).2.Agrees (r'.pullGranted granted').2 := by
  have hbuffer := h.buffer.release granted granted'
  have hspan := hbuffer.span?_eq
  -- the octets of the span are the same because they are the first of the same pieces
  unfold Reader.pullGranted
  dsimp only
  rw [h.cursor, hspan, h.decode, h.records]
  rcases Buffer.span?_cases hbuffer.readable with ⟨hnone, -⟩ | ⟨span, p, ps, hsome, hpieces, hcovers⟩
  . rw [hnone]
    exact ⟨rfl, hbuffer.of_le hbuffer.readable.offset (Nat.le_refl _), hbuffer.length, rfl, rfl⟩
  . rcases Buffer.span?_cases hbuffer.readable' with ⟨hnone, -⟩ | ⟨span', p', ps', hsome', hpieces', hcovers'⟩
    . rw [hspan, hsome] at hnone
      cases hnone
    . obtain rfl : span' = span := by
        rw [hspan, hsome] at hsome'
        exact (Option.some.inj hsome').symm
      obtain ⟨rfl, -⟩ : p' = p ∧ ps' = ps := by
        rw [hbuffer.pieces_eq, hpieces, List.cons.injEq] at hpieces'
        exact ⟨hpieces'.1.symm, hpieces'.2.symm⟩
      have hnext := (Buffer.lt_next_of_span? _ _ _ hsome).2
      rw [hsome]
      dsimp only
      rw [hcovers.record, hcovers'.record]
      exact ⟨rfl, hbuffer.of_le (Nat.le_of_lt hnext) hcovers.next.offset, rfl, rfl, rfl⟩

theorem pullNoting_cases (h : r.buffer.Readable r.cursor) (granted : Bool) :
    (r.pullNoting granted).1 = r.pullGranted granted ∧
      ∀ a ∈ (r.pullNoting granted).2, r.cursor ≤ a ∧ a ≤ r.buffer.length := by
  have hrelease := h.release granted
  obtain ⟨notes, hseek, hnotes⟩ := hrelease.exists_seek_eq []
  rw [Buffer.length_release] at hnotes
  unfold pullNoting pullGranted
  dsimp only
  rw [hseek]
  rcases Buffer.span?_cases hrelease with ⟨hnone, -⟩ | ⟨span, p, ps, hsome, -, hcovers⟩
  . rw [hnone]
    exact ⟨rfl, hnotes⟩
  . rw [hsome]
    refine ⟨rfl, ?_⟩
    intro a ha
    rcases List.mem_append.mp ha with ha | ha
    . exact hnotes a ha
    . rw [List.mem_singleton.mp ha]
      have hstart := hrelease.start_of_span? hsome
      rwa [Buffer.length_release] at hstart

theorem buffer_pullGranted (r : Reader) (granted : Bool) :
    (r.pullGranted granted).2.buffer = r.buffer.release granted r.cursor := by
  unfold pullGranted
  dsimp only
  split <;> rfl

def afterGranted (r : Reader) : List Bool → Reader
  | [] => r
  | granted :: grants => afterGranted (r.pullGranted granted).2 grants

theorem Agrees.after {r r' : Reader} (h : r.Agrees r') (grants : List Bool) :
    (Source.after r grants.length).Agrees (r'.afterGranted grants) := by
  induction grants generalizing r r' with
  | nil => exact h
  | cons granted grants ih => exact ih (h.pullGranted true granted).2

theorem agrees_new (s : Snapshot) (pageSize : Nat) (decode : Decode) :
    (Reader.new (.owned s) decode).Agrees (Reader.new (.mapped (.ofContents pageSize s.toOctets)) decode) :=
  { buffer :=
      { readable := readable_new_owned s decode
        readable' :=
          { floor := Nat.le_refl _
            offset := Nat.zero_le _
            kept := Nat.le_of_eq (Nat.zero_add _) }
        length := Snapshot.length_toOctets s
        octets := ⟨s.padding, rfl⟩ }
    cursor := rfl
    decode := rfl
    records := rfl }

theorem exists_buffer_afterGranted_eq {contents : Octets} {file : MappedFile} (hbuffer : r.buffer = .mapped file)
    (hfile : file.Shows contents) (grants : List Bool) :
    ∃ file', (r.afterGranted grants).buffer = .mapped file' ∧ file'.Shows contents ∧
      file'.pageSize = file.pageSize := by
  induction grants generalizing r file with
  | nil => exact ⟨file, hbuffer, hfile, rfl⟩
  | cons granted grants ih =>
    have hnext : (r.pullGranted granted).2.buffer = .mapped (file.release granted r.cursor) := by
      rw [buffer_pullGranted, hbuffer]
      rfl
    obtain ⟨file', hbuffer', hfile', hpageSize⟩ := ih hnext (hfile.release granted r.cursor)
    exact ⟨file', hbuffer', hfile', hpageSize.trans (MappedFile.pageSize_release _ _ _)⟩

/--
A reader of a mapped file gives what a reader of a snapshot with the same octets gives, whichever releases the
system grants: pull for pull the same result, cursor and number of records. The cursor stays within what is mapped,
at most one page past its beginning unless the system refuses a release. Whatever is asked for is still mapped, and
so it reads as it does in the file.
-/
theorem eviction_invisible (s : Snapshot) {pageSize : Nat} (hpageSize : 0 < pageSize) (decode : Decode)
    (grants : List Bool) (granted : Bool) :
    let owned := Source.after (Reader.new (.owned s) decode) grants.length
    let mapped := (Reader.new (.mapped (.ofContents pageSize s.toOctets)) decode).afterGranted grants
    (mapped.pullGranted granted).1 = (Source.pull owned).1 ∧ mapped.cursor = owned.cursor ∧
      mapped.records = owned.records ∧
      ∃ file, mapped.buffer = .mapped file ∧ file.length = s.toOctets.length ∧ file.window ≤ mapped.cursor ∧
        mapped.cursor ≤ file.length ∧
        let released := file.release granted mapped.cursor
        released.window ≤ mapped.cursor ∧
          (granted = true ∨ file.behind? mapped.cursor = none → mapped.cursor ≤ released.window + pageSize) ∧
          (mapped.pullNoting granted).1 = mapped.pullGranted granted ∧
          ∀ offset ∈ (mapped.pullNoting granted).2, released.window ≤ offset ∧ offset ≤ file.length ∧
            released.octetsFrom offset = s.toOctets.drop offset := by
  intro owned mapped
  have hagrees : owned.Agrees mapped := (agrees_new s pageSize decode).after grants
  obtain ⟨file, hbuffer, hfile, hpage⟩ :=
    exists_buffer_afterGranted_eq (r := .new (.mapped (.ofContents pageSize s.toOctets)) decode) rfl
      ⟨rfl, rfl⟩ grants
  have hreadable : mapped.buffer.Readable mapped.cursor := by
    rw [hagrees.cursor]
    exact hagrees.buffer.readable'
  have hrelease := hreadable.release granted
  obtain ⟨hnoting, hnotes⟩ := pullNoting_cases hreadable granted
  have hmapped : mapped.buffer = .mapped file := hbuffer
  rw [hmapped] at hreadable hrelease hnotes
  refine ⟨(hagrees.pullGranted true granted).1, hagrees.cursor, hagrees.records, file, hmapped, hfile.length,
    hreadable.floor, hreadable.offset, hrelease.floor, ?_, hnoting, ?_⟩
  . intro h
    have hcursor := file.cursor_le_window_release (hpage ▸ hpageSize) hreadable.offset h
    rwa [hpage] at hcursor
  . intro offset hoffset
    obtain ⟨hle, hlength⟩ := hnotes offset hoffset
    have hwindow : (file.release granted mapped.cursor).window ≤ offset := Nat.le_trans hrelease.floor hle
    exact ⟨hwindow, hlength, (hfile.release granted mapped.cursor).octetsFrom hwindow⟩

theorem eviction_invisible_refused :
    let s := Snapshot.ofOctets (Octets.ofString "<1>abcde\n<2>fghij\n<3>k")
    let owned := Source.after (Reader.new (.owned s) .full) 2
    let mapped := (Reader.new (.mapped (.ofContents 4 s.toOctets)) .full).afterGranted [true, false]
    (mapped.pullGranted true).1 = (Source.pull owned).1 ∧
      (mapped.pullGranted true).1.found?.map (·.message) = some (Octets.ofString "k") ∧
      mapped.buffer.floor = 0 ∧ (mapped.pullGranted true).2.buffer.floor = 16 ∧ mapped.cursor = 18 ∧
      (mapped.pullNoting true).2 = [18, 18] := by
  intro s owned mapped
  refine ⟨(eviction_invisible s (by decide) .full [true, false] true).1, ?_⟩
  decide +kernel

end Reader
end Legacy
end KernelLog
