import KernelLog.Proofs.Drain
import KernelLog.Proofs.Legacy.Pieces

/-!
This module relates the reader of the legacy encoding to the records of a text. Main statement: a reader of a
snapshot gives all of them, in order, and nothing else.
-/

namespace KernelLog.Legacy

namespace Buffer

def floor : Buffer → Nat
  | owned _ => 0
  | mapped file => file.window

def kept : Buffer → Octets
  | owned snapshot => snapshot.text
  | mapped file => file.mapped

theorem octetsFrom_of_floor_le {buffer : Buffer} {offset : Nat} (h : buffer.floor ≤ offset) :
    buffer.octetsFrom offset = buffer.kept.drop (offset - buffer.floor) := by
  cases buffer with
  | owned snapshot => rfl
  | mapped file => exact if_neg (Nat.not_lt.mpr h)

theorem exists_release_eq (buffer : Buffer) (granted : Bool) (cursor : Nat) :
    ∃ n, (buffer.release granted cursor).floor = buffer.floor + n ∧
      (buffer.release granted cursor).kept = buffer.kept.drop n ∧
      buffer.floor + n ≤ max buffer.floor cursor := by
  cases buffer with
  | owned snapshot => exact ⟨0, rfl, rfl, Nat.le_max_left _ _⟩
  | mapped file =>
    cases hbehind : file.behind? cursor with
    | none =>
      have hrelease : file.release granted cursor = file := by rw [MappedFile.release, hbehind]
      rw [release, hrelease]
      exact ⟨0, rfl, rfl, Nat.le_max_left _ _⟩
    | some extent =>
      cases granted with
      | false =>
        have hrelease : file.release false cursor = file := by
          rw [MappedFile.release, hbehind]
          rfl
        rw [release, hrelease]
        exact ⟨0, rfl, rfl, Nat.le_max_left _ _⟩
      | true =>
        refine ⟨extent.length, ?_, ?_, ?_⟩
        . simp [release, MappedFile.release, hbehind, floor]
        . simp [release, MappedFile.release, hbehind, kept]
        . rw [MappedFile.behind?] at hbehind
          split at hbehind
          . cases hbehind
          . cases hbehind
            have := Nat.div_mul_le_self (min cursor file.length - file.window) file.pageSize
            simp only [floor]
            omega

/--
The octets behind an offset can be read, and an offset past them is the end of the buffer or lies in zeros.
-/
structure Readable (buffer : Buffer) (offset : Nat) : Prop where
  floor : buffer.floor ≤ offset
  offset : offset ≤ buffer.length
  kept : buffer.floor + buffer.kept.length ≤ buffer.length

namespace Readable

variable {buffer : Buffer} {offset : Nat}

theorem octetsFrom_add (h : buffer.Readable offset) (n : Nat) :
    buffer.octetsFrom (offset + n) = (buffer.octetsFrom offset).drop n := by
  have := h.floor
  rw [octetsFrom_of_floor_le h.floor, octetsFrom_of_floor_le (Nat.le_add_right_of_le h.floor), List.drop_drop]
  congr 1
  omega

theorem length_octetsFrom_le (h : buffer.Readable offset) :
    offset + (buffer.octetsFrom offset).length ≤ buffer.length := by
  have := h.floor
  have := h.offset
  have := h.kept
  rw [octetsFrom_of_floor_le h.floor, List.length_drop]
  omega

theorem add (h : buffer.Readable offset) {n : Nat} (hn : offset + n ≤ buffer.length) :
    buffer.Readable (offset + n) :=
  { floor := Nat.le_add_right_of_le h.floor, offset := hn, kept := h.kept }

theorem release (h : buffer.Readable offset) (granted : Bool) :
    (buffer.release granted offset).Readable offset := by
  obtain ⟨n, hfloor, hkept, hn⟩ := exists_release_eq buffer granted offset
  have := h.floor
  have := h.kept
  have := h.offset
  refine ⟨?_, ?_, ?_⟩
  . rw [hfloor]
    omega
  . rw [length_release]
    exact h.offset
  . rw [hfloor, hkept, length_release, List.length_drop]
    omega

theorem octetsFrom_release (h : buffer.Readable offset) (granted : Bool) :
    (buffer.release granted offset).octetsFrom offset = buffer.octetsFrom offset := by
  obtain ⟨n, hfloor, hkept, -⟩ := exists_release_eq buffer granted offset
  have hrelease := (h.release granted).floor
  rw [octetsFrom_of_floor_le h.floor, octetsFrom_of_floor_le hrelease, hkept, List.drop_drop]
  congr 1
  omega

end Readable

structure Covers (buffer : Buffer) (span : Span) (p : Octets) (ps : List Octets) : Prop where
  record : (buffer.octetsFrom span.start).take (span.stop - span.start) = p
  next : buffer.Readable span.next
  rest : pieces (buffer.octetsFrom span.next) = ps

variable {buffer : Buffer} {offset : Nat}

theorem Readable.past_nul (h : buffer.Readable offset) :
    let start := offset + ((buffer.octetsFrom offset).takeWhile (· == Octet.nul)).length
    buffer.Readable start ∧
      buffer.octetsFrom start = (buffer.octetsFrom offset).dropWhile (· == Octet.nul) := by
  intro start
  have hlength := h.length_octetsFrom_le
  have htake := (List.takeWhile_prefix (· == Octet.nul) (l := buffer.octetsFrom offset)).length_le
  refine ⟨h.add (by omega), ?_⟩
  rw [h.octetsFrom_add]
  calc (buffer.octetsFrom offset).drop ((buffer.octetsFrom offset).takeWhile (· == Octet.nul)).length
    _ = ((buffer.octetsFrom offset).takeWhile (· == Octet.nul) ++
          (buffer.octetsFrom offset).dropWhile (· == Octet.nul)).drop
            ((buffer.octetsFrom offset).takeWhile (· == Octet.nul)).length := by
      rw [List.takeWhile_append_dropWhile]
    _ = (buffer.octetsFrom offset).dropWhile (· == Octet.nul) := List.drop_left

theorem Readable.past_boundary (h : buffer.Readable offset) {n : Nat}
    (hboundary : boundary? (buffer.octetsFrom offset) = some n) :
    buffer.Readable (offset + n + 1) ∧
      buffer.octetsFrom (offset + n + 1) = (buffer.octetsFrom offset).drop (n + 1) := by
  obtain ⟨-, hhead⟩ := cut_of_boundary?_eq_some _ n hboundary
  have hlength := h.length_octetsFrom_le
  have hlt : n + 1 < (buffer.octetsFrom offset).length := by
    rw [List.head?_drop] at hhead
    exact (List.getElem?_eq_some_iff.mp hhead).1
  rw [Nat.add_assoc]
  exact ⟨h.add (by omega), h.octetsFrom_add (n + 1)⟩

theorem Readable.octetsFrom_length (h : buffer.Readable offset) :
    buffer.Readable buffer.length ∧ buffer.octetsFrom buffer.length = [] := by
  have hoffset := h.offset
  have hlength := h.length_octetsFrom_le
  obtain ⟨n, hn⟩ := Nat.exists_eq_add_of_le hoffset
  rw [hn] at hlength ⊢
  refine ⟨h.add (by omega), ?_⟩
  rw [h.octetsFrom_add]
  apply List.drop_eq_nil_of_le
  omega

theorem span?_cases (h : buffer.Readable offset) :
    buffer.span? offset = none ∧ pieces (buffer.octetsFrom offset) = [] ∨
      ∃ span p ps, buffer.span? offset = some span ∧ pieces (buffer.octetsFrom offset) = p :: ps ∧
        buffer.Covers span p ps := by
  fun_induction span? buffer offset with
  | case1 offset hlength =>
    have := h.length_octetsFrom_le
    have hnil : buffer.octetsFrom offset = [] := by
      apply List.eq_nil_of_length_eq_zero
      omega
    rw [hnil]
    exact .inl ⟨rfl, rfl⟩
  | case2 offset hlength rest text hempty =>
    rw [List.isEmpty_iff] at hempty
    exact .inl ⟨rfl, pieces_of_dropWhile_eq_nil hempty⟩
  | case3 offset hlength rest start text hempty hboundary ih =>
    obtain ⟨hstart, htext⟩ : buffer.Readable start ∧ buffer.octetsFrom start = text := h.past_nul
    -- the newline directly behind the zeros cuts off nothing, and the search goes on behind it
    obtain ⟨hnext, hbehind⟩ := hstart.past_boundary (by rwa [htext])
    have hpieces : pieces (buffer.octetsFrom offset) = pieces (buffer.octetsFrom (start + 1)) := by
      rw [hbehind, htext]
      exact pieces_of_boundary?_eq_zero hboundary
    rw [hpieces]
    exact ih hnext
  | case4 offset hlength rest start text hempty n hn hboundary =>
    obtain ⟨hstart, htext⟩ : buffer.Readable start ∧ buffer.octetsFrom start = text := h.past_nul
    obtain ⟨hnext, hbehind⟩ := hstart.past_boundary (by rwa [htext])
    refine .inr ⟨_, _, _, rfl, pieces_of_boundary?_eq_succ hn hboundary, ?_, hnext, ?_⟩
    . rw [Nat.add_sub_cancel_left, htext]
    . rw [hbehind, htext]
  | case5 offset hlength rest start text hempty hboundary =>
    obtain ⟨hstart, htext⟩ : buffer.Readable start ∧ buffer.octetsFrom start = text := h.past_nul
    obtain ⟨hnext, hnil⟩ := h.octetsFrom_length
    rw [List.isEmpty_iff] at hempty
    refine .inr ⟨_, _, _, rfl, pieces_of_boundary?_eq_none hempty hboundary, ?_, hnext, ?_⟩
    . obtain ⟨n, hn⟩ := exists_dropTrailingZeros_append text
      rw [Nat.add_sub_cancel_left, htext]
      calc text.take (dropTrailingZeros text).length
        _ = (dropTrailingZeros text ++ List.replicate n Octet.nul).take (dropTrailingZeros text).length := by
          rw [← hn]
        _ = dropTrailingZeros text := List.take_left
    . rw [hnil]
      rfl

end Buffer

namespace Reader

variable {r : Reader}

def coming (r : Reader) : List Octets :=
  pieces (r.buffer.octetsFrom r.cursor)

theorem pullGranted_cases (h : r.buffer.Readable r.cursor) (granted : Bool) :
    (r.coming = [] ∧
        r.pullGranted granted =
          (.done,
            { r with buffer := r.buffer.release granted r.cursor, cursor := r.buffer.length })) ∨
      ∃ p ps r', r.coming = p :: ps ∧ r.pullGranted granted = (.found (Legacy.decode r.decode p), r') ∧
        r'.coming = ps ∧ r'.buffer.Readable r'.cursor ∧ r'.buffer.length = r.buffer.length ∧
        r'.decode = r.decode ∧ r'.records = r.records + 1 := by
  have hrelease := h.release granted
  have hcoming : r.coming = pieces ((r.buffer.release granted r.cursor).octetsFrom r.cursor) := by
    rw [h.octetsFrom_release granted]
    rfl
  unfold pullGranted
  dsimp only
  rcases Buffer.span?_cases hrelease with ⟨hspan, hpieces⟩ | ⟨span, p, ps, hspan, hpieces, hcovers⟩
  . rw [hspan, Buffer.length_release]
    exact .inl ⟨hcoming.trans hpieces, rfl⟩
  . rw [hspan]
    dsimp only
    rw [hcovers.record]
    refine .inr ⟨p, ps, _, hcoming.trans hpieces, rfl, ?_⟩
    exact ⟨hcovers.rest, hcovers.next, Buffer.length_release _ _ _, rfl, rfl⟩

theorem pull_of_length_le_cursor (h : r.buffer.length ≤ r.cursor) :
    r.pull = (.done, { r with buffer := r.buffer.release true r.cursor, cursor := r.buffer.length }) := by
  have hspan : (r.buffer.release true r.cursor).span? r.cursor = none := by
    rw [Buffer.span?, if_pos]
    rwa [Buffer.length_release]
  unfold pull pullGranted
  simp only [hspan, Buffer.length_release]

theorem pull_after_of_length_le_cursor (h : r.buffer.length ≤ r.cursor) (n : Nat) :
    (Source.pull (Source.after r n)).1 = .done := by
  induction n generalizing r with
  | zero => exact congrArg Prod.fst (pull_of_length_le_cursor h)
  | succ n ih =>
    have hpull : Source.pull r = _ := pull_of_length_le_cursor h
    rw [Source.after, hpull]
    exact ih (Nat.le_of_eq (Buffer.length_release _ _ _))

structure Drains (r : Reader) (all : List Octets) (drained : Drained Reader) : Prop where
  records : drained.records = all.map (Legacy.decode r.decode)
  last : drained.last = .done
  length : drained.source.buffer.length = r.buffer.length
  cursor : drained.source.cursor = r.buffer.length
  counted : drained.source.records = r.records + all.length

theorem drain (h : r.buffer.Readable r.cursor) : Drains r r.coming (Source.drain r) := by
  induction r using Source.drain.induct with
  | case1 r record r' hpull ih =>
    rcases pullGranted_cases h true with ⟨-, hdone⟩ | ⟨p, ps, r'', hcoming, hfound, hrest⟩
    . have := hpull.symm.trans hdone
      simp at this
    . obtain ⟨hrecord, rfl⟩ : Legacy.decode r.decode p = record ∧ r'' = r' := by
        have := hfound.symm.trans hpull
        rwa [Prod.mk.injEq, Pull.found.injEq] at this
      obtain ⟨hps, hreadable, hlength, hdecode, hrecords⟩ := hrest
      have hrest := ih hreadable
      rw [Source.drain_of_found hpull, hcoming]
      exact
        { records := by rw [hrest.records, hps, hdecode, ← hrecord, List.map_cons]
          last := hrest.last
          length := hrest.length.trans hlength
          cursor := hrest.cursor.trans hlength
          counted := by
            have := hrest.counted
            rw [hps, hrecords] at this
            rw [this, List.length_cons]
            omega }
  | case2 r last r' hnot hpull =>
    rcases pullGranted_cases h true with ⟨hcoming, hdone⟩ | ⟨p, ps, r'', -, hfound, -⟩
    . obtain ⟨hlast, hr'⟩ := Prod.mk.inj (hpull.symm.trans hdone)
      rw [Source.drain_of_not_found hpull (Pull.isFound_eq_false hnot), hcoming, hlast, hr']
      exact
        { records := rfl, last := rfl, length := Buffer.length_release _ _ _, cursor := rfl, counted := rfl }
    . have := hpull.symm.trans hfound
      rw [Prod.mk.injEq] at this
      exact absurd this.1 (hnot _)

theorem readable_new_owned (s : Snapshot) (decode : Decode) :
    let r := Reader.new (.owned s) decode
    r.buffer.Readable r.cursor :=
  { floor := Nat.le_refl _, offset := Nat.zero_le _
    kept := by
      simp only [new, Buffer.floor, Buffer.kept, Buffer.length, Snapshot.length]
      omega }

theorem coming_new_owned (s : Snapshot) (decode : Decode) :
    (Reader.new (.owned s) decode).coming = pieces s.toOctets := by
  rw [Snapshot.toOctets, pieces_append_zeros]
  rfl

/--
What a reader of a snapshot gives: the records of its octets, which may be any. After that it is at the end and
stays there. What is in no record are zeros at the beginning and at the end, and newlines directly before an
opening angle bracket.
-/
theorem drain_eq_pieces (s : Snapshot) (decode : Decode) :
    let ps := pieces s.toOctets
    let drained := Source.drain (Reader.new (.owned s) decode)
    drained.records = ps.map (Legacy.decode decode) ∧ drained.last = .done ∧
      drained.source.cursor = s.toOctets.length ∧ drained.source.records = ps.length ∧
      (∀ n, (Source.pull (Source.after drained.source n)).1 = .done) ∧
      ∃ lead trail front,
        s.toOctets = List.replicate lead Octet.nul ++ front ++ [Octet.newline].intercalate ps ++
          List.replicate trail Octet.nul ∧
        (front = [] ∧ (∀ p ∈ ps.tail, p.head? = some Octet.less) ∨
          front = [Octet.newline] ∧ ps ≠ [] ∧ ∀ p ∈ ps, p.head? = some Octet.less) := by
  have hdrains := drain (readable_new_owned s decode)
  rw [coming_new_owned] at hdrains
  have hlength : s.toOctets.length = (Buffer.owned s).length := Snapshot.length_toOctets s
  refine ⟨hdrains.records, hdrains.last, ?_, ?_, ?_, exists_eq_append_pieces _⟩
  . rw [hlength]
    exact hdrains.cursor
  . rw [hdrains.counted]
    exact Nat.zero_add _
  . apply pull_after_of_length_le_cursor
    exact Nat.le_of_eq (hdrains.length.trans hdrains.cursor.symm)

end Reader
end KernelLog.Legacy
