import KernelLog.Proofs.Kmsg.Steps

/-!
This module contains the invariant of a reader with buffers. Main statement: whatever a device does that tells of no
more octets than there are in the buffer, no index is ever out of range and no difference negative.
-/

namespace KernelLog

theorem Octets.length_of_slice?_eq_some {s t : Octets} {start stop : Nat} (h : s.slice? start stop = some t) :
    start ≤ stop ∧ stop ≤ s.length ∧ t.length = stop - start := by
  unfold slice? at h
  split at h
  . next hrange =>
    cases h
    refine ⟨hrange.1, hrange.2, ?_⟩
    rw [List.length_drop, List.length_take, Nat.min_eq_left hrange.2]
  . cases h

namespace Kmsg

variable {δ : Type} {port : Port δ} {point point' : Point}

theorem Physical.range_walk? {raw : Octets} {header : Header} {start stop : Nat}
    (h : walk? raw = some (header, start, stop)) : start ≤ stop ∧ stop ≤ raw.length := by
  rw [walk?_eq] at h
  cases h
  obtain ⟨hrange, hstop, -⟩ := start_le_stop_le_length raw
  exact ⟨hrange, hstop⟩

namespace Buffered

variable {b b' : Buffered δ}

theorem range_unescape? {start stop stop' : Nat} (h : b.unescape? start stop = some (stop', b')) :
    start ≤ stop' ∧ stop' ≤ stop ∧ b'.length = b.length := by
  obtain ⟨escaped, hslice, heq⟩ := Option.bind_eq_some_iff.mp h
  obtain ⟨hrange, -, hlength⟩ := Octets.length_of_slice?_eq_some hslice
  obtain ⟨left, -, hend, hleft⟩ := Escape.exists_unhexInPlace_eq escaped
  generalize Escape.unhexInPlace escaped.toArray = unescaped at *
  cases heq
  exact ⟨Nat.le_add_right _ _, by omega, rfl⟩

theorem range_takeIn? {header : Header} {start stop : Nat}
    (h : b.takeIn? = some (some (.physical header start stop), b')) : start ≤ stop ∧ stop ≤ b'.length := by
  obtain ⟨raw, hraw, h⟩ := Option.bind_eq_some_iff.mp h
  obtain ⟨⟨header', start', stop'⟩, hwalk, h⟩ := Option.bind_eq_some_iff.mp h
  obtain ⟨-, -, hlength⟩ := Octets.length_of_slice?_eq_some hraw
  obtain ⟨-, hstop'⟩ := Physical.range_walk? hwalk
  have hunescaped {stop'' : Nat} {b'' : Buffered δ} (hunescape : b.unescape? start' stop' = some (stop'', b'')) :
      start' ≤ stop'' ∧ stop'' ≤ b''.length := by
    obtain ⟨hstart, hstop, hkept⟩ := range_unescape? hunescape
    exact ⟨hstart, by omega⟩
  dsimp only at h
  split at h
  . obtain ⟨appended, -, heq⟩ := Option.bind_eq_some_iff.mp h
    cases heq
  . obtain ⟨appended, -, heq⟩ := Option.bind_eq_some_iff.mp h
    cases heq
  . obtain ⟨appended, -, heq⟩ := Option.bind_eq_some_iff.mp h
    cases heq
  . cases h
  . obtain ⟨⟨stop'', unescaped⟩, hunescape, heq⟩ := Option.bind_eq_some_iff.mp h
    cases heq
    exact hunescaped hunescape
  . obtain ⟨⟨stop'', unescaped⟩, hunescape, heq⟩ := Option.bind_eq_some_iff.mp h
    cases heq
    exact hunescaped hunescape

theorem isSome_header_of_tells {g : Gathered} (h : b.Tells .fragment g) : b.header.isSome := by
  cases h with
  | fragment hfragment =>
    obtain ⟨header, hheader, -⟩ := Option.map_eq_some_iff.mp hfragment
    exact Option.isSome_of_eq_some hheader

theorem Sound.length_le (h : b.Sound) : b.length ≤ b.buffer.length :=
  h.buffer ▸ h.length

theorem Sound.length_take (h : b.Sound) : (b.buffer.take b.length).length = b.length := by
  rw [List.length_take, Nat.min_eq_left h.length_le]

theorem Sound.exists_read?_eq (h : b.Sound) (hroom : port.InRoom) :
    ∃ arrival buffer device, b.read? port = some (arrival, { b with buffer, device }) ∧ buffer.length = bufferSize ∧
      ∀ raw, arrival = .record raw → raw.length ≤ bufferSize := by
  have hsize := (port.length_read b.device b.buffer).trans h.buffer
  rcases hread : port.read b.device b.buffer with ⟨outcome, buffer, device⟩
  rw [hread] at hsize
  cases outcome with
  | error fault =>
    refine ⟨.ofRead (.error fault), buffer, device, ?_, hsize, ?_⟩
    . rw [read?, hread]
    . intro raw hraw
      cases (Arrival.ofRead_eq_record_iff.mp hraw).1
  | ok n =>
    have hn : n ≤ buffer.length := by
      have := hroom b.device b.buffer n (by rw [hread])
      rwa [h.buffer, ← hsize] at this
    have hslice : buffer.slice? 0 n = some (buffer.take n) := if_pos ⟨Nat.zero_le n, hn⟩
    refine ⟨.ofRead (.ok (buffer.take n)), buffer, device, ?_, hsize, ?_⟩
    . rw [read?, hread]
      dsimp only
      rw [hslice, Option.map_some]
    . intro raw hraw
      cases (Arrival.ofRead_eq_record_iff.mp hraw).1
      exact Nat.le_trans (List.length_take_le' n buffer) (Nat.le_of_eq hsize)

end Buffered

def Point.Holds (b : Buffered δ) : Point → Prop
  | opening => b.saved = none ∧ b.parked = none
  | refused _ => True
  | idle _ => True
  | turning => b.parked = none
  | reading => b.saved = none ∧ b.parked = none
  | decoding => b.saved = none ∧ b.parked = none
  | giving (.physical _ start stop) => start ≤ stop ∧ stop ≤ b.length
  | giving .fragment => b.header.isSome
  | giving .done => True
  | giving (.failed _) => True

namespace Buffered

variable {b b' : Buffered δ}

/--
The invariant: everything fits into the buffers, a record that is saved and a fault that is parked exclude each other,
and there is what the point of the program takes for granted.
-/
structure Invariant (point : Point) (b : Buffered δ) : Prop extends Sound b where
  exclusive : b.saved = none ∨ b.parked = none
  holds : point.Holds b

def Proceeds (found : Option (Point × Buffered δ)) : Prop :=
  ∃ point b, found = some (point, b) ∧ Invariant point b

theorem Sound.invariant_atEnd (h : b.Sound) (hparked : b.parked = none) : Invariant (.giving b.atEnd) b := by
  refine { h with exclusive := .inr hparked, holds := ?_ }
  unfold atEnd
  split
  . next hheader => exact Option.isSome_of_eq_some hheader
  . trivial

theorem Sound.invariant_onFault (h : b.Sound) (hsaved : b.saved = none) (fault : Fault) :
    Invariant (.giving (b.onFault fault).1) (b.onFault fault).2 := by
  unfold Buffered.onFault
  split
  . next hheader => exact { h with exclusive := .inl hsaved, holds := Option.isSome_of_eq_some hheader }
  . exact { h with exclusive := .inl hsaved, holds := trivial }

theorem Sound.invariant_takeIn? (h : b.Sound) (hparked : b.parked = none) :
    ∃ next b', b.takeIn? = some (next, b') ∧ Invariant (.after next) b' := by
  obtain ⟨next, b', htake, hsound, htoReader, htells⟩ :=
    h.takeIn? (List.take_append_drop b.length _).symm h.length_take.symm
  have hparked' : b'.parked = none := by
    rw [← hparked, show b'.parked = b'.toReader.parked from rfl, htoReader, Reader.parked_takeIn]
    rfl
  refine ⟨next, b', htake, { hsound with exclusive := .inr hparked', holds := ?_ }⟩
  generalize (b.toReader.takeIn _).1 = gathered at htells
  cases htells with
  | none => exact hparked'
  | @some next g htells =>
    cases next with
    | physical header start stop => exact range_takeIn? htake
    | fragment => exact isSome_header_of_tells htells
    | done => trivial
    | failed fault => trivial

theorem Sound.invariant_deliver? {next : Next} (h : b.Sound) (hholds : (Point.giving next).Holds b)
    (hexclusive : b.saved = none ∨ b.parked = none) :
    ∃ given b', b.deliver? next = some (given, b') ∧ Invariant (.idle (some given)) b' := by
  cases next with
  | physical header start stop =>
    obtain ⟨hstart, hstop⟩ := hholds
    have hrange : start ≤ stop ∧ stop ≤ b.buffer.length := ⟨hstart, Nat.le_trans hstop h.length_le⟩
    rw [Buffered.deliver?, Octets.slice?, if_pos hrange]
    exact ⟨_, _, rfl, { h with exclusive := hexclusive, holds := trivial }⟩
  | fragment => exact ⟨_, _, rfl, { h with exclusive := hexclusive, holds := trivial }⟩
  | done => exact ⟨_, _, rfl, { h with exclusive := hexclusive, holds := trivial }⟩
  | failed fault => exact ⟨_, _, rfl, { h with exclusive := hexclusive, holds := trivial }⟩

namespace Invariant

theorem turning (h : Invariant .turning b) : Proceeds (b.step? port .turning) := by
  have hparked : b.parked = none := h.holds
  rw [Buffered.step?]
  split
  . next raw hraw =>
    -- a record that is saved was read into a buffer of the same size
    obtain ⟨rest, hoverwrite, hlength⟩ := Octets.exists_overwrite?_eq (h.buffer ▸ h.saved raw hraw)
    rw [load?, hoverwrite]
    refine ⟨_, _, rfl, ?_⟩
    exact
      { h with
        buffer := hlength.trans h.buffer
        length := h.saved raw hraw
        saved := by simp
        exclusive := .inr hparked
        holds := ⟨rfl, hparked⟩ }
  . next hsaved =>
    split
    . next hheader =>
      have hfragment := Option.isSome_of_eq_some hheader
      dsimp only
      split
      . exact ⟨_, _, rfl, { h with exclusive := .inl hsaved, holds := ⟨hsaved, hparked⟩ }⟩
      . exact ⟨_, _, rfl, { h with exclusive := .inl hsaved, holds := hfragment }⟩
      . exact ⟨_, _, rfl, { h with exclusive := .inl hsaved, holds := hfragment }⟩
    . exact ⟨_, _, rfl, { h with exclusive := .inl hsaved, holds := ⟨hsaved, hparked⟩ }⟩

theorem reading (h : Invariant .reading b) (hroom : port.InRoom) : Proceeds (b.step? port .reading) := by
  obtain ⟨hsaved, hparked⟩ := h.holds
  obtain ⟨arrival, buffer, device, hread, hbuffer, hraw⟩ := h.exists_read?_eq hroom
  have hsound : Sound { b with buffer, device } := { h with buffer := hbuffer }
  rw [Buffered.step?, hread]
  cases arrival with
  | record raw =>
    exact ⟨_, _, rfl, { hsound with length := hraw raw rfl, exclusive := .inl hsaved, holds := ⟨hsaved, hparked⟩ }⟩
  | dry => exact ⟨_, _, rfl, hsound.invariant_atEnd hparked⟩
  | retry => exact ⟨_, _, rfl, { hsound with exclusive := .inl hsaved, holds := hparked }⟩
  | failed fault => exact ⟨_, _, rfl, hsound.invariant_onFault hsaved fault⟩

theorem opening (h : Invariant .opening b) (hroom : port.InRoom) : Proceeds (b.step? port .opening) := by
  obtain ⟨hsaved, hparked⟩ := h.holds
  obtain ⟨arrival, buffer, device, hread, hbuffer, hraw⟩ := h.exists_read?_eq hroom
  have hsound : Sound { b with buffer, device } := { h with buffer := hbuffer }
  rw [Buffered.step?, hread]
  cases arrival with
  | record raw =>
    have hfits : ∀ saved, some raw = some saved → saved.length ≤ bufferSize := by
      rintro saved ⟨⟩
      exact hraw raw rfl
    exact ⟨_, _, rfl, { hsound with saved := hfits, exclusive := .inr hparked, holds := trivial }⟩
  | dry => exact ⟨_, _, rfl, { hsound with exclusive := .inr hparked, holds := trivial }⟩
  | retry => exact ⟨_, _, rfl, { hsound with exclusive := .inr hparked, holds := ⟨hsaved, hparked⟩ }⟩
  | failed fault => exact ⟨_, _, rfl, { hsound with exclusive := .inr hparked, holds := trivial }⟩

theorem idle {given : Option (Pull Record Fault)} (h : Invariant (.idle given) b) :
    Proceeds (b.step? port (.idle given)) := by
  have hforget := h.toSound.forget.1
  rw [Buffered.step?]
  split
  . exact ⟨_, _, rfl, { hforget with exclusive := .inr rfl, holds := trivial }⟩
  . next hnone => exact ⟨_, _, rfl, { hforget with exclusive := .inr hnone, holds := hnone }⟩

theorem step? (h : Invariant point b) (hroom : port.InRoom) (hpoint : ∀ fault, point ≠ .refused fault) :
    Proceeds (b.step? port point) := by
  cases point with
  | opening => exact h.opening hroom
  | refused fault => exact absurd rfl (hpoint fault)
  | idle given => exact h.idle
  | turning => exact h.turning
  | reading => exact h.reading hroom
  | decoding =>
    obtain ⟨next, b', htake, hinvariant⟩ := h.invariant_takeIn? h.holds.2
    rw [Buffered.step?, htake]
    exact ⟨_, b', rfl, hinvariant⟩
  | giving next =>
    obtain ⟨given, b', hdeliver, hinvariant⟩ := h.invariant_deliver? h.holds h.exclusive
    rw [Buffered.step?, hdeliver]
    exact ⟨_, b', rfl, hinvariant⟩

end Invariant

theorem Reached.invariant (h : Reached port point b) (hroom : port.InRoom) : Invariant point b := by
  induction h with
  | new device follow => exact { sound_new device follow with exclusive := .inl rfl, holds := trivial }
  | opening device follow => exact { sound_new device follow with exclusive := .inl rfl, holds := ⟨rfl, rfl⟩ }
  | exchanged device _ ih => exact { ih with }
  | @stepped point point' b b' _ hstep ih =>
    have hpoint : ∀ fault, point ≠ .refused fault := by
      rintro fault rfl
      cases hstep
    obtain ⟨point'', b'', hstep', hinvariant⟩ := ih.step? hroom hpoint
    cases hstep.symm.trans hstep'
    exact hinvariant

def HoldsMessage (b : Buffered δ) : Prop :=
  ∃ raw header start stop stop' b', b.buffer.slice? 0 b.length = some raw ∧
    Physical.walk? raw = some (header, start, stop) ∧ start ≤ stop ∧ stop ≤ b.length ∧
    b.unescape? start stop = some (stop', b') ∧ start ≤ stop' ∧ stop' ≤ b'.length

theorem Sound.holdsMessage (h : b.Sound) : b.HoldsMessage := by
  have hslice : b.buffer.slice? 0 b.length = some (b.buffer.take b.length) := if_pos ⟨Nat.zero_le _, h.length_le⟩
  have hwalk := Physical.walk?_eq (b.buffer.take b.length)
  obtain ⟨hstart, hstop⟩ := Physical.range_walk? hwalk
  obtain ⟨front, behind, -, -, hunescape⟩ := exists_unescape?_eq (List.take_append_drop b.length b.buffer).symm
  obtain ⟨hstart', hstop', hkept⟩ := range_unescape? hunescape
  rw [h.length_take] at hstop
  exact ⟨_, _, _, _, _, _, hslice, hwalk, hstart, hstop, hunescape, hstart', by omega⟩

/--
At a point of the program nothing is too long, no difference is negative, and a step that takes octets at indices has a
result. What is saved can be written into the buffer again; a message stands inside its record; a fragment that is given
has the header of its first record; and a record is never saved while a fault is parked.
-/
structure InBounds (port : Port δ) (point : Point) (b : Buffered δ) : Prop where
  length : b.length ≤ bufferSize
  fragment : b.fragment.length ≤ bufferSize
  saved : ∀ raw, b.saved = some raw → raw.length ≤ bufferSize
  loaded : ∀ raw, b.saved = some raw → (b.load? raw).isSome
  room : (Nat.psub bufferSize b.fragment.length).isSome
  decoded : point = .decoding → b.HoldsMessage
  physical : ∀ header start stop, point = .giving (.physical header start stop) → start ≤ stop ∧ stop ≤ b.length
  header : point = .giving .fragment → b.header.isSome
  exclusive : ¬(b.parked.isSome ∧ b.saved.isSome)
  step : (∀ fault, point ≠ .refused fault) → (b.step? port point).isSome

theorem Invariant.inBounds (h : Invariant point b) (hroom : port.InRoom) : InBounds port point b where
  length := h.length
  fragment := h.fragment
  saved := h.saved
  loaded raw hraw := by
    obtain ⟨rest, hoverwrite, -⟩ := Octets.exists_overwrite?_eq (h.buffer ▸ h.saved raw hraw)
    rw [load?, hoverwrite]
    rfl
  room := by
    rw [Nat.psub_eq_sub h.fragment]
    rfl
  decoded _ := h.holdsMessage
  physical header start stop hpoint := by
    subst hpoint
    exact h.holds
  header hpoint := by
    subst hpoint
    exact h.holds
  exclusive := by
    rintro ⟨hparked, hsaved⟩
    rcases h.exclusive with hnone | hnone
    . rw [hnone] at hsaved
      cases hsaved
    . rw [hnone] at hparked
      cases hparked
  step hpoint := by
    obtain ⟨point', b', hstep, -⟩ := h.step? hroom hpoint
    rw [hstep]
    rfl

/--
If a device tells of no more octets than there are in the buffer, everything that a reader comes to is in bounds. This
is so at any point of its program, however many records, faults and waits there are. All that comes of opening a
device and of pulling is reached in this way.
-/
theorem inBounds_of_reached :
    (∀ (port : Port δ), port.InRoom → ∀ point b, Reached port point b → InBounds port point b) ∧
      ∀ [Device δ] (litter : δ → Octets → Octets) (hlitter : KeepsSize litter), Device.InRoom δ →
        (Port.ofDevice litter hlitter).InRoom ∧
        (∀ device follow, Reached (.ofDevice litter hlitter) (.idle none) (new device follow) ∧
          (new device follow).toReader = Reader.new device follow) ∧
        (∀ device follow r, Reader.openDevice device follow = .ok r →
          ∃ b, Reached (.ofDevice litter hlitter) (.idle none) b ∧ b.toReader = r) ∧
        ∀ given b, Reached (.ofDevice litter hlitter) (.idle given) b →
          ∃ b', Reached (.ofDevice litter hlitter) (.idle (some b.toReader.pull.1)) b' ∧
            b'.toReader = b.toReader.pull.2 := by
  refine ⟨fun port hroom point b h => (h.invariant hroom).inBounds hroom, ?_⟩
  intro _ litter hlitter hroom
  have hport := Port.inRoom_ofDevice hroom hlitter
  refine ⟨hport, fun device follow => ⟨.new device follow, rfl⟩, ?_, ?_⟩
  . intro device follow r hopen
    exact exists_reached_openDevice hroom hopen
  . intro given b h
    obtain ⟨b', hpull, -, htoReader⟩ := (h.invariant hport).toSound.pull? hroom hlitter
    exact ⟨b', h.pull? hroom hpull, htoReader⟩

theorem inBounds_of_reached_brokenOff :
    let brokenOff : Script :=
      .ofLists [.ok (Octets.ofString "6,1,5,c;ab"), .ok (Octets.ofString "4,2,6;cd")] []
    let litter : Script → Octets → Octets := fun _ buffer => buffer.map (· + 1)
    ∃ hlitter : KeepsSize litter, ∃ given b opened,
      Reached (.ofDevice litter hlitter) (.idle given) b ∧ InBounds (.ofDevice litter hlitter) (.idle given) b ∧
      b.toReader = (Reader.new brokenOff true).pull.2 ∧ b.saved = some (Octets.ofString "4,2,6;cd") ∧
      Reached (.ofDevice litter hlitter) (.idle none) opened ∧
      Reader.openDevice brokenOff true = .ok opened.toReader ∧
      opened.saved = some (Octets.ofString "6,1,5,c;ab") := by
  intro brokenOff litter
  have hlitter : KeepsSize litter := fun _ _ => List.length_map _
  obtain ⟨hroom, hnew, hopened, hpulled⟩ := inBounds_of_reached.2 litter hlitter Script.inRoom
  obtain ⟨b, hreached, htoReader⟩ := hpulled none (new brokenOff true) (hnew brokenOff true).1
  have hopen : (Reader.openDevice brokenOff true).toOption.bind Reader.saved = some (Octets.ofString "6,1,5,c;ab") := by
    decide +kernel
  cases hr : Reader.openDevice brokenOff true with
  | error fault =>
    rw [hr] at hopen
    cases hopen
  | ok r =>
    rw [hr] at hopen
    obtain ⟨opened, hreached', htoReader'⟩ := hopened brokenOff true r hr
    refine
      ⟨hlitter, _, b, opened, hreached, inBounds_of_reached.1 _ hroom _ b hreached, htoReader, ?_, hreached', ?_, ?_⟩
    . rw [show b.saved = b.toReader.saved from rfl, htoReader]
      decide +kernel
    . rw [htoReader']
    . rw [show opened.saved = opened.toReader.saved from rfl, htoReader']
      exact hopen

end Buffered
end Kmsg
end KernelLog
