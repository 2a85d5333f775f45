import KernelLog.Proofs.Kmsg.Simulation

/-!
This module takes a reader with buffers apart into steps from one point of its program to the next, and contains all
that it can come to, over any device and between any two steps.
-/

namespace KernelLog.Kmsg

variable {δ : Type}

/--
The calls of a device on a buffer. A read writes into the buffer, whose size it cannot change, and tells how many octets
at the front of it are the record. Nothing is said about how many reads there may be.
-/
structure Port (δ : Type) where
  read : δ → Octets → Except Fault Nat × Octets × δ
  wait : δ → Except Fault Bool × δ
  length_read : ∀ device buffer, (read device buffer).2.1.length = buffer.length

namespace Port

def InRoom (port : Port δ) : Prop :=
  ∀ device buffer n, (port.read device buffer).1 = .ok n → n ≤ buffer.length

def ofDevice [Device δ] (litter : δ → Octets → Octets) (hlitter : KeepsSize litter) : Port δ where
  read device buffer :=
    let left := litter device buffer
    let (outcome, device) := Device.read buffer.length device
    match outcome with
    | .ok raw => (.ok raw.length, (raw ++ left.drop raw.length).take buffer.length, device)
    | .error fault => (.error fault, left, device)
  wait := Device.wait
  length_read device buffer := by
    have hleft : (litter device buffer).length = buffer.length := hlitter device buffer
    dsimp only
    split
    . simp only [List.length_take, List.length_append, List.length_drop, hleft]
      omega
    . exact hleft

theorem inRoom_ofDevice [Device δ] (hroom : Device.InRoom δ) {litter : δ → Octets → Octets}
    (hlitter : KeepsSize litter) : (ofDevice litter hlitter).InRoom := by
  intro device buffer n h
  dsimp only [ofDevice] at h
  split at h
  . next raw hread =>
    cases h
    exact hroom buffer.length device raw hread
  . cases h

end Port

/--
The points of the program: at the first read of a device, which may refuse it; between two pulls, with what the last one
gave; at the beginning of a turn; before a read; with a record in the buffer; and with something to give.
-/
inductive Point where
  | opening
  | refused (fault : Fault)
  | idle (given : Option (Pull Record Fault))
  | turning
  | reading
  | decoding
  | giving (next : Next)

def Point.after : Option Next → Point
  | none => turning
  | some next => giving next

namespace Buffered

def read? (port : Port δ) (b : Buffered δ) : Option (Arrival × Buffered δ) :=
  let (outcome, buffer, device) := port.read b.device b.buffer
  let b := { b with buffer, device }
  match outcome with
  | .ok n => (buffer.slice? 0 n).map fun raw => (.ofRead (.ok raw), b)
  | .error fault => some (.ofRead (.error fault), b)

def step? (port : Port δ) (b : Buffered δ) : Point → Option (Point × Buffered δ)
  | .opening => do
    let (arrival, b) ← b.read? port
    match arrival with
    | .record raw => return (.idle none, { b with saved := some raw, reads := b.reads + 1 })
    | .retry => return (.opening, { b with retries := b.retries + 1 })
    | .dry => return (.idle none, b)
    | .failed fault => return (.refused fault, b)
  | .refused _ => none
  | .idle _ =>
    let b := b.forget
    match b.parked with
    | some fault => some (.idle (some (.failed fault)), { b with parked := none })
    | none => some (.turning, b)
  | .turning =>
    match b.saved with
    | some raw => do return (.decoding, ← { b with saved := none }.load? raw)
    | none =>
      match b.follow, b.header with
      | true, some _ =>
        let (outcome, device) := port.wait b.device
        let b := { b with device }
        match outcome with
        | .ok true => some (.reading, b)
        | .ok false => some (.giving .fragment, b)
        | .error fault => some (.giving .fragment, { b with parked := some fault })
      | _, _ => some (.reading, b)
  | .reading => do
    let (arrival, b) ← b.read? port
    match arrival with
    | .record raw => return (.decoding, { b with length := raw.length, reads := b.reads + 1 })
    | .retry => return (.turning, { b with retries := b.retries + 1 })
    | .dry => return (.giving b.atEnd, b)
    | .failed fault =>
      let (next, b) := b.onFault fault
      return (.giving next, b)
  | .decoding => do
    let (next, b) ← b.takeIn?
    return (.after next, b)
  | .giving next => do
    let (given, b) ← b.deliver? next
    return (.idle (some given), b)

/--
All that a reader can come to: one that has read nothing yet and one that is about to open its device, any number of
steps from there, and anything that happens to the device between two pulls.
-/
inductive Reached (port : Port δ) : Point → Buffered δ → Prop where
  | new (device : δ) (follow : Bool) : Reached port (.idle none) (.new device follow)
  | opening (device : δ) (follow : Bool) : Reached port .opening (.new device follow)
  | exchanged {given : Option (Pull Record Fault)} {b : Buffered δ} (device : δ) :
    Reached port (.idle given) b → Reached port (.idle given) { b with device }
  | stepped {point point' : Point} {b b' : Buffered δ} : Reached port point b →
    b.step? port point = some (point', b') → Reached port point' b'

section

variable {port : Port δ} {b b' : Buffered δ} {next : Option Next}

theorem Reached.takeIn? (h : Reached port .decoding b) (htake : b.takeIn? = some (next, b')) :
    Reached port (.after next) b' := by
  refine h.stepped ?_
  rw [step?, htake]
  rfl

variable [Device δ] {litter : δ → Octets → Octets} {hlitter : KeepsSize litter}

theorem exists_read?_ofDevice (hlitter : KeepsSize litter) (hroom : Device.InRoom δ) (b : Buffered δ) :
    ∃ buffer, buffer.length = b.buffer.length ∧
      b.read? (.ofDevice litter hlitter) =
        some
          (.ofRead (Device.read b.buffer.length b.device).1,
            { b with buffer, device := (Device.read b.buffer.length b.device).2 }) ∧
      (∀ raw, Arrival.ofRead (Device.read b.buffer.length b.device).1 = .record raw →
        (litter b.device b.buffer).overwrite? raw = some buffer) ∧
      ((∀ raw, Arrival.ofRead (Device.read b.buffer.length b.device).1 ≠ .record raw) →
        buffer = litter b.device b.buffer) := by
  have hleft : (litter b.device b.buffer).length = b.buffer.length := hlitter b.device b.buffer
  rcases hread : Device.read b.buffer.length b.device with ⟨outcome, device⟩
  cases outcome with
  | error fault =>
    refine ⟨_, hleft, ?_, ?_, fun _ => rfl⟩
    . rw [read?]
      dsimp only [Port.ofDevice]
      rw [hread]
    . intro raw hraw
      cases (Arrival.ofRead_eq_record_iff.mp hraw).1
  | ok raw =>
    have hraw : raw.length ≤ b.buffer.length := hroom b.buffer.length b.device raw (by rw [hread])
    let buffer := raw ++ (litter b.device b.buffer).drop raw.length
    have hoverwrite : (litter b.device b.buffer).overwrite? raw = some buffer := by
      rw [Octets.overwrite?, Octets.from?, if_pos (hleft ▸ hraw), Option.map_some]
    have hlength : buffer.length = b.buffer.length := by
      simp only [buffer, List.length_append, List.length_drop, hleft]
      omega
    have htake : buffer.take b.buffer.length = buffer := List.take_of_length_le (Nat.le_of_eq hlength)
    refine ⟨buffer, hlength, ?_, ?_, ?_⟩
    . rw [read?]
      dsimp only [Port.ofDevice]
      rw [hread]
      dsimp only
      rw [htake, Octets.slice?_zero_append, Option.map_some]
    . intro raw' hraw'
      cases (Arrival.ofRead_eq_record_iff.mp hraw').1
      exact hoverwrite
    . intro hnot
      have hnil : raw = [] := by
        by_contra hne
        exact hnot raw (Arrival.ofRead_eq_record_iff.mpr ⟨rfl, hne⟩)
      rw [show buffer = raw ++ (litter b.device b.buffer).drop raw.length from rfl, hnil]
      rfl

theorem Reached.readOnce? (hroom : Device.InRoom δ) (h : Reached (.ofDevice litter hlitter) .reading b)
    (hread : b.readOnce? litter = some (next, b')) : Reached (.ofDevice litter hlitter) (.after next) b' := by
  obtain ⟨buffer, -, hread?, hrecord, hnot⟩ := exists_read?_ofDevice hlitter hroom b
  unfold Buffered.readOnce? at hread
  dsimp only at hread
  generalize Arrival.ofRead (Device.read b.buffer.length b.device).1 = arrival at *
  cases arrival with
  | record raw =>
    have hdecoding := h.stepped (by rw [step?, hread?]; rfl)
    obtain ⟨loaded, hload, htake⟩ := Option.bind_eq_some_iff.mp hread
    rw [load?, hrecord raw rfl] at hload
    cases hload
    exact hdecoding.takeIn? htake
  | dry =>
    cases hread
    cases hnot (by simp)
    refine h.stepped ?_
    rw [step?, hread?]
    rfl
  | retry =>
    cases hread
    cases hnot (by simp)
    refine h.stepped ?_
    rw [step?, hread?]
    rfl
  | failed fault =>
    cases hread
    cases hnot (by simp)
    refine h.stepped ?_
    rw [step?, hread?]
    rfl

theorem step?_turning_ofDevice (hsaved : b.saved = none) :
    b.step? (.ofDevice litter hlitter) .turning = some (b.awaitRest.1.elim .reading .giving, b.awaitRest.2) := by
  obtain ⟨device, follow, buffer, length, saved, fragment, header, _⟩ := b
  cases hsaved
  cases follow with
  | false => rfl
  | true =>
    cases header with
    | none => rfl
    | some header =>
      rw [step?, awaitRest]
      dsimp only [Port.ofDevice]
      generalize (Device.wait device).1 = outcome
      match outcome with
      | .ok true => rfl
      | .ok false => rfl
      | .error fault => rfl

theorem Reached.turn? (hroom : Device.InRoom δ) (h : Reached (.ofDevice litter hlitter) .turning b)
    (hturn : b.turn? litter = some (next, b')) : Reached (.ofDevice litter hlitter) (.after next) b' := by
  unfold Buffered.turn? at hturn
  split at hturn
  . next raw hraw =>
    obtain ⟨loaded, hload, htake⟩ := Option.bind_eq_some_iff.mp hturn
    have hdecoding : Reached (.ofDevice litter hlitter) .decoding loaded := by
      refine h.stepped ?_
      rw [step?, hraw]
      dsimp only
      rw [hload]
      rfl
    exact hdecoding.takeIn? htake
  . next hnone =>
    have hstep := h.stepped (step?_turning_ofDevice hnone)
    generalize b.awaitRest = waited at *
    obtain ⟨found, waited⟩ := waited
    cases found with
    | some found =>
      cases hturn
      exact hstep
    | none => exact hstep.readOnce? hroom hturn

theorem Reached.gather? {next : Next} (hroom : Device.InRoom δ) (h : Reached (.ofDevice litter hlitter) .turning b)
    (hgather : b.gather? litter = some (next, b')) : Reached (.ofDevice litter hlitter) (.giving next) b' := by
  fun_induction Buffered.gather? litter b with
  | case1 b turned hturn ih => exact ih (h.turn? hroom hturn) hgather
  | case2 b found turned hturn =>
    cases hgather
    exact h.turn? hroom hturn
  | case3 => cases hgather

theorem Reached.pull? {given : Option (Pull Record Fault)} {given' : Pull Record Fault} (hroom : Device.InRoom δ)
    (h : Reached (.ofDevice litter hlitter) (.idle given) b) (hpull : b.pull? litter = some (given', b')) :
    Reached (.ofDevice litter hlitter) (.idle (some given')) b' := by
  unfold Buffered.pull? at hpull
  dsimp only at hpull
  split at hpull
  . next fault hparked =>
    cases hpull
    refine h.stepped ?_
    rw [step?, hparked]
  . next hparked =>
    obtain ⟨⟨next, gathered⟩, hgather, hdeliver⟩ := Option.bind_eq_some_iff.mp hpull
    have hturning : Reached (.ofDevice litter hlitter) .turning b.forget := by
      refine h.stepped ?_
      rw [step?, hparked]
    refine (hturning.gather? hroom hgather).stepped ?_
    rw [step?]
    dsimp only at hdeliver
    rw [hdeliver]
    rfl

theorem exists_reached_openDevice_go (hroom : Device.InRoom δ) (r opened : Reader δ)
    (h : ∃ b, Reached (.ofDevice litter hlitter) .opening b ∧ b.buffer.length = bufferSize ∧ b.toReader = r)
    (hopen : Reader.openDevice.go r = .ok opened) :
    ∃ b, Reached (.ofDevice litter hlitter) (.idle none) b ∧ b.toReader = opened := by
  have hread (b : Buffered δ) (hsize : b.buffer.length = bufferSize) :
      ∃ buffer, buffer.length = bufferSize ∧
        b.read? (.ofDevice litter hlitter) =
          some
            (.ofRead (Device.read bufferSize b.device).1,
              { b with buffer, device := (Device.read bufferSize b.device).2 }) := by
    obtain ⟨buffer, hlength, hread, -⟩ := exists_read?_ofDevice hlitter hroom b
    rw [hsize] at hlength hread
    exact ⟨buffer, hlength, hread⟩
  fun_induction Reader.openDevice.go r with
  | case1 r read r' raw harrival =>
    cases hopen
    obtain ⟨b, hreached, hsize, rfl⟩ := h
    obtain ⟨buffer, -, hread⟩ := hread b hsize
    rw [show Arrival.ofRead (Device.read bufferSize b.device).1 = _ from harrival] at hread
    exact ⟨_, hreached.stepped (by rw [step?, hread]; rfl), rfl⟩
  | case2 r read r' harrival ih =>
    obtain ⟨b, hreached, hsize, rfl⟩ := h
    obtain ⟨buffer, hlength, hread⟩ := hread b hsize
    rw [show Arrival.ofRead (Device.read bufferSize b.device).1 = _ from harrival] at hread
    exact ih ⟨_, hreached.stepped (by rw [step?, hread]; rfl), hlength, rfl⟩ hopen
  | case3 r read r' harrival =>
    rw [Except.ok.injEq] at hopen
    obtain ⟨b, hreached, hsize, rfl⟩ := h
    obtain ⟨buffer, -, hread⟩ := hread b hsize
    rw [show Arrival.ofRead (Device.read bufferSize b.device).1 = _ from harrival] at hread
    exact ⟨{ b with buffer, device := read.2 }, hreached.stepped (by rw [step?, hread]; rfl), hopen⟩
  | case4 => cases hopen

theorem exists_reached_openDevice (hroom : Device.InRoom δ) {device : δ} {follow : Bool} {r : Reader δ}
    (hopen : Reader.openDevice device follow = .ok r) :
    ∃ b, Reached (.ofDevice litter hlitter) (.idle none) b ∧ b.toReader = r :=
  exists_reached_openDevice_go hroom (.new device follow) r
    ⟨_, .opening device follow, List.length_replicate, rfl⟩ hopen

end

end Buffered
end KernelLog.Kmsg
