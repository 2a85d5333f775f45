import KernelLog.Proofs.Escape.Hex
import KernelLog.Proofs.Kmsg.Arrival
import KernelLog.Proofs.Kmsg.Buffered
import KernelLog.Proofs.Kmsg.Opening

/-!
This module relates a reader with buffers to a `Reader`, which has none. Main statement: if the device keeps to the room
that it is given, no octet is taken out of range, and the two pull the same, whatever is left in the buffer.
-/

namespace KernelLog

namespace Octets

theorem slice?_append {front : Octets} (s behind : Octets) {start stop : Nat} (hstart : start = front.length)
    (hstop : stop = start + s.length) : (front ++ (s ++ behind)).slice? start stop = some s := by
  subst hstart hstop
  rw [slice?, if_pos ⟨Nat.le_add_right _ _, by simp⟩, List.take_length_add_append, List.take_left, List.drop_left]

theorem slice?_zero_append (s behind : Octets) : (s ++ behind).slice? 0 s.length = some s :=
  @slice?_append [] s behind _ _ rfl (Nat.zero_add _).symm

theorem exists_overwrite?_eq {s front : Octets} (h : front.length ≤ s.length) :
    ∃ rest, s.overwrite? front = some (front ++ rest) ∧ (front ++ rest).length = s.length := by
  refine ⟨s.drop front.length, ?_, by simp [h]⟩
  rw [overwrite?, from?, if_pos h, Option.map_some]

end Octets

namespace Kmsg

variable {δ : Type}

def Device.InRoom (δ : Type) [Device δ] : Prop :=
  ∀ (room : Nat) (d : δ) (raw : Octets), (Device.read room d).1 = .ok raw → raw.length ≤ room

theorem Script.inRoom : Device.InRoom Script := by
  intro room s raw h
  change (Script.read room s).1 = .ok raw at h
  unfold Script.read at h
  split at h
  . cases h
  . cases h
    exact List.length_take_le room _
  . cases h

theorem Device.InRoom.tapped [Device δ] (h : Device.InRoom δ) : Device.InRoom (Tapped δ) :=
  fun room t => h room t.device

def KeepsSize (litter : δ → Octets → Octets) : Prop :=
  ∀ d buffer, (litter d buffer).length = buffer.length

namespace Buffered

def toReader (b : Buffered δ) : Reader δ :=
  { device := b.device
    follow := b.follow
    saved := b.saved
    fragment := b.header.map fun header => { header, message := b.fragment }
    returned := b.returned
    parked := b.parked
    reads := b.reads
    retries := b.retries
    fragments := b.fragments
    overflows := b.overflows
    records := b.records }

structure Sound (b : Buffered δ) : Prop where
  buffer : b.buffer.length = bufferSize
  length : b.length ≤ bufferSize
  saved : ∀ raw, b.saved = some raw → raw.length ≤ bufferSize
  fragment : b.fragment.length ≤ bufferSize
  header : b.header = none → b.fragment = []

inductive Tells (b : Buffered δ) : Next → Gathered → Prop where
  | physical {p : Physical} {start stop : Nat} : b.buffer.slice? start stop = some p.message →
    Tells b (.physical p.header start stop) (.physical p)
  | fragment {f : Fragment} : b.toReader.fragment = some f → Tells b .fragment (.fragment f)
  | done : Tells b .done .done
  | failed {fault : Fault} : Tells b (.failed fault) (.failed fault)

def Matches (found : Option (Option Next × Buffered δ)) (step : Option Gathered × Reader δ) : Prop :=
  ∃ next b, found = some (next, b) ∧ b.Sound ∧ b.toReader = step.2 ∧ Option.Rel b.Tells next step.1

variable {b : Buffered δ}

theorem sound_new (device : δ) (follow : Bool) : (new device follow).Sound where
  buffer := List.length_replicate
  length := Nat.zero_le _
  saved := nofun
  fragment := Nat.zero_le _
  header _ := rfl

theorem fragment_toReader_of_none (h : b.header = none) : b.toReader.fragment = none := by
  rw [toReader, h, Option.map_none]

theorem fragment_toReader_of_some {header : Header} (h : b.header = some header) :
    b.toReader.fragment = some { header, message := b.fragment } := by
  rw [toReader, h, Option.map_some]

theorem exists_unescape?_eq {raw rest : Octets} (hbuffer : b.buffer = raw ++ rest) :
    let p := Physical.decode raw
    ∃ front behind, front.length = p.start ∧ (front ++ (p.message ++ behind)).length = b.buffer.length ∧
      b.unescape? p.start p.stop =
        some (p.start + p.message.length, { b with buffer := front ++ (p.message ++ behind) }) := by
  intro p
  obtain ⟨front, behind, hraw, hstart, -, -⟩ := Physical.exists_eq_append_escaped raw
  replace hstart : p.start = front.length := hstart
  obtain ⟨left, hunescaped, hend, hlength⟩ := Escape.exists_unhexInPlace_eq p.escaped
  replace hlength : p.message.length + left.length = p.escaped.length := hlength
  have hbuffer' : b.buffer = front ++ (p.escaped ++ (behind ++ rest)) := by
    rw [hbuffer, hraw]
    simp only [List.append_assoc]
    rfl
  have hslice : b.buffer.slice? p.start p.stop = some p.escaped := by
    rw [hbuffer']
    exact Octets.slice?_append p.escaped (behind ++ rest) hstart rfl
  have htake : b.buffer.take p.start = front := by
    rw [hbuffer', hstart, List.take_left]
  have hdrop : b.buffer.drop p.stop = behind ++ rest := by
    rw [hbuffer', ← List.append_assoc, Physical.stop, hstart, ← List.length_append, List.drop_left]
  refine ⟨front, left ++ (behind ++ rest), hstart.symm, ?_, ?_⟩
  . rw [hbuffer']
    simp only [List.length_append]
    omega
  . rw [unescape?, hslice]
    dsimp only [Option.bind_eq_bind, Option.bind_some]
    rw [hend, hunescaped, htake, hdrop]
    simp only [List.append_assoc]
    rfl

theorem tells_atEnd (b : Buffered δ) : b.Tells b.atEnd b.toReader.atEnd := by
  unfold atEnd Reader.atEnd
  split
  . next hheader =>
    rw [fragment_toReader_of_some hheader]
    exact .fragment (fragment_toReader_of_some hheader)
  . next hheader =>
    rw [fragment_toReader_of_none hheader]
    exact .done

namespace Sound

theorem fragment_getD (h : b.Sound) (header : Header) :
    b.toReader.fragment.getD { header, message := [] } =
      { header := b.header.getD header, message := b.fragment } := by
  cases hheader : b.header with
  | none => rw [fragment_toReader_of_none hheader, h.header hheader, Option.getD_none, Option.getD_none]
  | some _ => rw [fragment_toReader_of_some hheader, Option.getD_some, Option.getD_some]

theorem append? (h : b.Sound) {raw rest : Octets} (hbuffer : b.buffer = raw ++ rest) :
    let p := Physical.decode raw
    ∃ b', b.append? p.header p.start p.stop = some b' ∧ b'.Sound ∧ b'.toReader = (b.toReader.join p).2 := by
  intro p
  obtain ⟨front, behind, hfront, hlength, hunescape⟩ := exists_unescape?_eq hbuffer
  let room := bufferSize - b.fragment.length
  have hroom : Nat.psub bufferSize b.fragment.length = some room := Nat.psub_eq_sub h.fragment
  have hsize : Nat.psub (p.start + p.message.length) p.start = some p.message.length := by
    rw [Nat.psub_eq_sub (Nat.le_add_right _ _), Nat.add_sub_cancel_left]
  have hslice :
      (front ++ (p.message ++ behind)).slice? p.start (p.start + min p.message.length room) =
        some (p.message.take room) := by
    have := Octets.slice?_append (p.message.take room) (p.message.drop room ++ behind) hfront.symm rfl
    rwa [← List.append_assoc _ _ behind, List.take_append_drop, List.length_take, Nat.min_comm] at this
  have happend : b.append? p.header p.start p.stop =
      some
        { b with
          buffer := front ++ (p.message ++ behind)
          fragment := b.fragment ++ p.message.take room
          header := some (b.header.getD p.header)
          fragments := b.fragments + 1
          overflows := if room < p.message.length then b.overflows + 1 else b.overflows } := by
    rw [Buffered.append?, hunescape]
    dsimp only [Option.bind_eq_bind, Option.bind_some]
    rw [hroom, hsize]
    dsimp only [Option.bind_some]
    rw [hslice]
    rfl
  refine ⟨_, happend, { h with buffer := hlength.trans h.buffer, fragment := ?_, header := nofun }, ?_⟩
  . have := h.fragment
    simp only [List.length_append, List.length_take, room]
    omega
  . have hbegun := h.fragment_getD p.header
    unfold Reader.join
    dsimp only
    rw [hbegun]
    rfl

theorem takeIn? (h : b.Sound) {raw rest : Octets} (hbuffer : b.buffer = raw ++ rest) (hlength : b.length = raw.length) :
    Matches b.takeIn? (b.toReader.takeIn raw) := by
  have hraw : raw.length ≤ bufferSize := hlength ▸ h.length
  have hslice : b.buffer.slice? 0 b.length = some raw := by
    rw [hbuffer, hlength]
    exact Octets.slice?_zero_append raw rest
  obtain ⟨joined, happend, hjoined, htoReader⟩ := h.append? hbuffer
  have hfragment : joined.toReader.fragment = some (b.toReader.join (.decode raw)).1 := by
    rw [htoReader]
    rfl
  obtain ⟨front, behind, hfront, hsize, hunescape⟩ := exists_unescape?_eq hbuffer
  have hmessage := Octets.slice?_append (Physical.decode raw).message behind hfront.symm rfl
  have hphysical :
      Matches
        (some
          (some (.physical (Physical.decode raw).header _ _),
            { b with buffer := front ++ ((Physical.decode raw).message ++ behind) }))
        (some (.physical (.decode raw)), b.toReader) :=
    ⟨_, _, rfl, { h with buffer := hsize.trans h.buffer }, rfl, .some (.physical hmessage)⟩
  unfold Buffered.takeIn? Reader.takeIn
  rw [hslice]
  dsimp only [Option.bind_eq_bind, Option.bind_some]
  rw [Physical.walk?_eq]
  dsimp only [Option.bind_some]
  rw [happend, hunescape]
  dsimp only [Option.bind_some]
  split
  . next hflag =>
    rw [hflag]
    exact ⟨_, joined, rfl, hjoined, htoReader, .none⟩
  . next hflag =>
    rw [hflag]
    exact ⟨_, joined, rfl, hjoined, htoReader, .none⟩
  . next hflag hheader =>
    rw [hflag, fragment_toReader_of_some hheader]
    exact ⟨_, joined, rfl, hjoined, htoReader, .some (.fragment hfragment)⟩
  . next hflag hheader =>
    have hsaved : ∀ saved, some raw = some saved → saved.length ≤ bufferSize := by
      rintro saved ⟨⟩
      exact hraw
    rw [hflag, fragment_toReader_of_some hheader]
    refine ⟨_, _, rfl, { h with saved := hsaved }, ?_, .some (.fragment (fragment_toReader_of_some hheader))⟩
    rw [toReader, hheader]
    rfl
  . next hflag hheader =>
    rw [hflag, fragment_toReader_of_none hheader]
    exact hphysical
  . next hflag hheader =>
    rw [hflag, fragment_toReader_of_none hheader]
    exact hphysical

theorem load?_takeIn? (h : b.Sound) {raw : Octets} (hraw : raw.length ≤ bufferSize) :
    Matches (do (← b.load? raw).takeIn?) (b.toReader.takeIn raw) := by
  obtain ⟨rest, hoverwrite, hlength⟩ := Octets.exists_overwrite?_eq (h.buffer ▸ hraw)
  have hloaded : Sound { b with buffer := raw ++ rest, length := raw.length } :=
    { h with buffer := hlength.trans h.buffer, length := hraw }
  rw [load?, hoverwrite]
  exact hloaded.takeIn? rfl rfl

theorem onFault (h : b.Sound) (fault : Fault) :
    (b.onFault fault).2.Sound ∧ (b.onFault fault).2.toReader = (b.toReader.onFault fault).2 ∧
      (b.onFault fault).2.Tells (b.onFault fault).1 (b.toReader.onFault fault).1 := by
  unfold Buffered.onFault Reader.onFault
  split
  . next hheader =>
    have hfragment := fragment_toReader_of_some hheader
    rw [hfragment]
    dsimp only
    rw [← hfragment]
    exact ⟨{ h with }, rfl, .fragment hfragment⟩
  . next hheader =>
    rw [fragment_toReader_of_none hheader]
    exact ⟨h, rfl, .failed⟩

theorem receive? (h : b.Sound) {a : Arrival} (ha : ∀ raw, a = .record raw → raw.length ≤ bufferSize) :
    Matches (b.receive? a) (b.toReader.receive a) := by
  cases a with
  | record raw =>
    have hcounted : Sound { b with reads := b.reads + 1 } := { h with }
    exact hcounted.load?_takeIn? (ha raw rfl)
  | retry => exact ⟨none, _, rfl, { h with }, rfl, .none⟩
  | dry => exact ⟨_, b, rfl, h, rfl, .some (tells_atEnd b)⟩
  | failed fault =>
    obtain ⟨hsound, htoReader, htells⟩ := h.onFault fault
    exact ⟨_, _, rfl, hsound, htoReader, .some htells⟩

theorem forget (h : b.Sound) : b.forget.Sound ∧ b.forget.toReader = b.toReader.forget := by
  unfold Buffered.forget Reader.forget
  rw [show b.toReader.returned = b.returned from rfl]
  split
  . exact ⟨{ h with fragment := Nat.zero_le _, header := fun _ => rfl }, rfl⟩
  . exact ⟨h, rfl⟩

theorem deliver? (h : b.Sound) {next : Next} {g : Gathered} (htells : b.Tells next g) :
    ∃ b', b.deliver? next = some (g.toPull, b') ∧ b'.Sound ∧ b'.toReader = b.toReader.deliver g := by
  cases htells with
  | @physical p start stop hslice =>
    rw [Buffered.deliver?, hslice]
    exact ⟨_, rfl, { h with }, rfl⟩
  | @fragment f hfragment =>
    obtain ⟨header, hheader, rfl⟩ := Option.map_eq_some_iff.mp hfragment
    refine ⟨{ b with returned := true, records := b.records + 1 }, ?_, { h with }, rfl⟩
    rw [Buffered.deliver?, hheader]
    rfl
  | done => exact ⟨b, rfl, h, rfl⟩
  | failed => exact ⟨b, rfl, h, rfl⟩

variable [Device δ] {litter : δ → Octets → Octets}

theorem awaitRest (h : b.Sound) : Matches (some b.awaitRest) b.toReader.awaitRest := by
  unfold Buffered.awaitRest Reader.awaitRest
  rw [show b.toReader.follow = b.follow from rfl, show b.toReader.device = b.device from rfl]
  split
  . next hfollow hheader =>
    have hfragment := fragment_toReader_of_some hheader
    rw [hfollow, hfragment]
    dsimp only
    rw [← hfragment]
    generalize (Device.wait b.device).1 = outcome
    match outcome with
    | .ok true => exact ⟨_, _, rfl, { h with }, rfl, .none⟩
    | .ok false => exact ⟨_, _, rfl, { h with }, rfl, .some (.fragment hfragment)⟩
    | .error fault => exact ⟨_, _, rfl, { h with }, rfl, .some (.fragment hfragment)⟩
  . next hnot =>
    split
    . next hfollow hfragment =>
      obtain ⟨header, hheader, -⟩ := Option.map_eq_some_iff.mp hfragment
      exact absurd hheader (hnot header hfollow)
    . exact ⟨none, b, rfl, h, rfl, .none⟩

theorem readOnce? (h : b.Sound) (hroom : Device.InRoom δ) (hlitter : KeepsSize litter) :
    Matches (b.readOnce? litter) b.toReader.readOnce := by
  have hrecord : ∀ raw, Arrival.ofRead (Device.read bufferSize b.device).1 = .record raw → raw.length ≤ bufferSize := by
    intro raw harrival
    exact hroom bufferSize b.device raw (Arrival.ofRead_eq_record_iff.mp harrival).1
  have hread : Sound { b with device := (Device.read bufferSize b.device).2, buffer := litter b.device b.buffer } :=
    { h with buffer := (hlitter b.device b.buffer).trans h.buffer }
  unfold Buffered.readOnce?
  rw [h.buffer]
  exact hread.receive? hrecord

theorem turn?_of_saved_eq_none (h : b.Sound) (hroom : Device.InRoom δ) (hlitter : KeepsSize litter)
    (hsaved : b.saved = none) : Matches (b.turn? litter) b.toReader.turn := by
  obtain ⟨next, waited, hwait, hwaited, htoReader, htells⟩ := h.awaitRest
  unfold Buffered.turn? Reader.turn
  rw [hsaved]
  dsimp only
  rw [Option.some.inj hwait]
  generalize b.toReader.awaitRest = awaited at *
  obtain ⟨gathered, reader⟩ := awaited
  obtain rfl : waited.toReader = reader := htoReader
  cases htells with
  | none => exact hwaited.readOnce? hroom hlitter
  | some htells => exact ⟨_, waited, rfl, hwaited, rfl, .some htells⟩

theorem gather?_of_saved_eq_none {b : Buffered δ} (h : b.Sound) (hroom : Device.InRoom δ) (hlitter : KeepsSize litter)
    (hsaved : b.saved = none) :
    ∃ next b', b.gather? litter = some (next, b') ∧ b'.Sound ∧ b'.toReader = b.toReader.gather.2 ∧
      b'.Tells next b.toReader.gather.1 := by
  obtain ⟨next, b', hturn, hsound, htoReader, htells⟩ := h.turn?_of_saved_eq_none hroom hlitter hsaved
  generalize hstep : b.toReader.turn = step at *
  obtain ⟨gathered, reader⟩ := step
  obtain rfl : b'.toReader = reader := htoReader
  cases htells with
  | none =>
    obtain ⟨hsaved', hlt⟩ := turn?_none hturn
    rw [Reader.gather_of_turn_none hstep, gather?_of_turn?_none hturn]
    exact gather?_of_saved_eq_none hsound hroom hlitter hsaved'
  | some htells =>
    rw [Reader.gather_of_turn_some hstep, gather?_of_turn?_some hturn]
    exact ⟨_, b', rfl, hsound, rfl, htells⟩
termination_by b.backlog
decreasing_by exact hlt

theorem gather? (h : b.Sound) (hroom : Device.InRoom δ) (hlitter : KeepsSize litter) :
    ∃ next b', b.gather? litter = some (next, b') ∧ b'.Sound ∧ b'.toReader = b.toReader.gatherSaved.2 ∧
      b'.Tells next b.toReader.gatherSaved.1 := by
  unfold Reader.gatherSaved
  rw [show b.toReader.saved = b.saved from rfl]
  cases hsaved : b.saved with
  | none => exact h.gather?_of_saved_eq_none hroom hlitter hsaved
  | some raw =>
    have hunsaved : Sound { b with saved := none } := { h with saved := nofun }
    obtain ⟨next, b', hload, hsound, htoReader, htells⟩ := hunsaved.load?_takeIn? (h.saved raw hsaved)
    have hturn : b.turn? litter = some (next, b') := by
      rw [Buffered.turn?, hsaved]
      exact hload
    rw [show toReader { b with saved := none } = { b.toReader with saved := none } from rfl] at htoReader htells
    dsimp only
    generalize { b.toReader with saved := none }.takeIn raw = step at *
    obtain ⟨gathered, reader⟩ := step
    obtain rfl : b'.toReader = reader := htoReader
    cases htells with
    | none =>
      rw [gather?_of_turn?_none hturn]
      exact hsound.gather?_of_saved_eq_none hroom hlitter (turn?_none hturn).1
    | some htells =>
      rw [gather?_of_turn?_some hturn]
      exact ⟨_, b', rfl, hsound, rfl, htells⟩

theorem pull? (h : b.Sound) (hroom : Device.InRoom δ) (hlitter : KeepsSize litter) :
    ∃ b', b.pull? litter = some (b.toReader.pull.1, b') ∧ b'.Sound ∧ b'.toReader = b.toReader.pull.2 := by
  obtain ⟨hforget, hforgotten⟩ := h.forget
  have hparked : b.forget.parked = b.toReader.parked := by
    rw [show b.forget.parked = b.forget.toReader.parked from rfl, hforgotten, Reader.parked_forget]
  unfold Buffered.pull? Reader.pull
  dsimp only
  rw [hparked]
  cases hparked' : b.toReader.parked with
  | some fault =>
    rw [Reader.advance_of_parked hparked', ← hforgotten]
    exact ⟨_, rfl, { hforget with }, rfl⟩
  | none =>
    obtain ⟨next, found, hgather, hfound, htoReader, htells⟩ := hforget.gather? hroom hlitter
    obtain ⟨b', hdeliver, hsound, htoReader'⟩ := hfound.deliver? htells
    rw [Reader.advance_of_not_parked hparked', hgather]
    dsimp only [Option.bind_eq_bind, Option.bind_some]
    rw [← hforgotten, hdeliver, ← htoReader]
    exact ⟨b', rfl, hsound, htoReader'⟩

/--
A reader with buffers pulls what the reader without them pulls, and takes no octet out of range. This is so whatever is
left in the buffer, and whatever happens to the device between two pulls.
-/
theorem pulls? (h : b.Sound) (hroom : Device.InRoom δ) (hlitter : KeepsSize litter) (meanwhile : Nat → δ → δ)
    (n : Nat) :
    ∃ b', b.pulls? litter meanwhile n = some ((b.toReader.pulls meanwhile n).1, b') ∧ b'.Sound ∧
      b'.toReader = (b.toReader.pulls meanwhile n).2 := by
  induction n with
  | zero => exact h.pull? hroom hlitter
  | succ n ih =>
    obtain ⟨before, hbefore, hsound, htoReader⟩ := ih
    have hmeanwhile : Sound { before with device := meanwhile n before.device } := { hsound with }
    rw [Buffered.pulls?, hbefore, Reader.pulls, ← htoReader]
    exact hmeanwhile.pull? hroom hlitter

end Sound

end Buffered
namespace Reader

variable [Device δ]

theorem exists_sound_openDevice (hroom : Device.InRoom δ) (r opened : Reader δ)
    (h : ∃ b : Buffered δ, b.Sound ∧ b.toReader = r) (hopen : openDevice.go r = .ok opened) :
    ∃ b : Buffered δ, b.Sound ∧ b.toReader = opened := by
  fun_induction openDevice.go r with
  | case1 r read r' raw harrival =>
    cases hopen
    obtain ⟨b, hsound, rfl⟩ := h
    have hraw : raw.length ≤ bufferSize :=
      hroom bufferSize b.device raw (Arrival.ofRead_eq_record_iff.mp harrival).1
    refine ⟨{ b with device := read.2, saved := some raw, reads := b.reads + 1 }, { hsound with saved := ?_ }, rfl⟩
    rintro raw' ⟨⟩
    exact hraw
  | case2 r read r' harrival ih =>
    obtain ⟨b, hsound, rfl⟩ := h
    exact ih ⟨{ b with device := read.2, retries := b.retries + 1 }, { hsound with }, rfl⟩ hopen
  | case3 r read r' harrival =>
    rw [Except.ok.injEq] at hopen
    rw [← hopen]
    obtain ⟨b, hsound, rfl⟩ := h
    exact ⟨{ b with device := read.2 }, { hsound with }, rfl⟩
  | case4 => cases hopen

theorem Run.exists_sound (hroom : Device.InRoom δ) {gs : List Gathered} {r : Reader (Tapped δ)} (h : Run gs r) :
    ∃ b : Buffered (Tapped δ), b.Sound ∧ b.toReader = r := by
  induction h with
  | new device follow => exact ⟨_, Buffered.sound_new (.ofDevice device) follow, rfl⟩
  | @opened device follow r hopen =>
    exact exists_sound_openDevice hroom.tapped (.new (.ofDevice device) follow) r
      ⟨_, Buffered.sound_new (.ofDevice device) follow, rfl⟩ hopen
  | exchanged device _ ih =>
    obtain ⟨b, hsound, rfl⟩ := ih
    exact ⟨{ b with device := { b.device with device } }, { hsound with }, rfl⟩
  | pulled _ ih =>
    obtain ⟨b, hsound, rfl⟩ := ih
    have hlitter : KeepsSize fun (_ : Tapped δ) buffer => buffer := fun _ _ => rfl
    obtain ⟨b', -, hsound', htoReader⟩ := hsound.pull? hroom.tapped hlitter
    exact ⟨b', hsound', htoReader⟩

theorem Run.length_saved (hroom : Device.InRoom δ) {gs : List Gathered} {r : Reader (Tapped δ)} (h : Run gs r)
    {raw : Octets} (hsaved : r.saved = some raw) : raw.length ≤ bufferSize := by
  obtain ⟨b, hsound, rfl⟩ := h.exists_sound hroom
  exact hsound.saved raw hsaved

end Reader
end Kmsg
end KernelLog
