import KernelLog.Proofs.Kmsg.Reassembly
import KernelLog.Proofs.Kmsg.Run

/-!
This module relates a reader that was opened with a first read to one that has read nothing yet. Main statement:
nobody who pulls can tell the two apart, but for the pull that finds nothing if there is nothing yet.
-/

namespace KernelLog.Kmsg

variable {δ : Type} [Device δ]

def Device.Begins (d : δ) (a : Arrival) : Prop :=
  a ≠ .retry ∧ ∃ n, Device.arrivals d n = a ∧ ∀ k < n, Device.arrivals d k = .retry

namespace Device.Begins

variable {d : δ} {a b : Arrival}

theorem of_read (h : Arrival.ofRead (Device.read bufferSize d).1 = a) (ha : a ≠ .retry) : Device.Begins d a := by
  refine ⟨ha, 0, h, ?_⟩
  intro k hk
  omega

theorem of_retry (h : Arrival.ofRead (Device.read bufferSize d).1 = .retry)
    (ha : Device.Begins (Device.read bufferSize d).2 a) : Device.Begins d a := by
  obtain ⟨hne, n, hn, hbefore⟩ := ha
  refine ⟨hne, n + 1, hn, ?_⟩
  intro k hk
  cases k with
  | zero => exact h
  | succ k =>
    apply hbefore
    omega

theorem unique (ha : Device.Begins d a) (hb : Device.Begins d b) : a = b := by
  obtain ⟨hane, m, hm, hbeforem⟩ := ha
  obtain ⟨hbne, n, hn, hbeforen⟩ := hb
  rcases Nat.lt_trichotomy m n with hlt | heq | hgt
  . rw [hbeforen m hlt] at hm
    exact absurd hm.symm hane
  . rw [← hm, ← hn, heq]
  . rw [hbeforem n hgt] at hn
    exact absurd hn.symm hbne

end Device.Begins

namespace Reader

section

omit [Device δ]

variable {r : Reader δ}

theorem isSome_fragment_of_takeIn {raw : Octets} (h : (r.takeIn raw).1 = none) :
    (r.takeIn raw).2.fragment.isSome := by
  unfold takeIn at h ⊢
  dsimp only at h ⊢
  split at h
  . rfl
  . rfl
  . cases h
  . cases h
  . cases h
  . cases h

theorem isSome_fragment_of_receive (hfragment : r.fragment.isSome) {a : Arrival} (h : (r.receive a).1 = none) :
    (r.receive a).2.fragment.isSome := by
  cases a with
  | record raw => exact isSome_fragment_of_takeIn h
  | retry => exact hfragment
  | dry => cases h
  | failed fault => cases h

theorem isFound_of_receive (hfragment : r.fragment.isSome) {a : Arrival} {g : Gathered}
    (h : (r.receive a).1 = some g) : g.toPull.isFound := by
  obtain ⟨f, hf⟩ := Option.isSome_iff_exists.mp hfragment
  cases a with
  | record raw => exact isFound_of_takeIn _ raw g h
  | retry => cases h
  | dry =>
    rw [receive, atEnd, hf, Option.some.injEq] at h
    rw [← h]
    rfl
  | failed fault =>
    rw [receive, onFault, hf, Option.some.injEq] at h
    rw [← h]
    rfl

theorem receive_dry_of_fragment_eq_none (h : r.fragment = none) : r.receive .dry = (some .done, r) := by
  simp only [receive, atEnd, h]

theorem receive_failed_of_fragment_eq_none (h : r.fragment = none) (fault : Fault) :
    r.receive (.failed fault) = (some (.failed fault), r) := by
  simp only [receive, onFault, h]

end

variable {r r' : Reader δ} {g : Gathered}

theorem turn_of_fragment_eq_none (h : r.fragment = none) :
    r.turn = { r with device := (Device.read bufferSize r.device).2 }.receive
      (.ofRead (Device.read bufferSize r.device).1) := by
  rcases turn_cases r with ⟨-, hturn⟩ | ⟨f, -, hfragment, -⟩
  . exact hturn
  . rw [h] at hfragment
    cases hfragment

theorem isSome_fragment_of_readOnce (hfragment : r.fragment.isSome) (h : r.readOnce.1 = none) :
    r.readOnce.2.fragment.isSome :=
  isSome_fragment_of_receive (r := { r with device := (Device.read bufferSize r.device).2 }) hfragment h

theorem isFound_of_readOnce (hfragment : r.fragment.isSome) (h : r.readOnce.1 = some g) : g.toPull.isFound :=
  isFound_of_receive (r := { r with device := (Device.read bufferSize r.device).2 }) hfragment h

theorem isFound_gather (h : r.fragment.isSome) : r.gather.1.toPull.isFound := by
  refine gather_induct (P := fun r => r.fragment.isSome) (Q := fun g _ => g.toPull.isFound) ?_ ?_ r h
  . intro r h hmore
    rcases turn_cases r with ⟨-, hturn⟩ | ⟨f, -, -, ⟨-, hturn⟩ | ⟨-, hturn⟩ | ⟨fault, -, hturn⟩⟩
    . rw [hturn] at hmore ⊢
      apply isSome_fragment_of_readOnce _ hmore
      exact h
    . rw [hturn] at hmore ⊢
      apply isSome_fragment_of_readOnce _ hmore
      exact h
    . rw [hturn]
      exact h
    . rw [hturn]
      exact h
  . intro r g h hgives
    rcases turn_cases r with ⟨-, hturn⟩ | ⟨f, -, -, ⟨-, hturn⟩ | ⟨-, hturn⟩ | ⟨fault, -, hturn⟩⟩
    . rw [hturn] at hgives
      apply isFound_of_readOnce _ hgives
      exact h
    . rw [hturn] at hgives
      apply isFound_of_readOnce _ hgives
      exact h
    . rw [hturn, Option.some.injEq] at hgives
      rw [← hgives]
      rfl
    . rw [hturn, Option.some.injEq] at hgives
      rw [← hgives]
      rfl

theorem isFound_gatherSaved {raw : Octets} (h : r.saved = some raw) : r.gatherSaved.1.toPull.isFound := by
  rw [gatherSaved, h]
  dsimp only
  split
  . next heq =>
    apply isFound_of_takeIn { r with saved := none } raw
    rw [heq]
  . next heq =>
    apply isFound_gather
    have := isSome_fragment_of_takeIn (congrArg Prod.fst heq)
    rwa [heq] at this

theorem gather_of_turn_some (h : r.turn = (some g, r')) : r.gather = (g, r') := by
  rw [gather]
  split
  . next heq =>
    rw [h, Prod.mk.injEq, Option.some.injEq] at heq
    rw [heq.1, heq.2]
  . next heq =>
    rw [h, Prod.mk.injEq] at heq
    cases heq.1

theorem gather_of_turn_none (h : r.turn = (none, r')) : r.gather = r'.gather := by
  rw [gather]
  split
  . next heq =>
    rw [h, Prod.mk.injEq] at heq
    cases heq.1
  . next heq =>
    rw [h, Prod.mk.injEq] at heq
    rw [heq.2]

theorem gather_eq_gatherSaved {opened : Reader δ} {raw : Octets} (hsaved : opened.saved = some raw)
    (hturn : r.turn = { opened with saved := none }.takeIn raw) : r.gather = opened.gatherSaved := by
  rw [gatherSaved, hsaved]
  dsimp only
  split
  . next heq => exact gather_of_turn_some (hturn.trans heq)
  . next heq => exact gather_of_turn_none (hturn.trans heq)

theorem openDevice_go_cases (r : Reader δ) (hsaved : r.saved = none) (hfragment : r.fragment = none) :
    (∃ raw opened, Device.Begins r.device (.record raw) ∧ openDevice.go r = .ok opened ∧
        opened = { opened with saved := some raw, parked := r.parked, returned := r.returned } ∧
        r.gather = opened.gatherSaved) ∨
      (∃ opened, Device.Begins r.device .dry ∧ openDevice.go r = .ok opened ∧ r.gather = (.done, opened)) ∨
      ∃ fault, Device.Begins r.device (.failed fault) ∧ openDevice.go r = .error fault ∧
        r.gather.1 = .failed fault := by
  have hturn := turn_of_fragment_eq_none hfragment
  fun_induction openDevice.go r with
  | case1 r read r' raw harrival =>
    rw [harrival] at hturn
    refine .inl ⟨raw, _, .of_read harrival (by simp), rfl, rfl, ?_⟩
    apply gather_eq_gatherSaved rfl
    rw [hturn, receive, ← hsaved]
  | case2 r read r' harrival ih =>
    rw [harrival] at hturn
    have hgather : r.gather = { r' with retries := r'.retries + 1 }.gather := gather_of_turn_none hturn
    rw [hgather]
    rcases ih hsaved hfragment (turn_of_fragment_eq_none hfragment) with
      ⟨raw, opened, hbegins, hopen⟩ | ⟨opened, hbegins, hopen⟩ | ⟨fault, hbegins, hopen⟩
    . exact .inl ⟨raw, opened, .of_retry harrival hbegins, hopen⟩
    . exact .inr (.inl ⟨opened, .of_retry harrival hbegins, hopen⟩)
    . exact .inr (.inr ⟨fault, .of_retry harrival hbegins, hopen⟩)
  | case3 r read r' harrival =>
    rw [harrival] at hturn
    have hdry := receive_dry_of_fragment_eq_none (r := r') hfragment
    exact .inr (.inl ⟨r', .of_read harrival (by simp), rfl, gather_of_turn_some (hturn.trans hdry)⟩)
  | case4 r read fault harrival =>
    rw [harrival] at hturn
    have hfailed := receive_failed_of_fragment_eq_none (r := { r with device := read.2 }) hfragment fault
    refine .inr (.inr ⟨fault, .of_read harrival (by simp), rfl, ?_⟩)
    rw [gather_of_turn_some (hturn.trans hfailed)]

/--
Pull again and again, and let anything happen to the device between two pulls. What a pull gives comes with the
reader as it is then.
-/
def pulls (meanwhile : Nat → δ → δ) (r : Reader δ) : Nat → Pull Record Fault × Reader δ
  | 0 => r.pull
  | n + 1 =>
    let r := (pulls meanwhile r n).2
    { r with device := meanwhile n r.device }.pull

theorem pulls_congr (h : r.pull = r'.pull) (meanwhile : Nat → δ → δ) (n : Nat) :
    r.pulls meanwhile n = r'.pulls meanwhile n := by
  induction n with
  | zero => exact h
  | succ n ih => rw [pulls, pulls, ih]

theorem pulls_succ {p : Pull Record Fault} (h : r.pull = (p, r')) (meanwhile : Nat → δ → δ) (n : Nat) :
    r.pulls meanwhile (n + 1) =
      { r' with device := meanwhile 0 r'.device }.pulls (fun k => meanwhile (k + 1)) n := by
  induction n with
  | zero => rw [pulls, pulls, pulls, h]
  | succ n ih => rw [pulls, ih, pulls]

theorem pull_of_gatherSaved (hparked : r.parked = none) (hreturned : r.returned = false) :
    r.pull = (r.gatherSaved.1.toPull, r.gatherSaved.2.deliver r.gatherSaved.1) := by
  rw [pull, advance_of_not_parked hparked, forget_eq_self r hreturned]

theorem openDevice_cases (d : δ) (follow : Bool) :
    (∃ raw opened, Device.Begins d (.record raw) ∧ openDevice d follow = .ok opened ∧
        opened.pull = (new d follow).pull ∧ (new d follow).pull.1.isFound) ∨
      (∃ opened, Device.Begins d .dry ∧ openDevice d follow = .ok opened ∧ (new d follow).pull = (.done, opened)) ∨
      ∃ fault, Device.Begins d (.failed fault) ∧ openDevice d follow = .error fault ∧
        (new d follow).pull.1 = .failed fault := by
  have hpull := pull_of_gatherSaved (r := new d follow) rfl rfl
  have hgather : (new d follow).gatherSaved = (new d follow).gather := rfl
  rw [hgather] at hpull
  rcases openDevice_go_cases (new d follow) rfl rfl with
    ⟨raw, opened, hbegins, hopen, hopened, hsame⟩ | ⟨opened, hbegins, hopen, hsame⟩ |
      ⟨fault, hbegins, hopen, hsame⟩
  . have hsaved : opened.saved = some raw := by rw [hopened]
    have hpull' := pull_of_gatherSaved (r := opened) (by rw [hopened]; rfl) (by rw [hopened]; rfl)
    rw [hsame] at hpull
    refine .inl ⟨raw, opened, hbegins, hopen, hpull'.trans hpull.symm, ?_⟩
    rw [hpull]
    exact isFound_gatherSaved hsaved
  . rw [hsame] at hpull
    exact .inr (.inl ⟨opened, hbegins, hopen, hpull⟩)
  . refine .inr (.inr ⟨fault, hbegins, hopen, ?_⟩)
    rw [hpull, hsame]
    rfl

theorem exists_begins (d : δ) : ∃ a, Device.Begins d a := by
  rcases openDevice_cases d false with ⟨raw, _, hbegins, -⟩ | ⟨_, hbegins, -⟩ | ⟨fault, hbegins, -⟩
  . exact ⟨_, hbegins⟩
  . exact ⟨_, hbegins⟩
  . exact ⟨_, hbegins⟩

theorem openDevice_of_record {d : δ} {raw : Octets} (h : Device.Begins d (.record raw)) (follow : Bool) :
    ∃ opened, openDevice d follow = .ok opened ∧ opened.pull = (new d follow).pull := by
  rcases openDevice_cases d follow with ⟨_, opened, -, hopen, hpull, -⟩ | ⟨_, hbegins, -⟩ | ⟨_, hbegins, -⟩
  . exact ⟨opened, hopen, hpull⟩
  . cases hbegins.unique h
  . cases hbegins.unique h

theorem openDevice_of_dry {d : δ} (h : Device.Begins d .dry) (follow : Bool) :
    ∃ opened, openDevice d follow = .ok opened ∧ (new d follow).pull = (.done, opened) := by
  rcases openDevice_cases d follow with ⟨_, _, hbegins, -⟩ | ⟨opened, -, hopen, hpull⟩ | ⟨_, hbegins, -⟩
  . cases hbegins.unique h
  . exact ⟨opened, hopen, hpull⟩
  . cases hbegins.unique h

theorem openDevice_of_failed {d : δ} {fault : Fault} (h : Device.Begins d (.failed fault)) (follow : Bool) :
    openDevice d follow = .error fault := by
  rcases openDevice_cases d follow with ⟨_, _, hbegins, -⟩ | ⟨_, hbegins, -⟩ | ⟨fault', hbegins, hopen, -⟩
  . cases hbegins.unique h
  . cases hbegins.unique h
  . cases hbegins.unique h
    exact hopen

theorem openDevice_eq_error_iff (d : δ) (follow : Bool) (fault : Fault) :
    openDevice d follow = .error fault ↔ (new d follow).pull.1 = .failed fault := by
  rcases openDevice_cases d follow with
    ⟨raw, opened, -, hopen, -, hfound⟩ | ⟨opened, -, hopen, hpull⟩ | ⟨fault', -, hopen, hpull⟩
  . apply iff_of_false
    . simp [hopen]
    . intro hfailed
      rw [hfailed] at hfound
      cases hfound
  . simp [hopen, hpull]
  . rw [hopen, hpull, Except.error.injEq, Pull.failed.injEq]

/--
Opening a device with a first read makes no difference to those who pull. A fault of that read is what the first pull
would give. With a record, all pulls give the same and leave the same reader, with all its counts and with its device,
which may note the calls that it gets. If there is nothing yet, the first pull without that read finds nothing and
leaves the opened reader, and the pulls behind it are those of the opened one. This is so whatever happens to the
device between two pulls.
-/
theorem openDevice_transparent (d : δ) (follow : Bool) (meanwhile : Nat → δ → δ) :
    (∃ a, Device.Begins d a) ∧
      (∀ fault, openDevice d follow = .error fault ↔ (new d follow).pull.1 = .failed fault) ∧
      (∀ fault, Device.Begins d (.failed fault) → openDevice d follow = .error fault) ∧
      (∀ raw, Device.Begins d (.record raw) → ∃ opened, openDevice d follow = .ok opened ∧
        ∀ n, opened.pulls meanwhile n = (new d follow).pulls meanwhile n) ∧
      (Device.Begins d .dry → ∃ opened, openDevice d follow = .ok opened ∧
        (new d follow).pull = (.done, opened) ∧
        ∀ n, { opened with device := meanwhile 0 opened.device }.pulls (fun k => meanwhile (k + 1)) n =
          (new d follow).pulls meanwhile (n + 1)) := by
  refine ⟨exists_begins d, openDevice_eq_error_iff d follow, fun _ hfailed => openDevice_of_failed hfailed follow, ?_, ?_⟩
  . intro raw hrecord
    obtain ⟨opened, hopen, hpull⟩ := openDevice_of_record hrecord follow
    exact ⟨opened, hopen, pulls_congr hpull meanwhile⟩
  . intro hdry
    obtain ⟨opened, hopen, hpull⟩ := openDevice_of_dry hdry follow
    refine ⟨opened, hopen, hpull, ?_⟩
    intro n
    rw [pulls_succ hpull]

theorem openDevice_transparent_brokenLine :
    let device := Tapped.ofDevice brokenLine
    ∃ opened, openDevice device true = .ok opened ∧ opened.device.calls.length = 1 ∧
      ∀ n, opened.pulls (fun _ t => t) n = (new device true).pulls (fun _ t => t) n := by
  intro device
  obtain ⟨-, -, -, hrecord, -⟩ := openDevice_transparent device true fun _ t => t
  obtain ⟨opened, hopen, hpulls⟩ := hrecord (Octets.ofString "6,1,5,c;ab") (.of_read (by decide +kernel) (by simp))
  have hcalls := (by decide +kernel :
    (openDevice device true).toOption.map (·.device.calls.length) = some 1)
  rw [hopen] at hcalls
  exact ⟨opened, hopen, Option.some.inj hcalls, hpulls⟩

end Reader
end KernelLog.Kmsg
