import KernelLog.Proofs.Kmsg.Restart
import KernelLog.Proofs.Scan

/-!
This module contains what becomes of a reader whose device is closed. Main statement: the record that it has saved is
still given, then a fault that it has parked, and then every pull fails, so that any scan ends.
-/

namespace KernelLog.Kmsg

variable {δ : Type}

theorem Physical.length_message_le (raw : Octets) : (Physical.decode raw).message.length ≤ raw.length := by
  obtain ⟨front, behind, hraw, -⟩ := Physical.exists_eq_append_escaped raw
  obtain ⟨left, -, -, hlength⟩ := Escape.exists_unhexInPlace_eq (Physical.decode raw).escaped
  have hle := congrArg List.length hraw
  rw [List.length_append, List.length_append, ← hlength] at hle
  unfold Physical.message
  omega

theorem Device.InRoom.closable [Device δ] (h : Device.InRoom δ) : Device.InRoom (Closable δ) := by
  intro room d raw hread
  cases d with
  | opened d => exact h room d raw hread
  | closed => cases hread

namespace Reader

def close (r : Reader (Tapped (Closable δ))) : Reader (Tapped (Closable δ)) :=
  { r with device := { r.device with device := r.device.device.close } }

structure Shut (r : Reader (Tapped (Closable δ))) : Prop where
  device : r.device.device = .closed
  saved : r.saved = none
  fragment : r.forget.fragment = none
  parked : r.parked = none ∨ r.parked = some Closable.fault

variable [Device δ] {r : Reader (Tapped (Closable δ))}

theorem read_of_closed {t : Tapped (Closable δ)} (h : t.device = .closed) (room : Nat) :
    (Device.read room t).1 = .error Closable.fault ∧ (Device.read room t).2.device = .closed := by
  obtain ⟨device, calls⟩ := t
  cases h
  exact ⟨rfl, rfl⟩

theorem wait_of_closed {t : Tapped (Closable δ)} (h : t.device = .closed) :
    (Device.wait t).1 = .error Closable.fault ∧ (Device.wait t).2.device = .closed := by
  obtain ⟨device, calls⟩ := t
  cases h
  exact ⟨rfl, rfl⟩

omit [Device δ] in
theorem receive_failed_of_fragment {f : Fragment} (h : r.fragment = some f) (fault : Fault) :
    r.receive (.failed fault) = (some (.fragment f), { r with parked := some fault }) := by
  simp only [receive, onFault, h]

theorem gather_of_closed_of_fragment {f : Fragment} (h : r.device.device = .closed) (hfragment : r.fragment = some f) :
    ∃ t : Tapped (Closable δ), t.device = .closed ∧
      r.gather = (.fragment f, { r with device := t, parked := some Closable.fault }) := by
  rcases turn_cases r with ⟨-, hturn⟩ | ⟨f', -, hf', hwaits⟩
  . obtain ⟨houtcome, hdevice⟩ := read_of_closed h bufferSize
    refine ⟨_, hdevice, gather_of_turn_some ?_⟩
    rw [hturn, readOnce]
    dsimp only
    rw [houtcome]
    apply receive_failed_of_fragment
    exact hfragment
  . obtain rfl : f = f' := Option.some.inj (hfragment.symm.trans hf')
    obtain ⟨houtcome, hdevice⟩ := wait_of_closed h
    rw [houtcome] at hwaits
    rcases hwaits with ⟨hwait, -⟩ | ⟨hwait, -⟩ | ⟨fault, hwait, hturn⟩
    . cases hwait
    . cases hwait
    . cases hwait
      exact ⟨_, hdevice, gather_of_turn_some hturn⟩

theorem gather_of_closed_of_fragment_eq_none (h : r.device.device = .closed) (hfragment : r.fragment = none) :
    ∃ t : Tapped (Closable δ), t.device = .closed ∧ r.gather = (.failed Closable.fault, { r with device := t }) := by
  obtain ⟨houtcome, hdevice⟩ := read_of_closed h bufferSize
  refine ⟨_, hdevice, gather_of_turn_some ?_⟩
  rw [turn_of_fragment_eq_none hfragment, houtcome]
  apply receive_failed_of_fragment_eq_none
  exact hfragment

theorem shut_of_parked {fault : Fault} (h : r.device.device = .closed) (hsaved : r.saved = none)
    (hfragment : r.forget.fragment = none) (hparked : r.parked = some fault) :
    r.pull.1 = .failed fault ∧ r.pull.2.Shut := by
  obtain ⟨next, hpull, hdevice, -, hnext, hforgotten, hreturned, hnone⟩ := exists_pull_of_parked hparked
  rw [hpull]
  refine ⟨rfl, hdevice ▸ h, hnext.trans hsaved, ?_, .inl hnone⟩
  rw [forget_eq_self next hreturned, hforgotten, hfragment]

theorem Shut.pull (h : r.Shut) : r.pull.1 = .failed Closable.fault ∧ r.pull.2.Shut := by
  rcases h.parked with hparked | hparked
  . have hdevice : r.forget.device.device = .closed := by
      rw [device_forget]
      exact h.device
    have hsaved : r.forget.saved = none := by
      rw [saved_forget]
      exact h.saved
    obtain ⟨t, ht, hgather⟩ := gather_of_closed_of_fragment_eq_none hdevice h.fragment
    rw [Reader.pull, advance_of_not_parked hparked, gatherSaved, hsaved]
    dsimp only
    rw [hgather]
    refine ⟨rfl, ht, hsaved, ?_, .inl ((parked_forget r).trans hparked)⟩
    rw [deliver, forget_exchange, forget_eq_self _ (returned_forget r)]
    exact h.fragment
  . exact shut_of_parked h.device h.saved h.fragment hparked

theorem Shut.pulls (h : r.Shut) (n : Nat) :
    (r.pulls (fun _ t => t) n).1 = .failed Closable.fault ∧ (r.pulls (fun _ t => t) n).2.Shut := by
  induction n with
  | zero => exact h.pull
  | succ n ih => exact ih.2.pull

omit [Device δ] in
theorem takeIn_of_fragment_eq_none (r : Reader δ) {raw : Octets} (h : r.fragment = none) (hraw : raw.length ≤ bufferSize) :
    r.takeIn raw = (some (.physical (.decode raw)), r) ∨
      ∃ f, (r.takeIn raw).1 = none ∧ (r.takeIn raw).2.fragment = some f ∧
        f.header.toRecord f.message = (Physical.decode raw).toRecord := by
  have hmessage : (Physical.decode raw).message.take bufferSize = (Physical.decode raw).message :=
    List.take_of_length_le (Nat.le_trans (Physical.length_message_le raw) hraw)
  unfold takeIn
  dsimp only
  rw [h]
  split
  . refine .inr ⟨_, rfl, rfl, ?_⟩
    simp [h, Fragment.append, hmessage, Physical.toRecord]
  . refine .inr ⟨_, rfl, rfl, ?_⟩
    simp [h, Fragment.append, hmessage, Physical.toRecord]
  . contradiction
  . contradiction
  . exact .inl rfl
  . exact .inl rfl

theorem pull_of_closed_of_saved {raw : Octets} (h : r.device.device = .closed) (hsaved : r.saved = some raw)
    (hraw : raw.length ≤ bufferSize) (hfragment : r.forget.fragment = none) (hparked : r.parked = none) :
    r.pull.1 = .found (Physical.decode raw).toRecord ∧ r.pull.2.Shut := by
  have hdevice : r.forget.device.device = .closed := by
    rw [device_forget]
    exact h
  have hsaved' : r.forget.saved = some raw := by
    rw [saved_forget]
    exact hsaved
  have hparked' : r.forget.parked = none := by
    rw [parked_forget]
    exact hparked
  have hunsaved := saved_takeIn_of_fragment_eq_none (r := { r.forget with saved := none }) hfragment raw
  have hkept := device_takeIn { r.forget with saved := none } raw
  rw [Reader.pull, advance_of_not_parked hparked, gatherSaved, hsaved']
  dsimp only
  rcases takeIn_of_fragment_eq_none { r.forget with saved := none } hfragment hraw with htake | ⟨f, hmore, hf, hrecord⟩
  . rw [htake]
    refine ⟨rfl, hdevice, rfl, ?_, .inl hparked'⟩
    rw [deliver, forget_eq_self]
    . exact hfragment
    . exact returned_forget r
  . generalize { r.forget with saved := none }.takeIn raw = took at *
    obtain ⟨gathered, taken⟩ := took
    obtain rfl : gathered = none := hmore
    dsimp only at hf hunsaved hkept ⊢
    obtain ⟨t, ht, hgather⟩ := gather_of_closed_of_fragment (hkept ▸ hdevice) hf
    rw [hgather]
    exact ⟨congrArg Pull.found hrecord, ht, hunsaved, rfl, .inr rfl⟩

theorem Run.close_cases (hroom : Device.InRoom δ) {gs : List Gathered} (h : Run gs r) :
    (∃ raw, r.saved = some raw ∧ r.parked = none ∧ r.close.pull.1 = .found (Physical.decode raw).toRecord ∧
        r.close.pull.2.Shut) ∨
      (∃ fault, r.saved = none ∧ r.parked = some fault ∧ r.close.pull.1 = .failed fault ∧ r.close.pull.2.Shut) ∨
      (r.saved = none ∧ r.parked = none ∧ r.close.pull.1 = .failed Closable.fault ∧ r.close.pull.2.Shut) := by
  have hdevice : r.close.device.device = .closed := rfl
  have hforget : r.close.forget.fragment = none := by
    rw [close, forget_exchange]
    exact h.forget_fragment
  cases hparked : r.parked with
  | some fault =>
    have hsaved := h.saved_eq_none_of_parked hparked
    exact .inr (.inl ⟨fault, hsaved, rfl, shut_of_parked hdevice hsaved hforget hparked⟩)
  | none =>
    cases hsaved : r.saved with
    | some raw =>
      have hraw := h.length_saved hroom.closable hsaved
      exact .inl ⟨raw, rfl, rfl, pull_of_closed_of_saved hdevice hsaved hraw hforget hparked⟩
    | none =>
      have hshut : r.close.Shut := ⟨hdevice, hsaved, hforget, .inl hparked⟩
      exact .inr (.inr ⟨rfl, rfl, hshut.pull⟩)

theorem pulls_of_shut {owed : List (Pull Record Fault)} (hlength : owed.length ≤ 1)
    (hpull : r.pull.1 = owed.headD (.failed Closable.fault)) (h : r.pull.2.Shut) (n : Nat) :
    (r.pulls (fun _ t => t) n).1 = owed.getD n (.failed Closable.fault) := by
  cases n with
  | zero =>
    rw [pulls, hpull]
    cases owed with
    | nil => rfl
    | cons p owed => rfl
  | succ n =>
    have hpast : owed.length ≤ n + 1 := by omega
    rw [pulls_succ (Prod.ext rfl rfl), List.getD_eq_getElem?_getD, List.getElem?_eq_none hpast]
    exact (h.pulls n).1

theorem drain_of_found {record : Record} (h : r.pull.1 = .found record) :
    (Source.drain r).records = record :: (Source.drain r.pull.2).records ∧
      (Source.drain r).last = (Source.drain r.pull.2).last := by
  rw [Source.drain_of_found (Prod.ext h rfl)]
  exact ⟨rfl, rfl⟩

theorem drain_of_failed {fault : Fault} (h : r.pull.1 = .failed fault) :
    (Source.drain r).records = [] ∧ (Source.drain r).last = .failed fault := by
  rw [Source.drain_of_not_found (Prod.ext h rfl) rfl]
  exact ⟨rfl, rfl⟩

theorem Shut.drain (h : r.Shut) :
    (Source.drain r).records = [] ∧ (Source.drain r).last = .failed Closable.fault :=
  drain_of_failed h.pull.1

/--
A reader whose device is closed between two pulls, whatever it has pulled before. It owes at most one thing: the record
that it has saved, or the fault that it has parked. This is what the next pull gives, and all other pulls fail because
the device is closed. A scan therefore ends with a fault, whether it was started before or not, and the saved record is
counted and printed by it.
-/
theorem Run.pulls_close (hroom : Device.InRoom δ) {gs : List Gathered} (h : Run gs r) :
    let held := r.saved.toList.map fun raw => (Physical.decode raw).toRecord
    let owed := held.map Pull.found ++ r.parked.toList.map Pull.failed
    (owed.length ≤ 1 ∧ (∀ n, (r.close.pulls (fun _ t => t) n).1 = owed.getD n (.failed Closable.fault)) ∧
        (Source.drain r.close).records = held ∧
        (Source.drain r.close).last = .failed (r.parked.getD Closable.fault)) ∧
      Closable.fault.kind = .notConnected ∧
      ∀ {ω : Type} [Sink ω] (filter : Filter) (count : Nat) (printer : Option (Printer ω)),
        let printed := printAll printer (held.filter filter.accepts)
        printed.fault = none →
          (scan.go filter count r.close printer).1 =
            (finish (count + (held.filter filter.accepts).length) printed.printer).1 := by
  intro held owed
  have hends : owed.length ≤ 1 ∧
      (∀ n, (r.close.pulls (fun _ t => t) n).1 = owed.getD n (.failed Closable.fault)) ∧
      (Source.drain r.close).records = held ∧
      (Source.drain r.close).last = .failed (r.parked.getD Closable.fault) := by
    rcases h.close_cases hroom with
      ⟨raw, hsaved, hparked, hpull, hshut⟩ | ⟨fault, hsaved, hparked, hpull, hshut⟩ |
        ⟨hsaved, hparked, hpull, hshut⟩
    . have hheld : held = [(Physical.decode raw).toRecord] := by
        simp [held, hsaved]
      have howed : owed = [.found (Physical.decode raw).toRecord] := by
        simp [owed, hheld, hparked]
      obtain ⟨hrecords, hlast⟩ := drain_of_found hpull
      obtain ⟨hnone, hfailed⟩ := hshut.drain
      rw [hrecords, hlast, hnone, hfailed, howed, hheld, hparked]
      exact ⟨Nat.le_refl 1, pulls_of_shut (Nat.le_refl 1) hpull hshut, rfl, rfl⟩
    . have hheld : held = [] := by
        simp [held, hsaved]
      have howed : owed = [.failed fault] := by
        simp [owed, hheld, hparked]
      obtain ⟨hrecords, hlast⟩ := drain_of_failed hpull
      rw [hrecords, hlast, howed, hheld, hparked]
      exact ⟨Nat.le_refl 1, pulls_of_shut (Nat.le_refl 1) hpull hshut, rfl, rfl⟩
    . have hheld : held = [] := by
        simp [held, hsaved]
      have howed : owed = [] := by
        simp [owed, hheld, hparked]
      obtain ⟨hrecords, hlast⟩ := drain_of_failed hpull
      rw [hrecords, hlast, howed, hheld, hparked]
      exact ⟨Nat.zero_le 1, pulls_of_shut (Nat.zero_le 1) hpull hshut, rfl, rfl⟩
  refine ⟨hends, rfl, ?_⟩
  intro ω _ filter count printer printed hprinted
  have haccepted : accepted r.close filter = held.filter filter.accepts := by
    rw [accepted, hends.2.2.1]
  have hgo : scan.go filter count r.close printer = _ := scan.go_of_fault_eq_none count (by rwa [haccepted])
  rw [hgo, haccepted]

theorem Run.pulls_close_primed :
    ∃ r : Reader (Tapped (Closable Script)), openDevice (.ofDevice (.opened brokenLine)) true = .ok r ∧
      Device.InRoom Script ∧ Run [] r ∧ r.saved = some (Octets.ofString "6,1,5,c;ab") ∧
      ((r.close.pulls (fun _ t => t) 0).1.found?.map (·.message)) = some (Octets.ofString "ab") ∧
      ∀ n, (r.close.pulls (fun _ t => t) (n + 1)).1 = .failed Closable.fault := by
  have hsaved := (by decide +kernel :
    (openDevice (Tapped.ofDevice (Closable.opened brokenLine)) true).toOption.map (fun r => (r.saved, r.parked)) =
      some (some (Octets.ofString "6,1,5,c;ab"), none))
  cases hopen : openDevice (Tapped.ofDevice (Closable.opened brokenLine)) true with
  | error fault =>
    rw [hopen] at hsaved
    cases hsaved
  | ok r =>
    rw [hopen] at hsaved
    obtain ⟨hsaved, hparked⟩ := Prod.mk.inj (Option.some.inj hsaved)
    have hrun : Run [] r := .opened hopen
    obtain ⟨⟨-, hpulls, -, -⟩, -⟩ := hrun.pulls_close Script.inRoom
    rw [hsaved, hparked] at hpulls
    refine ⟨r, rfl, Script.inRoom, hrun, hsaved, ?_, ?_⟩
    . rw [hpulls 0]
      decide +kernel
    . intro n
      rw [hpulls (n + 1)]
      rfl

end Reader
end KernelLog.Kmsg
