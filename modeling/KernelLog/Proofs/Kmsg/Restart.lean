import KernelLog.Proofs.Kmsg.Faults
import KernelLog.Proofs.Kmsg.Simulation

/-!
This module contains what a reader carries from one pull to the next. Main statement: between two pulls a reader is as
good as a new one, but for the record that it has saved and the fault that it has parked.
-/

namespace KernelLog.Kmsg

variable {δ ε : Type}

/--
A relation between devices that calls keep, and that makes every call have the same outcome on both.
-/
structure Device.Mimics [Device δ] [Device ε] (S : δ → ε → Prop) : Prop where
  read : ∀ {d e}, S d e → ∀ room,
    (Device.read room e).1 = (Device.read room d).1 ∧ S (Device.read room d).2 (Device.read room e).2
  wait : ∀ {d e}, S d e → (Device.wait e).1 = (Device.wait d).1 ∧ S (Device.wait d).2 (Device.wait e).2

theorem Device.mimics_eq [Device δ] : Device.Mimics (Eq (α := δ)) where
  read := by
    rintro d e rfl room
    exact ⟨rfl, rfl⟩
  wait := by
    rintro d e rfl
    exact ⟨rfl, rfl⟩

namespace Reader

structure Alike (S : δ → ε → Prop) (r : Reader δ) (r' : Reader ε) : Prop where
  device : S r.device r'.device
  follow : r'.follow = r.follow
  saved : r'.saved = r.saved
  fragment : r'.fragment = r.fragment
  returned : r'.returned = r.returned
  parked : r'.parked = r.parked

namespace Alike

variable {S : δ → ε → Prop} {r : Reader δ} {r' : Reader ε}

theorem exchange (h : r.Alike S r') {d : δ} {e : ε} (hdevice : S d e) :
    { r with device := d }.Alike S { r' with device := e } :=
  { h with device := hdevice }

theorem forget (h : r.Alike S r') : r.forget.Alike S r'.forget := by
  unfold Reader.forget
  rw [h.returned]
  split
  . exact { h with fragment := rfl, returned := rfl }
  . exact h

theorem deliver (h : r.Alike S r') (g : Gathered) : (r.deliver g).Alike S (r'.deliver g) := by
  cases g with
  | physical p => exact { h with }
  | fragment f => exact { h with returned := rfl }
  | done => exact h
  | failed fault => exact h

theorem join (h : r.Alike S r') (p : Physical) :
    (r'.join p).1 = (r.join p).1 ∧ (r.join p).2.Alike S (r'.join p).2 := by
  unfold Reader.join
  dsimp only
  rw [h.fragment]
  exact ⟨rfl, { h with fragment := rfl }⟩

theorem takeIn (h : r.Alike S r') (raw : Octets) :
    (r'.takeIn raw).1 = (r.takeIn raw).1 ∧ (r.takeIn raw).2.Alike S (r'.takeIn raw).2 := by
  obtain ⟨hjoined, hjoin⟩ := h.join (.decode raw)
  unfold Reader.takeIn
  dsimp only
  rw [h.fragment]
  split
  . exact ⟨rfl, hjoin⟩
  . exact ⟨rfl, hjoin⟩
  . exact ⟨by rw [hjoined], hjoin⟩
  . exact ⟨rfl, { h with saved := rfl, fragment := rfl }⟩
  . exact ⟨rfl, h⟩
  . exact ⟨rfl, h⟩

theorem receive (h : r.Alike S r') (a : Arrival) :
    (r'.receive a).1 = (r.receive a).1 ∧ (r.receive a).2.Alike S (r'.receive a).2 := by
  cases a with
  | record raw =>
    have hcounted : { r with reads := r.reads + 1 }.Alike S { r' with reads := r'.reads + 1 } := { h with }
    exact hcounted.takeIn raw
  | retry => exact ⟨rfl, { h with }⟩
  | dry =>
    unfold Reader.receive atEnd
    rw [h.fragment]
    exact ⟨rfl, h⟩
  | failed fault =>
    unfold Reader.receive onFault
    dsimp only
    rw [h.fragment]
    split
    . exact ⟨rfl, { h with fragment := rfl, parked := rfl }⟩
    . exact ⟨rfl, h⟩

variable [Device δ] [Device ε]

theorem readOnce (hS : Device.Mimics S) (h : r.Alike S r') :
    r'.readOnce.1 = r.readOnce.1 ∧ r.readOnce.2.Alike S r'.readOnce.2 := by
  obtain ⟨houtcome, hdevice⟩ := hS.read h.device bufferSize
  unfold Reader.readOnce
  dsimp only
  rw [houtcome]
  exact (h.exchange hdevice).receive _

theorem awaitRest (hS : Device.Mimics S) (h : r.Alike S r') :
    r'.awaitRest.1 = r.awaitRest.1 ∧ r.awaitRest.2.Alike S r'.awaitRest.2 := by
  obtain ⟨houtcome, hdevice⟩ := hS.wait h.device
  unfold Reader.awaitRest
  rw [h.follow, h.fragment]
  split
  . dsimp only
    rw [houtcome]
    split
    . exact ⟨rfl, { h with device := hdevice, follow := rfl, fragment := rfl }⟩
    . exact ⟨rfl, { h with device := hdevice, follow := rfl, fragment := rfl }⟩
    . exact ⟨rfl, { h with device := hdevice, follow := rfl, fragment := rfl, parked := rfl }⟩
  . exact ⟨rfl, h⟩

theorem turn (hS : Device.Mimics S) (h : r.Alike S r') :
    r'.turn.1 = r.turn.1 ∧ r.turn.2.Alike S r'.turn.2 := by
  obtain ⟨hgathered, halike⟩ := h.awaitRest hS
  unfold Reader.turn
  generalize r.awaitRest = awaited at *
  generalize r'.awaitRest = awaited' at *
  obtain ⟨gathered, waited⟩ := awaited
  obtain ⟨gathered', waited'⟩ := awaited'
  obtain rfl : gathered' = gathered := hgathered
  cases gathered' with
  | some g => exact ⟨rfl, halike⟩
  | none => exact halike.readOnce hS

theorem gather (hS : Device.Mimics S) (h : r.Alike S r') :
    r'.gather.1 = r.gather.1 ∧ r.gather.2.Alike S r'.gather.2 := by
  fun_induction Reader.gather r generalizing r' with
  | case1 r g next hturn =>
    obtain ⟨hgathered, halike⟩ := h.turn hS
    rw [hturn] at hgathered halike
    rw [gather_of_turn_some (Prod.ext hgathered rfl)]
    exact ⟨rfl, halike⟩
  | case2 r next hturn ih =>
    obtain ⟨hgathered, halike⟩ := h.turn hS
    rw [hturn] at hgathered halike
    rw [gather_of_turn_none (Prod.ext hgathered rfl)]
    exact ih halike

theorem gatherSaved (hS : Device.Mimics S) (h : r.Alike S r') :
    r'.gatherSaved.1 = r.gatherSaved.1 ∧ r.gatherSaved.2.Alike S r'.gatherSaved.2 := by
  unfold Reader.gatherSaved
  rw [h.saved]
  split
  . next raw _ =>
    have hunsaved : { r with saved := none }.Alike S { r' with saved := none } := { h with saved := rfl }
    obtain ⟨hgathered, halike⟩ := hunsaved.takeIn raw
    generalize { r with saved := none }.takeIn raw = took at *
    generalize { r' with saved := none }.takeIn raw = took' at *
    obtain ⟨gathered, taken⟩ := took
    obtain ⟨gathered', taken'⟩ := took'
    obtain rfl : gathered' = gathered := hgathered
    cases gathered' with
    | some g => exact ⟨rfl, halike⟩
    | none => exact halike.gather hS
  . exact h.gather hS

theorem pull (hS : Device.Mimics S) (h : r.Alike S r') :
    r'.pull.1 = r.pull.1 ∧ r.pull.2.Alike S r'.pull.2 := by
  unfold Reader.pull
  cases hparked : r.parked with
  | some fault =>
    rw [advance_of_parked hparked, advance_of_parked (h.parked.trans hparked)]
    exact ⟨rfl, { h.forget with parked := rfl }⟩
  | none =>
    obtain ⟨hgathered, halike⟩ := h.forget.gatherSaved hS
    rw [advance_of_not_parked hparked, advance_of_not_parked (h.parked.trans hparked)]
    dsimp only
    rw [hgathered]
    exact ⟨rfl, halike.deliver _⟩

theorem pulls (hS : Device.Mimics S) (h : r.Alike S r') {meanwhile : Nat → δ → δ} {meanwhile' : Nat → ε → ε}
    (hmeanwhile : ∀ n d e, S d e → S (meanwhile n d) (meanwhile' n e)) (n : Nat) :
    (r'.pulls meanwhile' n).1 = (r.pulls meanwhile n).1 ∧
      (r.pulls meanwhile n).2.Alike S (r'.pulls meanwhile' n).2 := by
  induction n with
  | zero => exact h.pull hS
  | succ n ih => exact (ih.2.exchange (hmeanwhile n _ _ ih.2.device)).pull hS

end Alike
end Reader

/--
A device to which a record may be put back. The next read gives that record, and the device is not called before.
-/
structure PutBack (δ : Type) where
  device : δ
  record : Option Octets

namespace PutBack

def map (f : δ → δ) (t : PutBack δ) : PutBack δ :=
  { t with device := f t.device }

instance [Device δ] : Device (PutBack δ) where
  read room t :=
    match t.record with
    | some raw => (.ok raw, { t with record := none })
    | none => let (outcome, device) := Device.read room t.device; (outcome, { t with device })
  wait t :=
    match t.record with
    | some _ => (.ok true, t)
    | none => let (outcome, device) := Device.wait t.device; (outcome, { t with device })
  backlog t := Device.backlog t.device + t.record.toList.length
  backlog_read_le room t := by
    obtain ⟨d, record⟩ := t
    cases record with
    | some raw => exact Nat.le_add_right _ _
    | none => exact Device.backlog_read_le room d
  backlog_read_lt room t := by
    obtain ⟨d, record⟩ := t
    cases record with
    | some raw => exact fun _ => Nat.lt_succ_self _
    | none => exact Device.backlog_read_lt room d
  backlog_wait_le t := by
    obtain ⟨d, record⟩ := t
    cases record with
    | some raw => exact Nat.le_refl _
    | none => exact Device.backlog_wait_le d

variable [Device δ]

theorem mimics : Device.Mimics fun (d : δ) (t : PutBack δ) => t = { device := d, record := none } where
  read := by
    rintro d e rfl room
    exact ⟨rfl, rfl⟩
  wait := by
    rintro d e rfl
    exact ⟨rfl, rfl⟩

end PutBack

def Call.isDry : Call → Bool
  | read outcome => Arrival.ofRead outcome = .dry
  | wait (.ok readable) => !readable
  | wait (.error _) => false

theorem Call.not_isDry_of_ne_nil {raw : Octets} (h : raw ≠ []) : (Call.read (.ok raw)).isDry = false := by
  rw [isDry, Arrival.ofRead_eq_record_iff.mpr ⟨rfl, h⟩]
  rfl

theorem Call.not_isDry_of_fatal? {c : Call} {fault : Fault} (h : c.fatal? = some fault) : c.isDry = false := by
  cases c with
  | read outcome =>
    rw [fatal?] at h
    rw [isDry]
    cases harrival : Arrival.ofRead outcome with
    | failed fault => rfl
    | dry =>
      rw [harrival] at h
      cases h
    | record raw => rfl
    | retry => rfl
  | wait outcome =>
    cases outcome with
    | ok readable => cases h
    | error fault => rfl

namespace Reader

def SavedLast (r : Reader (Tapped δ)) : Prop :=
  ∀ raw, r.saved = some raw → raw ≠ [] ∧ r.device.calls.getLast? = some (.read (.ok raw))

theorem savedLast_of_eq_none {r : Reader (Tapped δ)} (h : r.saved = none) : SavedLast r := by
  intro raw hraw
  rw [h] at hraw
  cases hraw

theorem saved_takeIn_of_fragment_eq_none {r : Reader δ} (h : r.fragment = none) (raw : Octets) :
    (r.takeIn raw).2.saved = r.saved := by
  unfold takeIn
  dsimp only
  rw [h]
  split <;> first | rfl | contradiction

theorem saved_receive_cases (r : Reader δ) (a : Arrival) :
    (r.receive a).2.saved = r.saved ∨ ∃ raw, a = .record raw ∧ (r.receive a).2.saved = some raw := by
  cases a with
  | record raw =>
    unfold receive takeIn
    dsimp only
    split
    . exact .inl rfl
    . exact .inl rfl
    . exact .inl rfl
    . exact .inr ⟨raw, rfl, rfl⟩
    . exact .inl rfl
    . exact .inl rfl
  | retry => exact .inl rfl
  | dry => exact .inl rfl
  | failed fault => exact .inl (saved_onFault r fault)

variable [Device δ] {r : Reader (Tapped δ)}

theorem savedLast_readOnce (h : r.saved = none) : SavedLast r.readOnce.2 := by
  rcases saved_receive_cases { r with device := (Device.read bufferSize r.device).2 }
    (.ofRead (Device.read bufferSize r.device).1) with hsaved | ⟨raw, harrival, hsaved⟩
  . exact savedLast_of_eq_none (hsaved.trans h)
  . obtain ⟨houtcome, hne⟩ := Arrival.ofRead_eq_record_iff.mp harrival
    intro raw' hraw'
    obtain rfl : raw = raw' := Option.some.inj (hsaved.symm.trans hraw')
    refine ⟨hne, ?_⟩
    rw [readOnce, device_receive, Tapped.calls_read, List.getLast?_concat, houtcome]

theorem savedLast_turn (h : r.saved = none) : SavedLast r.turn.2 := by
  rcases turn_cases r with ⟨-, hturn⟩ | ⟨f, -, -, ⟨-, hturn⟩ | ⟨-, hturn⟩ | ⟨fault, -, hturn⟩⟩
  . rw [hturn]
    exact savedLast_readOnce h
  . rw [hturn]
    apply savedLast_readOnce
    exact h
  . rw [hturn]
    exact savedLast_of_eq_none h
  . rw [hturn]
    exact savedLast_of_eq_none h

theorem savedLast_gather (h : r.saved = none) : SavedLast r.gather.2 := by
  refine gather_induct (P := fun r => r.saved = none) (Q := fun _ r => SavedLast r) ?_ ?_ r h
  . intro r h hturn
    obtain ⟨-, -, -, hsaved, -⟩ := exists_turn_none hturn
    exact hsaved.trans h
  . intro r g h _
    exact savedLast_turn h

theorem savedLast_gatherSaved (h : r.fragment = none) : SavedLast r.gatherSaved.2 := by
  unfold gatherSaved
  split
  . next raw _ =>
    have hsaved := saved_takeIn_of_fragment_eq_none (r := { r with saved := none }) h raw
    split
    . next heq =>
      rw [heq] at hsaved
      exact savedLast_of_eq_none hsaved
    . next heq =>
      rw [heq] at hsaved
      exact savedLast_gather hsaved
  . next hsaved => exact savedLast_gather hsaved

theorem savedLast_openDevice (r opened : Reader (Tapped δ)) (hsaved : r.saved = none)
    (hopen : openDevice.go r = .ok opened) : SavedLast opened := by
  fun_induction openDevice.go r with
  | case1 r read r' raw harrival =>
    cases hopen
    obtain ⟨houtcome, hne⟩ := Arrival.ofRead_eq_record_iff.mp harrival
    rintro raw' ⟨⟩
    refine ⟨hne, ?_⟩
    rw [Tapped.calls_read, List.getLast?_concat, houtcome]
  | case2 r read r' harrival ih => exact ih hsaved hopen
  | case3 r read r' harrival =>
    rw [Except.ok.injEq] at hopen
    rw [← hopen]
    exact savedLast_of_eq_none hsaved
  | case4 => cases hopen

theorem Run.forget_fragment {gs : List Gathered} (h : Run gs r) : r.forget.fragment = none := by
  obtain ⟨lines, hgave⟩ := h.gave
  exact hgave.accounts.fragment

theorem Run.savedLast {gs : List Gathered} (h : Run gs r) : SavedLast r := by
  induction h with
  | new device follow => exact savedLast_of_eq_none rfl
  | @opened device follow r hopen => exact savedLast_openDevice _ r rfl hopen
  | exchanged device _ ih => exact ih
  | @pulled gs r hrun ih =>
    have hforget : SavedLast r.forget := by
      unfold SavedLast
      rw [saved_forget, device_forget]
      exact ih
    unfold pull
    cases hparked : r.parked with
    | some fault =>
      rw [advance_of_parked hparked]
      exact hforget
    | none =>
      rw [advance_of_not_parked hparked]
      unfold SavedLast
      rw [saved_deliver, device_deliver]
      exact savedLast_gatherSaved hrun.forget_fragment

theorem Run.parked_last {gs : List Gathered} (h : Run gs r) {fault : Fault} (hparked : r.parked = some fault) :
    ∃ c, r.device.calls.getLast? = some c ∧ c.fatal? = some fault := by
  obtain ⟨es, hes, -⟩ := h.exists_history
  obtain ⟨before, c, f, rfl, hc⟩ := hes.surfaces.parked fault hparked
  refine ⟨c, ?_, hc⟩
  rw [← hes.calls, List.filterMap_append]
  exact List.getLast?_concat

theorem Run.saved_eq_none_of_last {gs : List Gathered} (h : Run gs r) {c : Call}
    (hlast : r.device.calls.getLast? = some c) (hc : ∀ raw, raw ≠ [] → c ≠ .read (.ok raw)) : r.saved = none := by
  cases hsaved : r.saved with
  | none => rfl
  | some raw =>
    obtain ⟨hne, hlast'⟩ := h.savedLast raw hsaved
    exact absurd (Option.some.inj (hlast.symm.trans hlast')) (hc raw hne)

theorem Run.saved_eq_none_of_parked {gs : List Gathered} (h : Run gs r) {fault : Fault}
    (hparked : r.parked = some fault) : r.saved = none := by
  obtain ⟨c, hlast, hc⟩ := h.parked_last hparked
  apply h.saved_eq_none_of_last hlast
  rintro raw hne rfl
  rw [Call.fatal?, Arrival.ofRead_eq_record_iff.mpr ⟨rfl, hne⟩] at hc
  cases hc

theorem Run.saved_eq_none_of_isDry {gs : List Gathered} (h : Run gs r) {c : Call}
    (hlast : r.device.calls.getLast? = some c) (hdry : c.isDry) : r.saved = none := by
  apply h.saved_eq_none_of_last hlast
  rintro raw hne rfl
  rw [Call.not_isDry_of_ne_nil hne] at hdry
  cases hdry

theorem Run.parked_eq_none_of_isDry {gs : List Gathered} (h : Run gs r) {c : Call}
    (hlast : r.device.calls.getLast? = some c) (hdry : c.isDry) : r.parked = none := by
  cases hparked : r.parked with
  | none => rfl
  | some fault =>
    obtain ⟨c', hlast', hfatal⟩ := h.parked_last hparked
    obtain rfl : c = c' := Option.some.inj (hlast.symm.trans hlast')
    rw [Call.not_isDry_of_fatal? hfatal] at hdry
    cases hdry

theorem pull_forget [Device ε] (r : Reader ε) : r.forget.pull = r.pull := by
  unfold pull advance
  rw [forget_eq_self r.forget (returned_forget r)]

theorem pull_putBack (d : δ) (follow : Bool) {record : Option Octets} (hrecord : record ≠ some []) :
    (new (PutBack.mk d record) follow).pull =
      { new (PutBack.mk d none) follow with saved := record, reads := record.toList.length }.pull := by
  cases record with
  | none => rfl
  | some raw =>
    have harrival : Arrival.ofRead (.ok raw) = .record raw :=
      Arrival.ofRead_eq_record_iff.mpr ⟨rfl, fun hraw => hrecord (congrArg some hraw)⟩
    have hread : Device.read bufferSize (PutBack.mk d (some raw)) = (.ok raw, PutBack.mk d none) := rfl
    have hturn := turn_of_fragment_eq_none (r := new (PutBack.mk d (some raw)) follow) rfl
    rw [new, hread, harrival] at hturn
    have hgather : (new (PutBack.mk d (some raw)) follow).gather =
        { new (PutBack.mk d none) follow with saved := some raw, reads := 1 }.gatherSaved :=
      gather_eq_gatherSaved rfl hturn
    rw [pull_of_gatherSaved rfl rfl, pull_of_gatherSaved rfl rfl]
    exact congrArg (fun gathered => (gathered.1.toPull, gathered.2.deliver gathered.1)) hgather

omit [Device δ] in
theorem follow_forget (r : Reader δ) : r.forget.follow = r.follow := by
  unfold forget
  split <;> rfl

omit [Device δ] in
theorem alike_new {S : δ → ε → Prop} {r : Reader δ} (hfragment : r.forget.fragment = none) (hparked : r.parked = none)
    {e : ε} (he : S r.device e) (reads : Nat) :
    r.forget.Alike S { new e r.follow with saved := r.saved, reads } where
  device := by rwa [device_forget]
  follow := (follow_forget r).symm
  saved := (saved_forget r).symm
  fragment := hfragment.symm
  returned := (returned_forget r).symm
  parked := by rw [parked_forget, hparked, new]

theorem Alike.pulls_of_forget [Device ε] {S : δ → ε → Prop} {r : Reader δ} {r' : Reader ε} (hS : Device.Mimics S)
    (h : r.forget.Alike S r') {meanwhile : Nat → δ → δ} {meanwhile' : Nat → ε → ε}
    (hmeanwhile : ∀ n d e, S d e → S (meanwhile n d) (meanwhile' n e)) (n : Nat) :
    (r'.pulls meanwhile' n).1 = (r.pulls meanwhile n).1 ∧
      S (r.pulls meanwhile n).2.device (r'.pulls meanwhile' n).2.device := by
  rw [← pulls_congr (pull_forget r)]
  obtain ⟨hpull, halike⟩ := h.pulls hS hmeanwhile n
  exact ⟨hpull, halike.device⟩

theorem exists_pull_of_parked {r : Reader δ} {fault : Fault} (h : r.parked = some fault) :
    ∃ next, r.pull = (.failed fault, next) ∧ next.device = r.device ∧ next.follow = r.follow ∧ next.saved = r.saved ∧
      next.fragment = r.forget.fragment ∧ next.returned = false ∧ next.parked = none := by
  refine ⟨{ r.forget with parked := none }, ?_, device_forget r, follow_forget r, saved_forget r, rfl,
    returned_forget r, rfl⟩
  rw [pull, advance_of_parked h]
  rfl

theorem pulls_new {r : Reader δ} (hfragment : r.forget.fragment = none) (hsaved : r.saved = none)
    (hparked : r.parked = none) (meanwhile : Nat → δ → δ) (n : Nat) :
    ((new r.device r.follow).pulls meanwhile n).1 = (r.pulls meanwhile n).1 ∧
      ((new r.device r.follow).pulls meanwhile n).2.device = (r.pulls meanwhile n).2.device := by
  have halike := alike_new (S := Eq) hfragment hparked rfl 0
  rw [hsaved] at halike
  obtain ⟨hpull, hdevice⟩ := halike.pulls_of_forget Device.mimics_eq (fun k _ _ h => congrArg (meanwhile k) h) n
  exact ⟨hpull, hdevice.symm⟩

theorem pulls_of_not_parked {gs : List Gathered} (h : Run gs r) (hparked : r.parked = none)
    (meanwhile : Nat → Tapped δ → Tapped δ) (n : Nat) :
    let renewed := (new (PutBack.mk r.device r.saved) r.follow).pulls (fun k => .map (meanwhile k)) n
    renewed.1 = (r.pulls meanwhile n).1 ∧ renewed.2.device = .mk (r.pulls meanwhile n).2.device none := by
  intro renewed
  have hrecord : r.saved ≠ some [] := fun hsaved => (h.savedLast [] hsaved).1 rfl
  have halike := alike_new (S := fun d t => t = PutBack.mk d none) h.forget_fragment hparked rfl
    r.saved.toList.length
  have hrenewed : renewed = _ := pulls_congr (pull_putBack r.device r.follow hrecord) _ n
  rw [hrenewed]
  apply halike.pulls_of_forget PutBack.mimics
  rintro n d t rfl
  rfl

theorem pulls_of_parked {gs : List Gathered} (h : Run gs r) {fault : Fault} (hparked : r.parked = some fault)
    (meanwhile : Nat → Tapped δ → Tapped δ) :
    r.pull.1 = .failed fault ∧ r.pull.2.device = r.device ∧ ∀ n,
      let renewed := (new (meanwhile 0 r.device) r.follow).pulls (fun k => meanwhile (k + 1)) n
      renewed.1 = (r.pulls meanwhile (n + 1)).1 ∧ renewed.2.device = (r.pulls meanwhile (n + 1)).2.device := by
  obtain ⟨next, hpull, hdevice, hfollow, hsaved, hfragment, hreturned, hparked'⟩ := exists_pull_of_parked hparked
  rw [hpull]
  refine ⟨rfl, hdevice, ?_⟩
  intro n
  have hforget : { next with device := meanwhile 0 next.device }.forget.fragment = none := by
    rw [forget_eq_self { next with device := meanwhile 0 next.device } hreturned]
    exact hfragment.trans h.forget_fragment
  have hnext := pulls_new hforget (hsaved.trans (h.saved_eq_none_of_parked hparked)) hparked'
    (fun k => meanwhile (k + 1)) n
  dsimp only at hnext
  rwa [← pulls_succ hpull, hdevice, hfollow] at hnext

/--
Between two pulls a reader carries nothing on but the record that it has saved and the fault that it has parked. Without
a parked fault, all further pulls are those of a new reader of the device, the saved record put back. With one, the next
pull gives it without a call, and the pulls behind it are those of a new reader. What is saved is the record that the
device gave last, and what is parked is the fault of its last call. If that call has found nothing, all further pulls
are those of a new reader of the device as it is. A reader with buffers pulls the same, whatever earlier records have
left in its buffer. This is so whatever happens to the device between two pulls.
-/
theorem pulls_eq_new {gs : List Gathered} (h : Run gs r) (meanwhile : Nat → Tapped δ → Tapped δ) :
    (r.parked = none → ∀ n,
        let renewed := (new (PutBack.mk r.device r.saved) r.follow).pulls (fun k => .map (meanwhile k)) n
        renewed.1 = (r.pulls meanwhile n).1 ∧ renewed.2.device = .mk (r.pulls meanwhile n).2.device none) ∧
      (∀ fault, r.parked = some fault →
        r.saved = none ∧ r.pull.1 = .failed fault ∧ r.pull.2.device = r.device ∧ ∀ n,
          let renewed := (new (meanwhile 0 r.device) r.follow).pulls (fun k => meanwhile (k + 1)) n
          renewed.1 = (r.pulls meanwhile (n + 1)).1 ∧
            renewed.2.device = (r.pulls meanwhile (n + 1)).2.device) ∧
      (∀ raw, r.saved = some raw → r.device.calls.getLast? = some (.read (.ok raw))) ∧
      (∀ fault, r.parked = some fault → ∃ c, r.device.calls.getLast? = some c ∧ c.fatal? = some fault) ∧
      (∀ c, r.device.calls.getLast? = some c → c.isDry → ∀ n,
        let renewed := (new r.device r.follow).pulls meanwhile n
        renewed.1 = (r.pulls meanwhile n).1 ∧ renewed.2.device = (r.pulls meanwhile n).2.device) ∧
      (Device.InRoom δ → ∀ litter, KeepsSize litter → ∀ b : Buffered (Tapped δ), b.Sound → b.toReader = r → ∀ n,
        ∃ b', b.pulls? litter meanwhile n = some ((r.pulls meanwhile n).1, b') ∧
          b'.toReader = (r.pulls meanwhile n).2) := by
  refine ⟨fun hparked => pulls_of_not_parked h hparked meanwhile, ?_, fun raw hraw => (h.savedLast raw hraw).2,
    fun _ => h.parked_last, ?_, ?_⟩
  . intro fault hparked
    exact ⟨h.saved_eq_none_of_parked hparked, pulls_of_parked h hparked meanwhile⟩
  . intro c hlast hdry
    exact pulls_new h.forget_fragment (h.saved_eq_none_of_isDry hlast hdry) (h.parked_eq_none_of_isDry hlast hdry)
      meanwhile
  . rintro hroom litter hlitter b hsound rfl n
    obtain ⟨b', hpulls, -, htoReader⟩ := hsound.pulls? hroom.tapped hlitter meanwhile n
    exact ⟨b', hpulls, htoReader⟩

theorem pulls_eq_new_brokenOff :
    let brokenOff : Script :=
      .ofLists [.ok (Octets.ofString "6,1,5,c;ab"), .ok (Octets.ofString "4,2,6;cd")] []
    let litter : Tapped Script → Octets → Octets := fun _ buffer => buffer.map (· + 1)
    let saving := (new (Tapped.ofDevice brokenOff) true).pull.2
    let parking := (new (Tapped.ofDevice brokenLine) false).pull.2
    saving.parked = none ∧ saving.saved = some (Octets.ofString "4,2,6;cd") ∧
      ((new (PutBack.mk saving.device saving.saved) saving.follow).pulls (fun _ => .map id) 0).1 =
        (saving.pulls (fun _ => id) 0).1 ∧
      (saving.pulls (fun _ => id) 0).1.found?.map (·.message) = some (Octets.ofString "cd") ∧
      (∃ b b' p, (Buffered.new (Tapped.ofDevice brokenOff) true).pull? litter = some (p, b) ∧
        b.pulls? litter (fun _ => id) 0 = some ((saving.pulls (fun _ => id) 0).1, b')) ∧
      parking.parked = some (.ofKind .other) ∧ (parking.pulls (fun _ => id) 0).1 = .failed (.ofKind .other) ∧
      ((new parking.device parking.follow).pulls (fun _ => id) 0).1 = (parking.pulls (fun _ => id) 1).1 ∧
      (parking.pulls (fun _ => id) 1).1.found?.map (·.message) = some (Octets.ofString "cd") := by
  intro brokenOff litter saving parking
  have hlitter : KeepsSize litter := fun _ _ => List.length_map _
  obtain ⟨b, hpull, hsound, htoReader⟩ :=
    (Buffered.sound_new (Tapped.ofDevice brokenOff) true).pull? Script.inRoom.tapped hlitter
  have hsaving := pulls_eq_new (.pulled (.new brokenOff true)) fun _ => id
  have hparking := pulls_eq_new (.pulled (.new brokenLine false)) fun _ => id
  have hparked : saving.parked = none := by decide +kernel
  have hparked' : parking.parked = some (.ofKind .other) := by decide +kernel
  obtain ⟨-, hfailed, -, hbehind⟩ := hparking.2.1 _ hparked'
  obtain ⟨b', hpulls, -⟩ := hsaving.2.2.2.2.2 Script.inRoom litter hlitter b hsound htoReader 0
  exact ⟨hparked, by decide +kernel, (hsaving.1 hparked 0).1, by decide +kernel, ⟨b, b', _, hpull, hpulls⟩, hparked',
    hfailed, (hbehind 0).1, by decide +kernel⟩

end Reader
end KernelLog.Kmsg
