import KernelLog.Kmsg.Backlog
import KernelLog.Proofs.Kmsg.Turn

/-!
This module contains the runs of a reader: any sequence of pulls, from any device. Main statement: a run
neither loses a record that the device gave, nor gives one twice, nor gives two in another order.
-/

namespace KernelLog.Kmsg

variable {δ : Type}

inductive Call where
  | read (outcome : Except Fault Octets)
  | wait (outcome : Except Fault Bool)

def Call.physicals : Call → List Physical
  | read outcome => (Arrival.ofRead outcome).physicals
  | wait _ => []

structure Tapped (δ : Type) where
  device : δ
  calls : List Call

namespace Tapped

def ofDevice (device : δ) : Tapped δ :=
  { device, calls := [] }

def physicals (t : Tapped δ) : List Physical :=
  t.calls.flatMap Call.physicals

instance [Device δ] : Device (Tapped δ) where
  read room t :=
    ((Device.read room t.device).1,
      { device := (Device.read room t.device).2
        calls := t.calls ++ [.read (Device.read room t.device).1] })
  wait t :=
    ((Device.wait t.device).1,
      { device := (Device.wait t.device).2
        calls := t.calls ++ [.wait (Device.wait t.device).1] })
  backlog t := Device.backlog t.device
  backlog_read_le room t := Device.backlog_read_le room t.device
  backlog_read_lt room t := Device.backlog_read_lt room t.device
  backlog_wait_le t := Device.backlog_wait_le t.device

theorem physicals_read [Device δ] (room : Nat) (t : Tapped δ) :
    (Device.read room t).2.physicals =
      t.physicals ++ (Arrival.ofRead (Device.read room t).1).physicals := by
  simp [physicals, Device.read, Call.physicals]

theorem physicals_wait [Device δ] (t : Tapped δ) : (Device.wait t).2.physicals = t.physicals := by
  simp [physicals, Device.wait, Call.physicals]

end Tapped

namespace Reader

/--
The runs of a reader, with what was gathered by each pull, and the state that the run comes to. A reader is
made with or without a first read. Between pulls anything may happen to the device.
-/
inductive Run [Device δ] : List Gathered → Reader (Tapped δ) → Prop where
  | new (device : δ) (follow : Bool) : Run [] (.new (.ofDevice device) follow)
  | opened {device : δ} {follow : Bool} {r : Reader (Tapped δ)} :
    openDevice (.ofDevice device) follow = .ok r → Run [] r
  | exchanged {gs : List Gathered} {r : Reader (Tapped δ)} (device : δ) :
    Run gs r → Run gs { r with device := { r.device with device } }
  | pulled {gs : List Gathered} {r : Reader (Tapped δ)} :
    Run gs r → Run (gs ++ [r.advance.1]) r.pull.2

/--
The records that the device has given are the members of the lines that the reader has given, those pending,
and the one that is saved.
-/
structure Balanced (lines : List Logical) (ms : List Physical) (r : Reader (Tapped δ)) : Prop where
  physicals : r.device.physicals =
    lines.flatMap Logical.members ++ ms ++ r.saved.toList.map .decode
  reads : r.reads = r.device.physicals.length

variable {lines : List Logical} {ms : List Physical} {r : Reader (Tapped δ)}

theorem members_of_assemble_eq {ps qs : List Physical} {more : List Logical}
    (h : assemble ps = more ++ assemble qs) : ps = more.flatMap Logical.members ++ qs := by
  rw [← members_assemble ps, h, List.flatMap_append, members_assemble]

theorem Balanced.physicals_of_pending (h : Balanced lines ms r) (hp : Pending lines ms r) :
    r.device.physicals = lines.flatMap Logical.members ++ ms := by
  rw [h.physicals, hp.saved]
  simp

theorem Balanced.receive_none (h : Balanced lines ms r) (hp : Pending lines ms r) {t : Tapped δ} {a : Arrival}
    (ht : t.physicals = r.device.physicals ++ a.physicals)
    (ha : ({ r with device := t }.receive a).1 = none) :
    Pending lines (ms ++ a.physicals) ({ r with device := t }.receive a).2 ∧
      Balanced lines (ms ++ a.physicals) ({ r with device := t }.receive a).2 := by
  have hpending := ((hp.exchange t).receive_none ha).1
  refine ⟨hpending, ?_, ?_⟩
  . rw [device_receive, hpending.saved, ht, h.physicals_of_pending hp]
    simp
  . rw [device_receive, reads_receive, ht, List.length_append, h.reads]

theorem Balanced.receive_some (h : Balanced lines ms r) (hp : Pending lines ms r) {t : Tapped δ} {a : Arrival}
    {g : Gathered} (ht : t.physicals = r.device.physicals ++ a.physicals)
    (ha : ({ r with device := t }.receive a).1 = some g) :
    ∃ more, Settled lines g more ({ r with device := t }.receive a).2 ∧
      Balanced (lines ++ more) [] ({ r with device := t }.receive a).2 := by
  obtain ⟨more, hsettled, hassemble⟩ := (hp.exchange t).receive_some ha
  have hmembers := members_of_assemble_eq (hassemble [] (fun _ => rfl))
  refine ⟨more, hsettled, ?_, ?_⟩
  . rw [device_receive, ht, h.physicals_of_pending hp]
    simp only [List.append_nil, List.append_assoc, List.flatMap_append] at hmembers ⊢
    rw [hmembers]
  . rw [device_receive, reads_receive, ht, List.length_append, h.reads]

theorem Pending.settled_fragment (hp : Pending lines ms r) {f : Fragment} (hf : r.fragment = some f) :
    Settled lines (.fragment f) (assemble ms) r := by
  have := hp.settled_atEnd
  rwa [atEnd, hf] at this

theorem Balanced.settle (h : Balanced lines ms r) (hp : Pending lines ms r) :
    Balanced (lines ++ assemble ms) [] r where
  physicals := by
    rw [h.physicals_of_pending hp, hp.saved, List.flatMap_append, members_assemble]
    simp
  reads := h.reads

theorem Balanced.forget (h : Balanced lines ms r) : Balanced lines ms r.forget := by
  unfold Reader.forget
  split
  . exact ⟨h.physicals, h.reads⟩
  . exact h

theorem Balanced.deliver (h : Balanced lines ms r) (g : Gathered) : Balanced lines ms (r.deliver g) := by
  cases g with
  | physical p => exact ⟨h.physicals, h.reads⟩
  | fragment f => exact ⟨h.physicals, h.reads⟩
  | done => exact h
  | failed fault => exact h

variable [Device δ]

theorem Balanced.waited (h : Balanced lines ms r) :
    Balanced lines ms { r with device := (Device.wait r.device).2 } where
  physicals := by rw [Tapped.physicals_wait, h.physicals]
  reads := by rw [Tapped.physicals_wait, h.reads]

theorem Balanced.turn_none (h : Balanced lines ms r) (hp : Pending lines ms r) (ht : r.turn.1 = none) :
    ∃ ms', Pending lines ms' r.turn.2 ∧ Balanced lines ms' r.turn.2 := by
  rcases turn_cases r with ⟨-, hturn⟩ | ⟨f, -, -, ⟨-, hturn⟩ | ⟨-, hturn⟩ | ⟨fault, -, hturn⟩⟩
  . rw [hturn] at ht ⊢
    exact ⟨_, h.receive_none hp (Tapped.physicals_read _ _) ht⟩
  . rw [hturn] at ht ⊢
    exact ⟨_, h.waited.receive_none (hp.exchange _) (Tapped.physicals_read _ _) ht⟩
  . rw [hturn] at ht
    cases ht
  . rw [hturn] at ht
    cases ht

theorem Balanced.turn_some (h : Balanced lines ms r) (hp : Pending lines ms r) {g : Gathered}
    (ht : r.turn.1 = some g) :
    ∃ more, Settled lines g more r.turn.2 ∧ Balanced (lines ++ more) [] r.turn.2 := by
  rcases turn_cases r with ⟨-, hturn⟩ | ⟨f, -, hf, ⟨-, hturn⟩ | ⟨-, hturn⟩ | ⟨fault, -, hturn⟩⟩
  . rw [hturn] at ht ⊢
    exact h.receive_some hp (Tapped.physicals_read _ _) ht
  . rw [hturn] at ht ⊢
    exact h.waited.receive_some (hp.exchange _) (Tapped.physicals_read _ _) ht
  . have hwaited := hp.exchange (Device.wait r.device).2
    rw [hturn, Option.some.injEq] at ht
    rw [hturn, ← ht]
    exact ⟨_, hwaited.settled_fragment hf, h.waited.settle hwaited⟩
  . have hparked : Pending lines ms { r with device := (Device.wait r.device).2, parked := some fault } :=
      hp.of_eq rfl rfl rfl rfl rfl
    have hbalanced : Balanced lines ms { r with device := (Device.wait r.device).2, parked := some fault } :=
      ⟨h.waited.physicals, h.waited.reads⟩
    rw [hturn, Option.some.injEq] at ht
    rw [hturn, ← ht]
    exact ⟨_, hparked.settled_fragment hf, hbalanced.settle hparked⟩

theorem Balanced.gather (h : Balanced lines ms r) (hp : Pending lines ms r) :
    ∃ more, Settled lines r.gather.1 more r.gather.2 ∧ Balanced (lines ++ more) [] r.gather.2 := by
  refine gather_induct (P := fun r => ∃ ms, Pending lines ms r ∧ Balanced lines ms r)
    (Q := fun g r => ∃ more, Settled lines g more r ∧ Balanced (lines ++ more) [] r) ?_ ?_ r ⟨ms, hp, h⟩
  . rintro r ⟨ms, hp, h⟩ ht
    exact h.turn_none hp ht
  . rintro r g ⟨ms, hp, h⟩ ht
    exact h.turn_some hp ht

theorem Balanced.gatherSaved (h : Balanced lines [] r) (ha : Accounts lines [] r) (hr : r.returned = false) :
    ∃ more, Settled lines r.gatherSaved.1 more r.gatherSaved.2 ∧
      Balanced (lines ++ more) [] r.gatherSaved.2 := by
  rcases ha.gatherSaved_cases hr with
    ⟨hsaved, hgather⟩ |
      ⟨raw, hsaved, ⟨hpending, hgather⟩ | ⟨g, line, -, hsettled, hgather, hassemble⟩⟩
  . rw [hgather]
    exact h.gather (ha.pending hsaved hr)
  . rw [hgather]
    refine Balanced.gather ⟨?_, ?_⟩ hpending
    . rw [device_takeIn, hpending.saved, h.physicals, hsaved]
      simp
    . rw [device_takeIn, reads_takeIn, h.reads]
  . rw [hgather]
    refine ⟨[line], hsettled, ?_, ?_⟩
    . have hmembers : _ = [line].flatMap Logical.members ++ _ := members_of_assemble_eq (hassemble [])
      rw [device_takeIn, h.physicals, hsaved]
      simp only [List.append_nil, List.append_assoc, List.flatMap_append, Option.toList_some, List.map_cons,
        List.map_nil] at hmembers ⊢
      rw [hmembers]
    . rw [device_takeIn, reads_takeIn, h.reads]

theorem Balanced.advance (h : Balanced lines [] r) (ha : Accounts lines [] r.forget) :
    ∃ more, r.advance.1.Gives more ∧ Balanced (lines ++ more) [] r.advance.2 ∧
      Accounts (lines ++ more) [] r.advance.2.forget ∧
      ∀ f, r.advance.2.fragment = some f → r.advance.2.returned ∧ r.advance.1 = .fragment f := by
  cases hparked : r.parked with
  | some fault =>
    rw [advance_of_parked hparked]
    have hunparked : Accounts lines [] { r.forget with parked := none } := ha.of_eq rfl rfl rfl
    refine ⟨[], rfl, ?_, ?_, ?_⟩
    . rw [List.append_nil]
      exact ⟨h.forget.physicals, h.forget.reads⟩
    . rw [List.append_nil, forget_eq_self { r.forget with parked := none } (returned_forget r)]
      exact hunparked
    . intro f hf
      rw [ha.fragment] at hf
      cases hf
  | none =>
    rw [advance_of_not_parked hparked]
    obtain ⟨more, hsettled, hbalanced⟩ := h.forget.gatherSaved ha (returned_forget r)
    exact ⟨more, hsettled.gives, hbalanced.deliver _, hsettled.accounts, hsettled.held⟩

theorem Balanced.openDevice (r opened : Reader (Tapped δ)) (h : Balanced [] [] r) (hsaved : r.saved = none)
    (hopen : openDevice.go r = .ok opened) :
    Balanced [] [] opened ∧ opened.fragment = r.fragment ∧ opened.returned = r.returned ∧
      opened.fragments = r.fragments ∧ opened.overflows = r.overflows ∧ opened.records = r.records := by
  fun_induction openDevice.go r with
  | case1 r read r' raw harrival =>
    cases hopen
    have hread := Tapped.physicals_read bufferSize r.device
    rw [harrival, h.physicals, hsaved] at hread
    refine ⟨⟨hread, ?_⟩, rfl, rfl, rfl, rfl, rfl⟩
    have hlength := congrArg List.length hread
    have hzero := congrArg List.length h.physicals
    simp only [hsaved, Arrival.physicals] at hlength hzero
    exact hlength ▸ congrArg (· + 1) (h.reads.trans hzero)
  | case2 r read r' harrival ih =>
    have hread := Tapped.physicals_read bufferSize r.device
    rw [harrival] at hread
    refine ih ⟨?_, ?_⟩ hsaved hopen
    . exact (hread.trans (List.append_nil _)).trans h.physicals
    . exact h.reads.trans (congrArg List.length (hread.trans (List.append_nil _))).symm
  | case3 r read r' harrival =>
    rw [Except.ok.injEq] at hopen
    rw [← hopen]
    have hread := Tapped.physicals_read bufferSize r.device
    rw [harrival] at hread
    refine ⟨⟨?_, ?_⟩, rfl, rfl, rfl, rfl, rfl⟩
    . exact (hread.trans (List.append_nil _)).trans h.physicals
    . exact h.reads.trans (congrArg List.length (hread.trans (List.append_nil _))).symm
  | case4 => cases hopen

theorem length_filterMap_found? (gs : List Gathered) :
    (gs.filterMap (·.toPull.found?)).length = gs.countP (·.toPull.isFound) := by
  rw [List.length_filterMap_eq_countP]
  congr
  funext g
  cases g <;> rfl

theorem countP_isFound (gs : List Gathered) :
    gs.countP (·.toPull.isFound) = gs.countP Gathered.isPhysical + gs.countP Gathered.isFragment := by
  induction gs with
  | nil => rfl
  | cons g gs ih =>
    have hg : (if g.toPull.isFound then 1 else 0) =
        (if g.isPhysical then 1 else 0) + (if g.isFragment then 1 else 0) := by
      cases g <;> rfl
    rw [List.countP_cons, List.countP_cons, List.countP_cons, ih, hg]
    omega

structure Run.Gave (gs : List Gathered) (lines : List Logical) (r : Reader (Tapped δ)) : Prop where
  balanced : Balanced lines [] r
  accounts : Accounts lines [] r.forget
  found : gs.filterMap (·.toPull.found?) = lines.map Logical.toRecord
  wholes : gs.countP Gathered.isPhysical = lines.countP Logical.isWhole
  records : r.records = gs.countP (·.toPull.isFound)
  held : ∀ f, r.fragment = some f → r.returned ∧ gs.getLast? = some (.fragment f)

theorem Run.gave {gs : List Gathered} {r : Reader (Tapped δ)} (h : Run gs r) :
    ∃ lines, Run.Gave gs lines r := by
  -- on the calls of the run; the lines are those that its pulls gave
  induction h with
  | new device follow =>
    exact ⟨[],
      { balanced := ⟨rfl, rfl⟩, accounts := ⟨rfl, rfl, rfl⟩, found := rfl, wholes := rfl, records := rfl
        held := by simp [Reader.new] }⟩
  | @opened device follow r hopen =>
    obtain ⟨hbalanced, hfragment, hreturned, hfragments, hoverflows, hrecords⟩ :=
      Balanced.openDevice (.new (.ofDevice device) follow) r ⟨rfl, rfl⟩ rfl hopen
    have hforget : r.forget = r := forget_eq_self r hreturned
    refine ⟨[],
      { balanced := hbalanced, accounts := ?_, found := rfl, wholes := rfl, records := hrecords, held := ?_ }⟩
    . rw [hforget]
      exact ⟨hfragment, hfragments, hoverflows⟩
    . rw [hfragment]
      simp [Reader.new]
  | @exchanged gs r device _ ih =>
    obtain ⟨lines, h⟩ := ih
    refine ⟨lines,
      { balanced := ⟨h.balanced.physicals, h.balanced.reads⟩, accounts := ?_, found := h.found
        wholes := h.wholes, records := h.records, held := h.held }⟩
    rw [forget_exchange]
    exact ⟨h.accounts.fragment, h.accounts.fragments, h.accounts.overflows⟩
  | @pulled gs r _ ih =>
    obtain ⟨lines, h⟩ := ih
    obtain ⟨more, hgives, hbalanced, haccounts, hheld⟩ := h.balanced.advance h.accounts
    refine ⟨lines ++ more,
      { balanced := hbalanced, accounts := haccounts, found := ?_, wholes := ?_, records := ?_, held := ?_ }⟩
    . rw [List.filterMap_append, h.found, List.map_append, ← hgives.found?_toPull]
      cases hfound : r.advance.1.toPull.found? <;> simp [hfound]
    . rw [List.countP_append, List.countP_append, h.wholes, hgives.countP_isWhole, List.countP_singleton]
    . rw [List.countP_append, List.countP_singleton, ← h.records]
      exact records_advance r
    . intro f hf
      obtain ⟨hreturned, hlast⟩ := hheld f hf
      exact ⟨hreturned, by rw [List.getLast?_concat, hlast]⟩

/--
Nothing is lost, given twice or reordered in a run. A fragment is held only until the pull after the one that
gave it. Each record that the device gave has been given for itself, or is part of a fragment, or is saved, and
what a pull finds comes from at least one of them. As long as no fragment overflows, the messages that were
found and the saved one are the messages that the device gave.
-/
theorem Run.conserves {gs : List Gathered} {r : Reader (Tapped δ)} (h : Run gs r) :
    (∀ f, r.fragment = some f → r.returned ∧ gs.getLast? = some (.fragment f)) ∧
      r.reads = r.device.physicals.length ∧
      r.reads = gs.countP Gathered.isPhysical + r.fragments + r.saved.toList.length ∧
      r.records = gs.countP (·.toPull.isFound) ∧ r.records ≤ r.reads ∧
      gs.countP Gathered.isFragment ≤ r.fragments ∧
      (r.overflows = 0 →
        messages r.device.physicals =
          (gs.filterMap (·.toPull.found?)).flatMap Record.message ++
            messages (r.saved.toList.map Physical.decode)) := by
  obtain ⟨lines, h⟩ := h.gave
  have hphysicals := h.balanced.physicals
  rw [List.append_nil] at hphysicals
  have hfragments : r.fragments = Logical.total Logical.joins lines := by
    simpa using h.accounts.fragments
  have hoverflows : r.overflows = Logical.total Logical.cuts lines := by
    simpa [cutsAfter] using h.accounts.overflows
  have hreads : r.reads = gs.countP Gathered.isPhysical + r.fragments + r.saved.toList.length := by
    rw [h.balanced.reads, hphysicals, List.length_append, Logical.length_flatMap_members, h.wholes,
      hfragments, List.length_map]
  have hrecords : r.records = lines.length := by
    rw [h.records, ← length_filterMap_found?, h.found, List.length_map]
  have hlines := Logical.length_le_length_flatMap_members lines
  rw [Logical.length_flatMap_members, ← h.wholes, ← hfragments] at hlines
  refine ⟨h.held, h.balanced.reads, hreads, h.records, by omega, ?_, ?_⟩
  . have := countP_isFound gs
    rw [← h.records] at this
    omega
  . intro hzero
    rw [hphysicals, messages_append, h.found,
      Logical.messages_flatMap_members lines (hoverflows.symm.trans hzero)]

def brokenLine : Script :=
  .ofLists [.ok (Octets.ofString "6,1,5,c;ab"), .error (.ofKind .other), .ok (Octets.ofString "4,2,6;cd")] []

theorem Run.conserves_brokenLine :
    ∃ (gs : List Gathered) (r : Reader (Tapped Script)), Run gs r ∧ r.overflows = 0 ∧
      gs.map (·.toPull.name) = ["ResultS3::Found", "ResultS3::Err", "ResultS3::Found"] ∧ r.reads = 2 ∧
      r.reads = gs.countP Gathered.isPhysical + r.fragments + r.saved.toList.length ∧
      messages r.device.physicals =
        (gs.filterMap (·.toPull.found?)).flatMap Record.message ++
          messages (r.saved.toList.map Physical.decode) := by
  have hrun := Run.pulled (Run.pulled (Run.pulled (Run.new brokenLine false)))
  have hzero := (by decide +kernel :
    (Reader.new (Tapped.ofDevice brokenLine) false).pull.2.pull.2.pull.2.overflows = 0)
  have hconserves := Run.conserves hrun
  exact ⟨_, _, hrun, hzero, by decide +kernel, by decide +kernel, hconserves.2.2.1,
    hconserves.2.2.2.2.2.2 hzero⟩

end Reader
end KernelLog.Kmsg
