import KernelLog.Kmsg.Backlog
import KernelLog.Proofs.Drain
import KernelLog.Proofs.Kmsg.Turn

/-!
This module contains the reassembly of lines. Main statement: whatever a device gives before it has nothing
more, a reader gives the lines that the records of the device stand for.
-/

namespace KernelLog.Kmsg

variable {δ : Type}

namespace Reader

def recordsOf (script : List Arrival) : List Physical :=
  script.flatMap Arrival.physicals

def coming (script : List Arrival) (r : Reader δ) : List Logical :=
  assemble (r.saved.toList.map .decode ++ recordsOf script)

theorem coming_nil {r : Reader δ} (h : r.saved = none) : coming [] r = [] := by
  rw [coming, h]
  exact assemble_nil

theorem coming_forget (script : List Arrival) (r : Reader δ) : coming script r.forget = coming script r := by
  rw [coming, saved_forget, coming]

theorem coming_deliver (script : List Arrival) (r : Reader δ) (g : Gathered) :
    coming script (r.deliver g) = coming script r := by
  rw [coming, saved_deliver, coming]

end Reader

variable [Device δ]

def Device.arrivals (d : δ) : Nat → Arrival
  | 0 => .ofRead (Device.read bufferSize d).1
  | n + 1 => Device.arrivals (Device.read bufferSize d).2 n

def Device.Plays (d : δ) (script : List Arrival) : Prop :=
  ∀ n, Device.arrivals d n = script[n]?.getD .dry

namespace Device.Plays

variable {d : δ} {a : Arrival} {script : List Arrival}

theorem head (h : Device.Plays d (a :: script)) : Arrival.ofRead (Device.read bufferSize d).1 = a :=
  h 0

theorem tail (h : Device.Plays d (a :: script)) : Device.Plays (Device.read bufferSize d).2 script :=
  fun n => h (n + 1)

theorem dry (h : Device.Plays d []) : Arrival.ofRead (Device.read bufferSize d).1 = .dry :=
  h 0

theorem behind (h : Device.Plays d []) : Device.Plays (Device.read bufferSize d).2 [] :=
  fun n => h (n + 1)

end Device.Plays

theorem Script.plays (s : Script) :
    Device.Plays s (s.reads.map fun outcome => .ofRead (outcome.map (·.take bufferSize))) := by
  intro n
  induction n generalizing s with
  | zero =>
    cases hreads : s.reads with
    | nil => simp [Device.arrivals, Device.read, Script.read, hreads, Arrival.ofRead, Fault.ofKind]
    | cons outcome reads =>
      cases outcome <;> simp [Device.arrivals, Device.read, Script.read, hreads, Except.map]
  | succ n ih =>
    rw [Device.arrivals, ih]
    cases hreads : s.reads with
    | nil => simp [Device.read, Script.read, hreads]
    | cons outcome reads => cases outcome <;> simp [Device.read, Script.read, hreads]

namespace Reader

theorem turn_of_not_follow (r : Reader δ) (h : r.follow = false) :
    r.turn = { r with device := (Device.read bufferSize r.device).2 }.receive
      (.ofRead (Device.read bufferSize r.device).1) := by
  rcases turn_cases r with ⟨-, hturn⟩ | ⟨f, hfollow, -⟩
  . exact hturn
  . rw [h] at hfollow
    cases hfollow

theorem advance_of_pull {r r' : Reader δ} {result : Pull Record Fault} (h : Source.pull r = (result, r')) :
    r.advance.1.toPull = result ∧ r.advance.2 = r' :=
  Prod.mk.inj h

structure Playing (script : List Arrival) (reads retries : Nat) (r : Reader δ) : Prop where
  plays : Device.Plays r.device script
  continuing : ∀ a ∈ script, a.goesOn
  follow : r.follow = false
  parked : r.parked = none
  reads : reads = r.reads + (recordsOf script).length
  retries : retries = r.retries + script.count .retry

namespace Playing

variable {script : List Arrival} {reads retries : Nat} {r : Reader δ} {lines : List Logical}
  {ms : List Physical}

theorem receive_cons {a : Arrival} (h : Playing (a :: script) reads retries r) :
    Playing script reads retries ({ r with device := (Device.read bufferSize r.device).2 }.receive a).2 where
  plays := by
    rw [device_receive]
    exact h.plays.tail
  continuing := fun b hb => h.continuing b (List.mem_cons_of_mem a hb)
  follow := by rw [follow_receive, h.follow]
  parked := by
    rw [parked_receive, h.parked]
    intro fault ha
    have := h.continuing a List.mem_cons_self
    rw [ha] at this
    cases this
  reads := by
    have := h.reads
    rw [recordsOf, List.flatMap_cons, List.length_append] at this
    rw [reads_receive, this, recordsOf, Nat.add_assoc]
  retries := by
    have := h.retries
    rw [List.count_cons] at this
    rw [retries_receive, this]
    simp only [beq_iff_eq]
    omega

theorem receive_nil (h : Playing [] reads retries r) :
    Playing [] reads retries ({ r with device := (Device.read bufferSize r.device).2 }.receive .dry).2 where
  plays := h.plays.behind
  continuing := by simp
  follow := h.follow
  parked := h.parked
  reads := h.reads
  retries := h.retries

theorem takeIn_saved (h : Playing script reads retries r) (raw : Octets) :
    Playing script reads retries ({ r with saved := none }.takeIn raw).2 where
  plays := by
    rw [device_takeIn]
    exact h.plays
  continuing := h.continuing
  follow := by rw [follow_takeIn, h.follow]
  parked := by rw [parked_takeIn, h.parked]
  reads := by rw [reads_takeIn, h.reads]
  retries := by rw [retries_takeIn, h.retries]

theorem forget (h : Playing script reads retries r) : Playing script reads retries r.forget := by
  unfold Reader.forget
  split
  . exact ⟨h.plays, h.continuing, h.follow, h.parked, h.reads, h.retries⟩
  . exact h

theorem deliver (h : Playing script reads retries r) (g : Gathered) :
    Playing script reads retries (r.deliver g) := by
  cases g with
  | physical p => exact ⟨h.plays, h.continuing, h.follow, h.parked, h.reads, h.retries⟩
  | fragment f => exact ⟨h.plays, h.continuing, h.follow, h.parked, h.reads, h.retries⟩
  | done => exact h
  | failed fault => exact h

theorem turn_none (h : Playing script reads retries r) (hp : Pending lines ms r) (ht : r.turn.1 = none) :
    ∃ ms' script', Playing script' reads retries r.turn.2 ∧ Pending lines ms' r.turn.2 ∧
      ms' ++ recordsOf script' = ms ++ recordsOf script := by
  rw [turn_of_not_follow r h.follow] at ht ⊢
  cases script with
  | nil =>
    rw [h.plays.dry] at ht
    cases ht
  | cons a script =>
    rw [h.plays.head] at ht ⊢
    refine ⟨ms ++ a.physicals, script, h.receive_cons, ((hp.exchange _).receive_none ht).1, ?_⟩
    rw [List.append_assoc]
    rfl

theorem turn_some (h : Playing script reads retries r) (hp : Pending lines ms r) {g : Gathered}
    (ht : r.turn.1 = some g) :
    ∃ more script', Settled lines g more r.turn.2 ∧ Playing script' reads retries r.turn.2 ∧
      assemble (ms ++ recordsOf script) = more ++ coming script' r.turn.2 ∧
      (g.toPull.isFound ∨ g = .done ∧ script' = [] ∧ r.turn.2.saved = none) := by
  rw [turn_of_not_follow r h.follow] at ht ⊢
  cases script with
  | nil =>
    -- behind the script nothing comes, so what is pending is the last line
    rw [h.plays.dry] at ht ⊢
    obtain ⟨more, hsettled, hassemble⟩ := (hp.exchange _).receive_some ht
    refine ⟨more, [], hsettled, h.receive_nil, ?_, ?_⟩
    . have := hassemble [] (fun _ => rfl)
      rwa [Arrival.physicals, List.append_nil] at this
    . rw [receive, Option.some.injEq] at ht
      rw [← ht, atEnd]
      split
      . exact .inl rfl
      . exact .inr ⟨rfl, rfl, hp.saved⟩
  | cons a script =>
    rw [h.plays.head] at ht ⊢
    have hgoes : a.goesOn = true := h.continuing a List.mem_cons_self
    obtain ⟨more, hsettled, hassemble⟩ := (hp.exchange _).receive_some ht
    refine ⟨more, script, hsettled, h.receive_cons, ?_, .inl ?_⟩
    . have := hassemble (recordsOf script) (fun hnot => by simp [hgoes] at hnot)
      rwa [List.append_assoc] at this
    . cases a with
      | record raw => exact isFound_of_takeIn _ raw g ht
      | retry => cases ht
      | dry => cases hgoes
      | failed fault => cases hgoes

def Gave (reads retries : Nat) (lines all : List Logical) (g : Gathered) (r : Reader δ) : Prop :=
  ∃ more script, Settled lines g more r ∧ Playing script reads retries r ∧ all = more ++ coming script r ∧
    (g.toPull.isFound ∨ g = .done ∧ script = [] ∧ r.saved = none)

theorem gather (h : Playing script reads retries r) (hp : Pending lines ms r) :
    Gave reads retries lines (assemble (ms ++ recordsOf script)) r.gather.1 r.gather.2 := by
  refine gather_induct
    (P := fun r' => ∃ ms' script', Playing script' reads retries r' ∧ Pending lines ms' r' ∧
      ms' ++ recordsOf script' = ms ++ recordsOf script)
    (Q := Gave reads retries lines (assemble (ms ++ recordsOf script))) ?_ ?_ r ⟨ms, script, h, hp, rfl⟩
  . rintro r ⟨ms', script', h, hp, heq⟩ ht
    rw [← heq]
    exact h.turn_none hp ht
  . rintro r g ⟨ms', script', h, hp, heq⟩ ht
    rw [← heq]
    exact h.turn_some hp ht

theorem gatherSaved (h : Playing script reads retries r) (ha : Accounts lines [] r)
    (hr : r.returned = false) :
    Gave reads retries lines (coming script r) r.gatherSaved.1 r.gatherSaved.2 := by
  rcases ha.gatherSaved_cases hr with
    ⟨hsaved, hgather⟩ |
      ⟨raw, hsaved, ⟨hpending, hgather⟩ | ⟨g, line, hfound, hsettled, hgather, hassemble⟩⟩
  . rw [hgather, coming, hsaved]
    exact h.gather (ha.pending hsaved hr)
  . rw [hgather, coming, hsaved]
    exact (h.takeIn_saved raw).gather hpending
  . rw [hgather, coming, hsaved]
    exact ⟨[line], script, hsettled, h.takeIn_saved raw, hassemble _, .inl hfound⟩

theorem advance (h : Playing script reads retries r) (ha : Accounts lines [] r.forget) :
    ∃ more script', r.advance.1.Gives more ∧ Accounts (lines ++ more) [] r.advance.2.forget ∧
      Playing script' reads retries r.advance.2 ∧ coming script r = more ++ coming script' r.advance.2 ∧
      (r.advance.1.toPull.isFound ∨ r.advance.1 = .done ∧ script' = [] ∧ r.advance.2.saved = none) := by
  obtain ⟨more, script', hsettled, hplaying, hcoming, hend⟩ := h.forget.gatherSaved ha (returned_forget r)
  rw [advance_of_not_parked h.parked]
  rw [saved_deliver]
  refine ⟨more, script', hsettled.gives, hsettled.accounts, hplaying.deliver _, ?_, hend⟩
  rw [coming_deliver, ← coming_forget]
  exact hcoming

structure Drains (reads retries : Nat) (lines all : List Logical) (drained : Drained (Reader δ)) : Prop where
  records : drained.records = all.map Logical.toRecord
  last : drained.last = .done
  accounts : Accounts (lines ++ all) [] drained.source.forget
  reads : drained.source.reads = reads
  retries : drained.source.retries = retries

theorem drain (h : Playing script reads retries r) (ha : Accounts lines [] r.forget) :
    Drains reads retries lines (coming script r) (Source.drain r) := by
  induction r using Source.drain.induct generalizing lines script with
  | case1 r record r' hpull ih =>
    rw [Source.drain_of_found hpull]
    obtain ⟨more, script', hgives, haccounts, hplaying, hcoming, -⟩ := h.advance ha
    have hadvance := advance_of_pull hpull
    have hmore := hgives.found?_toPull
    rw [hadvance.1] at hmore
    rw [hadvance.2] at haccounts hplaying hcoming
    -- what this pull gave is the first of the lines to come, and the others follow from where it ended
    have hrest := ih hplaying haccounts
    rw [hcoming]
    exact
      { records := by
          rw [List.map_append, ← hmore, ← hrest.records]
          rfl
        last := hrest.last
        accounts := by
          rw [← List.append_assoc]
          exact hrest.accounts
        reads := hrest.reads
        retries := hrest.retries }
  | case2 r last r' hnot hpull =>
    have hlast := Pull.isFound_eq_false hnot
    obtain ⟨more, script', hgives, haccounts, hplaying, hcoming, hend⟩ := h.advance ha
    have hadvance := advance_of_pull hpull
    rw [hadvance.2] at haccounts hplaying hcoming hend
    obtain ⟨hdone, rfl, hsaved⟩ : r.advance.1 = .done ∧ script' = [] ∧ r'.saved = none := by
      rcases hend with hfound | hend
      . rw [hadvance.1, hlast] at hfound
        cases hfound
      . exact hend
    rw [hdone] at hgives hadvance
    rw [hgives, coming_nil hsaved] at hcoming
    rw [hgives] at haccounts
    rw [Source.drain_of_not_found hpull hlast, hcoming]
    exact
      { records := rfl
        last := hadvance.1.symm
        accounts := haccounts
        reads := hplaying.reads.symm
        retries := hplaying.retries.symm }

end Playing

theorem records_drain (r : Reader δ) :
    (Source.drain r).source.records = r.records + (Source.drain r).records.length := by
  induction r using Source.drain.induct with
  | case1 r record r' hpull ih =>
    have hadvance := advance_of_pull hpull
    have hrecords := records_advance r
    rw [hadvance.1, hadvance.2] at hrecords
    rw [Pull.isFound, if_pos rfl] at hrecords
    rw [Source.drain_of_found hpull, ih, hrecords, List.length_cons]
    omega
  | case2 r last r' hnot hpull =>
    have hlast := Pull.isFound_eq_false hnot
    have hadvance := advance_of_pull hpull
    have hrecords := records_advance r
    rw [hadvance.1, hadvance.2, hlast] at hrecords
    rw [Source.drain_of_not_found hpull hlast]
    exact hrecords

/--
What a reader gives of a device that has nothing more, or nothing yet, behind its script: the lines that the
records of the script stand for. It counts the records, the retries, the joined records and those of them that
lose an octet.
-/
theorem drain_eq_assemble {d : δ} {script : List Arrival} (hplays : Device.Plays d script)
    (hgoes : ∀ a ∈ script, a.goesOn) :
    let lines := assemble (recordsOf script)
    let drained := Source.drain (Reader.new d false)
    drained.records = lines.map Logical.toRecord ∧ drained.last = .done ∧
      drained.source.reads = (recordsOf script).length ∧
      drained.source.retries = script.count .retry ∧
      drained.source.fragments = Logical.total Logical.joins lines ∧
      drained.source.overflows = Logical.total Logical.cuts lines ∧
      drained.source.records = lines.length := by
  have hplaying : Playing script (recordsOf script).length (script.count .retry) (Reader.new d false) :=
    { plays := hplays, continuing := hgoes, follow := rfl, parked := rfl
      reads := (Nat.zero_add _).symm, retries := (Nat.zero_add _).symm }
  have hdrains : Playing.Drains (recordsOf script).length (script.count .retry) []
      (assemble (recordsOf script)) (Source.drain (Reader.new d false)) := hplaying.drain ⟨rfl, rfl, rfl⟩
  refine ⟨hdrains.records, hdrains.last, hdrains.reads, hdrains.retries, ?_, ?_, ?_⟩
  . simpa using hdrains.accounts.fragments
  . simpa [cutsAfter] using hdrains.accounts.overflows
  . rw [records_drain, hdrains.records, List.length_map]
    exact Nat.zero_add _

def splitLines : Script :=
  .ofLists
    [.ok (Octets.ofString "6,1,5,c;ab"), .error (.ofKind .interrupted), .ok (Octets.ofString "6,2,6,+;cd"),
     .ok (Octets.ofString "6,3,7,-;ef"), .ok (Octets.ofString "4,4,8,c;g"), .ok (Octets.ofString "3,5,9;xyz")]
    []

theorem drain_eq_assemble_splitLines :
    let drained := Source.drain (Reader.new splitLines false)
    drained.records.map (·.message) = ["abcdef", "g", "xyz"].map Octets.ofString ∧ drained.last = .done ∧
      drained.source.reads = 5 ∧ drained.source.retries = 1 ∧ drained.source.fragments = 4 ∧
      drained.source.overflows = 0 ∧ drained.source.records = 3 := by
  obtain ⟨hrecords, hlast, hreads, hretries, hfragments, hoverflows, hcount⟩ :=
    drain_eq_assemble splitLines.plays (by decide +kernel)
  dsimp only
  rw [hrecords, hreads, hretries, hfragments, hoverflows, hcount]
  exact ⟨by decide +kernel, hlast, by decide +kernel, by decide +kernel, by decide +kernel, by decide +kernel,
    by decide +kernel⟩

end Reader
end KernelLog.Kmsg
