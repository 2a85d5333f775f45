import KernelLog.Proofs.Kmsg.Run

/-!
This module contains the histories of a reader: the calls of its device and what its pulls gave, in the order in
which they happened. Main statement: each fault of the device is given once, behind all records that were read before
it and before the device is called again.
-/

namespace KernelLog.Kmsg

variable {δ : Type}

def Arrival.fatal? : Arrival → Option Fault
  | record _ => none
  | dry => none
  | retry => none
  | failed fault => some fault

def Call.fatal? : Call → Option Fault
  | read outcome => (Arrival.ofRead outcome).fatal?
  | wait (.ok _) => none
  | wait (.error fault) => some fault

def Quiet (cs : List Call) : Prop :=
  ∀ c ∈ cs, c.fatal? = none

theorem Quiet.append {cs cs' : List Call} (h : Quiet cs) (h' : Quiet cs') : Quiet (cs ++ cs') := by
  intro c hc
  rcases List.mem_append.mp hc with hc | hc
  . exact h c hc
  . exact h' c hc

theorem quiet_singleton {c : Call} (h : c.fatal? = none) : Quiet [c] := by
  intro c' hc'
  rw [List.mem_singleton.mp hc', h]

inductive Event where
  | call (c : Call)
  | gave (g : Gathered)

namespace Event

def call? : Event → Option Call
  | call c => some c
  | gave _ => none

def gathered? : Event → Option Gathered
  | call _ => none
  | gave g => some g

def fatal? : Event → Option Fault
  | call c => c.fatal?
  | gave _ => none

def fault? : Event → Option Fault
  | call _ => none
  | gave g => g.toPull.error?

def found? : Event → Option Record
  | call _ => none
  | gave g => g.toPull.found?

def physicals : Event → List Physical
  | call c => c.physicals
  | gave _ => []

variable (cs : List Call)

theorem filterMap_call?_map_call : (cs.map call).filterMap call? = cs := by
  simp [Function.comp_def, call?]

theorem filterMap_gathered?_map_call : (cs.map call).filterMap gathered? = [] := by
  simp [gathered?]

theorem filterMap_fatal?_map_call : (cs.map call).filterMap fatal? = cs.filterMap Call.fatal? := by
  simp [Function.comp_def, fatal?]

theorem filterMap_fault?_map_call : (cs.map call).filterMap fault? = [] := by
  simp [fault?]

theorem filterMap_found?_eq (es : List Event) :
    es.filterMap found? = (es.filterMap gathered?).filterMap (·.toPull.found?) := by
  rw [List.filterMap_filterMap]
  congr 1
  funext e
  cases e <;> rfl

theorem filterMap_fault?_eq (es : List Event) :
    es.filterMap fault? = (es.filterMap gathered?).filterMap (·.toPull.error?) := by
  rw [List.filterMap_filterMap]
  congr 1
  funext e
  cases e <;> rfl

theorem flatMap_physicals_eq (es : List Event) :
    es.flatMap physicals = (es.filterMap call?).flatMap Call.physicals := by
  induction es with
  | nil => rfl
  | cons e es ih =>
    rw [List.flatMap_cons, ih]
    cases e <;> rfl

end Event

def Returned (es : List Event) : Prop :=
  ∃ lines : List Logical, es.filterMap Event.found? = lines.map Logical.toRecord ∧
    es.flatMap Event.physicals = lines.flatMap Logical.members

theorem Call.physicals_of_fatal? {c : Call} {fault : Fault} (h : c.fatal? = some fault) : c.physicals = [] := by
  cases c with
  | read outcome =>
    rw [fatal?] at h
    rw [physicals]
    cases harrival : Arrival.ofRead outcome with
    | record raw =>
      rw [harrival] at h
      cases h
    | dry => rfl
    | retry => rfl
    | failed fault => rfl
  | wait outcome => rfl

theorem Returned.of_call {es : List Event} {c : Call} {fault : Fault} {g : Gathered} (hc : c.fatal? = some fault)
    (h : Returned (es ++ [.call c, .gave g])) : Returned (es ++ [.gave g]) := by
  obtain ⟨lines, hfound, hphysicals⟩ := h
  refine ⟨lines, ?_, ?_⟩
  . rw [← hfound, List.filterMap_append, List.filterMap_append]
    rfl
  . rw [← hphysicals, List.flatMap_append, List.flatMap_append]
    simp [Event.physicals, c.physicals_of_fatal? hc]

theorem Returned.of_failed {es : List Event} {fault : Fault} (h : Returned (es ++ [.gave (.failed fault)])) :
    Returned es := by
  obtain ⟨lines, hfound, hphysicals⟩ := h
  rw [List.filterMap_append] at hfound
  rw [List.flatMap_append] at hphysicals
  exact ⟨lines, (List.append_nil _).symm.trans hfound, (List.append_nil _).symm.trans hphysicals⟩

/--
What follows a call with a fault, if `before` stands before it and `parked` is parked in the end. The next thing that
happens is that a pull gives the fault; a fragment may come first, and it completes what there is to give. The pull
that gives the fault then may be still to come.
-/
inductive Answered (before : List Event) (fault : Fault) (parked : Option Fault) : List Event → Prop where
  | atOnce (rest : List Event) : Returned before → Answered before fault parked (.gave (.failed fault) :: rest)
  | behind (f : Fragment) (rest : List Event) : Returned (before ++ [.gave (.fragment f)]) →
    Answered before fault parked (.gave (.fragment f) :: .gave (.failed fault) :: rest)
  | parked (f : Fragment) : Returned (before ++ [.gave (.fragment f)]) → parked = some fault →
    Answered before fault parked [.gave (.fragment f)]

theorem append_eq_append_cons {α : Type} {es new before after : List α} {e : α}
    (h : es ++ new = before ++ e :: after) :
    (∃ mid, es = before ++ e :: mid ∧ after = mid ++ new) ∨
      ∃ mid, before = es ++ mid ∧ new = mid ++ e :: after := by
  rw [List.append_eq_append_iff] at h
  rcases h with ⟨mid, hbefore, hnew⟩ | ⟨mid, hes, hcons⟩
  . exact .inr ⟨mid, hbefore, hnew⟩
  . cases mid with
    | nil => exact .inr ⟨[], by simpa using hes.symm, hcons.symm⟩
    | cons e' mid =>
      rw [List.cons_append, List.cons.injEq] at hcons
      obtain ⟨rfl, rfl⟩ := hcons
      exact .inl ⟨mid, hes, rfl⟩

theorem Quiet.not_mem {cs : List Call} (hcs : Quiet cs) {c : Call} {fault : Fault} (hc : c.fatal? = some fault) :
    c ∉ cs := by
  intro hmem
  rw [hcs c hmem] at hc
  cases hc

theorem Quiet.not_mem_map {cs : List Call} (hcs : Quiet cs) {c : Call} {fault : Fault} (hc : c.fatal? = some fault) :
    Event.call c ∉ cs.map .call := by
  intro hmem
  obtain ⟨c', hc', heq⟩ := List.mem_map.mp hmem
  rw [Event.call.injEq] at heq
  rw [heq] at hc'
  exact hcs.not_mem hc hc'

theorem Quiet.filterMap_fatal? {cs : List Call} (hcs : Quiet cs) : cs.filterMap Call.fatal? = [] := by
  rw [List.filterMap_eq_nil_iff]
  exact hcs

theorem Quiet.eq_of_append {cs : List Call} (hcs : Quiet cs) {c c' : Call} {fault fault' : Fault}
    (hc : c.fatal? = some fault) (hc' : c'.fatal? = some fault') {g : Gathered} {before after : List Event}
    (h : cs.map Event.call ++ [.call c', .gave g] = before ++ .call c :: after) :
    before = cs.map Event.call ∧ c = c' ∧ fault = fault' ∧ after = [.gave g] := by
  rcases append_eq_append_cons h with ⟨mid, hold, -⟩ | ⟨mid, hbefore, hnew⟩
  . apply absurd _ (hcs.not_mem_map hc)
    rw [hold]
    simp
  . cases mid with
    | nil =>
      simp only [List.nil_append, List.cons.injEq, Event.call.injEq] at hnew
      rw [hnew.1, hc, Option.some.injEq] at hc'
      exact ⟨by simpa using hbefore, hnew.1.symm, hc', hnew.2.symm⟩
    | cons e mid =>
      have hmem : Event.call c ∈ [Event.gave g] := by
        rw [List.cons_append, List.cons.injEq] at hnew
        rw [hnew.2]
        simp
      simp at hmem

theorem Answered.extend {before after : List Event} {fault : Fault} {parked : Option Fault}
    (h : Answered before fault none after) (more : List Event) : Answered before fault parked (after ++ more) := by
  cases h with
  | atOnce rest hreturned => exact .atOnce _ hreturned
  | behind f rest hreturned => exact .behind f _ hreturned
  | parked f hreturned hparked => cases hparked

theorem Answered.unpark {before after : List Event} {fault fault' : Fault} {parked : Option Fault}
    (h : Answered before fault (some fault') after) :
    Answered before fault parked (after ++ [.gave (.failed fault')]) := by
  cases h with
  | atOnce rest hreturned => exact .atOnce _ hreturned
  | behind f rest hreturned => exact .behind f _ hreturned
  | parked f hreturned hparked =>
    rw [Option.some.injEq] at hparked
    rw [hparked]
    exact .behind f [] hreturned

namespace Tapped

variable [Device δ]

theorem calls_read (room : Nat) (t : Tapped δ) :
    (Device.read room t).2.calls = t.calls ++ [.read (Device.read room t).1] := rfl

theorem calls_wait (t : Tapped δ) : (Device.wait t).2.calls = t.calls ++ [.wait (Device.wait t).1] := rfl

end Tapped

theorem Quiet.read [Device δ] {t : Tapped δ} (h : Quiet t.calls) {room : Nat}
    (hread : (Arrival.ofRead (Device.read room t).1).fatal? = none) : Quiet (Device.read room t).2.calls := by
  rw [Tapped.calls_read]
  exact h.append (quiet_singleton hread)

namespace Reader

/--
How the calls that a pull makes stand to what it gives. Only the last one of them can fail; then the pull gives the
fault, or it gives a fragment and parks the fault, and it leaves no record saved.
-/
inductive Ends : List Call → Gathered → Reader (Tapped δ) → Prop where
  | quiet {cs : List Call} {g : Gathered} {r : Reader (Tapped δ)} :
    Quiet cs → g.toPull.error? = none → r.parked = none → Ends cs g r
  | failed {cs : List Call} {c : Call} {fault : Fault} {r : Reader (Tapped δ)} :
    Quiet cs → c.fatal? = some fault → r.saved = none → r.parked = none → Ends (cs ++ [c]) (.failed fault) r
  | parked {cs : List Call} {c : Call} {fault : Fault} {f : Fragment} {r : Reader (Tapped δ)} :
    Quiet cs → c.fatal? = some fault → r.saved = none → r.parked = some fault → Ends (cs ++ [c]) (.fragment f) r

theorem Ends.append {cs cs' : List Call} {g : Gathered} {r : Reader (Tapped δ)} (hcs : Quiet cs)
    (h : Ends cs' g r) : Ends (cs ++ cs') g r := by
  cases h with
  | quiet hcs' hg hparked => exact .quiet (hcs.append hcs') hg hparked
  | failed hcs' hc hsaved hparked =>
    rw [← List.append_assoc]
    exact .failed (hcs.append hcs') hc hsaved hparked
  | parked hcs' hc hsaved hparked =>
    rw [← List.append_assoc]
    exact .parked (hcs.append hcs') hc hsaved hparked

theorem error?_of_takeIn {r : Reader δ} {raw : Octets} {g : Gathered} (h : (r.takeIn raw).1 = some g) :
    g.toPull.error? = none := by
  have hfound := isFound_of_takeIn r raw g h
  cases g with
  | physical p => rfl
  | fragment f => rfl
  | done => cases hfound
  | failed fault => cases hfound

theorem receive_none {r : Reader δ} {a : Arrival} (h : (r.receive a).1 = none) :
    a.fatal? = none ∧ (r.receive a).2.saved = r.saved ∧ (r.receive a).2.parked = r.parked := by
  cases a with
  | record raw => exact ⟨rfl, saved_takeIn_of_eq_none _ raw h, parked_takeIn _ raw⟩
  | retry => exact ⟨rfl, rfl, rfl⟩
  | dry => simp [receive] at h
  | failed fault => simp [receive] at h

theorem error?_atEnd (r : Reader δ) : r.atEnd.toPull.error? = none := by
  unfold atEnd
  split <;> rfl

theorem Ends.receive {r : Reader (Tapped δ)} (hsaved : r.saved = none) (hparked : r.parked = none) {a : Arrival}
    {c : Call} (hc : c.fatal? = a.fatal?) {g : Gathered} (h : (r.receive a).1 = some g) :
    Ends [c] g (r.receive a).2 := by
  cases a with
  | record raw => exact .quiet (quiet_singleton hc) (error?_of_takeIn h) ((parked_takeIn _ raw).trans hparked)
  | retry => simp [Reader.receive] at h
  | dry =>
    rw [Reader.receive, Option.some.injEq] at h
    rw [← h]
    exact .quiet (quiet_singleton hc) (error?_atEnd r) hparked
  | failed fault =>
    have honly : [c] = [] ++ [c] := rfl
    rw [Reader.receive, onFault] at h ⊢
    cases hfragment : r.fragment with
    | none =>
      rw [hfragment, Option.some.injEq] at h
      rw [← h, honly]
      exact .failed (List.forall_mem_nil _) hc hsaved hparked
    | some f =>
      rw [hfragment, Option.some.injEq] at h
      rw [← h, honly]
      exact .parked (List.forall_mem_nil _) hc hsaved rfl

theorem Ends.deliver {cs : List Call} {g : Gathered} {r : Reader (Tapped δ)} (h : Ends cs g r) :
    Ends cs g (r.deliver g) := by
  cases h with
  | quiet hcs hg hparked =>
    refine .quiet hcs hg ?_
    cases g <;> exact hparked
  | failed hcs hc hsaved hparked => exact .failed hcs hc hsaved hparked
  | parked hcs hc hsaved hparked => exact .parked hcs hc hsaved hparked

theorem device_forget (r : Reader δ) : r.forget.device = r.device := by
  unfold forget
  split <;> rfl

theorem device_deliver (r : Reader δ) (g : Gathered) : (r.deliver g).device = r.device := by
  cases g <;> rfl

theorem Ends.faults {cs : List Call} {g : Gathered} {r : Reader (Tapped δ)} (hends : Ends cs g r) :
    g.toPull.error?.toList ++ r.parked.toList = cs.filterMap Call.fatal? := by
  cases hends with
  | quiet hcs hg hparked =>
    rw [hg, hparked, hcs.filterMap_fatal?]
    rfl
  | failed hcs hc hsaved hparked =>
    rw [List.filterMap_append, hcs.filterMap_fatal?, hparked, List.filterMap_cons_some hc]
    rfl
  | parked hcs hc hsaved hparked =>
    rw [List.filterMap_append, hcs.filterMap_fatal?, hparked, List.filterMap_cons_some hc]
    rfl

/--
What a history shows of the faults of its calls: those given and the one that is parked are all of them, each is
answered, and the one that is parked waits for a fragment that was given just before.
-/
structure Surfaces (es : List Event) (r : Reader (Tapped δ)) : Prop where
  faults : es.filterMap Event.fault? ++ r.parked.toList = es.filterMap Event.fatal?
  answered : ∀ before c after fault, es = before ++ .call c :: after → c.fatal? = some fault →
    Answered before fault r.parked after
  parked : ∀ fault, r.parked = some fault →
    ∃ before c f, es = before ++ [.call c, .gave (.fragment f)] ∧ c.fatal? = some fault

theorem Surfaces.unpark {es : List Event} {r r' : Reader (Tapped δ)} (hs : Surfaces es r) {fault : Fault}
    (hparked : r.parked = some fault) (hparked' : r'.parked = none) :
    Surfaces (es ++ [.gave (.failed fault)]) r' := by
  refine ⟨?_, ?_, ?_⟩
  . have hfaults := hs.faults
    rw [hparked] at hfaults
    rw [List.filterMap_append, List.filterMap_append, ← hfaults, hparked']
    simp [Event.fault?, Event.fatal?, Gathered.toPull, Pull.error?]
  . intro before c after fault' heq hc
    rcases append_eq_append_cons heq with ⟨mid, hold, rfl⟩ | ⟨mid, -, hnew⟩
    . have hanswered := hs.answered before c mid fault' hold hc
      rw [hparked] at hanswered
      exact hanswered.unpark
    . have hmem : Event.call c ∈ [Event.gave (.failed fault)] := by
        rw [hnew]
        simp
      simp at hmem
  . intro fault' hfault'
    rw [hparked'] at hfault'
    cases hfault'

variable [Device δ] {r : Reader (Tapped δ)}

theorem exists_readOnce_none (h : r.readOnce.1 = none) :
    ∃ cs, r.readOnce.2.device.calls = r.device.calls ++ cs ∧ Quiet cs ∧ r.readOnce.2.saved = r.saved ∧
      r.readOnce.2.parked = r.parked := by
  obtain ⟨hfatal, hsaved, hparked⟩ := receive_none h
  refine ⟨[.read (Device.read bufferSize r.device).1], ?_, quiet_singleton hfatal, hsaved, hparked⟩
  rw [readOnce, device_receive]
  rfl

theorem exists_readOnce_some (hsaved : r.saved = none) (hparked : r.parked = none) {g : Gathered}
    (h : r.readOnce.1 = some g) :
    ∃ cs, r.readOnce.2.device.calls = r.device.calls ++ cs ∧ Ends cs g r.readOnce.2 := by
  have hends := Ends.receive (r := { r with device := (Device.read bufferSize r.device).2 }) hsaved hparked
    (c := .read (Device.read bufferSize r.device).1) rfl h
  refine ⟨[.read (Device.read bufferSize r.device).1], ?_, hends⟩
  rw [readOnce, device_receive]
  rfl

theorem exists_turn_none (h : r.turn.1 = none) :
    ∃ cs, r.turn.2.device.calls = r.device.calls ++ cs ∧ Quiet cs ∧ r.turn.2.saved = r.saved ∧
      r.turn.2.parked = r.parked := by
  rcases turn_cases r with ⟨-, hturn⟩ | ⟨f, -, -, ⟨hwait, hturn⟩ | ⟨-, hturn⟩ | ⟨fault, -, hturn⟩⟩
  . rw [hturn] at h ⊢
    exact exists_readOnce_none h
  . rw [hturn] at h ⊢
    obtain ⟨cs, hcalls, hquiet, hsaved, hparked⟩ := exists_readOnce_none h
    refine ⟨[.wait (.ok true)] ++ cs, ?_, (quiet_singleton rfl).append hquiet, hsaved, hparked⟩
    rw [hcalls, Tapped.calls_wait, hwait, List.append_assoc]
  . rw [hturn] at h
    cases h
  . rw [hturn] at h
    cases h

theorem exists_turn_some (hsaved : r.saved = none) (hparked : r.parked = none) {g : Gathered}
    (h : r.turn.1 = some g) :
    ∃ cs, r.turn.2.device.calls = r.device.calls ++ cs ∧ Ends cs g r.turn.2 := by
  rcases turn_cases r with ⟨-, hturn⟩ | ⟨f, -, -, ⟨hwait, hturn⟩ | ⟨hwait, hturn⟩ | ⟨fault, hwait, hturn⟩⟩
  . rw [hturn] at h ⊢
    exact exists_readOnce_some hsaved hparked h
  . rw [hturn] at h ⊢
    obtain ⟨cs, hcalls, hends⟩ :=
      exists_readOnce_some (r := { r with device := (Device.wait r.device).2 }) hsaved hparked h
    refine ⟨[.wait (.ok true)] ++ cs, ?_, hends.append (quiet_singleton rfl)⟩
    rw [hcalls, Tapped.calls_wait, hwait, List.append_assoc]
  . rw [hturn, Option.some.injEq] at h
    rw [hturn, ← h]
    exact ⟨[.wait (.ok false)], by rw [Tapped.calls_wait, hwait], .quiet (quiet_singleton rfl) rfl hparked⟩
  . rw [hturn, Option.some.injEq] at h
    rw [hturn, ← h]
    exact ⟨[] ++ [.wait (.error fault)], by rw [Tapped.calls_wait, hwait, List.nil_append],
      .parked (List.forall_mem_nil _) rfl hsaved rfl⟩

theorem exists_gather_ends (hsaved : r.saved = none) (hparked : r.parked = none) :
    ∃ cs, r.gather.2.device.calls = r.device.calls ++ cs ∧ Ends cs r.gather.1 r.gather.2 := by
  -- turns that give nothing make calls that do not fail, and leave nothing saved or parked
  refine gather_induct
    (P := fun r' => r'.saved = none ∧ r'.parked = none ∧
      ∃ cs, r'.device.calls = r.device.calls ++ cs ∧ Quiet cs)
    (Q := fun g r' => ∃ cs, r'.device.calls = r.device.calls ++ cs ∧ Ends cs g r') ?_ ?_ r
    ⟨hsaved, hparked, [], (List.append_nil _).symm, List.forall_mem_nil _⟩
  . rintro r' ⟨hsaved, hparked, cs, hcs, hquiet⟩ hturn
    obtain ⟨cs', hcs', hquiet', hsaved', hparked'⟩ := exists_turn_none hturn
    refine ⟨hsaved'.trans hsaved, hparked'.trans hparked, cs ++ cs', ?_, hquiet.append hquiet'⟩
    rw [hcs', hcs, List.append_assoc]
  . rintro r' g ⟨hsaved, hparked, cs, hcs, hquiet⟩ hturn
    obtain ⟨cs', hcs', hends⟩ := exists_turn_some hsaved hparked hturn
    refine ⟨cs ++ cs', ?_, hends.append hquiet⟩
    rw [hcs', hcs, List.append_assoc]

theorem exists_gatherSaved_ends (hparked : r.parked = none) :
    ∃ cs, r.gatherSaved.2.device.calls = r.device.calls ++ cs ∧ Ends cs r.gatherSaved.1 r.gatherSaved.2 := by
  cases hsaved : r.saved with
  | none =>
    rw [gatherSaved, hsaved]
    exact exists_gather_ends hsaved hparked
  | some raw =>
    have hdevice := device_takeIn { r with saved := none } raw
    have hparked' := (parked_takeIn { r with saved := none } raw).trans hparked
    rw [gatherSaved, hsaved]
    dsimp only
    split
    . next g r' htake =>
      have hg := error?_of_takeIn (r := { r with saved := none }) (congrArg Prod.fst htake)
      rw [htake] at hdevice hparked'
      exact ⟨[], by rw [List.append_nil, hdevice], .quiet (List.forall_mem_nil _) hg hparked'⟩
    . next r' htake =>
      have hsaved' := saved_takeIn_of_eq_none { r with saved := none } raw (congrArg Prod.fst htake)
      rw [htake] at hdevice hparked' hsaved'
      obtain ⟨cs, hcs, hends⟩ := exists_gather_ends hsaved' hparked'
      exact ⟨cs, by rw [hcs, hdevice], hends⟩

theorem exists_advance_ends (hparked : r.parked = none) :
    ∃ cs, r.advance.2.device.calls = r.device.calls ++ cs ∧ Ends cs r.advance.1 r.advance.2 := by
  rw [advance_of_not_parked hparked]
  obtain ⟨cs, hcs, hends⟩ := exists_gatherSaved_ends (r := r.forget) ((parked_forget r).trans hparked)
  refine ⟨cs, ?_, hends.deliver⟩
  rw [device_deliver, hcs, device_forget]

theorem openDevice_quiet (r opened : Reader (Tapped δ)) (hquiet : Quiet r.device.calls) (hparked : r.parked = none)
    (hopen : openDevice.go r = .ok opened) : Quiet opened.device.calls ∧ opened.parked = none := by
  fun_induction openDevice.go r with
  | case1 r read r' raw harrival =>
    cases hopen
    exact ⟨Quiet.read hquiet (by rw [harrival]; rfl), hparked⟩
  | case2 r read r' harrival ih => exact ih (Quiet.read hquiet (by rw [harrival]; rfl)) hparked hopen
  | case3 r read r' harrival =>
    rw [Except.ok.injEq] at hopen
    rw [← hopen]
    exact ⟨Quiet.read hquiet (by rw [harrival]; rfl), hparked⟩
  | case4 => cases hopen

theorem exists_calls_pull (r : Reader (Tapped δ)) :
    ∃ cs, r.pull.2.device.calls = r.device.calls ++ cs ∧
      ((∃ fault, r.parked = some fault ∧ cs = [] ∧ r.advance.1 = .failed fault ∧ r.pull.2.parked = none) ∨
        r.parked = none ∧ Ends cs r.advance.1 r.pull.2) := by
  have hpull : r.pull.2 = r.advance.2 := rfl
  rw [hpull]
  cases hparked : r.parked with
  | some fault =>
    rw [advance_of_parked hparked]
    refine ⟨[], ?_, .inl ⟨fault, rfl, rfl, rfl, rfl⟩⟩
    rw [List.append_nil]
    exact congrArg Tapped.calls (device_forget r)
  | none =>
    obtain ⟨cs, hcs, hends⟩ := exists_advance_ends hparked
    exact ⟨cs, hcs, .inr ⟨rfl, hends⟩⟩

/--
The histories of a reader, and the state that each comes to. A reader is made with or without a first read. A pull
calls the device and then gives something. Between pulls anything may happen to the device.
-/
inductive History : List Event → Reader (Tapped δ) → Prop where
  | new (device : δ) (follow : Bool) : History [] (.new (.ofDevice device) follow)
  | opened {device : δ} {follow : Bool} {r : Reader (Tapped δ)} :
    openDevice (.ofDevice device) follow = .ok r → History (r.device.calls.map .call) r
  | exchanged {es : List Event} {r : Reader (Tapped δ)} (device : δ) :
    History es r → History es { r with device := { r.device with device } }
  | pulled {es : List Event} {cs : List Call} {r : Reader (Tapped δ)} :
    History es r → r.pull.2.device.calls = r.device.calls ++ cs →
      History (es ++ (cs.map .call ++ [.gave r.advance.1])) r.pull.2

theorem Run.exists_history {gs : List Gathered} (h : Run gs r) :
    ∃ es, History es r ∧ es.filterMap Event.gathered? = gs := by
  induction h with
  | new device follow => exact ⟨[], .new device follow, rfl⟩
  | opened hopen => exact ⟨_, .opened hopen, Event.filterMap_gathered?_map_call _⟩
  | exchanged device _ ih =>
    obtain ⟨es, hes, hgs⟩ := ih
    exact ⟨es, hes.exchanged device, hgs⟩
  | @pulled gs r _ ih =>
    obtain ⟨es, hes, hgs⟩ := ih
    obtain ⟨cs, hcs, -⟩ := exists_calls_pull r
    refine ⟨_, hes.pulled hcs, ?_⟩
    rw [List.filterMap_append, List.filterMap_append, Event.filterMap_gathered?_map_call, hgs]
    rfl

namespace History

variable {es : List Event}

theorem run (h : History es r) : Run (es.filterMap Event.gathered?) r := by
  induction h with
  | new device follow => exact .new device follow
  | opened hopen =>
    rw [Event.filterMap_gathered?_map_call]
    exact .opened hopen
  | exchanged device _ ih => exact .exchanged device ih
  | pulled _ _ ih =>
    rw [List.filterMap_append, List.filterMap_append, Event.filterMap_gathered?_map_call]
    exact .pulled ih

theorem calls (h : History es r) : es.filterMap Event.call? = r.device.calls := by
  induction h with
  | new device follow => rfl
  | opened hopen => exact Event.filterMap_call?_map_call _
  | exchanged device _ ih => exact ih
  | pulled _ hcs ih =>
    rw [List.filterMap_append, List.filterMap_append, Event.filterMap_call?_map_call, ih, hcs]
    exact congrArg _ (List.append_nil _)

theorem exists_lines (h : History es r) :
    ∃ lines : List Logical, es.filterMap Event.found? = lines.map Logical.toRecord ∧
      es.flatMap Event.physicals = lines.flatMap Logical.members ++ r.saved.toList.map Physical.decode := by
  obtain ⟨lines, hgave⟩ := h.run.gave
  have hphysicals := hgave.balanced.physicals
  rw [List.append_nil, Tapped.physicals, ← h.calls, ← Event.flatMap_physicals_eq] at hphysicals
  refine ⟨lines, ?_, hphysicals⟩
  rw [Event.filterMap_found?_eq, hgave.found]

theorem returned (h : History es r) (hsaved : r.saved = none) : Returned es := by
  obtain ⟨lines, hfound, hphysicals⟩ := h.exists_lines
  rw [hsaved] at hphysicals
  exact ⟨lines, hfound, hphysicals.trans (List.append_nil _)⟩

theorem answered {cs : List Call} {g : Gathered} (h : History (es ++ (cs.map .call ++ [.gave g])) r)
    (hends : Ends cs g r) {before after : List Event} {c : Call} {fault : Fault}
    (hc : c.fatal? = some fault) (heq : cs.map .call ++ [.gave g] = before ++ .call c :: after) :
    Answered (es ++ before) fault r.parked after := by
  cases hends with
  | quiet hcs =>
    have hmem : Event.call c ∈ cs.map Event.call ++ [.gave g] := by
      rw [heq]
      simp
    rcases List.mem_append.mp hmem with hmem | hmem
    . exact absurd hmem (hcs.not_mem_map hc)
    . simp at hmem
  | @failed cs c' fault' _ hcs hc' hsaved hparked =>
    rw [List.map_append, List.append_assoc] at heq h
    obtain ⟨rfl, rfl, rfl, rfl⟩ := hcs.eq_of_append hc hc' heq
    rw [← List.append_assoc] at h
    exact .atOnce [] ((h.returned hsaved).of_call hc).of_failed
  | @parked cs c' fault' f _ hcs hc' hsaved hparked =>
    rw [List.map_append, List.append_assoc] at heq h
    obtain ⟨rfl, rfl, rfl, rfl⟩ := hcs.eq_of_append hc hc' heq
    rw [← List.append_assoc] at h
    exact .parked f ((h.returned hsaved).of_call hc) hparked

end History

theorem Surfaces.pulled {es : List Event} {cs : List Call} {g : Gathered} {r' : Reader (Tapped δ)}
    (hs : Surfaces es r) (hparked : r.parked = none) (hends : Ends cs g r')
    (h : History (es ++ (cs.map .call ++ [.gave g])) r') :
    Surfaces (es ++ (cs.map .call ++ [.gave g])) r' := by
  refine ⟨?_, ?_, ?_⟩
  . have hfaults := hs.faults
    rw [hparked, Option.toList_none, List.append_nil] at hfaults
    rw [List.filterMap_append, List.filterMap_append, List.filterMap_append, List.filterMap_append,
      Event.filterMap_fault?_map_call, Event.filterMap_fatal?_map_call, hfaults, ← hends.faults]
    have hgave : [Event.gave g].filterMap Event.fault? = g.toPull.error?.toList := by
      cases g <;> rfl
    have hcall : [Event.gave g].filterMap Event.fatal? = [] := rfl
    rw [hgave, hcall, List.nil_append, List.append_nil, List.append_assoc]
  . intro before c after fault heq hc
    rcases append_eq_append_cons heq with ⟨mid, hold, rfl⟩ | ⟨mid, rfl, hnew⟩
    . have hanswered := hs.answered before c mid fault hold hc
      rw [hparked] at hanswered
      exact hanswered.extend _
    . exact h.answered hends hc hnew
  . intro fault hfault
    cases hends with
    | quiet hcs hg hparked' =>
      rw [hparked'] at hfault
      cases hfault
    | failed hcs hc hsaved hparked' =>
      rw [hparked'] at hfault
      cases hfault
    | @parked cs c fault' f _ hcs hc hsaved hparked' =>
      refine ⟨es ++ cs.map .call, c, f, by simp, ?_⟩
      rw [hc, ← hparked', hfault]

theorem History.surfaces {es : List Event} (h : History es r) : Surfaces es r := by
  -- `Returned` is no part of the invariant: it follows from what every run conserves, wherever nothing is saved
  induction h with
  | new device follow =>
    refine ⟨rfl, ?_, ?_⟩
    . intro before c after fault heq
      simp at heq
    . intro fault hparked
      cases hparked
  | @opened device follow r hopen =>
    obtain ⟨hquiet, hparked⟩ :=
      openDevice_quiet (.new (.ofDevice device) follow) r (List.forall_mem_nil _) rfl hopen
    refine ⟨?_, ?_, ?_⟩
    . rw [Event.filterMap_fault?_map_call, Event.filterMap_fatal?_map_call, hquiet.filterMap_fatal?, hparked]
      rfl
    . intro before c after fault heq hc
      apply absurd _ (hquiet.not_mem_map hc)
      rw [heq]
      simp
    . intro fault hfault
      rw [hparked] at hfault
      cases hfault
  | exchanged device _ ih => exact ⟨ih.faults, ih.answered, ih.parked⟩
  | @pulled es cs r hes hcs ih =>
    have hpulled := hes.pulled hcs
    obtain ⟨cs', hcs', hcases⟩ := exists_calls_pull r
    obtain rfl : cs' = cs := by
      rw [hcs, List.append_cancel_left_eq] at hcs'
      exact hcs'.symm
    rcases hcases with ⟨fault, hparked, hnil, hgave, hparked'⟩ | ⟨hparked, hends⟩
    . rw [hnil, hgave]
      exact ih.unpark hparked hparked'
    . exact ih.pulled hparked hends hpulled

/--
The faults of a device in any history of its reader. Those given and the one that is parked are the faults of the
calls, each one once and in order. Each is given behind everything that was read before it, and before the device is
called again. It is parked only with a fragment that the same pull gives, and the next pull gives it without a call.
With or without faults, what was found are the lines of the records that were read, but for one that is saved.
-/
theorem History.gives_faults {es : List Event} (h : History es r) :
    es.filterMap Event.call? = r.device.calls ∧
      es.filterMap Event.fault? ++ r.parked.toList = es.filterMap Event.fatal? ∧
      (∀ before c after fault, es = before ++ .call c :: after → c.fatal? = some fault →
        Answered before fault r.parked after) ∧
      (∀ fault, r.parked = some fault →
        (∃ before c f, es = before ++ [.call c, .gave (.fragment f)] ∧ c.fatal? = some fault) ∧
          r.pull.1 = .failed fault ∧ r.pull.2.device = r.device ∧ r.pull.2.parked = none) ∧
      ∃ lines : List Logical, es.filterMap Event.found? = lines.map Logical.toRecord ∧
        es.flatMap Event.physicals = lines.flatMap Logical.members ++ r.saved.toList.map Physical.decode := by
  have hsurfaces := h.surfaces
  refine ⟨h.calls, hsurfaces.faults, hsurfaces.answered, ?_, h.exists_lines⟩
  intro fault hparked
  refine ⟨hsurfaces.parked fault hparked, ?_⟩
  unfold pull
  rw [advance_of_parked hparked]
  exact ⟨rfl, device_forget r, rfl⟩

theorem History.gives_faults_brokenLine :
    ∃ (es : List Event) (r : Reader (Tapped Script)), History es r ∧ r.parked = some (.ofKind .other) ∧
      es.filterMap Event.fatal? = [.ofKind .other] ∧ es.filterMap Event.fault? = [] ∧
      r.pull.1 = .failed (.ofKind .other) := by
  obtain ⟨es, hes, hgs⟩ := Run.exists_history (Run.pulled (Run.new brokenLine false))
  have hparked := (by decide +kernel :
    (Reader.new (Tapped.ofDevice brokenLine) false).pull.2.parked = some (.ofKind .other))
  have hgiven : es.filterMap Event.fault? = [] := by
    rw [Event.filterMap_fault?_eq, hgs]
    decide +kernel
  obtain ⟨-, hfaults, -, hnext, -⟩ := History.gives_faults hes
  rw [hgiven, hparked] at hfaults
  exact ⟨es, _, hes, hparked, hfaults.symm, hgiven, (hnext _ hparked).2.1⟩

end Reader
end KernelLog.Kmsg
