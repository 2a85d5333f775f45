import KernelLog.Proofs.Kmsg.Arrival
import KernelLog.Proofs.Kmsg.Faults

/-!
This module contains what becomes of device calls that are interrupted. Main statement: a read that is interrupted is
tried again, and a wait that is interrupted is given as a fault, behind the fragment that it was to complete.
-/

namespace KernelLog.Kmsg

variable {δ : Type}

def Transient (fault : Fault) : Prop :=
  fault.kind = .brokenPipe ∨ fault.kind = .interrupted

theorem Arrival.ofRead_of_transient {fault : Fault} (h : Transient fault) : ofRead (.error fault) = .retry :=
  (ofRead_eq_retry_iff _).mpr ⟨fault, rfl, h⟩

theorem Arrival.not_transient_of_ofRead {outcome : Except Fault Octets} {fault : Fault}
    (h : ofRead outcome = .failed fault) : ¬ Transient fault := by
  intro htransient
  rw [eq_error_of_ofRead_eq_failed h, ofRead_of_transient htransient] at h
  cases h

theorem Call.eq_wait_of_fatal? {c : Call} {fault : Fault} (hc : c.fatal? = some fault) (h : Transient fault) :
    c = .wait (.error fault) := by
  cases c with
  | read outcome =>
    rw [fatal?] at hc
    cases harrival : Arrival.ofRead outcome with
    | failed fault' =>
      rw [harrival, Arrival.fatal?, Option.some.injEq] at hc
      rw [hc] at harrival
      exact absurd h (Arrival.not_transient_of_ofRead harrival)
    | record raw =>
      rw [harrival] at hc
      cases hc
    | dry =>
      rw [harrival] at hc
      cases hc
    | retry =>
      rw [harrival] at hc
      cases hc
  | wait outcome =>
    cases outcome with
    | ok readable => cases hc
    | error fault' =>
      rw [fatal?, Option.some.injEq] at hc
      rw [hc]

def Tapped.Rested (t : Tapped δ) : Prop :=
  ∀ outcome, t.calls.getLast? = some (.read outcome) → Arrival.ofRead outcome ≠ .retry

namespace Tapped

variable [Device δ] {t : Tapped δ}

theorem rested_read {room : Nat} (h : Arrival.ofRead (Device.read room t).1 ≠ .retry) :
    (Device.read room t).2.Rested := by
  intro outcome hlast
  rw [calls_read, List.getLast?_concat, Option.some.injEq, Call.read.injEq] at hlast
  rw [← hlast]
  exact h

theorem rested_wait : (Device.wait t).2.Rested := by
  intro outcome hlast
  rw [calls_wait, List.getLast?_concat] at hlast
  cases hlast

end Tapped

namespace Reader

theorem eq_failed_of_receive {r : Reader δ} {a : Arrival} {fault : Fault}
    (h : (r.receive a).1 = some (.failed fault)) : a = .failed fault := by
  cases a with
  | record raw =>
    have hfound := isFound_of_takeIn _ raw _ h
    cases hfound
  | retry => cases h
  | dry =>
    rw [receive, atEnd, Option.some.injEq] at h
    split at h <;> cases h
  | failed fault' =>
    cases hfragment : r.fragment with
    | some f =>
      rw [receive, onFault, hfragment] at h
      cases h
    | none =>
      rw [receive, onFault, hfragment, Option.some.injEq, Gathered.failed.injEq] at h
      rw [h]

variable [Device δ]

theorem not_transient_of_readOnce {r : Reader δ} {fault : Fault} (h : r.readOnce.1 = some (.failed fault)) :
    ¬ Transient fault :=
  Arrival.not_transient_of_ofRead (eq_failed_of_receive h)

theorem not_transient_of_gather {r : Reader δ} {fault : Fault} (h : r.gather.1 = .failed fault) :
    ¬ Transient fault := by
  -- only a read is gathered as a fault; a wait that fails is parked, and its fragment is gathered
  refine gather_induct (P := fun _ => True) (Q := fun g _ => g = .failed fault → ¬ Transient fault) ?_ ?_ r trivial h
  . intro r _ _
    trivial
  . rintro r g - hgives rfl
    rcases turn_cases r with ⟨-, hturn⟩ | ⟨f, -, -, ⟨-, hturn⟩ | ⟨-, hturn⟩ | ⟨fault', -, hturn⟩⟩
    . rw [hturn] at hgives
      exact not_transient_of_readOnce hgives
    . rw [hturn] at hgives
      exact not_transient_of_readOnce hgives
    . rw [hturn] at hgives
      cases hgives
    . rw [hturn] at hgives
      cases hgives

theorem not_transient_of_gatherSaved {r : Reader δ} {fault : Fault} (h : r.gatherSaved.1 = .failed fault) :
    ¬ Transient fault := by
  unfold gatherSaved at h
  split at h
  . next raw _ =>
    split at h
    . next g r' heq =>
      have hfound := isFound_of_takeIn _ raw g (congrArg Prod.fst heq)
      dsimp only at h
      rw [h] at hfound
      cases hfound
    . exact not_transient_of_gather h
  . exact not_transient_of_gather h

theorem pull_failed_iff_of_transient (r : Reader δ) {fault : Fault} (h : Transient fault) :
    r.pull.1 = .failed fault ↔ r.parked = some fault := by
  unfold pull
  cases hparked : r.parked with
  | some fault' =>
    rw [advance_of_parked hparked]
    simp [Gathered.toPull]
  | none =>
    rw [advance_of_not_parked hparked]
    apply iff_of_false
    . intro hpull
      apply not_transient_of_gatherSaved (r := r.forget) _ h
      cases hgathered : r.forget.gatherSaved.1 <;> simp_all [Gathered.toPull]
    . simp

variable {r : Reader (Tapped δ)}

theorem rested_readOnce {g : Gathered} (h : r.readOnce.1 = some g) : r.readOnce.2.device.Rested := by
  rw [readOnce, device_receive]
  apply Tapped.rested_read
  intro hretry
  have hreceive : r.readOnce = { r with device := (Device.read bufferSize r.device).2 }.receive
    (.ofRead (Device.read bufferSize r.device).1) := rfl
  rw [hreceive, hretry] at h
  cases h

theorem rested_turn {g : Gathered} (h : r.turn.1 = some g) : r.turn.2.device.Rested := by
  rcases turn_cases r with ⟨-, hturn⟩ | ⟨f, -, -, ⟨-, hturn⟩ | ⟨-, hturn⟩ | ⟨fault, -, hturn⟩⟩
  . rw [hturn] at h ⊢
    exact rested_readOnce h
  . rw [hturn] at h ⊢
    exact rested_readOnce h
  . rw [hturn]
    exact Tapped.rested_wait
  . rw [hturn]
    exact Tapped.rested_wait

theorem rested_gather (r : Reader (Tapped δ)) : r.gather.2.device.Rested := by
  refine gather_induct (P := fun _ => True) (Q := fun _ r => r.device.Rested) ?_ ?_ r trivial
  . intro r _ _
    trivial
  . intro r g _ hgives
    exact rested_turn hgives

theorem rested_gatherSaved (h : r.device.Rested) : r.gatherSaved.2.device.Rested := by
  unfold gatherSaved
  split
  . next raw _ =>
    have hdevice := device_takeIn { r with saved := none } raw
    split
    . next heq =>
      rw [heq] at hdevice
      dsimp only at hdevice ⊢
      rw [hdevice]
      exact h
    . exact rested_gather _
  . exact rested_gather _

theorem rested_pull (h : r.device.Rested) : r.pull.2.device.Rested := by
  have hpull : r.pull.2 = r.advance.2 := rfl
  have hforget : r.forget.device.Rested := by
    rw [device_forget]
    exact h
  rw [hpull]
  cases hparked : r.parked with
  | some fault =>
    rw [advance_of_parked hparked]
    exact hforget
  | none =>
    rw [advance_of_not_parked hparked, device_deliver]
    exact rested_gatherSaved hforget

theorem rested_openDevice (r opened : Reader (Tapped δ)) (hopen : openDevice.go r = .ok opened) :
    opened.device.Rested := by
  fun_induction openDevice.go r with
  | case1 r read r' raw harrival =>
    cases hopen
    apply Tapped.rested_read
    intro hretry
    cases harrival.symm.trans hretry
  | case2 r read r' harrival ih => exact ih hopen
  | case3 r read r' harrival =>
    rw [Except.ok.injEq] at hopen
    rw [← hopen]
    apply Tapped.rested_read
    intro hretry
    cases harrival.symm.trans hretry
  | case4 => cases hopen

namespace History

variable {es : List Event}

theorem rested (h : History es r) : r.device.Rested := by
  induction h with
  | new device follow =>
    intro outcome hlast
    cases hlast
  | opened hopen => exact rested_openDevice _ _ hopen
  | exchanged device _ ih => exact ih
  | pulled _ _ ih => exact rested_pull ih

theorem exists_call_of_getLast?_ne {cs : List Call} {c : Call} (hlast : cs.getLast? ≠ some c)
    {tail before after : List Event} (htail : ∀ c, .call c ∉ tail)
    (h : cs.map Event.call ++ tail = before ++ .call c :: after) : ∃ c' rest, after = .call c' :: rest := by
  rcases append_eq_append_cons h with ⟨mid, hold, rfl⟩ | ⟨mid, -, hnew⟩
  . obtain ⟨front, back, rfl, -, hback⟩ := List.map_eq_append_iff.mp hold
    obtain ⟨c', back, rfl, hc', rfl⟩ := List.map_eq_cons_iff.mp hback
    rw [Event.call.injEq] at hc'
    cases back with
    | nil =>
      rw [hc', List.getLast?_concat] at hlast
      exact absurd rfl hlast
    | cons c'' back => exact ⟨c'', back.map .call ++ tail, rfl⟩
  . apply absurd _ (htail c)
    rw [hnew]
    simp

theorem exists_call_of_retry (h : History es r) {before after : List Event} {outcome : Except Fault Octets}
    (hes : es = before ++ .call (.read outcome) :: after) (houtcome : Arrival.ofRead outcome = .retry) :
    ∃ c rest, after = .call c :: rest := by
  induction h generalizing before after with
  | new device follow => simp at hes
  | @opened device follow r hopen =>
    rw [← List.append_nil (r.device.calls.map Event.call)] at hes
    apply exists_call_of_getLast?_ne _ _ hes
    . intro hlast
      exact rested_openDevice _ _ hopen outcome hlast houtcome
    . simp
  | exchanged device _ ih => exact ih hes
  | @pulled es cs r hold hcs ih =>
    rcases append_eq_append_cons hes with ⟨mid, hmid, rfl⟩ | ⟨mid, -, hnew⟩
    . obtain ⟨c, rest, rfl⟩ := ih hmid
      exact ⟨c, rest ++ (cs.map .call ++ [.gave r.advance.1]), rfl⟩
    . apply exists_call_of_getLast?_ne _ _ hnew
      . intro hlast
        apply rested_pull hold.rested outcome _ houtcome
        rw [hcs, List.getLast?_append, hlast, Option.some_or]
      . simp

theorem parked_iff_of_transient (h : History es r) {fault : Fault} (htransient : Transient fault) :
    r.parked = some fault ↔
      ∃ before f, es = before ++ [.call (.wait (.error fault)), .gave (.fragment f)] := by
  have hsurfaces := h.surfaces
  constructor
  . intro hparked
    obtain ⟨before, c, f, hes, hc⟩ := hsurfaces.parked fault hparked
    rw [Call.eq_wait_of_fatal? hc htransient] at hes
    exact ⟨before, f, hes⟩
  . rintro ⟨before, f, hes⟩
    have hanswered := hsurfaces.answered before _ _ fault hes rfl
    cases hanswered with
    | parked _ _ hparked => exact hparked

/--
What a pull makes of calls that are interrupted. It gives the fault of a wait, if the pull before gave the fragment
that was waited for, and of no other call. A read that is interrupted is followed by another call of the same pull.
-/
theorem gives_transient_iff (h : History es r) :
    (∀ fault : Fault, fault.kind = .brokenPipe ∨ fault.kind = .interrupted →
        (r.pull.1 = .failed fault ↔
          ∃ before f, es = before ++ [.call (.wait (.error fault)), .gave (.fragment f)])) ∧
      ∀ before fault after, es = before ++ .call (.read (.error fault)) :: after →
        fault.kind = .brokenPipe ∨ fault.kind = .interrupted → ∃ c rest, after = .call c :: rest := by
  constructor
  . intro fault htransient
    rw [pull_failed_iff_of_transient r htransient, h.parked_iff_of_transient htransient]
  . intro before fault after hes htransient
    exact h.exists_call_of_retry hes (Arrival.ofRead_of_transient htransient)

def interruptedWait : Script :=
  .ofLists [.ok (Octets.ofString "6,1,5,c;ab"), .ok (Octets.ofString "6,2,6,-;cd")] [.error (.ofKind .interrupted)]

theorem gives_transient_iff_interruptedWait :
    ∃ (es : List Event) (r : Reader (Tapped Script)), History es r ∧
      r.pull.1 = .failed (.ofKind .interrupted) ∧
      ∃ before f, es = before ++ [.call (.wait (.error (.ofKind .interrupted))), .gave (.fragment f)] := by
  obtain ⟨es, hes, -⟩ := Run.exists_history (Run.pulled (Run.new interruptedWait true))
  have hpull := (by decide +kernel :
    (Reader.new (Tapped.ofDevice interruptedWait) true).pull.2.pull.1 = .failed (.ofKind .interrupted))
  exact ⟨es, _, hes, hpull, ((gives_transient_iff hes).1 _ (.inr rfl)).mp hpull⟩

/--
An interrupted wait ends a pull with a fault, although a further record could be read.
-/
theorem interruptedWait_gives_interrupted :
    ∃ (es : List Event) (r : Reader (Tapped Script)), History es r ∧
      r.pull.1 = .failed (.ofKind .interrupted) ∧ r.device.device.reads ≠ [] := by
  obtain ⟨es, hes, -⟩ := Run.exists_history (Run.pulled (Run.new interruptedWait true))
  exact ⟨es, _, hes, by decide +kernel, by decide +kernel⟩

end History

end Reader
end KernelLog.Kmsg
