import KernelLog.Proofs.Kmsg.Accounts

/-!
This module contains what one turn of a reader does: which calls of the device it makes, what becomes of the
record that arrives, and what stays as it is.
-/

namespace KernelLog.Kmsg

variable {δ : Type}

def Arrival.physicals : Arrival → List Physical
  | record raw => [.decode raw]
  | dry => []
  | retry => []
  | failed _ => []

namespace Reader

theorem takeIn_frame (r : Reader δ) (raw : Octets) :
    ∃ fragment fragments overflows saved,
      (r.takeIn raw).2 = { r with fragment, fragments, overflows, saved } := by
  unfold takeIn
  dsimp only
  split
  . exact ⟨_, _, _, _, rfl⟩
  . exact ⟨_, _, _, _, rfl⟩
  . exact ⟨_, _, _, _, rfl⟩
  . exact ⟨_, _, _, _, rfl⟩
  . exact ⟨_, _, _, _, rfl⟩
  . exact ⟨_, _, _, _, rfl⟩

@[simp]
theorem follow_takeIn (r : Reader δ) (raw : Octets) : (r.takeIn raw).2.follow = r.follow := by
  obtain ⟨_, _, _, _, h⟩ := takeIn_frame r raw
  rw [h]

@[simp]
theorem parked_takeIn (r : Reader δ) (raw : Octets) : (r.takeIn raw).2.parked = r.parked := by
  obtain ⟨_, _, _, _, h⟩ := takeIn_frame r raw
  rw [h]

@[simp]
theorem reads_takeIn (r : Reader δ) (raw : Octets) : (r.takeIn raw).2.reads = r.reads := by
  obtain ⟨_, _, _, _, h⟩ := takeIn_frame r raw
  rw [h]

@[simp]
theorem retries_takeIn (r : Reader δ) (raw : Octets) : (r.takeIn raw).2.retries = r.retries := by
  obtain ⟨_, _, _, _, h⟩ := takeIn_frame r raw
  rw [h]

@[simp]
theorem records_takeIn (r : Reader δ) (raw : Octets) : (r.takeIn raw).2.records = r.records := by
  obtain ⟨_, _, _, _, h⟩ := takeIn_frame r raw
  rw [h]

@[simp]
theorem follow_onFault (r : Reader δ) (fault : Fault) : (r.onFault fault).2.follow = r.follow := by
  unfold onFault
  split <;> rfl

@[simp]
theorem saved_onFault (r : Reader δ) (fault : Fault) : (r.onFault fault).2.saved = r.saved := by
  unfold onFault
  split <;> rfl

@[simp]
theorem reads_onFault (r : Reader δ) (fault : Fault) : (r.onFault fault).2.reads = r.reads := by
  unfold onFault
  split <;> rfl

@[simp]
theorem retries_onFault (r : Reader δ) (fault : Fault) : (r.onFault fault).2.retries = r.retries := by
  unfold onFault
  split <;> rfl

@[simp]
theorem records_onFault (r : Reader δ) (fault : Fault) : (r.onFault fault).2.records = r.records := by
  unfold onFault
  split <;> rfl

@[simp]
theorem follow_receive (r : Reader δ) (a : Arrival) : (r.receive a).2.follow = r.follow := by
  cases a <;> simp [receive]

@[simp]
theorem records_receive (r : Reader δ) (a : Arrival) : (r.receive a).2.records = r.records := by
  cases a <;> simp [receive]

@[simp]
theorem reads_receive (r : Reader δ) (a : Arrival) :
    (r.receive a).2.reads = r.reads + a.physicals.length := by
  cases a <;> simp [receive, Arrival.physicals]

@[simp]
theorem retries_receive (r : Reader δ) (a : Arrival) :
    (r.receive a).2.retries = r.retries + (if a = .retry then 1 else 0) := by
  cases a <;> simp [receive]

theorem parked_receive (r : Reader δ) (a : Arrival) (h : ∀ fault, a ≠ .failed fault) :
    (r.receive a).2.parked = r.parked := by
  cases a with
  | record raw => exact parked_takeIn _ raw
  | retry => rfl
  | dry => rfl
  | failed fault => exact absurd rfl (h fault)

theorem isFound_of_takeIn (r : Reader δ) (raw : Octets) (g : Gathered) (h : (r.takeIn raw).1 = some g) :
    g.toPull.isFound := by
  unfold takeIn at h
  dsimp only at h
  split at h
  . cases h
  . cases h
  . cases h
    rfl
  . cases h
    rfl
  . cases h
    rfl
  . cases h
    rfl

@[simp]
theorem parked_forget (r : Reader δ) : r.forget.parked = r.parked := by
  unfold forget
  split <;> rfl

@[simp]
theorem saved_forget (r : Reader δ) : r.forget.saved = r.saved := by
  unfold forget
  split <;> rfl

@[simp]
theorem saved_deliver (r : Reader δ) (g : Gathered) : (r.deliver g).saved = r.saved := by
  cases g <;> rfl

@[simp]
theorem records_forget (r : Reader δ) : r.forget.records = r.records := by
  unfold forget
  split <;> rfl

@[simp]
theorem fragments_forget (r : Reader δ) : r.forget.fragments = r.fragments := by
  unfold forget
  split <;> rfl

@[simp]
theorem overflows_forget (r : Reader δ) : r.forget.overflows = r.overflows := by
  unfold forget
  split <;> rfl

theorem forget_exchange (r : Reader δ) (device : δ) :
    { r with device }.forget = { r.forget with device } := by
  unfold forget
  split <;> rfl

theorem advance_of_parked [Device δ] {r : Reader δ} {fault : Fault} (h : r.parked = some fault) :
    r.advance = (.failed fault, { r.forget with parked := none }) := by
  unfold advance
  simp only [parked_forget, h]

theorem advance_of_not_parked [Device δ] {r : Reader δ} (h : r.parked = none) :
    r.advance = (r.forget.gatherSaved.1, r.forget.gatherSaved.2.deliver r.forget.gatherSaved.1) := by
  unfold advance
  simp only [parked_forget, h]

theorem turn_cases [Device δ] (r : Reader δ) :
    (r.follow = false ∨ r.fragment = none) ∧ r.turn = r.readOnce ∨
      ∃ f, r.follow = true ∧ r.fragment = some f ∧
        ((Device.wait r.device).1 = .ok true ∧
            r.turn = { r with device := (Device.wait r.device).2 }.readOnce ∨
          (Device.wait r.device).1 = .ok false ∧
            r.turn = (some (.fragment f), { r with device := (Device.wait r.device).2 }) ∨
          ∃ fault, (Device.wait r.device).1 = .error fault ∧
            r.turn =
              (some (.fragment f), { r with device := (Device.wait r.device).2, parked := some fault })) := by
  unfold turn awaitRest
  cases hfollow : r.follow with
  | false => exact .inl ⟨.inl rfl, by simp [readOnce]⟩
  | true =>
    cases hfragment : r.fragment with
    | none => exact .inl ⟨.inr rfl, by simp [readOnce]⟩
    | some f =>
      refine .inr ⟨f, rfl, rfl, ?_⟩
      rcases hwait : Device.wait r.device with ⟨outcome, device⟩
      cases outcome with
      | ok readable =>
        cases readable with
        | true => exact .inl ⟨rfl, by simp⟩
        | false => exact .inr (.inl ⟨rfl, by simp⟩)
      | error fault => exact .inr (.inr ⟨fault, rfl, by simp⟩)

/--
What every turn that needs more keeps, and what every turn that gives something brings about from there, holds
of all turns together.
-/
theorem gather_induct [Device δ] {P : Reader δ → Prop} {Q : Gathered → Reader δ → Prop}
    (hmore : ∀ r, P r → r.turn.1 = none → P r.turn.2)
    (hgives : ∀ r g, P r → r.turn.1 = some g → Q g r.turn.2) (r : Reader δ) (h : P r) :
    Q r.gather.1 r.gather.2 := by
  fun_induction gather r with
  | case1 r g r' heq =>
    have := hgives r g h
    simp only [heq, forall_const] at this
    exact this
  | case2 r r' heq ih =>
    have := hmore r h
    simp only [heq, forall_const] at this
    exact ih this

theorem records_deliver (r : Reader δ) (g : Gathered) :
    (r.deliver g).records = r.records + (if g.toPull.isFound then 1 else 0) := by
  cases g <;> rfl

theorem records_turn [Device δ] (r : Reader δ) : r.turn.2.records = r.records := by
  rcases turn_cases r with ⟨-, hturn⟩ | ⟨f, -, -, ⟨-, hturn⟩ | ⟨-, hturn⟩ | ⟨fault, -, hturn⟩⟩
  . rw [hturn, readOnce, records_receive]
  . rw [hturn, readOnce, records_receive]
  . rw [hturn]
  . rw [hturn]

theorem records_gather [Device δ] (r : Reader δ) : r.gather.2.records = r.records := by
  refine gather_induct (P := fun r' => r'.records = r.records) (Q := fun _ r' => r'.records = r.records)
    ?_ ?_ r rfl
  . intro r' h _
    rw [records_turn, h]
  . intro r' g h _
    rw [records_turn, h]

theorem records_gatherSaved [Device δ] (r : Reader δ) : r.gatherSaved.2.records = r.records := by
  unfold gatherSaved
  split
  . next raw _ =>
    have htake := records_takeIn { r with saved := none } raw
    split
    . next heq =>
      rw [heq] at htake
      exact htake
    . next heq =>
      rw [heq] at htake
      rw [records_gather, htake]
  . exact records_gather r

theorem records_advance [Device δ] (r : Reader δ) :
    r.advance.2.records = r.records + (if r.advance.1.toPull.isFound then 1 else 0) := by
  cases hparked : r.parked with
  | some fault =>
    rw [advance_of_parked hparked]
    exact records_forget r
  | none =>
    rw [advance_of_not_parked hparked, records_deliver, records_gatherSaved, records_forget]

/--
A reader amidst its turns: it accounts for the pending records, all of which continue a line, and holds no
saved record and no fragment that was returned before.
-/
structure Pending (lines : List Logical) (ms : List Physical) (r : Reader δ) : Prop
    extends Accounts lines ms r where
  continued : ∀ p ∈ ms, p.isContinuation
  saved : r.saved = none
  returned : r.returned = false

variable {lines : List Logical} {ms : List Physical} {r : Reader δ}

theorem Pending.of_eq {r' : Reader δ} (h : Pending lines ms r) (hfragment : r'.fragment = r.fragment)
    (hfragments : r'.fragments = r.fragments) (hoverflows : r'.overflows = r.overflows)
    (hsaved : r'.saved = r.saved) (hreturned : r'.returned = r.returned) : Pending lines ms r' where
  toAccounts := h.toAccounts.of_eq hfragment hfragments hoverflows
  continued := h.continued
  saved := by rw [hsaved, h.saved]
  returned := by rw [hreturned, h.returned]

theorem Pending.exchange (h : Pending lines ms r) (device : δ) : Pending lines ms { r with device } :=
  h.of_eq rfl rfl rfl rfl rfl

theorem Accounts.pending (h : Accounts lines [] r) (hsaved : r.saved = none)
    (hreturned : r.returned = false) : Pending lines [] r where
  toAccounts := h
  continued := by simp
  saved := hsaved
  returned := hreturned

theorem Pending.takeIn_of_isContinuation (h : Pending lines ms r) {raw : Octets}
    (hraw : (Physical.decode raw).isContinuation) :
    (r.takeIn raw).1 = none ∧ Pending lines (ms ++ [.decode raw]) (r.takeIn raw).2 := by
  have htake : r.takeIn raw = (none, (r.join (.decode raw)).2) := by
    unfold takeIn
    simp only [Physical.isContinuation] at hraw
    cases hflag : (Physical.decode raw).header.flag with
    | start => simp only [hflag]
    | more => simp only [hflag]
    | last => simp [hflag, Flag.isContinuation] at hraw
    | flush => simp [hflag, Flag.isContinuation] at hraw
  rw [htake]
  refine ⟨rfl, { h.toAccounts.join (.decode raw) with
    continued := ?_, saved := h.saved, returned := h.returned }⟩
  intro p hp
  rcases List.mem_append.mp hp with hp | hp
  . exact h.continued p hp
  . rw [List.mem_singleton.mp hp]
    exact hraw

theorem Pending.takeIn_of_not_isContinuation (h : Pending lines ms r) {raw : Octets}
    (hraw : (Physical.decode raw).isContinuation = false) :
    ∃ g line, (r.takeIn raw).1 = some g ∧ Settled lines g [line] (r.takeIn raw).2 ∧
      ∀ rest, assemble (ms ++ .decode raw :: rest) =
        line :: assemble ((r.takeIn raw).2.saved.toList.map .decode ++ rest) := by
  -- the flag decides only if there is a fragment, that is, if records are pending
  cases ms with
  | nil =>
    have htake : r.takeIn raw = (some (.physical (.decode raw)), r) := by
      unfold takeIn
      have hfragment : r.fragment = none := h.fragment
      simp only [Physical.isContinuation] at hraw
      cases hflag : (Physical.decode raw).header.flag with
      | start => simp [hflag, Flag.isContinuation] at hraw
      | more => simp [hflag, Flag.isContinuation] at hraw
      | last => simp [hflag, hfragment]
      | flush => simp [hflag, hfragment]
    rw [htake]
    refine ⟨_, _, rfl, h.toAccounts.settled_physical h.returned _, ?_⟩
    intro rest
    rw [h.saved]
    exact assemble_whole _ rest hraw
  | cons m ms =>
    obtain ⟨f, hf⟩ : ∃ f, fragment? (m :: ms) = some f := ⟨_, rfl⟩
    have hfragment : r.fragment = some f := h.fragment.trans hf
    cases hflag : (Physical.decode raw).header.flag with
    | start => simp [Physical.isContinuation, hflag, Flag.isContinuation] at hraw
    | more => simp [Physical.isContinuation, hflag, Flag.isContinuation] at hraw
    | last =>
      have htake : r.takeIn raw =
          (some (.fragment (r.join (.decode raw)).1), (r.join (.decode raw)).2) := by
        unfold takeIn
        simp only [hflag, hfragment]
      rw [htake]
      have hjoin := h.toAccounts.join (.decode raw)
      refine ⟨_, _, rfl, hjoin.settled_fragment _ (h.toAccounts.fragment_join _), ?_⟩
      intro rest
      have hsaved : (r.join (.decode raw)).2.saved = none := h.saved
      rw [hsaved]
      exact assemble_last m ms _ rest h.continued hflag
    | flush =>
      have htake : r.takeIn raw = (some (.fragment f), { r with saved := some raw }) := by
        unfold takeIn
        simp only [hflag, hfragment]
      rw [htake]
      have haccounts : Accounts lines (m :: ms) { r with saved := some raw } :=
        h.toAccounts.of_eq rfl rfl rfl
      refine ⟨_, _, rfl, haccounts.settled_fragment f hf, ?_⟩
      intro rest
      exact assemble_flush m ms _ rest h.continued hflag

theorem Pending.settled_atEnd (h : Pending lines ms r) : Settled lines r.atEnd (assemble ms) r := by
  cases ms with
  | nil =>
    have hfragment : r.fragment = none := h.fragment
    rw [atEnd, hfragment, assemble_nil]
    exact h.toAccounts.settled_done h.returned
  | cons m ms =>
    have hfragment : r.fragment = some _ := h.fragment
    rw [atEnd, hfragment, assemble_end m ms h.continued]
    exact h.toAccounts.settled_fragment _ rfl

theorem Pending.settled_onFault (h : Pending lines ms r) (fault : Fault) :
    Settled lines (r.onFault fault).1 (assemble ms) (r.onFault fault).2 := by
  cases ms with
  | nil =>
    have hfragment : r.fragment = none := h.fragment
    rw [onFault, hfragment, assemble_nil]
    exact h.toAccounts.settled_failed h.returned fault
  | cons m ms =>
    obtain ⟨f, hf⟩ : ∃ f, fragment? (m :: ms) = some f := ⟨_, rfl⟩
    have hfault : r.onFault fault = (.fragment f, { r with parked := some fault }) := by
      unfold onFault
      simp only [h.fragment.trans hf]
    rw [hfault, assemble_end m ms h.continued]
    have haccounts : Accounts lines (m :: ms) { r with parked := some fault } :=
      h.toAccounts.of_eq rfl rfl rfl
    exact haccounts.settled_fragment f hf

theorem Pending.receive_none (h : Pending lines ms r) {a : Arrival} (ha : (r.receive a).1 = none) :
    Pending lines (ms ++ a.physicals) (r.receive a).2 ∧ ∀ p ∈ a.physicals, p.isContinuation := by
  cases a with
  | record raw =>
    have hcounted : Pending lines ms { r with reads := r.reads + 1 } := h.of_eq rfl rfl rfl rfl rfl
    cases hraw : (Physical.decode raw).isContinuation with
    | true =>
      refine ⟨(hcounted.takeIn_of_isContinuation hraw).2, ?_⟩
      intro p hp
      rw [List.mem_singleton.mp hp]
      exact hraw
    | false =>
      obtain ⟨g, -, hg, -⟩ := hcounted.takeIn_of_not_isContinuation hraw
      rw [receive, hg] at ha
      cases ha
  | retry =>
    simp only [Arrival.physicals, List.append_nil]
    exact ⟨h.of_eq rfl rfl rfl rfl rfl, by simp⟩
  | dry => simp [receive] at ha
  | failed fault => simp [receive] at ha

theorem Pending.receive_some (h : Pending lines ms r) {a : Arrival} {g : Gathered}
    (ha : (r.receive a).1 = some g) :
    ∃ more, Settled lines g more (r.receive a).2 ∧
      ∀ rest, (a.goesOn = false → rest = []) →
        assemble (ms ++ a.physicals ++ rest) =
          more ++ assemble ((r.receive a).2.saved.toList.map .decode ++ rest) := by
  cases a with
  | record raw =>
    have hcounted : Pending lines ms { r with reads := r.reads + 1 } := h.of_eq rfl rfl rfl rfl rfl
    cases hraw : (Physical.decode raw).isContinuation with
    | true =>
      rw [receive, (hcounted.takeIn_of_isContinuation hraw).1] at ha
      cases ha
    | false =>
      obtain ⟨g', line, hg, hsettled, hassemble⟩ := hcounted.takeIn_of_not_isContinuation hraw
      rw [receive, hg, Option.some.injEq] at ha
      subst ha
      refine ⟨[line], hsettled, ?_⟩
      intro rest _
      rw [List.append_assoc]
      exact hassemble rest
  | retry => simp [receive] at ha
  | dry =>
    simp only [receive, Option.some.injEq] at ha
    subst ha
    refine ⟨assemble ms, h.settled_atEnd, ?_⟩
    intro rest hrest
    simp [hrest rfl, Arrival.physicals, receive, h.saved, assemble_nil]
  | failed fault =>
    simp only [receive, Option.some.injEq] at ha
    subst ha
    refine ⟨assemble ms, h.settled_onFault fault, ?_⟩
    intro rest hrest
    simp [hrest rfl, Arrival.physicals, receive, saved_onFault, h.saved, assemble_nil]

theorem Accounts.gatherSaved_cases [Device δ] (h : Accounts lines [] r) (hreturned : r.returned = false) :
    (r.saved = none ∧ r.gatherSaved = r.gather) ∨
      ∃ raw, r.saved = some raw ∧
        let taken := { r with saved := none }.takeIn raw
        (Pending lines [.decode raw] taken.2 ∧ r.gatherSaved = taken.2.gather) ∨
          ∃ g line, g.toPull.isFound ∧ Settled lines g [line] taken.2 ∧ r.gatherSaved = (g, taken.2) ∧
            ∀ rest, assemble (.decode raw :: rest) =
              line :: assemble (taken.2.saved.toList.map .decode ++ rest) := by
  cases hsaved : r.saved with
  | none =>
    refine .inl ⟨rfl, ?_⟩
    rw [gatherSaved, hsaved]
  | some raw =>
    have hp : Pending lines [] { r with saved := none } :=
      Accounts.pending (h.of_eq rfl rfl rfl) rfl hreturned
    refine .inr ⟨raw, rfl, ?_⟩
    cases hraw : (Physical.decode raw).isContinuation with
    | true =>
      obtain ⟨hnone, hpending⟩ := hp.takeIn_of_isContinuation hraw
      refine .inl ⟨hpending, ?_⟩
      rw [gatherSaved, hsaved]
      dsimp only
      split
      . next heq =>
        rw [heq] at hnone
        cases hnone
      . next heq => rw [heq]
    | false =>
      obtain ⟨g, line, hsome, hsettled, hassemble⟩ := hp.takeIn_of_not_isContinuation hraw
      refine .inr ⟨g, line, isFound_of_takeIn _ raw g hsome, hsettled, ?_, hassemble⟩
      rw [gatherSaved, hsaved]
      dsimp only
      split
      . next heq =>
        rw [heq, Option.some.injEq] at hsome
        rw [heq, hsome]
      . next heq =>
        rw [heq] at hsome
        cases hsome

end Reader
end KernelLog.Kmsg
