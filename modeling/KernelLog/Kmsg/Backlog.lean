import KernelLog.Kmsg.Reader

/-!
This module contains the bound on what a reader of the message device still has: every pull that finds
something brings a record that the device gave, a record that was saved, or a fragment.
-/

namespace KernelLog.Kmsg.Reader

variable {δ : Type}

theorem saved_takeIn_of_eq_none (r : Reader δ) (raw : Octets) (h : (r.takeIn raw).1 = none) :
    (r.takeIn raw).2.saved = r.saved := by
  unfold takeIn at *
  dsimp only at *
  split at h
  . rfl
  . rfl
  . simp at h
  . simp at h
  . simp at h
  . simp at h

theorem saved_receive_of_eq_none (r : Reader δ) (a : Arrival) (h : (r.receive a).1 = none) :
    (r.receive a).2.saved = r.saved := by
  cases a with
  | record raw => exact saved_takeIn_of_eq_none { r with reads := r.reads + 1 } raw h
  | retry => rfl
  | dry => rfl
  | failed fault => simp [receive] at h

theorem fragment_takeIn (r : Reader δ) (raw : Octets) (f : Fragment)
    (h : (r.takeIn raw).1 = some (.fragment f)) : (r.takeIn raw).2.fragment = some f := by
  unfold takeIn at *
  dsimp only at *
  split at h <;> simp_all [join]

theorem fragment_receive (r : Reader δ) (a : Arrival) (f : Fragment)
    (h : (r.receive a).1 = some (.fragment f)) : (r.receive a).2.fragment = some f := by
  cases a with
  | record raw => exact fragment_takeIn { r with reads := r.reads + 1 } raw f h
  | retry => simp [receive] at h
  | dry =>
    simp only [receive, atEnd] at h ⊢
    split at h <;> simp_all
  | failed fault =>
    simp only [receive, onFault] at h ⊢
    split at h <;> simp_all

theorem goesOn_of_receive_eq_physical (r : Reader δ) (a : Arrival) (p : Physical)
    (h : (r.receive a).1 = some (.physical p)) : a.goesOn := by
  cases a with
  | record raw => rfl
  | retry => rfl
  | dry =>
    simp only [receive, atEnd] at h
    split at h <;> simp at h
  | failed fault =>
    simp only [receive, onFault] at h
    split at h <;> simp at h

variable [Device δ]

def weight (r : Reader δ) : Nat :=
  2 * Device.backlog r.device + r.saved.toList.length + r.fragment.toList.length

def backlog (r : Reader δ) : Nat :=
  r.forget.weight

theorem weight_forget_le (r : Reader δ) : r.forget.weight ≤ r.weight := by
  unfold forget
  split
  . exact Nat.le_add_right _ _
  . exact Nat.le_refl _

theorem weight_takeIn_le (r : Reader δ) (raw : Octets) (h : r.saved = none) :
    (r.takeIn raw).2.weight ≤ r.weight + 1 := by
  unfold takeIn
  dsimp only
  split
  . simp [weight, join, h]
  . simp [weight, join, h]
  . simp [weight, join, h]
  . simp only [weight, h, Option.toList_none, Option.toList_some, List.length_nil, List.length_singleton]
    omega
  . exact Nat.le_succ _
  . exact Nat.le_succ _

theorem weight_takeIn_of_physical (r : Reader δ) (raw : Octets) (p : Physical)
    (h : (r.takeIn raw).1 = some (.physical p)) : (r.takeIn raw).2.weight = r.weight := by
  unfold takeIn at *
  dsimp only at *
  split at h <;> simp_all

theorem weight_onFault (r : Reader δ) (fault : Fault) : (r.onFault fault).2.weight = r.weight := by
  unfold onFault
  split <;> rfl

theorem weight_receive_le (r : Reader δ) (a : Arrival) (h : r.saved = none) :
    (r.receive a).2.weight ≤ r.weight + (if a.goesOn then 1 else 0) := by
  cases a with
  | record raw => exact weight_takeIn_le { r with reads := r.reads + 1 } raw h
  | retry => exact Nat.le_add_right _ _
  | dry => exact Nat.le_refl _
  | failed fault => exact Nat.le_of_eq (weight_onFault r fault)

theorem awaitRest_cases (r : Reader δ) :
    (∃ f, r.fragment = some f ∧ r.awaitRest.1 = some (.fragment f)) ∨ r.awaitRest.1 = none := by
  unfold awaitRest
  split
  . next f _ hf =>
    dsimp only
    split
    . exact .inr rfl
    . exact .inl ⟨f, hf, rfl⟩
    . exact .inl ⟨f, hf, rfl⟩
  . exact .inr rfl

@[simp]
theorem saved_awaitRest (r : Reader δ) : r.awaitRest.2.saved = r.saved := by
  unfold awaitRest
  split
  . dsimp only
    split <;> rfl
  . rfl

@[simp]
theorem fragment_awaitRest (r : Reader δ) : r.awaitRest.2.fragment = r.fragment := by
  unfold awaitRest
  split
  . dsimp only
    split <;> rfl
  . rfl

theorem weight_awaitRest_le (r : Reader δ) : r.awaitRest.2.weight ≤ r.weight := by
  have := backlog_awaitRest_le r
  simp only [weight, saved_awaitRest, fragment_awaitRest]
  omega

theorem weight_readOnce_le (r : Reader δ) (h : r.saved = none) : r.readOnce.2.weight ≤ r.weight := by
  have hle := Device.backlog_read_le bufferSize r.device
  have hlt := Device.backlog_read_lt bufferSize r.device
  have hreceive := weight_receive_le { r with device := (Device.read bufferSize r.device).2 }
    (.ofRead (Device.read bufferSize r.device).1) h
  simp only [readOnce, weight] at *
  split at hreceive
  . next hgoes =>
    have := hlt hgoes
    omega
  . omega

theorem weight_readOnce_lt (r : Reader δ) (p : Physical) (h : r.saved = none)
    (hp : r.readOnce.1 = some (.physical p)) : r.readOnce.2.weight < r.weight := by
  have hgoes : (Arrival.ofRead (Device.read bufferSize r.device).1).goesOn :=
    goesOn_of_receive_eq_physical _ _ p hp
  have hlt := Device.backlog_read_lt bufferSize r.device hgoes
  have hreceive := weight_receive_le { r with device := (Device.read bufferSize r.device).2 }
    (.ofRead (Device.read bufferSize r.device).1) h
  rw [if_pos hgoes] at hreceive
  simp only [readOnce, weight] at *
  omega

theorem weight_turn (r : Reader δ) (h : r.saved = none) :
    r.turn.2.weight ≤ r.weight ∧ (r.turn.1 = none → r.turn.2.saved = none) ∧
      (∀ p, r.turn.1 = some (.physical p) → r.turn.2.weight < r.weight) ∧
      (∀ f, r.turn.1 = some (.fragment f) → r.turn.2.fragment = some f) := by
  have hwait := weight_awaitRest_le r
  have hsaved := saved_awaitRest r
  have hfragment := fragment_awaitRest r
  have hcases := awaitRest_cases r
  unfold turn
  split
  . next g waited heq =>
    simp only [heq, reduceCtorEq, or_false, Option.some.injEq] at *
    obtain ⟨f, hf, rfl⟩ := hcases
    simp_all
  . next waited heq =>
    simp only [heq] at *
    have hnone : waited.saved = none := hsaved.trans h
    refine ⟨Nat.le_trans (weight_readOnce_le waited hnone) hwait, ?_, ?_, ?_⟩
    . intro hturn
      exact (saved_receive_of_eq_none _ _ hturn).trans hnone
    . intro p hp
      exact Nat.lt_of_lt_of_le (weight_readOnce_lt waited p hnone hp) hwait
    . intro f hf
      exact fragment_receive _ _ f hf

theorem weight_gather (r : Reader δ) (h : r.saved = none) :
    r.gather.2.weight ≤ r.weight ∧
      (∀ p, r.gather.1 = .physical p → r.gather.2.weight < r.weight) ∧
      (∀ f, r.gather.1 = .fragment f → r.gather.2.fragment = some f) := by
  fun_induction gather r with
  | case1 r gathered r' heq =>
    have hturn := weight_turn r h
    simp only [heq, Option.some.injEq, reduceCtorEq, false_implies, true_and] at hturn
    exact hturn
  | case2 r r' heq ih =>
    have hturn := weight_turn r h
    simp only [heq, forall_const] at hturn
    obtain ⟨hle, hphysical, hfragment⟩ := ih hturn.2.1
    exact ⟨Nat.le_trans hle hturn.1, fun p hp => Nat.lt_of_lt_of_le (hphysical p hp) hturn.1, hfragment⟩

theorem weight_gatherSaved (r : Reader δ) :
    (∀ p, r.gatherSaved.1 = .physical p → r.gatherSaved.2.weight < r.weight) ∧
      (∀ f, r.gatherSaved.1 = .fragment f →
        r.gatherSaved.2.weight ≤ r.weight ∧ r.gatherSaved.2.fragment = some f) := by
  unfold gatherSaved
  split
  . next raw hraw =>
    have hweight : ({ r with saved := none } : Reader δ).weight + 1 = r.weight := by
      simp only [weight, hraw, Option.toList_none, Option.toList_some, List.length_nil, List.length_cons]
      omega
    have htake := weight_takeIn_le { r with saved := none } raw rfl
    have hphysical := weight_takeIn_of_physical { r with saved := none } raw
    have hfragment := fragment_takeIn { r with saved := none } raw
    have hsaved := saved_takeIn_of_eq_none { r with saved := none } raw
    split
    . next heq =>
      simp only [heq, Option.some.injEq] at *
      refine ⟨?_, ?_⟩
      . intro p hp
        have := hphysical p hp
        omega
      . intro f hf
        exact ⟨by omega, hfragment f hf⟩
    . next r' heq =>
      simp only [heq, forall_const] at *
      obtain ⟨hle, hlt, hsome⟩ := weight_gather r' hsaved
      refine ⟨?_, ?_⟩
      . intro p hp
        have := hlt p hp
        omega
      . intro f hf
        exact ⟨by omega, hsome f hf⟩
  . next hraw =>
    obtain ⟨hle, hlt, hsome⟩ := weight_gather r hraw
    exact ⟨hlt, fun f hf => ⟨hle, hsome f hf⟩⟩

theorem backlog_deliver_lt (r : Reader δ) (f : Fragment) (h : r.fragment = some f) :
    (r.deliver (.fragment f)).backlog < r.weight := by
  simp only [backlog, forget, deliver, weight, ↓reduceIte, h, Option.toList_none, Option.toList_some,
    List.length_nil, List.length_cons]
  omega

theorem backlog_advance_lt (r : Reader δ) (h : r.advance.1.toPull.isFound) :
    r.advance.2.backlog < r.backlog := by
  have hgathered := weight_gatherSaved r.forget
  unfold advance at *
  dsimp only at *
  split at h
  . simp [Gathered.toPull, Pull.isFound] at h
  . dsimp only at *
    cases hg : r.forget.gatherSaved.1 with
    | physical p =>
      have hlt := hgathered.1 p hg
      have hle := weight_forget_le (r.forget.gatherSaved.2.deliver (.physical p))
      exact Nat.lt_of_le_of_lt hle hlt
    | fragment f =>
      obtain ⟨hle, hsome⟩ := hgathered.2 f hg
      exact Nat.lt_of_lt_of_le (backlog_deliver_lt _ f hsome) hle
    | done => simp [hg, Gathered.toPull, Pull.isFound] at h
    | failed fault => simp [hg, Gathered.toPull, Pull.isFound] at h

theorem backlog_pull_lt (r : Reader δ) (h : r.pull.1.isFound) : r.pull.2.backlog < r.backlog :=
  backlog_advance_lt r h

instance : Source (Reader δ) where
  pull := pull
  backlog := backlog
  backlog_pull_lt := backlog_pull_lt

end KernelLog.Kmsg.Reader
