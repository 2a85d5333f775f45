import KernelLog.Proofs.Kmsg.Logical

/-!
This module relates the state of a reader to the lines that it has given and to the records that are pending
in its fragment.
-/

namespace KernelLog.Kmsg

variable {δ : Type}

def fragment? : List Physical → Option Fragment
  | [] => none
  | p :: ps => some { header := p.header, message := (messages (p :: ps)).take bufferSize }

theorem fragment?_append (ms : List Physical) (p : Physical) :
    fragment? (ms ++ [p]) =
      some (((fragment? ms).getD { header := p.header, message := [] }).append p.message) := by
  cases ms with
  | nil => simp [fragment?, Fragment.append]
  | cons m ms =>
    simp only [fragment?, List.cons_append, Fragment.append, Option.getD_some, Option.some.injEq,
      Fragment.mk.injEq, true_and]
    rw [← List.cons_append, messages_append, List.take_append, List.length_take]
    have hroom : bufferSize - (messages (m :: ms)).length =
        bufferSize - min bufferSize (messages (m :: ms)).length := by
      omega
    rw [hroom]
    simp

theorem length_getD_fragment? (ms : List Physical) (h : Header) :
    ((fragment? ms).getD { header := h, message := [] }).message.length =
      min bufferSize (messages ms).length := by
  cases ms with
  | nil => simp [fragment?]
  | cons m ms => simp [fragment?]

namespace Gathered

def isPhysical : Gathered → Bool
  | physical _ => true
  | fragment _ => false
  | done => false
  | failed _ => false

def isFragment : Gathered → Bool
  | physical _ => false
  | fragment _ => true
  | done => false
  | failed _ => false

def Gives : Gathered → List Logical → Prop
  | physical p, lines => lines = [.whole p]
  | fragment f, lines => ∃ p ps, lines = [.joined p ps] ∧ fragment? (p :: ps) = some f
  | done, lines => lines = []
  | failed _, lines => lines = []

theorem Gives.found?_toPull {g : Gathered} {lines : List Logical} (h : g.Gives lines) :
    g.toPull.found?.toList = lines.map Logical.toRecord := by
  cases g with
  | physical p =>
    rw [h]
    rfl
  | fragment f =>
    obtain ⟨p, ps, rfl, hf⟩ := h
    simp only [fragment?, Option.some.injEq] at hf
    rw [← hf]
    rfl
  | done =>
    rw [h]
    rfl
  | failed fault =>
    rw [h]
    rfl

theorem Gives.countP_isWhole {g : Gathered} {lines : List Logical} (h : g.Gives lines) :
    lines.countP Logical.isWhole = if g.isPhysical then 1 else 0 := by
  cases g with
  | physical p =>
    rw [h]
    rfl
  | fragment f =>
    obtain ⟨p, ps, rfl, -⟩ := h
    rfl
  | done =>
    rw [h]
    rfl
  | failed fault =>
    rw [h]
    rfl

end Gathered

namespace Reader

/--
The lines that a reader has given and the records that are joined to its fragment account for the fragment
and for what has been counted of fragments.
-/
structure Accounts (lines : List Logical) (ms : List Physical) (r : Reader δ) : Prop where
  fragment : r.fragment = fragment? ms
  fragments : r.fragments = Logical.total Logical.joins lines + ms.length
  overflows : r.overflows = Logical.total Logical.cuts lines + cutsAfter 0 ms

namespace Accounts

variable {lines : List Logical} {ms : List Physical} {r : Reader δ}

theorem of_eq {r' : Reader δ} (h : Accounts lines ms r) (hfragment : r'.fragment = r.fragment)
    (hfragments : r'.fragments = r.fragments) (hoverflows : r'.overflows = r.overflows) :
    Accounts lines ms r' where
  fragment := by rw [hfragment, h.fragment]
  fragments := by rw [hfragments, h.fragments]
  overflows := by rw [hoverflows, h.overflows]

theorem join (h : Accounts lines ms r) (p : Physical) : Accounts lines (ms ++ [p]) (r.join p).2 where
  fragment := by
    rw [fragment?_append, ← h.fragment]
    rfl
  fragments := by
    have := h.fragments
    simp only [Reader.join, List.length_append, List.length_singleton]
    omega
  overflows := by
    have := h.overflows
    have hlength := length_getD_fragment? ms p.header
    simp only [Reader.join, h.fragment, cutsAfter_append, cutsAfter, Nat.zero_add, Nat.add_zero, hlength]
    -- the room that is left is told by the kept octets there, and by all octets here
    have hroom : bufferSize - min bufferSize (messages ms).length < p.message.length ↔
        p.message ≠ [] ∧ bufferSize < (messages ms).length + p.message.length := by
      rw [← List.length_pos_iff]
      omega
    simp only [hroom]
    split <;> omega

theorem fragment_join (h : Accounts lines ms r) (p : Physical) :
    fragment? (ms ++ [p]) = some (r.join p).1 := by
  rw [fragment?_append, ← h.fragment]
  rfl

theorem close {p : Physical} (h : Accounts lines (p :: ms) r) :
    Accounts (lines ++ [.joined p ms]) [] { r with fragment := none } where
  fragment := rfl
  fragments := by
    have := h.fragments
    simp only [List.length_cons] at this
    simp [Logical.joins, this]
  overflows := by
    have := h.overflows
    simp [Logical.cuts, cutsAfter, this]

theorem whole (h : Accounts lines [] r) (p : Physical) : Accounts (lines ++ [.whole p]) [] r where
  fragment := h.fragment
  fragments := by simpa [Logical.joins] using h.fragments
  overflows := by simpa [Logical.cuts, cutsAfter] using h.overflows

end Accounts

theorem returned_forget (r : Reader δ) : r.forget.returned = false := by
  unfold forget
  split
  . rfl
  . next h => simpa using h

theorem forget_eq_self (r : Reader δ) (h : r.returned = false) : r.forget = r := by
  unfold forget
  rw [h]
  rfl

structure Settled (lines : List Logical) (g : Gathered) (more : List Logical) (r : Reader δ) : Prop where
  gives : g.Gives more
  accounts : Accounts (lines ++ more) [] (r.deliver g).forget
  held : ∀ f, (r.deliver g).fragment = some f → (r.deliver g).returned ∧ g = .fragment f

variable {lines : List Logical} {ms : List Physical} {r : Reader δ}

theorem Accounts.settled_physical (h : Accounts lines [] r) (hr : r.returned = false) (p : Physical) :
    Settled lines (.physical p) [.whole p] r where
  gives := rfl
  accounts := by
    rw [forget_eq_self]
    . exact (h.whole p).of_eq rfl rfl rfl
    . exact hr
  held := by simp [deliver, h.fragment, fragment?]

theorem Accounts.settled_fragment {m : Physical} (h : Accounts lines (m :: ms) r) (f : Fragment)
    (hf : fragment? (m :: ms) = some f) : Settled lines (.fragment f) [.joined m ms] r where
  gives := ⟨m, ms, rfl, hf⟩
  accounts := h.close.of_eq rfl rfl rfl
  held := by
    intro f' hf'
    rw [deliver, h.fragment, hf, Option.some.injEq] at hf'
    exact ⟨rfl, by rw [hf']⟩

theorem Accounts.settled_done (h : Accounts lines [] r) (hr : r.returned = false) :
    Settled lines .done [] r where
  gives := rfl
  accounts := by simpa [deliver, forget, hr] using h
  held := by simp [deliver, h.fragment, fragment?]

theorem Accounts.settled_failed (h : Accounts lines [] r) (hr : r.returned = false) (fault : Fault) :
    Settled lines (.failed fault) [] r where
  gives := rfl
  accounts := by simpa [deliver, forget, hr] using h
  held := by simp [deliver, h.fragment, fragment?]

end Reader
end KernelLog.Kmsg
