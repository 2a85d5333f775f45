import KernelLog.Kernel.Control
import Mathlib.Algebra.Order.Ring.Nat
import Mathlib.Data.List.TakeDrop

/-!
This module contains a kernel whose ring buffer others write to between the calls. Main statement: what a read takes
away that clears the buffer without knowing its size, and how much of that it gives.
-/

namespace KernelLog

/--
A ring buffer: its text, what others append to it behind each call, and what reads have cleared.
-/
structure SharedBuffer where
  text : Octets
  arrivals : List Octets
  removed : Octets
  deriving Repr, DecidableEq

namespace SharedBuffer

def new (text : Octets) (arrivals : List Octets) : SharedBuffer :=
  { text, arrivals, removed := [] }

def copy (k : SharedBuffer) (room : Nat) : Reply :=
  let written := k.text.take room
  { count := UInt64.ofNat written.length, written }

def wait (k : SharedBuffer) : SharedBuffer :=
  { k with text := k.text ++ k.arrivals.headD [], arrivals := k.arrivals.tail }

def control (action : ControlAction) (room : Nat) (k : SharedBuffer) : Except Fault Reply × SharedBuffer :=
  match action with
  | .size => (.ok { count := 0, written := [] }, k.wait)
  | .clear => (.ok { count := 0, written := [] }, { k with text := [] }.wait)
  | .readAll => (.ok (k.copy room), k.wait)
  | .readClear => (.ok (k.copy room), { k with text := [], removed := k.removed ++ k.text }.wait)

instance : Control SharedBuffer where
  control := control

def after (k : SharedBuffer) : Nat → SharedBuffer
  | 0 => k
  | n + 1 => k.wait.after n

theorem removed_after (k : SharedBuffer) (n : Nat) : (k.after n).removed = k.removed := by
  induction n generalizing k with
  | zero => rfl
  | succ n ih => exact ih k.wait

theorem text_after (k : SharedBuffer) (n : Nat) : (k.after n).text = k.text ++ (k.arrivals.take n).flatten := by
  induction n generalizing k with
  | zero => simp [after]
  | succ n ih =>
    rw [after, ih, wait]
    cases k.arrivals with
    | nil => simp
    | cons new arrivals => simp

theorem text_after_succ (k : SharedBuffer) (n : Nat) :
    (k.after (n + 1)).text = (k.after n).text ++ k.arrivals.getD n [] := by
  rw [text_after, text_after, List.take_add_one, List.flatten_append, List.append_assoc,
    List.getD_eq_getElem?_getD]
  cases k.arrivals[n]? with
  | none => rfl
  | some written => simp

theorem toNat_count_copy (k : SharedBuffer) {room : Nat} (h : room ≤ 4 * Control.largestRoom) :
    (k.copy room).count.toNat = (k.text.take room).length := by
  rw [Control.largestRoom] at h
  simp only [copy, List.length_take, UInt64.toNat_ofNat']
  omega

def Fills (k : SharedBuffer) (room : Nat) : Prop :=
  room ≤ k.text.length ∧ room ≤ Control.largestRoom

theorem exists_grow_eq (k : SharedBuffer) (room : Nat) (hroom : 0 < room) (hle : room ≤ 4 * Control.largestRoom) :
    ∃ n, Control.grow room hroom k = (.ok (room * 4 ^ n, (k.after n).copy (room * 4 ^ n)), k.after (n + 1)) ∧
      room * 4 ^ n ≤ 4 * Control.largestRoom ∧ (∀ i < n, (k.after i).Fills (room * 4 ^ i)) ∧
      ¬ (k.after n).Fills (room * 4 ^ n) := by
  fun_induction Control.grow room hroom k with
  | case1 room hroom k fault k' hcontrol => cases hcontrol
  | case2 room hroom k reply k' hcontrol hstop =>
    cases hcontrol
    rw [toNat_count_copy k hle, List.length_take] at hstop
    refine ⟨0, ?_, ?_, ?_, ?_⟩
    . simp [after]
    . simpa using hle
    . simp
    . simp only [after, Fills, Nat.pow_zero, Nat.mul_one]
      omega
  | case3 room hroom k reply k' hcontrol hgrow ih =>
    cases hcontrol
    rw [toNat_count_copy k hle, List.length_take] at hgrow
    have hfills : k.Fills room := by
      unfold Fills
      omega
    obtain ⟨n, heq, hle', hbefore, hlast⟩ := ih (Nat.mul_le_mul_left 4 hfills.2)
    have hpow (i : Nat) : 4 * room * 4 ^ i = room * 4 ^ (i + 1) := by
      rw [Nat.pow_succ', Nat.mul_comm 4 room, Nat.mul_assoc]
    simp only [hpow] at heq hle' hbefore hlast
    refine ⟨n + 1, heq, hle', ?_, hlast⟩
    intro i hi
    cases i with
    | zero =>
      simp only [after, Nat.pow_zero, Nat.mul_one]
      exact hfills
    | succ i => exact hbefore i (Nat.lt_of_succ_lt_succ hi)

theorem exists_readGrowing_eq {k seen k' : SharedBuffer} {room : Nat} (hpos : 0 < room)
    (hle : room ≤ 4 * Control.largestRoom) {hfirst : 0 < Control.firstRoom}
    (hgrow : Control.grow Control.firstRoom hfirst k = (.ok (room, seen.copy room), k')) :
    let cleared := if seen.text = [] then [] else k'.text
    ∃ snapshot k'', Control.readGrowing .readClear k = (.ok snapshot, k'') ∧
      k''.removed = k'.removed ++ cleared ∧ snapshot.toOctets = cleared.take room := by
  intro cleared
  unfold Control.readGrowing
  split
  . next heq =>
    rw [hgrow] at heq
    cases heq
  . next heq =>
    rw [hgrow] at heq
    cases heq
    have hcount : 0 < (seen.copy room).count ↔ seen.text ≠ [] := by
      rw [UInt64.lt_iff_toNat_lt, toNat_count_copy seen hle, ← List.length_pos_iff, List.length_take,
        UInt64.toNat_zero]
      omega
    by_cases hseen : seen.text = []
    . have hnot : ¬ (ReadAction.readClear = .readClear ∧ 0 < (seen.copy room).count) := by simp [hcount, hseen]
      have hcleared : cleared = [] := if_pos hseen
      rw [if_neg hnot, hcleared]
      refine ⟨_, _, rfl, (List.append_nil _).symm, ?_⟩
      rw [Snapshot.toOctets_truncate, toNat_count_copy seen hle, hseen]
      simp
    . have hcleared : cleared = k'.text := if_neg hseen
      rw [if_pos ⟨rfl, hcount.mpr hseen⟩, hcleared]
      refine ⟨_, _, rfl, rfl, ?_⟩
      rw [toNat_count_copy k' hle]
      apply Snapshot.toOctets_truncate_overwrite
      rw [Snapshot.length_overwrite, Snapshot.length_zeros]
      apply List.length_take_le

def room (n : Nat) : Nat :=
  Control.firstRoom * 4 ^ n

theorem exists_read_eq (k : SharedBuffer) :
    ∃ n snapshot k', Control.read .readClear none k = (.ok snapshot, k') ∧
      (∀ i < n, (k.after i).Fills (room i)) ∧ ¬ (k.after n).Fills (room n) ∧
      k'.removed = k.removed ++ (if (k.after n).text = [] then [] else (k.after (n + 1)).text) ∧
      snapshot.toOctets = (if (k.after n).text = [] then [] else (k.after (n + 1)).text).take (room n) := by
  obtain ⟨n, hgrow, hle, hbefore, hlast⟩ := exists_grow_eq k Control.firstRoom (by decide) (by decide)
  have hpos : 0 < room n := Nat.mul_pos (by decide) (Nat.pow_pos (by decide))
  obtain ⟨snapshot, k', hread, hremoved, hoctets⟩ := exists_readGrowing_eq hpos hle hgrow
  rw [removed_after] at hremoved
  exact ⟨n, snapshot, k', hread, hbefore, hlast, hremoved, hoctets⟩

theorem exists_read_eq_of_fills {k : SharedBuffer} {n : Nat} (hbefore : ∀ i < n, (k.after i).Fills (room i))
    (hlast : ¬ (k.after n).Fills (room n)) (hseen : (k.after n).text ≠ []) :
    ∃ snapshot k', Control.read .readClear none k = (.ok snapshot, k') ∧
      k'.removed = k.removed ++ (k.after (n + 1)).text ∧
      snapshot.toOctets = (k.after (n + 1)).text.take (room n) := by
  obtain ⟨m, snapshot, k', hread, hbefore', hlast', hremoved, hoctets⟩ := exists_read_eq k
  have hle : m ≤ n := Nat.le_of_not_lt fun hlt => hlast (hbefore' n hlt)
  have hge : n ≤ m := Nat.le_of_not_lt fun hlt => hlast' (hbefore m hlt)
  obtain rfl : m = n := Nat.le_antisymm hle hge
  rw [if_neg hseen] at hremoved hoctets
  exact ⟨snapshot, k', hread, hremoved, hoctets⟩

/--
What a read takes away that clears the buffer without knowing its size, and what it gives of that: as much as there is
room for. The room is larger than what the read before it has seen, unless that was too much for any room, so octets
are lost only if others wrote more between these two reads than fits into the rest of it.
-/
theorem read_readClear (text : Octets) (arrivals : List Octets) :
    let seen (n : Nat) := text ++ (arrivals.take n).flatten
    let fills (n : Nat) := room n ≤ (seen n).length ∧ room n ≤ Control.largestRoom
    ∃ n snapshot k, Control.read .readClear none (new text arrivals) = (.ok snapshot, k) ∧
      (∀ i < n, fills i) ∧ ¬ fills n ∧ ((seen n).length ≤ Control.largestRoom → (seen n).length < room n) ∧
      k.removed = (if seen n = [] then [] else seen n ++ arrivals.getD n []) ∧
      snapshot.toOctets = k.removed.take (room n) ∧
      (snapshot.toOctets = k.removed ↔ seen n = [] ∨ (seen n).length + (arrivals.getD n []).length ≤ room n) := by
  intro seen fills
  have hseen (n : Nat) : ((new text arrivals).after n).text = seen n := text_after (new text arrivals) n
  have hfills (n : Nat) : ((new text arrivals).after n).Fills (room n) ↔ fills n := by rw [Fills, hseen]
  obtain ⟨n, snapshot, k, hread, hbefore, hlast, hremoved, hoctets⟩ := exists_read_eq (new text arrivals)
  rw [text_after_succ, hseen] at hremoved hoctets
  have hcleared : k.removed = if seen n = [] then [] else seen n ++ arrivals.getD n [] := hremoved
  rw [hfills] at hlast
  refine ⟨n, snapshot, k, hread, ?_, hlast, ?_, hcleared, ?_, ?_⟩
  . intro i hi
    exact (hfills i).mp (hbefore i hi)
  . intro hsmall
    apply Nat.lt_of_not_le
    intro hfilled
    exact hlast ⟨hfilled, Nat.le_trans hfilled hsmall⟩
  . rw [hcleared]
    exact hoctets
  . have hall : snapshot.toOctets = k.removed.take (room n) := by
      rw [hcleared]
      exact hoctets
    rw [hall, List.take_eq_self_iff, hcleared]
    by_cases hnone : seen n = []
    . simp [hnone]
    . simp [hnone]

def filling : SharedBuffer :=
  new (List.replicate 16391 Octet.zero) [[Octet.zero, Octet.lowerX]]

theorem exists_read_filling :
    ∃ snapshot k, Control.read .readClear none filling = (.ok snapshot, k) ∧
      Octet.lowerX ∈ k.removed ∧ Octet.lowerX ∉ snapshot.toOctets := by
  have hlength : filling.text.length = 16391 := List.length_replicate
  have hstops : ¬ filling.Fills (room 0) := by
    rintro ⟨hfilled, -⟩
    rw [hlength] at hfilled
    exact absurd hfilled (by decide)
  have hseen : filling.text ≠ [] := List.ne_nil_of_length_eq_add_one hlength
  obtain ⟨snapshot, k, hread, hremoved, hoctets⟩ :=
    exists_read_eq_of_fills (k := filling) (n := 0) (fun i hi => absurd hi (Nat.not_lt_zero i)) hstops hseen
  have hcleared : (filling.after 1).text = filling.text ++ [Octet.zero, Octet.lowerX] := text_after_succ filling 0
  rw [hcleared] at hremoved hoctets
  refine ⟨snapshot, k, hread, ?_, ?_⟩
  . rw [hremoved]
    simp
  . intro hmem
    have hroom : room 0 = 16392 := rfl
    rw [hoctets, List.take_append, List.mem_append, hlength, hroom] at hmem
    rcases hmem with hmem | hmem
    . exact absurd (List.eq_of_mem_replicate (List.mem_of_mem_take hmem)) (by decide)
    . exact absurd hmem (by decide)

theorem exists_read_eq_of_full {k : SharedBuffer} (hlength : ∀ i ≤ 7, room 6 ≤ (k.after i).text.length) :
    ∃ snapshot k', Control.read .readClear none k = (.ok snapshot, k') ∧
      k'.removed = k.removed ++ (k.after 8).text ∧ snapshot.toOctets = (k.after 8).text.take (room 7) := by
  apply exists_read_eq_of_fills
  . intro i hi
    have hroom : room i ≤ room 6 := Nat.mul_le_mul_left _ (Nat.pow_le_pow_right (by decide) (by omega))
    exact ⟨Nat.le_trans hroom (hlength i (by omega)), Nat.le_trans hroom (by decide)⟩
  . rintro ⟨-, hsmall⟩
    exact absurd hsmall (by decide)
  . apply List.ne_nil_of_length_pos
    exact Nat.lt_of_lt_of_le (by decide) (hlength 7 (by omega))

/--
A buffer to which others write before its second read until it just fills the last room, and then once more before it is
cleared.
-/
def brimming (size : Nat) (late : Octets) : SharedBuffer :=
  new (List.replicate size Octet.nul) [List.replicate (room 7 - size) Octet.nul, [], [], [], [], [], [], late]

theorem text_brimming_after {size : Nat} (hle : size ≤ room 7) (late : Octets) {i : Nat} (hi : i ≤ 6) :
    ((brimming size late).after (i + 1)).text = List.replicate (room 7) Octet.nul := by
  induction i with
  | zero =>
    rw [text_after_succ]
    apply List.replicate_append_replicate.trans
    rw [Nat.add_sub_of_le hle]
  | succ i ih =>
    have hnone : (brimming size late).arrivals.getD (i + 1) [] = [] := by
      obtain rfl | rfl | rfl | rfl | rfl | rfl : i = 0 ∨ i = 1 ∨ i = 2 ∨ i = 3 ∨ i = 4 ∨ i = 5 := by omega
      all_goals rfl
    rw [text_after_succ, ih (by omega), hnone, List.append_nil]

theorem exists_read_brimming {size : Nat} (hge : room 6 ≤ size) (hle : size ≤ room 7) (late : Octets) :
    ∃ snapshot k, Control.read .readClear none (brimming size late) = (.ok snapshot, k) ∧
      k.removed = List.replicate (room 7) Octet.nul ++ late ∧
      snapshot.toOctets = List.replicate (room 7) Octet.nul := by
  have hlength (i : Nat) (hi : i ≤ 7) : room 6 ≤ ((brimming size late).after i).text.length := by
    cases i with
    | zero => exact Nat.le_trans hge (Nat.le_of_eq List.length_replicate.symm)
    | succ i =>
      rw [text_brimming_after hle late (by omega), List.length_replicate]
      exact Nat.le_trans hge hle
  obtain ⟨snapshot, k, hread, hremoved, hoctets⟩ := exists_read_eq_of_full hlength
  have hcleared : ((brimming size late).after 8).text = List.replicate (room 7) Octet.nul ++ late := by
    rw [text_after_succ, text_brimming_after hle late (Nat.le_refl 6)]
    rfl
  rw [hcleared] at hremoved hoctets
  refine ⟨snapshot, k, hread, hremoved, ?_⟩
  rw [hoctets]
  exact List.take_left' List.length_replicate

theorem exists_read_full {text : Octets} (hlength : text.length = room 7) (late : Octets) :
    ∃ snapshot k, Control.read .readClear none (new (text ++ late) []) = (.ok snapshot, k) ∧
      k.removed = text ++ late ∧ snapshot.toOctets = text := by
  have hafter (i : Nat) : ((new (text ++ late) []).after i).text = text ++ late := by
    rw [text_after]
    simp [new]
  have hfull (i : Nat) (_ : i ≤ 7) : room 6 ≤ ((new (text ++ late) []).after i).text.length := by
    rw [hafter, List.length_append, hlength]
    exact Nat.le_trans (by decide) (Nat.le_add_right (room 7) late.length)
  obtain ⟨snapshot, k, hread, hremoved, hoctets⟩ := exists_read_eq_of_full hfull
  rw [hafter] at hremoved hoctets
  refine ⟨snapshot, k, hread, hremoved, ?_⟩
  rw [hoctets]
  exact List.take_left' hlength

/--
The read that clears takes away what others have written just before it, without giving it. This happens to a buffer
that never holds more than the largest one, and also to one of that size that fills up while it is read. The latter
loses what a buffer loses that holds as much from the start.
-/
theorem read_readClear_filling :
    (∃ snapshot k, Control.read .readClear none filling = (.ok snapshot, k) ∧
      (filling.text ++ filling.arrivals.flatten).length ≤ Control.largestRoom ∧
      Octet.lowerX ∈ k.removed ∧ Octet.lowerX ∉ snapshot.toOctets) ∧
    let zeros := List.replicate 268566528 Octet.nul
    let late := Octets.ofString "lost"
    ∀ kernel, kernel = brimming Control.largestRoom late ∨ kernel = new (zeros ++ late) [] →
      ∃ snapshot k, Control.read .readClear none kernel = (.ok snapshot, k) ∧
        k.removed = zeros ++ late ∧ snapshot.toOctets = zeros := by
  constructor
  . obtain ⟨snapshot, k, hread, hremoved, hoctets⟩ := exists_read_filling
    refine ⟨snapshot, k, hread, ?_, hremoved, hoctets⟩
    have hlength : filling.text.length = 16391 := List.length_replicate
    rw [List.length_append, hlength]
    decide
  . intro zeros late kernel hkernel
    rcases hkernel with rfl | rfl
    . exact exists_read_brimming (by decide) (by decide) late
    . exact exists_read_full List.length_replicate late

end SharedBuffer
end KernelLog
