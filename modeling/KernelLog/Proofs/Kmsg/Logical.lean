import KernelLog.Kmsg.Reader

/-!
This module contains the lines that a sequence of device records stands for, defined without a reader: which
records are joined, and what is joined of them.
-/

namespace KernelLog.Kmsg

def Physical.isContinuation (p : Physical) : Bool :=
  p.header.flag.isContinuation

def messages (ps : List Physical) : Octets :=
  ps.flatMap Physical.message

@[simp]
theorem messages_nil : messages [] = [] := rfl

@[simp]
theorem messages_cons (p : Physical) (ps : List Physical) :
    messages (p :: ps) = p.message ++ messages ps := rfl

@[simp]
theorem messages_append (ps qs : List Physical) : messages (ps ++ qs) = messages ps ++ messages qs := by
  simp [messages]

def cutsAfter (used : Nat) : List Physical → Nat
  | [] => 0
  | p :: ps =>
    (if p.message ≠ [] ∧ bufferSize < used + p.message.length then 1 else 0) +
      cutsAfter (used + p.message.length) ps

theorem cutsAfter_append (used : Nat) (ps qs : List Physical) :
    cutsAfter used (ps ++ qs) = cutsAfter used ps + cutsAfter (used + (messages ps).length) qs := by
  induction ps generalizing used with
  | nil => simp [cutsAfter]
  | cons p ps ih =>
    simp only [List.cons_append, cutsAfter, ih, messages_cons, List.length_append]
    rw [Nat.add_assoc used]
    omega

theorem le_bufferSize_of_cutsAfter_eq_zero (used : Nat) (ps : List Physical) (hused : used ≤ bufferSize)
    (h : cutsAfter used ps = 0) : used + (messages ps).length ≤ bufferSize := by
  induction ps generalizing used with
  | nil => simpa using hused
  | cons p ps ih =>
    simp only [cutsAfter, Nat.add_eq_zero_iff, ite_eq_right_iff, Nat.one_ne_zero, imp_false, not_and,
      Nat.not_lt] at h
    have hfits : used + p.message.length ≤ bufferSize := by
      by_cases hempty : p.message = []
      . simpa [hempty] using hused
      . exact h.1 hempty
    have := ih (used + p.message.length) hfits h.2
    simp only [messages_cons, List.length_append]
    omega

inductive Logical where
  | whole (p : Physical)
  | joined (first : Physical) (rest : List Physical)
  deriving Repr, DecidableEq

namespace Logical

def isWhole : Logical → Bool
  | whole _ => true
  | joined _ _ => false

def members : Logical → List Physical
  | whole p => [p]
  | joined first rest => first :: rest

def toRecord : Logical → Record
  | whole p => p.toRecord
  | joined first rest => first.header.toRecord ((messages (first :: rest)).take bufferSize)

def joins : Logical → Nat
  | whole _ => 0
  | joined _ rest => rest.length + 1

def cuts : Logical → Nat
  | whole _ => 0
  | joined first rest => cutsAfter 0 (first :: rest)

def total (f : Logical → Nat) : List Logical → Nat
  | [] => 0
  | l :: lines => f l + total f lines

@[simp]
theorem total_nil (f : Logical → Nat) : total f [] = 0 := rfl

@[simp]
theorem total_cons (f : Logical → Nat) (l : Logical) (lines : List Logical) :
    total f (l :: lines) = f l + total f lines := rfl

@[simp]
theorem total_append (f : Logical → Nat) (lines lines' : List Logical) :
    total f (lines ++ lines') = total f lines + total f lines' := by
  induction lines with
  | nil => rw [List.nil_append, total_nil, Nat.zero_add]
  | cons l lines ih => rw [List.cons_append, total_cons, total_cons, ih, Nat.add_assoc]

theorem message_toRecord_of_cuts_eq_zero (l : Logical) (h : l.cuts = 0) :
    l.toRecord.message = messages l.members := by
  cases l with
  | whole p => simp [toRecord, members, Physical.toRecord, Header.toRecord]
  | joined first rest =>
    have := le_bufferSize_of_cutsAfter_eq_zero 0 (first :: rest) (Nat.zero_le _) h
    simp only [toRecord, members, Header.toRecord]
    apply List.take_of_length_le
    omega

theorem length_members (l : Logical) : l.members.length = (if l.isWhole then 1 else 0) + l.joins := by
  cases l with
  | whole p => rfl
  | joined first rest => simp [members, isWhole, joins]

theorem length_flatMap_members (lines : List Logical) :
    (lines.flatMap members).length = lines.countP isWhole + total joins lines := by
  induction lines with
  | nil => rfl
  | cons l lines ih =>
    rw [List.flatMap_cons, List.length_append, length_members, ih, List.countP_cons, total_cons]
    omega

theorem one_le_length_members (l : Logical) : 1 ≤ l.members.length := by
  cases l with
  | whole p => exact Nat.le_refl _
  | joined first rest => exact Nat.le_add_left _ _

theorem length_le_length_flatMap_members (lines : List Logical) :
    lines.length ≤ (lines.flatMap members).length := by
  induction lines with
  | nil => exact Nat.le_refl _
  | cons l lines ih =>
    have := one_le_length_members l
    rw [List.flatMap_cons, List.length_append, List.length_cons]
    omega

theorem messages_flatMap_members (lines : List Logical) (h : total cuts lines = 0) :
    messages (lines.flatMap members) = (lines.map toRecord).flatMap (·.message) := by
  induction lines with
  | nil => rfl
  | cons l lines ih =>
    rw [total_cons, Nat.add_eq_zero_iff] at h
    rw [List.flatMap_cons, messages_append, ih h.2, List.map_cons, List.flatMap_cons,
      message_toRecord_of_cuts_eq_zero l h.1]

end Logical

/--
The lines that records stand for. A maximal run of records that continue a line is joined; so is the record
right behind the run if its flag says that it ends the line. Any other record stands for itself.
-/
def assemble : List Physical → List Logical
  | [] => []
  | p :: ps =>
    if p.isContinuation then
      let run := ps.takeWhile Physical.isContinuation
      let behind := ps.dropWhile Physical.isContinuation
      let last := (behind.take 1).filter (·.header.flag = .last)
      .joined p (run ++ last) :: assemble (behind.drop last.length)
    else
      .whole p :: assemble ps
termination_by ps => ps.length
decreasing_by
  . have := (List.dropWhile_suffix Physical.isContinuation (l := ps)).length_le
    simp only [List.length_drop, List.length_cons]
    omega
  . simp

theorem assemble_nil : assemble [] = [] := by
  rw [assemble]

theorem assemble_whole (p : Physical) (ps : List Physical) (h : p.isContinuation = false) :
    assemble (p :: ps) = .whole p :: assemble ps := by
  rw [assemble]
  simp [h]

theorem assemble_run (p : Physical) (run behind : List Physical) (hrun : ∀ q ∈ p :: run, q.isContinuation)
    (hbehind : ∀ q ∈ behind.head?, q.isContinuation = false) :
    assemble (p :: run ++ behind) =
      let last := (behind.take 1).filter (·.header.flag = .last)
      .joined p (run ++ last) :: assemble (behind.drop last.length) := by
  have hp : p.isContinuation = true := hrun p List.mem_cons_self
  have htail : ∀ q ∈ run, q.isContinuation = true := fun q hq => hrun q (List.mem_cons_of_mem p hq)
  have htake : behind.takeWhile Physical.isContinuation = [] := by
    cases behind with
    | nil => rfl
    | cons q qs => simp [hbehind q rfl]
  have hdrop : behind.dropWhile Physical.isContinuation = behind := by
    cases behind with
    | nil => rfl
    | cons q qs => simp [hbehind q rfl]
  rw [List.cons_append, assemble, if_pos hp]
  dsimp only
  rw [List.takeWhile_append_of_pos htail, List.dropWhile_append_of_pos htail, htake, hdrop, List.append_nil]

theorem isContinuation_of_flag_last (p : Physical) (h : p.header.flag = .last) :
    p.isContinuation = false := by
  simp [Physical.isContinuation, h, Flag.isContinuation]

theorem isContinuation_of_flag_flush (p : Physical) (h : p.header.flag = .flush) :
    p.isContinuation = false := by
  simp [Physical.isContinuation, h, Flag.isContinuation]

theorem assemble_last (p : Physical) (run : List Physical) (q : Physical) (rest : List Physical)
    (hrun : ∀ q ∈ p :: run, q.isContinuation) (hq : q.header.flag = .last) :
    assemble (p :: run ++ q :: rest) = .joined p (run ++ [q]) :: assemble rest := by
  rw [assemble_run p run (q :: rest) hrun]
  . simp [hq]
  . simpa using isContinuation_of_flag_last q hq

theorem assemble_flush (p : Physical) (run : List Physical) (q : Physical) (rest : List Physical)
    (hrun : ∀ q ∈ p :: run, q.isContinuation) (hq : q.header.flag = .flush) :
    assemble (p :: run ++ q :: rest) = .joined p run :: assemble (q :: rest) := by
  rw [assemble_run p run (q :: rest) hrun]
  . simp [hq]
  . simpa using isContinuation_of_flag_flush q hq

theorem assemble_end (p : Physical) (run : List Physical) (hrun : ∀ q ∈ p :: run, q.isContinuation) :
    assemble (p :: run) = [.joined p run] := by
  have := assemble_run p run [] hrun (by simp)
  simpa [assemble_nil] using this

theorem members_assemble (ps : List Physical) : (assemble ps).flatMap Logical.members = ps := by
  fun_induction assemble ps with
  | case1 => rfl
  | case2 p ps hp run behind last ih =>
    -- the record behind the run is taken from the rest if it ends the line, and stays there if not
    have hlast : last ++ behind.drop last.length = behind := by
      cases hb : behind with
      | nil => simp [last, hb]
      | cons q qs => by_cases hq : q.header.flag = .last <;> simp [last, hb, hq]
    rw [List.flatMap_cons, ih]
    simp only [Logical.members, List.cons_append, List.append_assoc]
    rw [hlast, List.takeWhile_append_dropWhile]
  | case3 p ps hp ih =>
    rw [List.flatMap_cons, ih]
    rfl

end KernelLog.Kmsg
