import KernelLog.Kernel.RingBuffer
import Mathlib.Algebra.Order.Ring.Nat

/-!
This module contains the calls by which a buffer of unknown size is read. Main statement: which calls are made, whatever
the kernel answers, and that they give the whole of a buffer that nobody else writes to.
-/

namespace KernelLog

structure Exchange where
  action : ControlAction
  room : Nat
  answer : Except Fault Reply
  deriving Repr

namespace Exchange

def call (e : Exchange) : ControlAction × Nat :=
  (e.action, e.room)

def reply (e : Exchange) : Reply :=
  match e.answer with
  | .ok reply => reply
  | .error _ => { count := 0, written := [] }

def Fills (e : Exchange) : Prop :=
  ∃ reply, e.answer = .ok reply ∧ reply.count.toNat = e.room ∧ e.room ≤ Control.largestRoom

def buffer (room : Nat) (es : List Exchange) : Snapshot :=
  es.foldl (fun buffer e => buffer.overwrite e.reply.written) (Snapshot.zeros room)

theorem buffer_append_singleton (room : Nat) (es : List Exchange) (e : Exchange) :
    buffer room (es ++ [e]) = (buffer room es).overwrite e.reply.written := by
  rw [buffer, List.foldl_append]
  rfl

theorem length_buffer (room : Nat) (es : List Exchange) : (buffer room es).length = room := by
  have hfoldl (s : Snapshot) : (es.foldl (fun buffer e => buffer.overwrite e.reply.written) s).length = s.length := by
    induction es generalizing s with
    | nil => rfl
    | cons e es ih => rw [List.foldl_cons, ih, Snapshot.length_overwrite]
  rw [buffer, hfoldl, Snapshot.length_zeros]

end Exchange

structure Recorded (κ : Type) where
  kernel : κ
  exchanges : List Exchange

namespace Control

variable {κ : Type} [Control κ] {action : ReadAction} {kernel grown kernel' : κ} {room : Nat} {reply : Reply}
  {hfirst : 0 < firstRoom}

theorem readGrowing_of_error {fault : Fault} (hgrow : grow firstRoom hfirst kernel = (.error fault, grown)) :
    readGrowing action kernel = (.error fault, grown) := by
  unfold readGrowing
  split
  . next heq =>
    rw [hgrow] at heq
    cases heq
    rfl
  . next heq =>
    rw [hgrow] at heq
    cases heq

theorem readGrowing_of_ok (hgrow : grow firstRoom hfirst kernel = (.ok (room, reply), grown))
    (hclears : ¬ (action = .readClear ∧ 0 < reply.count)) :
    readGrowing action kernel =
      (.ok (((Snapshot.zeros room).overwrite reply.written).truncate reply.count.toNat), grown) := by
  unfold readGrowing
  split
  . next heq =>
    rw [hgrow] at heq
    cases heq
  . next heq =>
    rw [hgrow] at heq
    cases heq
    exact if_neg hclears

theorem readGrowing_of_clears {answer : Except Fault Reply}
    (hgrow : grow firstRoom hfirst kernel = (.ok (room, reply), grown))
    (hclears : action = .readClear ∧ 0 < reply.count)
    (hclear : control .readClear room grown = (answer, kernel')) :
    readGrowing action kernel =
      (answer.map fun cleared =>
        (((Snapshot.zeros room).overwrite reply.written).overwrite cleared.written).truncate cleared.count.toNat,
        kernel') := by
  unfold readGrowing
  split
  . next heq =>
    rw [hgrow] at heq
    cases heq
  . next heq =>
    rw [hgrow] at heq
    cases heq
    dsimp only
    rw [if_pos hclears, hclear]
    cases answer with
    | error fault => rfl
    | ok cleared => rfl

end Control

namespace Recorded

variable {κ : Type} [Control κ]

def ofKernel (kernel : κ) : Recorded κ :=
  { kernel, exchanges := [] }

instance : Control (Recorded κ) where
  control action room r :=
    ((Control.control action room r.kernel).1,
      { kernel := (Control.control action room r.kernel).2
        exchanges := r.exchanges ++ [{ action, room, answer := (Control.control action room r.kernel).1 }] })

theorem control_of_eq {action : ControlAction} {room : Nat} {answer : Except Fault Reply} {kernel kernel' : κ}
    (h : Control.control action room kernel = (answer, kernel')) (exchanges : List Exchange) :
    Control.control action room { kernel, exchanges : Recorded κ } =
      (answer, { kernel := kernel', exchanges := exchanges ++ [{ action, room, answer }] }) := by
  simp only [Control.control, h]

theorem exists_grow_eq (room : Nat) (hroom : 0 < room) (kernel : κ) (exchanges : List Exchange) :
    ∃ filled last,
      Control.grow room hroom { kernel, exchanges : Recorded κ } =
        (last.answer.map fun reply => (last.room, reply),
          { kernel := (Control.grow room hroom kernel).2, exchanges := exchanges ++ (filled ++ [last]) }) ∧
      (Control.grow room hroom kernel).1 = last.answer.map (fun reply => (last.room, reply)) ∧
      (filled ++ [last]).map Exchange.call =
        (List.range (filled.length + 1)).map (fun i => (.readAll, room * 4 ^ i)) ∧
      (∀ e ∈ filled, e.Fills) ∧ ¬ last.Fills := by
  fun_induction Control.grow room hroom kernel generalizing exchanges with
  | case1 room hroom kernel fault kernel' hcontrol =>
    refine ⟨[], { action := .readAll, room, answer := .error fault }, ?_, rfl, by simp [Exchange.call], by simp, ?_⟩
    . rw [Control.grow, control_of_eq hcontrol]
      rfl
    . rintro ⟨reply, hreply, -⟩
      cases hreply
  | case2 room hroom kernel reply kernel' hcontrol hstop =>
    refine ⟨[], { action := .readAll, room, answer := .ok reply }, ?_, rfl, by simp [Exchange.call], by simp, ?_⟩
    . rw [Control.grow, control_of_eq hcontrol]
      dsimp only
      rw [if_pos hstop]
      rfl
    . rintro ⟨reply', hreply, hcount, hle⟩
      cases hreply
      dsimp only at hcount hle
      omega
  | case3 room hroom kernel reply kernel' hcontrol hgrow ih =>
    obtain ⟨filled, last, hgrows, hanswer, hcalls, hfills, hlast⟩ :=
      ih (exchanges ++ [{ action := .readAll, room, answer := .ok reply }])
    refine ⟨{ action := .readAll, room, answer := .ok reply } :: filled, last, ?_, hanswer, ?_, ?_, hlast⟩
    . rw [Control.grow, control_of_eq hcontrol]
      dsimp only
      rw [if_neg hgrow, hgrows]
      simp only [List.append_assoc, List.cons_append, List.nil_append]
    . rw [List.cons_append, List.map_cons, hcalls, List.length_cons, List.range_succ_eq_map (n := filled.length + 1)]
      simp [Exchange.call, Nat.pow_succ', Nat.mul_left_comm, Nat.mul_assoc]
    . rw [List.forall_mem_cons]
      refine ⟨⟨reply, rfl, ?_⟩, hfills⟩
      dsimp only
      omega

theorem exists_readGrowing_eq (action : ReadAction) {kernel grown : κ} {found : Except Fault (Nat × Reply)}
    {hfirst : 0 < Control.firstRoom} (hgrown : Control.grow Control.firstRoom hfirst kernel = (found, grown)) :
    ∃ filled last clears result kernel',
      result = (clears.getLastD last).answer.map (fun reply =>
        (Exchange.buffer last.room (last :: clears)).truncate reply.count.toNat) ∧
      Control.readGrowing action kernel = (result, kernel') ∧
      Control.readGrowing action (ofKernel kernel) =
        (result, { kernel := kernel', exchanges := filled ++ last :: clears }) ∧
      found = last.answer.map (fun reply => (last.room, reply)) ∧
      (filled ++ [last]).map Exchange.call =
        (List.range (filled.length + 1)).map (fun i => (.readAll, Control.firstRoom * 4 ^ i)) ∧
      (∀ e ∈ filled, e.Fills) ∧ ¬ last.Fills ∧
      if action = .readClear ∧ 0 < last.reply.count then
        ∃ answer, clears = [{ action := .readClear, room := last.room, answer }] ∧
          Control.control .readClear last.room grown = (answer, kernel')
      else
        clears = [] ∧ kernel' = grown := by
  obtain ⟨filled, last, hgrow, hanswer, hcalls, hfills, hlast⟩ :=
    exists_grow_eq Control.firstRoom hfirst kernel []
  rw [hgrown] at hgrow hanswer
  dsimp only at hanswer
  subst hanswer
  rcases hreply : last.answer with fault | reply
  . have hclears : ¬ (action = .readClear ∧ 0 < last.reply.count) := by
      simp [Exchange.reply, hreply]
    rw [hreply] at hgrow hgrown
    refine ⟨filled, last, [], .error fault, grown, ?_, Control.readGrowing_of_error hgrown,
      Control.readGrowing_of_error hgrow, by rw [hreply], hcalls, hfills, hlast, ?_⟩
    . rw [List.getLastD_nil, hreply]
      rfl
    . rw [if_neg hclears]
      exact ⟨rfl, rfl⟩
  . obtain rfl : last.reply = reply := by
      simp [Exchange.reply, hreply]
    rw [hreply] at hgrow hgrown
    by_cases hclears : action = .readClear ∧ 0 < last.reply.count
    . rcases hclear : Control.control .readClear last.room grown with ⟨answer, kernel'⟩
      have hread := Control.readGrowing_of_clears hgrow hclears (control_of_eq hclear _)
      rw [List.nil_append, List.append_assoc, List.singleton_append] at hread
      refine ⟨filled, last, [{ action := .readClear, room := last.room, answer }], _, kernel', ?_,
        Control.readGrowing_of_clears hgrown hclears hclear, hread, by rw [hreply], hcalls, hfills, hlast, ?_⟩
      . cases answer with
        | error fault => rfl
        | ok cleared => rfl
      . rw [if_pos hclears]
        exact ⟨answer, rfl, hclear⟩
    . refine ⟨filled, last, [], _, grown, ?_, Control.readGrowing_of_ok hgrown hclears,
        Control.readGrowing_of_ok hgrow hclears, by rw [hreply], hcalls, hfills, hlast, ?_⟩
      . rw [List.getLastD_nil, hreply]
        rfl
      . rw [if_neg hclears]
        exact ⟨rfl, rfl⟩

theorem room_eq {es : List Exchange} {count : Nat}
    (hcalls : es.map Exchange.call = (List.range count).map fun i => (.readAll, Control.firstRoom * 4 ^ i))
    {i : Nat} {e : Exchange} (he : es[i]? = some e) : e.room = Control.firstRoom * 4 ^ i := by
  have hcall : (es.map Exchange.call)[i]? = some e.call := by
    rw [List.getElem?_map, he, Option.map_some]
  rw [hcalls, List.getElem?_map, Option.map_eq_some_iff] at hcall
  obtain ⟨j, hj, hcall⟩ := hcall
  obtain ⟨_, rfl⟩ := List.getElem?_eq_some_iff.mp hj
  rw [List.getElem_range] at hcall
  exact (Prod.mk.inj hcall).2.symm

theorem length_filled_lt {filled : List Exchange} {last : Exchange} {count : Nat}
    (hcalls : (filled ++ [last]).map Exchange.call =
      (List.range count).map fun i => (.readAll, Control.firstRoom * 4 ^ i))
    (hfills : ∀ e ∈ filled, e.Fills) : filled.length < 8 := by
  apply Nat.lt_of_not_le
  intro hle
  obtain ⟨reply, -, -, hroom⟩ := hfills filled[7] (List.getElem_mem _)
  rw [room_eq hcalls (i := 7) (by rw [List.getElem?_append_left hle, List.getElem?_eq_getElem hle])] at hroom
  exact absurd hroom (by decide)

end Recorded

def Reply.copy (text : Octets) (room : Nat) : Reply :=
  { count := UInt64.ofNat (text.take room).length, written := text.take room }

theorem Reply.toNat_count_copy {text : Octets} (h : text.length < UInt64.size) (room : Nat) :
    (Reply.copy text room).count.toNat = min room text.length := by
  rw [copy, UInt64.toNat_ofNat_of_lt' (by rw [List.length_take]; omega), List.length_take]

theorem Reply.eq_nil_of_count_copy {text : Octets} (h : text.length < UInt64.size) {room : Nat} (hroom : 0 < room)
    (hcount : ¬ 0 < (Reply.copy text room).count) : text = [] := by
  rw [UInt64.lt_iff_toNat_lt, toNat_count_copy h, UInt64.toNat_zero] at hcount
  apply List.eq_nil_of_length_eq_zero
  omega

/--
A relation between kernels and the texts of their buffers, to which nobody else writes: a read copies as much of the text
as there is room for, and the text stays until it is cleared. Calls may fail.
-/
structure Still {κ : Type} [Control κ] (Holds : κ → Octets → Prop) : Prop where
  readAll {kernel kernel' : κ} {text : Octets} {room : Nat} {answer : Except Fault Reply} :
    Holds kernel text → Control.control .readAll room kernel = (answer, kernel') →
      Holds kernel' text ∧ ∀ reply, answer = .ok reply → reply = .copy text room
  readClear {kernel kernel' : κ} {text : Octets} {room : Nat} {reply : Reply} :
    Holds kernel text → Control.control .readClear room kernel = (.ok reply, kernel') →
      Holds kernel' [] ∧ reply = .copy text room

namespace Still

variable {κ : Type} [Control κ] {Holds : κ → Octets → Prop} {kernel : κ} {text : Octets}

theorem grow (h : Still Holds) (hkernel : Holds kernel text) (hlength : text.length < UInt64.size) (room : Nat)
    (hroom : 0 < room) :
    Holds (Control.grow room hroom kernel).2 text ∧
      ∀ room' reply, (Control.grow room hroom kernel).1 = .ok (room', reply) →
        reply = .copy text room' ∧ (text.length < room' ∨ Control.largestRoom < room') := by
  fun_induction Control.grow room hroom kernel with
  | case1 room hroom kernel fault kernel' hcontrol =>
    refine ⟨(h.readAll hkernel hcontrol).1, ?_⟩
    rintro room' reply ⟨⟩
  | case2 room hroom kernel reply kernel' hcontrol hstop =>
    obtain ⟨hkernel', hreply⟩ := h.readAll hkernel hcontrol
    refine ⟨hkernel', ?_⟩
    rintro room' reply' ⟨⟩
    obtain rfl := hreply reply rfl
    rw [Reply.toNat_count_copy hlength] at hstop
    refine ⟨rfl, ?_⟩
    omega
  | case3 room hroom kernel reply kernel' hcontrol hgrow ih =>
    exact ih (h.readAll hkernel hcontrol).1

theorem map_toOctets_answer {room : Nat} (hlength : text.length < UInt64.size) {e : Exchange}
    (he : ∀ reply, e.answer = .ok reply → reply = .copy text room ∧ text.length ≤ room) (es : List Exchange) :
    (e.answer.map fun reply => (Exchange.buffer room (es ++ [e])).truncate reply.count.toNat).map Snapshot.toOctets =
      e.answer.map fun _ => text := by
  rcases hanswer : e.answer with fault | reply
  . rfl
  . obtain ⟨rfl, hle⟩ := he reply hanswer
    have hwritten : e.reply.written = text := by
      rw [Exchange.reply, hanswer]
      exact List.take_of_length_le hle
    have hbuffer : text.length ≤ (Exchange.buffer room es).length := by
      rwa [Exchange.length_buffer]
    rw [Exchange.buffer_append_singleton, hwritten]
    dsimp only [Except.map]
    rw [Reply.toNat_count_copy hlength, Nat.min_eq_right hle, Snapshot.toOctets_truncate_overwrite _ _ hbuffer]

theorem length_le_room {room n : Nat} (hroom : room = Control.firstRoom * 4 ^ n) (hlength : text.length ≤ 268566528)
    (h : text.length < room ∨ Control.largestRoom < room) : text.length ≤ room := by
  rcases h with hlt | hlarge
  . exact Nat.le_of_lt hlt
  . have hn : 7 ≤ n := by
      apply Nat.le_of_not_lt
      intro hn
      have hle : 4 ^ n ≤ 4 ^ 6 := Nat.pow_le_pow_right (by decide) (Nat.le_of_lt_succ hn)
      rw [Control.firstRoom] at hroom
      rw [Control.largestRoom] at hlarge
      omega
    have hle : 4 ^ 7 ≤ 4 ^ n := Nat.pow_le_pow_right (by decide) hn
    rw [Control.firstRoom] at hroom
    omega

theorem last_answer (h : Still Holds) (hkernel : Holds kernel text) (htext : text.length ≤ 268566528)
    {last : Exchange} {grown : κ} {n : Nat} {hfirst : 0 < Control.firstRoom}
    (hgrown : Control.grow Control.firstRoom hfirst kernel = (last.answer.map fun reply => (last.room, reply), grown))
    (hroom : last.room = Control.firstRoom * 4 ^ n) :
    Holds grown text ∧ ∀ reply, last.answer = .ok reply → reply = .copy text last.room ∧ text.length ≤ last.room := by
  have hlength : text.length < UInt64.size := Nat.lt_of_le_of_lt htext (by decide)
  obtain ⟨hholds, hseen⟩ := h.grow hkernel hlength Control.firstRoom hfirst
  rw [hgrown] at hholds hseen
  refine ⟨hholds, ?_⟩
  intro reply hanswer
  obtain ⟨hcopy, hfits⟩ := hseen last.room reply (by rw [hanswer]; rfl)
  exact ⟨hcopy, length_le_room hroom htext hfits⟩

theorem cleared (h : Still Holds) (hlength : text.length < UInt64.size) {last : Exchange} {grown kernel' : κ}
    {answer : Except Fault Reply} (hholds : Holds grown text)
    (hlast : ∀ reply, last.answer = .ok reply → reply = .copy text last.room ∧ text.length ≤ last.room)
    (hseen : 0 < last.reply.count) (hclear : Control.control .readClear last.room grown = (answer, kernel')) :
    (answer.map fun reply =>
        (Exchange.buffer last.room [last, { action := .readClear, room := last.room, answer }]).truncate
          reply.count.toNat).map Snapshot.toOctets = answer.map (fun _ => text) ∧
      (answer.isOk → Holds kernel' []) := by
  have hfits : text.length ≤ last.room := by
    rcases hanswer : last.answer with fault | reply
    . simp [Exchange.reply, hanswer] at hseen
    . exact (hlast reply hanswer).2
  have hcleared (reply : Reply) (hanswer : answer = .ok reply) : Holds kernel' [] ∧ reply = .copy text last.room :=
    h.readClear hholds (hanswer ▸ hclear)
  refine ⟨map_toOctets_answer hlength (fun reply hanswer => ⟨(hcleared reply hanswer).2, hfits⟩) [last], ?_⟩
  intro hok
  cases answer with
  | error fault => cases hok
  | ok reply => exact (hcleared reply rfl).1

theorem eq_nil_of_not_seen (hlength : text.length < UInt64.size) {last : Exchange} (hroom : 0 < last.room)
    (hlast : ∀ reply, last.answer = .ok reply → reply = .copy text last.room ∧ text.length ≤ last.room)
    (hseen : ¬ 0 < last.reply.count) (hok : last.answer.isOk) : text = [] := by
  rcases hanswer : last.answer with fault | reply
  . rw [hanswer] at hok
    cases hok
  . obtain ⟨rfl, -⟩ := hlast reply hanswer
    apply Reply.eq_nil_of_count_copy hlength hroom
    simpa [Exchange.reply, hanswer] using hseen

end Still

namespace Control

variable {κ : Type} [Control κ]

theorem isOk_map {α β : Type} (f : α → β) (answer : Except Fault α) : (answer.map f).isOk = answer.isOk := by
  cases answer with
  | error fault => rfl
  | ok reply => rfl

theorem read_eq_readGrowing (action : ReadAction) {size : Option UInt64} (hsize : size.getD 0 = 0) (kernel : κ) :
    read action size kernel = readGrowing action kernel := by
  cases size with
  | none => rfl
  | some size => exact if_pos hsize

/--
A read of a buffer whose size is not known. Whatever the kernel answers: the buffer is read with four times the room as
long as the answer fills a room that is not too large, at most eight times. It is cleared by one call with the same room
if it is to be cleared and is not empty. A call that fails is the last one, and the answer of the last call is given.
If nobody else writes to the buffer and it is not longer than the largest room that is tried, it is given as a whole, it
is empty in the end if it is cleared, and it stays as it is if no call clears it.
-/
theorem read_exchanges (action : ReadAction) {size : Option UInt64} (hsize : size.getD 0 = 0) (kernel : κ) :
    let recorded := read action size (Recorded.ofKernel kernel)
    read action size kernel = (recorded.1, recorded.2.kernel) ∧
    ∃ filled last clears,
      recorded.2.exchanges = filled ++ last :: clears ∧
      (filled ++ [last]).map Exchange.call =
        (List.range (filled.length + 1)).map (fun i => (.readAll, firstRoom * 4 ^ i)) ∧
      (∀ e ∈ filled, e.Fills) ∧ ¬ last.Fills ∧ filled.length < 8 ∧
      clears.map Exchange.call =
        (if action = .readClear ∧ 0 < last.reply.count then [(.readClear, last.room)] else []) ∧
      recorded.1 = (clears.getLastD last).answer.map (fun reply =>
        (Exchange.buffer last.room (last :: clears)).truncate reply.count.toNat) ∧
      ∀ (Holds : κ → Octets → Prop) (text : Octets),
        Still Holds → Holds kernel text → text.length ≤ 268566528 →
          recorded.1.map Snapshot.toOctets = (clears.getLastD last).answer.map (fun _ => text) ∧
          (action = .readClear → recorded.1.isOk → Holds recorded.2.kernel []) ∧
          (clears = [] → Holds recorded.2.kernel text) := by
  rcases hgrown : grow firstRoom (by decide) kernel with ⟨found, grown⟩
  obtain ⟨filled, last, clears, result, kernel', hresult, hread, hrecorded, rfl, hcalls, hfills, hlast, hclears⟩ :=
    Recorded.exists_readGrowing_eq action hgrown
  rw [← read_eq_readGrowing action hsize] at hread hrecorded
  rw [hread, hrecorded]
  have hroom : last.room = firstRoom * 4 ^ filled.length :=
    Recorded.room_eq hcalls (by rw [List.getElem?_append_right (Nat.le_refl _), Nat.sub_self]; rfl)
  refine ⟨rfl, filled, last, clears, rfl, hcalls, hfills, hlast, Recorded.length_filled_lt hcalls hfills, ?_, hresult, ?_⟩
  . split at hclears
    . next hcleared =>
      obtain ⟨answer, rfl, -⟩ := hclears
      rw [if_pos hcleared]
      rfl
    . next hcleared =>
      obtain ⟨rfl, -⟩ := hclears
      rw [if_neg hcleared]
      rfl
  . intro Holds text hstill hkernel htext
    have hlength : text.length < UInt64.size := Nat.lt_of_le_of_lt htext (by decide)
    obtain ⟨hholds, hreply⟩ := hstill.last_answer hkernel htext hgrown hroom
    rw [hresult]
    split at hclears
    . next hcleared =>
      obtain ⟨answer, rfl, hclear⟩ := hclears
      obtain ⟨htext, hempty⟩ := hstill.cleared hlength hholds hreply hcleared.2 hclear
      refine ⟨htext, ?_, by simp⟩
      intro _ hok
      rw [isOk_map] at hok
      exact hempty hok
    . next hcleared =>
      obtain ⟨rfl, rfl⟩ := hclears
      refine ⟨Still.map_toOctets_answer hlength hreply [], ?_, fun _ => hholds⟩
      rintro rfl hok
      have hpos : 0 < last.room := by
        rw [hroom]
        exact Nat.mul_pos (by decide) (Nat.pow_pos (by decide))
      have hseen : ¬ 0 < last.reply.count := by simpa using hcleared
      rw [isOk_map] at hok
      rwa [Still.eq_nil_of_not_seen hlength hpos hreply hseen hok] at hholds

end Control

namespace RingBuffer

theorem copy_eq (k : RingBuffer) (room : Nat) : k.copy room = .copy k.text room := by
  rw [copy, List.splitAt_eq]
  rfl

theorem still : Still fun (k : RingBuffer) text => k.text = text ∧ k.full = 0 where
  readAll := by
    rintro k k' text room answer ⟨rfl, hfull⟩ hcontrol
    change control .readAll room k = _ at hcontrol
    simp only [control, hfull, Nat.lt_irrefl, ↓reduceIte] at hcontrol
    split at hcontrol
    . cases hcontrol
      exact ⟨⟨rfl, rfl⟩, by simp⟩
    . cases hcontrol
      exact ⟨⟨rfl, rfl⟩, by simp [copy_eq]⟩
  readClear := by
    rintro k k' text room reply ⟨rfl, hfull⟩ hcontrol
    change control .readClear room k = _ at hcontrol
    simp only [control, hfull, Nat.lt_irrefl, ↓reduceIte] at hcontrol
    split at hcontrol
    . cases hcontrol
    . cases hcontrol
      exact ⟨⟨rfl, rfl⟩, copy_eq _ room⟩

end RingBuffer

theorem Control.read_exchanges_cleared :
    let k : RingBuffer := { text := [60, 54, 62, 97], size := 0, full := 0, faults := [], calls := [] }
    let recorded := Control.read .readClear none (Recorded.ofKernel k)
    recorded.1.map Snapshot.toOctets = .ok [60, 54, 62, 97] ∧ recorded.2.kernel.text = [] ∧
      recorded.2.exchanges.map Exchange.call = [(.readAll, 16392), (.readClear, 16392)] := by
  intro k recorded
  have hsize : (none : Option UInt64).getD 0 = 0 := rfl
  obtain ⟨-, filled, last, clears, -, -, -, -, -, -, -, hstill⟩ := read_exchanges .readClear hsize k
  obtain ⟨-, hempty, -⟩ := hstill _ k.text RingBuffer.still ⟨rfl, rfl⟩ (by decide)
  obtain ⟨htext, -⟩ := hempty rfl (by decide +kernel)
  exact ⟨by decide +kernel, htext, by decide +kernel⟩

end KernelLog
