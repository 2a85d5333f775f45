import KernelLog.Legacy.Reader

/-!
This module contains the records that a text in the legacy encoding consists of, defined without a reader, and
what is left out between them.
-/

namespace KernelLog.Legacy

/--
Cut a text at each newline directly before an opening angle bracket. Such a newline is in no part.
-/
def cut : Octets → List Octets
  | [] => [[]]
  | b :: s =>
    if b = Octet.newline ∧ s.head? = some Octet.less then
      [] :: cut s
    else
      (cut s).modifyHead (b :: ·)

def stripLast : List Octets → List Octets
  | [] => []
  | [p] => [dropTrailingZeros p]
  | p :: q :: ps => p :: stripLast (q :: ps)

/--
The parts of a text that are records: all that are not empty. Zeros at the beginning and at the end of the text
are in no record.
-/
def pieces (s : Octets) : List Octets :=
  stripLast ((cut (s.dropWhile (· == Octet.nul))).filter (!·.isEmpty))

theorem boundary?_go_succ (i : Nat) (s : Octets) :
    boundary?.go (i + 1) s = (boundary?.go i s).map (· + 1) := by
  fun_induction boundary?.go i s with
  | case1 i rest => rfl
  | case2 i b rest hnot ih =>
    rw [boundary?.go, ih]
    exact hnot
  | case3 i => rfl

theorem boundary?_cons (b : UInt8) (s : Octets) :
    boundary? (b :: s) =
      if b = Octet.newline ∧ s.head? = some Octet.less then some 0 else (boundary? s).map (· + 1) := by
  split
  . next h =>
    cases s with
    | nil => simp at h
    | cons c s =>
      simp only [List.head?_cons, Option.some.injEq] at h
      rw [h.1, h.2]
      rfl
  . next h =>
    rw [boundary?, boundary?.go, boundary?_go_succ]
    . rfl
    . intro rest hb hs
      rw [hb, hs] at h
      simp at h

theorem cut_ne_nil (s : Octets) : cut s ≠ [] := by
  induction s with
  | nil => simp [cut]
  | cons b s ih =>
    rw [cut]
    split
    . simp
    . simpa using ih

theorem exists_cut_eq_cons (s : Octets) : ∃ p ps, cut s = p :: ps :=
  List.exists_cons_of_ne_nil (cut_ne_nil s)

theorem cut_cons_of_ne {b : UInt8} (hb : b ≠ Octet.newline) (s : Octets) :
    cut (b :: s) = (cut s).modifyHead (b :: ·) := by
  rw [cut, if_neg]
  intro h
  exact hb h.1

theorem head?_of_mem_tail_cut (s : Octets) : ∀ p ∈ (cut s).tail, p.head? = some Octet.less := by
  induction s with
  | nil => simp [cut]
  | cons b s ih =>
    rw [cut]
    split
    . next hb =>
      intro p hp
      cases s with
      | nil => simp at hb
      | cons c s =>
        simp only [List.head?_cons, Option.some.injEq] at hb
        rw [hb.2] at hp ih
        rw [List.tail_cons, cut_cons_of_ne (by decide)] at hp
        rw [cut_cons_of_ne (by decide), List.tail_modifyHead] at ih
        obtain ⟨q, qs, hcut⟩ := exists_cut_eq_cons s
        rw [hcut] at hp ih
        rcases List.mem_cons.mp hp with rfl | hp
        . rfl
        . exact ih p hp
    . rwa [List.tail_modifyHead]

theorem intercalate_cut (s : Octets) : [Octet.newline].intercalate (cut s) = s := by
  induction s with
  | nil => rfl
  | cons b s ih =>
    rw [cut]
    split
    . next hb =>
      rw [List.intercalate_cons_of_ne_nil (cut_ne_nil s), ih, hb.1]
      rfl
    . obtain ⟨q, qs, hcut⟩ := exists_cut_eq_cons s
      rw [hcut] at ih ⊢
      rw [List.modifyHead_cons, List.intercalate_cons_cons_left, ih]

theorem dropTrailingZeros_cons {b : UInt8} (hb : b ≠ Octet.nul) (s : Octets) :
    dropTrailingZeros (b :: s) = b :: dropTrailingZeros s := by
  rw [dropTrailingZeros, List.reverse_cons, List.dropWhile_append]
  split
  . next h =>
    rw [List.isEmpty_iff] at h
    rw [dropTrailingZeros, h]
    simp [hb]
  . rw [List.reverse_append]
    rfl

theorem dropTrailingZeros_concat {b : UInt8} (hb : b ≠ Octet.nul) (s : Octets) :
    dropTrailingZeros (s ++ [b]) = s ++ [b] := by
  simp [dropTrailingZeros, hb]

theorem dropTrailingZeros_append_zeros (s : Octets) (n : Nat) :
    dropTrailingZeros (s ++ List.replicate n Octet.nul) = dropTrailingZeros s := by
  rw [dropTrailingZeros, List.reverse_append, List.reverse_replicate, List.dropWhile_append_of_pos]
  . rfl
  . intro b hb
    rw [List.eq_of_mem_replicate hb]
    rfl

theorem takeWhile_nul (s : Octets) :
    s.takeWhile (· == Octet.nul) = List.replicate (s.takeWhile (· == Octet.nul)).length Octet.nul := by
  rw [List.eq_replicate_iff]
  refine ⟨rfl, ?_⟩
  intro b hb
  simpa using List.all_eq_true.mp List.all_takeWhile b hb

theorem exists_dropTrailingZeros_append (s : Octets) :
    ∃ n, s = dropTrailingZeros s ++ List.replicate n Octet.nul := by
  refine ⟨(s.reverse.takeWhile (· == Octet.nul)).length, ?_⟩
  rw [dropTrailingZeros, ← List.reverse_replicate, ← takeWhile_nul, ← List.reverse_append,
    List.takeWhile_append_dropWhile, List.reverse_reverse]

theorem cut_of_boundary?_eq_none (s : Octets) (h : boundary? s = none) : cut s = [s] := by
  induction s with
  | nil => rfl
  | cons b s ih =>
    rw [boundary?_cons] at h
    split at h
    . simp at h
    . next hb =>
      rw [Option.map_eq_none_iff] at h
      rw [cut, if_neg hb, ih h]
      rfl

theorem cut_of_boundary?_eq_some (s : Octets) (n : Nat) (h : boundary? s = some n) :
    cut s = s.take n :: cut (s.drop (n + 1)) ∧ (s.drop (n + 1)).head? = some Octet.less := by
  induction s generalizing n with
  | nil => simp [boundary?, boundary?.go] at h
  | cons b s ih =>
    rw [boundary?_cons] at h
    split at h
    . next hb =>
      rw [Option.some.injEq] at h
      rw [cut, if_pos hb, ← h]
      exact ⟨rfl, hb.2⟩
    . next hb =>
      obtain ⟨m, hm, rfl⟩ := Option.map_eq_some_iff.mp h
      obtain ⟨hcut, hhead⟩ := ih m hm
      rw [cut, if_neg hb, hcut]
      exact ⟨rfl, hhead⟩

theorem stripLast_concat (ps : List Octets) (q : Octets) :
    stripLast (ps ++ [q]) = ps ++ [dropTrailingZeros q] := by
  induction ps with
  | nil => rfl
  | cons p ps ih =>
    cases ps with
    | nil => rfl
    | cons p' ps =>
      rw [List.cons_append, List.cons_append, stripLast, ← List.cons_append, ih]
      rfl

theorem stripLast_cons (p : Octets) {ps : List Octets} (h : ps ≠ []) :
    stripLast (p :: ps) = p :: stripLast ps := by
  cases ps with
  | nil => exact absurd rfl h
  | cons q ps => rfl

theorem filter_cons_of_ne_nil {p : Octets} (h : p ≠ []) (ps : List Octets) :
    (p :: ps).filter (!·.isEmpty) = p :: ps.filter (!·.isEmpty) := by
  rw [List.filter_cons_of_pos]
  simpa using h

theorem filter_tail_cut (s : Octets) : (cut s).tail.filter (!·.isEmpty) = (cut s).tail := by
  rw [List.filter_eq_self]
  intro p hp
  have := head?_of_mem_tail_cut s p hp
  cases p with
  | nil => simp at this
  | cons b p => rfl

theorem dropWhile_nul_of_head?_less {s : Octets} (h : s.head? = some Octet.less) :
    s.dropWhile (· == Octet.nul) = s := by
  cases s with
  | nil => rfl
  | cons b s =>
    simp only [List.head?_cons, Option.some.injEq] at h
    rw [h]
    rfl

theorem filter_cut_of_head?_less {s : Octets} (h : s.head? = some Octet.less) :
    (cut s).filter (!·.isEmpty) = cut s := by
  cases s with
  | nil => simp at h
  | cons b s =>
    simp only [List.head?_cons, Option.some.injEq] at h
    have htail := filter_tail_cut (b :: s)
    obtain ⟨q, qs, hcut⟩ := exists_cut_eq_cons s
    rw [h, cut_cons_of_ne (by decide), hcut] at htail ⊢
    rw [List.modifyHead_cons, filter_cons_of_ne_nil (by simp)]
    exact congrArg _ htail

theorem pieces_of_dropWhile_eq_nil {s : Octets} (h : s.dropWhile (· == Octet.nul) = []) : pieces s = [] := by
  rw [pieces, h]
  rfl

theorem pieces_of_boundary?_eq_zero {s : Octets} (h : boundary? (s.dropWhile (· == Octet.nul)) = some 0) :
    pieces s = pieces ((s.dropWhile (· == Octet.nul)).drop 1) := by
  obtain ⟨hcut, hhead⟩ := cut_of_boundary?_eq_some _ 0 h
  rw [pieces, hcut, pieces, dropWhile_nul_of_head?_less hhead]
  rfl

theorem pieces_of_boundary?_eq_succ {s : Octets} {n : Nat} (hn : n ≠ 0)
    (h : boundary? (s.dropWhile (· == Octet.nul)) = some n) :
    pieces s =
      (s.dropWhile (· == Octet.nul)).take n :: pieces ((s.dropWhile (· == Octet.nul)).drop (n + 1)) := by
  obtain ⟨hcut, hhead⟩ := cut_of_boundary?_eq_some _ n h
  have htake : (s.dropWhile (· == Octet.nul)).take n ≠ [] := by
    intro hnil
    rw [List.take_eq_nil_iff] at hnil
    rcases hnil with hnil | hnil
    . exact hn hnil
    . rw [hnil] at hhead
      simp at hhead
  rw [pieces, hcut, pieces, dropWhile_nul_of_head?_less hhead, filter_cons_of_ne_nil htake,
    filter_cut_of_head?_less hhead, stripLast_cons _ (cut_ne_nil _)]

theorem pieces_of_boundary?_eq_none {s : Octets} (hs : s.dropWhile (· == Octet.nul) ≠ [])
    (h : boundary? (s.dropWhile (· == Octet.nul)) = none) :
    pieces s = [dropTrailingZeros (s.dropWhile (· == Octet.nul))] := by
  rw [pieces, cut_of_boundary?_eq_none _ h, filter_cons_of_ne_nil hs]
  rfl

theorem stripLast_ne_nil {ps : List Octets} (h : ps ≠ []) : stripLast ps ≠ [] := by
  cases ps with
  | nil => exact absurd rfl h
  | cons p ps => cases ps <;> simp [stripLast]

theorem tail_stripLast (ps : List Octets) : (stripLast ps).tail = stripLast ps.tail := by
  cases ps with
  | nil => rfl
  | cons p ps => cases ps <;> rfl

theorem intercalate_stripLast (sep : Octets) (ps : List Octets) :
    ∃ n, sep.intercalate ps = sep.intercalate (stripLast ps) ++ List.replicate n Octet.nul := by
  fun_induction stripLast ps with
  | case1 => exact ⟨0, rfl⟩
  | case2 p =>
    rw [List.intercalate_singleton, List.intercalate_singleton]
    exact exists_dropTrailingZeros_append p
  | case3 p q ps ih =>
    obtain ⟨n, ih⟩ := ih
    refine ⟨n, ?_⟩
    rw [List.intercalate_cons_of_ne_nil (by simp),
      List.intercalate_cons_of_ne_nil (stripLast_ne_nil (by simp)), ih]
    simp only [List.append_assoc]

theorem head?_of_mem_stripLast {ps : List Octets} (h : ∀ p ∈ ps, p.head? = some Octet.less) :
    ∀ p ∈ stripLast ps, p.head? = some Octet.less := by
  fun_induction stripLast ps with
  | case1 => exact h
  | case2 p =>
    have hp := h p List.mem_cons_self
    cases p with
    | nil => simp at hp
    | cons b p =>
      simp only [List.head?_cons, Option.some.injEq] at hp
      rw [hp, dropTrailingZeros_cons (by decide)]
      simp
  | case3 p q ps ih =>
    intro p' hp'
    rcases List.mem_cons.mp hp' with rfl | hp'
    . exact h p' List.mem_cons_self
    . exact ih (fun p hp => h p (List.mem_cons_of_mem _ hp)) p' hp'

/--
What is left out of a text: zeros at the beginning and at the end, a newline directly before each record but the
first, and, if the first one begins with an opening angle bracket, perhaps one before that.
-/
theorem exists_eq_append_pieces (s : Octets) :
    ∃ lead trail front,
      s = List.replicate lead Octet.nul ++ front ++ [Octet.newline].intercalate (pieces s) ++
        List.replicate trail Octet.nul ∧
      (front = [] ∧ (∀ p ∈ (pieces s).tail, p.head? = some Octet.less) ∨
        front = [Octet.newline] ∧ pieces s ≠ [] ∧ ∀ p ∈ pieces s, p.head? = some Octet.less) := by
  have hs := (List.takeWhile_append_dropWhile (p := (· == Octet.nul)) (l := s)).symm
  rw [takeWhile_nul] at hs
  generalize (s.takeWhile (· == Octet.nul)).length = lead at hs
  have htext := intercalate_cut (s.dropWhile (· == Octet.nul))
  have htail := head?_of_mem_tail_cut (s.dropWhile (· == Octet.nul))
  have hfilter := filter_tail_cut (s.dropWhile (· == Octet.nul))
  obtain ⟨q, qs, hcut⟩ := exists_cut_eq_cons (s.dropWhile (· == Octet.nul))
  rw [hcut, List.tail_cons] at htail hfilter
  rw [pieces, hcut]
  rw [← htext, hcut] at hs
  -- only the first part can be empty, and then its newline stands before all records
  by_cases hq : q = []
  . rw [hq] at hs ⊢
    rw [List.filter_cons_of_neg (by simp), hfilter]
    cases qs with
    | nil =>
      refine ⟨lead, 0, [], ?_, .inl ⟨rfl, by simp [stripLast]⟩⟩
      simpa [stripLast] using hs
    | cons q' qs =>
      obtain ⟨trail, htrail⟩ := intercalate_stripLast [Octet.newline] (q' :: qs)
      refine ⟨lead, trail, [Octet.newline], ?_,
        .inr ⟨rfl, stripLast_ne_nil (by simp), head?_of_mem_stripLast htail⟩⟩
      rw [List.intercalate_cons_of_ne_nil (by simp), List.nil_append, htrail] at hs
      simpa only [List.append_assoc] using hs
  . rw [filter_cons_of_ne_nil hq, hfilter]
    obtain ⟨trail, htrail⟩ := intercalate_stripLast [Octet.newline] (q :: qs)
    refine ⟨lead, trail, [], ?_, .inl ⟨rfl, ?_⟩⟩
    . rw [htrail] at hs
      simpa only [List.append_assoc, List.append_nil] using hs
    . rw [tail_stripLast]
      exact head?_of_mem_stripLast htail

example :
    pieces (Octets.ofString "\x00\n<1>a\nb\n<2>c\x00\n\x00") =
      ["<1>a\nb", "<2>c\x00\n"].map Octets.ofString := by
  decide +kernel

theorem boundary?_cons_eq_none {b : UInt8} {s : Octets} :
    boundary? (b :: s) = none ↔ (b = Octet.newline → s.head? ≠ some Octet.less) ∧ boundary? s = none := by
  rw [boundary?_cons]
  split
  . next h => simp [h]
  . next h => simpa using fun _ => h

theorem boundary?_append_of_not_mem {p s : Octets} (hp : Octet.newline ∉ p) (hs : boundary? s = none) :
    boundary? (p ++ s) = none := by
  induction p with
  | nil => exact hs
  | cons b p ih =>
    rw [List.mem_cons, not_or] at hp
    rw [List.cons_append, boundary?_cons_eq_none]
    exact ⟨fun hb => absurd hb.symm hp.1, ih hp.2⟩

theorem boundary?_append_newline {s : Octets} (hs : boundary? s = none) :
    boundary? (s ++ [Octet.newline]) = none := by
  induction s with
  | nil => rfl
  | cons b s ih =>
    rw [boundary?_cons_eq_none] at hs
    rw [List.cons_append, boundary?_cons_eq_none]
    refine ⟨?_, ih hs.2⟩
    intro hb
    cases s with
    | nil => simp [show Octet.newline ≠ Octet.less by decide]
    | cons c s => exact hs.1 hb

theorem boundary?_of_append {s t : Octets} (h : boundary? (s ++ t) = none) : boundary? s = none := by
  induction s with
  | nil => rfl
  | cons b s ih =>
    rw [List.cons_append, boundary?_cons_eq_none] at h
    rw [boundary?_cons_eq_none]
    refine ⟨?_, ih h.2⟩
    intro hb
    cases s with
    | nil => simp
    | cons c s => exact h.1 hb

theorem cut_append_boundary {s t : Octets} (hs : boundary? s = none) (ht : t.head? = some Octet.less) :
    cut (s ++ Octet.newline :: t) = s :: cut t := by
  induction s with
  | nil => rw [List.nil_append, cut, if_pos ⟨rfl, ht⟩]
  | cons b s ih =>
    rw [boundary?_cons_eq_none] at hs
    rw [List.cons_append, cut, if_neg, ih hs.2]
    . rfl
    . intro h
      cases s with
      | nil => simp [show Octet.newline ≠ Octet.less by decide] at h
      | cons c s => exact hs.1 h.1 h.2

theorem cut_zeros (n : Nat) : cut (List.replicate n Octet.nul) = [List.replicate n Octet.nul] := by
  induction n with
  | zero => rfl
  | succ n ih =>
    rw [List.replicate_succ, cut_cons_of_ne (by decide), ih]
    rfl

theorem head?_append_zeros (s : Octets) (n : Nat) :
    (s ++ List.replicate n Octet.nul).head? = some Octet.less ↔ s.head? = some Octet.less := by
  cases s with
  | nil => cases n <;> simp [List.replicate_succ, show Octet.nul ≠ Octet.less by decide]
  | cons b s => rfl

theorem cut_append_zeros (s : Octets) (n : Nat) :
    ∃ ps q, cut s = ps ++ [q] ∧
      cut (s ++ List.replicate n Octet.nul) = ps ++ [q ++ List.replicate n Octet.nul] := by
  induction s with
  | nil => exact ⟨[], [], rfl, cut_zeros n⟩
  | cons b s ih =>
    obtain ⟨ps, q, hs, hzeros⟩ := ih
    -- zeros do not begin with an angle bracket, so they make no cut
    rw [List.cons_append, cut, cut]
    simp only [head?_append_zeros, hs, hzeros]
    split
    . exact ⟨[] :: ps, q, rfl, rfl⟩
    . cases ps with
      | nil => exact ⟨[], b :: q, rfl, rfl⟩
      | cons p ps => exact ⟨(b :: p) :: ps, q, rfl, rfl⟩

theorem last_cut_ne_nil {s q : Octets} {ps : List Octets} (hs : s ≠ []) (h : cut s = ps ++ [q]) : q ≠ [] := by
  intro hq
  rw [hq] at h
  cases ps with
  | nil =>
    apply hs
    rw [← intercalate_cut s, h]
    rfl
  | cons p ps =>
    have := head?_of_mem_tail_cut s []
    rw [h] at this
    simp at this

theorem pieces_append_zeros (s : Octets) (n : Nat) : pieces (s ++ List.replicate n Octet.nul) = pieces s := by
  rw [pieces, pieces, List.dropWhile_append]
  split
  . next h =>
    rw [List.isEmpty_iff] at h
    rw [h, List.dropWhile_replicate]
    rfl
  . next h =>
    rw [List.isEmpty_iff] at h
    obtain ⟨ps, q, hs, hzeros⟩ := cut_append_zeros (s.dropWhile (· == Octet.nul)) n
    have hq := last_cut_ne_nil h hs
    have hqzeros := List.append_ne_nil_of_left_ne_nil hq (List.replicate n Octet.nul)
    rw [hs, hzeros, List.filter_append, List.filter_append, filter_cons_of_ne_nil hq,
      filter_cons_of_ne_nil hqzeros, List.filter_nil, stripLast_concat, stripLast_concat,
      dropTrailingZeros_append_zeros]

theorem boundary?_append_zeros (s : Octets) (n : Nat) :
    boundary? (s ++ List.replicate n Octet.nul) = boundary? s := by
  induction s with
  | nil =>
    induction n with
    | zero => rfl
    | succ n ih =>
      rw [List.nil_append] at ih ⊢
      have hnul : Octet.nul ≠ Octet.newline := by decide
      rw [List.replicate_succ, boundary?_cons, if_neg fun h => hnul h.1, ih]
      rfl
  | cons b s ih => simp only [List.cons_append, boundary?_cons, head?_append_zeros, ih]

theorem dropWhile_nul_append_zeros_of_eq_nil {s : Octets} (h : s.dropWhile (· == Octet.nul) = []) (n : Nat) :
    (s ++ List.replicate n Octet.nul).dropWhile (· == Octet.nul) = [] := by
  rw [List.dropWhile_append, h, List.isEmpty_nil, if_pos rfl, List.dropWhile_replicate]
  rfl

theorem takeWhile_nul_append {s : Octets} (h : s.dropWhile (· == Octet.nul) ≠ []) (t : Octets) :
    (s ++ t).takeWhile (· == Octet.nul) = s.takeWhile (· == Octet.nul) ∧
      (s ++ t).dropWhile (· == Octet.nul) = s.dropWhile (· == Octet.nul) ++ t ∧
      ¬ (s.dropWhile (· == Octet.nul) ++ t).isEmpty := by
  have hlength := congrArg List.length (List.takeWhile_append_dropWhile (p := (· == Octet.nul)) (l := s))
  have hpos := List.length_pos_iff.mpr h
  rw [List.length_append] at hlength
  rw [List.takeWhile_append, List.dropWhile_append, if_neg (by omega), if_neg (by simpa using h)]
  exact ⟨rfl, rfl, mt List.isEmpty_iff.mp (List.append_ne_nil_of_left_ne_nil h t)⟩

end KernelLog.Legacy
