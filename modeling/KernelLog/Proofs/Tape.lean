import KernelLog.Printer.Tape

/-!
This module contains what a tape keeps of what is written to it: everything, or everything up to its limit.
-/

namespace KernelLog.Tape

def fits (limit : Option Nat) (s : Octets) : Bool :=
  limit.all fun n => s.length ≤ n

def upTo (limit : Option Nat) (s : Octets) : Octets :=
  match limit with
  | none => s
  | some n => s.take n

variable {limit : Option Nat} {s s' : Octets}

theorem fits_some {n : Nat} : fits (some n) s ↔ s.length ≤ n := by
  simp [fits]

theorem fits_left (h : fits limit (s ++ s')) : fits limit s := by
  cases limit with
  | none => rfl
  | some n =>
    rw [fits_some, List.length_append] at h
    rw [fits_some]
    omega

theorem upTo_of_fits (h : fits limit s) : upTo limit s = s := by
  cases limit with
  | none => rfl
  | some n =>
    apply List.take_of_length_le
    exact fits_some.mp h

theorem upTo_append_of_not_fits (h : ¬ fits limit s) (s' : Octets) : upTo limit (s ++ s') = upTo limit s := by
  cases limit with
  | none => exact absurd rfl h
  | some n =>
    rw [fits_some] at h
    apply List.take_append_of_le_length
    omega

def Counts (t : Tape) : Prop :=
  ∀ n ∈ t.limit, t.size = t.contents.length ∧ t.size ≤ n

theorem Counts.fits {t : Tape} (h : t.Counts) : Tape.fits t.limit t.contents := by
  cases hlimit : t.limit with
  | none => rfl
  | some n =>
    have hn := h n hlimit
    rw [fits_some]
    omega

/--
A tape has been given octets, and has kept what there was room for.
-/
structure Takes (t : Tape) (s : Octets) (t' : Tape) : Prop where
  contents : t'.contents = upTo t.limit (t.contents ++ s)
  limit : t'.limit = t.limit
  refusal : t'.refusal = t.refusal
  flushFault : t'.flushFault = t.flushFault
  counts : t'.Counts

variable {t t' t'' : Tape}

theorem Takes.nil (h : t.Counts) : t.Takes [] t where
  contents := by rw [List.append_nil, upTo_of_fits h.fits]
  limit := rfl
  refusal := rfl
  flushFault := rfl
  counts := h

theorem Takes.append (h : t.Takes s t') (hfits : fits t.limit (t.contents ++ s)) (h' : t'.Takes s' t'') :
    t.Takes (s ++ s') t'' where
  contents := by rw [h'.contents, h.contents, h.limit, upTo_of_fits hfits, List.append_assoc]
  limit := h'.limit.trans h.limit
  refusal := h'.refusal.trans h.refusal
  flushFault := h'.flushFault.trans h.flushFault
  counts := h'.counts

theorem Takes.append_of_not_fits (h : t.Takes s t') (hfits : ¬ fits t.limit (t.contents ++ s)) (s' : Octets) :
    t.Takes (s ++ s') t' :=
  { h with contents := by rw [← List.append_assoc, upTo_append_of_not_fits hfits, h.contents] }

def room (t : Tape) (s : Octets) : Nat :=
  (t.limit.map (· - t.size)).getD s.length

theorem write_eq (t : Tape) (s : Octets) :
    Sink.write s t =
      (if s.length ≤ t.room s then .ok () else .error t.refusal,
        { t with chunks := s.take (t.room s) :: t.chunks, size := t.size + (s.take (t.room s)).length }) := by
  change t.write s = _
  unfold write room
  dsimp only
  split <;> rfl

theorem le_room_iff (h : t.Counts) (s : Octets) : s.length ≤ t.room s ↔ fits t.limit (t.contents ++ s) := by
  unfold room
  cases hlimit : t.limit with
  | none => simp [fits]
  | some n =>
    obtain ⟨hsize, hle⟩ := h n hlimit
    rw [Option.map_some, Option.getD_some, fits_some, List.length_append]
    omega

theorem append_take_room (h : t.Counts) (s : Octets) :
    t.contents ++ s.take (t.room s) = upTo t.limit (t.contents ++ s) := by
  unfold room
  cases hlimit : t.limit with
  | none => simp [upTo]
  | some n =>
    obtain ⟨hsize, hle⟩ := h n hlimit
    have htake : t.contents.take n = t.contents := List.take_of_length_le (by omega)
    rw [Option.map_some, Option.getD_some, upTo, List.take_append, hsize, htake]

theorem exists_write_takes (h : t.Counts) (s : Octets) :
    ∃ t', Sink.write s t = (if fits t.limit (t.contents ++ s) then .ok () else .error t.refusal, t') ∧
      t.Takes s t' := by
  simp only [write_eq, le_room_iff h]
  refine ⟨_, rfl, ?_, rfl, rfl, rfl, ?_⟩
  . rw [← append_take_room h, contents, contents, List.reverse_cons, List.flatten_append, List.flatten_singleton]
  . intro n hn
    obtain ⟨hsize, hle⟩ := h n hn
    have hroom : t.room s = n - t.size := by
      unfold room
      rw [hn]
      rfl
    simp only [contents, List.reverse_cons, List.flatten_append, List.flatten_singleton, List.length_append,
      List.length_take, hroom] at hsize ⊢
    omega

theorem exists_applyAll_takes (h : t.Counts) (texts : List Octets) :
    ∃ t', Stroke.applyAll (texts.map .text) t =
        (if fits t.limit (t.contents ++ texts.flatten) then .ok () else .error t.refusal, t') ∧
      t.Takes texts.flatten t' := by
  induction texts generalizing t with
  | nil =>
    have hfits : fits t.limit (t.contents ++ [].flatten) := by
      rw [List.flatten_nil, List.append_nil]
      exact h.fits
    refine ⟨t, ?_, Takes.nil h⟩
    rw [if_pos hfits]
    rfl
  | cons s texts ih =>
    obtain ⟨t₁, hwrite, htakes₁⟩ := exists_write_takes h s
    rw [List.map_cons, Stroke.applyAll, Stroke.apply, hwrite, List.flatten_cons]
    by_cases hfits : fits t.limit (t.contents ++ s)
    . obtain ⟨t₂, happly, htakes₂⟩ := ih htakes₁.counts
      rw [htakes₁.contents, htakes₁.limit, htakes₁.refusal, upTo_of_fits hfits, List.append_assoc] at happly
      rw [if_pos hfits]
      exact ⟨t₂, happly, htakes₁.append hfits htakes₂⟩
    . have hwhole : ¬ fits t.limit (t.contents ++ (s ++ texts.flatten)) := by
        rw [← List.append_assoc]
        intro hall
        exact hfits (fits_left hall)
      rw [if_neg hfits, if_neg hwhole]
      exact ⟨t₁, rfl, htakes₁.append_of_not_fits hfits texts.flatten⟩

theorem flush_eq (t : Tape) : Sink.flush t = ((t.flushFault.map .error).getD (.ok ()), t) := by
  obtain ⟨color, limit, refusal, flushFault, styleFault, resetFault, chunks, size⟩ := t
  cases flushFault with
  | none => rfl
  | some fault => rfl

end KernelLog.Tape
