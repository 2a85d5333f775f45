import KernelLog.Text.Utf8

/-!
This module relates the splitting of octets to the encoding of characters. Main statement: the pieces of octets
are the characters that are encoded in them and, between those, broken sequences that are as long as they can be.
-/

namespace KernelLog.Utf8

def encode (cs : List Char) : Octets :=
  cs.flatMap String.utf8EncodeChar

@[simp]
theorem encode_nil : encode [] = [] := rfl

@[simp]
theorem encode_cons (c : Char) (cs : List Char) : encode (c :: cs) = String.utf8EncodeChar c ++ encode cs := rfl

@[simp]
theorem encode_append (cs ds : List Char) : encode (cs ++ ds) = encode cs ++ encode ds := by
  simp [encode]

theorem toList_loop_eq (bs : ByteArray) (i : Nat) (r : List UInt8) :
    ByteArray.toList.loop bs i r = r.reverse ++ bs.data.toList.drop i := by
  fun_induction ByteArray.toList.loop bs i r with
  | case1 i r h ih =>
    have hi : i < bs.data.toList.length := by
      simpa using h
    have hget : bs.get! i = bs.data.toList[i] := by
      simp only [ByteArray.get!, Array.getElem_toList]
      exact getElem!_pos bs.data i h
    rw [ih, hget, List.reverse_cons, List.append_assoc, List.drop_eq_getElem_cons hi]
    rfl
  | case2 i r h =>
    rw [List.drop_eq_nil_of_le, List.append_nil]
    simpa using h

theorem ofString_ofList (cs : List Char) : Octets.ofString (String.ofList cs) = encode cs := by
  rw [Octets.ofString, String.toUTF8_eq_toByteArray, String.toByteArray_ofList, ByteArray.toList, toList_loop_eq]
  rw [List.utf8Encode, List.toList_data_toByteArray]
  rfl

theorem utf8EncodeChar_injective {c d : Char} (h : String.utf8EncodeChar c = String.utf8EncodeChar d) : c = d := by
  have hc := ByteArray.utf8DecodeChar?_utf8EncodeChar_append (b := ByteArray.empty) (c := c)
  have hd := ByteArray.utf8DecodeChar?_utf8EncodeChar_append (b := ByteArray.empty) (c := d)
  rw [h, hd] at hc
  simpa using hc.symm

theorem lead?_cases {b : UInt8} {lead : Lead} (h : lead? b = some lead) :
    (lead.follow = 0 ∧ b.toNat < 0x80 ∧ lead.bits = b.toNat ∧
        lead.low.toNat = 0x80 ∧ lead.high.toNat = 0xBF) ∨
      (lead.follow = 1 ∧ (0xC2 ≤ b.toNat ∧ b.toNat < 0xE0) ∧ lead.bits = b.toNat - 0xC0 ∧
        lead.low.toNat = 0x80 ∧ lead.high.toNat = 0xBF) ∨
      (lead.follow = 2 ∧ (0xE0 ≤ b.toNat ∧ b.toNat < 0xF0) ∧ lead.bits = b.toNat - 0xE0 ∧
        (b.toNat = 0xE0 ∧ lead.low.toNat = 0xA0 ∨ b.toNat ≠ 0xE0 ∧ lead.low.toNat = 0x80) ∧
        (b.toNat = 0xED ∧ lead.high.toNat = 0x9F ∨ b.toNat ≠ 0xED ∧ lead.high.toNat = 0xBF)) ∨
      (lead.follow = 3 ∧ (0xF0 ≤ b.toNat ∧ b.toNat < 0xF5) ∧ lead.bits = b.toNat - 0xF0 ∧
        (b.toNat = 0xF0 ∧ lead.low.toNat = 0x90 ∨ b.toNat ≠ 0xF0 ∧ lead.low.toNat = 0x80) ∧
        (b.toNat = 0xF4 ∧ lead.high.toNat = 0x8F ∨ b.toNat ≠ 0xF4 ∧ lead.high.toNat = 0xBF)) := by
  unfold lead? at h
  simp only [UInt8.lt_iff_toNat_lt, ← UInt8.toNat_inj, UInt8.reduceToNat] at h
  repeat' split at h
  all_goals simp only [Option.some.injEq, reduceCtorEq] at h
  all_goals
    rw [← h]
    grind

theorem exists_lead?_eq_some {b : UInt8} (h : b.toNat < 0x80 ∨ 0xC2 ≤ b.toNat ∧ b.toNat < 0xF5) :
    ∃ lead, lead? b = some lead := by
  rw [← Option.isSome_iff_exists]
  unfold lead?
  simp only [UInt8.lt_iff_toNat_lt, ← UInt8.toNat_inj, UInt8.reduceToNat]
  grind

def Continues : (follow : Nat) → (low high : UInt8) → Octets → Prop
  | 0, _, _, [] => True
  | follow + 1, low, high, b :: rest => (low ≤ b ∧ b ≤ high) ∧ Continues follow 0x80 0xBF rest
  | _, _, _, _ => False

theorem Continues.length {follow : Nat} {low high : UInt8} {tail : Octets} (h : Continues follow low high tail) :
    tail.length = follow := by
  fun_induction Continues follow low high tail with
  | case1 => rfl
  | case2 low high follow b rest ih => rw [List.length_cons, ih h.2]
  | case3 => exact h.elim

theorem Continues.continuation_append {follow : Nat} {low high : UInt8} {tail : Octets}
    (h : Continues follow low high tail) (rest : Octets) :
    continuation follow low high (tail ++ rest) = tail := by
  fun_induction Continues follow low high tail with
  | case1 => simp [continuation]
  | case2 low high follow b tail ih => rw [List.cons_append, continuation, if_pos h.1, ih h.2]
  | case3 => exact h.elim

theorem continues_continuation {follow : Nat} {low high : UInt8} {s : Octets}
    (h : (continuation follow low high s).length = follow) :
    Continues follow low high (continuation follow low high s) := by
  fun_induction continuation follow low high s with
  | case1 => trivial
  | case2 => simp at h
  | case3 low high follow b rest hb ih => exact ⟨hb, ih (by simpa using h)⟩
  | case4 => simp at h

theorem toNat_val_ofNat {n : Nat} (h : n < 0xD800 ∨ 0xDFFF < n ∧ n < 0x110000) :
    (Char.ofNat n).val.toNat = n := by
  rw [Char.ofNat, dif_pos h]
  rfl

theorem utf8EncodeChar_ofNat_toNat {b : UInt8} (hb : b.toNat < 0x80) :
    String.utf8EncodeChar (Char.ofNat b.toNat) = [b] := by
  rw [String.utf8EncodeChar, toNat_val_ofNat (by omega), if_pos (by omega), UInt8.ofNat_toNat]

theorem utf8EncodeChar_cases (c : Char) :
    (∃ b : UInt8, b.toNat = c.toNat ∧ c.toNat < 0x80 ∧ String.utf8EncodeChar c = [b]) ∨
      (0x80 ≤ c.toNat ∧ ∃ x y rest, String.utf8EncodeChar c = x :: y :: rest) := by
  unfold String.utf8EncodeChar
  have hval : c.val.toNat = c.toNat := rfl
  rw [hval]
  dsimp only
  split
  . refine .inl ⟨_, ?_, by omega, rfl⟩
    rw [UInt8.toNat_ofNat']
    omega
  . refine .inr ⟨by omega, ?_⟩
    split
    . exact ⟨_, _, _, rfl⟩
    . split
      . exact ⟨_, _, _, rfl⟩
      . exact ⟨_, _, _, rfl⟩

theorem utf8EncodeChar_scalar {b : UInt8} {lead : Lead} {tail : Octets} (hlead : lead? b = some lead)
    (h : Continues lead.follow lead.low lead.high tail) :
    String.utf8EncodeChar (Char.ofNat (scalar lead.bits tail)) = b :: tail := by
  rcases lead?_cases hlead with ⟨hfollow, hb⟩ | ⟨hfollow, hb⟩ | ⟨hfollow, hb⟩ | ⟨hfollow, hb⟩
  . rw [hfollow] at h
    match tail, h with
    | [], _ =>
      simp only [scalar, List.foldl]
      rw [String.utf8EncodeChar, toNat_val_ofNat (by omega), if_pos (by omega), hb.2.1, UInt8.ofNat_toNat]
  . rw [hfollow] at h
    match tail, h with
    | [x], h =>
      simp only [Continues, and_true, UInt8.le_iff_toNat_le] at h
      simp only [scalar, List.foldl]
      rw [String.utf8EncodeChar, toNat_val_ofNat (by omega), if_neg (by omega), if_pos (by omega)]
      simp only [List.cons.injEq, ← UInt8.toNat_inj, UInt8.toNat_ofNat', and_true]
      omega
  . rw [hfollow] at h
    match tail, h with
    | [x, y], h =>
      simp only [Continues, and_true, UInt8.le_iff_toNat_le, UInt8.reduceToNat] at h
      simp only [scalar, List.foldl]
      rw [String.utf8EncodeChar, toNat_val_ofNat (by omega), if_neg (by omega), if_neg (by omega),
        if_pos (by omega)]
      simp only [List.cons.injEq, ← UInt8.toNat_inj, UInt8.toNat_ofNat', and_true]
      omega
  . rw [hfollow] at h
    match tail, h with
    | [x, y, z], h =>
      simp only [Continues, and_true, UInt8.le_iff_toNat_le, UInt8.reduceToNat] at h
      simp only [scalar, List.foldl]
      rw [String.utf8EncodeChar, toNat_val_ofNat (by omega), if_neg (by omega), if_neg (by omega),
        if_neg (by omega)]
      simp only [List.cons.injEq, ← UInt8.toNat_inj, UInt8.toNat_ofNat', and_true]
      omega

theorem exists_utf8EncodeChar_eq_cons (c : Char) :
    ∃ b tail lead, String.utf8EncodeChar c = b :: tail ∧ lead? b = some lead ∧
      Continues lead.follow lead.low lead.high tail := by
  have hvalid : c.val.toNat < 0xD800 ∨ 0xDFFF < c.val.toNat ∧ c.val.toNat < 0x110000 := c.valid
  unfold String.utf8EncodeChar
  generalize c.val.toNat = v at hvalid
  -- the range of the number tells the class of its first octet, and that class the number of octets
  dsimp only
  split
  . obtain ⟨lead, hlead⟩ := exists_lead?_eq_some (b := .ofNat v) (by simp only [UInt8.toNat_ofNat']; omega)
    have := lead?_cases hlead
    simp only [UInt8.toNat_ofNat'] at this
    have hfollow : lead.follow = 0 := by omega
    refine ⟨_, _, lead, rfl, hlead, ?_⟩
    rw [hfollow]
    trivial
  split
  . obtain ⟨lead, hlead⟩ := exists_lead?_eq_some (b := .ofNat (v / 64 % 32 + 192))
      (by simp only [UInt8.toNat_ofNat']; omega)
    have := lead?_cases hlead
    simp only [UInt8.toNat_ofNat'] at this
    have hfollow : lead.follow = 1 := by omega
    refine ⟨_, _, lead, rfl, hlead, ?_⟩
    rw [hfollow]
    simp only [Continues, and_true, UInt8.le_iff_toNat_le, UInt8.toNat_ofNat']
    omega
  split
  . obtain ⟨lead, hlead⟩ := exists_lead?_eq_some (b := .ofNat (v / 4096 % 16 + 224))
      (by simp only [UInt8.toNat_ofNat']; omega)
    have := lead?_cases hlead
    simp only [UInt8.toNat_ofNat'] at this
    have hfollow : lead.follow = 2 := by omega
    refine ⟨_, _, lead, rfl, hlead, ?_⟩
    rw [hfollow]
    simp only [Continues, and_true, UInt8.le_iff_toNat_le, UInt8.toNat_ofNat', UInt8.reduceToNat]
    omega
  . obtain ⟨lead, hlead⟩ := exists_lead?_eq_some (b := .ofNat (v / 262144 % 8 + 240))
      (by simp only [UInt8.toNat_ofNat']; omega)
    have := lead?_cases hlead
    simp only [UInt8.toNat_ofNat'] at this
    have hfollow : lead.follow = 3 := by omega
    refine ⟨_, _, lead, rfl, hlead, ?_⟩
    rw [hfollow]
    simp only [Continues, and_true, UInt8.le_iff_toNat_le, UInt8.toNat_ofNat', UInt8.reduceToNat]
    omega

theorem piece_of_utf8EncodeChar {c : Char} {b : UInt8} {tail : Octets} (h : String.utf8EncodeChar c = b :: tail)
    (rest : Octets) : piece b (tail ++ rest) = .char c (b :: tail) := by
  obtain ⟨b', tail', lead, hencode, hlead, hcontinues⟩ := exists_utf8EncodeChar_eq_cons c
  obtain ⟨rfl, rfl⟩ : b = b' ∧ tail = tail' := by
    rw [h] at hencode
    simpa using hencode
  have hchar : Char.ofNat (scalar lead.bits tail) = c := by
    apply utf8EncodeChar_injective
    rw [utf8EncodeChar_scalar hlead hcontinues, h]
  unfold piece
  simp only [hlead, hcontinues.continuation_append, hcontinues.length, ↓reduceIte, hchar]

theorem octets_of_piece_eq_char {b : UInt8} {rest octets : Octets} {c : Char}
    (h : piece b rest = .char c octets) : octets = String.utf8EncodeChar c := by
  unfold piece at h
  split at h
  . cases h
  . next lead hlead =>
    dsimp only at h
    split at h
    . next hlength =>
      cases h
      rw [utf8EncodeChar_scalar hlead (continues_continuation hlength)]
    . cases h

theorem pieces_utf8EncodeChar_append (c : Char) (s : Octets) :
    pieces (String.utf8EncodeChar c ++ s) = .char c (String.utf8EncodeChar c) :: pieces s := by
  obtain ⟨b, tail, -, hencode, -, -⟩ := exists_utf8EncodeChar_eq_cons c
  rw [hencode, List.cons_append, pieces]
  simp only [piece_of_utf8EncodeChar hencode, Piece.octets, List.length_cons, Nat.add_sub_cancel, List.drop_left]

theorem pieces_encode (cs : List Char) :
    pieces (encode cs) = cs.map fun c => .char c (String.utf8EncodeChar c) := by
  induction cs with
  | nil => simp [pieces]
  | cons c cs ih => rw [encode_cons, pieces_utf8EncodeChar_append, ih, List.map_cons]

theorem lossy_encode (cs : List Char) : lossy (encode cs) = String.ofList cs := by
  rw [lossy, pieces_encode, List.map_map]
  exact congrArg String.ofList (List.map_id cs)

/--
Octets at the beginning of `s` that are broken off there: no character is encoded at the beginning of `s`, and they
are the longest that could have begun one, or a single octet.
-/
structure IsBroken (octets s : Octets) : Prop where
  noChar : ∀ c, ¬ String.utf8EncodeChar c <+: s
  begins : octets.length = 1 ∨ octets ≠ [] ∧ ∃ c, octets <+: String.utf8EncodeChar c
  longest : ∀ c p, p <+: String.utf8EncodeChar c → p <+: s → p.length ≤ octets.length

/--
The characters that are encoded in octets and the broken sequences between them.
-/
inductive Splits : Octets → List Piece → Prop where
  | nil : Splits [] []
  | char (c : Char) {s : Octets} {ps : List Piece} :
    Splits s ps → Splits (String.utf8EncodeChar c ++ s) (.char c (String.utf8EncodeChar c) :: ps)
  | broken {octets s : Octets} {ps : List Piece} :
    IsBroken octets (octets ++ s) → Splits s ps → Splits (octets ++ s) (.broken octets :: ps)

theorem isPrefix_continuation {follow : Nat} {low high : UInt8} {tail p s : Octets}
    (h : Continues follow low high tail) (htail : p <+: tail) (hs : p <+: s) :
    p <+: continuation follow low high s := by
  fun_induction Continues follow low high tail generalizing p s with
  | case1 =>
    rw [List.prefix_nil.mp htail]
    exact List.nil_prefix
  | case2 low high follow b tail ih =>
    cases p with
    | nil => exact List.nil_prefix
    | cons x p =>
      obtain ⟨rfl, hptail⟩ := List.cons_prefix_cons.mp htail
      cases s with
      | nil => simp at hs
      | cons y s =>
        obtain ⟨rfl, hps⟩ := List.cons_prefix_cons.mp hs
        rw [continuation, if_pos h.1]
        exact List.cons_prefix_cons.mpr ⟨rfl, ih h.2 hptail hps⟩
  | case3 => exact h.elim

theorem exists_continues (follow : Nat) {low high : UInt8} (h : low ≤ high) :
    ∃ tail, Continues follow low high tail := by
  induction follow generalizing low high with
  | zero => exact ⟨[], trivial⟩
  | succ follow ih =>
    obtain ⟨tail, htail⟩ := ih (show (0x80 : UInt8) ≤ 0xBF by decide)
    exact ⟨low :: tail, ⟨UInt8.le_refl low, h⟩, htail⟩

theorem exists_continues_append (follow : Nat) {low high : UInt8} (s : Octets) (h : low ≤ high) :
    ∃ more, Continues follow low high (continuation follow low high s ++ more) := by
  fun_induction continuation follow low high s with
  | case1 => exact ⟨[], trivial⟩
  | case2 => exact exists_continues _ h
  | case3 low high follow b rest hb ih =>
    obtain ⟨more, hmore⟩ := ih (by decide)
    exact ⟨more, hb, hmore⟩
  | case4 => exact exists_continues _ h

theorem low_le_high {b : UInt8} {lead : Lead} (h : lead? b = some lead) : lead.low ≤ lead.high := by
  have := lead?_cases h
  rw [UInt8.le_iff_toNat_le]
  omega

theorem octets_piece_isPrefix (b : UInt8) (rest : Octets) : (piece b rest).octets <+: b :: rest := by
  rw [octets_piece]
  exact List.cons_prefix_cons.mpr ⟨rfl, List.take_prefix _ _⟩

theorem isBroken_of_piece_eq_broken {b : UInt8} {rest octets : Octets} (h : piece b rest = .broken octets) :
    IsBroken octets (b :: rest) := by
  refine ⟨?_, ?_, ?_⟩
  . intro c hc
    obtain ⟨b', tail, -, hencode, -, -⟩ := exists_utf8EncodeChar_eq_cons c
    rw [hencode] at hc
    obtain ⟨rfl, rest', rfl⟩ := List.cons_prefix_cons.mp hc
    rw [piece_of_utf8EncodeChar hencode] at h
    cases h
  . unfold piece at h
    split at h
    . cases h
      exact .inl rfl
    . next lead hlead =>
      dsimp only at h
      split at h
      . cases h
      . cases h
        obtain ⟨more, hmore⟩ := exists_continues_append lead.follow rest (low_le_high hlead)
        obtain ⟨c, hencode⟩ : ∃ c, String.utf8EncodeChar c = b :: (_ ++ more) :=
          ⟨_, utf8EncodeChar_scalar hlead hmore⟩
        refine .inr ⟨by simp, c, ?_⟩
        rw [hencode]
        exact List.cons_prefix_cons.mpr ⟨rfl, List.prefix_append _ _⟩
  . intro c p hc hp
    obtain ⟨b', tail, lead, hencode, hlead, hcontinues⟩ := exists_utf8EncodeChar_eq_cons c
    rw [hencode] at hc
    cases p with
    | nil => exact Nat.zero_le _
    | cons x p =>
      obtain ⟨rfl, hptail⟩ := List.cons_prefix_cons.mp hc
      obtain ⟨rfl, hprest⟩ := List.cons_prefix_cons.mp hp
      have hlonger := isPrefix_continuation hcontinues hptail hprest
      unfold piece at h
      simp only [hlead] at h
      split at h
      . cases h
      . cases h
        exact Nat.succ_le_succ hlonger.length_le

theorem splits_pieces (s : Octets) : Splits s (pieces s) := by
  fun_induction pieces s with
  | case1 => exact .nil
  | case2 b rest first ih =>
    have hoctets : b :: rest = first.octets ++ rest.drop (first.octets.length - 1) := by
      calc b :: rest
        _ = b :: rest.take (first.octets.length - 1) ++ rest.drop (first.octets.length - 1) := by
          rw [List.cons_append, List.take_append_drop]
        _ = first.octets ++ rest.drop (first.octets.length - 1) := by
          rw [← octets_piece b rest]
    rw [hoctets]
    cases hfirst : first with
    | char c octets =>
      rw [hfirst] at ih
      rw [octets_of_piece_eq_char hfirst] at ih ⊢
      exact .char c ih
    | broken octets =>
      have hbroken := isBroken_of_piece_eq_broken hfirst
      rw [hoctets, hfirst] at hbroken
      rw [hfirst] at ih
      exact .broken hbroken ih

namespace IsBroken

variable {octets octets' s : Octets}

theorem length_le (h : IsBroken octets s) (h' : IsBroken octets' s) (hpre : octets <+: s) :
    octets.length ≤ octets'.length := by
  rcases h.begins with hone | ⟨-, c, hc⟩
  . rw [hone]
    rcases h'.begins with hone' | ⟨hne, -⟩
    . omega
    . exact List.length_pos_iff.mpr hne
  . exact h'.longest c octets hc hpre

theorem unique (h : IsBroken octets s) (h' : IsBroken octets' s) (hpre : octets <+: s) (hpre' : octets' <+: s) :
    octets = octets' := by
  have hle := h.length_le h' hpre
  have hle' := h'.length_le h hpre'
  apply (List.prefix_of_prefix_length_le hpre hpre' hle).eq_of_length
  omega

theorem piece_eq {b : UInt8} {o rest : Octets} (h : IsBroken (b :: o) (b :: (o ++ rest))) :
    piece b (o ++ rest) = .broken (b :: o) := by
  have hpre := octets_piece_isPrefix b (o ++ rest)
  cases hpiece : piece b (o ++ rest) with
  | char c octets =>
    rw [hpiece, Piece.octets, octets_of_piece_eq_char hpiece] at hpre
    exact absurd hpre (h.noChar c)
  | broken octets =>
    rw [hpiece, Piece.octets] at hpre
    rw [h.unique (isBroken_of_piece_eq_broken hpiece) ⟨rest, rfl⟩ hpre]

end IsBroken

theorem Splits.eq_pieces {s : Octets} {ps : List Piece} (h : Splits s ps) : ps = pieces s := by
  induction h with
  | nil => simp [pieces]
  | char c _ ih => rw [pieces_utf8EncodeChar_append, ih]
  | @broken octets s ps hbroken _ ih =>
    cases octets with
    | nil => simpa using hbroken.begins
    | cons b o =>
      rw [List.cons_append, pieces]
      simp only [hbroken.piece_eq, Piece.octets, List.length_cons, Nat.add_sub_cancel, List.drop_left, ih]

theorem continuation_append_of_lt {b : UInt8} (hb : b.toNat < 0x80) (follow : Nat) {low high : UInt8}
    (hlow : 0x80 ≤ low.toNat) (s rest : Octets) :
    continuation follow low high (s ++ b :: rest) = continuation follow low high s := by
  fun_induction continuation follow low high s with
  | case1 => simp [continuation]
  | case2 low high follow =>
    rw [List.nil_append, continuation, if_neg]
    rw [UInt8.le_iff_toNat_le]
    omega
  | case3 low high follow x s hx ih => rw [List.cons_append, continuation, if_pos hx, ih (by decide)]
  | case4 low high follow x s hx => rw [List.cons_append, continuation, if_neg hx]

theorem piece_append_of_lt {b : UInt8} (hb : b.toNat < 0x80) (x : UInt8) (s rest : Octets) :
    piece x (s ++ b :: rest) = piece x s := by
  unfold piece
  cases hlead : lead? x with
  | none => rfl
  | some lead =>
    have hlow : 0x80 ≤ lead.low.toNat := by
      have := lead?_cases hlead
      omega
    simp only [continuation_append_of_lt hb lead.follow hlow]

theorem pieces_append_of_lt {b : UInt8} (hb : b.toNat < 0x80) (s rest : Octets) :
    pieces (s ++ b :: rest) = pieces s ++ pieces (b :: rest) := by
  fun_induction pieces s with
  | case1 => rfl
  | case2 x s first ih =>
    have hlength : first.octets.length - 1 ≤ s.length := by
      have h : first.octets.length = _ := congrArg List.length (octets_piece x s)
      rw [List.length_cons, List.length_take] at h
      omega
    rw [List.cons_append, pieces, piece_append_of_lt hb, List.drop_append_of_le_length hlength, ih]
    rfl

theorem pieces_cons_of_lt {b : UInt8} (hb : b.toNat < 0x80) (rest : Octets) :
    pieces (b :: rest) = .char (Char.ofNat b.toNat) [b] :: pieces rest := by
  have h := pieces_utf8EncodeChar_append (Char.ofNat b.toNat) rest
  rwa [utf8EncodeChar_ofNat_toNat hb] at h

theorem not_mem_utf8EncodeChar_of_lt {b : UInt8} (hb : b.toNat < 0x80) {c : Char}
    (hc : 0x80 ≤ c.toNat) : b ∉ String.utf8EncodeChar c := by
  intro hmem
  obtain ⟨s, rest, hsplit⟩ := List.append_of_mem hmem
  -- an octet of ASCII would be a piece of its own
  have hpieces : pieces (String.utf8EncodeChar c) = [.char c (String.utf8EncodeChar c)] := by
    simpa using pieces_encode [c]
  rw [hsplit, pieces_append_of_lt hb, pieces_cons_of_lt hb, List.append_eq_singleton_iff] at hpieces
  rcases hpieces with ⟨-, hpieces⟩ | ⟨-, hpieces⟩
  . rcases utf8EncodeChar_cases c with ⟨-, -, hlt, -⟩ | ⟨-, x, y, tail, hencode⟩
    . omega
    . rw [← hsplit, hencode] at hpieces
      simp at hpieces
  . simp at hpieces

end KernelLog.Utf8
