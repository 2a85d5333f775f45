import KernelLog.Printer.Basic
import KernelLog.Printer.Tape
import KernelLog.Proofs.Printer.Shown
import KernelLog.Proofs.Tape

/-!
This module relates a printer with colors to one without. Main statement: what they print differs by the codes of
colors only, and no color is left behind.
-/

namespace KernelLog

@[match_pattern] abbrev Octet.esc : UInt8 := 27
@[match_pattern] abbrev Octet.lowerM : UInt8 := 109

namespace Tape

inductive Part where
  | octet (b : UInt8)
  | code (digits : Octets)
  deriving Repr, DecidableEq

namespace Part

def codeText (digits : Octets) : Octets :=
  Octet.esc :: Octet.openBracket :: (digits ++ [Octet.lowerM])

def digits? : Octets → Option Octets
  | Octet.esc :: Octet.openBracket :: rest =>
    let digits := rest.takeWhile Octet.isDigit
    if digits ≠ [] ∧ (rest.dropWhile Octet.isDigit).head? = some Octet.lowerM then some digits else none
  | _ => none

def octet? : Part → Option UInt8
  | .octet b => some b
  | .code _ => none

def code? : Part → Option Octets
  | .octet _ => none
  | .code digits => some (codeText digits)

end Part

def parts (s : Octets) : List Part :=
  match s with
  | [] => []
  | b :: rest =>
    match Part.digits? (b :: rest) with
    | some digits => .code digits :: parts (rest.drop (digits.length + 2))
    | none => .octet b :: parts rest
termination_by s.length

def withoutCodes (s : Octets) : Octets :=
  (parts s).filterMap Part.octet?

def codes (s : Octets) : List Octets :=
  (parts s).filterMap Part.code?

theorem Part.digits?_of_ne {b : UInt8} (h : b ≠ Octet.esc) (rest : Octets) : digits? (b :: rest) = none := by
  rw [digits?.eq_2]
  rintro rest' heq
  exact h (List.cons.inj heq).1

theorem Part.digits?_codeText_append {digits : Octets} (h : ∀ d ∈ digits, Octet.isDigit d) (hne : digits ≠ [])
    (rest : Octets) : digits? (codeText digits ++ rest) = some digits := by
  have hend : ∀ b ∈ (Octet.lowerM :: rest).head?, Octet.isDigit b = false := by
    rintro b ⟨⟩
    rfl
  obtain ⟨htake, hdrop⟩ := Decimal.takeWhile_append_of_head? h hend
  have htext : codeText digits ++ rest = Octet.esc :: Octet.openBracket :: (digits ++ Octet.lowerM :: rest) := by
    simp [codeText]
  have hread (s : Octets) : digits? (Octet.esc :: Octet.openBracket :: s) =
      if s.takeWhile Octet.isDigit ≠ [] ∧ (s.dropWhile Octet.isDigit).head? = some Octet.lowerM then
        some (s.takeWhile Octet.isDigit)
      else
        none := rfl
  rw [htext, hread, htake, hdrop]
  exact if_pos ⟨hne, rfl⟩

theorem parts_append_of_not_mem {s : Octets} (h : Octet.esc ∉ s) (rest : Octets) :
    parts (s ++ rest) = s.map .octet ++ parts rest := by
  induction s with
  | nil => rfl
  | cons b s ih =>
    rw [List.mem_cons, not_or] at h
    rw [List.cons_append, parts, Part.digits?_of_ne (Ne.symm h.1), ih h.2, List.map_cons, List.cons_append]

theorem parts_codeText_append {digits : Octets} (h : ∀ d ∈ digits, Octet.isDigit d) (hne : digits ≠ [])
    (rest : Octets) : parts (Part.codeText digits ++ rest) = .code digits :: parts rest := by
  have hdigits := Part.digits?_codeText_append h hne rest
  have htext : Part.codeText digits ++ rest =
      Octet.esc :: Octet.openBracket :: (digits ++ Octet.lowerM :: rest) := by
    simp [Part.codeText]
  have hbehind : (Octet.openBracket :: (digits ++ Octet.lowerM :: rest)).drop (digits.length + 2) = rest := by
    rw [List.drop_succ_cons, List.append_cons]
    exact List.drop_left' (by simp)
  rw [htext] at hdigits ⊢
  rw [parts, hdigits]
  exact congrArg (Part.code digits :: parts ·) hbehind

end Tape

namespace Stroke

def numbers : Stroke → List Nat
  | .text _ => []
  | .style .time => [0, 32]
  | .style .newTime => [0, 1, 32]
  | .style .alert => [0, 31]
  | .plain => [0]

def octets (color : Bool) : Stroke → Octets
  | .text s => s
  | .style s => if color then Tape.styleCode s else []
  | .plain => if color then Tape.resetCode else []

def parts : Stroke → List Tape.Part
  | .text s => s.map .octet
  | stroke => stroke.numbers.map fun n => .code (Decimal.digits n)

theorem octets_style (s : Style) :
    octets true (.style s) = (numbers (.style s)).flatMap fun n => Tape.Part.codeText (Decimal.digits n) := by
  cases s <;> decide +kernel

theorem resetCode_eq : Tape.resetCode = Tape.Part.codeText (Decimal.digits 0) := by
  decide +kernel

theorem octets_plain : octets true .plain = (numbers .plain).flatMap fun n => Tape.Part.codeText (Decimal.digits n) := by
  simp [octets, numbers, resetCode_eq]

theorem parts_numbers_append (ns : List Nat) (rest : Octets) :
    Tape.parts ((ns.flatMap fun n => Tape.Part.codeText (Decimal.digits n)) ++ rest) =
      (ns.map fun n => .code (Decimal.digits n)) ++ Tape.parts rest := by
  induction ns with
  | nil => rfl
  | cons n ns ih =>
    rw [List.flatMap_cons, List.append_assoc,
      Tape.parts_codeText_append (Decimal.isDigit_of_mem_digits n) (Decimal.digits_ne_nil n), ih, List.map_cons,
      List.cons_append]

theorem parts_flatMap_append {strokes : List Stroke} (h : ∀ s, .text s ∈ strokes → Octet.esc ∉ s) (rest : Octets) :
    Tape.parts (strokes.flatMap (octets true) ++ rest) = strokes.flatMap parts ++ Tape.parts rest := by
  induction strokes with
  | nil => rfl
  | cons stroke strokes ih =>
    have ih := ih fun s hs => h s (List.mem_cons_of_mem stroke hs)
    rw [List.flatMap_cons, List.append_assoc, List.flatMap_cons, List.append_assoc, ← ih]
    cases stroke with
    | text s => exact Tape.parts_append_of_not_mem (h s List.mem_cons_self) _
    | style s =>
      rw [octets_style]
      exact parts_numbers_append _ _
    | plain =>
      rw [octets_plain]
      exact parts_numbers_append _ _

theorem parts_flatMap {strokes : List Stroke} (h : ∀ s, .text s ∈ strokes → Octet.esc ∉ s) :
    Tape.parts (strokes.flatMap (octets true)) = strokes.flatMap parts := by
  have hparts := parts_flatMap_append h []
  rwa [List.append_nil, Tape.parts, List.append_nil] at hparts

theorem filterMap_octet?_parts (stroke : Stroke) :
    stroke.parts.filterMap Tape.Part.octet? = stroke.octets false := by
  have hcodes (ns : List Nat) : (ns.map fun n => Tape.Part.code (Decimal.digits n)).filterMap Tape.Part.octet? = [] := by
    simp [Tape.Part.octet?]
  cases stroke with
  | text s =>
    rw [parts, List.filterMap_map]
    exact List.filterMap_some
  | style s => exact hcodes _
  | plain => exact hcodes _

theorem filterMap_code?_parts (stroke : Stroke) :
    stroke.parts.filterMap Tape.Part.code? = stroke.numbers.map fun n => Tape.Part.codeText (Decimal.digits n) := by
  have hcodes (ns : List Nat) : (ns.map fun n => Tape.Part.code (Decimal.digits n)).filterMap Tape.Part.code? =
      ns.map fun n => Tape.Part.codeText (Decimal.digits n) := by
    rw [List.filterMap_map]
    exact congrFun List.filterMap_eq_map ns
  cases stroke with
  | text s => simp [parts, numbers, Tape.Part.code?]
  | style s => exact hcodes _
  | plain => exact hcodes _

theorem withoutCodes_flatMap {strokes : List Stroke} (h : ∀ s, .text s ∈ strokes → Octet.esc ∉ s) :
    Tape.withoutCodes (strokes.flatMap (octets true)) = strokes.flatMap (octets false) := by
  rw [Tape.withoutCodes, parts_flatMap h, List.filterMap_flatMap]
  simp only [filterMap_octet?_parts]

theorem codes_flatMap {strokes : List Stroke} (h : ∀ s, .text s ∈ strokes → Octet.esc ∉ s) :
    Tape.codes (strokes.flatMap (octets true)) =
      (strokes.flatMap numbers).map fun n => Tape.Part.codeText (Decimal.digits n) := by
  rw [Tape.codes, parts_flatMap h, List.filterMap_flatMap, List.map_flatMap]
  simp only [filterMap_code?_parts]

/--
Strokes set off some texts by colors and write the same texts as others do without: no text begins a code, and every
color is set right before a text and reset right behind it.
-/
inductive Decorate : List Stroke → List Stroke → Prop where
  | nil : Decorate [] []
  | text {s : Octets} {colored plain : List Stroke} : Octet.esc ∉ s → Decorate colored plain →
    Decorate (.text s :: colored) (.text s :: plain)
  | colored {style : Style} {s : Octets} {colored plain : List Stroke} : Octet.esc ∉ s → Decorate colored plain →
    Decorate (.style style :: .text s :: .plain :: colored) (.text s :: plain)

namespace Decorate

variable {cs cs' ps ps' : List Stroke}

theorem append (h : Decorate cs ps) (h' : Decorate cs' ps') : Decorate (cs ++ cs') (ps ++ ps') := by
  induction h with
  | nil => exact h'
  | text hs _ ih => exact .text hs ih
  | colored hs _ ih => exact .colored hs ih

theorem totalSize_eq (h : Decorate cs ps) : totalSize cs = totalSize ps := by
  induction h with
  | nil => rfl
  | text _ _ ih => rw [totalSize, totalSize, ih]
  | colored _ _ ih => simp [totalSize, size, ih]

theorem esc_not_mem (h : Decorate cs ps) : ∀ s, .text s ∈ cs → Octet.esc ∉ s := by
  induction h with
  | nil => simp
  | text hs _ ih =>
    intro s hmem
    rcases List.mem_cons.mp hmem with heq | hmem
    . cases heq
      exact hs
    . exact ih s hmem
  | colored hs _ ih =>
    intro s hmem
    simp only [List.mem_cons, reduceCtorEq, false_or, Stroke.text.injEq] at hmem
    rcases hmem with rfl | hmem
    . exact hs
    . exact ih s hmem

theorem flatMap_octets (h : Decorate cs ps) (color : Bool) :
    cs.flatMap (octets false) = ps.flatMap (octets color) := by
  induction h with
  | nil => rfl
  | text _ _ ih => rw [List.flatMap_cons, List.flatMap_cons, octets, octets, ih]
  | colored _ _ ih => simp [octets, ih]

theorem getLast?_numbers (h : Decorate cs ps) : ∀ n ∈ (cs.flatMap numbers).getLast?, n = 0 := by
  induction h with
  | nil => simp
  | text _ _ ih => exact ih
  | @colored style s colored plain _ _ ih =>
    have hnumbers : (.style style :: .text s :: .plain :: colored).flatMap numbers =
        numbers (.style style) ++ [0] ++ colored.flatMap numbers := by
      simp [numbers]
    intro n hn
    -- the last code of all is the reset of this text, or that of a text behind it
    rw [hnumbers, List.getLast?_append, List.getLast?_append] at hn
    cases hlast : (colored.flatMap numbers).getLast? with
    | none =>
      rw [hlast] at hn
      simpa using hn.symm
    | some k =>
      rw [hlast] at hn
      cases hn
      exact ih n hlast

end Decorate
end Stroke

theorem Line.decorate_strokes {line : Line} (hlabel : Octet.esc ∉ line.label) (htime : Octet.esc ∉ line.time)
    (hbody : Octet.esc ∉ line.body) : Stroke.Decorate (line.strokes true) (line.strokes false) := by
  have hcolored (on : Bool) (style : Style) {s : Octets} (hs : Octet.esc ∉ s) :
      Stroke.Decorate (if true && on then [.style style, .text s, .plain] else [.text s])
        (if false && on then [.style style, .text s, .plain] else [.text s]) := by
    cases on with
    | true => exact .colored hs .nil
    | false => exact .text hs .nil
  unfold strokes
  refine .append (.append ?_ ?_) (hcolored _ _ hbody)
  . split
    . exact .nil
    . exact .text hlabel .nil
  . split
    . exact .nil
    . exact hcolored _ _ htime

namespace Tape

structure Endless (t : Tape) : Prop where
  limit : t.limit = none
  styleFault : t.styleFault = none
  resetFault : t.resetFault = none

variable {t : Tape}

theorem Endless.exists_write (h : t.Endless) (s : Octets) :
    ∃ t', Sink.write s t = (.ok (), t') ∧ t'.Endless ∧ t'.color = t.color ∧ t'.contents = t.contents ++ s := by
  have hroom : t.room s = s.length := by
    rw [room, h.limit]
    rfl
  rw [write_eq, hroom, if_pos (Nat.le_refl _), List.take_length]
  refine ⟨_, rfl, ⟨h.limit, h.styleFault, h.resetFault⟩, rfl, ?_⟩
  rw [contents, contents, List.reverse_cons, List.flatten_append, List.flatten_singleton]

theorem Endless.exists_writeCode (h : t.Endless) (code : Octets) :
    ∃ t', t.writeCode none code = (.ok (), t') ∧ t'.Endless ∧ t'.color = t.color ∧
      t'.contents = t.contents ++ if t.color then code else [] := by
  unfold writeCode
  split
  . contradiction
  split
  . exact h.exists_write code
  . exact ⟨t, rfl, h, rfl, by simp⟩

theorem Endless.exists_apply (h : t.Endless) (stroke : Stroke) :
    ∃ t', stroke.apply t = (.ok (), t') ∧ t'.Endless ∧ t'.color = t.color ∧
      t'.contents = t.contents ++ stroke.octets t.color := by
  cases stroke with
  | text s => exact h.exists_write s
  | style s =>
    have hstyle : Stroke.apply (.style s) t = t.writeCode t.styleFault (styleCode s) := rfl
    rw [hstyle, h.styleFault]
    exact h.exists_writeCode (styleCode s)
  | plain =>
    have hreset : Stroke.apply .plain t = t.writeCode t.resetFault resetCode := rfl
    rw [hreset, h.resetFault]
    exact h.exists_writeCode resetCode

theorem Endless.exists_applyAll (h : t.Endless) (strokes : List Stroke) :
    ∃ t', Stroke.applyAll strokes t = (.ok (), t') ∧ t'.Endless ∧ t'.color = t.color ∧
      t'.contents = t.contents ++ strokes.flatMap (Stroke.octets t.color) := by
  induction strokes generalizing t with
  | nil => exact ⟨t, rfl, h, rfl, by simp⟩
  | cons stroke strokes ih =>
    obtain ⟨t', happly, h', hcolor, hcontents⟩ := h.exists_apply stroke
    obtain ⟨t'', happlyAll, h'', hcolor', hcontents'⟩ := ih h'
    refine ⟨t'', ?_, h'', hcolor'.trans hcolor, ?_⟩
    . rw [Stroke.applyAll, happly]
      exact happlyAll
    . rw [hcontents', hcontents, hcolor, List.append_assoc, List.flatMap_cons]

end Tape

namespace Printer

variable {ω : Type} [Sink ω]

def after (p : Printer ω) (rs : List Record) : Printer ω :=
  rs.foldl (fun p r => (p.print r).2) p

structure Twins (p q : Printer Tape) : Prop where
  layout : p.layout = q.layout
  last : p.last = q.last
  printed : p.printed = q.printed
  colored : p.color = true ∧ p.out.color = true
  plain : q.color = false
  endless : p.out.Endless ∧ q.out.Endless
  contents : ∃ cs ps, Stroke.Decorate cs ps ∧ p.out.contents = cs.flatMap (Stroke.octets true) ∧
    q.out.contents = ps.flatMap (Stroke.octets q.out.color)

theorem Twins.decorate_strokes {p q : Printer Tape} (h : p.Twins q) (r : Record) :
    Stroke.Decorate (p.strokes r) (q.strokes r) := by
  obtain ⟨hlabel, htime, hbody⟩ := Layout.control_not_mem_line q.layout q.last r (b := Octet.esc) (by decide)
  rw [strokes, strokes, h.layout, h.last, h.colored.1, h.plain]
  split
  . exact .text (by decide) .nil
  . exact Line.decorate_strokes hlabel htime hbody

theorem exists_print {p : Printer Tape} (h : p.out.Endless) (r : Record) :
    ∃ out, p.print r =
        (.ok (Stroke.totalSize (p.strokes r)),
          { p with out, last := p.remember r, printed := p.printed + Stroke.totalSize (p.strokes r) }) ∧
      out.Endless ∧ out.color = p.out.color ∧
      out.contents = p.out.contents ++ (p.strokes r).flatMap (Stroke.octets p.out.color) := by
  obtain ⟨out, happly, h'⟩ := h.exists_applyAll (p.strokes r)
  refine ⟨out, ?_, h'⟩
  rw [print, happly]

theorem Twins.exists_print {p q : Printer Tape} (h : p.Twins q) (r : Record) :
    ∃ n p' q', p.print r = (.ok n, p') ∧ q.print r = (.ok n, q') ∧ p'.Twins q' := by
  have hdecorate := h.decorate_strokes r
  obtain ⟨out, hprint, hendless, hcolor, hcontents⟩ := Printer.exists_print h.endless.1 r
  obtain ⟨out', hprint', hendless', hcolor', hcontents'⟩ := Printer.exists_print h.endless.2 r
  rw [← hdecorate.totalSize_eq] at hprint'
  refine ⟨_, _, _, hprint, hprint', ?_⟩
  obtain ⟨cs, ps, hwritten, hcs, hps⟩ := h.contents
  refine
    { layout := h.layout
      last := ?_
      printed := congrArg (· + _) h.printed
      colored := ⟨h.colored.1, hcolor.trans h.colored.2⟩
      plain := h.plain
      endless := ⟨hendless, hendless'⟩
      contents := ⟨cs ++ p.strokes r, ps ++ q.strokes r, hwritten.append hdecorate, ?_, ?_⟩ }
  . change p.remember r = q.remember r
    rw [remember, remember, h.layout, h.last]
  . change out.contents = _
    rw [hcontents, h.colored.2, hcs, List.flatMap_append]
  . change out'.contents = _
    rw [hcontents', hps, hcolor', List.flatMap_append]

theorem Twins.after {p q : Printer Tape} (h : p.Twins q) (rs : List Record) : (p.after rs).Twins (q.after rs) := by
  induction rs generalizing p q with
  | nil => exact h
  | cons r rs ih =>
    obtain ⟨n, p', q', hp, hq, h'⟩ := h.exists_print r
    have hrest := ih h'
    rw [Printer.after, Printer.after, List.foldl_cons, List.foldl_cons, hp, hq]
    exact hrest

theorem twins_new (layout : Layout) (ansi : Bool) :
    (new layout true { Tape.blank with color := true }).Twins (new layout false { Tape.blank with color := ansi }) where
  layout := rfl
  last := rfl
  printed := rfl
  colored := ⟨rfl, rfl⟩
  plain := rfl
  endless := ⟨⟨rfl, rfl, rfl⟩, rfl, rfl, rfl⟩
  contents := ⟨[], [], .nil, rfl, rfl⟩

/--
A printer with colors and one without print the same but for the codes of colors, whatever their settings are and
whatever the records hold. They count the same octets, for each record and in all, and behind each record no color is
in effect: the last code that was written, if there is any, is the one that ends all colors.
-/
theorem print_colored (layout : Layout) (ansi : Bool) (rs : List Record) (r : Record) :
    let colored := (new layout true { Tape.blank with color := true }).after rs
    let plain := (new layout false { Tape.blank with color := ansi }).after rs
    ∃ n colored' plain', colored.print r = (.ok n, colored') ∧ plain.print r = (.ok n, plain') ∧
      colored'.printed = plain'.printed ∧
      Tape.withoutCodes colored'.out.contents = plain'.out.contents ∧
      ∀ code ∈ (Tape.codes colored'.out.contents).getLast?, code = Tape.resetCode := by
  intro colored plain
  obtain ⟨n, colored', plain', hcolored, hplain, htwins⟩ := ((twins_new layout ansi).after rs).exists_print r
  obtain ⟨cs, ps, hdecorate, hcs, hps⟩ := htwins.contents
  refine ⟨n, colored', plain', hcolored, hplain, htwins.printed, ?_, ?_⟩
  . rw [hcs, hps, Stroke.withoutCodes_flatMap hdecorate.esc_not_mem, hdecorate.flatMap_octets]
  . intro code hcode
    rw [hcs, Stroke.codes_flatMap hdecorate.esc_not_mem, List.getLast?_map] at hcode
    obtain ⟨k, hk, rfl⟩ := Option.map_eq_some_iff.mp hcode
    rw [hdecorate.getLast?_numbers k hk, Stroke.resetCode_eq]

end Printer
end KernelLog
