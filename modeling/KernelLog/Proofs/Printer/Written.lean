import KernelLog.Proofs.Printer.Colors

/-!
This module contains what a printer does with any sink, and what it writes on one whose contents can be told, whichever
operations fail.
-/

namespace KernelLog

/--
A sink whose contents can be told. An operation that succeeds adds the octets that it stands for; of one that fails nothing
is known. The codes of colors are the sink's own, and it keeps to them.
-/
class Sink.Legible (ω : Type) [Sink ω] where
  contents : ω → Octets
  octets : ω → Stroke → Octets
  octets_text (out : ω) (s : Octets) : octets out (.text s) = s
  octets_apply (stroke : Stroke) (out : ω) : octets (stroke.apply out).2 = octets out
  contents_apply {stroke : Stroke} {out out' : ω} : stroke.apply out = (.ok (), out') →
    contents out' = contents out ++ octets out stroke

namespace Tape

theorem color_write (t : Tape) (s : Octets) : (Sink.write s t).2.color = t.color := by
  rw [write_eq]

theorem contents_write {t t' : Tape} {s : Octets} (h : Sink.write s t = (.ok (), t')) :
    t'.contents = t.contents ++ s := by
  rw [write_eq] at h
  split at h
  . next hroom =>
    rw [List.take_of_length_le hroom] at h
    cases h
    rw [contents, contents, List.reverse_cons, List.flatten_append, List.flatten_singleton]
  . cases h

theorem color_writeCode (t : Tape) (fault : Option Fault) (code : Octets) :
    (t.writeCode fault code).2.color = t.color := by
  unfold writeCode
  split
  . rfl
  split
  . exact t.color_write code
  . rfl

theorem contents_writeCode {t t' : Tape} {fault : Option Fault} {code : Octets}
    (h : t.writeCode fault code = (.ok (), t')) : t'.contents = t.contents ++ if t.color then code else [] := by
  unfold writeCode at h
  split at h
  . cases h
  split at h
  . next hcolor =>
    rw [if_pos hcolor]
    exact contents_write h
  . next hcolor =>
    cases h
    rw [if_neg hcolor, List.append_nil]

instance : Sink.Legible Tape where
  contents := contents
  octets t := Stroke.octets t.color
  octets_text _ _ := rfl
  octets_apply stroke t := by
    cases stroke with
    | text s => exact congrArg Stroke.octets (t.color_write s)
    | style s => exact congrArg Stroke.octets (t.color_writeCode t.styleFault (styleCode s))
    | plain => exact congrArg Stroke.octets (t.color_writeCode t.resetFault resetCode)
  contents_apply := by
    intro stroke t t' h
    cases stroke with
    | text s => exact contents_write h
    | style s => exact contents_writeCode h
    | plain => exact contents_writeCode h

end Tape

open Sink.Legible

namespace Stroke

variable {ω : Type} [Sink ω]

theorem applyAll_cons (stroke : Stroke) (strokes : List Stroke) (out : ω) :
    applyAll (stroke :: strokes) out =
      match (stroke.apply out).1 with
      | .ok () => applyAll strokes (stroke.apply out).2
      | .error fault => (.error fault, (stroke.apply out).2) := by
  rw [applyAll]
  rcases stroke.apply out with ⟨_ | _, out'⟩ <;> rfl

variable [Sink.Legible ω]

theorem octets_applyAll (strokes : List Stroke) (out : ω) :
    Sink.Legible.octets (applyAll strokes out).2 = Sink.Legible.octets out := by
  induction strokes generalizing out with
  | nil => rfl
  | cons stroke strokes ih =>
    rw [applyAll_cons]
    split
    . rw [ih, octets_apply]
    . exact octets_apply stroke out

theorem contents_applyAll {strokes : List Stroke} {out out' : ω} (h : applyAll strokes out = (.ok (), out')) :
    contents out' = contents out ++ strokes.flatMap (Sink.Legible.octets out) := by
  induction strokes generalizing out with
  | nil =>
    cases h
    simp
  | cons stroke strokes ih =>
    rw [applyAll] at h
    split at h
    . next out₁ happly =>
      have hoctets := octets_apply stroke out
      rw [happly] at hoctets
      rw [ih h, contents_apply happly, hoctets, List.flatMap_cons, List.append_assoc]
    . cases h

end Stroke

namespace Printer

variable {ω : Type} [Sink ω] (p : Printer ω) (r : Record)

theorem print_applies :
    (p.print r).1 = (Stroke.applyAll (p.strokes r) p.out).1.map (fun () => Stroke.totalSize (p.strokes r)) ∧
      (p.print r).2.out = (Stroke.applyAll (p.strokes r) p.out).2 := by
  rw [print]
  rcases Stroke.applyAll (p.strokes r) p.out with ⟨_ | _, out⟩ <;> exact ⟨rfl, rfl⟩

theorem print_keeps :
    (p.print r).2.layout = p.layout ∧ (p.print r).2.color = p.color ∧ (p.print r).2.last = p.remember r := by
  rw [print]
  rcases Stroke.applyAll (p.strokes r) p.out with ⟨_ | _, out⟩ <;> exact ⟨rfl, rfl, rfl⟩

variable [Sink.Legible ω] {p p' : Printer ω} {r}

theorem octets_out_print (p : Printer ω) (r : Record) :
    Sink.Legible.octets (p.print r).2.out = Sink.Legible.octets p.out := by
  rw [(p.print_applies r).2, Stroke.octets_applyAll]

theorem contents_out_print {n : Nat} (h : p.print r = (.ok n, p')) :
    contents p'.out = contents p.out ++ (p.strokes r).flatMap (Sink.Legible.octets p.out) ∧
      n = Stroke.totalSize (p.strokes r) := by
  rw [print] at h
  split at h
  . next out happly =>
    cases h
    exact ⟨Stroke.contents_applyAll happly, rfl⟩
  . cases h

end Printer
end KernelLog
