import KernelLog.CommandLine.Arguments
import KernelLog.Proofs.Timestamp.Plain

/-!
This module relates the time that is given on the command line to the records that are accepted. Main statement: a
time is read to the microsecond, rounded down, and the time of a record, copied from where it is shown, excludes that
record and all that are not later.
-/

namespace KernelLog

theorem exists_of_bind_eq_ok {ε α β : Type} {x : Except ε α} {f : α → Except ε β} {b : β} (h : x >>= f = .ok b) :
    ∃ a, x = .ok a ∧ f a = .ok b := by
  cases x with
  | error e => cases h
  | ok a => exact ⟨a, rfl, h⟩

theorem exists_of_map_eq_ok {ε α β : Type} {x : Except ε α} {f : α → β} {b : β} (h : x.map f = .ok b) :
    ∃ a, x = .ok a ∧ f a = b := by
  cases x with
  | error e => cases h
  | ok a => exact ⟨a, rfl, Except.ok.inj h⟩

theorem Filter.accepts_iff (filter : Filter) (r : Record) :
    filter.accepts r ↔
      ∃ level t, r.level = some level ∧ level ≤ filter.minSeverity ∧ r.timestamp = some t ∧ filter.since < t := by
  unfold accepts
  split
  . next level t hlevel ht => simp [hlevel, ht]
  . next hnot =>
    simp only [Bool.false_eq_true, false_iff, not_exists, not_and]
    intro level t hlevel _ ht
    exact absurd ht (hnot level t hlevel)

namespace CommandLine
namespace Arguments

variable {given given' : Arguments}

theorem since_set {setting : Setting} {value : String} (h : given.since.isSome)
    (hset : given.set setting value = .ok given') : given'.since = given.since := by
  cases setting with
  | since =>
    obtain ⟨since, honce, -⟩ := exists_of_bind_eq_ok hset
    rw [once.eq_def, if_pos h] at honce
    cases honce
  | _ =>
    obtain ⟨value, -, heq⟩ := exists_of_bind_eq_ok hset
    cases heq
    rfl

theorem since_turnOn {switch : Switch} (h : given.turnOn switch = .ok given') : given'.since = given.since := by
  unfold turnOn at h
  split at h
  . cases h
  . cases h
    rfl

theorem since_position {argument : String} (h : given.position argument = .ok given') :
    given'.since = given.since := by
  unfold position at h
  split at h
  . cases h
  . split at h
    . cases h
      rfl
    . cases h

theorem since_long {body : List Char} {wanted : Option Setting} (h : given.since.isSome)
    (hlong : given.long body = .ok (given', wanted)) : given'.since = given.since := by
  unfold long at hlong
  dsimp only at hlong
  split at hlong
  . obtain ⟨given'', hset, heq⟩ := exists_of_map_eq_ok hlong
    cases heq
    exact since_set h hset
  . cases hlong
    rfl
  . obtain ⟨given'', hturn, heq⟩ := exists_of_map_eq_ok hlong
    cases heq
    exact since_turnOn hturn
  . cases hlong
  . cases hlong
  . cases hlong
  . cases hlong

theorem since_short {letters : List Char} {wanted : Option Setting} (h : given.since.isSome)
    (hshort : given.short letters = .ok (given', wanted)) : given'.since = given.since := by
  induction letters generalizing given with
  | nil =>
    cases hshort
    rfl
  | cons c rest ih =>
    unfold short at hshort
    split at hshort
    . split at hshort
      . next turned hturn =>
        have hsince := since_turnOn hturn
        rw [← hsince] at h ⊢
        exact ih h hshort
      . cases hshort
    . split at hshort
      . cases hshort
        rfl
      . obtain ⟨given'', hset, heq⟩ := exists_of_map_eq_ok hshort
        cases heq
        exact since_set h hset
      . obtain ⟨given'', hset, heq⟩ := exists_of_map_eq_ok hshort
        cases heq
        exact since_set h hset
    . cases hshort
    . cases hshort
    . cases hshort

theorem since_argument {s : String} {wanted : Option Setting} (h : given.since.isSome)
    (hargument : given.argument s = .ok (given', wanted)) : given'.since = given.since := by
  unfold argument at hargument
  split at hargument
  . exact since_long h hargument
  . obtain ⟨given'', hposition, heq⟩ := exists_of_map_eq_ok hargument
    cases heq
    exact since_position hposition
  . exact since_short h hargument
  . obtain ⟨given'', hposition, heq⟩ := exists_of_map_eq_ok hargument
    cases heq
    exact since_position hposition

theorem since_positions {arguments : List String} (h : arguments.foldlM position given = .ok given') :
    given'.since = given.since := by
  induction arguments generalizing given with
  | nil =>
    cases h
    rfl
  | cons s rest ih =>
    obtain ⟨given'', hposition, hrest⟩ := exists_of_bind_eq_ok h
    rw [ih hrest, since_position hposition]

theorem since_read {arguments : List String} (h : given.since.isSome) (hread : given.read arguments = .ok given') :
    given'.since = given.since := by
  fun_induction read given arguments with
  | case1 given =>
    cases hread
    rfl
  | case2 given rest => exact since_positions hread
  | case3 => cases hread
  | case4 given s rest _ reached hargument ih =>
    have hsince := since_argument h hargument
    rw [ih (hsince ▸ h) hread, hsince]
  | case5 => cases hread
  | case6 => cases hread
  | case7 => cases hread
  | case8 given s _ reached setting hargument value rest _ taken hset ih =>
    have hsince := since_argument h hargument
    have hvalue := since_set (hsince ▸ h) hset
    rw [ih (hvalue ▸ hsince ▸ h) hread, hvalue, hsince]

theorem since_set_since {value : String} {t : Timestamp} (hparse : Timestamp.parse value = .ok t)
    (hset : given.set .since value = .ok given') : given'.since = some t := by
  obtain ⟨since, honce, heq⟩ := exists_of_bind_eq_ok hset
  rw [once.eq_def, hparse] at honce
  split at honce
  . cases honce
  . cases honce
    cases heq
    rfl

theorem since_read_append {front rest : List String} {value : String} {t : Timestamp}
    (hparse : Timestamp.parse value = .ok t) (hfront : "--" ∉ front)
    (hread : given.read (front ++ "--since" :: value :: rest) = .ok given') : given'.since = some t := by
  generalize harguments : front ++ "--since" :: value :: rest = arguments at hread
  -- The option is not a value itself: what looks like an option never is one.
  fun_induction read given arguments generalizing front with
  | case1 => simp at harguments
  | case2 given rest' =>
    cases front with
    | nil => simp at harguments
    | cons s front' =>
      cases harguments
      exact absurd List.mem_cons_self hfront
  | case3 => cases hread
  | case4 given s rest' _ reached hargument ih =>
    cases front with
    | nil =>
      cases harguments
      cases hargument
    | cons s' front' =>
      cases harguments
      exact ih (fun h => hfront (List.mem_cons_of_mem _ h)) rfl hread
  | case5 => cases hread
  | case6 => cases hread
  | case7 => cases hread
  | case8 given s _ reached setting hargument value' rest' hvalue taken hset ih =>
    cases front with
    | nil =>
      cases harguments
      cases hargument
      have hsince := since_set_since hparse hset
      rw [since_read (hsince ▸ rfl) hread, hsince]
    | cons s' front' =>
      cases front' with
      | nil =>
        cases harguments
        exact absurd rfl hvalue
      | cons v front'' =>
        cases harguments
        exact ih (fun h => hfront (List.mem_cons_of_mem _ (List.mem_cons_of_mem _ h))) rfl hread

theorem since_parse {front rest : List String} {value : String} {t : Timestamp}
    (hparse : Timestamp.parse value = .ok t) (hfront : "--" ∉ front)
    (hread : parse (front ++ "--since" :: value :: rest) = .ok given) : given.since = some t := by
  obtain ⟨given', hread, hconflict⟩ := exists_of_bind_eq_ok hread
  split at hconflict
  . cases hconflict
  . cases hconflict
    exact since_read_append hparse hfront hread

theorem since_filter_config (given : Arguments) (offset : Int) :
    (given.config offset).filter.since = given.since.getD .zero :=
  rfl

theorem isOption_text (t : Timestamp) : isOption t.text = false := by
  have hdigit : ∀ c ∈ t.plain.whole, c.isDigit := t.plain.whole_isDigit
  obtain ⟨c, cs, hwhole⟩ := List.exists_cons_of_ne_nil t.plain.whole_ne_nil
  rw [hwhole] at hdigit
  have hdash : c ≠ '-' := ne_of_isDigit (hdigit c List.mem_cons_self) rfl
  rw [isOption, Timestamp.text_eq, String.toList_ofList, hwhole, List.cons_append]
  split
  . rfl
  . next heq => exact absurd (List.cons.inj heq).1 hdash
  . rfl

theorem parse_since_text (t : Timestamp) : parse ["--since", t.text] = .ok { none with since := some t } := by
  have hparse : Timestamp.parse t.text = .ok t := t.parse_text
  have hset : none.set .since t.text = .ok { none with since := some t } := by
    rw [set, hparse]
    rfl
  have hargument : none.argument "--since" = .ok (none, some .since) := rfl
  have hread : none.read ["--since", t.text] = .ok { none with since := some t } := by
    rw [read, if_neg (by decide), hargument]
    simp only [isOption_text, hset, Bool.false_eq_true, if_false]
    rw [read]
  rw [parse, hread]
  rfl

end Arguments

/--
A time in plain digits is read to the microsecond, rounded down, and so a larger number is never read as an earlier
time. The text of a time is read as that time. Given on the command line, the time of a record excludes that record,
and of the records that are severe enough it accepts those that are later.
-/
theorem since_exact :
    (∀ (p : Timestamp.Plain) (s : String), p.Spells s →
      ∃ t, Timestamp.parse s = .ok t ∧ t.sec.toNat = Nat.ofDigitChars 10 p.whole 0 ∧
        t.usec.val = ⌊p.fractional * 10 ^ 6⌋₊ ∧ (p.fraction = [] → t.usec = 0)) ∧
    (∀ (p p' : Timestamp.Plain) (s s' : String) (t t' : Timestamp), p.Spells s → p'.Spells s' →
      Timestamp.parse s = .ok t → Timestamp.parse s' = .ok t' → p.number ≤ p'.number → ¬t' < t) ∧
    (∀ t, Timestamp.parse t.text = .ok t) ∧
    (∀ t : Timestamp, Arguments.parse ["--since", t.text] = .ok { Arguments.none with since := some t }) ∧
    ∀ (r : Record) (t : Timestamp) (front rest : List String) (given : Arguments), r.timestamp = some t →
      "--" ∉ front → Arguments.parse (front ++ "--since" :: t.text :: rest) = .ok given →
      ∀ offset, (given.config offset).filter.accepts r = false ∧
        ∀ r' : Record, (given.config offset).filter.accepts r' ↔
          ∃ level t', r'.level = some level ∧ level ≤ (given.config offset).filter.minSeverity ∧
            r'.timestamp = some t' ∧ t < t' := by
  refine ⟨?_, ?_, Timestamp.parse_text, Arguments.parse_since_text, ?_⟩
  . intro p s hs
    obtain ⟨t, hparse, hsec, husec⟩ := hs.exists_parse_eq
    refine ⟨t, hparse, hsec, by rw [husec, p.floor_fractional], fun hfraction => ?_⟩
    rw [hfraction] at husec
    exact Fin.ext husec
  . intro p p' s s' t t' hs hs' hparse hparse' hnumber
    obtain ⟨u, hu, helapsed⟩ := hs.exists_elapsed_eq
    obtain ⟨u', hu', helapsed'⟩ := hs'.exists_elapsed_eq
    cases hparse.symm.trans hu
    cases hparse'.symm.trans hu'
    rw [← Timestamp.elapsed_le_elapsed_iff, helapsed, helapsed']
    exact Nat.floor_mono (mul_le_mul_of_nonneg_right hnumber (by positivity))
  . intro r t front rest given hr hfront hparse offset
    have hsince : (given.config offset).filter.since = t := by
      rw [Arguments.since_filter_config, Arguments.since_parse t.parse_text hfront hparse]
      rfl
    have haccepts := fun r' => (given.config offset).filter.accepts_iff r'
    rw [hsince] at haccepts
    refine ⟨?_, haccepts⟩
    rw [← Bool.not_eq_true, haccepts, hr]
    rintro ⟨_, t', -, -, ht', hlt⟩
    cases ht'
    exact Nat.lt_irrefl _ (Timestamp.elapsed_lt_elapsed_iff.mpr hlt)

theorem since_exact_cut :
    ∃ (p : Timestamp.Plain) (t : Timestamp) (r : Record), p.Spells " 5.1234567 " ∧ r.timestamp = some t ∧
      t.sec.toNat = 5 ∧ t.usec.val = ⌊p.fractional * 10 ^ 6⌋₊ ∧
      Timestamp.parse " 5.1234567 " = .ok t ∧ ¬t < t ∧
      Arguments.parse ["--since", t.text] = .ok { Arguments.none with since := some t } ∧
      Filter.accepts ({ Arguments.none with since := some t }.config 0).filter r = false := by
  let p : Timestamp.Plain :=
    { whole := ['5']
      fraction := ['1', '2', '3', '4', '5', '6', '7']
      whole_ne_nil := by simp
      whole_isDigit := by simp
      fraction_isDigit := by simp
      whole_lt := by decide }
  have hp : p.Spells (String.ofList ([' '] ++ (p.whole ++ '.' :: p.fraction ++ [' ']))) :=
    .mk (by simp [isWhiteSpace]) (by simp [isWhiteSpace]) (.inl rfl)
  obtain ⟨t, hparse, hsec, husec, -⟩ := since_exact.1 p " 5.1234567 " hp
  have harguments := since_exact.2.2.2.1 t
  let r := { Record.ofMessage [] with timestamp := some t }
  exact ⟨p, t, r, hp, rfl, hsec, husec, hparse, since_exact.2.1 p p _ _ t t hp hp hparse hparse le_rfl, harguments,
    (since_exact.2.2.2.2 r t [] [] _ rfl (by simp) harguments 0).1⟩

end CommandLine
end KernelLog
