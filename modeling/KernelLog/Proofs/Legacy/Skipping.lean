import KernelLog.Proofs.Legacy.Eviction
import KernelLog.Proofs.Legacy.Record

/-!
This module relates the settings under which prefixes of the legacy encoding are parsed or stepped over. Main statement:
where all prefixes are well formed, the settings differ in nothing but the fields that they leave out.
-/

namespace KernelLog

def Pull.map {α β ε : Type} (f : α → β) : Pull α ε → Pull β ε
  | .found value => .found (f value)
  | .done => .done
  | .failed error => .failed error

namespace Legacy

def Decode.keep (which : Decode) (r : Record) : Record :=
  { r with
    priority := if which.priority then r.priority else none
    level := if which.priority then r.level else none
    facility := if which.priority then r.facility else none
    timestamp := if which.timestamp then r.timestamp else none }

/--
Each prefix that a line begins is read: a priority behind an opening angle bracket, and a time where one may begin.
-/
def Complete (line : Octets) : Prop :=
  (line.head? = some Octet.less → (decode .full line).priority.isSome) ∧
    (opens (readPriority true line).2 → (decode .full line).timestamp.isSome)

instance (line : Octets) : Decidable (Complete line) :=
  inferInstanceAs (Decidable (_ ∧ _))

theorem Label.readPriority_skip {label : Octets} {p : Priority} (h : Label label p) (rest : Octets) :
    readPriority false (label ++ rest) = (none, rest) := by
  obtain ⟨htext⟩ := h
  rw [List.cons_append, List.append_assoc, List.singleton_append, readPriority_false_less,
    after?_append (htext.not_mem rfl (by decide) rfl)]
  rfl

theorem Stamp.readTimestamp_skip {stamp : Octets} {t : Timestamp} (h : Stamp stamp t) (rest : Octets) :
    readTimestamp false (stamp ++ rest) = (none, dropSpace rest) := by
  obtain ⟨htext, hopens⟩ := h
  obtain ⟨b, body, heq, hb⟩ := opens_iff.mp hopens
  obtain rfl := (List.cons.inj heq).2
  have hbody : Octet.closeBracket ∉ body := fun hmem => htext.closeBracket_not_mem (List.mem_cons_of_mem b hmem)
  rw [List.cons_append, List.append_assoc, List.cons_append, readTimestamp_false_openBracket _ hb,
    List.singleton_append, after?_append hbody]
  rfl

theorem readPriority_eq {line : Octets} (h : line.head? = some Octet.less → (readPriority true line).1.isSome)
    (parse : Bool) :
    readPriority parse line = (if parse then (readPriority true line).1 else none, (readPriority true line).2) := by
  cases parse with
  | true => rfl
  | false =>
    rcases readPriority_cases line with ⟨p, label, rest, hlabel, rfl, hread⟩ | hread
    . rw [hread, hlabel.readPriority_skip]
      rfl
    . have hhead : line.head? ≠ some Octet.less := by
        intro hhead
        have hsome := h hhead
        rw [hread] at hsome
        cases hsome
      rw [hread, readPriority_of_head? hhead]
      rfl

theorem readTimestamp_eq {line : Octets} (h : opens line → (readTimestamp true line).1.isSome) (parse : Bool) :
    readTimestamp parse line =
      (if parse then (readTimestamp true line).1 else none, (readTimestamp true line).2) := by
  cases parse with
  | true => rfl
  | false =>
    rcases readTimestamp_cases line with ⟨t, stamp, rest, hstamp, rfl, hread⟩ | hread
    . rw [hread, hstamp.readTimestamp_skip]
      rfl
    . have hopens : opens line = false := by
        rw [Bool.eq_false_iff]
        intro hopens
        have hsome := h hopens
        rw [hread] at hsome
        cases hsome
      rw [hread, readTimestamp_of_not_opens hopens]
      rfl

theorem Complete.decode_eq_keep {line : Octets} (h : Complete line) (which : Decode) :
    decode which line = which.keep (decode .full line) := by
  obtain ⟨hpriority, htimestamp⟩ := h
  rw [decode_eq] at hpriority htimestamp
  have hlabel := readPriority_eq hpriority which.priority
  have hstamp := readTimestamp_eq htimestamp which.timestamp
  rw [decode_eq, decode_eq, hlabel]
  dsimp only
  rw [hstamp, Decode.keep]
  dsimp only [Decode.full]
  cases which.priority <;> rfl

namespace Reader

structure Clean (r : Reader) : Prop where
  readable : r.buffer.Readable r.cursor
  complete : ∀ line ∈ r.coming, Complete line
  full : r.decode = .full

theorem Clean.pullGranted {r : Reader} (h : r.Clean) (granted : Bool) (which : Decode) :
    (r.pullGranted granted).2.Clean ∧
      { r with decode := which }.pullGranted granted =
        ((r.pullGranted granted).1.map which.keep, { (r.pullGranted granted).2 with decode := which }) := by
  obtain ⟨hreadable, hcomplete, hfull⟩ := h
  have hrelease := hreadable.release granted
  have hcoming : r.coming = pieces ((r.buffer.release granted r.cursor).octetsFrom r.cursor) := by
    rw [hreadable.octetsFrom_release granted]
    rfl
  unfold Reader.pullGranted
  dsimp only
  rcases Buffer.span?_cases hrelease with ⟨hspan, -⟩ | ⟨span, p, ps, hspan, hpieces, hcovers⟩
  . rw [hspan]
    obtain ⟨hend, hnil⟩ := hrelease.octetsFrom_length
    refine ⟨⟨hend, ?_, hfull⟩, rfl⟩
    intro line hline
    rw [coming, hnil] at hline
    exact absurd hline List.not_mem_nil
  . rw [hspan]
    dsimp only
    rw [hcovers.record]
    rw [hcoming, hpieces] at hcomplete
    refine ⟨⟨hcovers.next, ?_, hfull⟩, ?_⟩
    . intro line hline
      rw [coming, hcovers.rest] at hline
      exact hcomplete line (List.mem_cons_of_mem p hline)
    . rw [(hcomplete p List.mem_cons_self).decode_eq_keep which, hfull]
      rfl

theorem Clean.afterGranted {r : Reader} (h : r.Clean) (grants : List Bool) (which : Decode) :
    (r.afterGranted grants).Clean ∧
      { r with decode := which }.afterGranted grants = { r.afterGranted grants with decode := which } := by
  induction grants generalizing r with
  | nil => exact ⟨h, rfl⟩
  | cons granted grants ih =>
    obtain ⟨hclean, hpull⟩ := h.pullGranted granted which
    rw [Reader.afterGranted, Reader.afterGranted, hpull]
    exact ih hclean

theorem clean_new {s : Snapshot} {pageSize : Nat} {buffer : Buffer}
    (hbuffer : buffer = .owned s ∨ buffer = .mapped (.ofContents pageSize s.toOctets))
    (hcomplete : ∀ line ∈ pieces s.toOctets, Complete line) : (Reader.new buffer .full).Clean := by
  have hagrees := agrees_new s pageSize .full
  rcases hbuffer with rfl | rfl
  . refine ⟨hagrees.buffer.readable, ?_, rfl⟩
    rwa [coming_new_owned]
  . exact ⟨hagrees.buffer.readable', hcomplete, rfl⟩

/--
Stepping over a prefix comes to the same as parsing it, as long as it is well formed. A line all of whose prefixes are
well formed has the same message under all settings, and each field has its value or is absent. Over a buffer of such
lines, a snapshot or a mapped file, readers under all settings stay at the same cursor and the same number of records.
-/
theorem skip_eq_parse :
    (∀ line, Complete line → ∀ which, Legacy.decode which line = which.keep (Legacy.decode .full line)) ∧
      ∀ (s : Snapshot) (pageSize : Nat) (buffer : Buffer),
        (buffer = .owned s ∨ buffer = .mapped (.ofContents pageSize s.toOctets)) →
        (∀ line ∈ pieces s.toOctets, Complete line) → ∀ which grants granted,
          let parsing := (Reader.new buffer .full).afterGranted grants
          let skipping := (Reader.new buffer which).afterGranted grants
          skipping.cursor = parsing.cursor ∧ skipping.records = parsing.records ∧
            (skipping.pullGranted granted).1 = (parsing.pullGranted granted).1.map which.keep := by
  refine ⟨fun line hline which => hline.decode_eq_keep which, ?_⟩
  intro s pageSize buffer hbuffer hcomplete which grants granted parsing skipping
  obtain ⟨hclean, hafter⟩ := (clean_new hbuffer hcomplete).afterGranted grants which
  have hskipping : skipping = { parsing with decode := which } := hafter
  obtain ⟨-, hpull⟩ := hclean.pullGranted granted which
  rw [hskipping, hpull]
  exact ⟨rfl, rfl, rfl⟩

theorem skip_eq_parse_mixed :
    let s := Snapshot.ofOctets (Octets.ofString "<+6>[    1.5] a\n<12>[ +7] b>]\n<3>c")
    let buffer := Buffer.mapped (.ofContents 4 s.toOctets)
    let which : Decode := { priority := false, timestamp := true }
    let skipping := (Reader.new buffer which).afterGranted [true]
    (∀ line ∈ pieces s.toOctets, Complete line) ∧
      (skipping.pullGranted true).1 =
        (((Reader.new buffer .full).afterGranted [true]).pullGranted true).1.map which.keep ∧
      (skipping.pullGranted true).1.found?.map (·.message) = some (Octets.ofString "b>]") ∧
      (skipping.pullGranted true).1.found?.map (·.timestamp) = some (some (.ofParts 7 0)) ∧
      (skipping.pullGranted true).1.found?.map (·.priority) = some none ∧
      skipping.records = 1 ∧ skipping.cursor = 16 := by
  intro s buffer which skipping
  have hcomplete : ∀ line ∈ pieces s.toOctets, Complete line := by decide +kernel
  refine ⟨hcomplete, (skip_eq_parse.2 s 4 buffer (.inr rfl) hcomplete which [true] true).2.2, ?_⟩
  decide +kernel

end Reader
end Legacy
end KernelLog
