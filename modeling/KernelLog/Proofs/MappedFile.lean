import KernelLog.Legacy.MappedFile

/-!
This module contains what becomes of a mapped file that is given back page by page. Main statement: whatever the
system grants, what is not given back reads as it does in the file, and in the end every page is given back once.
-/

namespace KernelLog

namespace Extent

def offsets (e : Extent) : List Nat :=
  List.range' e.start e.length

def pages (pageSize : Nat) (e : Extent) : List Nat :=
  List.range' (e.start / pageSize) ((e.length + pageSize - 1) / pageSize)

/--
Extents that begin at an offset and end at another one, each behind the one before it, and are made of whole pages.
-/
inductive Adjoin (pageSize : Nat) : Nat → Nat → List Extent → Prop where
  | nil (start : Nat) : Adjoin pageSize start start []
  | cons {start stop pages : Nat} {es : List Extent} : 0 < pages →
    Adjoin pageSize (start + pages * pageSize) stop es →
    Adjoin pageSize start stop ({ start, length := pages * pageSize } :: es)

namespace Adjoin

variable {pageSize start stop : Nat} {es : List Extent}

theorem le (h : Adjoin pageSize start stop es) : start ≤ stop := by
  induction h with
  | nil => apply Nat.le_refl
  | cons _ _ ih => omega

theorem flatMap_offsets (h : Adjoin pageSize start stop es) :
    es.flatMap offsets = List.range' start (stop - start) := by
  induction h with
  | nil => simp
  | @cons start stop pages es _ hes ih =>
    have hle := hes.le
    rw [List.flatMap_cons, ih, offsets, List.range'_append_1]
    congr 1
    dsimp only
    omega

theorem flatMap_pages (h : Adjoin pageSize start stop es) (hpageSize : 0 < pageSize) (hstart : pageSize ∣ start) :
    pageSize ∣ stop ∧ es.flatMap (pages pageSize) = List.range' (start / pageSize) (stop / pageSize - start / pageSize) := by
  induction h with
  | nil => simp [hstart]
  | @cons start stop pages es _ hes ih =>
    have hnext : pageSize ∣ start + pages * pageSize := (Nat.dvd_add_right hstart).mpr (Nat.dvd_mul_left _ _)
    have hdiv : (start + pages * pageSize) / pageSize = start / pageSize + pages :=
      Nat.add_mul_div_right _ _ hpageSize
    have hle : (start + pages * pageSize) / pageSize ≤ stop / pageSize := Nat.div_le_div_right hes.le
    have hpages : (pages * pageSize + pageSize - 1) / pageSize = pages := by
      rw [Nat.add_sub_assoc hpageSize, Nat.add_comm, Nat.add_mul_div_right _ _ hpageSize,
        Nat.div_eq_of_lt (by omega), Nat.zero_add]
    obtain ⟨hstop, hflatMap⟩ := ih hnext
    refine ⟨hstop, ?_⟩
    rw [List.flatMap_cons, hflatMap, Extent.pages, hpages, hdiv, List.range'_append_1]
    congr 1
    omega

theorem aligned (h : Adjoin pageSize start stop es) (hpageSize : 0 < pageSize) (hstart : pageSize ∣ start) :
    ∀ e ∈ es, pageSize ∣ e.start ∧ 0 < e.length := by
  induction h with
  | nil => simp
  | @cons start stop pages es hpages _ ih =>
    have hnext : pageSize ∣ start + pages * pageSize := (Nat.dvd_add_right hstart).mpr (Nat.dvd_mul_left _ _)
    intro e he
    rcases List.mem_cons.mp he with rfl | he
    . exact ⟨hstart, Nat.mul_pos hpages hpageSize⟩
    . exact ih hnext e he

end Adjoin
end Extent

namespace MappedFile

variable {file : MappedFile} {contents : Octets}

structure Shows (file : MappedFile) (contents : Octets) : Prop where
  mapped : file.mapped = contents.drop file.window
  length : file.length = contents.length

theorem Shows.octetsFrom (h : file.Shows contents) {offset : Nat} (hoffset : file.window ≤ offset) :
    file.octetsFrom offset = contents.drop offset := by
  rw [MappedFile.octetsFrom, if_neg (by omega), h.mapped, List.drop_drop]
  congr 1
  omega

theorem Shows.release (h : file.Shows contents) (granted : Bool) (cursor : Nat) :
    (file.release granted cursor).Shows contents := by
  refine ⟨?_, by rw [length_release, h.length]⟩
  unfold MappedFile.release
  split
  . split
    . rw [h.mapped, List.drop_drop]
    . exact h.mapped
  . exact h.mapped

@[simp]
theorem pageSize_release (file : MappedFile) (granted : Bool) (cursor : Nat) :
    (file.release granted cursor).pageSize = file.pageSize := by
  unfold release
  split
  . split <;> rfl
  . rfl

theorem release_cases (file : MappedFile) (hpageSize : 0 < file.pageSize) (granted : Bool) (cursor : Nat) :
    (file.behind? cursor = none ∧ min cursor file.length ≤ file.window + file.pageSize ∧
        file.release granted cursor = file ∧ file.released granted cursor = 0) ∨
      ∃ pages, 0 < pages ∧
        file.behind? cursor = some { start := file.window, length := pages * file.pageSize } ∧
        file.window + pages * file.pageSize ≤ min cursor file.length ∧
        min cursor file.length ≤ file.window + pages * file.pageSize + file.pageSize ∧
        ((granted = false ∧ file.release granted cursor = file ∧ file.released granted cursor = 0) ∨
          granted = true ∧ file.released granted cursor = pages ∧
            file.release granted cursor =
              { file with
                mapped := file.mapped.drop (pages * file.pageSize)
                window := file.window + pages * file.pageSize
                pagesReleased := file.pagesReleased + pages }) := by
  unfold release released
  by_cases hconsumed : min cursor file.length - file.window ≤ file.pageSize
  . have hbehind : file.behind? cursor = none := if_pos hconsumed
    rw [hbehind]
    exact .inl ⟨rfl, by omega, rfl, rfl⟩
  . obtain ⟨pages, hpages⟩ : ∃ pages, (min cursor file.length - file.window) / file.pageSize = pages := ⟨_, rfl⟩
    have hbehind : file.behind? cursor = some { start := file.window, length := pages * file.pageSize } := by
      rw [← hpages]
      exact if_neg hconsumed
    have hpos : 0 < pages := by
      rw [← hpages]
      apply Nat.div_pos _ hpageSize
      omega
    have hle := Nat.div_mul_le_self (min cursor file.length - file.window) file.pageSize
    have hlt := Nat.lt_div_mul_add hpageSize (a := min cursor file.length - file.window)
    rw [hpages] at hle hlt
    rw [hbehind]
    refine .inr ⟨pages, hpos, rfl, by omega, by omega, ?_⟩
    cases granted with
    | false => exact .inl ⟨rfl, rfl, rfl⟩
    | true =>
      simp only [↓reduceIte, Nat.mul_div_cancel _ hpageSize, true_and]
      exact .inr trivial

theorem min_cursor_le_window_release (file : MappedFile) {granted : Bool} {cursor : Nat}
    (hpageSize : 0 < file.pageSize) (h : granted = true ∨ file.behind? cursor = none) :
    min cursor file.length ≤ (file.release granted cursor).window + file.pageSize := by
  rcases file.release_cases hpageSize granted cursor with
    ⟨-, hle, hrelease, -⟩ | ⟨pages, -, hbehind, -, hle, ⟨rfl, -⟩ | ⟨-, -, hrelease⟩⟩
  . rwa [hrelease]
  . rw [hbehind] at h
    simp at h
  . rwa [hrelease]

theorem cursor_le_window_release (file : MappedFile) {granted : Bool} {cursor : Nat} (hpageSize : 0 < file.pageSize)
    (hcursor : cursor ≤ file.length) (h : granted = true ∨ file.behind? cursor = none) :
    cursor ≤ (file.release granted cursor).window + file.pageSize := by
  have hle := file.min_cursor_le_window_release hpageSize h
  rwa [Nat.min_eq_left hcursor] at hle

structure Release where
  cursor : Nat
  granted : Bool
  deriving Repr, DecidableEq

def after (file : MappedFile) : List Release → MappedFile
  | [] => file
  | call :: calls => (file.release call.granted call.cursor).after calls

def givenBack (file : MappedFile) : List Release → List Extent
  | [] => []
  | call :: calls =>
    ((file.behind? call.cursor).filter fun _ => call.granted).toList ++
      (file.release call.granted call.cursor).givenBack calls

structure Paged (file : MappedFile) : Prop where
  pageSize : 0 < file.pageSize
  window : file.window = file.pagesReleased * file.pageSize
  le_length : file.window ≤ file.length

theorem Paged.dvd (h : file.Paged) : file.pageSize ∣ file.window := by
  rw [h.window]
  apply Nat.dvd_mul_left

theorem paged_ofContents {pageSize : Nat} (hpageSize : 0 < pageSize) (contents : Octets) :
    (ofContents pageSize contents).Paged where
  pageSize := hpageSize
  window := (Nat.zero_mul pageSize).symm
  le_length := Nat.zero_le _

theorem Paged.release (h : file.Paged) (granted : Bool) (cursor : Nat) : (file.release granted cursor).Paged := by
  rcases file.release_cases h.pageSize granted cursor with
    ⟨-, -, hrelease, -⟩ | ⟨pages, -, -, hle, -, ⟨-, hrelease, -⟩ | ⟨-, -, hrelease⟩⟩
  . rwa [hrelease]
  . rwa [hrelease]
  . rw [hrelease]
    refine ⟨h.pageSize, ?_, ?_⟩
    . dsimp only
      rw [h.window, Nat.add_mul]
    . dsimp only
      omega

theorem Paged.pagesReleased_release (h : file.Paged) (granted : Bool) (cursor : Nat) :
    (file.release granted cursor).pagesReleased = file.pagesReleased + file.released granted cursor := by
  rcases file.release_cases h.pageSize granted cursor with
    ⟨-, -, hrelease, hcount⟩ | ⟨pages, -, -, -, -, ⟨-, hrelease, hcount⟩ | ⟨-, hcount, hrelease⟩⟩
  . rw [hrelease, hcount, Nat.add_zero]
  . rw [hrelease, hcount, Nat.add_zero]
  . rw [hrelease, hcount]

theorem Paged.window_release_cases (h : file.Paged) (call : Release) :
    (file.release call.granted call.cursor).window = file.window ∨
      call.granted ∧ (file.release call.granted call.cursor).window ≤ call.cursor := by
  rcases file.release_cases h.pageSize call.granted call.cursor with
    ⟨-, -, hrelease, -⟩ | ⟨pages, -, -, hle, -, ⟨-, hrelease, -⟩ | ⟨hgranted, -, hrelease⟩⟩
  . exact .inl (by rw [hrelease])
  . exact .inl (by rw [hrelease])
  . rw [hrelease]
    refine .inr ⟨hgranted, ?_⟩
    dsimp only
    omega

theorem Paged.after (h : file.Paged) (calls : List Release) : (file.after calls).Paged := by
  induction calls generalizing file with
  | nil => exact h
  | cons call calls ih => exact ih (h.release call.granted call.cursor)

theorem Shows.after (h : file.Shows contents) (calls : List Release) : (file.after calls).Shows contents := by
  induction calls generalizing file with
  | nil => exact h
  | cons call calls ih => exact ih (h.release call.granted call.cursor)

@[simp]
theorem pageSize_after (file : MappedFile) (calls : List Release) : (file.after calls).pageSize = file.pageSize := by
  induction calls generalizing file with
  | nil => rfl
  | cons call calls ih => rw [MappedFile.after, ih, pageSize_release]

theorem Paged.window_after_cases (h : file.Paged) (calls : List Release) :
    (file.after calls).window = file.window ∨
      ∃ call ∈ calls, call.granted ∧ (file.after calls).window ≤ call.cursor := by
  induction calls generalizing file with
  | nil => exact .inl rfl
  | cons call calls ih =>
    rcases ih (h.release call.granted call.cursor) with hrest | ⟨call', hmem, hcall'⟩
    . rw [MappedFile.after, hrest]
      rcases h.window_release_cases call with hwindow | hcursor
      . exact .inl hwindow
      . exact .inr ⟨call, List.mem_cons_self, hcursor⟩
    . exact .inr ⟨call', List.mem_cons_of_mem call hmem, hcall'⟩

theorem Paged.adjoin_release (h : file.Paged) (call : Release) {stop : Nat} {es : List Extent}
    (hes : Extent.Adjoin file.pageSize (file.release call.granted call.cursor).window stop es) :
    Extent.Adjoin file.pageSize file.window stop
      (((file.behind? call.cursor).filter fun _ => call.granted).toList ++ es) := by
  rcases file.release_cases h.pageSize call.granted call.cursor with
    ⟨hbehind, -, hrelease, -⟩ | ⟨pages, hpos, hbehind, -, -, ⟨hgranted, hrelease, -⟩ | ⟨hgranted, -, hrelease⟩⟩
  . rw [hrelease] at hes
    simpa [hbehind] using hes
  . rw [hrelease] at hes
    rw [hbehind, hgranted]
    exact hes
  . rw [hrelease] at hes
    rw [hbehind, hgranted]
    exact .cons hpos hes

theorem Paged.adjoin_givenBack (h : file.Paged) (calls : List Release) :
    Extent.Adjoin file.pageSize file.window (file.after calls).window (file.givenBack calls) := by
  induction calls generalizing file with
  | nil => exact .nil _
  | cons call calls ih =>
    have hrest := ih (h.release call.granted call.cursor)
    rw [pageSize_release] at hrest
    exact h.adjoin_release call hrest

theorem Paged.rest (h : file.Paged) :
    file.rest?.toList.flatMap Extent.offsets = List.range' file.window (file.length - file.window) ∧
      file.rest?.toList.flatMap (Extent.pages file.pageSize) =
        List.range' file.pagesReleased ((file.length + file.pageSize - 1) / file.pageSize - file.pagesReleased) ∧
      ∀ e ∈ file.rest?, file.pageSize ∣ e.start ∧ 0 < e.length := by
  have hcount : file.window / file.pageSize = file.pagesReleased := by
    rw [h.window, Nat.mul_div_cancel _ h.pageSize]
  -- the length is the window and what is left, so the numbers of pages differ by those in front of the window
  have hpages : (file.length - file.window + file.pageSize - 1) / file.pageSize + file.pagesReleased =
      (file.length + file.pageSize - 1) / file.pageSize := by
    rw [← Nat.add_mul_div_right _ _ h.pageSize, ← h.window]
    have hle := h.le_length
    have hpos := h.pageSize
    congr 1
    omega
  unfold rest?
  split
  . refine ⟨by simp [Extent.offsets], ?_, ?_⟩
    . rw [← hpages, Nat.add_sub_cancel]
      simp [Extent.pages, hcount]
    . rintro e ⟨⟩
      refine ⟨h.dvd, ?_⟩
      dsimp only
      omega
  . have hzero : file.length - file.window = 0 := by omega
    have hnone : (0 + file.pageSize - 1) / file.pageSize = 0 := by
      apply Nat.div_eq_of_lt
      have hpos := h.pageSize
      omega
    refine ⟨by simp [hzero], ?_, by simp⟩
    rw [← hpages, Nat.add_sub_cancel, hzero, hnone]
    rfl

theorem Paged.release_refused (h : file.Paged) (cursor : Nat) :
    file.release false cursor = file ∧ file.released false cursor = 0 := by
  rcases file.release_cases h.pageSize false cursor with
    ⟨-, -, hrelease⟩ | ⟨pages, -, -, -, -, ⟨-, hrelease⟩ | ⟨hgranted, -⟩⟩
  . exact hrelease
  . exact hrelease
  . cases hgranted

theorem Paged.window_div (h : file.Paged) : file.window / file.pageSize = file.pagesReleased := by
  rw [h.window, Nat.mul_div_cancel _ h.pageSize]

@[simp]
theorem length_after (file : MappedFile) (calls : List Release) : (file.after calls).length = file.length := by
  induction calls generalizing file with
  | nil => rfl
  | cons call calls ih => rw [MappedFile.after, ih, length_release]

theorem range'_append_sub {start middle stop : Nat} (hstart : start ≤ middle) (hstop : middle ≤ stop) :
    List.range' start (middle - start) ++ List.range' middle (stop - middle) = List.range' start (stop - start) := by
  obtain ⟨m, rfl⟩ := Nat.exists_eq_add_of_le hstart
  rw [Nat.add_sub_cancel_left, List.range'_append_1]
  congr 1
  omega

theorem Paged.flatMap_offsets (h : file.Paged) (calls : List Release) :
    (file.givenBack calls ++ (file.after calls).rest?.toList).flatMap Extent.offsets =
      List.range' file.window (file.length - file.window) := by
  have hadjoin := h.adjoin_givenBack calls
  have hstop := (h.after calls).le_length
  obtain ⟨hrest, -, -⟩ := (h.after calls).rest
  rw [length_after] at hstop hrest
  rw [List.flatMap_append, hadjoin.flatMap_offsets, hrest, range'_append_sub hadjoin.le hstop]

theorem Paged.flatMap_pages (h : file.Paged) (calls : List Release) :
    (file.givenBack calls ++ (file.after calls).rest?.toList).flatMap (Extent.pages file.pageSize) =
      List.range' file.pagesReleased ((file.length + file.pageSize - 1) / file.pageSize - file.pagesReleased) := by
  have hadjoin := h.adjoin_givenBack calls
  have hafter := h.after calls
  have hwindow := hafter.window_div
  have hlength := hafter.le_length
  obtain ⟨-, hpages⟩ := hadjoin.flatMap_pages h.pageSize h.dvd
  obtain ⟨-, hrest, -⟩ := hafter.rest
  rw [length_after] at hlength
  rw [pageSize_after] at hwindow
  rw [pageSize_after, length_after] at hrest
  rw [h.window_div, hwindow] at hpages
  have hstart : file.pagesReleased ≤ (file.after calls).pagesReleased := by
    rw [← h.window_div, ← hwindow]
    exact Nat.div_le_div_right hadjoin.le
  have hstop : (file.after calls).pagesReleased ≤ (file.length + file.pageSize - 1) / file.pageSize := by
    rw [← hwindow]
    apply Nat.div_le_div_right
    have hpos := h.pageSize
    omega
  rw [List.flatMap_append, hpages, hrest, range'_append_sub hstart hstop]

theorem Paged.aligned_givenBack (h : file.Paged) (calls : List Release) :
    ∀ e ∈ file.givenBack calls ++ (file.after calls).rest?.toList, file.pageSize ∣ e.start ∧ 0 < e.length := by
  intro e he
  rcases List.mem_append.mp he with he | he
  . exact (h.adjoin_givenBack calls).aligned h.pageSize h.dvd e he
  . obtain ⟨-, -, haligned⟩ := (h.after calls).rest
    rw [pageSize_after] at haligned
    apply haligned
    simpa using he

/--
A mapped file after any calls to give back what is behind a cursor, in any order and granted or not. The window stands
behind whole pages, as many as were given back, neither past the end nor past the cursor of every call, and the octets
from it on read as in the file. A call that is refused leaves all as it is; one that is not leaves at most one page
behind its cursor. What was given back are the octets in front of the window, each once and in order, and with what is
given back in the end these are all octets and all pages of the file.
-/
theorem given_back_once (contents : Octets) {pageSize : Nat} (hpageSize : 0 < pageSize) (calls : List Release) :
    let whole := ofContents pageSize contents
    let file := whole.after calls
    let extents := whole.givenBack calls ++ file.rest?.toList
    (pageSize ∣ file.window ∧ file.window = file.pagesReleased * pageSize ∧ file.window ≤ contents.length ∧
        (file.window = 0 ∨ ∃ call ∈ calls, call.granted ∧ file.window ≤ call.cursor)) ∧
      (∀ offset, file.window ≤ offset → file.octetsFrom offset = contents.drop offset) ∧
      (∀ granted cursor,
        let next := file.release granted cursor
        file.window ≤ next.window ∧ next.pagesReleased = file.pagesReleased + file.released granted cursor ∧
          (granted = false → next = file ∧ file.released granted cursor = 0) ∧
          (granted = true ∨ file.behind? cursor = none → min cursor contents.length ≤ next.window + pageSize)) ∧
      (whole.givenBack calls).flatMap Extent.offsets = List.range file.window ∧
      extents.flatMap Extent.offsets = List.range contents.length ∧
      extents.flatMap (Extent.pages pageSize) = List.range ((contents.length + pageSize - 1) / pageSize) ∧
      ∀ e ∈ extents, pageSize ∣ e.start ∧ 0 < e.length := by
  intro whole file extents
  have hwhole : whole.Paged := paged_ofContents hpageSize contents
  have hpaged : file.Paged := hwhole.after calls
  have hshows : file.Shows contents := Shows.after ⟨rfl, rfl⟩ calls
  have hsize : file.pageSize = pageSize := pageSize_after whole calls
  have hoffsets := (hwhole.adjoin_givenBack calls).flatMap_offsets
  have hdvd := hpaged.dvd
  have hwindow := hpaged.window
  have hle := hpaged.le_length
  rw [hsize] at hdvd hwindow
  rw [hshows.length] at hle
  refine ⟨⟨hdvd, hwindow, hle, hwhole.window_after_cases calls⟩, fun _ => hshows.octetsFrom, ?_, ?_, ?_, ?_,
    hwhole.aligned_givenBack calls⟩
  . intro granted cursor next
    refine ⟨file.window_le_window_release granted cursor, hpaged.pagesReleased_release granted cursor, ?_, ?_⟩
    . rintro rfl
      exact hpaged.release_refused cursor
    . intro hgranted
      have hbehind := file.min_cursor_le_window_release hpaged.pageSize hgranted
      rwa [hshows.length, hsize] at hbehind
  . rw [hoffsets, List.range_eq_range']
    rfl
  . rw [hwhole.flatMap_offsets calls, List.range_eq_range']
    rfl
  . rw [List.range_eq_range']
    exact hwhole.flatMap_pages calls

theorem given_back_once_refused :
    let whole := ofContents 4 [97, 98, 99, 100, 101, 102, 103, 104, 105, 106]
    let calls : List Release := [⟨5, true⟩, ⟨9, false⟩, ⟨3, true⟩, ⟨100, true⟩]
    let file := whole.after calls
    (whole.givenBack calls ++ file.rest?.toList).flatMap Extent.offsets = List.range 10 ∧
      whole.givenBack calls = [⟨0, 4⟩, ⟨4, 4⟩] ∧ file.rest? = some ⟨8, 2⟩ ∧ file.octetsFrom 8 = [105, 106] := by
  intro whole calls file
  have hpageSize : 0 < 4 := by decide
  obtain ⟨-, -, -, -, hoffsets, -⟩ :=
    given_back_once [97, 98, 99, 100, 101, 102, 103, 104, 105, 106] hpageSize calls
  exact ⟨hoffsets, by decide⟩

end MappedFile
end KernelLog
