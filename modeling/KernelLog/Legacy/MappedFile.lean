import KernelLog.Text.Octet

/-!
This module contains files that are mapped into memory and given back page by page from their beginning.
-/

namespace KernelLog

structure Extent where
  start : Nat
  length : Nat
  deriving Repr, DecidableEq

/--
A mapped file. Its octets before `window` are given back and cannot be read any more; `mapped` are those from
`window` on.
-/
structure MappedFile where
  mapped : Octets
  length : Nat
  pageSize : Nat
  window : Nat
  pagesReleased : Nat
  deriving Repr, DecidableEq

namespace MappedFile

def systemPageSize : Nat := 4096

def ofContents (pageSize : Nat) (contents : Octets) : MappedFile :=
  { mapped := contents
    length := contents.length
    pageSize
    window := 0
    pagesReleased := 0 }

def octetsFrom (m : MappedFile) (offset : Nat) : Octets :=
  if offset < m.window then [] else m.mapped.drop (offset - m.window)

/--
What there is to give back behind a cursor: all whole pages, once the cursor is more than one page past the
window.
-/
def behind? (m : MappedFile) (cursor : Nat) : Option Extent :=
  let consumed := min cursor m.length - m.window
  if consumed ≤ m.pageSize then
    none
  else
    some { start := m.window, length := consumed / m.pageSize * m.pageSize }

def release (m : MappedFile) (granted : Bool) (cursor : Nat) : MappedFile :=
  match m.behind? cursor with
  | some extent =>
    if granted then
      { m with
        mapped := m.mapped.drop extent.length
        window := m.window + extent.length
        pagesReleased := m.pagesReleased + extent.length / m.pageSize }
    else
      m
  | none => m

def released (m : MappedFile) (granted : Bool) (cursor : Nat) : Nat :=
  match m.behind? cursor with
  | some extent => if granted then extent.length / m.pageSize else 0
  | none => 0

def rest? (m : MappedFile) : Option Extent :=
  if m.window < m.length then
    some { start := m.window, length := m.length - m.window }
  else
    none

@[simp]
theorem length_release (m : MappedFile) (granted : Bool) (cursor : Nat) :
    (m.release granted cursor).length = m.length := by
  unfold release
  split
  . split <;> rfl
  . rfl

theorem window_le_window_release (m : MappedFile) (granted : Bool) (cursor : Nat) :
    m.window ≤ (m.release granted cursor).window := by
  unfold release
  split
  . split
    . exact Nat.le_add_right _ _
    . exact Nat.le_refl _
  . exact Nat.le_refl _

end MappedFile
end KernelLog
