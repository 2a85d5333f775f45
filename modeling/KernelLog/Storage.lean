import KernelLog.Fault
import KernelLog.Legacy.MappedFile

/-!
This module contains the storage that files are opened from.
-/

namespace KernelLog

inductive Entry where
  | file (contents : Octets)
  | directory (entries : List (String × Entry))

structure Storage where
  find : String → Except Fault Entry

namespace Storage

def notFound : Fault :=
  { kind := .notFound, message := "No such file or directory (os error 2)" }

def notADirectory : Fault :=
  { kind := .notADirectory, message := "Not a directory (os error 20)" }

def nameTooLong : Fault :=
  { kind := .invalidFilename, message := "File name too long (os error 36)" }

def nulInName : Fault :=
  { kind := .invalidInput, message := "file name contained an unexpected NUL byte" }

def empty : Storage :=
  { find := fun _ => .error notFound }

def walk (above : List Entry) (entry : Entry) : List String → Except Fault Entry
  | [] => .ok entry
  | name :: rest =>
    match entry with
    | .file _ => .error notADirectory
    | .directory entries =>
      if name = "" ∨ name = "." then
        walk above entry rest
      else if name = ".." then
        match above with
        | [] => walk [] entry rest
        | parent :: above => walk above parent rest
      else if 255 < name.utf8ByteSize then
        .error nameTooLong
      else
        match entries.lookup name with
        | some child => walk (entry :: above) child rest
        | none => .error notFound

def ofTree (root : Entry) (here : List String) : Storage :=
  { find := fun path =>
      if path.toList.contains '\x00' then
        .error nulInName
      else if path = "" then
        .error notFound
      else if 4096 ≤ path.utf8ByteSize then
        .error nameTooLong
      else if path.toList.head? = some '/' then
        walk [] root (path.splitOn "/")
      else
        walk [] root (here ++ path.splitOn "/") }

def map (storage : Storage) (path : String) : Except Fault MappedFile :=
  match storage.find path with
  | .ok (.file contents) => .ok (.ofContents MappedFile.systemPageSize contents)
  | .ok (.directory _) =>
    .error { kind := .uncategorized, message := "cannot mmap: " ++ path ++ ": ENODEV: No such device" }
  | .error fault => .error { fault with message := "cannot open " ++ path ++ ": " ++ fault.message }

end Storage
end KernelLog
