/-
Files as paths find them. A `FileTree` says what stands at each place; a path leads
through directories from one place to the next, and where it ends at no text, a
`Fault` says why.

A path is taken from the root if it begins with a slash and from the current
directory otherwise. Two names are special on the way: one point stays where it is,
two points lead back.
-/
import Admission.Error
import Admission.Text.Fields

set_option autoImplicit false

namespace Admission

/-- What stands at a place. -/
inductive FileEntry
  | directory
  | text (content : String)
  /-- a file whose octets are no text -/
  | octets
  deriving DecidableEq

/-- **Files and directories by place.** A place is given by the names on the way to
it from the root. -/
structure FileTree where
  /-- where paths without a slash in front begin -/
  current : List String
  entries : List (List String × FileEntry)

namespace FileTree

/-! ## Faults -/

/-- **Why there is no text under a path.** -/
inductive Fault
  | nulInPath
  | tooLong
  | throughFile
  | atDirectory
  | noText
  | missing
  deriving DecidableEq

/-- What a fault says, with the number that the system has for it if it has one. -/
def Fault.message : Fault → String
  | nulInPath => "file name contained an unexpected NUL byte"
  | tooLong => "File name too long (os error 36)"
  | throughFile => "Not a directory (os error 20)"
  | atDirectory => "Is a directory (os error 21)"
  | noText => "stream did not contain valid UTF-8"
  | missing => "No such file or directory (os error 2)"

/-- A fault as an error of this library. -/
def Fault.error (fault : Fault) : Error := .file fault.message

/-! ## Paths -/

/-- The most octets of a path. -/
def maxPathOctets : Nat := 4095

/-- The most octets of a name in a path. -/
def maxNameOctets : Nat := 255

/-- What stands at a place, if anything does. -/
def entry? (t : FileTree) (place : List String) : Option FileEntry :=
  if place.isEmpty then some .directory else t.entries.lookup place

/-- From a place to the one that a name leads to. -/
def step (t : FileTree) (place : List String) (name : String) : Except Fault (List String) :=
  match t.entry? place with
  | none => .error .missing
  | some (.text _) | some .octets => .error .throughFile
  | some .directory =>
    if name = "" ∨ name = "." then .ok place
    else if name = ".." then .ok place.dropLast
    else if maxNameOctets < name.utf8ByteSize then .error .tooLong
    else if (t.entry? (place ++ [name])).isNone then .error .missing
    else .ok (place ++ [name])

/-- The place that a path leads to. -/
def place (t : FileTree) (path : String) : Except Fault (List String) :=
  if path.toList.contains '\x00' then .error .nulInPath
  else if path = "" then .error .missing
  else if maxPathOctets < path.utf8ByteSize then .error .tooLong
  else (Text.split '/' path).foldlM t.step (if path.toList.head? = some '/' then [] else t.current)

/-- **The text under a path,** or why there is none. -/
def text (t : FileTree) (path : String) : Except Fault String := do
  match t.entry? (← t.place path) with
  | some (.text content) => .ok content
  | some .octets => .error .noText
  | some .directory => .error .atDirectory
  | none => .error .missing

/-- Reading a file. -/
def read (t : FileTree) (path : String) : Except Error String := (t.text path).mapError Fault.error

/-- A path with a NUL in it leads nowhere, whatever files there are. -/
theorem text_of_nul {t : FileTree} {path : String} (h : path.toList.contains '\x00' = true) :
    t.text path = .error .nulInPath := by
  simp only [text, place, h, if_true]
  rfl

/-! ## A bare system -/

/-- The directories that are on every system, below the root. -/
def commonDirectories : List (List String) :=
  [["bin"], ["boot"], ["dev"], ["dev", "pts"], ["dev", "shm"], ["etc"], ["home"], ["lib"], ["media"],
    ["mnt"], ["opt"], ["proc"], ["proc", "self"], ["root"], ["run"], ["sbin"], ["srv"], ["sys"],
    ["tmp"], ["usr"], ["usr", "bin"], ["usr", "lib"], ["usr", "local"], ["usr", "sbin"],
    ["usr", "share"], ["var"], ["var", "lib"], ["var", "log"], ["var", "tmp"]]

/-- The texts that are on every system: one that is empty, and what it says about its
users and its name. -/
def commonTexts : List (List String × String) :=
  [(["dev", "null"], ""), (["etc", "passwd"], "root:x:0:0:root:/root:/bin/sh\n"),
    (["etc", "group"], "root:x:0:\n"), (["etc", "hostname"], "localhost\n"),
    (["etc", "hosts"], "127.0.0.1 localhost\n")]

/-- Programs that are on every system. -/
def commonPrograms : List (List String) :=
  [["bin", "sh"], ["bin", "ls"], ["usr", "bin", "env"], ["usr", "bin", "sh"], ["usr", "bin", "ls"]]

/-- **What is on every system,** seen from a directory with nothing in it. -/
def bare : FileTree where
  current := ["home"]
  entries :=
    commonDirectories.map (·, .directory) ++
      commonTexts.map (fun (place, content) => (place, .text content)) ++
      commonPrograms.map (·, .octets)

end FileTree

end Admission
