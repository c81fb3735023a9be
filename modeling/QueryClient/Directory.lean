/-
  QueryClient/Directory.lean
  ==========================
  **The files that a run can reach**: a tree of files with their contents, each at a
  location below the root. A folder is the root, or what lies on the way to a file. A run
  works in one folder of the tree. A path that starts with a slash leads from the root,
  any other leads from there, and both may lead anywhere in the tree. Files are read and
  written whole. Writing makes a file where there is none, and never a folder.
-/
import QueryClient.Text.Utf8

namespace QueryClient

/-! ### Locations -/

/-- The names on the way from the root to a file or a folder. -/
abbrev Location := List String

/-- Files are told apart by their location. No path leads to a file with an empty name; one
    of these keeps a folder that holds nothing else. -/
structure Directory where
  files : List (Location × Bytes)
deriving DecidableEq, Repr

/-- Why a file cannot be used, with its path as it was given. -/
inductive FileFault where
  | unreadable (path : String)
  | unwritable (path : String)
deriving DecidableEq, Repr

def FileFault.message : FileFault → String
  | .unreadable path => "Failed to read " ++ path
  | .unwritable path => "Failed to write " ++ path

namespace Directory

def empty : Directory := ⟨[]⟩

/-- What the file at a location holds. -/
def contents? (d : Directory) (l : Location) : Option Bytes := d.files.lookup l

/-- Does a folder lie at the location? -/
def isFolder (d : Directory) (l : Location) : Bool :=
  l.isEmpty || d.files.any fun f => l.isPrefixOf f.1 && l.length < f.1.length

/-- The directory in which the file at a location holds the given bytes. -/
def put (d : Directory) (l : Location) (bs : Bytes) : Directory :=
  ⟨(l, bs) :: d.files.filter (·.1 != l)⟩

/-! ### Paths -/

/-- The longest name of a file, in bytes. -/
def longestName : Nat := 255

/-- The longest path that is followed, in bytes. -/
def longestPath : Nat := 4095

/-- Can a file have this name? -/
def isName (name : String) : Bool :=
  name.utf8ByteSize ≤ longestName && !name.toList.contains '\x00'

/-- The parts of a path, between its slashes. -/
def parts (path : String) : List String := (path.toList.splitOn '/').map String.ofList

/-- Does a path lead from the root? -/
def isAbsolute (path : String) : Bool := path.toList.head? == some '/'

/-- Where a part of a path leads from a location. Only from a folder does it lead
    anywhere; an empty part and a dot stay there, two dots go back, save from the root. -/
def step (d : Directory) (l : Location) (part : String) : Option Location :=
  if !d.isFolder l then none
  else if part = "" || part = "." then some l
  else if part = ".." then some l.dropLast
  else if isName part then some (l ++ [part])
  else none

/-- Where a path leads, for a run that works in the given folder, which is the root if none is
    given. -/
def locate? (d : Directory) (path : String) (working : Location := []) : Option Location :=
  if path = "" || longestPath < path.utf8ByteSize then none
  else (parts path).foldlM d.step (if isAbsolute path then [] else working)

/-! ### Files -/

/-- The contents of the file at a path. -/
def read (d : Directory) (path : String) (working : Location := []) : Except FileFault Bytes :=
  match (d.locate? path working).bind d.contents? with
  | some bs => .ok bs
  | none => .error (.unreadable path)

/-- Give the file at a path new contents. -/
def write (d : Directory) (path : String) (bs : Bytes) (working : Location := []) :
    Except FileFault Directory :=
  match d.locate? path working with
  | some l => if d.isFolder l then .error (.unwritable path) else .ok (d.put l bs)
  | none => .error (.unwritable path)

end Directory
end QueryClient
