import PortableQuery.Entries
import PortableQuery.Error

/-!
# File trees

Directories and the files in them, as far as a program can read them. A path is followed name by name,
so what stands in front of a slash must be a directory, even if the path goes back up from there.
-/

namespace PortableQuery.CommandLine

inductive FileTree
  | file (text : String)
  | directory (entries : List (String × FileTree))

namespace FileTree

def empty : FileTree := .directory []

/-- The longest name of a file, and the longest path, in bytes. -/
def longestName : Nat := 255
def longestPath : Nat := 4095

def pathNames (path : String) : List String := path.splitOn "/"

/-- A name that leaves one where one is. -/
def isHere (name : String) : Bool := name = "" || name = "."

/-- Puts a file at the end of a path, together with the directories on the way to it. -/
def insertAt (text : String) : List String → FileTree → FileTree
  | [], _ => .file text
  | name :: names, tree =>
    let entries := match tree with
      | .directory entries => entries
      | .file _ => []
    let inner := (Entries.get? entries name).getD empty
    .directory (Entries.insert name (insertAt text names inner) entries)

/-- The tree of files that are given by their paths. -/
def ofFiles (files : List (String × String)) : FileTree :=
  files.foldl (fun tree (path, text) =>
    insertAt text ((pathNames path).filter fun name => !isHere name) tree) empty

/-- Follows names from a place, given with the places above it. Of what lies above the topmost place
nothing is known but that it is a directory. -/
def walk (above : List FileTree) (place : FileTree) : List String → Except FileFault FileTree
  | [] => .ok place
  | name :: names =>
    match place with
    | .file _ => .error .notDirectory
    | .directory entries =>
      if isHere name then walk above place names
      else if name = ".." then
        match above with
        | upper :: above => walk above upper names
        | [] => walk [] empty names
      else if longestName < name.utf8ByteSize then .error .nameTooLong
      else match Entries.get? entries name with
        | some inner => walk (place :: above) inner names
        | none => .error .missing

/-- The text of the file at a path, which starts at the root if a slash stands in front and else in the
working directory. -/
def read (root working : FileTree) (path : String) : Except FileFault String :=
  if path = "" then .error .missing
  else if longestPath < path.utf8ByteSize then .error .nameTooLong
  else
    let start := if path.toList.head? == some '/' then root else working
    match walk [] start (pathNames path) with
    | .ok (.file text) => .ok text
    | .ok (.directory _) => .error .isDirectory
    | .error fault => .error fault

end FileTree

end PortableQuery.CommandLine
