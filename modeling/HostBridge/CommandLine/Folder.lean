import HostBridge.CommandLine.System

/-!
# Folders

The files that a run of the program can read, held in memory. `Folder.read?` follows a path as a file
system does, from the root or from the folder in which the program runs: empty parts of a path and
single dots stay where they are, two dots lead back, a link leads to its own location, and every
part but the last must be a folder. A path that ends at a folder leads to nothing that can be read,
and neither does one that is too long or meets too many links.
-/

set_option autoImplicit false

namespace HostBridge.CommandLine

/-- What is on a system. -/
structure Folder where
  /-- All files with their texts. -/
  files : List (Location × String)
  /-- Folders, besides those in which there is a file. -/
  folders : List Location
  /-- Links with the locations to which they lead. -/
  links : List (Location × Location)
  deriving DecidableEq, Repr

namespace Folder

/-! ## Paths -/

/-- The longest path in bytes. -/
def maxPathSize : Nat := 4095

/-- The number of links that a path may meet. -/
def maxLinks : Nat := 40

/-- Whether a part of a path stays where it is. -/
def staysPut (part : String) : Bool := part = "" || part = "."

/-- The parts of a path between its slashes. -/
def parts (path : String) : List String := path.splitOn "/"

/-! ## Looking up -/

/-- The system on which the program runs in a folder with the given files. The empty text stands for
all texts that are no JSON. -/
def ofList (files : List (String × String)) : Folder where
  files := files.map (fun (path, text) => (Location.home ++ (parts path).filter (!staysPut ·), text))
    ++ Location.systemFiles.map (·, "")
  folders := Location.home :: Location.systemFolders
  links := Location.systemLinks

/-- Whether there is a folder at a location. -/
def isFolder (f : Folder) (here : Location) : Bool :=
  f.folders.contains here
    || f.files.any fun (file, _) => here.isPrefixOf file && here.length < file.length

/-- The text of the file to which the parts of a path lead from a location that is a folder, if they
meet at most `links` links. The parts of a link's location take its place in the path. -/
def walk? (f : Folder) (links : Nat) (here : Location) : List String → Option String
  | [] => none
  | part :: rest =>
    if staysPut part then f.walk? links here rest
    else if part = ".." then f.walk? links here.dropLast rest
    else
      let next := here ++ [part]
      match links, f.links.lookup next with
      | 0, some _ => none
      | links + 1, some target => f.walk? links [] (target ++ rest)
      | links, none =>
        match f.files.lookup next with
        | some text => if rest.isEmpty then some text else none
        | none => if f.isFolder next then f.walk? links next rest else none
termination_by parts => (links, parts.length)

/-- The text of the file to which a path leads. -/
def read? (f : Folder) (path : String) : Option String :=
  if path.utf8ByteSize ≤ maxPathSize then
    f.walk? maxLinks (if path.startsWith "/" then [] else Location.home) (parts path)
  else none

end Folder

end HostBridge.CommandLine
