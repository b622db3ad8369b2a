import Courier.Text.Segments

/-!
# Log files

A log file is named by a path, whose last segment is the file's name. The
directories above it are made where they are missing.
-/

namespace Courier
namespace Config

def pathSegments (path : String) : List String :=
  (Text.split '/' path).filter fun s => s != "" && s != "."

/-- The segments of a path from where it leads, or `none` if it leads out of there. -/
def resolve : List String → List String → Option (List String)
  | done, [] => some done.reverse
  | done, ".." :: rest =>
    match done with
    | [] => none
    | _ :: up => resolve up rest
  | done, segment :: rest => resolve (segment :: done) rest

inductive Entry where
  | file
  | directory
deriving DecidableEq, Repr

abbrev Entries := String → Option Entry

structure LogFile where
  rooted : Bool
  directory : List String
  name : String
deriving DecidableEq, Repr

namespace LogFile

def ofPath? (path : String) : Option LogFile :=
  match (pathSegments path).reverse with
  | [] => none
  | name :: above => if name = ".." then none
    else
      some ⟨path.toList.head? = some '/', above.reverse, name⟩

def pathOf (f : LogFile) (segments : List String) : String :=
  (if f.rooted then "/" else "") ++ "/".intercalate segments

def directories (f : LogFile) : List String :=
  (List.range f.directory.length).map fun i => f.pathOf (f.directory.take (i + 1))

def path (f : LogFile) : String := f.pathOf (f.directory ++ [f.name])

/-- Whether the file can be opened: nothing above it is a file, and it is no directory. -/
def canOpen (entries : Entries) (f : LogFile) : Bool :=
  f.directories.all (fun d => entries d != some .file) && entries f.path != some .directory

end LogFile
end Config
end Courier
