import EmuControl.Order.SortedMap
import EmuControl.Text.Utf8

/-!
# Files

Files have names, in which slashes divide directories, and byte contents. A file can be written
where its directory exists.
-/
namespace EmuControl

inductive FileError where
  | notFound
  | notText
  | other (text : String)
  deriving DecidableEq, Repr

namespace FileError

def message : FileError → String
  | notFound => "No such file or directory (os error 2)"
  | notText => "stream did not contain valid UTF-8"
  | other text => text

end FileError

/-- Contents of files by name. -/
structure FileSystem where
  files : SortedMap String Bytes := .empty

namespace FileSystem

/-- The part of a name up to its last slash. -/
def directoryOf (name : String) : List Char :=
  (name.toList.reverse.dropWhile (· ≠ '/')).reverse

def read (fs : FileSystem) (name : String) : Except FileError Bytes :=
  match fs.files.get? name with
  | some contents => .ok contents
  | none => .error .notFound

/-- Whether a file of that name could be created. -/
def hasPlaceFor (fs : FileSystem) (name : String) : Bool :=
  !name.isEmpty &&
    ((directoryOf name).isEmpty || fs.files.keys.any fun k => directoryOf k == directoryOf name)

def write (fs : FileSystem) (name : String) (contents : Bytes) : Except FileError FileSystem :=
  if fs.hasPlaceFor name then .ok ⟨fs.files.insert name contents⟩ else .error .notFound

end FileSystem

end EmuControl
