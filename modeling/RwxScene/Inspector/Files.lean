import RwxScene.Text.Cut
import RwxScene.Text.Lines

/-!
# Files

The inspector sees files through a function from paths to their bytes. `Folder` is such a function
for a folder with known content.
-/

namespace RwxScene.Inspector

/-- Why a path has no bytes. -/
inductive FileFault where
  | missing
  | isFolder
  /-- A part of the path in front of its end is a file. -/
  | notFolder
  | notAllowed
  /-- A name or the path as a whole has too many bytes. -/
  | tooLong
  /-- No path has the character with number zero in it. -/
  | nulByte
  /-- The bytes are there but are no text, where a text was wanted. -/
  | notText
  /-- Anything else that the system says. -/
  | other (message : String)
deriving DecidableEq

def FileFault.message : FileFault → String
  | .missing => "No such file or directory (os error 2)"
  | .isFolder => "Is a directory (os error 21)"
  | .notFolder => "Not a directory (os error 20)"
  | .notAllowed => "Permission denied (os error 13)"
  | .tooLong => "File name too long (os error 36)"
  | .nulByte => "file name contained an unexpected NUL byte"
  | .notText => "stream did not contain valid UTF-8"
  | .other message => message

/-- What a path leads to. -/
abbrev FileResult := Except FileFault ByteArray

/-- Something lies at the path. -/
def FileResult.isThere : FileResult → Bool
  | .error .missing => false
  | .error .notFolder => false
  | .error .tooLong => false
  | .error .nulByte => false
  | _ => true

/-! ### Paths -/

/-- No path has as many bytes as this. -/
def pathLimit : Nat := 4096

/-- No name has more bytes than this. -/
def nameLimit : Nat := 255

/-- The names on a path. -/
def names (path : String) : List (List Char) := Text.cut '/' path.toList

/-- The name leads nowhere else: nothing stands between two slashes, or a point alone. -/
def isIdle (name : List Char) : Bool := name = [] || name = ['.']

/-- The name leads back. -/
def isParent (name : List Char) : Bool := name = ['.', '.']

/-! ### Folders -/

/-- Files by their paths, which are names with a slash between each two. A path that ends in a slash
stands for a folder. -/
abbrev Folder := List (String × ByteArray)

/-- A place in a folder, by the names on the way to it. -/
abbrev Place := List (List Char)

namespace Folder

/-- The file at a place. -/
def file? (folder : Folder) (place : Place) : Option ByteArray :=
  (folder.find? fun (path, _) ↦ names path = place).map (·.2)

/-- There is something at the place or below it. -/
def reaches (folder : Folder) (place : Place) : Bool :=
  folder.any fun (path, _) ↦ place.isPrefixOf (names path)

/-- What a way leads to from a place. The way back from the outermost folder stays there. -/
def follow (folder : Folder) (place : Place) : List (List Char) → FileResult
  | [] =>
    match folder.file? place with
    | some bytes => .ok bytes
    | none => .error .isFolder
  | name :: way =>
    if (folder.file? place).isSome then .error .notFolder
    else if isIdle name then folder.follow place way
    else if isParent name then folder.follow place.dropLast way
    else if nameLimit < Text.byteLength name then .error .tooLong
    else if folder.reaches (place ++ [name]) then folder.follow (place ++ [name]) way
    else .error .missing

/-! ### The folder of a run -/

/-- What every system has: the usual folders, and the device that has nothing to read. -/
def system : Folder :=
  [("bin/", .empty), ("boot/", .empty), ("dev/null", .empty), ("etc/", .empty), ("home/", .empty),
    ("lib/", .empty), ("media/", .empty), ("mnt/", .empty), ("opt/", .empty), ("proc/", .empty),
    ("root/", .empty), ("run/", .empty), ("sbin/", .empty), ("srv/", .empty), ("sys/", .empty),
    ("tmp/", .empty), ("usr/bin/", .empty), ("usr/lib/", .empty), ("usr/local/", .empty),
    ("usr/share/", .empty), ("var/lib/", .empty), ("var/log/", .empty), ("var/tmp/", .empty)]

/-- Where the folder of a run lies in the system. -/
def home : String := "tmp/inspection"

/-- The system with the folder of a run in its place. -/
def installed (folder : Folder) : Folder :=
  system ++ (("", .empty) :: folder).map fun (path, bytes) ↦ (home ++ "/" ++ path, bytes)

/-- What a path leads to from inside the folder of a run. -/
def read (folder : Folder) (path : String) : FileResult :=
  let cs := path.toList
  if cs.contains (Char.ofNat 0) then .error .nulByte
  else if cs.isEmpty then .error .missing
  else if pathLimit ≤ Text.byteLength cs then .error .tooLong
  else folder.installed.follow (if ['/'].isPrefixOf cs then [] else names home) (names path)

end Folder

end RwxScene.Inspector
