import Retrace.Text.Bytes
import Retrace.Text.Described
import Retrace.Text.Search
/-!
Files in folders, and what goes wrong when a path does not lead where it should.
-/
namespace Retrace

open Text

/-- Why a file cannot be used. -/
inductive FileError where
  | notFound
  | isFolder
  | notFolder
  | nameTooLong
  | noText
  | other (text : String)
  | atPath (path : String) (error : FileError)
  deriving DecidableEq, Repr

namespace FileError

def message : FileError → String
  | notFound => "No such file or directory (os error 2)"
  | isFolder => "Is a directory (os error 21)"
  | notFolder => "Not a directory (os error 20)"
  | nameTooLong => "File name too long (os error 36)"
  | noText => "stream did not contain valid UTF-8"
  | other text => text
  | atPath path e => e.message ++ " at path " ++ String.ofList (describe path.toList)

end FileError

/-- What a file holds. -/
abbrev Contents := List Piece

/-- A file, or a folder of files. -/
inductive Entry where
  | file (contents : Contents)
  | folder (entries : List (String × Entry))

/-- The entries of a folder. -/
abbrev Folder := List (String × Entry)

namespace Folder

/-- The greatest number of bytes of a name. -/
def nameLimit : Nat := 255

def get? (f : Folder) (name : String) : Option Entry := f.lookup name

/-- The folder with an entry put under a name, or with none there. -/
def set (name : String) (e : Option Entry) : Folder → Folder
  | [] => e.toList.map fun e => (name, e)
  | (k, d) :: f =>
    if k = name then e.toList.map (fun e => (name, e)) ++ f else (k, d) :: set name e f

/-- Changes the entry at the end of a path; the folders before it have to be there. -/
def updateAt (change : Option Entry → Except FileError (Option Entry)) :
    List String → Folder → Except FileError Folder
  | [], _ => .error .isFolder
  | name :: path, f =>
    if nameLimit < name.utf8ByteSize then .error .nameTooLong
    else match path with
      | [] => (change (f.get? name)).map fun e => f.set name e
      | _ :: _ =>
        match f.get? name with
        | none => .error .notFound
        | some (.file _) => .error .notFolder
        | some (.folder inner) =>
          (updateAt change path inner).map fun inner => f.set name (some (.folder inner))

/-- The entry at the end of a path, or what is wrong with the path. -/
def find : List String → Folder → Except FileError Entry
  | [], f => .ok (.folder f)
  | name :: path, f =>
    if nameLimit < name.utf8ByteSize then .error .nameTooLong
    else match path, f.get? name with
      | _, none => .error .notFound
      | [], some e => .ok e
      | _ :: _, some (.file _) => .error .notFolder
      | _ :: _, some (.folder inner) => find path inner

def at? (path : List String) (f : Folder) : Option Entry := (f.find path).toOption

/-- Puts what a file is to hold into the place of an entry. -/
def fill (contents : Contents) : Option Entry → Except FileError (Option Entry)
  | some (.folder _) => .error .isFolder
  | _ => .ok (some (.file contents))

/-- Takes a file out of its place. -/
def vacate : Option Entry → Except FileError (Option Entry)
  | none => .error .notFound
  | some (.folder _) => .error .isFolder
  | some (.file _) => .ok none

/-- Puts an empty folder into a place where nothing is. -/
def build : Option Entry → Except FileError (Option Entry)
  | none => .ok (some (.folder []))
  | some _ => .error .isFolder

def write (path : List String) (contents : Contents) : Folder → Except FileError Folder :=
  updateAt (fill contents) path

def removeFile (path : List String) : Folder → Except FileError Folder := updateAt vacate path

/-- Removes a file or a folder with all that is in it. -/
def removeAll (path : List String) : Folder → Except FileError Folder :=
  updateAt (fun e => if e.isSome then .ok none else .error .notFound) path

def makeFolder (path : List String) : Folder → Except FileError Folder := updateAt build path

/-- What the file at the end of a path holds. -/
def read? (path : List String) (f : Folder) : Option Contents :=
  match f.at? path with
  | some (.file contents) => some contents
  | _ => none

def names (f : Folder) : List String := (f.map (·.1)).mergeSort fun a b => !(b < a)

end Folder

/-- Takes a name back when the next one leads to the folder around. -/
def stepInto (path : List String) (name : String) : List String :=
  if name = ".." then path.dropLast else path ++ [name]

/-- The path that leads on from a path. The names between the slashes may lead back; those that
lead nowhere are left out. -/
def pathFrom (path : List String) (s : String) : List String :=
  (((splitAt '/' s.toList).filter fun p => !p.isEmpty && p != ['.']).map String.ofList).foldl
    stepInto path

namespace Folder

/-- The text of the file at the end of a path. -/
def text (f : Folder) (path : String) : Except FileError String :=
  if path.isEmpty then .error .notFound
  else match f.find (pathFrom [] path) with
    | .ok (.file contents) =>
      if path.toList.getLast? = some '/' then .error .notFolder
      else match spelled? contents with
        | some cs => .ok (String.ofList cs)
        | none => .error .noText
    | .ok (.folder _) => .error .isFolder
    | .error e => .error e

/-- What comes of opening a file to write at its end. -/
def openToWrite (f : Folder) (path : String) : Except FileError Unit :=
  if path.isEmpty then .error .notFound
  else (updateAt (fun e => match e with
    | some (.folder _) => .error .isFolder
    | e => .ok e) (pathFrom [] path) f).map fun _ => ()

end Folder

end Retrace
