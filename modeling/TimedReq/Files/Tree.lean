import TimedReq.Files.Path
import TimedReq.Number.Decimal
import TimedReq.Text.Quoted

/-!
# Trees of files

The files below a working directory, as far as they are known. Places are named from the working
directory; the directories above it are known to exist and nothing else of them is.
-/

namespace TimedReq

/-- Why a file is not read or not written. -/
inductive FileError where
  | notFound
  | notDirectory
  | isDirectory
  | nameTooLong
  | other (code : Nat) (description : String)
deriving DecidableEq

namespace FileError

/-- The number of an error. -/
def code : FileError → Nat
  | notFound => 2
  | notDirectory => 20
  | isDirectory => 21
  | nameTooLong => 36
  | other code _ => code

/-- What an error says. -/
def description : FileError → String
  | notFound => "No such file or directory"
  | notDirectory => "Not a directory"
  | isDirectory => "Is a directory"
  | nameTooLong => "File name too long"
  | other _ description => description

/-- The error of a number. -/
def ofCode (code : Nat) (description : String) : FileError :=
  match [notFound, notDirectory, isDirectory, nameTooLong].find? (·.code == code) with
  | some e => e
  | none => other code description

/-- The report of an error at a path. -/
def message (e : FileError) (p : Path) : String :=
  "[Errno " ++ String.ofList (Number.numeral e.code) ++ "] " ++ e.description ++ ": " ++
    String.ofList (Text.quoted p.print)

/-- Whether the error says that there is nothing at a path. -/
def isAbsence : FileError → Bool
  | notFound | notDirectory => true
  | _ => false

end FileError

/-- A place: the names that lead there from the working directory. Those of places above it begin
with double dots, and those of absolute paths with a slash. -/
abbrev Place := List Text

namespace Place

/-- Whether a place is the working directory or a directory above it. -/
def isAbove (p : Place) : Bool := p.all (· == ['.', '.']) || p == [['/']]

/-- The directory of a place. -/
def parent (p : Place) : Place :=
  if p = [['/']] then p else if p.isAbove then p ++ [['.', '.']] else p.dropLast

/-- Whether a place is below the working directory. -/
def isBelow : Place → Bool
  | [] => false
  | name :: _ => name != ['.', '.'] && name != ['/']

end Place

/-- The directories and the files below a working directory, the files with their contents. -/
structure Tree where
  directories : List Place
  files : List (Place × Text)

namespace Tree

/-- The tree without files. -/
def empty : Tree := ⟨[], []⟩

/-- Whether there is a directory at a place. -/
def isDirectory (t : Tree) (p : Place) : Bool := p.isAbove || t.directories.contains p

/-- The content of the file at a place. -/
def content? (t : Tree) (p : Place) : Option Text := t.files.lookup p

/-- The greatest number of bytes in a name. -/
def nameLimit : Nat := 255

/-- The number of bytes in a text. -/
def byteSize (s : Text) : Nat := (String.ofList s).utf8ByteSize

/-- Goes from a place along names. What names lead through has to be a directory. -/
def walk (t : Tree) (place : Place) : List Text → Except FileError Place
  | [] => .ok place
  | name :: rest =>
    if !t.isDirectory place then
      .error (if (t.content? place).isSome then .notDirectory else .notFound)
    else if nameLimit < byteSize name then .error .nameTooLong
    else t.walk (if name = ['.', '.'] then place.parent else place ++ [name]) rest

/-- The place to which a path leads. -/
def locate (t : Tree) (p : Path) : Except FileError Place :=
  t.walk (if p.root = [] then [] else [['/']]) p.names

/-- The text of the file at a path; its line breaks are newlines. -/
def read (t : Tree) (p : Path) : Except FileError Text := do
  let place ← t.locate p
  if t.isDirectory place then .error .isDirectory
  else match t.content? place with
    | some content => .ok (Text.unifyNewlines content)
    | none => .error .notFound

/-- The tree with a content at a place. -/
def put (t : Tree) (place : Place) (content : Text) : Tree :=
  { t with files := (place, content) :: t.files.filter (·.1 ≠ place) }

/-- Writes the file at a path. Its directory has to be there. -/
def write (t : Tree) (p : Path) (content : Text) : Except FileError Tree := do
  let place ← t.locate p
  if t.isDirectory place then .error .isDirectory else return t.put place content

/-- Deletes the file at a path; its directory stays. -/
def delete (t : Tree) (p : Path) : Except FileError Tree := do
  let place ← t.locate p
  if t.isDirectory place then .error .isDirectory
  else if (t.content? place).isNone then .error .notFound
  else return { t with files := t.files.filter (·.1 ≠ place) }

/-- Makes the directories along names. -/
def makeDirectories (t : Tree) (names : List Text) : Tree :=
  let made := (List.range names.length).map fun n => names.take (n + 1)
  { t with directories := made ++ t.directories }

/-- Adds a file with the directories that lead to it. -/
def add (t : Tree) (p : Path) (content : Text) : Tree :=
  (t.makeDirectories p.names.dropLast).put p.names content

/-- The files below the working directory that are new in `after` or have another content there. -/
def changes (before after : Tree) : List (Path × Text) :=
  (after.files.filter fun (place, content) =>
    place.isBelow && before.content? place != some content).map fun (place, content) =>
      (⟨[], place⟩, content)

end Tree

end TimedReq
