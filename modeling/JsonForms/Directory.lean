/-!
# Directories

A directory is a list of named files. A path is followed name by name from
there; what lies outside the directory is not known to hold any file.
-/

namespace JsonForms

/-- Why a file cannot be read as text. -/
inductive ReadError where
  | notFound
  | notDirectory
  | isDirectory
  | notText
  | other (description : String)
deriving DecidableEq, Repr

/-- The system's words for the error. -/
def ReadError.message : ReadError → String
  | .notFound => "No such file or directory (os error 2)"
  | .notDirectory => "Not a directory (os error 20)"
  | .isDirectory => "Is a directory (os error 21)"
  | .notText => "stream did not contain valid UTF-8"
  | .other description => description

/-- The files of a directory. -/
structure Directory where
  files : List (String × ByteArray)

namespace Directory

/-- Where a path has led so far. -/
inductive Place where
  | here
  | outside
  | file (contents : ByteArray)

/-- Follows one name. An empty name and a dot stay where they are, and a file
has nothing below it. -/
def step (directory : Directory) (place : Place) (name : String) : Except ReadError Place :=
  match place with
  | .file _ => .error .notDirectory
  | .outside =>
      if name = "" ∨ name = "." ∨ name = ".." then .ok .outside else .error .notFound
  | .here =>
      if name = "" ∨ name = "." then .ok .here
      else if name = ".." then .ok .outside
      else
        match directory.files.lookup name with
        | some contents => .ok (.file contents)
        | none => .error .notFound

/-- Follows names one after another. -/
def follow (directory : Directory) (place : Place) : List (List Char) → Except ReadError Place
  | [] => .ok place
  | name :: following =>
      match directory.step place (String.ofList name) with
      | .error error => .error error
      | .ok next => directory.follow next following

/-- Where a path leads. An absolute path starts outside, and an empty one leads nowhere. -/
def place (directory : Directory) (path : String) : Except ReadError Place :=
  match path.toList with
  | [] => .error .notFound
  | '/' :: following => directory.follow .outside (following.splitOn '/')
  | characters => directory.follow .here (characters.splitOn '/')

/-- The contents of the file that a path leads to. -/
def read (directory : Directory) (path : String) : Except ReadError ByteArray :=
  match directory.place path with
  | .error error => .error error
  | .ok (.file contents) => .ok contents
  | .ok _ => .error .isDirectory

end Directory

end JsonForms
