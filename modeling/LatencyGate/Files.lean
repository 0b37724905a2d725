import LatencyGate.Report

namespace LatencyGate

inductive ReadFault where
  | notFound
  | notDirectory
  | isDirectory
  | nameTooLong
  | nulInPath
  | other (description : String)
  deriving DecidableEq

def ReadFault.message : ReadFault → String
  | .notFound => "No such file or directory (os error 2)"
  | .notDirectory => "Not a directory (os error 20)"
  | .isDirectory => "Is a directory (os error 21)"
  | .nameTooLong => "File name too long (os error 36)"
  | .nulInPath => "file name contained an unexpected NUL byte"
  | .other description => description

abbrev Files := String → Except ReadFault Bytes

/-! ## Paths -/

def components (path : List Char) : List (List Char) :=
  match path with
  | [] => [[]]
  | c :: rest =>
    if c = '/' then [] :: components rest
    else match components rest with
      | [] => [[c]]
      | part :: parts => (c :: part) :: parts

/-- A place relative to the working directory: steps upwards, as many as it takes, and then names. -/
abbrev Location := List (List Char)

def upwards : List Char := ['.', '.']

def staysInPlace (part : List Char) : Bool := part = [] ∨ part = ['.']

def Location.step (base : Location) (part : List Char) : Location :=
  if staysInPlace part then base
  else if part = upwards ∧ base ≠ [] ∧ base.getLast? ≠ some upwards then base.dropLast
  else base ++ [part]

def Location.trail (base : Location) : List (List Char) → List Location
  | [] => [base]
  | part :: rest => base :: trail (base.step part) rest

/-! ## Trees in memory -/

structure FileTree where
  files : List (String × Bytes)
  directories : List String

namespace FileTree

inductive Place where
  | directory (location : Location)
  | file (contents : Bytes)

def fileAt? (tree : FileTree) (location : Location) : Option Bytes :=
  (tree.files.reverse.find? fun (name, _) =>
    (components name.toList).foldl Location.step [] == location).map Prod.snd

def directoryTrails (tree : FileTree) : List Location :=
  tree.directories.flatMap (fun name => Location.trail [] (components name.toList)) ++
    tree.files.flatMap fun (name, _) => Location.trail [] (components name.toList).dropLast

/-- Whether there is a directory at a location. The working directory and all above it exist. -/
def hasDirectory (tree : FileTree) (location : Location) : Bool :=
  location.all (· == upwards) || tree.directoryTrails.contains location

def lookup (tree : FileTree) (location : Location) : Except ReadFault Place :=
  match tree.fileAt? location with
  | some contents => .ok (.file contents)
  | none => if tree.hasDirectory location then .ok (.directory location) else .error .notFound

def maxComponent : Nat := 255

@[inherit_doc maxComponent] def maxPath : Nat := 4095

def follow (tree : FileTree) (place : Place) (part : List Char) : Except ReadFault Place :=
  match place with
  | .file _ => .error .notDirectory
  | .directory base =>
    if staysInPlace part ∨ part = upwards then .ok (.directory (base.step part))
    else if maxComponent < (Utf8.encode part).length then .error .nameTooLong
    else tree.lookup (base.step part)

def walk (tree : FileTree) : Place → List (List Char) → Except ReadFault Place
  | place, [] => .ok place
  | place, part :: rest =>
    match tree.follow place part with
    | .error e => .error e
    | .ok next => tree.walk next rest

def read (tree : FileTree) : Files := fun path =>
  let cs := path.toList
  if '\x00' ∈ cs then .error .nulInPath
  else if cs = [] then .error .notFound
  else if maxPath < (Utf8.encode cs).length then .error .nameTooLong
  else
    let start : Location := if cs.head? = some '/' then [upwards] else []
    match tree.walk (.directory start) (components cs) with
    | .error e => .error e
    | .ok (.file contents) => .ok contents
    | .ok (.directory _) => .error .isDirectory

end FileTree

/-! ## Loading reports -/

inductive Failure where
  | unreadable (path : String) (fault : ReadFault)
  | malformed (path : String) (error : Json.ParseError)
  | unwritable
  deriving DecidableEq

def Failure.reason : Failure → String
  | .unreadable _ fault => fault.message
  | .malformed _ error => error.message
  | .unwritable => "failed to write whole buffer"

def Failure.message (failure : Failure) : String :=
  (match failure with
    | .unreadable path _ => "failed to read " ++ path ++ ": "
    | .malformed path _ => "invalid benchmark json in " ++ path ++ ": "
    | .unwritable => "failed to write report: ") ++ failure.reason

def Report.load (files : Files) (path : String) : Except Failure Report :=
  match files path with
  | .error fault => .error (.unreadable path fault)
  | .ok contents =>
    match Report.parse contents with
    | .error e => .error (.malformed path e)
    | .ok report => .ok report

end LatencyGate
