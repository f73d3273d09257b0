import NodeAttestation.Bytes

/-! A file as its user sees it: what reading gives, and what writing leaves. -/

namespace NodeAttestation

/-- Kinds of failure of files and connections. -/
inductive AccessKind where
  | notFound
  | permissionDenied
  | connectionReset
  | isDirectory
  | invalidData
  | timedOut
  | unexpectedEnd
  | other
deriving DecidableEq

namespace AccessKind

def name : AccessKind → String
  | notFound => "NotFound"
  | permissionDenied => "PermissionDenied"
  | connectionReset => "ConnectionReset"
  | isDirectory => "IsADirectory"
  | invalidData => "InvalidData"
  | timedOut => "TimedOut"
  | unexpectedEnd => "UnexpectedEof"
  | other => "Other"

def all : List AccessKind :=
  [notFound, permissionDenied, connectionReset, isDirectory, invalidData, timedOut, unexpectedEnd,
    other]

def ofName? (name : String) : Option AccessKind := all.find? (·.name == name)

def describe : AccessKind → String
  | notFound => "entity not found"
  | permissionDenied => "permission denied"
  | connectionReset => "connection reset"
  | isDirectory => "is a directory"
  | invalidData => "invalid data"
  | timedOut => "timed out"
  | unexpectedEnd => "unexpected end of file"
  | other => "other error"

end AccessKind

/-- A failure of a file or connection, with words of its own or those of its kind. -/
structure AccessError where
  kind : AccessKind
  detail : Option String
deriving DecidableEq

namespace AccessError

def message (e : AccessError) : String := e.detail.getD e.kind.describe

def noSuchFile : AccessError := ⟨.notFound, some "No such file or directory (os error 2)"⟩

def isDirectory : AccessError := ⟨.isDirectory, some "Is a directory (os error 21)"⟩

def notText : AccessError := ⟨.invalidData, some "stream did not contain valid UTF-8"⟩

end AccessError

/-- What a path leads to. -/
inductive File where
  | present (contents : Bytes)
  /-- Nothing yet, but a file can be put there. -/
  | absent
  /-- Nothing, nor a directory to put a file in. -/
  | unreachable
  | directory
deriving DecidableEq

namespace File

def readText : File → Except AccessError String
  | present contents =>
    match Bytes.toText? contents with
    | some text => .ok text
    | none => .error .notText
  | directory => .error .isDirectory
  | _ => .error .noSuchFile

/-- Writing replaces the contents of a file where there can be one and does nothing elsewhere. -/
def write (file : File) (contents : Bytes) : File :=
  match file with
  | present _ => present contents
  | absent => present contents
  | other => other

end File

end NodeAttestation
