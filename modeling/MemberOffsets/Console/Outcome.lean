import MemberOffsets.Config
import MemberOffsets.Console.Arguments
import MemberOffsets.Console.Disk
import MemberOffsets.Layout.Resolution
import MemberOffsets.Pdb.Reader

set_option autoImplicit false

namespace MemberOffsets

open Text

inductive ConfigFailure where
  | unreadable (fault : FileFault)
  | notText
  | json (error : JsonError)
  | invalid (problem : ConfigProblem)
deriving DecidableEq, Repr

def ConfigFailure.message (path : Text) : ConfigFailure → Text
  | .unreadable fault => fault.message
  | .notText => "stream did not contain valid UTF-8".toList
  | .json error => error.message
  | .invalid problem => path ++ ": ".toList ++ problem.message

inductive SymbolFailure where
  | unsupported (path extension : Text)
  | file (fault : FileFault)
  | json (error : JsonError)
  | pdb (fault : Pdb.Fault)
deriving DecidableEq, Repr

namespace SymbolFailure

def traced (kind cause : Text) : Text := kind ++ ": ".toList ++ cause ++ ": ".toList ++ cause

def message : SymbolFailure → Text
  | unsupported path extension =>
      "Unsupported symbol database format: ".toList ++ path ++ " (".toList ++ extension ++ [')']
  | file fault => traced "IO error".toList fault.message
  | json error => traced "JSON error".toList error.message
  | pdb fault => traced "PDB error".toList fault.message

def isEndless : SymbolFailure → Bool
  | pdb fault => fault.isEndless
  | _ => false

end SymbolFailure

inductive Failure where
  | config (path : Text) (cause : ConfigFailure)
  | argument (problem : ArgumentProblem)
  | setting (problem : ConfigProblem)
  | database (path : Text) (cause : SymbolFailure)
  | symbols (cause : SymbolFailure)
  | input (path : Text) (fault : FileFault)
  | output (path : Text) (fault : FileFault)
  | layout (error : LayoutError)
deriving DecidableEq, Repr

def Failure.message : Failure → Text
  | .config path cause =>
      "Failed to load config ".toList ++ quoted path ++ ": ".toList ++ cause.message path
  | .argument problem => problem.message
  | .setting problem => problem.message
  | .database path cause =>
      "Failed to open symbol database ".toList ++ quoted path ++ ": ".toList ++ cause.message
  | .symbols cause => cause.message
  | .input path fault => "Failed to read ".toList ++ quoted path ++ ": ".toList ++ fault.message
  | .output path fault => "Failed to write ".toList ++ quoted path ++ ": ".toList ++ fault.message
  | .layout error => error.message

/-- The command goes on for ever and does not get to report why. -/
def Failure.isEndless : Failure → Bool
  | .database _ cause => cause.isEndless
  | .symbols cause => cause.isEndless
  | _ => false

inductive Event where
  | logged (record : LogRecord)
  | told (line : Text)
  | asked (question : Text)
  | printed (text : Text)
  | wrote (path text : Text)
  | timed (span : Text)
deriving DecidableEq, Repr

structure Outcome where
  events : List Event
  failure : Option Failure
deriving DecidableEq, Repr

def failureMark : Text := "[!] ".toList

def Failure.line (f : Failure) : Text := failureMark ++ f.message

namespace Event

def output : Event → Text
  | printed text => text
  | _ => []

def errorOutput (t : Threshold) : Event → Text
  | logged r => if t.admits r.level then r.line ++ ['\n'] else []
  | told line => line ++ ['\n']
  | asked question => question
  | _ => []

def record? : Event → Option LogRecord
  | logged r => some r
  | _ => none

def written? : Event → Option (Text × Text)
  | wrote path text => some (path, text)
  | _ => none

end Event

namespace Outcome

def output (o : Outcome) : Text := o.events.flatMap Event.output

def errorOutput (t : Threshold) (o : Outcome) : Text :=
  o.events.flatMap (Event.errorOutput t) ++ o.failure.elim [] fun f => f.line ++ ['\n']

def records (o : Outcome) : List LogRecord := o.events.filterMap Event.record?

def written (o : Outcome) : List (Text × Text) := o.events.filterMap Event.written?

def leave (o : Outcome) (d : Directory) : Directory :=
  o.written.foldl (fun d (path, text) => d.write path (Utf8.encode text)) d

end Outcome

end MemberOffsets
