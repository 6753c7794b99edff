import MemberOffsets.Console.Execution
import MemberOffsets.Decimal

/-!
The program: reads the files that a command names, runs it, and carries out what it did. Lines of
standard input are read only when a question has been put, so that the command is run again with
each answer; what it did before is the same.
-/

set_option autoImplicit false

namespace MemberOffsets

def fileFault : IO.Error → FileFault
  | .noFileOrDirectory _ _ _ => .missing
  | .inappropriateType _ 21 _ => .isDirectory
  | .inappropriateType _ 20 _ => .notDirectory
  | e => .other (toString e).toList

def readFile (path : Text) : IO (Text × Except FileFault Bytes) := do
  try
    let bytes ← IO.FS.readBinFile (String.ofList path)
    return (path, .ok bytes.toList)
  catch e => return (path, .error (fileFault e))

def diskOf (files : List (Text × Except FileFault Bytes)) : Disk where
  read path := (files.lookup path).getD (.error .missing)
  writeFault? _ := none

def Command.inputs : Command → List Text
  | .resolve o => o.input.toList ++ o.symbols.toList
  | .index o => [o.pdb]
  | .types _ => []

def readDisk (a : Arguments) : IO Disk := do
  let named ← (a.config.toList ++ a.command.inputs).mapM readFile
  match a.config.map (Config.load (diskOf named)) with
  | some (.ok c) => return diskOf (named ++ (← c.symbolDatabase.toList.mapM readFile))
  | some (.error (.invalid (.missingDatabase path))) => return diskOf (named ++ [← readFile path])
  | _ => return diskOf named

def readsDeclaration : Command → Bool
  | .resolve o => o.input.isNone
  | _ => false

partial def readAll (input : IO.FS.Stream) (front : Bytes) : IO Bytes := do
  let more ← input.read 65536
  if more.isEmpty then return front else readAll input (front ++ more.toList)

partial def readLine (input : IO.FS.Stream) (front : Bytes) : IO Bytes := do
  let more ← input.read 1
  match more.toList with
  | [] => return front
  | b :: _ => if b = LineSource.newline then return front ++ [b] else readLine input (front ++ [b])

structure Progress where
  disk : Disk
  input : Bytes
  isComplete : Bool
  done : Nat

def printError (text : Text) : IO Unit := do
  (← IO.getStderr).putStr (String.ofList text)

def carryOut (threshold : Threshold) (start : Nat) (p : Progress) : Event → IO (Option Progress)
  | .printed text => do
      (← IO.getStdout).putStr (String.ofList text)
      return none
  | .wrote path text => do
      try
        IO.FS.writeFile (String.ofList path) (String.ofList text)
        return none
      catch e =>
        let disk := { p.disk with writeFault? := fun _ => some (fileFault e) }
        return some { p with disk }
  | .timed span => do
      let taken := TimeSpan.ofParts 0 ((← IO.monoNanosNow) - start)
      let record : LogRecord := ⟨.debug, "[TIMER] ".toList ++ span ++ " took ".toList ++ taken.text⟩
      printError ((Event.logged record).errorOutput threshold)
      return none
  | .asked question => do
      printError question
      if p.isComplete then return none
      else
        let line ← readLine (← IO.getStdin) []
        let input := p.input ++ line
        return some { p with input, isComplete := line.isEmpty, done := p.done + 1 }
  | e => do
      printError (e.errorOutput threshold)
      return none

def carryOutAll (threshold : Threshold) (start : Nat) : Progress → List Event → IO (Option Progress)
  | _, [] => return none
  | p, e :: es => do
      match ← carryOut threshold start p e with
      | some p => return some p
      | none => carryOutAll threshold start { p with done := p.done + 1 } es

partial def neverEnd : IO Unit := do
  IO.sleep 1000
  neverEnd

partial def perform (a : Arguments) (start : Nat) (p : Progress) : IO UInt32 := do
  let o := a.outcome p.disk p.input
  match ← carryOutAll a.threshold start p (o.events.drop p.done) with
  | some p => perform a start p
  | none =>
      if let some f := o.failure then
        if f.isEndless then neverEnd
        printError (f.line ++ ['\n'])
      return o.ending.exitCode.toUInt32

def runArguments (a : Arguments) : IO UInt32 := do
  let start ← IO.monoNanosNow
  let disk ← readDisk a
  let isComplete := readsDeclaration a.command
  let input ← if isComplete then readAll (← IO.getStdin) [] else pure []
  perform a start ⟨disk, input, isComplete, 0⟩

end MemberOffsets

open MemberOffsets in
def main (words : List String) : IO UInt32 := do
  match Arguments.read (words.map String.toList) with
  | .ok a => runArguments a
  | .error e =>
      if e.ending.exitCode = 0 then IO.print (String.ofList e.ending.output)
      else printError (e.message ++ '\n' :: Arguments.usage)
      return e.ending.exitCode.toUInt32
