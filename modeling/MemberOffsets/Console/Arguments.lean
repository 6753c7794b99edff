import MemberOffsets.Abi.BuiltIn
import MemberOffsets.Console.Log
import MemberOffsets.Console.Options
import MemberOffsets.Text.Quoted

set_option autoImplicit false

namespace MemberOffsets

open Text

structure ResolveOptions where
  input : Option Text
  output : Option Text
  bits : Option Nat
  base : Option Text
  ansi : Bool
  symbols : Option Text
  name : Option Text
  interactive : Bool
  json : Bool
deriving DecidableEq, Repr

structure IndexOptions where
  pdb : Text
  output : Text
deriving DecidableEq, Repr

structure TypesOptions where
  bits : Option Nat
  ansi : Bool
  filter : Option Text
deriving DecidableEq, Repr

inductive Command where
  | resolve (options : ResolveOptions)
  | index (options : IndexOptions)
  | types (options : TypesOptions)
deriving DecidableEq, Repr

structure Arguments where
  command : Command
  logLevel : Text
  verbosity : Nat
  quiet : Bool
  config : Option Text
deriving DecidableEq, Repr

inductive ArgumentProblem where
  | missingInput (path : Text)
  | bits (bits : Nat)
  | base (fault : InvalidOffset)
  | missingPdb (path : Text)
deriving DecidableEq, Repr

def ArgumentProblem.message : ArgumentProblem → Text
  | .missingInput path => "Input file does not exist: ".toList ++ quoted path
  | .bits n => "--bits must be 32 or 64, got ".toList ++ decimal n
  | .base fault => fault.message
  | .missingPdb path => "PDB file does not exist: ".toList ++ quoted path

namespace Command

def bitsProblem? (bits : Option Nat) : Option ArgumentProblem :=
  (bits.filter fun n => (PointerWidth.ofBits? n).isNone).map .bits

def baseProblem? (base : Option Text) : Option ArgumentProblem :=
  base.bind fun s =>
    match parseOffset s with
    | .ok _ => none
    | .error fault => some (.base fault)

def problem? (fileExists : Text → Bool) : Command → Option ArgumentProblem
  | resolve o =>
      ((o.input.filter (!fileExists ·)).map .missingInput).or
        ((bitsProblem? o.bits).or (baseProblem? o.base))
  | index o => if fileExists o.pdb then none else some (.missingPdb o.pdb)
  | types o => bitsProblem? o.bits

end Command

namespace Arguments

def option (long : String) (short : Option Char) (kind : OptionKind) : OptionSpec :=
  ⟨long.toList, short, kind⟩

def commonOptions : List OptionSpec :=
  [option "log-level" (some 'l') .text, option "verbose" (some 'v') .tally,
    option "quiet" (some 'q') .switch, option "config" (some 'c') .path,
    option "help" (some 'h') .help]

def mainOptions : List OptionSpec := commonOptions ++ [option "version" (some 'V') .version]

def resolveOptions : List OptionSpec := commonOptions ++
  [option "input" (some 'i') .path, option "output" (some 'o') .path,
    option "bits" (some 'b') .number, option "base" none .text, option "ansi" none .switch,
    option "symbols" (some 's') .path, option "name" (some 'n') .text,
    option "interactive" none .switch, option "json" none .switch]

def indexOptions : List OptionSpec := commonOptions ++
  [option "pdb" (some 'p') .path, option "output" (some 'o') .path]

def typesOptions : List OptionSpec := commonOptions ++
  [option "bits" (some 'b') .number, option "ansi" none .switch, option "filter" (some 'f') .text]

def resolveName : Text := "resolve".toList

def indexName : Text := "index".toList

def typesName : Text := "types".toList

def helpName : Text := "help".toList

def commandNames : List Text := [resolveName, indexName, typesName, helpName]

def defaultIndexOutput : Text := "symbols.json".toList

def defaultLogLevel : Text := "warn".toList

def maxVerbosity : Nat := 255

def resolveOf (g : Given) : ResolveOptions where
  input := g.value? "input".toList
  output := g.value? "output".toList
  bits := g.number? "bits".toList
  base := g.value? "base".toList
  ansi := g.has "ansi".toList
  symbols := g.value? "symbols".toList
  name := g.value? "name".toList
  interactive := g.has "interactive".toList
  json := g.has "json".toList

def typesOf (g : Given) : TypesOptions where
  bits := g.number? "bits".toList
  ansi := g.has "ansi".toList
  filter := g.value? "filter".toList

def readCommand (name : Text) (words : List Text) : Except UsageError (Command × Given) := do
  if name = resolveName then
    let (g, _) ← Given.empty.read resolveOptions [] words
    .ok (.resolve (resolveOf g), g)
  else if name = indexName then
    let (g, _) ← Given.empty.read indexOptions [] words
    match g.value? "pdb".toList with
    | some pdb => .ok (.index ⟨pdb, (g.value? "output".toList).getD defaultIndexOutput⟩, g)
    | none => .error .missingOption
  else if name = typesName then
    let (g, _) ← Given.empty.read typesOptions [] words
    .ok (.types (typesOf g), g)
  else
    match words with
    | [] => .error .helpWanted
    | [topic] => .error (if commandNames.elem topic then .helpWanted else .unknownCommand)
    | _ => .error .unknownCommand

def combine (command : Command) (before behind : Given) : Arguments where
  command
  logLevel :=
    ((behind.value? "log-level".toList).or (before.value? "log-level".toList)).getD defaultLogLevel
  verbosity :=
    let g := if behind.has "verbose".toList then behind else before
    min (g.times "verbose".toList) maxVerbosity
  quiet := behind.has "quiet".toList || before.has "quiet".toList
  config := (behind.value? "config".toList).or (before.value? "config".toList)

def read (words : List Text) : Except UsageError Arguments := do
  match ← Given.empty.read mainOptions commandNames words with
  | (before, none) => .error (if before.values.isEmpty then .nothingGiven else .missingCommand)
  | (before, some (name, words)) =>
      let (command, behind) ← readCommand name words
      let before ← before.settle
      .ok (combine command before behind)

def usage : Text :=
  ("Usage: struct-offsets [options] resolve|index|types [options]\n" ++
    "  resolve  -i INPUT -o OUTPUT -b BITS --base OFFSET --ansi -s SYMBOLS -n NAME\n" ++
    "           --interactive --json\n" ++
    "  index    -p PDB -o OUTPUT\n" ++
    "  types    -b BITS --ansi -f FILTER\n" ++
    "  options  -l LEVEL -v -q -c CONFIG -h -V\n").toList

def versionLine : Text := "struct-offsets 1.0.0\n".toList

def threshold (a : Arguments) : Threshold :=
  if 0 < a.verbosity then .ofVerbosity a.verbosity else .ofName a.logLevel

end Arguments

end MemberOffsets
