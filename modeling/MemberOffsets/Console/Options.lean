import MemberOffsets.Text.Basic

/-!
Options among the words of a command line. An option takes its value from the next word, or from the
same one: `--name value`, `--name=value`, `-n value`, `-nvalue`, `-n=value`. Letters of options
without a value may be run together. The first word that is no option and no value has to name a
command, and all words behind it are the command's own.
-/

set_option autoImplicit false

namespace MemberOffsets

open Text

inductive UsageError where
  | unknownArgument
  | missingValue
  | badValue
  | surplusValue
  | repeated
  | missingOption
  | unknownCommand
  | missingCommand
  | nothingGiven
  | helpWanted
  | versionWanted
deriving DecidableEq, Repr

def UsageError.message : UsageError → Text
  | .unknownArgument => "error: unexpected argument".toList
  | .missingValue => "error: a value is required for an option".toList
  | .badValue => "error: invalid value for an option".toList
  | .surplusValue => "error: unexpected value for an option".toList
  | .repeated => "error: an option cannot be used multiple times".toList
  | .missingOption => "error: a required option was not provided".toList
  | .unknownCommand => "error: unrecognized command".toList
  | .missingCommand => "error: a command is required".toList
  | .nothingGiven => "error: a command is required".toList
  | .helpWanted => "help".toList
  | .versionWanted => "version".toList

inductive OptionKind where
  | switch
  | tally
  | text
  | path
  | number
  | help
  | version
deriving DecidableEq, Repr

/-- The value of a 32-bit numeral. A minus is allowed in front of zero. -/
def readHalfWord? (s : Text) : Option Nat :=
  match s with
  | '-' :: r => if r.all Char.isDigit then (readNat? 10 r).filter (· = 0) else none
  | _ => (readNat? 10 s).filter (· ≤ halfWordMax)

namespace OptionKind

def takesValue : OptionKind → Bool
  | text => true
  | path => true
  | number => true
  | _ => false

def fault? (k : OptionKind) (value : Text) : Option UsageError :=
  match k with
  | path => if value.isEmpty then some .missingValue else none
  | number => if (readHalfWord? value).isNone then some .badValue else none
  | _ => none

end OptionKind

structure OptionSpec where
  long : Text
  short : Option Char
  kind : OptionKind
deriving DecidableEq, Repr

/-- The options given so far, by long name. The last one is pending until the next one or the end:
its value may still be missing, and it has not been checked. -/
structure Given where
  values : List (Text × Text)
  pending : Option (OptionSpec × Option Text)
deriving DecidableEq, Repr

namespace Given

def empty : Given := ⟨[], none⟩

def has (g : Given) (long : Text) : Bool := (g.values.lookup long).isSome

def value? (g : Given) (long : Text) : Option Text := g.values.lookup long

def number? (g : Given) (long : Text) : Option Nat := (g.value? long).bind readHalfWord?

def times (g : Given) (long : Text) : Nat := (g.values.filter (·.1 == long)).length

def awaitsValue (g : Given) : Bool := g.pending.any (·.2.isNone)

def accept (g : Given) (spec : OptionSpec) (value : Text) : Except UsageError Given :=
  if g.has spec.long ∧ spec.kind ≠ .tally then .error .repeated
  else
    match spec.kind.fault? value with
    | some fault => .error fault
    | none => .ok ⟨g.values ++ [(spec.long, value)], none⟩

def settle (g : Given) : Except UsageError Given :=
  match g.pending with
  | none => .ok g
  | some (_, none) => .error .missingValue
  | some (spec, some value) => g.accept spec value

def fillPending (g : Given) (value : Text) : Given :=
  { g with pending := g.pending.map fun (spec, _) => (spec, some value) }

def await (g : Given) (spec : OptionSpec) : Except UsageError Given := do
  let g ← g.settle
  .ok { g with pending := some (spec, none) }

def attach (g : Given) (spec : OptionSpec) (value : Text) : Except UsageError Given := do
  let g ← g.settle
  g.accept spec value

def raise (g : Given) (spec : OptionSpec) : Except UsageError Given := do
  let g ← g.settle
  match spec.kind with
  | .help => .error .helpWanted
  | .version => .error .versionWanted
  | _ => g.accept spec []

def readLong (specs : List OptionSpec) (g : Given) (body : Text) : Except UsageError Given :=
  let name := body.takeWhile (· != '=')
  match specs.find? (·.long == name), body.dropWhile (· != '=') with
  | none, _ => .error .unknownArgument
  | some spec, [] => if spec.kind.takesValue then g.await spec else g.raise spec
  | some spec, _ :: value =>
      if spec.kind.takesValue then g.attach spec value else .error .surplusValue

def readShort (specs : List OptionSpec) : Given → Text → Except UsageError Given
  | g, [] => .ok g
  | g, c :: r =>
      match specs.find? (·.short == some c) with
      | none => .error .unknownArgument
      | some spec =>
          if spec.kind.takesValue then
            match r with
            | [] => g.await spec
            | '=' :: value => g.attach spec value
            | value => g.attach spec value
          else do
            let g ← g.raise spec
            readShort specs g r

/-- What a word is that stands where none may stand. After a lone `--` a command is out of place. -/
def strayWord (commands : List Text) (afterDashes : Bool) (word : Text) : UsageError :=
  if commands.isEmpty || afterDashes && commands.elem word then .unknownArgument
  else .unknownCommand

/-- The options up to the end or to a command, and the command with the words behind it. Before a
command the last option is still pending. -/
def read (specs : List OptionSpec) (commands : List Text) :
    Given → List Text → Except UsageError (Given × Option (Text × List Text))
  | g, [] => do
      let g ← g.settle
      .ok (g, none)
  | g, w :: ws =>
      if g.awaitsValue = false ∧ commands.elem w then .ok (g, some (w, ws))
      else
        match w with
        | ['-', '-'] =>
            match ws with
            | [] => do
                let g ← g.settle
                .ok (g, none)
            | s :: _ => .error (strayWord commands true s)
        | '-' :: '-' :: body => do
            let g ← readLong specs g body
            read specs commands g ws
        | '-' :: c :: r => do
            let g ← readShort specs g (c :: r)
            read specs commands g ws
        | _ =>
            if g.awaitsValue then read specs commands (g.fillPending w) ws
            else .error (strayWord commands false w)

end Given

end MemberOffsets
