import MemberOffsets.Text.Basic

set_option autoImplicit false

namespace MemberOffsets

open Text

inductive Level where
  | error
  | warn
  | info
  | debug
  | trace
deriving DecidableEq, Repr

namespace Level

def all : List Level := [error, warn, info, debug, trace]

def rank : Level → Nat
  | error => 1
  | warn => 2
  | info => 3
  | debug => 4
  | trace => 5

def name : Level → Text
  | error => "ERROR".toList
  | warn => "WARN".toList
  | info => "INFO".toList
  | debug => "DEBUG".toList
  | trace => "TRACE".toList

end Level

abbrev Threshold := Option Level

namespace Threshold

def admits (t : Threshold) (l : Level) : Bool := t.any fun least => decide (l.rank ≤ least.rank)

def name (t : Threshold) : Text := t.elim "OFF".toList Level.name

/-- The threshold of a name in either case; `warning` is another name of `warn`, and a name that is
none means `info`. Beyond ASCII only the Kelvin sign has a lower case in it, and no name holds a
`k`. -/
def ofName (s : Text) : Threshold :=
  if sameIgnoringCase s "off".toList then none
  else if sameIgnoringCase s "warning".toList then some .warn
  else some ((Level.all.find? fun l => sameIgnoringCase s l.name).getD .info)

def ofVerbosity : Nat → Threshold
  | 0 => some .warn
  | 1 => some .info
  | 2 => some .debug
  | _ => some .trace

end Threshold

structure LogRecord where
  level : Level
  text : Text
deriving DecidableEq, Repr

namespace LogRecord

def labelled (r : LogRecord) : Text := r.level.name ++ ' ' :: r.text

def line (r : LogRecord) : Text := '[' :: r.level.name.rightpad 5 ' ' ++ "] ".toList ++ r.text

end LogRecord

end MemberOffsets
