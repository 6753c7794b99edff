import MemberOffsets.Sizing.Width
import MemberOffsets.Text.Basic
import MemberOffsets.Text.Utf8

set_option autoImplicit false

namespace MemberOffsets

open Text

structure LineSource where
  ahead : Bytes
  behind : Bytes
deriving DecidableEq, Repr

namespace LineSource

def ofBytes (bytes : Bytes) : LineSource := ⟨bytes, []⟩

def chunk : Nat := 8192

def newline : UInt8 := 10

/-- The next line without its newline, and what is left; none at the end. Bytes are taken from the
source a chunk at a time, so more of them may be gone than the line holds. -/
def next? (s : LineSource) : Option (Bytes × LineSource) :=
  match s.ahead.dropWhile (· != newline) with
  | _ :: later => some (s.ahead.takeWhile (· != newline), ⟨later, s.behind⟩)
  | [] =>
      if _ : s.behind = [] then
        if s.ahead.isEmpty then none else some (s.ahead, ⟨[], []⟩)
      else next? ⟨s.ahead ++ s.behind.take chunk, s.behind.drop chunk⟩
termination_by s.behind.length
decreasing_by
  rename_i h
  have := List.length_pos_iff.mpr h
  simp only [List.length_drop, chunk]
  omega

end LineSource

namespace Prompt

/-- The answer on the next line, trimmed. A line that is not UTF-8 is used up and is no answer. -/
def answer (s : LineSource) : Option Text × LineSource :=
  match s.next? with
  | none => (none, s)
  | some (line, s) =>
      match Utf8.decode line with
      | .ok text => (some (trim text), s)
      | .error _ => (none, s)

def isYes (answer : Text) : Bool :=
  sameIgnoringCase answer "y".toList || sameIgnoringCase answer "yes".toList

def pick (candidates : List Text) (answer : Text) : Option Text :=
  if answer.isEmpty then none
  else
    match readWord? 10 answer with
    | some 0 => none
    | some (n + 1) => candidates[n]?
    | none => candidates.find? (sameIgnoringCase · answer)

def fallback : Fallback LineSource where
  choose _ candidates s :=
    let (reply, s) := answer s
    (reply.bind (pick candidates), s)
  confirm _ s :=
    let (reply, s) := answer s
    (reply.any isYes, s)

def mark : Text := "[?] ".toList

def confirmQuestion (name : Text) : Text :=
  mark ++ "Could not size '".toList ++ name ++ "'. Is it a pointer? [y/N] ".toList

def candidateLines (candidates : List Text) : List Text :=
  candidates.zipIdx.map fun (candidate, i) =>
    "  ".toList ++ (decimal (i + 1)).leftpad 2 ' ' ++ ") ".toList ++ candidate ++ ['\n']

def chooseQuestion (name : Text) (candidates : List Text) : Text :=
  "[*] '".toList ++ name ++ "' matches several types:\n".toList ++
    (candidateLines candidates).flatten ++ mark ++ "Pick 1-".toList ++
    decimal candidates.length ++ " or type a name (empty skips): ".toList

def shown : Exchange → Text
  | .lookup _ _ => []
  | .choose name candidates _ => chooseQuestion name candidates
  | .confirm name _ => confirmQuestion name

def transcript (exchanges : List Exchange) : Text := exchanges.flatMap shown

end Prompt

end MemberOffsets
