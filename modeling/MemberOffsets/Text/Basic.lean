set_option autoImplicit false

namespace MemberOffsets

abbrev Text := List Char

namespace Text

def inRanges (ranges : List (Nat × Nat)) (c : Char) : Bool :=
  ranges.any fun (low, high) => decide (low ≤ c.toNat) && decide (c.toNat ≤ high)

def blankRanges : List (Nat × Nat) :=
  [(0x9, 0xD), (0x20, 0x20), (0x85, 0x85), (0xA0, 0xA0), (0x1680, 0x1680), (0x2000, 0x200A),
    (0x2028, 0x2029), (0x202F, 0x202F), (0x205F, 0x205F), (0x3000, 0x3000)]

def isBlank (c : Char) : Bool := inRanges blankRanges c

def utf8Length (s : Text) : Nat := s.foldr (fun c n => c.utf8Size + n) 0

@[simp] theorem utf8Length_nil : utf8Length [] = 0 := rfl

@[simp] theorem utf8Length_cons (c : Char) (s : Text) :
    utf8Length (c :: s) = c.utf8Size + utf8Length s := rfl

@[simp] theorem utf8Length_append (s t : Text) :
    utf8Length (s ++ t) = utf8Length s + utf8Length t := by
  induction s with
  | nil => simp
  | cons c r ih => simp [ih, Nat.add_assoc]

def upper (s : Text) : Text := s.map Char.toUpper

def lower (s : Text) : Text := s.map Char.toLower

def sameIgnoringCase (s t : Text) : Bool := lower s == lower t

def trimStart (s : Text) : Text := s.dropWhile isBlank

def trimEnd (s : Text) : Text := (s.reverse.dropWhile isBlank).reverse

def trim (s : Text) : Text := trimEnd (trimStart s)

def allBlank (s : Text) : Bool := s.all isBlank

theorem length_trimStart_le (s : Text) : (trimStart s).length ≤ s.length :=
  (List.dropWhile_sublist isBlank).length_le

def splitWords : Text → Text × List Text
  | [] => ([], [])
  | c :: r =>
    let (word, later) := splitWords r
    if isBlank c then ([], if word.isEmpty then later else word :: later) else (c :: word, later)

def words (s : Text) : List Text :=
  let (word, later) := splitWords s
  if word.isEmpty then later else word :: later

@[simp] theorem words_nil : words [] = [] := rfl

@[simp] theorem words_blank (c : Char) (s : Text) (h : isBlank c = true) :
    words (c :: s) = words s := by
  simp [words, splitWords, h]

def collapse (s : Text) : Text := [' '].intercalate (words s)

def squash (s : Text) : Text := s.filter (!isBlank ·)

@[simp] theorem squash_append (s t : Text) : squash (s ++ t) = squash s ++ squash t :=
  by simp [squash]

/-- The part before the first `c`, and the part after it; all and nothing if there is no `c`. -/
def cutAt (c : Char) (s : Text) : Text × Text :=
  (s.takeWhile (· != c), (s.dropWhile (· != c)).tail)

theorem length_cutAt_snd_le (c : Char) (s : Text) : (cutAt c s).2.length ≤ s.length := by
  have h := (List.dropWhile_sublist (l := s) (· != c)).length_le
  simp only [cutAt, List.length_tail]
  omega

theorem length_cutAt_snd_lt (c : Char) (s : Text) (h : s ≠ []) :
    (cutAt c s).2.length < s.length := by
  have hle := (List.dropWhile_sublist (l := s) (· != c)).length_le
  have hpos := List.length_pos_iff.mpr h
  simp only [cutAt, List.length_tail]
  omega

def lines (s : Text) : List Text := s.splitOn '\n'

def unlines (ls : List Text) : Text := ['\n'].intercalate ls

def dropStart? (start s : Text) : Option Text :=
  if start.isPrefixOf s then some (s.drop start.length) else none

theorem append_of_dropStart? {start s r : Text} (h : dropStart? start s = some r) :
    start ++ r = s := by
  simp only [dropStart?] at h
  split at h
  · rename_i hp
    obtain ⟨t, rfl⟩ := List.isPrefixOf_iff_prefix.mp hp
    simp_all
  · simp at h

/-- The order of texts by their characters, a beginning before what goes on. The order of the UTF-8
bytes is the same. -/
def notAfter : Text → Text → Bool
  | [], _ => true
  | _ :: _, [] => false
  | c :: r, d :: s => if c = d then notAfter r s else decide (c.toNat < d.toNat)

def includes (part : Text) : Text → Bool
  | [] => part.isEmpty
  | c :: r => part.isPrefixOf (c :: r) || includes part r

/-- The text from a byte offset on, if the offset is that of a character or of the end. -/
def dropBytes? : Nat → Text → Option Text
  | 0, s => some s
  | _ + 1, [] => none
  | n + 1, c :: r => if c.utf8Size ≤ n + 1 then dropBytes? (n + 1 - c.utf8Size) r else none

def wordMax : Nat := 0xFFFFFFFFFFFFFFFF

def halfWordMax : Nat := 0xFFFFFFFF

def decimal (n : Nat) : Text := Nat.toDigits 10 n

def hex (n : Nat) : Text := Nat.toDigits 16 n

def padded (width : Nat) (digits : Text) : Text := digits.leftpad width '0'

def digit? (base : Nat) (c : Char) : Option Nat :=
  let value :=
    if c.isDigit then c.toNat - '0'.toNat
    else if c.isAlpha then c.toLower.toNat - 'a'.toNat + 10
    else base
  if value < base then some value else none

def readDigits (base : Nat) (digits : Text) : Option Nat :=
  digits.foldlM (fun n c => (digit? base c).map (n * base + ·)) 0

def readNat? (base : Nat) (s : Text) : Option Nat :=
  let digits := match s with
    | '+' :: r => r
    | _ => s
  if digits.isEmpty then none else readDigits base digits

def readWord? (base : Nat) (s : Text) : Option Nat :=
  (readNat? base s).filter (· ≤ wordMax)

def readPrefixed? : Text → Option Nat
  | '0' :: 'x' :: r => readWord? 16 r
  | '0' :: 'X' :: r => readWord? 16 r
  | s => readWord? 10 s

structure InvalidOffset where
  text : Text
deriving DecidableEq, Repr

def InvalidOffset.message (e : InvalidOffset) : Text :=
  "Invalid offset '".toList ++ e.text ++ "', expected decimal or 0x-prefixed hex".toList

def parseOffset (s : Text) : Except InvalidOffset Nat :=
  match readPrefixed? (trim s) with
  | some n => .ok n
  | none => .error ⟨trim s⟩

def counted (n : Nat) (one many : Text) : Text :=
  decimal n ++ ' ' :: (if n = 1 then one else many)

end Text

end MemberOffsets
