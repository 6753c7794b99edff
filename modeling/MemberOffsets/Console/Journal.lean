import MemberOffsets.Console.Log
import MemberOffsets.Console.Prompt
import MemberOffsets.Layout.Resolution

set_option autoImplicit false

namespace MemberOffsets

open Text

namespace Remark

def record : Remark → LogRecord
  | skipped text => ⟨.trace, "skipping statement ".toList ++ quoted text⟩
  | unsupported kind text =>
      ⟨.warn, '\'' :: text ++ "' after a ".toList ++ kind.keyword ++
        " block is not supported as a declarator; the block and '".toList ++ text ++
        "' are both counted".toList⟩
  | unterminated kind text =>
      ⟨.trace, "no ';' after ".toList ++ kind.keyword ++ " block, '".toList ++ text ++
        "' starts the next statement".toList⟩
  | block kind tag memberCount =>
      ⟨.trace, kind.keyword ++ " block ".toList ++ quotedOption tag ++ " with ".toList ++
        decimal memberCount ++ " members".toList⟩

end Remark

namespace Sizing

def record (s : Sizing) : LogRecord :=
  let bytes := " -> ".toList ++ decimal s.width ++ " bytes".toList
  match s.origin with
  | .star => ⟨.trace, s.name ++ " is a pointer".toList⟩
  | .explicit => ⟨.trace, s.name ++ bytes ++ " from a width override".toList⟩
  | .pointerAlias => ⟨.trace, s.name ++ " follows the pointer alias convention".toList⟩
  | .builtIn => ⟨.trace, s.name ++ bytes ++ " from the width table".toList⟩
  | .symbols => ⟨.debug, s.name ++ bytes ++ " from the symbol database".toList⟩
  | .candidate choice => ⟨.debug, s.name ++ " resolved as ".toList ++ choice ++ bytes⟩
  | .confirmed => ⟨.debug, s.name ++ " confirmed as a pointer".toList⟩

def records (outcome : Except WidthError Sizing) : List LogRecord :=
  outcome.toOption.toList.map record

end Sizing

inductive JournalEntry where
  | logged (record : LogRecord)
  | shown (text : Text)
deriving DecidableEq, Repr

namespace Journal

def literalWarning (what dim : Text) : LogRecord :=
  ⟨.warn, what ++ ": array length '".toList ++ dim ++
    "' is not a literal, counting one element".toList⟩

def overflowWarning (what : Text) (width offset : Nat) (remedy : Text) : LogRecord :=
  ⟨.warn, what ++ ": ".toList ++ decimal width ++ " bytes past 0x".toList ++ hex offset ++
    " overflows the offset range".toList ++ remedy⟩

def widthWarnings (f : SizedField) : List LogRecord :=
  match f.sizing with
  | .error e => [⟨.warn, f.decl.name ++ ": ".toList ++ e.message⟩]
  | .ok _ =>
      match elementCount f.decl.dims with
      | .ok _ => []
      | .error dim => [literalWarning f.decl.name dim]

def ofPlacedField (f : SizedField) (n : FieldNode) : List LogRecord :=
  widthWarnings f ++
    (if n.status = .unresolved .offsetOverflow then
      [overflowWarning n.name f.extent.1 n.offsetAfter []] else []) ++
    [⟨.debug, n.type ++ ' ' :: n.name ++ " -> ".toList ++ decimal n.width ++
      " bytes, ends at 0x".toList ++ hex n.offsetAfter⟩]

def ofField (shown : Exchange → Text) (f : SizedField) (n : FieldNode) : List JournalEntry :=
  f.exchanges.map (.shown ∘ shown) ++ (Sizing.records f.sizing ++ ofPlacedField f n).map .logged

def ofBlock (b : BlockDecl) (entry : Nat) (members : List Node) : List LogRecord :=
  let what := b.kind.keyword ++ ' ' :: quotedOption b.name
  let size := min (reach b.kind entry members * b.count) wordMax
  (match elementCount b.dims with
    | .ok _ => []
    | .error dim => [literalWarning what dim]) ++
  (if entry + size ≤ wordMax then [] else [overflowWarning what size entry ", clamping".toList])

mutual

def ofMember (shown : Exchange → Text) : SizedStatement → Node → List JournalEntry
  | .field f, .field n => ofField shown f n
  | .block b members, .block n nodes =>
      ofMembers shown members nodes ++ (ofBlock b n.entry nodes).map .logged
  | _, _ => []

def ofMembers (shown : Exchange → Text) : List SizedStatement → List Node → List JournalEntry
  | m :: ms, n :: ns => ofMember shown m n ++ ofMembers shown ms ns
  | _, _ => []

end

end Journal

namespace Resolution

def bodyJournal (shown : Exchange → Text) (r : Resolution) : List JournalEntry :=
  (Remark.ofBody r.shell.body).map (.logged ∘ Remark.record) ++
    Journal.ofMembers shown r.members r.root.members ++
    (Journal.ofBlock r.rootDecl r.base r.root.members).map .logged

def journal (shown : Exchange → Text) (r : Resolution) : List JournalEntry :=
  r.bodyJournal shown ++
    [.logged ⟨.debug, "Resolved ".toList ++ decimal r.root.members.length ++ " members, ".toList ++
      decimal r.root.block.size ++ " bytes".toList⟩]

end Resolution

namespace Journal

def ofFailedBody (body : Text) : List JournalEntry :=
  (Remark.ofBody body).map (.logged ∘ Remark.record)

def ofFailedDeclaration (text : Text) : List JournalEntry :=
  match Shell.split (normalize text) with
  | .ok shell => ofFailedBody shell.body
  | .error _ => []

def records (entries : List JournalEntry) : List LogRecord :=
  entries.filterMap fun
    | .logged r => some r
    | .shown _ => none

end Journal

end MemberOffsets
