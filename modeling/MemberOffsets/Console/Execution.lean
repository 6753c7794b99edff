import MemberOffsets.Console.Journal
import MemberOffsets.Console.Outcome
import MemberOffsets.Layout.Printing
import MemberOffsets.Symbol.Json
import MemberOffsets.Symbol.Program

/-!
Running a command. Whatever can fail comes first: results are written last, so that a command that
fails leaves nothing behind.
-/

set_option autoImplicit false

namespace MemberOffsets

open Text

structure Session where
  input : LineSource
  events : List Event

abbrev Run := ExceptT Failure (StateM Session)

namespace Run

def emit (e : Event) : Run Unit := modify fun s => { s with events := s.events ++ [e] }

def emitAll (es : List Event) : Run Unit := modify fun s => { s with events := s.events ++ es }

def log (r : LogRecord) : Run Unit := emit (.logged r)

def check {α : Type} (failure : α → Failure) : Option α → Run Unit
  | none => return
  | some a => throw (failure a)

def timed {α : Type} (span : Text) (body : Run α) : Run α := ExceptT.mk do
  let start : LogRecord := ⟨.debug, "[TIMER] ".toList ++ span ++ " started".toList⟩
  modify fun s => { s with events := s.events ++ [.logged start] }
  let result ← body.run
  modify fun s => { s with events := s.events ++ [.timed span] }
  return result

end Run

structure Status where
  quiet : Bool

namespace Status

def say (s : Status) (mark message : Text) : Run Unit :=
  if s.quiet then return else Run.emit (.told (mark ++ message))

def info (s : Status) (message : Text) : Run Unit := s.say "[*] ".toList message

def success (s : Status) (message : Text) : Run Unit := s.say "[+] ".toList message

def warning (s : Status) (message : Text) : Run Unit := s.say "[!] ".toList message

end Status

structure Setting where
  disk : Disk
  status : Status

namespace Setting

def write (w : Setting) (path : Option Text) (text : Text) : Run Unit := do
  match path with
  | none => Run.emit (.printed (if text.getLast? = some '\n' then text else text ++ ['\n']))
  | some path =>
      Run.check (.output path) (w.disk.writeFault? path)
      Run.emit (.wrote path text)
      w.status.success ("Output written to ".toList ++ path)

def typeCount (index : SymbolIndex) : Text := counted index.size "type".toList "types".toList

def readPdb (w : Setting) (path : Text) : List LogRecord × Except SymbolFailure SymbolIndex :=
  match w.disk.read path with
  | .error fault => ([], .error (.file fault))
  | .ok bytes =>
      match Pdb.TypeStream.ofFile bytes with
      | .error fault => ([], .error (.pdb fault))
      | .ok stream => (stream.journal, stream.index.mapError .pdb)

def readJson (w : Setting) (path : Text) : Except SymbolFailure SymbolIndex := do
  let bytes ← (w.disk.read path).mapError .file
  (SymbolIndex.ofFile bytes).mapError .json

def openDatabase (w : Setting) (path : Text) : Run SymbolIndex := do
  let extension := lower (FilePath.extension path)
  let result ←
    if extension = "pdb".toList then
      let (records, result) := w.readPdb path
      Run.emitAll (records.map .logged)
      pure result
    else if extension = "json".toList then pure (w.readJson path)
    else pure (.error (.unsupported path extension))
  match result with
  | .error cause => throw (.database path cause)
  | .ok index =>
      Run.log ⟨.info, "Loaded ".toList ++ decimal index.size ++ " types from ".toList ++ path⟩
      return index

def loadDatabase (w : Setting) (path : Text) : Run SymbolIndex := do
  w.status.info ("Loading symbols from ".toList ++ path)
  let index ← w.openDatabase path
  w.status.success ("Loaded ".toList ++ typeCount index)
  return index

end Setting

namespace ResolveOptions

def applyTo (o : ResolveOptions) (c : Config) : Config :=
  { c with
    bits := o.bits.getD c.bits
    baseOffset := (o.base.bind fun s => (parseOffset s).toOption).getD c.baseOffset
    unicode := !o.ansi && c.unicode
    symbolDatabase := o.symbols.or c.symbolDatabase
    interactive := o.interactive || c.interactive }

end ResolveOptions

namespace TypesOptions

def applyTo (o : TypesOptions) (c : Config) : Config :=
  { c with bits := o.bits.getD c.bits, unicode := !o.ansi && c.unicode }

end TypesOptions

namespace Setting

def lookUp (index : SymbolIndex) (interactive : Bool) (name : Text) : Run (Option TypeLayout) := do
  match index.find name with
  | .found l => return some l
  | .notFound => return none
  | .ambiguous candidates =>
      if interactive then
        let (choice, input) := Prompt.fallback.choose name candidates (← get).input
        Run.emit (.asked (Prompt.shown (.choose name candidates choice)))
        modify fun s => { s with input }
        return choice.bind fun chosen => (index.find chosen).toOption
      else return none

def resolveName (w : Setting) (o : ResolveOptions) (c : Config) (index : SymbolIndex)
    (name : Text) : Run Bool := do
  w.status.info ("Looking up ".toList ++ name ++ " in the symbol database".toList)
  match ← lookUp index c.interactive name with
  | none =>
      w.status.warning
        ("No layout for ".toList ++ name ++ ", resolving the declaration text".toList)
      return false
  | some layout =>
      let a := layout.toAggregate
      w.write o.output (if o.json then a.toJson.pretty else Columns.format a.annotated)
      w.status.success (layout.name ++ " is ".toList ++ decimal layout.size ++ " bytes".toList)
      return true

def readInput (w : Setting) : Option Text → Run Bytes
  | none => do
      let s ← get
      set { s with input := { s.input with behind := [] } }
      return s.input.behind
  | some path =>
      match w.disk.read path with
      | .ok bytes => return bytes
      | .error fault => throw (.input path fault)

def event? : JournalEntry → Option Event
  | .logged r => some (.logged r)
  | .shown [] => none
  | .shown text => some (.asked text)

def recount (journal : List JournalEntry) : Run Unit := Run.emitAll (journal.filterMap event?)

def responder (c : Config) (index : SymbolIndex) : Responder ((Unit × WidthCache) × LineSource) :=
  .of (Database.ofIndex index).cached (if c.interactive then Prompt.fallback else .declining)

def resolveText (w : Setting) (o : ResolveOptions) (c : Config) (index : SymbolIndex) :
    Run Unit := do
  let bytes ← w.readInput o.input
  match normalizeBytes bytes with
  | .error e => throw (.layout e)
  | .ok text =>
      let state := (((), .empty), (← get).input)
      match Resolution.ofText c.profile (responder c index) text c.baseOffset state with
      | .error place =>
          recount (Journal.ofFailedDeclaration text)
          throw (.layout (.unbalanced place))
      | .ok (resolution, _, input) =>
          modify fun s => { s with input }
          recount (resolution.journal (if c.interactive then Prompt.shown else fun _ => []))
          let d := resolution.declaration
          for f in d.unresolvedFields do
            w.status.warning (f.type ++ ' ' :: f.name ++ ": ".toList ++ f.status.message)
          w.write o.output (if o.json then d.toJson.pretty else Columns.format d.annotated)
          let resolved := "Resolved ".toList ++ decimal d.size ++ " bytes".toList
          if d.unresolvedFields.isEmpty then w.status.success resolved
          else
            w.status.warning (resolved ++ " with ".toList ++
              counted d.unresolvedFields.length "field".toList "fields".toList ++
              " left unsized".toList)

def profileLine (p : Profile) : Text :=
  "Using ".toList ++ p.pointer.label ++ " profile with ".toList ++ decimal p.widths.size ++
    " known types".toList

def resolveWith (w : Setting) (o : ResolveOptions) (c : Config) : Run Unit := do
  w.status.info (profileLine c.profile)
  let index ← c.symbolDatabase.elim (pure .empty) w.loadDatabase
  if c.interactive && o.input.isNone then
    w.status.warning "Interactive answers are read from stdin after the declaration".toList
  let isDone ← o.name.elim (pure false) (w.resolveName o c index)
  if isDone then return else w.resolveText o c index

def resolve (w : Setting) (o : ResolveOptions) (c : Config) : Run Unit := do
  Run.check .argument ((Command.resolve o).problem? w.disk.fileExists)
  let c := o.applyTo c
  Run.check .setting (c.problem? w.disk.fileExists)
  Run.timed "resolve".toList (w.resolveWith o c)

def indexWith (w : Setting) (o : IndexOptions) : Run Unit := do
  w.status.info ("Indexing ".toList ++ o.pdb)
  let (records, result) := w.readPdb o.pdb
  Run.emitAll (records.map .logged)
  match result with
  | .error cause => throw (.symbols cause)
  | .ok index =>
      Run.check (fun fault => .symbols (.file fault)) (w.disk.writeFault? o.output)
      Run.emit (.wrote o.output index.json)
      w.status.success ("Wrote ".toList ++ typeCount index ++ " to ".toList ++ o.output)

def index (w : Setting) (o : IndexOptions) : Run Unit := do
  Run.check .argument ((Command.index o).problem? w.disk.fileExists)
  Run.timed "index".toList (w.indexWith o)

def widthColumn : Nat := 40

def typeLine (row : Text × Nat) : Text :=
  row.1.rightpad widthColumn ' ' ++ ' ' :: decimal row.2 ++ ['\n']

def types (w : Setting) (o : TypesOptions) (c : Config) : Run Unit := do
  Run.check .argument ((Command.types o).problem? w.disk.fileExists)
  let c := o.applyTo c
  Run.check .setting (c.problem? w.disk.fileExists)
  let rows := c.profile.widths.items.filter fun row =>
    o.filter.all fun part => includes (upper part) row.1
  w.write none (rows.flatMap typeLine)
  w.status.info (counted rows.length "type".toList "types".toList ++ " in the ".toList ++
    c.pointer.label ++ " profile".toList)

end Setting

namespace Config

def load (disk : Disk) (path : Text) : Except ConfigFailure Config := do
  let bytes ← (disk.read path).mapError .unreadable
  let text ← (Utf8.decode bytes).mapError fun _ => .notText
  let c ← (ofJson text).mapError .json
  match c.problem? disk.fileExists with
  | some problem => .error (.invalid problem)
  | none => .ok c

end Config

namespace Arguments

def loadConfig (a : Arguments) (disk : Disk) : Run Config := do
  match a.config with
  | none => return {}
  | some path =>
      match Config.load disk path with
      | .ok c => return c
      | .error cause => throw (.config path cause)

def execute (a : Arguments) (disk : Disk) : Run Unit := do
  let c ← a.loadConfig disk
  let w : Setting := ⟨disk, ⟨a.quiet || c.quiet⟩⟩
  match a.command with
  | .resolve o => w.resolve o c
  | .index o => w.index o
  | .types o => w.types o c

def outcome (a : Arguments) (disk : Disk) (input : Bytes) : Outcome :=
  let (result, session) := (a.execute disk).run ⟨⟨[], input⟩, []⟩
  match result with
  | .ok () => ⟨session.events, none⟩
  | .error failure => ⟨session.events, some failure⟩

end Arguments

/-- What the program comes to in the end. Its results are on standard output and in the files that
it has written. -/
structure Ending where
  exitCode : Nat
  output : Text
  written : List (Text × Text)
deriving DecidableEq, Repr

def Outcome.ending (o : Outcome) : Ending :=
  ⟨if o.failure.isSome then 1 else 0, o.output, o.written⟩

def UsageError.ending : UsageError → Ending
  | .helpWanted => ⟨0, Arguments.usage, []⟩
  | .versionWanted => ⟨0, Arguments.versionLine, []⟩
  | _ => ⟨2, [], []⟩

def runProgram (words : List Text) (disk : Disk) (input : Bytes) : Ending :=
  match Arguments.read words with
  | .ok a => (a.outcome disk input).ending
  | .error e => e.ending

end MemberOffsets
