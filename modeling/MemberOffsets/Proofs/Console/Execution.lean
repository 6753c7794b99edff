import MemberOffsets.Proofs.Console.Effects

set_option autoImplicit false

namespace MemberOffsets

open Text Run

theorem yields_say (status : Status) (mark message : Text) (input : LineSource) :
    (status.say mark message).Yields input () input := by
  rw [Status.say]
  split
  · exact yields_pure () input
  · exact ⟨_, does_emit _ input, by simp [Event.IsQuiet, Event.output, Event.written?]⟩

theorem Run.Yields.succeeds {m : Run Unit} (quiet : ∀ input, m.Yields input () input) :
    m.Succeeds fun _ => True := by
  intro input
  obtain ⟨added, does, -⟩ := quiet input
  exact ⟨(), input, added, does, trivial⟩

theorem succeeds_say (status : Status) (mark message : Text) :
    (status.say mark message).Succeeds fun _ => True :=
  Yields.succeeds (yields_say status mark message)

theorem leaves_say (status : Status) (mark message : Text) {done : Unit → Prop} :
    (status.say mark message).Leaves done :=
  Yields.leaves fun input => ⟨(), input, yields_say status mark message input⟩

theorem isQuiet_logged (r : LogRecord) : (Event.logged r).IsQuiet := ⟨rfl, rfl⟩

theorem isQuiet_of_mem_map {records : List LogRecord} :
    ∀ e ∈ records.map Event.logged, e.IsQuiet := by
  simp only [List.forall_mem_map]
  exact fun r _ => isQuiet_logged r

theorem leaves_recount (journal : List JournalEntry) {done : Unit → Prop} :
    (Setting.recount journal).Leaves done := by
  apply leaves_emitAll
  intro e among
  obtain ⟨entry, -, shown⟩ := List.mem_filterMap.mp among
  cases entry with
  | logged r =>
    obtain rfl := Option.some.inj shown
    exact isQuiet_logged r
  | shown text =>
    cases text with
    | nil => simp [Setting.event?] at shown
    | cons c text =>
      obtain rfl := Option.some.inj shown
      exact ⟨rfl, rfl⟩

namespace Setting

variable (w : Setting)

def symbolsAt (path : Text) : Except SymbolFailure SymbolIndex :=
  let extension := lower (FilePath.extension path)
  if extension = "pdb".toList then (w.readPdb path).2
  else if extension = "json".toList then w.readJson path
  else .error (.unsupported path extension)

theorem does_openDatabase (path : Text) (input : LineSource) :
    ∃ added, (w.openDatabase path).Does input ((w.symbolsAt path).mapError (.database path))
      input added ∧ ∀ e ∈ added, e.IsQuiet := by
  have loaded (index : SymbolIndex) : ∃ added, Run.Does (do
      Run.log ⟨.info, "Loaded ".toList ++ decimal index.size ++ " types from ".toList ++ path⟩
      return index) input (.ok index) input added ∧ ∀ e ∈ added, e.IsQuiet :=
    ⟨_, (does_emit _ input).bind (does_pure index input), by simp [isQuiet_logged]⟩
  rw [openDatabase, symbolsAt]
  split
  · obtain ⟨records, cause | index⟩ := w.readPdb path
    · exact ⟨_, (does_emitAll _ input).bind
          ((does_pure (Except.error cause) input).bind (does_throw _ input)),
        by simpa using isQuiet_of_mem_map⟩
    · obtain ⟨added, does, quiet⟩ := loaded index
      exact ⟨_, (does_emitAll _ input).bind ((does_pure (Except.ok index) input).bind does),
        List.forall_mem_append.mpr ⟨isQuiet_of_mem_map, by simpa using quiet⟩⟩
  · split
    · cases w.readJson path with
      | error cause =>
        exact ⟨_, (does_pure (Except.error cause) input).bind (does_throw _ input), by simp⟩
      | ok index =>
        obtain ⟨added, does, quiet⟩ := loaded index
        exact ⟨_, (does_pure (Except.ok index) input).bind does, by simpa using quiet⟩
    · exact ⟨_, (does_pure _ input).bind (does_throw _ input), by simp⟩

theorem leaves_openDatabase (path : Text) {done : SymbolIndex → Prop} :
    (w.openDatabase path).Leaves done := by
  intro input
  obtain ⟨added, does, quiet⟩ := w.does_openDatabase path input
  exact ⟨_, _, _, does, .inl quiet⟩

theorem leaves_loadDatabase (path : Text) {done : SymbolIndex → Prop} :
    (w.loadDatabase path).Leaves done := by
  refine (leaves_say w.status _ _).bind_quiet fun _ => ?_
  refine (w.leaves_openDatabase path).bind_quiet fun index => ?_
  exact (leaves_say w.status _ _).bind_quiet fun _ => leaves_pure index

theorem leaves_readInput (path : Option Text) {done : Bytes → Prop} :
    (w.readInput path).Leaves done := by
  cases path with
  | none =>
    exact fun input => ⟨.ok input.behind, ⟨input.ahead, []⟩, [], fun events => by
      rw [List.append_nil]; rfl, .inl (by simp)⟩
  | some path =>
    rw [readInput]
    split
    · exact leaves_pure _
    · exact leaves_throw _

theorem yields_lookUp {index : SymbolIndex} {name : Text} {candidates : List Text}
    (several : index.find name = .ambiguous candidates) (input : LineSource) :
    (lookUp index true name).Yields input
      ((Prompt.fallback.choose name candidates input).1.bind fun chosen =>
        (index.find chosen).toOption)
      (Prompt.fallback.choose name candidates input).2 := by
  refine ⟨[.asked (Prompt.shown (.choose name candidates
    (Prompt.fallback.choose name candidates input).1))], fun events => ?_, ?_⟩
  · simp only [lookUp, several]
    rfl
  · simp [Event.IsQuiet, Event.output, Event.written?]

theorem leaves_lookUp (index : SymbolIndex) (interactive : Bool) (name : Text)
    {done : Option TypeLayout → Prop} : (lookUp index interactive name).Leaves done := by
  cases answer : index.find name with
  | found l =>
    simp only [lookUp, answer]
    exact leaves_pure _
  | notFound =>
    simp only [lookUp, answer]
    exact leaves_pure _
  | ambiguous candidates =>
    cases interactive with
    | false =>
      simp only [lookUp, answer]
      exact leaves_pure _
    | true => exact Yields.leaves fun input => ⟨_, _, yields_lookUp answer input⟩

theorem succeeds_wrote (path text message : Text) : (do
    Run.emit (.wrote path text)
    w.status.success message : Run Unit).Succeeds fun _ => True := by
  have written : (Run.emit (.wrote path text)).Succeeds fun _ => True := succeeds_emit _ trivial
  exact written.bind fun _ _ => succeeds_say w.status _ _

theorem leaves_write (path : Option Text) (text : Text) :
    (w.write path text).Leaves fun _ => True := by
  cases path with
  | none => exact (succeeds_emit _ trivial).leaves
  | some path =>
    refine (leaves_check _ _).bind_quiet fun _ => ?_
    exact (w.succeeds_wrote path text _).leaves

theorem leaves_resolveName (o : ResolveOptions) (c : Config) (index : SymbolIndex) (name : Text) :
    (w.resolveName o c index name).Leaves (· = true) := by
  refine (leaves_say w.status _ _).bind_quiet fun _ => ?_
  refine (leaves_lookUp index c.interactive name).bind_quiet fun found => ?_
  cases found with
  | none => exact (leaves_say w.status _ _).bind_quiet fun _ => leaves_pure false
  | some layout =>
    have reported : (do
        w.status.success (layout.name ++ " is ".toList ++ decimal layout.size ++ " bytes".toList)
        return true : Run Bool).Succeeds (· = true) :=
      (succeeds_say w.status _ _).bind fun _ _ => succeeds_pure rfl
    exact (w.leaves_write o.output _).bind (fun _ => reported.leaves) fun _ _ => reported

theorem yields_warnings (fields : List FieldNode) (input : LineSource) :
    (forIn fields PUnit.unit fun f _ => do
      w.status.warning (f.type ++ ' ' :: f.name ++ ": ".toList ++ f.status.message)
      pure (.yield PUnit.unit) : Run PUnit).Yields input PUnit.unit input := by
  induction fields with
  | nil => exact yields_pure _ input
  | cons f fields ih =>
    rw [List.forIn_cons]
    have warned := yields_say w.status "[!] ".toList
      (f.type ++ ' ' :: f.name ++ ": ".toList ++ f.status.message) input
    refine (warned.bind (yields_pure (ForInStep.yield PUnit.unit) input)).bind ?_
    exact ih

theorem leaves_resolveText (o : ResolveOptions) (c : Config) (index : SymbolIndex) :
    (w.resolveText o c index).Leaves fun _ => True := by
  refine (w.leaves_readInput o.input).bind_quiet fun bytes => ?_
  cases normalizeBytes bytes with
  | error e => exact leaves_throw _
  | ok text =>
    refine leaves_get (fun s => ?_) fun _ _ => rfl
    dsimp only
    split
    · exact (leaves_recount _).bind_quiet fun _ => leaves_throw _
    · rename_i resolution state input resolved
      refine (Yields.leaves fun i => ⟨_, _, yields_setInput i input⟩).bind_quiet fun _ => ?_
      refine (leaves_recount _).bind_quiet fun _ => ?_
      refine (Yields.leaves fun i => ⟨_, _, w.yields_warnings _ i⟩).bind_quiet fun _ => ?_
      have reported (resolved : Text) : (if resolution.declaration.unresolvedFields.isEmpty = true
          then w.status.success resolved else w.status.warning (resolved ++ " with ".toList ++
            counted resolution.declaration.unresolvedFields.length "field".toList
              "fields".toList ++ " left unsized".toList)).Succeeds fun _ => True := by
        split <;> exact succeeds_say w.status _ _
      exact (w.leaves_write o.output _).bind (fun _ => (reported _).leaves) fun _ _ => reported _

theorem leaves_resolveWith (o : ResolveOptions) (c : Config) :
    (w.resolveWith o c).Leaves fun _ => True := by
  have rest (index : SymbolIndex) : (do
      let isDone ← o.name.elim (pure false) (w.resolveName o c index)
      if isDone then return else w.resolveText o c index : Run Unit).Leaves fun _ => True := by
    have named : (o.name.elim (pure false) (w.resolveName o c index)).Leaves (· = true) := by
      cases o.name with
      | none => exact leaves_pure false
      | some name => exact w.leaves_resolveName o c index name
    refine named.bind (fun isDone => ?_) fun isDone same => ?_
    · cases isDone
      · exact w.leaves_resolveText o c index
      · exact leaves_pure ()
    · obtain rfl : isDone = true := same
      exact succeeds_pure trivial
  have loaded : (c.symbolDatabase.elim (pure .empty) w.loadDatabase).Leaves fun _ => False := by
    cases c.symbolDatabase with
    | none => exact leaves_pure _
    | some path => exact w.leaves_loadDatabase path
  refine (leaves_say w.status _ _).bind_quiet fun _ => loaded.bind_quiet fun index => ?_
  split
  · exact (leaves_say w.status _ _).bind_quiet fun _ => rest index
  · exact rest index

theorem leaves_resolve (o : ResolveOptions) (c : Config) :
    (w.resolve o c).Leaves fun _ => True := by
  refine (leaves_check _ _).bind_quiet fun _ => ?_
  refine (leaves_check _ _).bind_quiet fun _ => ?_
  exact (w.leaves_resolveWith o (o.applyTo c)).timed "resolve".toList

theorem leaves_indexWith (o : IndexOptions) : (w.indexWith o).Leaves fun _ => True := by
  refine (leaves_say w.status _ _).bind_quiet fun _ => ?_
  dsimp only
  refine (leaves_emitAll isQuiet_of_mem_map).bind_quiet fun _ => ?_
  split
  · exact leaves_throw _
  · refine (leaves_check _ _).bind_quiet fun _ => ?_
    exact (w.succeeds_wrote o.output _ _).leaves

theorem leaves_index (o : IndexOptions) : (w.index o).Leaves fun _ => True :=
  (leaves_check _ _).bind_quiet fun _ => (w.leaves_indexWith o).timed "index".toList

theorem leaves_types (o : TypesOptions) (c : Config) : (w.types o c).Leaves fun _ => True := by
  refine (leaves_check _ _).bind_quiet fun _ => ?_
  refine (leaves_check _ _).bind_quiet fun _ => ?_
  exact (w.leaves_write none _).bind (fun _ => leaves_say w.status _ _)
    fun _ _ => succeeds_say w.status _ _

end Setting

namespace Arguments

variable (a : Arguments) (disk : Disk)

theorem leaves_loadConfig {done : Config → Prop} : (a.loadConfig disk).Leaves done := by
  rw [loadConfig]
  split
  · exact leaves_pure _
  · split
    · exact leaves_pure _
    · exact leaves_throw _

theorem leaves_execute : (a.execute disk).Leaves fun _ => True := by
  refine (a.leaves_loadConfig disk).bind_quiet fun c => ?_
  cases command : a.command with
  | resolve o => exact Setting.leaves_resolve _ o c
  | index o => exact Setting.leaves_index _ o
  | types o => exact Setting.leaves_types _ o c

theorem outcome_of_does {input : Bytes} {result : Except Failure Unit} {left : LineSource}
    {added : List Event} (does : (a.execute disk).Does ⟨[], input⟩ result left added) :
    (a.outcome disk input).events = added ∧
      ((a.outcome disk input).failure = none ↔ result = .ok ()) := by
  rw [outcome, does []]
  cases result <;> simp

theorem outcome_failed (input : Bytes) (failed : (a.outcome disk input).failure ≠ none) :
    (a.outcome disk input).output = [] ∧ (a.outcome disk input).written = [] := by
  obtain ⟨result, left, added, does, quiet⟩ := a.leaves_execute disk ⟨[], input⟩
  obtain ⟨events, outcome⟩ := a.outcome_of_does disk does
  have quiet : ∀ e ∈ added, e.IsQuiet := by
    rcases quiet with quiet | ⟨_, succeeded, -⟩
    · exact quiet
    · exact absurd (outcome.mpr succeeded) failed
  rw [Outcome.output, Outcome.written, events, List.flatMap_eq_nil_iff,
    List.filterMap_eq_nil_iff]
  exact ⟨fun e among => (quiet e among).1, fun e among => (quiet e among).2⟩

end Arguments

/-- A program that ends with an error has written nothing to standard output and no file. -/
theorem runProgram_failed (words : List Text) (disk : Disk) (input : Bytes)
    (failed : (runProgram words disk input).exitCode ≠ 0) :
    (runProgram words disk input).output = [] ∧ (runProgram words disk input).written = [] := by
  rw [runProgram] at failed ⊢
  cases read : Arguments.read words with
  | error e => cases e <;> simp_all [UsageError.ending]
  | ok a =>
    simp only [read, Outcome.ending] at failed ⊢
    exact a.outcome_failed disk input (by simpa using failed)

def heldFiles : Directory := Table.ofList
  [("out".toList, Utf8.encode "old".toList),
    ("s.json".toList, Utf8.encode "[\x7b\"name\":\"_S\",\"size\":4\x7d]".toList)]

-- The name is looked up in vain, and the declaration that is read instead is not closed. The file
-- for the output is there already.
theorem runProgram_failed_unclosed :
    let words := ["resolve".toList, "-s".toList, "s.json".toList, "-n".toList, "T".toList,
      "-o".toList, "out".toList]
    let input := Utf8.encode "struct S \x7b INT a;".toList
    (runProgram words heldFiles.disk input).exitCode ≠ 0 ∧
      (runProgram words heldFiles.disk input).output = [] ∧
        (runProgram words heldFiles.disk input).written = [] := by
  intro words input
  have failed : (runProgram words heldFiles.disk input).exitCode ≠ 0 := by decide +kernel
  exact ⟨failed, runProgram_failed words heldFiles.disk input failed⟩

end MemberOffsets
