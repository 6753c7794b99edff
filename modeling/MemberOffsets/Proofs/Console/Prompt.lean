import Mathlib.Data.List.TakeWhile
import MemberOffsets.Proofs.Console.Execution
import MemberOffsets.Proofs.Basic

set_option autoImplicit false

namespace MemberOffsets

open Text Run

namespace LineSource

def excess (taken : Nat) : Nat := (chunk - taken % chunk) % chunk

theorem next?_of_mem {line later behind : Bytes} (single : newline ∉ line) :
    next? ⟨line ++ newline :: later, behind⟩ = some (line, ⟨later, behind⟩) := by
  have kept : ∀ b ∈ line, (b != newline) = true := by
    intro b among
    simpa using fun same : b = newline => single (same ▸ among)
  rw [next?]
  simp [List.dropWhile_append_of_pos kept, List.takeWhile_append_of_pos kept]

theorem next?_of_not_mem {ahead behind : Bytes} (single : newline ∉ ahead) (more : behind ≠ []) :
    next? ⟨ahead, behind⟩ = next? ⟨ahead ++ behind.take chunk, behind.drop chunk⟩ := by
  have read : ahead.dropWhile (· != newline) = [] := by
    rw [List.dropWhile_eq_nil_iff]
    intro b among
    simpa using fun same : b = newline => single (same ▸ among)
  rw [next?, read]
  simp [more]

theorem excess_succ {n : Nat} (short : n < chunk) : excess (n + 1) = chunk - (n + 1) := by
  simp only [excess, chunk] at short ⊢
  omega

theorem excess_sub {n : Nat} (long : chunk ≤ n) : excess (n - chunk + 1) = excess (n + 1) := by
  simp only [excess, chunk] at long ⊢
  omega

theorem next?_chunks {ahead rest : Bytes} (single : newline ∉ ahead) (single' : newline ∉ rest)
    (text : Bytes) :
    next? ⟨ahead, rest ++ newline :: text⟩ = some (ahead ++ rest,
      ⟨text.take (excess (rest.length + 1)), text.drop (excess (rest.length + 1))⟩) := by
  induction size : rest.length using Nat.strongRecOn generalizing ahead rest with
  | ind n ih =>
    subst size
    rw [next?_of_not_mem single (by simp)]
    -- The next chunk belongs to the line as a whole, or the line ends in it.
    by_cases long : chunk ≤ rest.length
    · have front : newline ∉ ahead ++ rest.take chunk :=
        List.not_mem_append single fun among => single' (List.mem_of_mem_take among)
      have back : newline ∉ rest.drop chunk := fun among => single' (List.mem_of_mem_drop among)
      have shorter : (rest.drop chunk).length < rest.length := by
        simp only [List.length_drop, chunk] at long ⊢
        omega
      rw [List.take_append_of_le_length long, List.drop_append_of_le_length long,
        ih _ shorter front back rfl, List.append_assoc, List.take_append_drop, List.length_drop,
        excess_sub long]
    · have short := Nat.lt_of_not_le long
      have after : chunk - rest.length = excess (rest.length + 1) + 1 := by
        rw [excess_succ short]
        omega
      rw [List.take_append, List.drop_append, List.take_of_length_le short.le,
        List.drop_of_length_le short.le, after, List.take_succ_cons, List.drop_succ_cons,
        ← List.append_assoc, next?_of_mem (List.not_mem_append single single')]
      rfl

end LineSource

def Prompt.pickLine (candidates : List Text) (line : Bytes) : Option Text :=
  ((Utf8.decode line).toOption.map trim).bind (pick candidates)

theorem Prompt.choose_line {line : Bytes} (single : LineSource.newline ∉ line) (text : Bytes)
    (name : Text) (candidates : List Text) :
    fallback.choose name candidates ⟨[], line ++ LineSource.newline :: text⟩ =
      (pickLine candidates line, ⟨text.take (LineSource.excess (line.length + 1)),
        text.drop (LineSource.excess (line.length + 1))⟩) := by
  have read := LineSource.next?_chunks List.not_mem_nil single text
  rw [List.nil_append] at read
  simp only [fallback, answer, read, pickLine]
  cases Utf8.decode line <;> rfl

namespace Run

variable {α β : Type}

/-- From an input on, a run comes to another one at what is left of that input, and has the result
and the output of that one. -/
def LeadsTo (m : Run β) (input : LineSource) (m' : Run β) (left : LineSource) : Prop :=
  ∀ result left' added, m'.Does left result left' added →
    ∃ added', m.Does input result left' added' ∧
      added'.flatMap Event.output = added.flatMap Event.output

variable {m : Run α} {m' n : Run β} {f : α → Run β} {a : α} {input mid left : LineSource}

theorem LeadsTo.refl (m : Run α) (input : LineSource) : m.LeadsTo input m input :=
  fun _ _ added does => ⟨added, does, rfl⟩

theorem Yields.leadsTo (here : m.Yields input a mid) (later : (f a).LeadsTo mid m' left) :
    (m >>= f).LeadsTo input m' left := by
  intro result left' added does
  obtain ⟨quiet, first, silent⟩ := here
  obtain ⟨added', rest, same⟩ := later result left' added does
  refine ⟨quiet ++ added', first.bind rest, ?_⟩
  rw [List.flatMap_append, same, List.flatMap_eq_nil_iff.mpr fun e among => (silent e among).1,
    List.nil_append]

theorem LeadsTo.timed (later : n.LeadsTo input m' left) (span : Text) :
    (timed span n).LeadsTo input m' left := by
  intro result left' added does
  obtain ⟨added', rest, same⟩ := later result left' added does
  exact ⟨_, rest.timed span, by simpa [Event.output] using same⟩

theorem yields_check {γ : Type} (failure : γ → Failure) {problem : Option γ}
    (sound : problem = none) (input : LineSource) :
    (check failure problem).Yields input () input := by
  rw [sound]
  exact yields_pure () input

end Run

namespace Setting

variable (w : Setting) {o : ResolveOptions} {c : Config} {index : SymbolIndex} {name : Text}
  {candidates : List Text}

/-- What a resolution prints that reads the declaration from what is still to be taken of a source,
and the answers to its questions from what has been taken already. -/
def textOutput (o : ResolveOptions) (c : Config) (index : SymbolIndex) (source : LineSource) :
    Text :=
  ((w.resolveText o c index).run ⟨source, []⟩).2.events.flatMap Event.output

theorem output_of_leadsTo {m : Run Unit} {input left : LineSource}
    (leads : m.LeadsTo input (w.resolveText o c index) left) :
    ∃ result left' added, m.Does input result left' added ∧
      added.flatMap Event.output = w.textOutput o c index left := by
  obtain ⟨result, left', added, does, -⟩ := w.leaves_resolveText o c index left
  obtain ⟨added', does', same⟩ := leads result left' added does
  refine ⟨result, left', added', does', ?_⟩
  rw [textOutput, does [], same, List.nil_append]

theorem yields_loadDatabase {path : Text} (opened : w.symbolsAt path = .ok index)
    (input : LineSource) : (w.loadDatabase path).Yields input index input := by
  have read : (w.openDatabase path).Yields input index input := by
    obtain ⟨added, does, quiet⟩ := w.does_openDatabase path input
    rw [opened] at does
    exact ⟨added, does, quiet⟩
  exact (yields_say w.status _ _ input).bind
    (read.bind ((yields_say w.status _ _ input).bind (yields_pure index input)))

theorem yields_resolveName {input left : LineSource} (interactive : c.interactive = true)
    (several : index.find name = .ambiguous candidates)
    (declined : Prompt.fallback.choose name candidates input = (none, left)) :
    (w.resolveName o c index name).Yields input false left := by
  have asked := yields_lookUp several input
  rw [declined] at asked
  rw [resolveName, interactive]
  refine (yields_say w.status _ _ input).bind (asked.bind ?_)
  exact (yields_say w.status _ _ left).bind (yields_pure false left)

theorem leadsTo_resolveText {input left : LineSource} (named : o.name = some name)
    (interactive : c.interactive = true)
    (symbols : c.symbolDatabase.elim (.ok .empty) w.symbolsAt = .ok index)
    (several : index.find name = .ambiguous candidates)
    (declined : Prompt.fallback.choose name candidates input = (none, left)) :
    (w.resolveWith o c).LeadsTo input (w.resolveText o c index) left := by
  have opened : (c.symbolDatabase.elim (pure .empty) w.loadDatabase).Yields input index input := by
    cases database : c.symbolDatabase with
    | none =>
      rw [database] at symbols
      obtain rfl := Except.ok.inj symbols
      exact yields_pure _ input
    | some path =>
      rw [database] at symbols
      exact w.yields_loadDatabase symbols input
  have looked : (o.name.elim (pure false) (w.resolveName o c index)).Yields input false left := by
    rw [named]
    exact w.yields_resolveName interactive several declined
  have rest := looked.leadsTo (f := fun isDone =>
    if isDone = true then return else w.resolveText o c index) (LeadsTo.refl _ left)
  refine (yields_say w.status _ _ input).leadsTo (opened.leadsTo ?_)
  split
  · exact (yields_say w.status _ _ input).leadsTo rest
  · exact rest

end Setting

namespace Arguments

variable {a : Arguments} {disk : Disk} {o : ResolveOptions} {c : Config} {index : SymbolIndex}
  {name : Text} {candidates : List Text}

def setting (a : Arguments) (disk : Disk) (c : Config) : Setting := ⟨disk, ⟨a.quiet || c.quiet⟩⟩

structure Asks (a : Arguments) (disk : Disk) (o : ResolveOptions) (c : Config)
    (index : SymbolIndex) (name : Text) (candidates : List Text) : Prop where
  command : a.command = .resolve o
  input : o.input = none
  named : o.name = some name
  interactive : o.interactive = true
  config : a.config.elim (.ok {}) (Config.load disk) = .ok c
  sound : (Command.resolve o).problem? disk.fileExists = none
  valid : (o.applyTo c).problem? disk.fileExists = none
  symbols : (o.applyTo c).symbolDatabase.elim (.ok .empty) (a.setting disk c).symbolsAt = .ok index
  several : index.find name = .ambiguous candidates

theorem Asks.leadsTo (asks : a.Asks disk o c index name candidates) {input left : LineSource}
    (declined : Prompt.fallback.choose name candidates input = (none, left)) :
    (a.execute disk).LeadsTo input ((a.setting disk c).resolveText o (o.applyTo c) index) left := by
  have loaded : (a.loadConfig disk).Yields input c input := by
    have config := asks.config
    rw [loadConfig]
    cases given : a.config with
    | none =>
      rw [given] at config
      obtain rfl := Except.ok.inj config
      exact yields_pure _ input
    | some path =>
      rw [given] at config
      have load : Config.load disk path = .ok c := config
      simp only [load]
      exact yields_pure c input
  have interactive : (o.applyTo c).interactive = true := by
    simp [ResolveOptions.applyTo, asks.interactive]
  have resolved := (a.setting disk c).leadsTo_resolveText asks.named interactive asks.symbols
    asks.several declined
  refine loaded.leadsTo ?_
  rw [asks.command]
  refine (yields_check _ asks.sound input).leadsTo ?_
  exact (yields_check _ asks.valid input).leadsTo (resolved.timed "resolve".toList)

end Arguments

/-- Whoever declines at the question has the declaration read from behind the chunk that the answer
line ends in, and what that chunk holds beyond the line is left for answers. -/
theorem output_declined {a : Arguments} {disk : Disk} {o : ResolveOptions} {c : Config}
    {index : SymbolIndex} {name : Text} {candidates : List Text}
    (asks : a.Asks disk o c index name candidates) (line text : Bytes)
    (single : LineSource.newline ∉ line) (declined : Prompt.pickLine candidates line = none) :
    let printed := (a.setting disk c).textOutput o (o.applyTo c) index
    let output := (a.outcome disk (line ++ LineSource.newline :: text)).output
    let excess := LineSource.excess (line.length + 1)
    output = printed ⟨text.take excess, text.drop excess⟩ ∧
      (LineSource.chunk ∣ line.length + 1 → output = printed ⟨[], text⟩) := by
  intro printed output excess
  have general : output = printed ⟨text.take excess, text.drop excess⟩ := by
    have choice := Prompt.choose_line single text name candidates
    rw [declined] at choice
    obtain ⟨result, left, added, does, same⟩ :=
      (a.setting disk c).output_of_leadsTo (asks.leadsTo choice)
    have events := (a.outcome_of_does disk does).1
    change (a.outcome disk _).events.flatMap Event.output = _
    rw [events, same]
  refine ⟨general, fun whole => ?_⟩
  have lossless : excess = 0 := by
    simp only [excess, LineSource.excess, Nat.mod_eq_zero_of_dvd whole]
    simp
  rw [general, lossless, List.take_zero, List.drop_zero]

-- Two symbols that a name fits equally well, and a command that asks about them.
def twinFiles : Directory := Table.ofList [("s.json".toList, Utf8.encode
  "[\x7b\"name\":\"_N\",\"size\":4\x7d,\x7b\"name\":\"__N\",\"size\":8\x7d]".toList)]

def twinOptions : ResolveOptions :=
  ⟨none, none, none, none, false, some "s.json".toList, some ['N'], true, false⟩

def twinArguments : Arguments := ⟨.resolve twinOptions, Arguments.defaultLogLevel, 0, true, none⟩

def twinIndex : SymbolIndex :=
  ((twinArguments.setting twinFiles.disk {}).symbolsAt "s.json".toList).toOption.getD .empty

def twins : List Text := ["_N".toList, "__N".toList]

theorem asks_twins : twinArguments.Asks twinFiles.disk twinOptions {} twinIndex ['N'] twins where
  command := rfl
  input := rfl
  named := rfl
  interactive := rfl
  config := rfl
  sound := by decide +kernel
  valid := by decide +kernel
  symbols := by
    have opened : ((twinArguments.setting twinFiles.disk {}).symbolsAt
        "s.json".toList).toOption.isSome = true := by decide +kernel
    change (twinArguments.setting twinFiles.disk {}).symbolsAt "s.json".toList = _
    obtain ⟨index, value⟩ := Option.isSome_iff_exists.mp opened
    rw [twinIndex, value]
    exact ok_of_toOption value
  several := by decide +kernel

theorem output_declined_twins :
    let line := Utf8.encode ['3']
    let text := Utf8.encode "INT a;".toList
    let printed := (twinArguments.setting twinFiles.disk {}).textOutput twinOptions
      (twinOptions.applyTo {}) twinIndex
    let output := (twinArguments.outcome twinFiles.disk (line ++ LineSource.newline :: text)).output
    let excess := LineSource.excess (line.length + 1)
    twinArguments.Asks twinFiles.disk twinOptions {} twinIndex ['N'] twins ∧
      LineSource.newline ∉ line ∧ Prompt.pickLine twins line = none ∧
        output = printed ⟨text.take excess, text.drop excess⟩ ∧
          (LineSource.chunk ∣ line.length + 1 → output = printed ⟨[], text⟩) := by
  intro line text printed output excess
  have single : LineSource.newline ∉ line := by decide +kernel
  have declined : Prompt.pickLine twins line = none := by decide +kernel
  exact ⟨asks_twins, single, declined, output_declined asks_twins line text single declined⟩

theorem output_declined_lost :
    let text := Utf8.encode "INT a;".toList
    twinArguments.Asks twinFiles.disk twinOptions {} twinIndex ['N'] twins ∧
      LineSource.newline ∉ ([] : Bytes) ∧ Prompt.pickLine twins [] = none ∧
        (twinArguments.outcome twinFiles.disk ([] ++ LineSource.newline :: text)).output ≠
          (twinArguments.setting twinFiles.disk {}).textOutput twinOptions
            (twinOptions.applyTo {}) twinIndex ⟨[], text⟩ := by
  refine ⟨asks_twins, List.not_mem_nil, by decide +kernel, ?_⟩
  decide +kernel

end MemberOffsets
