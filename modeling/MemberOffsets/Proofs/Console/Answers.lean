import MemberOffsets.Proofs.Console.Prompt
import MemberOffsets.Proofs.Declaration.Tree
import MemberOffsets.Proofs.Layout.Placement
import MemberOffsets.Proofs.Layout.Resolution
import MemberOffsets.Proofs.Sizing.Inquiry

set_option autoImplicit false

namespace MemberOffsets

open Text

namespace LineSource

/-- Lines without their newlines. The end of the bytes ends a line too, if it is not empty. -/
def linesOf : Bytes → List Bytes
  | [] => []
  | b :: r =>
      if b = newline then [] :: linesOf r
      else
        match linesOf r with
        | [] => [[b]]
        | line :: later => (b :: line) :: later

def lines (s : LineSource) : List Bytes := linesOf (s.ahead ++ s.behind)

theorem linesOf_append {line : Bytes} (single : newline ∉ line) (later : Bytes) :
    linesOf (line ++ newline :: later) = line :: linesOf later := by
  induction line with
  | nil => simp [linesOf]
  | cons b line ih =>
    simp only [List.mem_cons, not_or] at single
    simp [linesOf, Ne.symm single.1, ih single.2]

theorem linesOf_single {line : Bytes} (single : newline ∉ line) (nonempty : line ≠ []) :
    linesOf line = [line] := by
  induction line with
  | nil => contradiction
  | cons b line ih =>
    simp only [List.mem_cons, not_or] at single
    cases line with
    | nil => simp [linesOf, Ne.symm single.1]
    | cons c line => rw [linesOf, if_neg (Ne.symm single.1), ih single.2 (List.cons_ne_nil c line)]

theorem next?_last {ahead behind : Bytes} (single : newline ∉ ahead ++ behind) :
    next? ⟨ahead, behind⟩ =
      if ahead ++ behind = [] then none else some (ahead ++ behind, ⟨[], []⟩) := by
  induction size : behind.length using Nat.strongRecOn generalizing ahead behind with
  | ind n ih =>
    have front : newline ∉ ahead := fun among => single (List.mem_append_left _ among)
    by_cases last : behind = []
    · have absent : ahead.dropWhile (· != newline) = [] := by
        rw [List.dropWhile_eq_nil_iff]
        intro b among
        simpa using fun same : b = newline => front (same ▸ among)
      rw [last, List.append_nil, next?, absent]
      simp
    · have shorter : (behind.drop chunk).length < n := by
        have := List.length_pos_iff.mpr last
        simp only [List.length_drop, chunk]
        omega
      have whole : ahead ++ behind.take chunk ++ behind.drop chunk = ahead ++ behind := by
        rw [List.append_assoc, List.take_append_drop]
      rw [next?_of_not_mem front last, ih _ shorter (whole ▸ single) rfl, whole]

theorem next?_lines (s : LineSource) :
    s.next?.map (fun (line, rest) => (line, rest.lines)) =
      s.lines.head?.map (·, s.lines.tail) := by
  obtain ⟨ahead, behind⟩ := s
  by_cases here : newline ∈ ahead
  · obtain ⟨line, later, rfl, single⟩ := List.eq_append_cons_of_mem here
    rw [next?_of_mem single, lines]
    simp [linesOf_append single, lines]
  · by_cases there : newline ∈ behind
    · obtain ⟨line, later, rfl, single⟩ := List.eq_append_cons_of_mem there
      rw [next?_chunks here single, lines, ← List.append_assoc,
        linesOf_append (List.not_mem_append here single)]
      simp [lines]
    · have single := List.not_mem_append here there
      rw [next?_last single, lines]
      by_cases empty : ahead ++ behind = []
      · simp [empty, linesOf]
      · simp [empty, linesOf_single single empty, lines, linesOf]

end LineSource

namespace Prompt

def heard (line : Option Bytes) : Option Text :=
  line.bind fun bytes => (Utf8.decode bytes).toOption.map trim

theorem answer_lines (s : LineSource) :
    (answer s).1 = heard s.lines.head? ∧ (answer s).2.lines = s.lines.tail := by
  have next := s.next?_lines
  cases read : s.next? with
  | none =>
    have empty : s.lines = [] := by simpa [read] using next.symm
    simp [answer, read, empty, heard]
  | some result =>
    obtain ⟨line, rest⟩ := result
    obtain ⟨later, whole, left⟩ : ∃ later, s.lines = line :: later ∧ rest.lines = later := by
      cases lines : s.lines <;> simp_all
    cases text : Utf8.decode line <;>
      simp [answer, read, text, whole, left, heard, Except.toOption]

end Prompt

inductive Question where
  | choose (name : Text) (candidates : List Text)
  | confirm (name : Text)
deriving DecidableEq, Repr

def Question.answeredBy (line : Option Bytes) : Question → Exchange
  | choose name candidates =>
      .choose name candidates ((Prompt.heard line).bind (Prompt.pick candidates))
  | confirm name => .confirm name ((Prompt.heard line).any Prompt.isYes)

namespace Fallback

variable {σ : Type}

def ask (fallback : Fallback σ) : Question → σ → Exchange × σ
  | .choose name candidates, s =>
      let (answer, s) := fallback.choose name candidates s
      (.choose name candidates answer, s)
  | .confirm name, s =>
      let (answer, s) := fallback.confirm name s
      (.confirm name answer, s)

def askAll (fallback : Fallback σ) : List Question → σ → List Exchange × σ
  | [], s => ([], s)
  | q :: qs, s =>
      let (exchange, s) := fallback.ask q s
      let (later, s) := askAll fallback qs s
      (exchange :: later, s)

theorem askAll_append (fallback : Fallback σ) (qs qs' : List Question) (s : σ) :
    fallback.askAll (qs ++ qs') s =
      ((fallback.askAll qs s).1 ++ (fallback.askAll qs' (fallback.askAll qs s).2).1,
        (fallback.askAll qs' (fallback.askAll qs s).2).2) := by
  induction qs generalizing s with
  | nil => rfl
  | cons q qs ih => simp [askAll, ih]

theorem length_askAll (fallback : Fallback σ) (qs : List Question) (s : σ) :
    (fallback.askAll qs s).1.length = qs.length := by
  induction qs generalizing s with
  | nil => rfl
  | cons q qs ih => simp [askAll, ih]

end Fallback

def Prompt.scripted (script : List Bytes) : Fallback Nat where
  choose _ candidates k := ((heard script[k]?).bind (pick candidates), k + 1)
  confirm _ k := ((heard script[k]?).any isYes, k + 1)

namespace Prompt

theorem ask_lines (q : Question) (s : LineSource) :
    (fallback.ask q s).1 = q.answeredBy s.lines.head? ∧
      (fallback.ask q s).2.lines = s.lines.tail := by
  obtain ⟨answer, left⟩ := answer_lines s
  cases q with
  | choose name candidates => exact ⟨by rw [Question.answeredBy, ← answer]; rfl, left⟩
  | confirm name => exact ⟨by rw [Question.answeredBy, ← answer]; rfl, left⟩

theorem askAll_lines (qs : List Question) (s : LineSource) :
    (∀ k : Nat, (fallback.askAll qs s).1[k]? = qs[k]?.map (Question.answeredBy s.lines[k]?)) ∧
      (fallback.askAll qs s).2.lines = s.lines.drop qs.length := by
  induction qs generalizing s with
  | nil => exact ⟨fun k => rfl, rfl⟩
  | cons q qs ih =>
    obtain ⟨first, left⟩ := ask_lines q s
    obtain ⟨later, last⟩ := ih (fallback.ask q s).2
    constructor
    · intro k
      cases k with
      | zero => simp [Fallback.askAll, first, List.head?_eq_getElem?]
      | succ k => simp [Fallback.askAll, later, left]
    · simp [Fallback.askAll, last, left]

theorem alike_scripted (script : List Bytes) :
    fallback.Alike (fun s k => s.lines = script.drop k) (scripted script) where
  choose name candidates s k related := by
    obtain ⟨answer, left⟩ := answer_lines s
    rw [related, List.head?_drop] at answer
    rw [related, List.tail_drop] at left
    exact ⟨by simp [scripted, fallback, answer], left⟩
  confirm name s k related := by
    obtain ⟨answer, left⟩ := answer_lines s
    rw [related, List.head?_drop] at answer
    rw [related, List.tail_drop] at left
    exact ⟨by simp [scripted, fallback, answer], left⟩

end Prompt

def Exchange.isQuestion (e : Exchange) : Bool := e.lookup?.isNone

def Resolution.asked (r : Resolution) : List Exchange :=
  ((MemberTree.leavesOf r.members).flatMap SizedField.exchanges).filter Exchange.isQuestion

def Fallback.Session {σ τ : Type} (fallback : Fallback τ) (before : σ × τ)
    (exchanges : List Exchange) (after : σ × τ) : Prop :=
  ∃ qs, fallback.askAll qs before.2 = (exchanges.filter Exchange.isQuestion, after.2)

namespace Fallback.Session

variable {σ τ : Type} {fallback : Fallback τ} {s t u : σ × τ} {es es' : List Exchange}

theorem nil (s : σ × τ) : fallback.Session s [] s := ⟨[], rfl⟩

theorem append (first : fallback.Session s es t) (later : fallback.Session t es' u) :
    fallback.Session s (es ++ es') u := by
  obtain ⟨qs, first⟩ := first
  obtain ⟨qs', later⟩ := later
  exact ⟨qs ++ qs', by rw [askAll_append, first, later, List.filter_append]⟩

theorem run {α : Type} (x : Inquiry α) (db : Database σ) (s : σ × τ) :
    fallback.Session s (x.run (.of db fallback) s).2.1 (x.run (.of db fallback) s).2.2 := by
  induction x generalizing s with
  | done a => exact .nil s
  | lookup name next ih =>
    have first : fallback.Session s [.lookup name (db.width name s.1).1]
        ((db.width name s.1).2, s.2) := ⟨[], rfl⟩
    exact first.append (ih _ _)
  | choose name candidates next ih =>
    have first : fallback.Session s
        [.choose name candidates (fallback.choose name candidates s.2).1]
        (s.1, (fallback.choose name candidates s.2).2) := ⟨[.choose name candidates], rfl⟩
    exact first.append (ih _ _)
  | confirm name next ih =>
    have first : fallback.Session s [.confirm name (fallback.confirm name s.2).1]
        (s.1, (fallback.confirm name s.2).2) := ⟨[.confirm name], rfl⟩
    exact first.append (ih _ _)

theorem sizeField (p : Profile) (db : Database σ) (d : FieldDecl) (s : σ × τ) :
    fallback.Session s (p.sizeField (.of db fallback) d s).1.exchanges
      (p.sizeField (.of db fallback) d s).2 := by
  rw [p.sizeField_eq]
  dsimp only
  exact run (p.sizing d.type) db s

theorem sizeFields (p : Profile) (db : Database σ) (ms : List Statement) (s : σ × τ) :
    fallback.Session s
      ((MemberTree.leavesOf (p.sizeFields (.of db fallback) ms s).1).flatMap SizedField.exchanges)
      (p.sizeFields (.of db fallback) ms s).2 :=
  MemberTree.traverseAll_events nil append (sizeField p db) ms s

end Fallback.Session

section

variable {σ τ τ' : Type} {fallback : Fallback τ} {fallback' : Fallback τ'} {R : τ → τ' → Prop}
  {p : Profile} {db : Database σ} {s : σ} {t : τ} {t' : τ'} {text : Text} {base : Nat}

-- The database is the same on both sides, so its state stays the same.
theorem sizeField_alike (alike : fallback.Alike R fallback') (d : FieldDecl) (u : σ × τ)
    (u' : σ × τ') (states : u'.1 = u.1 ∧ R u.2 u'.2) :
    (p.sizeField (.of db fallback') d u').1 = (p.sizeField (.of db fallback) d u).1 ∧
      (p.sizeField (.of db fallback') d u').2.1 = (p.sizeField (.of db fallback) d u).2.1 ∧
        R (p.sizeField (.of db fallback) d u).2.2 (p.sizeField (.of db fallback') d u').2.2 := by
  obtain ⟨s, t⟩ := u
  obtain ⟨s', t'⟩ := u'
  obtain ⟨rfl, related⟩ : s' = s ∧ R t t' := states
  obtain ⟨answer, exchanges, left⟩ := Inquiry.run_alike alike (p.sizing d.type) db s' related
  rw [p.sizeField_eq, p.sizeField_eq, answer, exchanges]
  dsimp only
  exact ⟨rfl, left⟩

theorem sizeFields_alike (alike : fallback.Alike R fallback') (related : R t t')
    (ms : List Statement) :
    (p.sizeFields (.of db fallback') ms (s, t')).1 =
      (p.sizeFields (.of db fallback) ms (s, t)).1 := by
  rw [Profile.sizeFields, Profile.sizeFields]
  exact (MemberTree.traverseAll_related (R := fun u u' => u'.1 = u.1 ∧ R u.2 u'.2)
    (fun d u u' states => sizeField_alike alike d u u' states) ms ⟨rfl, related⟩).1

theorem ofText_alike (alike : fallback.Alike R fallback') (related : R t t') :
    (Resolution.ofText p (.of db fallback') text base (s, t')).map Prod.fst =
      (Resolution.ofText p (.of db fallback) text base (s, t)).map Prod.fst := by
  rw [Resolution.ofText, Resolution.ofText]
  cases Shell.split (normalize text) with
  | error place => rfl
  | ok shell =>
    simp only [bind, Except.bind, Resolution.ofShell]
    cases segment shell.body with
    | error place => rfl
    | ok statements => simp only [Except.map, sizeFields_alike alike related]

theorem resolveDeclaration_alike (alike : fallback.Alike R fallback') (related : R t t') :
    (p.resolveDeclaration (.of db fallback') text base (s, t')).map Prod.fst =
      (p.resolveDeclaration (.of db fallback) text base (s, t)).map Prod.fst := by
  have declared {τ : Type} (fallback : Fallback τ) (t : τ) :
      (p.resolveDeclaration (.of db fallback) text base (s, t)).map Prod.fst =
        ((Resolution.ofText p (.of db fallback) text base (s, t)).map Prod.fst).map
          Resolution.declaration := by
    rw [Profile.resolveDeclaration]
    cases Resolution.ofText p (.of db fallback) text base (s, t) <;> rfl
  rw [declared, declared, ofText_alike alike related]

theorem Resolution.asked_session {r : Resolution} {left : σ × τ}
    (resolved : ofText p (.of db fallback) text base (s, t) = .ok (r, left)) :
    ∃ qs, fallback.askAll qs t = (r.asked, left.2) := by
  obtain ⟨shell, -, resolved⟩ := ofText_eq_ok.mp resolved
  obtain ⟨statements, -, rfl, rfl⟩ := ofShell_eq_ok.mp resolved
  exact Fallback.Session.sizeFields p db statements (s, t)

end

namespace Prompt

variable {candidates : List Text} {answer c : Text}

theorem mem_of_pick (picked : pick candidates answer = some c) : c ∈ candidates := by
  unfold pick at picked
  split at picked
  · contradiction
  · split at picked
    · contradiction
    · exact List.mem_of_getElem? picked
    · exact List.mem_of_find?_eq_some picked

end Prompt

/-- Each question at the prompt is answered by the line of the input that has its number, and by
nothing else; a line that is missing or no text is no answer. So a resolution asks for one line
after the other, field by field, and a script of the lines in place of the prompt makes no
difference. -/
theorem prompt_line_by_line (source : LineSource) :
    (∀ qs, (∀ k : Nat, (Prompt.fallback.askAll qs source).1[k]? =
        qs[k]?.map (Question.answeredBy source.lines[k]?)) ∧
      (Prompt.fallback.askAll qs source).2.lines = source.lines.drop qs.length) ∧
    (∀ q fault bytes, Utf8.decode bytes = .error fault →
      Question.answeredBy (some bytes) q = Question.answeredBy none q) ∧
    (∀ name candidates, Question.answeredBy none (.choose name candidates) =
      .choose name candidates none) ∧
    (∀ name, Question.answeredBy none (.confirm name) = .confirm name false) ∧
    (∀ name candidates line c, Question.answeredBy line (.choose name candidates) =
      .choose name candidates (some c) → c ∈ candidates) ∧
    ∀ {σ : Type} (p : Profile) (db : Database σ) (text : Text) (base : Nat) (s : σ),
      (p.resolveDeclaration (.of db Prompt.fallback) text base (s, source)).map Prod.fst =
        (p.resolveDeclaration (.of db (Prompt.scripted source.lines)) text base (s, 0)).map
          Prod.fst ∧
      ∀ r left, Resolution.ofText p (.of db Prompt.fallback) text base (s, source) = .ok (r, left) →
        (∀ (k : Nat) e, r.asked[k]? = some e → ∃ q, e = Question.answeredBy source.lines[k]? q) ∧
          left.2.lines = source.lines.drop r.asked.length := by
  refine ⟨fun qs => Prompt.askAll_lines qs source, ?_, fun _ _ => rfl, fun _ => rfl, ?_, ?_⟩
  · intro q fault bytes malformed
    have silent : Prompt.heard (some bytes) = none := by
      simp [Prompt.heard, malformed, Except.toOption]
    cases q <;> rw [Question.answeredBy, silent] <;> rfl
  · intro name candidates line c picked
    obtain ⟨-, -, picked⟩ := Exchange.choose.inj picked
    obtain ⟨answer, -, picked⟩ := Option.bind_eq_some_iff.mp picked
    exact Prompt.mem_of_pick picked
  · intro σ p db text base s
    have start : source.lines = source.lines.drop 0 := rfl
    refine ⟨(resolveDeclaration_alike (Prompt.alike_scripted source.lines) start).symm, ?_⟩
    intro r left resolved
    obtain ⟨qs, session⟩ := Resolution.asked_session resolved
    obtain ⟨answered, rest⟩ := Prompt.askAll_lines qs source
    rw [session] at answered rest
    have length : r.asked.length = qs.length := by
      rw [← Prompt.fallback.length_askAll qs source, session]
    refine ⟨fun k e place => ?_, by rw [length, rest]⟩
    rw [answered, Option.map_eq_some_iff] at place
    obtain ⟨q, -, rfl⟩ := place
    exact ⟨q, rfl⟩

-- Three fields whose types are asked for. The first line is no text, the second one is a number,
-- and there is no third one.
theorem prompt_line_by_line_missing :
    let source := LineSource.ofBytes (0xFF :: LineSource.newline :: Utf8.encode " 2\r".toList)
    let index : SymbolIndex :=
      Table.ofList [.ofStruct "_ENTRY".toList 16, .ofStruct "__ENTRY".toList 24]
    let profile : Profile := { Profile.x64 with widths := .ofList [("ULONG".toList, 4)] }
    let text := "Pa x;entry y;Pb z;".toList
    let responder := Responder.of (Database.ofIndex (σ := Unit) index) Prompt.fallback
    let choice := Exchange.choose "entry".toList index.keys (some "__ENTRY".toList)
    source.lines = [[0xFF], Utf8.encode " 2\r".toList] ∧
      Utf8.decode [0xFF] = .error (.invalid 1 0) ∧
      Question.answeredBy (some [0xFF]) (.confirm "Pa".toList) = .confirm "Pa".toList false ∧
      Question.answeredBy source.lines[1]? (.choose "entry".toList index.keys) = choice ∧
      "__ENTRY".toList ∈ index.keys ∧
      ∃ r left, Resolution.ofText profile responder text 0 ((), source) = .ok (r, left) ∧
        r.asked = [.confirm "Pa".toList false, choice, .confirm "Pb".toList false] ∧
        (∃ q, choice = Question.answeredBy source.lines[1]? q) ∧ left.2.lines = [] := by
  intro source index profile text responder choice
  obtain ⟨-, malformed, -, refused, among, resolution⟩ := prompt_line_by_line source
  obtain ⟨-, resolution⟩ := resolution profile (.ofIndex (σ := Unit) index) text 0 ()
  have lines : source.lines = [[0xFF], Utf8.encode " 2\r".toList] := by decide +kernel
  have invalid : Utf8.decode [0xFF] = .error (.invalid 1 0) := by decide
  have unread := malformed (.confirm "Pa".toList) (.invalid 1 0) [0xFF] invalid
  have second : Question.answeredBy source.lines[1]? (.choose "entry".toList index.keys) =
      choice := by
    decide +kernel
  have first : Piece.next? text = some (.statement "Pa x".toList, "entry y;Pb z;".toList) := by
    decide
  have later : Piece.next? "entry y;Pb z;".toList =
      some (.statement "entry y".toList, "Pb z;".toList) := by
    decide
  have last : Piece.next? "Pb z;".toList = some (.statement "Pb z".toList, []) := by decide
  have segmented : segment text = .ok [.field ⟨"Pa".toList, ⟨['x'], []⟩⟩,
      .field ⟨"entry".toList, ⟨['y'], []⟩⟩, .field ⟨"Pb".toList, ⟨['z'], []⟩⟩] := by
    rw [segment_eq_ok, statements_statement first, statements_statement later,
      statements_statement last, statements_blank rfl]
    rfl
  have split : Shell.split (normalize text) = .ok (.bare text) := by decide
  obtain ⟨r, left, resolved, asked⟩ : ∃ r left,
      Resolution.ofText profile responder text 0 ((), source) = .ok (r, left) ∧
        r.asked = [.confirm "Pa".toList false, choice, .confirm "Pb".toList false] :=
    ⟨_, _, Resolution.ofText_eq_ok.mpr ⟨_, split,
      Resolution.ofShell_eq_ok.mpr ⟨_, segmented, rfl, rfl⟩⟩, by decide +kernel⟩
  obtain ⟨answered, rest⟩ := resolution r left resolved
  have silent := unread.trans (refused "Pa".toList)
  have offered := among "entry".toList index.keys source.lines[1]? "__ENTRY".toList second
  have place : r.asked[1]? = some choice := by rw [asked]; rfl
  have drained : left.2.lines = [] := by rw [rest, lines, asked]; rfl
  exact ⟨lines, invalid, silent, second, offered, r, left, resolved, asked,
    answered 1 choice place, drained⟩

end MemberOffsets
