import MemberOffsets.Proofs.Sizing.Inquiry
import MemberOffsets.Sizing.Width

set_option autoImplicit false

namespace MemberOffsets

open Text

def Profile.rules (p : Profile) (name : Text) : List (Option Nat) :=
  [if name.getLast? = some '*' then some p.pointerBytes else none,
    p.override? name,
    if isPointerAlias name then some p.pointerBytes else none,
    p.widthOf? name]

theorem Profile.sizing?_eq_rules (p : Profile) (name : Text) :
    (p.sizing? name).map Sizing.width = (p.rules name).findSome? id := by
  by_cases star : name.getLast? = some '*'
  · simp [sizing?, rules, star]
  · cases override : p.override? name with
    | some width => simp [sizing?, rules, star, override]
    | none =>
      by_cases named : isPointerAlias name <;>
        cases builtIn : p.widthOf? name <;> simp [sizing?, rules, star, override, named, builtIn]

def PointerLike (name : Text) : Prop := name.head? = some 'P' ∨ name.head? = some 'p'

instance (name : Text) : Decidable (PointerLike name) :=
  inferInstanceAs (Decidable (_ ∨ _))

def failure (name : Text) : Lookup Nat → WidthError
  | .ambiguous candidates => .ambiguous name candidates
  | _ => .unknownType name

inductive Search (name : Text) : Lookup Nat → Option Nat → List Exchange → Prop
  | found (width : Nat) : Search name (.found width) (some width) [.lookup name (.found width)]
  | missing : Search name .notFound none [.lookup name .notFound]
  | declined (cs : List Text) :
      Search name (.ambiguous cs) none [.lookup name (.ambiguous cs), .choose name cs none]
  | chosen (cs : List Text) (choice : Text) {answer : Lookup Nat} {width : Option Nat}
      (second : answer.toOption = width) :
      Search name (.ambiguous cs) width
        [.lookup name (.ambiguous cs), .choose name cs (some choice), .lookup choice answer]

inductive LastQuestion (p : Profile) (name : Text) (reason : WidthError) :
    List Exchange → Except WidthError Nat → Prop
  | unasked (unlike : ¬ PointerLike name) : LastQuestion p name reason [] (.error reason)
  | confirmed (like : PointerLike name) :
      LastQuestion p name reason [.confirm name true] (.ok p.pointerBytes)
  | refused (like : PointerLike name) :
      LastQuestion p name reason [.confirm name false] (.error reason)

inductive Course (p : Profile) (name : Text) (first : Lookup Nat) :
    List Exchange → Except WidthError Nat → Prop
  | found {width : Nat} {exchanges : List Exchange}
      (search : Search name first (some width) exchanges) :
      Course p name first exchanges (.ok width)
  | unfound {exchanges last : List Exchange} {answer : Except WidthError Nat}
      (search : Search name first none exchanges)
      (question : LastQuestion p name (failure name first) last answer) :
      Course p name first (exchanges ++ last) answer

theorem Course.reason {p : Profile} {name : Text} {first : Lookup Nat} {exchanges : List Exchange}
    {e : WidthError} (course : Course p name first exchanges (.error e)) :
    e = failure name first := by
  cases course with
  | unfound search question => cases question <;> rfl

namespace Profile

variable {σ : Type} (p : Profile) (r : Responder σ) (name : Text)

theorem run_askPointer (reason : WidthError) (s : σ) :
    LastQuestion p name reason ((p.askPointer name reason).run r s).2.1
      (((p.askPointer name reason).run r s).1.map Sizing.width) := by
  by_cases like : PointerLike name
  · rw [askPointer, if_pos (show name.head? = some 'P' ∨ name.head? = some 'p' from like)]
    cases answer : (r.confirm name s).1 <;> simp only [Inquiry.run, answer]
    · exact .refused like
    · exact .confirmed like
  · rw [askPointer, if_neg (show ¬ (name.head? = some 'P' ∨ name.head? = some 'p') from like)]
    exact .unasked like

theorem run_askWidth (s : σ) :
    Course p name (r.lookup name s).1 ((p.askWidth name).run r s).2.1
      (((p.askWidth name).run r s).1.map Sizing.width) := by
  rw [askWidth, Inquiry.run]
  cases first : (r.lookup name s).1 with
  | found width =>
    simp only [first, Inquiry.run]
    exact .found (.found width)
  | notFound =>
    simp only [first]
    exact .unfound .missing (p.run_askPointer r name _ _)
  | ambiguous cs =>
    simp only [first, Inquiry.run]
    cases choice : (r.choose name cs (r.lookup name s).2).1 with
    | none => exact .unfound (.declined cs) (p.run_askPointer r name _ _)
    | some chosen =>
      simp only [Inquiry.run]
      cases second : (r.lookup chosen (r.choose name cs (r.lookup name s).2).2).1 with
      | found width => exact .found (.chosen cs chosen rfl)
      | notFound => exact .unfound (.chosen cs chosen rfl) (p.run_askPointer r name _ _)
      | ambiguous _ => exact .unfound (.chosen cs chosen rfl) (p.run_askPointer r name _ _)

end Profile

structure Searched (name : Text) (first : Lookup Nat) (exchanges : List Exchange) : Prop where
  begins : exchanges[0]? = some (.lookup name first)
  -- After the first lookup there is one at most, of the candidate that has been chosen.
  looked : ∀ i n a, exchanges[i]? = some (.lookup n a) →
    i = 0 ∧ n = name ∨ i = 2 ∧ ∃ cs, exchanges[1]? = some (.choose name cs (some n))
  chosen : ∀ i n cs c, exchanges[i]? = some (.choose n cs c) →
    i = 1 ∧ n = name ∧ first = .ambiguous cs
  choice : ∀ cs, first = .ambiguous cs → ∃ c, exchanges[1]? = some (.choose name cs c)
  again : ∀ cs c, exchanges[1]? = some (.choose name cs (some c)) →
    ∃ a, exchanges[2]? = some (.lookup c a)

structure Inquired (p : Profile) (name : Text) (first : Lookup Nat) (exchanges : List Exchange)
    (answer : Except WidthError Nat) : Prop extends Searched name first exchanges where
  confirmed : ∀ i n yes, exchanges[i]? = some (.confirm n yes) →
    i + 1 = exchanges.length ∧ n = name ∧ PointerLike name ∧
      exchanges.findSome? Exchange.found? = none
  last : PointerLike name → exchanges.findSome? Exchange.found? = none →
    ∃ yes, .confirm name yes ∈ exchanges
  answer : answer =
    match exchanges.findSome? Exchange.found? with
    | some width => .ok width
    | none =>
        if .confirm name true ∈ exchanges then .ok p.pointerBytes
        else .error (failure name first)

theorem getElem?_concat_iff {α : Type} {as : List α} {a b : α} {i : Nat} :
    (as ++ [a])[i]? = some b ↔ as[i]? = some b ∨ i = as.length ∧ a = b := by
  rw [List.getElem?_append]
  split
  · rename_i inside
    simp [Nat.ne_of_lt inside]
  · rename_i outside
    have absent : as[i]? = none := List.getElem?_eq_none (Nat.le_of_not_lt outside)
    rw [absent, List.getElem?_singleton]
    split <;> simp <;> omega

namespace Search

variable {name : Text} {first : Lookup Nat} {width : Option Nat} {exchanges : List Exchange}

theorem searched (search : Search name first width exchanges) : Searched name first exchanges := by
  cases search with
  | found | missing => constructor <;> grind
  | declined cs =>
    refine ⟨rfl, by grind, by grind, ?_, by grind⟩
    rintro _ ⟨⟩
    exact ⟨none, rfl⟩
  | chosen cs choice second =>
    refine ⟨rfl, by grind, by grind, ?_, ?_⟩
    · rintro _ ⟨⟩
      exact ⟨some choice, rfl⟩
    · rintro _ _ ⟨⟩
      exact ⟨_, rfl⟩

theorem unconfirmed (search : Search name first width exchanges) (n : Text) (yes : Bool) :
    .confirm n yes ∉ exchanges := by
  cases search <;> simp

theorem findSome? (search : Search name first width exchanges) :
    exchanges.findSome? Exchange.found? = width := by
  cases search with
  | found | missing | declined => rfl
  | chosen cs choice second =>
    rw [← second]
    rename_i answer
    cases answer <;> rfl

end Search

theorem Searched.confirm {name : Text} {first : Lookup Nat} {exchanges : List Exchange}
    (searched : Searched name first exchanges) (n : Text) (yes : Bool) :
    Searched name first (exchanges ++ [.confirm n yes]) where
  begins := getElem?_concat_iff.mpr (.inl searched.begins)
  looked i n a place := by
    rcases getElem?_concat_iff.mp place with early | ⟨-, other⟩
    · refine (searched.looked i n a early).imp_right fun ⟨third, cs, second⟩ => ?_
      exact ⟨third, cs, getElem?_concat_iff.mpr (.inl second)⟩
    · cases other
  chosen i n cs c place := by
    rcases getElem?_concat_iff.mp place with early | ⟨-, other⟩
    · exact searched.chosen i n cs c early
    · cases other
  choice cs ambiguous :=
    (searched.choice cs ambiguous).imp fun _ second => getElem?_concat_iff.mpr (.inl second)
  again cs c place := by
    rcases getElem?_concat_iff.mp place with early | ⟨-, other⟩
    · exact (searched.again cs c early).imp fun _ third => getElem?_concat_iff.mpr (.inl third)
    · cases other

section

variable {p : Profile} {name : Text} {first : Lookup Nat} {exchanges : List Exchange}

theorem Search.inquired {width : Option Nat} (search : Search name first width exchanges)
    (settled : PointerLike name → width.isSome) :
    Inquired p name first exchanges
      (width.elim (.error (failure name first)) .ok) where
  toSearched := search.searched
  confirmed i n yes place := absurd (List.mem_of_getElem? place) (search.unconfirmed n yes)
  last like unanswered := by
    have sized := settled like
    rw [search.findSome?] at unanswered
    simp [unanswered] at sized
  answer := by
    rw [search.findSome?, if_neg (search.unconfirmed name true)]
    cases width <;> rfl

theorem Search.inquired_confirm (search : Search name first none exchanges)
    (like : PointerLike name) (yes : Bool) :
    Inquired p name first (exchanges ++ [.confirm name yes])
      (if yes then .ok p.pointerBytes else .error (failure name first)) := by
  have found : (exchanges ++ [Exchange.confirm name yes]).findSome? Exchange.found? = none := by
    rw [List.findSome?_append, search.findSome?]
    rfl
  refine ⟨search.searched.confirm name yes, ?_, fun _ _ => ⟨yes, by simp⟩, ?_⟩
  · intro i n yes' place
    rcases getElem?_concat_iff.mp place with early | ⟨rfl, same⟩
    · exact absurd (List.mem_of_getElem? early) (search.unconfirmed n yes')
    · exact ⟨by simp, (Exchange.confirm.inj same).1.symm, like, found⟩
  · have unconfirmed := search.unconfirmed name true
    rw [found]
    cases yes <;> simp [unconfirmed]

theorem Course.inquired {answer : Except WidthError Nat}
    (course : Course p name first exchanges answer) : Inquired p name first exchanges answer := by
  cases course with
  | found search => exact search.inquired fun _ => rfl
  | unfound search question =>
    cases question with
    | unasked unlike =>
      rw [List.append_nil]
      exact search.inquired fun like => absurd like unlike
    | confirmed like => exact search.inquired_confirm like true
    | refused like => exact search.inquired_confirm like false

end

/-- A width that the profile knows is that of the first of its rules that applies, and nobody is
asked for it. Else the inquiry takes its course, and another database that answers alike what it has
asked makes no difference. -/
theorem width_order {σ τ : Type} (p : Profile) (db : Database σ) (fallback : Fallback τ)
    (type : Text) (s : σ) (t : τ) :
    let name := bareType type
    let run := (p.sizing type).run (.of db fallback) (s, t)
    let width := (p.width (.of db fallback) type (s, t)).1
    let known := (p.rules name).findSome? id
    (name = [] → width = .error (.unknownType (trim type)) ∧ run.2 = ([], s, t)) ∧
      (∀ w, name ≠ [] → known = some w → width = .ok w ∧ run.2 = ([], s, t)) ∧
      (name ≠ [] → known = none → Inquired p name (db.width name s).1 run.2.1 width) ∧
      ∀ {ρ : Type} (db' : Database ρ) (u : ρ),
        db'.Gives (run.2.1.filterMap Exchange.lookup?) u →
          let after := (p.sizing type).run (.of db' fallback) (u, t)
          after.1 = run.1 ∧ after.2.1 = run.2.1 ∧ after.2.2.2 = run.2.2.2 := by
  have rules := p.sizing?_eq_rules (bareType type)
  refine ⟨?_, ?_, ?_, fun db' u gives => ?_⟩
  · intro empty
    have done : p.sizing type = .done (.error (.unknownType (trim type))) := by
      simp [Profile.sizing, empty]
    simp [Profile.width, done, Inquiry.run, Except.map]
  · intro w nonempty first
    obtain ⟨sizing, sized, rfl⟩ := Option.map_eq_some_iff.mp (rules.trans first)
    have done : p.sizing type = .done (.ok sizing) := by
      simp [Profile.sizing, nonempty, sized]
    simp [Profile.width, done, Inquiry.run, Except.map]
  · intro nonempty unknown
    have unsized : p.sizing? (bareType type) = none :=
      Option.map_eq_none_iff.mp (rules.trans unknown)
    have asks : p.sizing type = p.askWidth (bareType type) := by
      simp [Profile.sizing, nonempty, unsized]
    have course := p.run_askWidth (.of db fallback) (bareType type) (s, t)
    rw [Profile.width, asks]
    exact course.inquired
  · generalize p.sizing type = x at gives ⊢
    exact x.run_replaced gives

-- A pointer by its name; and a name with two candidates, the second of which is chosen, where a
-- database of no more than these names does as well.
theorem width_order_candidate :
    let profile : Profile := { Profile.x64 with widths := .ofList [("ULONG".toList, 4)] }
    let name := "Process".toList
    let candidates := ["_KPROCESS".toList, "_EPROCESS".toList]
    let index : SymbolIndex :=
      Table.ofList [.ofStruct "_KPROCESS".toList 24, .ofStruct "_EPROCESS".toList 16]
    let small : Database Unit := .ofFunctions
      (fun n => if n = name then .ambiguous candidates else .found 16) (fun _ => .notFound)
    let fallback : Fallback Unit := ⟨fun _ cs t => (cs[1]?, t), fun _ t => (false, t)⟩
    let run (db : Database Unit) :=
      (profile.sizing "struct  Process".toList).run (.of db fallback) ((), ())
    let exchanges : List Exchange := [.lookup name (.ambiguous candidates),
      .choose name candidates (some "_EPROCESS".toList), .lookup "_EPROCESS".toList (.found 16)]
    (profile.width (.of small fallback) "const LPFOO".toList ((), ())).1 = .ok 8 ∧
      bareType "struct  Process".toList = name ∧ (profile.rules name).findSome? id = none ∧
      (run (.ofIndex index)).2.1 = exchanges ∧
      (profile.width (.of (.ofIndex index) fallback) "struct  Process".toList ((), ())).1 = .ok 16 ∧
      (run small).1 = (run (.ofIndex index)).1 ∧ (run small).2.1 = exchanges := by
  intro profile name candidates index small fallback run exchanges
  have bare : bareType "struct  Process".toList = name := by decide +kernel
  have asked : (run (.ofIndex index)).2.1 = exchanges := by decide +kernel
  obtain ⟨-, known, -, -⟩ := width_order profile small fallback "const LPFOO".toList () ()
  have pointer := known 8 (by decide +kernel) (by decide +kernel)
  obtain ⟨-, -, inquired, replaced⟩ :=
    width_order profile (.ofIndex index) fallback "struct  Process".toList () ()
  rw [bare] at inquired
  have unknown : (profile.rules name).findSome? id = none := by decide
  have answer := (inquired (by decide) unknown).answer
  have gives : small.Gives ((run (.ofIndex index)).2.1.filterMap Exchange.lookup?) () := by
    rw [asked, Database.gives_ofFunctions]
    decide
  have same := replaced small () gives
  rw [asked] at answer
  exact ⟨pointer.1, bare, unknown, asked, answer, same.1, same.2.1.trans asked⟩
end MemberOffsets
