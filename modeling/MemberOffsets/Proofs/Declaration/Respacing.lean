import MemberOffsets.Proofs.Declaration.Closing
import MemberOffsets.Proofs.Declaration.Enclosure
import MemberOffsets.Proofs.Text.Respacing

set_option autoImplicit false

namespace MemberOffsets

open Text

section

variable {α β γ δ : Type} {R : α → β → Prop} {a : Option α} {b : Option β}

theorem rel_map {S : γ → δ → Prop} {f : α → γ} {g : β → δ} (related : Option.Rel R a b)
    (step : ∀ x y, R x y → S (f x) (g y)) : Option.Rel S (a.map f) (b.map g) := by
  cases related with
  | some here => exact .some (step _ _ here)
  | none => exact .none

theorem map_eq_of_rel {f : α → γ} {g : β → γ} (related : Option.Rel R a b)
    (step : ∀ x y, R x y → f x = g y) : a.map f = b.map g := by
  cases related with
  | some here => exact congrArg some (step _ _ here)
  | none => rfl

theorem bind_eq_of_rel {f : α → Option γ} {g : β → Option γ} (related : Option.Rel R a b)
    (step : ∀ x y, R x y → f x = g y) : a.bind f = b.bind g := by
  cases related with
  | some here => exact step _ _ here
  | none => rfl

theorem rel_bind {S : γ → δ → Prop} {f : α → Option γ} {g : β → Option δ}
    (related : Option.Rel R a b) (step : ∀ x y, R x y → Option.Rel S (f x) (g y)) :
    Option.Rel S (a.bind f) (b.bind g) := by
  cases related with
  | some here => exact step _ _ here
  | none => exact .none

theorem rel_toOption {ε : Type} {x : Except ε α} {y : Except ε β} :
    Option.Rel R x.toOption y.toOption ↔
      (∃ a b, x = .ok a ∧ y = .ok b ∧ R a b) ∨ ∃ e e', x = .error e ∧ y = .error e' := by
  cases x <;> cases y <;> simp [Except.toOption]

end

variable {s t : Text}

namespace Declarator

theorem readDim?_blank {g : Text} (blank : allBlank g = true) (s : Text) :
    readDim? (g ++ s) = (readDim? s).map fun (dim, later) => (g ++ dim, later) := by
  induction g with
  | nil => simp
  | cons c g ih =>
    simp only [allBlank, List.all_cons, Bool.and_eq_true] at blank
    have closes : c ≠ ']' := ne_of_isBlank blank.1 (by decide)
    have opens : c ≠ '[' := ne_of_isBlank blank.1 (by decide)
    simp [readDim?, closes, opens, ih blank.2, Function.comp_def]

theorem read?_blank {c : Char} (blank : isBlank c = true) (s : Text) : read? (c :: s) = none := by
  simp [read?, isIdentStart_of_isBlank blank]

theorem find?_blank {g : Text} (blank : allBlank g = true) (s : Text) :
    find? false (g ++ s) = (find? false s).map fun (before, d) => (g ++ before, d) := by
  induction g with
  | nil => simp
  | cons c g ih =>
    simp only [allBlank, List.all_cons, Bool.and_eq_true] at blank
    simp [find?, read?_blank blank.1, isWordChar_of_isBlank blank.1, ih blank.2, Function.comp_def]

theorem find?_gap {g : Text} (gap : Gap g) (afterWord : Bool) (s : Text) :
    find? afterWord (g ++ s) = (find? false s).map fun (before, d) => (g ++ before, d) := by
  obtain ⟨c, r, rfl, blank, later⟩ := gap.exists_cons
  simp [find?, read?_blank blank, isWordChar_of_isBlank blank, find?_blank later, Function.comp_def]

theorem readDims?_respaced (spaced : Respaced s t) :
    readDims? s = readDims? t ∧
      Option.Rel (fun x y => Respaced x.1 y.1 ∧ x.2 = y.2) (readDim? s) (readDim? t) := by
  induction spaced with
  | nil => exact ⟨rfl, by simp [readDim?]⟩
  | @dark c s t dark _ ih =>
    obtain ⟨dims, dim⟩ := ih
    constructor
    · by_cases opens : c = '['
      · simp only [readDims?, opens, if_true]
        exact map_eq_of_rel dim fun x y same => by rw [same.1.collapse_eq, same.2]
      · simp [readDims?, dark, opens]
    · by_cases closes : c = ']'
      · cases later : readDims? t <;> simp [readDim?, closes, dims, later, Respaced.nil]
      · by_cases opens : c = '['
        · simp [readDim?, opens]
        · simp only [readDim?, closes, opens, if_false]
          exact rel_map dim fun x y same => ⟨.dark dark same.1, same.2⟩
  | gap g h _ ih =>
    obtain ⟨dims, dim⟩ := ih
    constructor
    · rw [readDims?_append g.blank, readDims?_append h.blank, dims]
    · rw [readDim?_blank g.blank, readDim?_blank h.blank]
      exact rel_map dim fun x y same => ⟨.gap g h same.1, same.2⟩

theorem read?_respaced (spaced : Respaced s t) : read? s = read? t := by
  rcases spaced.heads with
    ⟨rfl, rfl⟩ | ⟨c, r, u, rfl, rfl, -, rest⟩ | ⟨c, d, r, u, rfl, rfl, blank, blank'⟩
  · rfl
  · have stopped : ∀ d, isBlank d = true → isIdentChar d = false := fun _ => isIdentChar_of_isBlank
    have dims := (readDims?_respaced (rest.dropWhile_stopped stopped)).1
    rw [read?, read?, rest.takeWhile_eq stopped, dims]
  · rw [read?_blank blank, read?_blank blank']

theorem find?_respaced (spaced : Respaced s t) (afterWord : Bool) :
    Option.Rel (fun x y => Respaced x.1 y.1 ∧ x.2 = y.2) (find? afterWord s)
      (find? afterWord t) := by
  induction spaced generalizing afterWord with
  | nil => exact .none
  | @dark c s t dark rest ih =>
    rw [find?, find?, read?_respaced (.dark dark rest)]
    cases (if afterWord then none else read? (c :: t)) with
    | some d => exact .some ⟨.nil, rfl⟩
    | none => exact rel_map (ih (isWordChar c)) fun x y same => ⟨.dark dark same.1, same.2⟩
  | gap g h _ ih =>
    rw [find?_gap g, find?_gap h]
    exact rel_map (ih false) fun x y same => ⟨.gap g h same.1, same.2⟩

end Declarator

theorem FieldDecl.read?_respaced (spaced : Respaced s t) : read? s = read? t := by
  have found := Declarator.find?_respaced spaced.trimmed false
  simp only [read?]
  generalize Declarator.find? false (trim s) = x at *
  generalize Declarator.find? false (trim t) = y at *
  cases found with
  | none => rfl
  | @some x y same =>
    obtain ⟨before, d⟩ := x
    obtain ⟨before', d'⟩ := y
    obtain ⟨types, rfl⟩ := same
    simp only [types.collapse_eq]

theorem dropStart?_cons (c : Char) (w : Text) (d : Char) (s : Text) :
    dropStart? (c :: w) (d :: s) = if c = d then dropStart? w s else none := by
  by_cases same : c = d <;> simp [dropStart?, List.isPrefixOf, same]

theorem dropStart?_respaced {w : Text} (dark : ∀ c ∈ w, isBlank c = false) (spaced : Respaced s t) :
    Option.Rel Respaced (dropStart? w s) (dropStart? w t) := by
  induction w generalizing s t with
  | nil => simpa [dropStart?] using spaced
  | cons c w ih =>
    have later := fun d member => dark d (List.mem_cons_of_mem c member)
    rcases spaced.heads with
      ⟨rfl, rfl⟩ | ⟨d, r, u, rfl, rfl, -, rest⟩ | ⟨d, e, r, u, rfl, rfl, blank, blank'⟩
    · simp [dropStart?]
    · rw [dropStart?_cons, dropStart?_cons]
      split
      · exact ih later rest
      · exact .none
    · have first := dark c List.mem_cons_self
      simp [dropStart?_cons, (ne_of_isBlank blank first).symm, (ne_of_isBlank blank' first).symm]

-- Attributes begin and end with two characters, which no blank may part.
theorem dropAttributes?_respaced {inside : Bool} (spaced : Respaced s t) :
    Option.Rel Respaced (dropAttributes? inside s) (dropAttributes? inside t) := by
  fun_induction dropAttributes? inside s generalizing t with
  | case1 => rw [spaced.eq_nil]; exact .some .nil
  | case2 => rw [spaced.eq_nil]; exact .none
  | case3 s ih =>
    obtain ⟨r, rfl, second⟩ := spaced.uncons_dark (by decide)
    obtain ⟨u, rfl, rest⟩ := second.uncons_dark (by decide)
    exact ih rest
  | case4 c s single blank ih =>
    obtain ⟨h, u, rfl, blank', rest⟩ := spaced.drop_blank blank
    rw [dropAttributes?_blank blank']
    exact ih rest
  | case5 c s single dark =>
    obtain ⟨r, rfl, rest⟩ := spaced.uncons_dark (by simpa using dark)
    have single' : ∀ u, c = '[' → r = '[' :: u → False := by
      rintro u rfl rfl
      obtain ⟨v, rfl, -⟩ := rest.symm.uncons_dark (by decide)
      exact single v rfl rfl
    rw [dropAttributes?, if_neg dark]
    · exact .some spaced
    · exact single'
  | case6 s ih =>
    obtain ⟨r, rfl, second⟩ := spaced.uncons_dark (by decide)
    obtain ⟨u, rfl, rest⟩ := second.uncons_dark (by decide)
    exact ih rest
  | case7 s single =>
    obtain ⟨r, rfl, rest⟩ := spaced.uncons_dark (by decide)
    have single' : ∀ u, ']' = ']' → r = ']' :: u → False := by
      rintro u - rfl
      obtain ⟨v, rfl, -⟩ := rest.symm.uncons_dark (by decide)
      exact single v rfl rfl
    rw [dropAttributes?, if_pos rfl]
    · exact .none
    · exact single'
  | case8 c s single closes ih =>
    cases blank : isBlank c with
    | true =>
      obtain ⟨h, u, rfl, blank', rest⟩ := spaced.drop_blank blank
      rw [dropAttributes?_blank blank']
      exact ih rest
    | false =>
      obtain ⟨r, rfl, rest⟩ := spaced.uncons_dark blank
      rw [dropAttributes?, if_neg closes]
      · exact ih rest
      · exact fun _ same => absurd same closes

namespace BlockHeader

theorem keyword?_respaced (spaced : Respaced s t) :
    Option.Rel (fun x y => x.1 = y.1 ∧ Respaced x.2 y.2) (keyword? s) (keyword? t) := by
  have one (kind : Kind) : Option.Rel (fun x y => x.1 = y.1 ∧ Respaced x.2 y.2)
      ((dropStart? kind.keyword s).map (kind, ·)) ((dropStart? kind.keyword t).map (kind, ·)) := by
    have dark : ∀ c ∈ kind.keyword, isBlank c = false := fun c member =>
      isBlank_of_isIdentChar (kind.isIdentChar_keyword c member)
    exact rel_map (dropStart?_respaced dark spaced) fun _ _ rest => ⟨rfl, rest⟩
  rw [keyword?, keyword?]
  generalize [Kind.struct, Kind.union] = kinds
  induction kinds with
  | nil => exact .none
  | cons kind kinds ih =>
    have here := one kind
    simp only [List.findSome?_cons]
    generalize (dropStart? kind.keyword s).map (kind, ·) = a at here ⊢
    generalize (dropStart? kind.keyword t).map (kind, ·) = b at here ⊢
    cases here with
    | some same => exact .some same
    | none => exact ih

theorem splitTag_respaced (spaced : Respaced s t) :
    (splitTag s).1 = (splitTag t).1 ∧ Respaced (splitTag s).2 (splitTag t).2 := by
  rcases spaced.heads with
    ⟨rfl, rfl⟩ | ⟨c, r, u, rfl, rfl, -, rest⟩ | ⟨c, d, r, u, rfl, rfl, blank, blank'⟩
  · exact ⟨rfl, .nil⟩
  · have stopped : ∀ d, isBlank d = true → isIdentChar d = false := fun _ => isIdentChar_of_isBlank
    simp only [splitTag]
    split
    · exact ⟨by rw [rest.takeWhile_eq stopped], rest.dropWhile_stopped stopped⟩
    · exact ⟨rfl, spaced⟩
  · have start := isIdentStart_of_isBlank blank
    have start' := isIdentStart_of_isBlank blank'
    simpa [splitTag, start, start'] using spaced

theorem read?_respaced (spaced : Respaced s t) :
    Option.Rel (fun x y => x.1 = y.1 ∧ Respaced x.2 y.2) (read? s) (read? t) := by
  simp only [read?, Option.bind_eq_bind]
  apply rel_bind (keyword?_respaced spaced)
  rintro ⟨kind, r⟩ ⟨kind', u⟩ ⟨rfl, rest⟩
  dsimp only
  rw [rest.any_head?_eq fun _ => isWordChar_of_isBlank]
  split
  · exact .none
  · apply rel_bind (dropAttributes?_respaced rest)
    intro r u rest
    obtain ⟨tag, rest⟩ := splitTag_respaced rest
    have behind := rest.trimmedStart
    rw [tag]
    generalize trimStart (splitTag r).2 = x at behind ⊢
    generalize trimStart (splitTag u).2 = y at behind ⊢
    rcases behind.heads with
      ⟨rfl, rfl⟩ | ⟨c, x, y, rfl, rfl, -, opened⟩ | ⟨c, d, x, y, rfl, rfl, blank, blank'⟩
    · exact .none
    · by_cases brace : c = '{'
      · subst brace
        exact .some ⟨rfl, opened⟩
      · simp [brace]
    · have brace : c ≠ '{' := ne_of_isBlank blank (by decide)
      have brace' : d ≠ '{' := ne_of_isBlank blank' (by decide)
      simp [brace, brace']

end BlockHeader

theorem BlockTail.read_respaced (spaced : Respaced s t) :
    (read s).declarator = (read t).declarator ∧ Respaced (read s).rest (read t).rest := by
  obtain ⟨before, behind⟩ := spaced.cut (c := ';') (by decide)
  have candidate := before.trimmed
  simp only [read]
  rw [candidate.isEmpty_eq, Declarator.read?_respaced candidate]
  split
  · exact ⟨rfl, behind⟩
  · split
    · exact ⟨rfl, behind⟩
    · exact ⟨rfl, spaced⟩

theorem Balanced.of_blank {g : Text} (blank : allBlank g = true) : Balanced g := by
  apply Balanced.of_plain
  intro c member
  have here := allBlank_iff.mp blank c member
  exact ⟨ne_of_isBlank here (by decide), ne_of_isBlank here (by decide)⟩

theorem splitAtClose_respaced (spaced : Respaced s t) (depth : Nat) :
    Option.Rel (fun x y => Respaced x.1 y.1 ∧ Respaced x.2 y.2) (splitAtClose depth s)
      (splitAtClose depth t) := by
  induction spaced generalizing depth with
  | nil => simp [splitAtClose]
  | @dark c s t dark rest ih =>
    by_cases opens : c = '{'
    · subst opens
      rw [splitAtClose_opening, splitAtClose_opening]
      exact rel_map (ih (depth + 1)) fun x y same => ⟨.dark dark same.1, same.2⟩
    · by_cases closes : c = '}'
      · subst closes
        cases depth with
        | zero =>
          simp only [splitAtClose, if_true]
          exact .some ⟨.nil, rest⟩
        | succ depth =>
          rw [splitAtClose_closing, splitAtClose_closing]
          exact rel_map (ih depth) fun x y same => ⟨.dark dark same.1, same.2⟩
      · rw [splitAtClose_plain depth opens closes, splitAtClose_plain depth opens closes]
        exact rel_map (ih depth) fun x y same => ⟨.dark dark same.1, same.2⟩
  | gap g h _ ih =>
    rw [(Balanced.of_blank g.blank).splitAtClose_append,
      (Balanced.of_blank h.blank).splitAtClose_append]
    exact rel_map (ih depth) fun x y same => ⟨.gap g h same.1, same.2⟩

inductive Piece.Alike : Piece → Piece → Prop
  | statement {s t : Text} (spaced : Respaced s t) : Alike (.statement s) (.statement t)
  | block {b b' : BlockDecl} {inner inner' stray stray' : Text}
      (same : b.sourceless = b'.sourceless) (spaced : Respaced inner inner') :
      Alike (.block b inner stray) (.block b' inner' stray')
  | unclosed {s t : Text} : Alike (.unclosed s) (.unclosed t)

theorem Piece.next?_respaced (spaced : Respaced s t) :
    Option.Rel (fun x y => x.1.Alike y.1 ∧ Respaced x.2 y.2) (next? s) (next? t) := by
  have start := spaced.trimmedStart
  have header := BlockHeader.read?_respaced start
  simp only [next?]
  rw [start.isEmpty_eq]
  split
  · exact .none
  · generalize BlockHeader.read? (trimStart s) = x at header ⊢
    generalize BlockHeader.read? (trimStart t) = y at header ⊢
    cases header with
    | none =>
      obtain ⟨before, behind⟩ := start.cut (c := ';') (by decide)
      exact .some ⟨.statement before, behind⟩
    | @some x y same =>
      obtain ⟨header, opened⟩ := x
      obtain ⟨header', opened'⟩ := y
      obtain ⟨rfl, opening⟩ := same
      have closing := splitAtClose_respaced opening 0
      dsimp only
      generalize splitAtClose 0 opened = x at closing ⊢
      generalize splitAtClose 0 opened' = y at closing ⊢
      cases closing with
      | none => exact .some ⟨.unclosed, .nil⟩
      | @some x y parts =>
        obtain ⟨inner, after⟩ := parts
        obtain ⟨declarator, rest⟩ := BlockTail.read_respaced after
        exact .some ⟨.block (by simp [BlockDecl.sourceless, declarator]) inner, rest⟩

theorem Piece.exists_alike (spaced : Respaced s t) {piece : Piece} {rest : Text}
    (next : next? s = some (piece, rest)) :
    ∃ piece' rest', next? t = some (piece', rest') ∧ piece.Alike piece' ∧ Respaced rest rest' := by
  have pieces := next?_respaced spaced
  rw [next] at pieces
  generalize other : next? t = y at pieces
  cases pieces with
  | @some _ y same => exact ⟨y.1, y.2, rfl, same⟩

theorem statements_respaced (spaced : Respaced s t) :
    Option.Rel (fun ms ms' => MemberTree.mapAll BlockDecl.sourceless id ms =
        MemberTree.mapAll BlockDecl.sourceless id ms')
      (statements s).toOption (statements t).toOption := by
  induction s using statements.induct generalizing t with
  | case1 s next =>
    have pieces := Piece.next?_respaced spaced
    rw [next] at pieces
    generalize other : Piece.next? t = y at pieces
    cases pieces with
    | none =>
      rw [statements_none next, statements_none other]
      exact .some rfl
  | case2 s text rest next ih =>
    obtain ⟨_, rest', other, alike, behind⟩ := Piece.exists_alike spaced next
    cases alike with
    | statement text =>
      rw [statements_statement next, statements_statement other, FieldDecl.read?_respaced text]
      rcases rel_toOption.mp (ih behind) with ⟨ms, ms', read, read', same⟩ | ⟨e, e', read, read'⟩
      · rw [read, read']
        refine .some ?_
        cases FieldDecl.read? _ <;> simp [same]
      · rw [read, read']
        exact .none
  | case3 s b inner stray rest next ihInner ihRest =>
    obtain ⟨_, rest', other, alike, behind⟩ := Piece.exists_alike spaced next
    cases alike with
    | block decl inside =>
      rw [statements_block next, statements_block other]
      rcases rel_toOption.mp (ihInner inside) with
        ⟨ms, ms', inner, inner', members⟩ | ⟨e, e', inner, inner'⟩
      · rcases rel_toOption.mp (ihRest behind) with
          ⟨ns, ns', read, read', same⟩ | ⟨e, e', read, read'⟩
        · rw [inner, inner', read, read']
          refine .some ?_
          simp [decl, members, same]
        · rw [inner, inner', read, read']
          exact .none
      · rw [inner, inner']
        exact .none
  | case4 s unclosed rest next =>
    obtain ⟨_, rest', other, alike, behind⟩ := Piece.exists_alike spaced next
    cases alike with
    | unclosed =>
      rw [statements_unclosed next, statements_unclosed other]
      exact .none

theorem segment_respaced (spaced : Respaced s t) :
    Option.Rel (fun ms ms' => MemberTree.mapAll BlockDecl.sourceless id ms =
        MemberTree.mapAll BlockDecl.sourceless id ms')
      (segment s).toOption (segment t).toOption := by
  have forget (s : Text) : (segment s).toOption = (statements s).toOption := by
    rw [segment]
    cases statements s <;> rfl
  rw [forget, forget]
  exact statements_respaced spaced

namespace Shell

def Alike (x y : Shell) : Prop := ∃ body, y = { x with body } ∧ Respaced x.body body

theorem enclosing_respaced {before before' body body' after after' : Text}
    (front : Respaced before before') (inner : Respaced body body') (back : Respaced after after') :
    Alike (enclosing before body after) (enclosing before' body' after') := by
  have opening := (front.append (.refl ['{'])).collapse_eq
  have closing := (Respaced.dark (c := '}') (by decide) back).collapse_eq
  exact ⟨body', by simp [enclosing, opening, closing], inner⟩

theorem split_respaced (spaced : Respaced s t) :
    Option.Rel Alike (split s).toOption (split t).toOption := by
  have passed := Respaced.blanks_pass (c := '{') (by decide)
  have before := spaced.takeWhile passed
  have behind := spaced.dropWhile passed
  have bare : Alike (bare s) (bare t) := ⟨t, rfl, spaced⟩
  have semicolon : (s.takeWhile (· != '{')).elem ';' = (t.takeWhile (· != '{')).elem ';' := by
    rw [Bool.eq_iff_iff]
    simpa using before.mem_iff (c := ';') (by decide)
  have first := List.head?_dropWhile_not (· != '{') s
  simp only [split]
  rw [semicolon]
  generalize s.dropWhile (· != '{') = x at behind first ⊢
  generalize t.dropWhile (· != '{') = y at behind ⊢
  cases behind with
  | nil => exact .some bare
  | @dark c opened opened' _ opening =>
    dsimp only
    split
    · exact .some bare
    · have closing := splitAtClose_respaced opening 0
      generalize splitAtClose 0 opened = x at closing ⊢
      generalize splitAtClose 0 opened' = y at closing ⊢
      cases closing with
      | none => exact .none
      | @some x y parts =>
        obtain ⟨inner, after⟩ := parts
        have trailing := (after.cut (c := ';') (by decide)).2
        dsimp only
        rw [trailing.allBlank_eq]
        split
        · exact .some (enclosing_respaced before inner after)
        · exact .some bare
  | gap g _ _ =>
    obtain ⟨c, r, rfl, blank, -⟩ := g.exists_cons
    obtain rfl : c = '{' := by simpa using first
    exact absurd blank (by decide)

end Shell

end MemberOffsets
