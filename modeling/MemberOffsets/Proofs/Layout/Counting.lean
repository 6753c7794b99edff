import Mathlib.Algebra.BigOperators.Ring.List
import Mathlib.Data.List.Perm.Basic
import MemberOffsets.Proofs.Layout.Overflow
import MemberOffsets.Proofs.Text.NumeralGrammar

set_option autoImplicit false

namespace MemberOffsets

open Text

def literalSuffixes : Text := ['u', 'U', 'l', 'L']

def IsLiteral (dim : Text) (n : Nat) : Prop :=
  ∃ numeral suffix, dim = numeral ++ suffix ∧ (∀ c ∈ suffix, c ∈ literalSuffixes) ∧
    (∀ c ∈ numeral.getLast?, c ∉ literalSuffixes) ∧ IsNumeral numeral n ∧ n ≤ wordMax

inductive Counts : Text → Nat → Prop
  | empty : Counts [] 0
  | literal {dim : Text} {n : Nat} (literal : IsLiteral dim n) : Counts dim n

variable {dim : Text} {dims : List Text} {n : Nat}

theorem literal?_eq_some_iff : literal? dim = some n ↔ IsLiteral dim n := by
  have isSuffix (c : Char) :
      (c == 'u' || c == 'U' || c == 'l' || c == 'L') = decide (c ∈ literalSuffixes) := by
    simp [literalSuffixes, Bool.or_assoc, Bool.beq_eq_decide_eq]
  simp only [literal?, isSuffix]
  rw [readPrefixed?_eq_some_iff]
  constructor
  · rintro ⟨numeral, fits⟩
    refine ⟨_, (dim.reverse.takeWhile (· ∈ literalSuffixes)).reverse, ?_, ?_, ?_, numeral, fits⟩
    · rw [← List.reverse_append, List.takeWhile_append_dropWhile, List.reverse_reverse]
    · intro c among
      simpa using List.mem_takeWhile_imp (List.mem_reverse.mp among)
    · intro c last
      have stopped := List.head?_dropWhile_not (· ∈ literalSuffixes) dim.reverse
      rw [List.getLast?_reverse, Option.mem_def] at last
      simpa [last] using stopped
  · rintro ⟨numeral, suffix, rfl, suffixes, last, numeral, fits⟩
    rename_i s
    have run : ∀ c ∈ suffix.reverse, decide (c ∈ literalSuffixes) = true := by
      simpa using suffixes
    have stop : ∀ c ∈ s.reverse.head?, decide (c ∈ literalSuffixes) = false := by
      simpa using last
    rw [List.reverse_append, dropWhile_append_stop run stop, List.reverse_reverse]
    exact ⟨numeral, fits⟩

theorem counts_iff : Counts dim n ↔ (if dim.isEmpty then some 0 else literal? dim) = some n := by
  have empty : ∀ n, ¬ IsLiteral [] n := by
    intro n literal
    cases literal?_eq_some_iff.mpr literal
  constructor
  · rintro (_ | literal)
    · rfl
    · rw [if_neg, literal?_eq_some_iff]
      · exact literal
      · intro nothing
        rw [List.isEmpty_iff.mp nothing] at literal
        exact empty n literal
  · intro value
    split at value
    · rename_i nothing
      obtain rfl := List.isEmpty_iff.mp nothing
      obtain rfl := Option.some.inj value
      exact .empty
    · exact .literal (literal?_eq_some_iff.mp value)

theorem countDim_eq_error {count : Nat} {e : Text} :
    countDim count dim = .error e ↔ e = dim ∧ ∀ n, ¬ Counts dim n := by
  simp only [counts_iff, countDim]
  split
  · simp
  · cases value : literal? dim <;> simp [eq_comm]

theorem exists_countDim_eq_ok {count : Nat} :
    (∃ next, countDim count dim = .ok next) ↔ ∃ n, Counts dim n := by
  simp only [counts_iff, countDim]
  split
  · simp
  · cases value : literal? dim <;> simp

theorem literalProduct?_cons (dim : Text) (dims : List Text) :
    literalProduct? (dim :: dims) =
      (if dim.isEmpty then some 0 else literal? dim).bind fun n =>
        (literalProduct? dims).map (n * ·) := by
  cases dim <;> cases h : literalProduct? dims <;> simp [literalProduct?, h]

theorem literalProduct?_eq_some_iff :
    literalProduct? dims = some n ↔ ∃ ns, List.Forall₂ Counts dims ns ∧ n = ns.prod := by
  induction dims generalizing n with
  | nil => simp [literalProduct?, eq_comm]
  | cons dim dims ih =>
    simp only [literalProduct?_cons, Option.bind_eq_some_iff, Option.map_eq_some_iff, ← counts_iff,
      ih, List.forall₂_cons_left_iff]
    constructor
    · rintro ⟨m, first, _, ⟨ns, rest, rfl⟩, rfl⟩
      exact ⟨m :: ns, ⟨m, ns, first, rest, rfl⟩, List.prod_cons.symm⟩
    · rintro ⟨_, ⟨m, ns, first, rest, rfl⟩, rfl⟩
      exact ⟨m, first, ns.prod, ⟨ns, rest, rfl⟩, List.prod_cons.symm⟩

theorem elementCount_eq_ok {count : Nat} :
    elementCount dims = .ok count ↔
      ∃ ns, List.Forall₂ Counts dims ns ∧ count = min ns.prod wordMax := by
  have folded := foldlM_countDim dims 1
  rw [show min 1 wordMax = 1 by decide] at folded
  have ok : elementCount dims = .ok count ↔ (elementCount dims).toOption = some count :=
    ⟨fun counted => by rw [counted]; rfl, ok_of_toOption⟩
  rw [ok, elementCount, folded]
  simp only [Option.map_eq_some_iff, literalProduct?_eq_some_iff, Nat.one_mul]
  constructor
  · rintro ⟨_, ⟨ns, counted, rfl⟩, rfl⟩
    exact ⟨ns, counted, rfl⟩
  · rintro ⟨ns, counted, rfl⟩
    exact ⟨ns.prod, ⟨ns, counted, rfl⟩, rfl⟩

theorem foldlM_countDim_eq_error (count : Nat) :
    dims.foldlM countDim count = .error dim ↔
      ∃ before after, dims = before ++ dim :: after ∧ (∀ d ∈ before, ∃ n, Counts d n) ∧
        ∀ n, ¬ Counts dim n := by
  induction dims generalizing count with
  | nil => simp [pure, Except.pure]
  | cons d dims ih =>
    simp only [List.foldlM_cons, bind_eq_error, countDim_eq_error, ih]
    constructor
    · rintro (⟨rfl, uncounted⟩ | ⟨next, counted, before, after, rfl, early, uncounted⟩)
      · exact ⟨[], dims, rfl, by simp, uncounted⟩
      · have first := exists_countDim_eq_ok.mp ⟨next, counted⟩
        exact ⟨d :: before, after, rfl, List.forall_mem_cons.mpr ⟨first, early⟩, uncounted⟩
    · rintro ⟨before, after, whole, early, uncounted⟩
      cases before with
      | nil =>
        obtain ⟨rfl, rfl⟩ := List.cons.inj whole
        exact .inl ⟨rfl, uncounted⟩
      | cons d' before =>
        obtain ⟨rfl, rfl⟩ := List.cons.inj whole
        obtain ⟨first, early⟩ := List.forall_mem_cons.mp early
        obtain ⟨next, counted⟩ : ∃ next, countDim count d = .ok next :=
          exists_countDim_eq_ok.mpr first
        exact .inr ⟨next, counted, before, after, rfl, early, uncounted⟩

theorem exists_forall₂_counts (counted : ∀ dim ∈ dims, ∃ n, Counts dim n) :
    ∃ ns, List.Forall₂ Counts dims ns := by
  induction dims with
  | nil => exact ⟨[], .nil⟩
  | cons dim dims ih =>
    obtain ⟨⟨n, first⟩, later⟩ := List.forall_mem_cons.mp counted
    obtain ⟨ns, rest⟩ := ih later
    exact ⟨n :: ns, .cons first rest⟩

theorem forall₂_counts_perm {dims' : List Text} {ns : List Nat} (perm : dims'.Perm dims)
    (counted : List.Forall₂ Counts dims ns) :
    ∃ ns', List.Forall₂ Counts dims' ns' ∧ ns'.prod = ns.prod := by
  obtain ⟨ns', counted', same⟩ := List.perm_comp_forall₂ perm counted
  exact ⟨ns', counted', same.prod_eq⟩

/-- The count of dimensions is their exact product, cut off at the largest word, and the order makes
no difference to it. If some dimension is neither empty nor a literal, the first such one is the
error. -/
theorem elementCount_exact (dims : List Text) :
    ((∀ dim ∈ dims, ∃ n, Counts dim n) →
      ∃ ns, List.Forall₂ Counts dims ns ∧ elementCount dims = .ok (min ns.prod wordMax)) ∧
    (∀ count, elementCount dims = .ok count ↔
      ∃ ns, List.Forall₂ Counts dims ns ∧ count = min ns.prod wordMax) ∧
    (∀ dim, elementCount dims = .error dim ↔
      ∃ before after, dims = before ++ dim :: after ∧ (∀ d ∈ before, ∃ n, Counts d n) ∧
        ∀ n, ¬ Counts dim n) ∧
    (∀ ns, List.Forall₂ Counts dims ns → 0 ∈ ns → elementCount dims = .ok 0) ∧
    ∀ dims' count, dims'.Perm dims → elementCount dims = .ok count →
      elementCount dims' = .ok count := by
  refine ⟨fun counted => ?_, fun _ => elementCount_eq_ok, fun _ => foldlM_countDim_eq_error 1,
    fun ns counted zero => ?_, fun dims' count perm counted => ?_⟩
  · obtain ⟨ns, counted⟩ := exists_forall₂_counts counted
    exact ⟨ns, counted, elementCount_eq_ok.mpr ⟨ns, counted, rfl⟩⟩
  · have product : ns.prod = 0 := List.prod_eq_zero zero
    exact elementCount_eq_ok.mpr ⟨ns, counted, by rw [product, Nat.zero_min]⟩
  · obtain ⟨ns, each, rfl⟩ := elementCount_eq_ok.mp counted
    obtain ⟨ns', counted', same⟩ := forall₂_counts_perm perm each
    exact elementCount_eq_ok.mpr ⟨ns', counted', by rw [same]⟩

-- Dimensions that pass the range before a zero comes, and two that are no literals.
theorem elementCount_exact_past_the_range :
    let long := "0XFFFFFFFFFFFFFFFFuL".toList
    let double := "+2".toList
    elementCount [long, double] = .ok wordMax ∧ elementCount [long, double, []] = .ok 0 ∧
      elementCount [[], long, double] = .ok 0 ∧
      elementCount [double, "0x".toList, "N".toList] = .error "0x".toList := by
  intro long double
  have counts : Counts long wordMax ∧ Counts double 2 :=
    ⟨counts_iff.mpr (by decide), counts_iff.mpr (by decide)⟩
  have mark : ∀ n, ¬ Counts "0x".toList n := fun n counted => by
    cases counts_iff.mp counted
  obtain ⟨-, ok, -, -, -⟩ := elementCount_exact [long, double]
  obtain ⟨-, -, -, zero, perm⟩ := elementCount_exact [long, double, []]
  obtain ⟨-, -, error, -, -⟩ := elementCount_exact [double, "0x".toList, "N".toList]
  have zeroLast : elementCount [long, double, []] = .ok 0 :=
    zero [wordMax, 2, 0] (.cons counts.1 (.cons counts.2 (.cons .empty .nil))) (by decide)
  refine ⟨(ok _).mpr ⟨[wordMax, 2], .cons counts.1 (.cons counts.2 .nil), by decide⟩, zeroLast,
    perm _ _ (by decide) zeroLast, (error _).mpr ⟨[double], ["N".toList], rfl, ?_, mark⟩⟩
  exact List.forall_mem_singleton.mpr ⟨2, counts.2⟩

end MemberOffsets
