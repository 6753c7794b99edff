import MemberOffsets.Sizing.Width

set_option autoImplicit false

namespace MemberOffsets

namespace Exchange

def lookup? : Exchange → Option (Text × Lookup Nat)
  | lookup name answer => some (name, answer)
  | _ => none

def found? : Exchange → Option Nat
  | lookup _ (.found width) => some width
  | _ => none

end Exchange

def Database.Gives {σ : Type} (db : Database σ) : List (Text × Lookup Nat) → σ → Prop
  | [], _ => True
  | (name, answer) :: later, s =>
      (db.width name s).1 = answer ∧ db.Gives later (db.width name s).2

theorem Database.gives_ofFunctions {σ : Type} {width : Text → Lookup Nat}
    {layout : Text → Lookup TypeLayout} (answers : List (Text × Lookup Nat)) (s : σ) :
    (ofFunctions width layout).Gives answers s ↔ ∀ e ∈ answers, width e.1 = e.2 := by
  induction answers with
  | nil => simp [Gives]
  | cons e later ih =>
    have rest : (ofFunctions width layout).Gives later s ↔ ∀ e ∈ later, width e.1 = e.2 := ih
    rw [List.forall_mem_cons, ← rest]
    rfl

structure Fallback.Alike {σ τ : Type} (R : σ → τ → Prop) (fallback : Fallback σ)
    (fallback' : Fallback τ) : Prop where
  choose : ∀ name candidates {s t}, R s t →
    (fallback'.choose name candidates t).1 = (fallback.choose name candidates s).1 ∧
      R (fallback.choose name candidates s).2 (fallback'.choose name candidates t).2
  confirm : ∀ name {s t}, R s t →
    (fallback'.confirm name t).1 = (fallback.confirm name s).1 ∧
      R (fallback.confirm name s).2 (fallback'.confirm name t).2

namespace Inquiry

variable {α σ τ ρ : Type}

theorem run_replaced (x : Inquiry α) {db : Database σ} {db' : Database τ} {fallback : Fallback ρ}
    {s : σ} {s' : τ} {t : ρ}
    (gives : db'.Gives ((x.run (.of db fallback) (s, t)).2.1.filterMap Exchange.lookup?) s') :
    let before := x.run (.of db fallback) (s, t)
    let after := x.run (.of db' fallback) (s', t)
    after.1 = before.1 ∧ after.2.1 = before.2.1 ∧ after.2.2.2 = before.2.2.2 := by
  induction x generalizing s s' t with
  | done a => exact ⟨rfl, rfl, rfl⟩
  | lookup name next ih =>
    obtain ⟨answer, gives⟩ := gives
    have rest := ih (db.width name s).1 gives
    simp only [run, Responder.of, answer]
    exact ⟨rest.1, congrArg (_ :: ·) rest.2.1, rest.2.2⟩
  | choose name candidates next ih =>
    have rest := ih (fallback.choose name candidates t).1 gives
    exact ⟨rest.1, congrArg (_ :: ·) rest.2.1, rest.2.2⟩
  | confirm name next ih =>
    have rest := ih (fallback.confirm name t).1 gives
    exact ⟨rest.1, congrArg (_ :: ·) rest.2.1, rest.2.2⟩

theorem run_alike {R : σ → τ → Prop} {fallback : Fallback σ} {fallback' : Fallback τ}
    (alike : fallback.Alike R fallback') (x : Inquiry α) (db : Database ρ) (s : ρ) {t : σ} {t' : τ}
    (related : R t t') :
    let before := x.run (.of db fallback) (s, t)
    let after := x.run (.of db fallback') (s, t')
    after.1 = before.1 ∧ after.2.1 = before.2.1 ∧ after.2.2.1 = before.2.2.1 ∧
      R before.2.2.2 after.2.2.2 := by
  induction x generalizing s t t' with
  | done a => exact ⟨rfl, rfl, rfl, related⟩
  | lookup name next ih =>
    have rest := ih (db.width name s).1 (db.width name s).2 related
    exact ⟨rest.1, congrArg (_ :: ·) rest.2.1, rest.2.2⟩
  | choose name candidates next ih =>
    obtain ⟨answer, left⟩ := alike.choose name candidates related
    have rest := ih (fallback.choose name candidates t).1 s left
    simp only [run, Responder.of, answer]
    exact ⟨rest.1, congrArg (_ :: ·) rest.2.1, rest.2.2⟩
  | confirm name next ih =>
    obtain ⟨answer, left⟩ := alike.confirm name related
    have rest := ih (fallback.confirm name t).1 s left
    simp only [run, Responder.of, answer]
    exact ⟨rest.1, congrArg (_ :: ·) rest.2.1, rest.2.2⟩

end Inquiry

end MemberOffsets
