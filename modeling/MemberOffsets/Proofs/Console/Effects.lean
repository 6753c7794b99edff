import MemberOffsets.Console.Execution

set_option autoImplicit false

namespace MemberOffsets

open Text

def Event.IsQuiet (e : Event) : Prop := e.output = [] ∧ e.written? = none

namespace Run

variable {α β : Type}

/-- From an input on, whatever has happened before: the result of a run, the input that is left and
the events that are added. -/
def Does (m : Run α) (input : LineSource) (result : Except Failure α) (left : LineSource)
    (added : List Event) : Prop :=
  ∀ events, m.run ⟨input, events⟩ = (result, ⟨left, events ++ added⟩)

def Yields (m : Run α) (input : LineSource) (a : α) (left : LineSource) : Prop :=
  ∃ added, m.Does input (.ok a) left added ∧ ∀ e ∈ added, e.IsQuiet

def Succeeds (m : Run α) (done : α → Prop) : Prop :=
  ∀ input, ∃ a left added, m.Does input (.ok a) left added ∧ done a

/-- The run adds no result unless it succeeds and is done. -/
def Leaves (m : Run α) (done : α → Prop) : Prop :=
  ∀ input, ∃ result left added, m.Does input result left added ∧
    ((∀ e ∈ added, e.IsQuiet) ∨ ∃ a, result = .ok a ∧ done a)

section Rules

variable {m : Run α} {f : α → Run β} {a : α} {input mid left : LineSource}
  {result : Except Failure β} {first rest : List Event} {done : α → Prop} {done' : β → Prop}

theorem does_pure (a : α) (input : LineSource) : (pure a : Run α).Does input (.ok a) input [] := by
  intro events
  rw [List.append_nil]
  rfl

theorem does_throw (failure : Failure) (input : LineSource) :
    (throw failure : Run α).Does input (.error failure) input [] := by
  intro events
  rw [List.append_nil]
  rfl

theorem does_emit (e : Event) (input : LineSource) : (emit e).Does input (.ok ()) input [e] :=
  fun _ => rfl

theorem does_emitAll (es : List Event) (input : LineSource) :
    (emitAll es).Does input (.ok ()) input es :=
  fun _ => rfl

theorem Does.bind (here : m.Does input (.ok a) mid first)
    (later : (f a).Does mid result left rest) :
    (m >>= f).Does input result left (first ++ rest) := by
  intro events
  change (ExceptT.bindCont f (m.run ⟨input, events⟩).1) (m.run ⟨input, events⟩).2 = _
  rw [here events, ← List.append_assoc]
  exact later _

theorem Does.bind_error {failure : Failure} (here : m.Does input (.error failure) mid first) :
    (m >>= f).Does input (.error failure) mid first := by
  intro events
  change (ExceptT.bindCont f (m.run ⟨input, events⟩).1) (m.run ⟨input, events⟩).2 = _
  rw [here events]
  rfl

theorem does_setInput (input left : LineSource) :
    (modify fun s => { s with input := left } : Run Unit).Does input (.ok ()) left [] := by
  intro events
  rw [List.append_nil]
  rfl

theorem yields_pure (a : α) (input : LineSource) : (pure a : Run α).Yields input a input :=
  ⟨[], does_pure a input, by simp⟩

theorem yields_setInput (input left : LineSource) :
    (modify fun s => { s with input := left } : Run Unit).Yields input () left :=
  ⟨[], does_setInput input left, by simp⟩

theorem Yields.bind {b : β} (here : m.Yields input a mid) (later : (f a).Yields mid b left) :
    (m >>= f).Yields input b left := by
  obtain ⟨added, does, quiet⟩ := here
  obtain ⟨added', does', quiet'⟩ := later
  exact ⟨added ++ added', does.bind does', List.forall_mem_append.mpr ⟨quiet, quiet'⟩⟩

theorem Yields.leaves (quiet : ∀ input, ∃ a left, m.Yields input a left) : m.Leaves done := by
  intro input
  obtain ⟨a, left, added, does, quiet⟩ := quiet input
  exact ⟨.ok a, left, added, does, .inl quiet⟩

theorem leaves_pure (a : α) : (pure a : Run α).Leaves done :=
  fun input => ⟨_, _, _, does_pure a input, .inl (by simp)⟩

theorem leaves_throw (failure : Failure) : (throw failure : Run α).Leaves done :=
  fun input => ⟨_, _, _, does_throw failure input, .inl (by simp)⟩

theorem leaves_emitAll {es : List Event} (quiet : ∀ e ∈ es, e.IsQuiet) {done : Unit → Prop} :
    (emitAll es).Leaves done :=
  fun input => ⟨_, _, _, does_emitAll es input, .inl quiet⟩

theorem leaves_check {γ : Type} (failure : γ → Failure) (problem : Option γ) {done : Unit → Prop} :
    (check failure problem).Leaves done := by
  cases problem with
  | none => exact leaves_pure ()
  | some problem => exact leaves_throw (failure problem)

theorem Leaves.bind (here : m.Leaves done) (later : ∀ a, (f a).Leaves done')
    (sure : ∀ a, done a → (f a).Succeeds done') : (m >>= f).Leaves done' := by
  intro input
  obtain ⟨result, mid, first, does, quiet⟩ := here input
  cases result with
  | error failure =>
    have quiet : ∀ e ∈ first, e.IsQuiet := by simpa using quiet
    exact ⟨_, _, _, does.bind_error, .inl quiet⟩
  | ok a =>
    rcases quiet with quiet | ⟨b, same, isDone⟩
    · obtain ⟨result, left, rest, does', quiet'⟩ := later a mid
      refine ⟨result, left, first ++ rest, does.bind does', quiet'.imp_left fun quiet' => ?_⟩
      exact List.forall_mem_append.mpr ⟨quiet, quiet'⟩
    · obtain rfl := Except.ok.inj same
      obtain ⟨b, left, rest, does', isDone'⟩ := sure a isDone mid
      exact ⟨.ok b, left, first ++ rest, does.bind does', .inr ⟨b, rfl, isDone'⟩⟩

theorem Leaves.bind_quiet (here : m.Leaves fun _ => False) (later : ∀ a, (f a).Leaves done') :
    (m >>= f).Leaves done' :=
  here.bind later fun _ impossible => impossible.elim

-- Of the session a run reads nothing but the input.
theorem leaves_get {f : Session → Run β} (later : ∀ s, (f s).Leaves done')
    (same : ∀ input events, f ⟨input, events⟩ = f ⟨input, []⟩) :
    ((get : Run Session) >>= f).Leaves done' := by
  intro input
  obtain ⟨result, left, added, does, quiet⟩ := later ⟨input, []⟩ input
  refine ⟨result, left, added, fun events => ?_, quiet⟩
  change (f ⟨input, events⟩).run ⟨input, events⟩ = _
  rw [same, does events]

theorem succeeds_pure {a : α} (isDone : done a) : (pure a : Run α).Succeeds done :=
  fun input => ⟨_, _, _, does_pure a input, isDone⟩

theorem succeeds_emit (e : Event) {done : Unit → Prop} (isDone : done ()) :
    (emit e).Succeeds done :=
  fun input => ⟨_, _, _, does_emit e input, isDone⟩

theorem Succeeds.bind (here : m.Succeeds done) (later : ∀ a, done a → (f a).Succeeds done') :
    (m >>= f).Succeeds done' := by
  intro input
  obtain ⟨a, mid, first, does, isDone⟩ := here input
  obtain ⟨b, left, rest, does', isDone'⟩ := later a isDone mid
  exact ⟨b, left, first ++ rest, does.bind does', isDone'⟩

theorem Succeeds.leaves (here : m.Succeeds done) : m.Leaves done := by
  intro input
  obtain ⟨a, left, added, does, isDone⟩ := here input
  exact ⟨.ok a, left, added, does, .inr ⟨a, rfl, isDone⟩⟩

theorem Does.timed {m : Run α} {result : Except Failure α} {added : List Event}
    (here : m.Does input result left added) (span : Text) :
    (timed span m).Does input result left
      (.logged ⟨.debug, "[TIMER] ".toList ++ span ++ " started".toList⟩ :: added ++
        [Event.timed span]) := by
  intro events
  let start : Event := .logged ⟨.debug, "[TIMER] ".toList ++ span ++ " started".toList⟩
  change (match m.run ⟨input, events ++ [start]⟩ with
    | (result, s) => (result, { s with events := s.events ++ [Event.timed span] })) = _
  rw [here (events ++ [start])]
  simp [start]

theorem Leaves.timed {m : Run α} (here : m.Leaves done) (span : Text) :
    (timed span m).Leaves done := by
  intro input
  obtain ⟨result, left, added, does, quiet⟩ := here input
  refine ⟨result, left, _, does.timed span, quiet.imp_left fun quiet => ?_⟩
  simp only [List.cons_append, List.forall_mem_cons, List.forall_mem_append]
  exact ⟨⟨rfl, rfl⟩, quiet, ⟨rfl, rfl⟩, by simp⟩

end Rules

end Run

end MemberOffsets
