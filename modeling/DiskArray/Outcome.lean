import DiskArray.Log

/-!
# Outcomes

What a step leaves behind: its result, the state after it and the records it made. A step that fails
still has a state afterwards; a second step is taken only if the first one succeeded.
-/

namespace DiskArray

/-- The outcome of a step on a state of type `σ`. -/
structure Outcome (σ ε α : Type) where
  result : Except ε α
  state : σ
  log : List Log.Record := []

namespace Outcome

variable {σ ε α β : Type}

/-- Success, with nothing to record. -/
def done (state : σ) (value : α) : Outcome σ ε α := { result := .ok value, state }

/-- Failure, with nothing to record. -/
def fail (state : σ) (error : ε) : Outcome σ ε α := { result := .error error, state }

/-- The outcome with records that were made before it. -/
def logged (log : List Log.Record) (o : Outcome σ ε α) : Outcome σ ε α := { o with log := log ++ o.log }

/-- Goes on from the state of a step that succeeded. -/
def andThen (o : Outcome σ ε α) (next : σ → α → Outcome σ ε β) : Outcome σ ε β :=
  match o.result with
  | .ok a => logged o.log (next o.state a)
  | .error e => { result := .error e, state := o.state, log := o.log }

/-- The outcome of a change that either gives the new state or fails and leaves the old one. -/
def ofExcept (old : σ) (change : Except ε σ) (log : List Log.Record) : Outcome σ ε Unit :=
  match change with
  | .ok state => { result := .ok (), state, log }
  | .error e => fail old e

@[simp] theorem andThen_ok (a : α) (s : σ) (log : List Log.Record) (next : σ → α → Outcome σ ε β) :
    andThen ⟨.ok a, s, log⟩ next = logged log (next s a) := rfl

@[simp] theorem andThen_error (e : ε) (s : σ) (log : List Log.Record) (next : σ → α → Outcome σ ε β) :
    andThen ⟨.error e, s, log⟩ next = ⟨.error e, s, log⟩ := rfl

@[simp] theorem result_logged (log : List Log.Record) (o : Outcome σ ε α) :
    (logged log o).result = o.result := rfl

@[simp] theorem state_logged (log : List Log.Record) (o : Outcome σ ε α) :
    (logged log o).state = o.state := rfl

end Outcome

end DiskArray
