import DiskArray.Outcome

/-!
# What an outcome ensures

A pair of conditions on the state after a step, one for success and one for failure, and how such pairs pass
through steps that are taken one after the other.
-/

namespace DiskArray.Outcome

variable {σ ε α β : Type}

/-- The state and the value are as `ok` says if the step succeeds, the state and the error as `error` says if
it fails. -/
def Ensures (o : Outcome σ ε α) (ok : σ → α → Prop) (error : σ → ε → Prop) : Prop :=
  match o.result with
  | .ok a => ok o.state a
  | .error e => error o.state e

variable {o : Outcome σ ε α} {ok ok' : σ → α → Prop} {error error' : σ → ε → Prop}

theorem ensures_done {s : σ} {a : α} : (done s a : Outcome σ ε α).Ensures ok error ↔ ok s a := Iff.rfl

@[simp] theorem ensures_logged {log : List Log.Record} : (logged log o).Ensures ok error ↔ o.Ensures ok error :=
  Iff.rfl

theorem Ensures.state {p : σ → Prop} (h : o.Ensures (fun s _ => p s) fun s _ => p s) : p o.state := by
  obtain ⟨result, s, log⟩ := o
  cases result with
  | ok a => exact h
  | error e => exact h

/-- What holds after the first step, and is kept by the second one, holds at the end, wherever that is. -/
theorem state_andThen_of {p : σ → Prop} {next : σ → α → Outcome σ ε β} (ho : p o.state)
    (hnext : ∀ s a, p s → p (next s a).state) : p (o.andThen next).state := by
  obtain ⟨result, s, log⟩ := o
  cases result with
  | ok a => exact hnext s a ho
  | error e => exact ho

theorem Ensures.mono (h : o.Ensures ok error) (hok : ∀ s a, ok s a → ok' s a)
    (herror : ∀ s e, error s e → error' s e) : o.Ensures ok' error' := by
  obtain ⟨result, s, log⟩ := o
  cases result with
  | ok a => exact hok s a h
  | error e => exact herror s e h

theorem Ensures.andThen {next : σ → α → Outcome σ ε β} {okβ : σ → β → Prop} (h : o.Ensures ok error)
    (hnext : ∀ s a, ok s a → (next s a).Ensures okβ error') (herror : ∀ s e, error s e → error' s e) :
    (o.andThen next).Ensures okβ error' := by
  obtain ⟨result, s, log⟩ := o
  cases result with
  | ok a =>
    rw [andThen_ok, ensures_logged]
    exact hnext s a h
  | error e => exact herror s e h

/-! ### Steps that succeed -/

theorem done_andThen (s : σ) (a : α) (next : σ → α → Outcome σ ε β) :
    (done s a : Outcome σ ε α).andThen next = next s a := rfl

theorem result_andThen {next : σ → α → Outcome σ ε β} {a : α} (h : o.result = .ok a) :
    (o.andThen next).result = (next o.state a).result := by
  obtain ⟨result, s, log⟩ := o
  obtain rfl := h
  rfl

theorem state_andThen {next : σ → α → Outcome σ ε β} {a : α} (h : o.result = .ok a) :
    (o.andThen next).state = (next o.state a).state := by
  obtain ⟨result, s, log⟩ := o
  obtain rfl := h
  rfl

/-! ### Two steps with one result -/

/-- Two steps with the same result and related states. -/
def Same (R : σ → σ → Prop) (o o' : Outcome σ ε α) : Prop := o.result = o'.result ∧ R o.state o'.state

variable {R : σ → σ → Prop} {o' : Outcome σ ε α}

theorem Same.logged (h : o.Same R o') (log log' : List Log.Record) :
    (Outcome.logged log o).Same R (Outcome.logged log' o') := h

theorem same_done {s s' : σ} (h : R s s') (a : α) : (done s a : Outcome σ ε α).Same R (done s' a) := ⟨rfl, h⟩

theorem same_fail {s s' : σ} (h : R s s') (e : ε) : (fail s e : Outcome σ ε α).Same R (fail s' e) := ⟨rfl, h⟩

theorem Same.andThen {next next' : σ → α → Outcome σ ε β} (h : o.Same R o')
    (hnext : ∀ s s' a, R s s' → (next s a).Same R (next' s' a)) :
    (o.andThen next).Same R (o'.andThen next') := by
  obtain ⟨result, s, log⟩ := o
  obtain ⟨result', s', log'⟩ := o'
  obtain ⟨hresult, hstate⟩ := h
  obtain rfl : result = result' := hresult
  cases result with
  | ok a => exact hnext s s' a hstate
  | error e => exact ⟨rfl, hstate⟩

end DiskArray.Outcome
