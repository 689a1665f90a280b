import Aperture.Failure

/-!
# Calls

A **call** works on a state. It answers or fails, and in either way it leaves a state behind: the
one that its steps have made so far. Nothing is taken back when a step fails, so a call that is not
to leave half of its work behind has to fail before its first change.

`Call.on` carries a call out. Computations without a state are steps of a call as they are.
-/

namespace Aperture

/-- A computation on a state that is kept when the computation fails. -/
abbrev Call (σ α : Type) : Type := ExceptT Failure (StateM σ) α

namespace Call

variable {σ τ α β : Type}

/-- Carry a call out on a state. -/
def on (c : Call σ α) (s : σ) : Result α × σ := c.run.run s

/-- Ask the state something. -/
def query (f : σ → Result α) : Call σ α := do f (← get)

/-- Change the state. A change that fails is none. -/
def update (f : σ → Result σ) : Call σ Unit := do set (← query f)

/-- Change the state and answer. The change is kept even if it comes with a failure. -/
def attempt (f : σ → σ × Result α) : Call σ α := do
  let (s, answer) := f (← get)
  set s
  answer

/-- Carry a call out on a part of the state. -/
def within (part : σ → τ) (put : σ → τ → σ) (c : Call τ α) : Call σ α := do
  let s ← get
  let (answer, t) := c.on (part s)
  set (put s t)
  answer

theorem on_bind (c : Call σ α) (f : α → Call σ β) (s : σ) :
    (c >>= f).on s =
      match c.on s with
      | (.ok a, t) => (f a).on t
      | (.error e, t) => (.error e, t) := by
  show (ExceptT.bindCont f (c.on s).1).run (c.on s).2 = _
  rcases c.on s with ⟨_ | _, _⟩ <;> rfl

@[simp] theorem on_pure (a : α) (s : σ) : (pure a : Call σ α).on s = (.ok a, s) := rfl

@[simp] theorem on_get (s : σ) : (get : Call σ σ).on s = (.ok s, s) := rfl

@[simp] theorem on_result (x : Result α) (s : σ) : (liftM x : Call σ α).on s = (x, s) := rfl

@[simp] theorem on_query (f : σ → Result α) (s : σ) : (query f).on s = (f s, s) := rfl

@[simp] theorem on_modify (f : σ → σ) (s : σ) :
    (modify f : Call σ PUnit).on s = (.ok ⟨⟩, f s) := rfl

@[simp] theorem on_attempt (f : σ → σ × Result α) (s : σ) :
    (attempt f).on s = ((f s).2, (f s).1) := rfl

@[simp] theorem on_within (part : σ → τ) (put : σ → τ → σ) (c : Call τ α) (s : σ) :
    (within part put c).on s = ((c.on (part s)).1, put s (c.on (part s)).2) := rfl

theorem on_update (f : σ → Result σ) (s : σ) :
    (update f).on s =
      match f s with
      | .ok t => (.ok (), t)
      | .error e => (.error e, s) := by
  rw [update, on_bind, on_query]
  cases f s <;> rfl

end Call

end Aperture
