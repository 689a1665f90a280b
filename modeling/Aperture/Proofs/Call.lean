import Aperture.Call

/-!
# Calls that fail before they change anything

Nothing is taken back when a call fails. So a call leaves the state as it was only if it fails
before its first change, or if what it changed before that cannot be seen.

* `FailsFirst` is the first case: a failure leaves the whole state.
* `Careful inv sight` covers both: the call keeps the invariant `inv`, and a failure leaves what
  `sight` shows.

Either holds of a call whose first part only looks (`after_quiet`) or whose last part cannot fail
(`then_total`).
-/

namespace Aperture.Call

variable {σ τ α β γ δ : Type}

/-- The answer in its form depends on nothing but the answer. -/
theorem answer_congr {c : Call σ α} (f : α → β) {s t : σ} (h : (c.on t).1 = (c.on s).1) :
    ((c >>= fun a => pure (f a)).on t).1 = ((c >>= fun a => pure (f a)).on s).1 := by
  rw [on_bind, on_bind]
  generalize c.on s = left, c.on t = right at h ⊢
  obtain ⟨answer, s'⟩ := left
  obtain ⟨answer', t'⟩ := right
  obtain rfl : answer' = answer := h
  cases answer' <;> rfl

theorem left_answer (c : Call σ α) (f : α → β) (s : σ) :
    ((c >>= fun a => pure (f a)).on s).2 = (c.on s).2 := by
  rw [on_bind]
  generalize c.on s = left
  rcases left with ⟨_ | _, t⟩ <;> rfl

/-- An answer in another form comes from an answer. -/
theorem error_of_answer {c : Call σ α} {f : α → β} {s : σ} {e : Failure}
    (h : ((c >>= fun a => pure (f a)).on s).1 = .error e) : (c.on s).1 = .error e := by
  rw [on_bind] at h
  generalize c.on s = left at h ⊢
  rcases left with ⟨failure | a, t⟩
  · exact congrArg Except.error (Except.error.inj h)
  · cases h

/-! ## Calls that only look, and calls that cannot fail -/

/-- The call changes nothing, whatever it answers. -/
def Quiet (c : Call σ α) : Prop := ∀ s, (c.on s).2 = s

/-- The call always has an answer. -/
def Total (c : Call σ α) : Prop := ∀ s, ∃ a, (c.on s).1 = .ok a

theorem Quiet.pure (a : α) : Quiet (pure a : Call σ α) := fun _ => rfl

theorem Quiet.result (x : Result α) : Quiet (liftM x : Call σ α) := fun _ => rfl

theorem Quiet.query (f : σ → Result α) : Quiet (query f) := fun _ => rfl

theorem Quiet.get : Quiet (get : Call σ σ) := fun _ => rfl

/-- What comes after a call that only looks starts from where it looked. -/
theorem Quiet.on_bind {c : Call σ α} (hc : c.Quiet) (f : α → Call σ β) (s : σ) :
    (c >>= f).on s =
      match (c.on s).1 with
      | .ok a => (f a).on s
      | .error e => (.error e, s) := by
  have hsame := hc s
  rw [Call.on_bind]
  generalize c.on s = left at hsame ⊢
  obtain ⟨answer, t⟩ := left
  obtain rfl : t = s := hsame
  cases answer <;> rfl

/-- A call that looks first fails there or in what comes after. -/
theorem Quiet.error_cases {c : Call σ α} (hc : c.Quiet) {f : α → Call σ β} {s : σ} {e : Failure}
    (h : ((c >>= f).on s).1 = .error e) :
    (c.on s).1 = .error e ∨ ∃ a, (c.on s).1 = .ok a ∧ ((f a).on s).1 = .error e := by
  rw [hc.on_bind] at h
  cases hfirst : (c.on s).1 with
  | error first =>
    rw [hfirst] at h
    exact .inl (congrArg Except.error (Except.error.inj h))
  | ok a =>
    rw [hfirst] at h
    exact .inr ⟨a, rfl, h⟩

theorem Quiet.bind {c : Call σ α} {f : α → Call σ β} (hc : c.Quiet) (hf : ∀ a, (f a).Quiet) :
    (c >>= f).Quiet := by
  intro s
  rw [hc.on_bind]
  cases (c.on s).1 with
  | error e => rfl
  | ok a => exact hf a s

theorem Total.pure (a : α) : Total (pure a : Call σ α) := fun _ => ⟨a, rfl⟩

theorem Total.get : Total (get : Call σ σ) := fun s => ⟨s, rfl⟩

theorem Total.modify (f : σ → σ) : Total (modify f : Call σ PUnit) := fun _ => ⟨⟨⟩, rfl⟩

theorem Total.bind {c : Call σ α} {f : α → Call σ β} (hc : c.Total) (hf : ∀ a, (f a).Total) :
    (c >>= f).Total := by
  intro s
  obtain ⟨a, ha⟩ := hc s
  rw [on_bind]
  generalize c.on s = left at ha ⊢
  obtain ⟨answer, t⟩ := left
  obtain rfl : answer = .ok a := ha
  exact hf a t

/-! ## Calls that fail before their first change -/

/-- A failure leaves the state as it was, because the call failed before its first change. -/
def FailsFirst (c : Call σ α) : Prop := ∀ s e, (c.on s).1 = .error e → (c.on s).2 = s

theorem FailsFirst.cases {c : Call σ α} (hc : c.FailsFirst) (s : σ) :
    (∃ a t, c.on s = (.ok a, t)) ∨ ∃ e, c.on s = (.error e, s) := by
  have hleft := hc s
  generalize c.on s = left at hleft ⊢
  rcases left with ⟨e | a, t⟩
  · exact .inr ⟨e, congrArg (Prod.mk _) (hleft e rfl)⟩
  · exact .inl ⟨a, t, rfl⟩

theorem FailsFirst.update (f : σ → Result σ) : (update f).FailsFirst := by
  intro s e he
  rw [on_update] at he ⊢
  cases hf : f s with
  | error _ => rfl
  | ok t =>
    rw [hf] at he
    cases he

theorem FailsFirst.within {part : σ → τ} {put : σ → τ → σ} {c : Call τ α} (hc : c.FailsFirst)
    (hput : ∀ s, put s (part s) = s) : (c.within part put).FailsFirst := by
  intro s e he
  rw [on_within] at he ⊢
  show put s (c.on (part s)).2 = s
  rw [hc (part s) e he, hput]

theorem FailsFirst.after_quiet {c : Call σ α} {f : α → Call σ β} (hc : c.Quiet)
    (hf : ∀ a, (f a).FailsFirst) : (c >>= f).FailsFirst := by
  intro s e he
  rw [hc.on_bind] at he ⊢
  cases hfirst : (c.on s).1 with
  | error _ => rfl
  | ok a =>
    rw [hfirst] at he
    exact hf a s e he

theorem FailsFirst.then_total {c : Call σ α} {f : α → Call σ β} (hc : c.FailsFirst)
    (hf : ∀ a, (f a).Total) : (c >>= f).FailsFirst := by
  intro s e he
  rw [on_bind] at he ⊢
  rcases hc.cases s with ⟨a, t, hok⟩ | ⟨e', herror⟩
  · rw [hok] at he
    obtain ⟨b, hb⟩ := hf a t
    exact nomatch hb.symm.trans he
  · rw [herror]

/-! ## Careful calls -/

/-- What a careful call leaves behind: the invariant holds, and after a failure nothing else is
seen than before. -/
structure Leaves (inv : σ → Prop) (sight : σ → γ) (s : σ) (left : Result α × σ) : Prop where
  keeps : inv left.2
  unseen : ∀ e, left.1 = .error e → sight left.2 = sight s

/-- The call keeps an invariant, and when it fails it leaves what is seen of the state. -/
def Careful (inv : σ → Prop) (sight : σ → γ) (c : Call σ α) : Prop :=
  ∀ s, inv s → Leaves inv sight s (c.on s)

variable {inv : σ → Prop} {sight : σ → γ}

theorem Leaves.answered {s t : σ} {a : α} (ht : inv t) : Leaves inv sight s (.ok a, t) :=
  ⟨ht, fun _ he => nomatch he⟩

theorem Leaves.unchanged {s : σ} {answer : Result α} (hs : inv s) :
    Leaves inv sight s (answer, s) :=
  ⟨hs, fun _ _ => rfl⟩

theorem Careful.of_quiet {c : Call σ α} (hc : c.Quiet) : c.Careful inv sight := by
  intro s hs
  have hsame := hc s
  generalize c.on s = left at hsame ⊢
  exact ⟨hsame ▸ hs, fun _ _ => congrArg sight hsame⟩

theorem Careful.modify {f : σ → σ} (h : ∀ s, inv s → inv (f s)) :
    (modify f : Call σ PUnit).Careful inv sight :=
  fun s hs => .answered (h s hs)

theorem Careful.update {f : σ → Result σ} (h : ∀ s t, inv s → f s = .ok t → inv t) :
    (update f).Careful inv sight := by
  intro s hs
  rw [on_update]
  cases hf : f s with
  | error e => exact .unchanged hs
  | ok t => exact .answered (h s t hs hf)

/-- A call that fails before its first change has to keep the invariant when it answers. -/
theorem Careful.of_failsFirst {c : Call σ α} (hc : c.FailsFirst)
    (h : ∀ s a t, inv s → c.on s = (.ok a, t) → inv t) : c.Careful inv sight := by
  intro s hs
  rcases hc.cases s with ⟨a, t, hok⟩ | ⟨e, herror⟩
  · rw [hok]
    exact .answered (h s a t hs hok)
  · rw [herror]
    exact .unchanged hs

/-- A call may look before it begins. -/
theorem Careful.after_quiet {c : Call σ α} {f : α → Call σ β} (hc : c.Quiet)
    (hf : ∀ a, (f a).Careful inv sight) : (c >>= f).Careful inv sight := by
  intro s hs
  rw [hc.on_bind]
  cases (c.on s).1 with
  | error e => exact .unchanged hs
  | ok a => exact hf a s hs

/-- What a call does in the end must not fail. -/
theorem Careful.then_total {c : Call σ α} {f : α → Call σ β} (hc : c.Careful inv sight)
    (htotal : ∀ a, (f a).Total) (hkeeps : ∀ a s, inv s → inv ((f a).on s).2) :
    (c >>= f).Careful inv sight := by
  intro s hs
  have hleft := hc s hs
  rw [on_bind]
  generalize c.on s = left at hleft ⊢
  rcases left with ⟨e | a, t⟩
  · exact ⟨hleft.keeps, fun _ _ => hleft.unseen e rfl⟩
  · refine ⟨hkeeps a t hleft.keeps, fun e he => ?_⟩
    obtain ⟨b, hb⟩ := htotal a t
    exact nomatch hb.symm.trans he

/-- The answer of a call may be put in another form. -/
theorem Careful.answer {c : Call σ α} (hc : c.Careful inv sight) (f : α → β) :
    (c >>= fun a => pure (f a)).Careful inv sight :=
  hc.then_total (fun a => .pure (f a)) fun _ _ hs => hs

/-- A careful call on a part is careful on the whole, if the whole shows no more of the part. -/
theorem Careful.within {part : σ → τ} {put : σ → τ → σ} {inv' : τ → Prop} {sight' : τ → δ}
    {c : Call τ α} (hc : c.Careful inv' sight') (hpart : ∀ s, inv s → inv' (part s))
    (hput : ∀ s t, inv s → inv' t → inv (put s t))
    (hsight : ∀ s t, inv s → sight' t = sight' (part s) → sight (put s t) = sight s) :
    (c.within part put).Careful inv sight := by
  intro s hs
  have hleft := hc (part s) (hpart s hs)
  rw [on_within]
  exact ⟨hput s _ hs hleft.keeps, fun e he => hsight s _ hs (hleft.unseen e he)⟩

end Aperture.Call
