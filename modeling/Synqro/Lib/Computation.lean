import Mathlib.Order.Defs.Unbundled
import Mathlib.Logic.Basic

/-!
# Computations with a state and two outcomes

A computation over a state `σ` returns a value or fails with an error, and in both cases leaves a
state behind: a step that fails half way keeps the effects it had. `Comp σ ε α` is Lean's
`EStateM`, and this module gives the rules its users reason with: how a sequence splits when it
returned (`Comp.bind_ok`) or failed (`Comp.bind_error`), and the frame rule `Comp.Respects`: a
preorder on states that every step of a computation respects, on both outcomes, is respected by
the whole.
-/

/-- A computation over the state `σ` with errors `ε`; a failing run keeps its state. -/
abbrev Comp (σ ε α : Type) := EStateM ε σ α

namespace Comp

variable {σ ε ε' α β : Type}

/-- The state a finished run leaves, whatever its outcome. -/
def final : EStateM.Result ε σ α → σ
  | .ok _ s => s
  | .error _ s => s

/-- The run returned a value. -/
def returned : EStateM.Result ε σ α → Bool
  | .ok _ _ => true
  | .error _ _ => false

@[simp] theorem final_ok (a : α) (s : σ) : final (.ok a s : EStateM.Result ε σ α) = s := rfl
@[simp] theorem final_error (e : ε) (s : σ) : final (.error e s : EStateM.Result ε σ α) = s := rfl

/-- A result is returned or failed. -/
theorem returned_iff {r : EStateM.Result ε σ α} : returned r = true ↔ ∃ a s, r = .ok a s := by
  cases r <;> simp [returned]

/-- The state a computation leaves when it starts in `s`. -/
def after (x : Comp σ ε α) (s : σ) : σ := final (x s)

/-- A run that returned left the state it left. -/
theorem ok_of_returned {x : Comp σ ε Unit} {s : σ} (h : returned (x s) = true) :
    x s = .ok () (after x s) := by
  obtain ⟨_, s', hx⟩ := returned_iff.1 h
  rw [after, hx]
  rfl

/-- Run `x` and hand its outcome to what follows, which runs either way. -/
def outcome (x : Comp σ ε α) : Comp σ ε' (Except ε α) := fun s =>
  match x s with
  | .ok a s' => .ok (.ok a) s'
  | .error e s' => .ok (.error e) s'

/-- Run `x` and forget whether it succeeded, keeping what it did to the state. -/
def ignore (x : Comp σ ε α) : Comp σ ε' Unit := fun s =>
  match x s with
  | .ok _ s' => .ok () s'
  | .error _ s' => .ok () s'

/-- Run `x`; on failure run `k` on the error, which decides the error the caller sees. -/
def onError (x : Comp σ ε α) (k : ε → Comp σ ε' ε') : Comp σ ε' α := fun s =>
  match x s with
  | .ok a s' => .ok a s'
  | .error e s' =>
    match k e s' with
    | .ok e' s'' => .error e' s''
    | .error e' s'' => .error e' s''

/-- Rename the error of a failing run. -/
def mapErr (f : ε → ε') (x : Comp σ ε α) : Comp σ ε' α := fun s =>
  match x s with
  | .ok a s' => .ok a s'
  | .error e s' => .error (f e) s'

/-- A value read off the state. -/
def query (f : σ → Except ε α) : Comp σ ε α := fun s =>
  match f s with
  | .ok a => .ok a s
  | .error e => .error e s

/-- A change of the state, made when `f` allows it. -/
def update (f : σ → Except ε σ) : Comp σ ε Unit := fun s =>
  match f s with
  | .ok s' => .ok () s'
  | .error e => .error e s

/-- A result that is already known, as a computation. -/
def ofExcept (r : Except ε α) : Comp σ ε α := fun s =>
  match r with
  | .ok a => .ok a s
  | .error e => .error e s

/-! ## Reading a run back -/

theorem pure_run (a : α) (s : σ) : (pure a : Comp σ ε α) s = .ok a s := rfl

theorem get_run (s : σ) : (get : Comp σ ε σ) s = .ok s s := rfl

theorem modify_run (f : σ → σ) (s : σ) : (modify f : Comp σ ε Unit) s = .ok () (f s) := rfl

/-- The second computation starts where the first one ended; a failure ends both. -/
theorem bind_run (x : Comp σ ε α) (f : α → Comp σ ε β) (s : σ) :
    (x >>= f) s = match x s with
      | .ok a s' => f a s'
      | .error e s' => .error e s' := by
  simp only [bind, EStateM.bind]
  cases x s <;> rfl

/-- A sequence returned exactly when both of its parts did. -/
theorem bind_ok {x : Comp σ ε α} {f : α → Comp σ ε β} {s s' : σ} {b : β} :
    (x >>= f) s = .ok b s' ↔ ∃ a t, x s = .ok a t ∧ f a t = .ok b s' := by
  rw [bind_run]
  cases x s with
  | ok a t => exact ⟨fun h => ⟨a, t, rfl, h⟩, by rintro ⟨_, _, h, hf⟩; cases h; exact hf⟩
  | error e t => exact ⟨fun h => (by cases h), by rintro ⟨_, _, h, _⟩; cases h⟩

/-- A sequence failed exactly when its first part did, or its second part after it. -/
theorem bind_error {x : Comp σ ε α} {f : α → Comp σ ε β} {s s' : σ} {e : ε} :
    (x >>= f) s = .error e s' ↔
      x s = .error e s' ∨ ∃ a t, x s = .ok a t ∧ f a t = .error e s' := by
  rw [bind_run]
  cases x s with
  | ok a t =>
    refine ⟨fun h => .inr ⟨a, t, rfl, h⟩, ?_⟩
    rintro (h | ⟨_, _, h, hf⟩) <;> cases h
    exact hf
  | error e' t =>
    refine ⟨fun h => (by cases h; exact .inl rfl), ?_⟩
    rintro (h | ⟨_, _, h, _⟩) <;> cases h
    rfl

/-- Returning changes nothing. -/
theorem pure_ok {a b : α} {s s' : σ} :
    (pure a : Comp σ ε α) s = .ok b s' ↔ a = b ∧ s = s' := by
  rw [pure_run]
  constructor
  · intro h; cases h; exact ⟨rfl, rfl⟩
  · rintro ⟨rfl, rfl⟩; rfl

/-- What happens to errors does not touch what is returned. -/
theorem mapErr_ok {f : ε → ε'} {x : Comp σ ε α} {s s' : σ} {a : α} :
    mapErr f x s = .ok a s' ↔ x s = .ok a s' := by
  unfold mapErr
  cases x s <;> simp

/-- A failure is the same failure under its new name. -/
theorem mapErr_error {f : ε → ε'} {x : Comp σ ε α} {s s' : σ} {e : ε'} :
    mapErr f x s = .error e s' ↔ ∃ e₀, x s = .error e₀ s' ∧ f e₀ = e := by
  unfold mapErr
  cases x s with
  | ok a t => simp
  | error e₁ t =>
    constructor
    · intro h
      cases h
      exact ⟨e₁, rfl, rfl⟩
    · rintro ⟨e₀, h, rfl⟩
      cases h
      rfl

/-- Renaming errors leaves the state as it is. -/
@[simp] theorem after_mapErr (f : ε → ε') (x : Comp σ ε α) (s : σ) :
    after (mapErr f x) s = after x s := by
  unfold after mapErr
  cases x s <;> rfl

/-- After a step that returned, the rest decides where the run ends. -/
theorem after_bind_ok {x : Comp σ ε α} {f : α → Comp σ ε β} {s t : σ} {a : α}
    (h : x s = .ok a t) : after (x >>= f) s = after (f a) t := by
  rw [after, after, bind_run, h]

/-- After a step that failed, the run has ended. -/
theorem after_bind_error {x : Comp σ ε α} {f : α → Comp σ ε β} {s t : σ} {e : ε}
    (h : x s = .error e t) : after (x >>= f) s = t := by
  rw [after, bind_run, h]
  rfl

/-- What is returned has no part in the state that is left. -/
@[simp] theorem after_bind_pure (x : Comp σ ε α) (f : α → β) (s : σ) :
    after (x >>= fun a => pure (f a)) s = after x s := by
  unfold after
  rw [bind_run]
  cases x s <;> rfl

/-- What is ignored is the result, not the state. -/
@[simp] theorem after_ignore (x : Comp σ ε α) (s : σ) :
    after (ignore x : Comp σ ε' Unit) s = after x s := by
  unfold after ignore
  cases x s <;> rfl

/-- A handler of errors is not run when there is none. -/
theorem onError_ok {k : ε → Comp σ ε' ε'} {x : Comp σ ε α} {s s' : σ} {a : α} :
    onError x k s = .ok a s' ↔ x s = .ok a s' := by
  unfold onError
  cases x s with
  | ok => simp
  | error e t => cases h : k e t <;> simp [h]

/-- A guarded computation that failed did so in its body, before its handler ran. -/
theorem onError_error {x : Comp σ ε α} {k : ε → Comp σ ε' ε'} {s s' : σ} {e : ε'}
    (h : Comp.onError x k s = .error e s') :
    ∃ e₀ t, x s = .error e₀ t ∧ Comp.after (k e₀) t = s' := by
  unfold Comp.onError at h
  cases hx : x s with
  | ok a t => simp only [hx] at h; cases h
  | error e₀ t =>
    simp only [hx] at h
    refine ⟨e₀, t, rfl, ?_⟩
    unfold Comp.after
    cases hk : k e₀ t <;> simp only [hk] at h <;> cases h <;> rfl

/-- A value that is there already is returned in the same state. -/
theorem ofExcept_ok {r : Except ε α} {s s' : σ} {a : α} :
    (ofExcept r : Comp σ ε α) s = .ok a s' ↔ r = .ok a ∧ s = s' := by
  unfold ofExcept
  cases r <;> simp

theorem ofExcept_ok_bind (a : α) (f : α → Comp σ ε β) :
    (ofExcept (.ok a) : Comp σ ε α) >>= f = f a := rfl

/-- A question returns its answer and changes nothing. -/
theorem query_ok {f : σ → Except ε α} {s s' : σ} {a : α} :
    query f s = .ok a s' ↔ f s = .ok a ∧ s = s' := by
  unfold query
  cases f s <;> simp

/-- A question that fails changes nothing either. -/
theorem query_error {f : σ → Except ε α} {s s' : σ} {e : ε} :
    query f s = .error e s' ↔ f s = .error e ∧ s = s' := by
  unfold query
  cases f s <;> simp

/-- An update returns in the state that it computes. -/
theorem update_ok {f : σ → Except ε σ} {s s' : σ} {a : Unit} :
    update f s = .ok a s' ↔ f s = .ok s' := by
  unfold update
  cases f s <;> simp

/-- An update that fails leaves the state as it was. -/
theorem update_error {f : σ → Except ε σ} {s s' : σ} {e : ε} :
    update f s = .error e s' ↔ f s = .error e ∧ s = s' := by
  unfold update
  cases f s <;> simp

/-- The outcome of a computation is what it returned or the error it failed with. -/
theorem outcome_ok {x : Comp σ ε α} {s s' : σ} {r : Except ε α} :
    (outcome x : Comp σ ε' (Except ε α)) s = .ok r s' ↔
      (∃ a, r = .ok a ∧ x s = .ok a s') ∨ (∃ e, r = .error e ∧ x s = .error e s') := by
  unfold outcome
  cases x s with
  | ok a t =>
    constructor
    · intro h; cases h; exact .inl ⟨a, rfl, rfl⟩
    · rintro (⟨b, rfl, h⟩ | ⟨e, rfl, h⟩) <;> cases h; rfl
  | error e t =>
    constructor
    · intro h; cases h; exact .inr ⟨e, rfl, rfl⟩
    · rintro (⟨b, rfl, h⟩ | ⟨e, rfl, h⟩) <;> cases h; rfl

/-- To take the outcome never fails. -/
theorem outcome_ne_error {x : Comp σ ε α} {s s' : σ} {e : ε'} :
    (outcome x : Comp σ ε' (Except ε α)) s ≠ .error e s' := by
  unfold outcome
  cases x s <;> simp

/-- To ignore the outcome leaves the state that the computation left. -/
theorem ignore_ok {x : Comp σ ε α} {s s' : σ} {a : Unit} :
    (ignore x : Comp σ ε' Unit) s = .ok a s' ↔ s' = after x s := by
  unfold ignore after
  cases x s <;> simp [eq_comm]

/-- To ignore the outcome never fails. -/
theorem ignore_ne_error {x : Comp σ ε α} {s s' : σ} {e : ε'} :
    (ignore x : Comp σ ε' Unit) s ≠ .error e s' := by
  unfold ignore
  cases x s <;> simp

/-! ## Errors

`Fails P x` says that whatever error `x` ends with is in `P`.
-/

/-- Every error of `x` is in `P`. -/
def Fails (P : ε → Prop) (x : Comp σ ε α) : Prop := ∀ s e s', x s = .error e s' → P e

section
variable {P : ε → Prop}

theorem Fails.pure (a : α) : Fails P (Pure.pure a : Comp σ ε α) := by
  rintro s e s' ⟨⟩

theorem Fails.get : Fails P (MonadState.get : Comp σ ε σ) := by
  rintro s e s' ⟨⟩

theorem Fails.modify (f : σ → σ) : Fails P (modify f : Comp σ ε Unit) := by
  rintro s e s' ⟨⟩

/-- A computation that throws fails with what it throws. -/
theorem Fails.throw {e : ε} (h : P e) : Fails P (MonadExcept.throw e : Comp σ ε α) := by
  rintro s e s' ⟨⟩
  exact h

/-- A value fails with the error that it is. -/
theorem Fails.ofExcept {r : Except ε α} (h : ∀ e, r = .error e → P e) :
    Fails P (Comp.ofExcept r : Comp σ ε α) := by
  intro s e s' hx
  unfold Comp.ofExcept at hx
  cases r with
  | ok a => cases hx
  | error e' => cases hx; exact h _ rfl

/-- Two computations in a row fail as one of them does. -/
theorem Fails.bind {x : Comp σ ε α} {f : α → Comp σ ε β} (hx : Fails P x)
    (hf : ∀ a, Fails P (f a)) : Fails P (x >>= f) := by
  intro s e s' h
  rcases bind_error.1 h with h | ⟨a, t, -, h⟩
  · exact hx s e s' h
  · exact hf a t e s' h

/-- Renamed errors are among the new names. -/
theorem Fails.mapErr {f : ε' → ε} {x : Comp σ ε' α} (h : ∀ e, P (f e)) :
    Fails P (Comp.mapErr f x) := by
  intro s e s' hx
  unfold Comp.mapErr at hx
  cases hr : x s <;> simp only [hr] at hx <;> cases hx
  exact h _

/-- A computation whose outcome is taken does not fail. -/
theorem Fails.outcome (x : Comp σ ε' α) : Fails P (Comp.outcome x : Comp σ ε (Except ε' α)) :=
  fun _ _ _ h => absurd h outcome_ne_error

theorem Fails.ignore (x : Comp σ ε' α) : Fails P (Comp.ignore x : Comp σ ε Unit) :=
  fun _ _ _ h => absurd h ignore_ne_error

/-- The error of a guarded computation is the one its handler returns or ends with. -/
theorem Fails.onError {x : Comp σ ε' α} {k : ε' → Comp σ ε ε}
    (hk : ∀ s e s', x s = .error e s' → ∀ e' t, k e s' = .ok e' t ∨ k e s' = .error e' t → P e') :
    Fails P (Comp.onError x k) := by
  intro s e s' h
  unfold Comp.onError at h
  cases hx : x s with
  | ok a t => simp only [hx] at h; cases h
  | error e₀ t =>
    simp only [hx] at h
    cases hr : k e₀ t with
    | ok e' t' => simp only [hr] at h; cases h; exact hk s e₀ t hx _ _ (.inl hr)
    | error e' t' => simp only [hr] at h; cases h; exact hk s e₀ t hx _ _ (.inr hr)

end

/-! ## Frames

`Respects R x` says that `x` moves every state to an `R`-later one on both outcomes. For a
preorder it composes, so a frame (an equality of a component, an inclusion) is proved of a program
by proving it of its primitive steps.
-/

/-- `x` only moves the state along `R`, whether it returns or fails. -/
def Respects (R : σ → σ → Prop) (x : Comp σ ε α) : Prop := ∀ s, R s (after x s)

section
variable {R : σ → σ → Prop}

/-- A computation that returned has gone a step of the relation. -/
theorem Respects.ok {x : Comp σ ε α} (h : Respects R x) {s s' : σ} {a : α}
    (hx : x s = .ok a s') : R s s' := by
  have := h s
  rwa [after, hx] at this

/-- So has one that failed. -/
theorem Respects.error {x : Comp σ ε α} (h : Respects R x) {s s' : σ} {e : ε}
    (hx : x s = .error e s') : R s s' := by
  have := h s
  rwa [after, hx] at this

/-- A step of a relation is one of every weaker relation. -/
theorem Respects.mono {R' : σ → σ → Prop} (hR : ∀ s s', R s s' → R' s s') {x : Comp σ ε α}
    (h : Respects R x) : Respects R' x := fun s => hR _ _ (h s)

variable [Std.Refl R]

theorem Respects.pure (a : α) : Respects R (Pure.pure a : Comp σ ε α) := fun s => refl s

theorem Respects.throw (e : ε) : Respects R (MonadExcept.throw e : Comp σ ε α) := fun s => refl s

theorem Respects.get : Respects R (MonadState.get : Comp σ ε σ) := fun s => refl s

/-- A value leaves the state alone, also when it is an error. -/
theorem Respects.ofExcept (r : Except ε α) : Respects R (Comp.ofExcept r : Comp σ ε α) := by
  intro s
  cases r <;> exact refl s

theorem Respects.query (f : σ → Except ε α) : Respects R (Comp.query f) := by
  intro s
  unfold after Comp.query
  cases f s <;> exact refl s

/-- An update is a step if what it computes is. -/
theorem Respects.update {f : σ → Except ε σ} (h : ∀ s s', f s = .ok s' → R s s') :
    Respects R (Comp.update f) := by
  intro s
  unfold after Comp.update
  cases hf : f s with
  | ok s' => exact h s s' hf
  | error e => exact refl s

omit [Std.Refl R] in

/-- A change of the state is a step if it is one everywhere. -/
theorem Respects.modify {f : σ → σ} (h : ∀ s, R s (f s)) :
    Respects R (modify f : Comp σ ε Unit) := h

omit [Std.Refl R] in

/-- Renaming errors keeps the step. -/
theorem Respects.mapErr {x : Comp σ ε α} (f : ε → ε') (h : Respects R x) :
    Respects R (Comp.mapErr f x) := by
  intro s
  have := h s
  unfold after Comp.mapErr at *
  cases hx : x s <;> simpa [hx] using this

omit [Std.Refl R] in

/-- Taking the outcome keeps the step. -/
theorem Respects.outcome {x : Comp σ ε α} (h : Respects R x) :
    Respects R (Comp.outcome x : Comp σ ε' (Except ε α)) := by
  intro s
  have := h s
  unfold after Comp.outcome at *
  cases hx : x s <;> simpa [hx] using this

omit [Std.Refl R] in

/-- Ignoring the outcome keeps the step. -/
theorem Respects.ignore {x : Comp σ ε α} (h : Respects R x) :
    Respects R (Comp.ignore x : Comp σ ε' Unit) := by
  intro s
  have := h s
  unfold after Comp.ignore at *
  cases hx : x s <;> simpa [hx] using this

variable [IsTrans σ R]

omit [Std.Refl R] in
/-- The frame rule for sequences. -/
theorem Respects.bind {x : Comp σ ε α} {f : α → Comp σ ε β} (hx : Respects R x)
    (hf : ∀ a, Respects R (f a)) : Respects R (x >>= f) := by
  intro s
  have h1 := hx s
  unfold after at *
  rw [bind_run]
  cases h : x s with
  | ok a t =>
    rw [h] at h1
    exact IsTrans.trans _ _ _ h1 (hf a t)
  | error e t => rwa [h] at h1

omit [Std.Refl R] in
/-- The frame rule at one state, where what follows may use what the first part returned. -/
theorem after_bind {x : Comp σ ε α} {f : α → Comp σ ε β} {s : σ} (hx : R s (after x s))
    (hf : ∀ a t, x s = .ok a t → R s t → R t (after (f a) t)) : R s (after (x >>= f) s) := by
  unfold after at *
  rw [bind_run]
  cases h : x s with
  | ok a t =>
    rw [h] at hx
    exact IsTrans.trans _ _ _ hx (hf a t h hx)
  | error e t => rwa [h] at hx

omit [Std.Refl R] in
/-- The frame rule for a sequence that failed. -/
theorem error_of_bind {x : Comp σ ε α} {f : α → Comp σ ε β} {s s' : σ} {e : ε}
    (h : (x >>= f) s = .error e s') (hx : R s (after x s))
    (hf : ∀ a t, x s = .ok a t → R s t → f a t = .error e s' → R t s') : R s s' := by
  unfold after at hx
  rcases bind_error.1 h with h | ⟨a, t, ha, h⟩
  · rwa [h] at hx
  · rw [ha] at hx
    exact IsTrans.trans _ _ _ hx (hf a t ha hx h)

omit [Std.Refl R] in

/-- From one state: the handler's step follows that of the computation. -/
theorem after_onError {x : Comp σ ε α} {k : ε → Comp σ ε' ε'} {s : σ} (hx : R s (after x s))
    (hk : ∀ e, Respects R (k e)) : R s (after (Comp.onError x k) s) := by
  unfold after Comp.onError at *
  cases h : x s with
  | ok a t => rwa [h] at hx
  | error e t =>
    rw [h] at hx
    have h2 := hk e t
    unfold after at h2
    cases h' : k e t <;> simp only [h'] at h2 ⊢ <;> exact IsTrans.trans _ _ _ hx h2

omit [Std.Refl R] in

/-- A computation and the handler of its errors are two steps at most. -/
theorem Respects.onError {x : Comp σ ε α} {k : ε → Comp σ ε' ε'} (hx : Respects R x)
    (hk : ∀ e, Respects R (k e)) : Respects R (Comp.onError x k) :=
  fun s => after_onError (hx s) hk

end

end Comp
