/-!
How calls end. A call gives a value, gives an error its caller may handle, or is abandoned.
A `Step` is a call on a state; it leaves a state behind however it ends.
-/

set_option autoImplicit false

namespace SatSession

inductive Panic where
  | text (message : String)
  | outOfRange
deriving DecidableEq

inductive Outcome (ε α : Type) where
  | ok (value : α)
  | error (cause : ε)
  | panic (cause : Panic)
deriving DecidableEq

namespace Outcome

variable {ε δ α β : Type}

def bind (x : Outcome ε α) (f : α → Outcome ε β) : Outcome ε β :=
  match x with
  | .ok a => f a
  | .error e => .error e
  | .panic p => .panic p

instance : Monad (Outcome ε) where
  pure := .ok
  bind := bind

def mapError (f : ε → δ) : Outcome ε α → Outcome δ α
  | .ok a => .ok a
  | .error e => .error (f e)
  | .panic p => .panic p

def widen : Outcome Empty α → Outcome ε α
  | .ok a => .ok a
  | .panic p => .panic p

def isPanic : Outcome ε α → Bool
  | .panic _ => true
  | _ => false

@[simp] theorem bind_ok (a : α) (f : α → Outcome ε β) :
    (Outcome.ok a >>= f) = f a := rfl

@[simp] theorem bind_error (e : ε) (f : α → Outcome ε β) :
    ((Outcome.error e : Outcome ε α) >>= f) = .error e := rfl

@[simp] theorem bind_panic (p : Panic) (f : α → Outcome ε β) :
    ((Outcome.panic p : Outcome ε α) >>= f) = .panic p := rfl

end Outcome

def Step (σ ε α : Type) := σ → Outcome ε α × σ

namespace Step

variable {σ τ ε δ α β : Type}

def bind (x : Step σ ε α) (f : α → Step σ ε β) : Step σ ε β := fun s =>
  match x s with
  | (.ok a, t) => f a t
  | (.error e, t) => (.error e, t)
  | (.panic p, t) => (.panic p, t)

instance : Monad (Step σ ε) where
  pure a := fun s => (.ok a, s)
  bind := bind

def get : Step σ ε σ := fun s => (.ok s, s)

def modify (f : σ → σ) : Step σ ε Unit := fun s => (.ok (), f s)

def fail (e : ε) : Step σ ε α := fun s => (.error e, s)

def abandon (message : String) : Step σ ε α := fun s => (.panic (.text message), s)

def ofOutcome (x : Outcome ε α) : Step σ ε α := fun s => (x, s)

def widen (x : Step σ Empty α) : Step σ ε α := fun s =>
  match x s with
  | (o, t) => (o.widen, t)

def mapError (f : ε → δ) (x : Step σ ε α) : Step σ δ α := fun s =>
  match x s with
  | (o, t) => (o.mapError f, t)

def zoom (view : τ → σ) (put : τ → σ → τ) (x : Step σ ε α) : Step τ ε α := fun s =>
  match x (view s) with
  | (o, t) => (o, put s t)

@[simp] theorem pure_apply (a : α) (s : σ) : (pure a : Step σ ε α) s = (.ok a, s) := rfl

@[simp] theorem get_apply (s : σ) : (get : Step σ ε σ) s = (.ok s, s) := rfl

@[simp] theorem modify_apply (f : σ → σ) (s : σ) :
    (modify f : Step σ ε Unit) s = (.ok (), f s) := rfl

@[simp] theorem fail_apply (e : ε) (s : σ) : (fail e : Step σ ε α) s = (.error e, s) := rfl

theorem bind_apply (x : Step σ ε α) (f : α → Step σ ε β) (s : σ) :
    (x >>= f) s = match x s with
      | (.ok a, t) => f a t
      | (.error e, t) => (.error e, t)
      | (.panic p, t) => (.panic p, t) := rfl

theorem bind_ok {x : Step σ ε α} {s t : σ} {a : α} (done : x s = (.ok a, t))
    (f : α → Step σ ε β) : (x >>= f) s = f a t := by
  rw [bind_apply, done]

theorem bind_error {x : Step σ ε α} {s t : σ} {e : ε} (failed : x s = (.error e, t))
    (f : α → Step σ ε β) : (x >>= f) s = (.error e, t) := by
  rw [bind_apply, failed]

theorem bind_eq_ok {x : Step σ ε α} {f : α → Step σ ε β} {s u : σ} {b : β} :
    (x >>= f) s = (.ok b, u) ↔ ∃ a t, x s = (.ok a, t) ∧ f a t = (.ok b, u) := by
  rw [bind_apply]
  constructor
  · intro done
    rcases result : x s with ⟨a | e | p, t⟩ <;> rw [result] at done
    · exact ⟨a, t, rfl, done⟩
    · cases done
    · cases done
  · rintro ⟨a, t, result, done⟩
    rw [result]
    exact done

end Step

end SatSession
