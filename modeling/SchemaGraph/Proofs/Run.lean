import SchemaGraph.Compiler.Basic
import SchemaGraph.Conversion.Converted

set_option autoImplicit false

/-! # Runs of compilations and conversions

Both are computations that thread a state and may fail, `ExceptT ε (StateM σ)`, and what they
did to the state stays when they fail. A run is the application to a state; this file says what
the run of each building block is, and takes successful runs apart (`bind_ok`).
-/

namespace SchemaGraph

variable {ε σ α β : Type}

/-! ## Building blocks -/

theorem run_bind (m : ExceptT ε (StateM σ) α) (f : α → ExceptT ε (StateM σ) β) (s : σ) :
    (m >>= f) s = match m s with
      | (.ok a, t) => f a t
      | (.error e, t) => (.error e, t) := by
  show (ExceptT.bindCont f (m s).1) (m s).2 = _
  rcases m s with ⟨_ | _, _⟩ <;> rfl

@[simp] theorem run_pure (a : α) (s : σ) :
    (pure a : ExceptT ε (StateM σ) α) s = (.ok a, s) := rfl

@[simp] theorem run_get (s : σ) : (get : ExceptT ε (StateM σ) σ) s = (.ok s, s) := rfl

@[simp] theorem run_modify (f : σ → σ) (s : σ) :
    (modify f : ExceptT ε (StateM σ) Unit) s = (.ok (), f s) := rfl

theorem run_bind_of_ok {m : ExceptT ε (StateM σ) α} {s t : σ} {a : α} (h : m s = (.ok a, t))
    (f : α → ExceptT ε (StateM σ) β) : (m >>= f) s = f a t := by
  rw [run_bind, h]

/-- A successful run of two steps is a successful run of each. -/
theorem bind_ok {m : ExceptT ε (StateM σ) α} {f : α → ExceptT ε (StateM σ) β} {s t : σ} {b : β}
    (h : (m >>= f) s = (.ok b, t)) : ∃ a u, m s = (.ok a, u) ∧ f a u = (.ok b, t) := by
  rw [run_bind] at h
  rcases hm : m s with ⟨e | a, u⟩
  · rw [hm] at h
    cases h
  · rw [hm] at h
    exact ⟨a, u, rfl, h⟩

theorem exists_of_fst {run : α × β} {a : α} (h : run.1 = a) : ∃ b, run = (a, b) := by
  subst h
  exact ⟨run.2, rfl⟩

/-- A result of which a value passes a test is such a value. -/
theorem exists_of_any {test : α → Bool} {result : Except ε α}
    (h : result.toOption.any test = true) : ∃ a, result = .ok a ∧ test a = true := by
  cases result with
  | error e => cases h
  | ok a => exact ⟨a, rfl, h⟩

theorem pure_ok {a b : α} {s t : σ} (h : (pure a : ExceptT ε (StateM σ) α) s = (.ok b, t)) :
    a = b ∧ s = t := by
  cases h
  exact ⟨rfl, rfl⟩

/-! ## What runs do to the state -/

/-- Every run leads to a related state, also if it fails. -/
def Keeps (R : σ → σ → Prop) (part : ExceptT ε (StateM σ) α) : Prop := ∀ s, R s (part s).2

/-- A relation that holds across runs of any number of steps if it does across each. -/
structure Composes (R : σ → σ → Prop) : Prop where
  refl : ∀ s, R s s
  trans : ∀ {r s t}, R r s → R s t → R r t

namespace Composes

variable {R : σ → σ → Prop}

theorem pure (comp : Composes R) (a : α) : Keeps R (Pure.pure a : ExceptT ε (StateM σ) α) :=
  fun s => comp.refl s

theorem throw (comp : Composes R) (e : ε) :
    Keeps R (MonadExcept.throw e : ExceptT ε (StateM σ) α) :=
  fun s => comp.refl s

theorem get (comp : Composes R) : Keeps R (MonadState.get : ExceptT ε (StateM σ) σ) :=
  fun s => comp.refl s

theorem bind (comp : Composes R) {m : ExceptT ε (StateM σ) α} {f : α → ExceptT ε (StateM σ) β}
    (hm : Keeps R m) (hf : ∀ a, Keeps R (f a)) : Keeps R (m >>= f) := by
  intro s
  rw [run_bind]
  have h := hm s
  rcases hs : m s with ⟨e | a, t⟩
  · rw [hs] at h
    exact h
  · rw [hs] at h
    exact comp.trans h (hf a t)

end Composes

/-- From related states a run gives the same, and leads to related states. -/
def Respects (R : σ → σ → Prop) (part : ExceptT ε (StateM σ) α) : Prop :=
  ∀ s s', R s s' → (part s).1 = (part s').1 ∧ R (part s).2 (part s').2

namespace Respects

variable {R : σ → σ → Prop}

theorem pure (a : α) : Respects R (Pure.pure a : ExceptT ε (StateM σ) α) := fun _ _ hs => ⟨rfl, hs⟩

theorem throw (e : ε) : Respects R (MonadExcept.throw e : ExceptT ε (StateM σ) α) :=
  fun _ _ hs => ⟨rfl, hs⟩

theorem bind {m : ExceptT ε (StateM σ) α} {f : α → ExceptT ε (StateM σ) β} (hm : Respects R m)
    (hf : ∀ a, Respects R (f a)) : Respects R (m >>= f) := by
  intro s s' hs
  obtain ⟨hresult, hstates⟩ := hm s s' hs
  rw [run_bind, run_bind]
  generalize m s = run at hresult hstates ⊢
  generalize m s' = run' at hresult hstates ⊢
  obtain ⟨r, t⟩ := run
  obtain ⟨_, t'⟩ := run'
  cases hresult
  cases r with
  | error e => exact ⟨rfl, hstates⟩
  | ok a => exact hf a t t' hstates

/-- What looks at the state may go on by what related states have in common. -/
theorem get_bind {f : σ → ExceptT ε (StateM σ) α} (hsame : ∀ {s s'}, R s s' → f s = f s')
    (hf : ∀ s, Respects R (f s)) : Respects R (MonadState.get >>= f) := by
  intro s s' hs
  rw [run_bind_of_ok (run_get s), run_bind_of_ok (run_get s'), ← hsame hs]
  exact hf s s s' hs

theorem modify {f : σ → σ} (h : ∀ {s s'}, R s s' → R (f s) (f s')) :
    Respects R (modify f : ExceptT ε (StateM σ) Unit) :=
  fun _ _ hs => ⟨rfl, h hs⟩

end Respects

/-! ## Compilations -/

namespace Compiling

variable {R : Compiler → Compiler → Prop}

@[simp] theorem run_outcome (part : Compiling α) (c : Compiler) :
    outcome part c = (.ok (part c).1, (part c).2) := rfl

theorem run_attempt (part : Compiling α) (c : Compiler) :
    attempt part c = match part c with
      | (.ok a, d) => (.ok (.ok a), d)
      | (.error (.errors errors), d) => (.ok (.error errors), d)
      | (.error failure, d) => (.error failure, d) := by
  rw [attempt, run_bind, run_outcome]
  rcases part c with ⟨(_ | _ | _) | _, _⟩ <;> rfl

theorem run_attempt_of_ok {part : Compiling α} {c d : Compiler} {a : α}
    (h : part c = (.ok a, d)) : attempt part c = (.ok (.ok a), d) := by
  rw [run_attempt, h]

/-- A part that was attempted and gave a value ran to that value. -/
theorem attempt_ok {part : Compiling α} {c d : Compiler} {a : α}
    (h : attempt part c = (.ok (.ok a), d)) : part c = (.ok a, d) := by
  rw [run_attempt] at h
  rcases hp : part c with ⟨(_ | _ | _) | _, _⟩ <;> rw [hp] at h <;> cases h
  rfl

theorem snd_attempt (part : Compiling α) (c : Compiler) : (attempt part c).2 = (part c).2 := by
  rw [run_attempt]
  rcases part c with ⟨(_ | _ | _) | _, _⟩ <;> rfl

theorem keeps_attempt {part : Compiling α} (h : Keeps R part) : Keeps R (attempt part) := by
  intro c
  rw [snd_attempt]
  exact h c

theorem keeps_failWith (comp : Composes R) (path : Path) (key : MessageKey) :
    Keeps R (failWith path key : Compiling α) := fun c => comp.refl c

@[simp] theorem run_known (key : CompileKey) (c : Compiler) :
    known key c = (.ok (c.memory.find? key), c) := rfl

@[simp] theorem run_resolve (reference : String) (c : Compiler) :
    resolve reference c =
      (.ok (c.resolver.resolve reference).1,
        { c with resolver := (c.resolver.resolve reference).2 }) := rfl

theorem run_inScope (url : String) (part : Compiling α) (c : Compiler) :
    inScope url part c =
      ((part { c with resolver := c.resolver.pushScope url }).1,
        { (part { c with resolver := c.resolver.pushScope url }).2 with
          resolver :=
            (part { c with resolver := c.resolver.pushScope url }).2.resolver.leaveScope }) := rfl

theorem run_withChain (chain : List Path) (part : Compiling α) (c : Compiler) :
    withChain chain part c =
      ((part { c with chain }).1, { (part { c with chain }).2 with chain := c.chain }) := rfl

end Compiling

/-! ## Conversions -/

namespace Conversion

variable {R : ConversionState → ConversionState → Prop}

theorem failOn_ok {errors : List LocatedError} {s t : ConversionState}
    (h : failOn errors s = (.ok (), t)) : errors = [] ∧ s = t := by
  cases errors with
  | nil => exact ⟨rfl, congrArg Prod.snd h⟩
  | cons first rest => cases h

@[simp] theorem run_outcome (part : Conversion α) (s : ConversionState) :
    outcome part s = (.ok (part s).1, (part s).2) := rfl

theorem run_attempt (part : Conversion α) (s : ConversionState) :
    attempt part s = match part s with
      | (.ok a, t) => (.ok (.ok a), t)
      | (.error (.errors errors), t) => (.ok (.error errors), t)
      | (.error failure, t) => (.error failure, t) := by
  rw [attempt, run_bind, run_outcome]
  rcases part s with ⟨(_ | _ | _ | _ | _) | _, _⟩ <;> rfl

theorem run_attemptMissing (part : Conversion Value) (s : ConversionState) :
    attemptMissing part s = match part s with
      | (.ok value, t) => (.ok (.ok (some value)), t)
      | (.error .undefined, t) => (.ok (.ok none), t)
      | (.error (.errors errors), t) => (.ok (.error errors), t)
      | (.error failure, t) => (.error failure, t) := by
  unfold attemptMissing
  rw [run_bind_of_ok (run_outcome part s)]
  rcases part s with ⟨(_ | _ | _ | _ | _) | _, _⟩ <;> rfl

end Conversion

/-- A conversion gave a result. -/
def Outcome.isConverted : Outcome → Bool
  | converted _ => true
  | _ => false

theorem Outcome.exists_of_isConverted {outcome : Outcome} (h : outcome.isConverted = true) :
    ∃ result, outcome = .converted result := by
  cases outcome with
  | converted result => exact ⟨result, rfl⟩
  | _ => cases h

/-- A conversion ended with errors. -/
def Outcome.isFailed : Outcome → Bool
  | failed _ => true
  | _ => false

theorem Outcome.exists_of_isFailed {outcome : Outcome} (h : outcome.isFailed = true) :
    ∃ errors, outcome = .failed errors := by
  cases outcome with
  | failed errors => exact ⟨errors, rfl⟩
  | _ => cases h

end SchemaGraph
