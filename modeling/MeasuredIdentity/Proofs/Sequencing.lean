/-!
How a sequence of steps ends, by how each of its steps ends: steps that may fail, and steps that
may fail over some other effect or over a state.
-/
namespace MeasuredIdentity

section Failure

variable {ε α β : Type} {x : Except ε α} {f : α → Except ε β}

theorem bind_eq_ok_iff {b : β} : (x >>= f) = .ok b ↔ ∃ a, x = .ok a ∧ f a = .ok b := by
  cases x <;> simp [bind, Except.bind]

/-- A step without a value either goes on or fails. -/
theorem check_bind_eq_ok_iff {x : Except ε Unit} {f : Unit → Except ε β} {b : β} :
    (x >>= f) = .ok b ↔ x = .ok () ∧ f () = .ok b := by
  cases x <;> simp [bind, Except.bind]

theorem bind_eq_error_iff {e : ε} :
    (x >>= f) = .error e ↔ x = .error e ∨ ∃ a, x = .ok a ∧ f a = .error e := by
  cases x <;> simp [bind, Except.bind]

theorem ok_bind (a : α) (f : α → Except ε β) : (Except.ok a >>= f) = f a := rfl

theorem pure_eq_ok_iff {a b : α} : (pure a : Except ε α) = .ok b ↔ a = b := by
  simp [pure, Except.pure]

theorem mapError_eq_ok_iff {ε' : Type} {g : ε → ε'} {a : α} :
    x.mapError g = .ok a ↔ x = .ok a := by
  cases x with
  | error e => exact iff_of_false nofun nofun
  | ok b =>
    show Except.ok b = Except.ok a ↔ _
    rw [Except.ok.injEq, Except.ok.injEq]

end Failure

section Effect

variable {m : Type → Type} [Monad m] [LawfulMonad m] {ε α β : Type}

theorem run_liftM_bind (x : m α) (f : α → ExceptT ε m β) :
    ((liftM x : ExceptT ε m α) >>= f).run = x >>= fun a => (f a).run :=
  ExceptT.run_bind_lift x f

/-- A result goes on with its value, or ends the program. -/
theorem run_liftM_except_bind (x : Except ε α) (f : α → ExceptT ε m β) :
    ((liftM x : ExceptT ε m α) >>= f).run =
      match x with
      | .ok a => (f a).run
      | .error e => pure (.error e) := by
  rw [ExceptT.run_bind]
  change (pure x >>= _) = _
  rw [pure_bind]
  cases x <;> rfl

end Effect

section NoEffect

variable {ε α β : Type}

theorem id_bind (x : Id α) (f : α → Id β) : (x >>= f) = f x := rfl

theorem run_bind_id (x : ExceptT ε Id α) (f : α → ExceptT ε Id β) :
    (x >>= f).run =
      match x.run with
      | .ok a => (f a).run
      | .error e => .error e := by
  rw [ExceptT.run_bind, id_bind]
  rfl

theorem run_bind_eq_ok_iff {x : ExceptT ε Id α} {f : α → ExceptT ε Id β} {b : β} :
    (x >>= f).run = .ok b ↔ ∃ a, x.run = .ok a ∧ (f a).run = .ok b := by
  rw [run_bind_id]
  rcases x.run with e | a
  · exact iff_of_false nofun nofun
  · constructor
    · intro h
      exact ⟨a, rfl, h⟩
    · rintro ⟨_, ⟨⟩, h⟩
      exact h

end NoEffect

section State

variable {ε σ α β : Type}

theorem StateM.run_bind_of {x : StateM σ α} {s t : σ} {a : α} (h : x.run s = (a, t))
    (f : α → StateM σ β) : (x >>= f).run s = (f a).run t := by
  rw [StateT.run_bind, h]
  rfl

/-- A failure keeps the state that it is met in. -/
theorem run_bind_state (x : ExceptT ε (StateM σ) α) (f : α → ExceptT ε (StateM σ) β) (s : σ) :
    (x >>= f).run.run s =
      match x.run.run s with
      | (.ok a, t) => (f a).run.run t
      | (.error e, t) => (.error e, t) := by
  show (match x.run.run s with | (r, t) => (ExceptT.bindCont f r).run t) = _
  rcases x.run.run s with ⟨_ | a, t⟩ <;> rfl

end State

end MeasuredIdentity
