/-!
# Steps that may fail

Steps that are taken one after the other stop at the first that fails.  So it is known what they
give (`bind_eq_ok_iff`) and how they fail (`bind_eq_error_iff`) if this is known of each of them,
and a list of tests is passed if each of them is (`ite_throw_eq_ok_iff`).
-/

namespace TrustBoundary

variable {ε α β : Type}

section

variable {x : Except ε α} {f : α → Except ε β}

theorem bind_eq_ok_iff {b : β} : x >>= f = .ok b ↔ ∃ a, x = .ok a ∧ f a = .ok b := by
  cases x <;> simp [bind, Except.bind]

theorem bind_eq_error_iff {e : ε} :
    x >>= f = .error e ↔ x = .error e ∨ ∃ a, x = .ok a ∧ f a = .error e := by
  cases x <;> simp [bind, Except.bind]

end

/-! ### Results that are passed on -/

section

variable {ε' : Type} {x : Except ε α}

theorem exceptMap_eq_ok_iff {f : α → β} {b : β} : x.map f = .ok b ↔ ∃ a, x = .ok a ∧ f a = b := by
  cases x <;> simp [Except.map]

theorem exceptMap_eq_error_iff {f : α → β} {e : ε} : x.map f = .error e ↔ x = .error e := by
  cases x <;> simp [Except.map]

theorem mapError_eq_error_iff {f : ε → ε'} {e' : ε'} :
    x.mapError f = .error e' ↔ ∃ e, x = .error e ∧ f e = e' := by
  cases x with
  | error e =>
    change Except.error (f e) = .error e' ↔ _
    simp
  | ok a =>
    change Except.ok a = .error e' ↔ _
    simp

end

/-! ### Tests -/

section

variable {e : ε} {a b : α}

theorem throw_bind {f : α → Except ε β} : (throw e >>= f : Except ε β) = throw e := rfl

theorem pure_eq_ok_iff : (pure a : Except ε α) = .ok b ↔ a = b := by
  simp [pure, Except.pure]

/-- What is behind a test is done if the test does not fail. -/
theorem ite_throw_eq_ok_iff {c : Prop} [Decidable c] {x : Except ε α} :
    (if c then throw e else x) = .ok a ↔ ¬ c ∧ x = .ok a := by
  split <;> simp [*, throw, throwThe, MonadExceptOf.throw]

end

end TrustBoundary
