/-!
# Outcomes

Computations that may fail, put together: a sequence succeeds where all of its
parts do, and fails with the first failure among them.
-/

namespace ApiTypes

/-- The failure if there is one, the value otherwise. -/
def unlessFault {ε α : Type} : Option ε → α → Except ε α
  | some e, _ => .error e
  | none, a => .ok a

variable {ε α β γ : Type}

theorem map_unlessFault (fault : Option ε) (a : α) (f : α → β) :
    (unlessFault fault a).map f = unlessFault fault (f a) := by
  cases fault <;> rfl

theorem bind_unlessFault (fault : Option ε) (a : α) (f : α → β) :
    (do let x ← unlessFault fault a; pure (f x)) = unlessFault fault (f a) := by
  cases fault <;> rfl

theorem bind_unlessFault₂ (fault other : Option ε) (a : α) (b : β) (f : α → β → γ) :
    (do let x ← unlessFault fault a; let y ← unlessFault other b; pure (f x y)) =
      unlessFault (fault.or other) (f a b) := by
  cases fault <;> cases other <;> rfl

theorem unlessFault_eq_ok_iff (fault : Option ε) (a b : α) :
    unlessFault fault a = .ok b ↔ fault = none ∧ a = b := by
  cases fault <;> simp [unlessFault]

theorem unlessFault_eq_error_iff (fault : Option ε) (a : α) (e : ε) :
    unlessFault fault a = .error e ↔ fault = some e := by
  cases fault <;> simp [unlessFault]

theorem bind_eq_ok_iff {x : Except ε α} {f : α → Except ε β} {b : β} :
    (x >>= f) = .ok b ↔ ∃ a, x = .ok a ∧ f a = .ok b := by
  cases x with
  | error e =>
    constructor
    · intro h
      cases h
    · rintro ⟨a, ha, -⟩
      cases ha
  | ok a =>
    constructor
    · intro h
      exact ⟨a, rfl, h⟩
    · rintro ⟨_, ha, h⟩
      rwa [← Except.ok.inj ha] at h

@[simp] theorem mapError_error {ε' : Type} (f : ε → ε') (e : ε) :
    (Except.error e : Except ε α).mapError f = .error (f e) := rfl

theorem map_eq_ok_iff {x : Except ε α} {f : α → β} {b : β} :
    x.map f = .ok b ↔ ∃ a, x = .ok a ∧ f a = b := by
  cases x <;> simp [Except.map]

theorem pure_eq_ok_iff {a b : α} : (pure a : Except ε α) = .ok b ↔ a = b :=
  Iff.intro Except.ok.inj (congrArg _)

end ApiTypes
