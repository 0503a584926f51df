/-!
# Steps that can fail

Most functions of this library return `Except`, and many are two steps one after the other. What
such a pair returns tells what each of the steps has returned.

* `exists_of_bind_eq_ok`, `bind_eq_ok`: the pair succeeds exactly if both steps do.
* `exists_of_bind_eq_error`: an error that the first step does not give comes from the second.
* `Ok` says something of a result only if there is one, and `ok_bind` carries it through a pair.
-/

namespace PatternAudit

section

variable {ε ε' α β : Type} {x : Except ε α} {f : α → Except ε β} {a : α} {b : β}

/-! ## Two steps -/

theorem exists_of_bind_eq_ok (h : x >>= f = .ok b) : ∃ a, x = .ok a ∧ f a = .ok b := by
  cases x with
  | error e => cases h
  | ok a => exact ⟨a, rfl, h⟩

theorem bind_of_eq_ok (hx : x = .ok a) : x >>= f = f a := by
  rw [hx]
  rfl

theorem bind_eq_ok (hx : x = .ok a) (hf : f a = .ok b) : x >>= f = .ok b :=
  (bind_of_eq_ok hx).trans hf

theorem exists_of_bind_eq_error {e : ε} (hx : x ≠ .error e) (h : x >>= f = .error e) :
    ∃ a, x = .ok a ∧ f a = .error e := by
  cases x with
  | error e' =>
    cases h
    exact absurd rfl hx
  | ok a => exact ⟨a, rfl, h⟩

theorem mapError_map (x : Except ε α) (g : α → β) (h : ε → ε') :
    (x.map g).mapError h = (x.mapError h).map g := by
  cases x <;> rfl

/-! ## Successful results -/

/-- Every successful result of `x` satisfies `P`. -/
def Ok (x : Except ε α) (P : α → Prop) : Prop :=
  ∀ a, x = .ok a → P a

theorem ok_of_ok {P : α → Prop} (h : P a) : Ok (.ok a : Except ε α) P := by
  intro b hb
  cases hb
  exact h

theorem ok_error {P : α → Prop} (e : ε) : Ok (.error e : Except ε α) P := by
  intro b hb
  cases hb

theorem ok_bind {P : β → Prop} (hf : ∀ a, x = .ok a → Ok (f a) P) : Ok (x >>= f) P := by
  intro b hb
  obtain ⟨a, ha, hb⟩ := exists_of_bind_eq_ok hb
  exact hf a ha b hb

theorem ok_map {g : α → β} {P : β → Prop} (h : ∀ a, P (g a)) : Ok (x.map g) P := by
  cases x with
  | error e => exact ok_error e
  | ok a => exact ok_of_ok (h a)

/-- Whether a result is a certain success can be told without comparing errors. -/
instance decidableEqOk [DecidableEq α] (x : Except ε α) (a : α) : Decidable (x = .ok a) :=
  match x with
  | .ok b => decidable_of_iff (b = a) (by simp)
  | .error _ => isFalse nofun

end

end PatternAudit
