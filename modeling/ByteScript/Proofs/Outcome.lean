import ByteScript.Text.Basic

/-!
# Computations that succeed or fail

What is known of the parts of a computation from how the whole ends.

* `ok_bind`, `error_bind`: its first step is known;
* `exists_of_isOk`, `exists_of_bind_eq_ok`, `exists_of_map_eq_ok`, `mapError_eq_ok_iff`: it
  succeeds;
* `bind_eq_error_iff`, `map_eq_error_iff`, `exists_of_mapError_eq_error`: it fails;
* `toOption_eq_some_iff`, `toOption_eq_none_iff`, `toOption_map`: its error is of no interest;
* `mapError_bind`, `bind_eq_mapError`, `mapError_map`, `mapError_mapError`, `mapError_eq_self`: its
  errors are changed;
* `SameUnless`: it ends like another one, unless that one has an error of some kind;
  `SameUnless.bind` and its siblings: it does so if its parts do;
* `Alike`: two computations fail alike or give related values.
-/

namespace ByteScript

section Outcome

variable {ε δ α β γ : Type}

theorem ok_bind (a : α) (f : α → Except ε β) : (Except.ok a >>= f) = f a := rfl

theorem error_bind (e : ε) (f : α → Except ε β) : (Except.error e >>= f) = .error e := rfl

theorem exists_of_bind_eq_ok {x : Except ε α} {f : α → Except ε β} {b : β}
    (h : x >>= f = .ok b) : ∃ a, x = .ok a ∧ f a = .ok b := by
  cases x with
  | error e => cases h
  | ok a => exact ⟨a, rfl, h⟩

theorem exists_of_isOk {x : Except ε α} (h : x.isOk = true) : ∃ a, x = .ok a := by
  cases x with
  | error e => cases h
  | ok a => exact ⟨a, rfl⟩

theorem exists_of_map_eq_ok {x : Except ε α} {f : α → β} {b : β} (h : x.map f = .ok b) :
    ∃ a, x = .ok a ∧ f a = b := by
  cases x with
  | error e => cases h
  | ok a => exact ⟨a, rfl, Except.ok.inj h⟩

theorem bind_eq_error_iff {x : Except ε α} {f : α → Except ε β} {e : ε} :
    x >>= f = .error e ↔ x = .error e ∨ ∃ a, x = .ok a ∧ f a = .error e := by
  cases x with
  | error d =>
    rw [error_bind, Except.error.injEq, Except.error.injEq]
    exact ⟨Or.inl, fun h => h.elim id fun ⟨_, ha, _⟩ => nomatch ha⟩
  | ok a =>
    rw [ok_bind]
    exact ⟨fun h => Or.inr ⟨a, rfl, h⟩, fun h => h.elim nofun fun ⟨_, ha, hf⟩ =>
      Except.ok.inj ha ▸ hf⟩

theorem map_eq_error_iff {x : Except ε α} {f : α → β} {e : ε} :
    x.map f = .error e ↔ x = .error e := by
  cases x with
  | error d =>
    change Except.error d = Except.error e ↔ Except.error d = Except.error e
    rw [Except.error.injEq, Except.error.injEq]
  | ok a => exact iff_of_false (fun h => by cases h) (fun h => by cases h)

theorem mapError_eq_ok_iff {x : Except ε α} {f : ε → δ} {a : α} :
    x.mapError f = .ok a ↔ x = .ok a := by
  cases x with
  | error e => exact iff_of_false (fun h => by cases h) (fun h => by cases h)
  | ok b =>
    change Except.ok b = Except.ok a ↔ Except.ok b = Except.ok a
    rw [Except.ok.injEq, Except.ok.injEq]

theorem exists_of_mapError_eq_error {x : Except ε α} {f : ε → δ} {d : δ}
    (h : x.mapError f = .error d) : ∃ e, x = .error e ∧ f e = d := by
  cases x with
  | error e => exact ⟨e, rfl, Except.error.inj h⟩
  | ok a => cases h

theorem toOption_eq_some_iff {x : Except ε α} {a : α} : x.toOption = some a ↔ x = .ok a := by
  cases x with
  | error e => exact iff_of_false nofun nofun
  | ok b =>
    change some b = some a ↔ Except.ok b = Except.ok a
    rw [Option.some.injEq, Except.ok.injEq]

theorem toOption_eq_none_iff {x : Except ε α} : x.toOption = none ↔ ∃ e, x = .error e := by
  cases x with
  | error e => exact iff_of_true rfl ⟨e, rfl⟩
  | ok a => exact iff_of_false nofun nofun

theorem toOption_map (x : Except ε α) (f : α → β) : (x.map f).toOption = x.toOption.map f := by
  cases x <;> rfl

theorem mapError_bind (x : Except ε α) (f : α → Except ε β) (g : ε → δ) :
    (x.bind f).mapError g = (x.mapError g).bind fun a => (f a).mapError g := by
  cases x <;> rfl

/-- A computation whose steps have the changed errors has the changed errors. -/
theorem bind_eq_mapError {x : Except ε α} {y : Except δ α} {f : α → Except ε β}
    {f' : α → Except δ β} {g : ε → δ} (hx : y = x.mapError g)
    (hf : ∀ a, f' a = (f a).mapError g) : (y >>= f') = (x >>= f).mapError g := by
  subst hx
  cases x with
  | error e => rfl
  | ok a => exact hf a

theorem mapError_map (x : Except ε α) (f : α → β) (g : ε → δ) :
    (x.map f).mapError g = (x.mapError g).map f := by
  cases x <;> rfl

theorem mapError_mapError (x : Except ε α) (f : ε → δ) (g : δ → γ) :
    (x.mapError f).mapError g = x.mapError fun e => g (f e) := by
  cases x <;> rfl

theorem mapError_eq_self {x : Except ε α} {f : ε → ε} (h : ∀ e, x = .error e → f e = e) :
    x.mapError f = x := by
  cases x with
  | error e => exact congrArg Except.error (h e rfl)
  | ok a => rfl

/-! ## Errors set apart -/

/-- The second computation ends like the first one, unless the first one has an error of a kind. -/
def SameUnless (p : ε → Prop) (x y : Except ε α) : Prop := (∀ e, x = .error e → ¬ p e) → y = x

namespace SameUnless

variable {p : ε → Prop} {x y z : Except ε α}

theorem refl (x : Except ε α) : SameUnless p x x := fun _ => rfl

theorem of_error {e : ε} (he : p e) (y : Except ε α) : SameUnless p (.error e) y :=
  fun h => absurd he (h e rfl)

/-- A computation that gives what another one gives ends like it, errors apart. -/
theorem of_ok (h : ∀ a, x = .ok a → y = .ok a) : SameUnless (fun _ => True) x y := by
  intro hx
  cases x with
  | error e => exact absurd trivial (hx e rfl)
  | ok a => exact h a rfl

theorem eq_ok (h : SameUnless p x y) {a : α} (hx : x = .ok a) : y = .ok a := by
  subst hx
  exact h nofun

theorem eq_error (h : SameUnless p x y) {e : ε} (hx : x = .error e) (he : ¬ p e) :
    y = .error e := by
  subst hx
  exact h fun d hd => Except.error.inj hd ▸ he

theorem trans (hxy : SameUnless p x y) (hyz : SameUnless p y z) : SameUnless p x z := by
  intro h
  have hy := hxy h
  exact (hyz (hy ▸ h)).trans hy

/-- What one step more does not change any number of steps does not. -/
theorem of_le {f : Nat → Except ε α} (h : ∀ n, SameUnless p (f n) (f (n + 1))) {m n : Nat}
    (hmn : m ≤ n) : SameUnless p (f m) (f n) := by
  induction hmn with
  | refl => exact .refl _
  | step _ ih => exact ih.trans (h _)

theorem bind {f g : α → Except ε β} (hx : SameUnless p x y) (hf : ∀ a, SameUnless p (f a) (g a)) :
    SameUnless p (x >>= f) (y >>= g) := by
  intro h
  cases x with
  | error e =>
    rw [hx.eq_error rfl (h e rfl)]
    rfl
  | ok a =>
    rw [hx.eq_ok rfl]
    exact hf a h

theorem map (hx : SameUnless p x y) (f : α → β) : SameUnless p (x.map f) (y.map f) :=
  fun h => congrArg (Except.map f) (hx fun e he => h e (map_eq_error_iff.mpr he))

/-- Errors of the kind may change in any way that keeps the kind; all others change alike. -/
theorem mapError {q : δ → Prop} {g g' : ε → δ} (hx : SameUnless p x y) (hkind : ∀ e, p e → q (g e))
    (hother : ∀ e, ¬ p e → g' e = g e) : SameUnless q (x.mapError g) (y.mapError g') := by
  intro h
  cases x with
  | error e =>
    have he : ¬ p e := fun hp => h _ rfl (hkind e hp)
    rw [hx.eq_error rfl he]
    exact congrArg Except.error (hother e he)
  | ok a =>
    rw [hx.eq_ok rfl]
    rfl

end SameUnless

/-! ## Outcomes that are alike -/

/-- Both computations fail alike, or they give related values. -/
inductive Alike (r : α → β → Prop) : Except ε α → Except ε β → Prop
  | error (e : ε) : Alike r (.error e) (.error e)
  | ok {a : α} {b : β} (h : r a b) : Alike r (.ok a) (.ok b)

namespace Alike

variable {r : α → β → Prop} {x : Except ε α} {y : Except ε β}

theorem exists_ok {a : α} (h : Alike r (.ok a) y) : ∃ b, y = .ok b ∧ r a b := by
  cases h with
  | ok h => exact ⟨_, rfl, h⟩

theorem mapError (h : Alike r x y) (g : ε → δ) : Alike r (x.mapError g) (y.mapError g) := by
  cases h with
  | error e => exact .error (g e)
  | ok h => exact .ok h

/-- Computations that end alike may be followed by ones that end in the same way. -/
theorem sameUnless_bind (h : Alike r x y) {p : ε → Prop} {f : α → Except ε γ} {g : β → Except ε γ}
    (hf : ∀ a b, r a b → SameUnless p (f a) (g b)) : SameUnless p (x >>= f) (y >>= g) := by
  cases h with
  | error e => exact .refl _
  | ok h => exact hf _ _ h

/-- What is made of related values may be related in another way. -/
theorem map (h : Alike r x y) {γ' : Type} {r' : γ → γ' → Prop} {f : α → γ} {g : β → γ'}
    (hf : ∀ a b, r a b → r' (f a) (g b)) : Alike r' (x.map f) (y.map g) := by
  cases h with
  | error e => exact .error e
  | ok h => exact .ok (hf _ _ h)

/-- Computations that end alike may be followed by ones that are equal on related values. -/
theorem bind_eq (h : Alike r x y) {f : α → Except ε γ} {g : β → Except ε γ}
    (hf : ∀ a b, r a b → f a = g b) : x.bind f = y.bind g := by
  cases h with
  | error e => rfl
  | ok h => exact hf _ _ h

end Alike

end Outcome

end ByteScript
