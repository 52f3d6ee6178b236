import Mathlib.Logic.Basic

/-!
# Steps that can fail

What comes out of steps that can fail when they are made one after the other: the results of all of
them, or the failure of the first that fails (`forM_eq_error_iff`).  Where only the failures matter,
a step can be taken without its result (`checkOf`).
-/

namespace ServingAdmin

variable {ε α β : Type}

theorem bind_eq_ok_iff
    {x : Except ε α}
    {f : α → Except ε β}
    {b : β} :
    (x >>= f) = .ok b ↔ ∃ a, x = .ok a ∧ f a = .ok b := by
  cases x with
  | error _ => simp [bind, Except.bind]
  | ok _ => simp [bind, Except.bind]

theorem bind_eq_error_iff
    {x : Except ε α}
    {f : α → Except ε β}
    {e : ε} :
    (x >>= f) = .error e ↔ x = .error e ∨ ∃ a, x = .ok a ∧ f a = .error e := by
  cases x with
  | error _ => simp [bind, Except.bind]
  | ok _ => simp [bind, Except.bind]

@[simp] theorem mapError_eq_ok_iff
    {ε' : Type}
    {f : ε → ε'}
    {x : Except ε α}
    {a : α} :
    x.mapError f = .ok a ↔ x = .ok a := by
  constructor
  · intro h
    cases x with
    | error _ => cases h
    | ok _ =>
        cases h
        rfl
  · rintro rfl
    rfl

theorem mapError_eq_error_iff
    {ε' : Type}
    {f : ε → ε'}
    {x : Except ε α}
    {e' : ε'} :
    x.mapError f = .error e' ↔ ∃ e, x = .error e ∧ f e = e' := by
  constructor
  · intro h
    cases x with
    | error e => exact ⟨e, rfl, Except.error.inj h⟩
    | ok _ => cases h
  · rintro ⟨e, rfl, rfl⟩
    rfl

theorem eq_ok_of_toOption_eq_some
    {x : Except ε α}
    {a : α}
    (h : x.toOption = some a) :
    x = .ok a := by
  cases x with
  | error _ => cases h
  | ok _ =>
      cases h
      rfl

section WithoutResult

/-- A step without its result. -/
def checkOf
    (x : Except ε α) :
    Except ε Unit :=
  x.map fun _ => ()

@[simp] theorem checkOf_eq_ok_iff
    {x : Except ε α} :
    checkOf x = .ok () ↔ ∃ a, x = .ok a := by
  cases x with
  | error _ => simp [checkOf, Except.map]
  | ok _ => simp [checkOf, Except.map]

@[simp] theorem checkOf_eq_error_iff
    {x : Except ε α}
    {e : ε} :
    checkOf x = .error e ↔ x = .error e := by
  cases x with
  | error _ => simp [checkOf, Except.map]
  | ok _ => simp [checkOf, Except.map]

theorem checkOf_pure
    (a : α) :
    checkOf (pure a : Except ε α) = pure () :=
  rfl

theorem checkOf_bind
    (x : Except ε α)
    (f : α → Except ε β) :
    checkOf (x >>= f) = x >>= fun a => checkOf (f a) := by
  cases x with
  | error _ => rfl
  | ok _ => rfl

/-- A step of which the next ones do not use the result may be taken without it. -/
theorem checkOf_bind_const
    (x : Except ε α)
    (y : Except ε β) :
    (checkOf x >>= fun _ => y) = x >>= fun _ => y := by
  cases x with
  | error _ => rfl
  | ok _ => rfl

end WithoutResult

section List

variable {f : β → Except ε Unit} {l : List β}

theorem forM_cons
    (b : β) :
    (b :: l).forM f = f b >>= fun _ => l.forM f :=
  rfl

theorem forM_eq_ok_iff :
    l.forM f = .ok () ↔ ∀ b ∈ l, f b = .ok () := by
  induction l with
  | nil => simp [pure, Except.pure]
  | cons b rest ih =>
      rw [forM_cons, bind_eq_ok_iff, List.forall_mem_cons, ih]
      exact ⟨fun ⟨_, h⟩ => h, fun h => ⟨(), h⟩⟩

/-- Checks that are made one after the other fail with the first that fails. -/
theorem forM_eq_error_iff
    {e : ε} :
    l.forM f = .error e ↔
      ∃ before b after, l = before ++ b :: after ∧ (∀ b' ∈ before, f b' = .ok ()) ∧
        f b = .error e := by
  constructor
  · intro h
    induction l with
    | nil => cases h
    | cons b rest ih =>
        rcases bind_eq_error_iff.mp h with hb | ⟨_, hb, hrest⟩
        · exact ⟨[], b, rest, rfl, by simp, hb⟩
        · obtain ⟨before, b', after, rfl, hbefore, hb'⟩ := ih hrest
          exact ⟨b :: before, b', after, rfl, List.forall_mem_cons.mpr ⟨hb, hbefore⟩, hb'⟩
  · rintro ⟨before, b, after, rfl, hbefore, hb⟩
    induction before with
    | nil => exact bind_eq_error_iff.mpr (Or.inl hb)
    | cons first before ih =>
        obtain ⟨hfirst, hbefore⟩ := List.forall_mem_cons.mp hbefore
        exact bind_eq_error_iff.mpr (Or.inr ⟨(), hfirst, ih hbefore⟩)

end List

end ServingAdmin
