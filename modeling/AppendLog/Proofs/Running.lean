/-! Outcomes of operations that may fail and leave a state either way.

Decoders, storage access and operations on logs all run in the same way: the second of
two operations runs in the state that the first one left, unless the first one failed.
-/

set_option autoImplicit false

namespace AppendLog

variable {ε ε' σ α β : Type} {operation : EStateM ε σ α} {next : α → EStateM ε σ β}

def outcome : EStateM.Result ε σ α → Except ε α
  | .ok value _ => .ok value
  | .error error _ => .error error

def afterwards : EStateM.Result ε σ α → σ
  | .ok _ state | .error _ state => state

/-! The operations that others are made of -/

section Steps

variable (state : σ)

@[simp] theorem run_pure (value : α) : (pure value : EStateM ε σ α) state = .ok value state := rfl

@[simp] theorem run_throw (error : ε) : (throw error : EStateM ε σ α) state = .error error state := rfl

@[simp] theorem run_get : (get : EStateM ε σ σ) state = .ok state state := rfl

@[simp] theorem run_set (other : σ) : (set other : EStateM ε σ PUnit) state = .ok ⟨⟩ other := rfl

@[simp] theorem run_modify (change : σ → σ) :
    (modify change : EStateM ε σ PUnit) state = .ok ⟨⟩ (change state) := rfl

end Steps

theorem bind_of_ok {start middle : σ} {value : α} (ran : operation start = .ok value middle) :
    (operation >>= next) start = next value middle := by
  simp only [bind, EStateM.bind, ran]

theorem bind_of_error {start stop : σ} {error : ε} (failed : operation start = .error error stop) :
    (operation >>= next) start = .error error stop := by
  simp only [bind, EStateM.bind, failed]

theorem bind_eq_ok {start stop : σ} {result : β} :
    (operation >>= next) start = .ok result stop ↔
      ∃ value middle, operation start = .ok value middle ∧ next value middle = .ok result stop := by
  cases ran : operation start with
  | ok value middle =>
    rw [bind_of_ok ran]
    constructor
    · intro after
      exact ⟨value, middle, rfl, after⟩
    · rintro ⟨_, _, same, after⟩
      cases same
      exact after
  | error error middle =>
    rw [bind_of_error ran]
    constructor
    · intro impossible
      cases impossible
    · rintro ⟨_, _, impossible, _⟩
      cases impossible

theorem bind_eq_error {start stop : σ} {error : ε} :
    (operation >>= next) start = .error error stop ↔ operation start = .error error stop ∨
      ∃ value middle, operation start = .ok value middle ∧ next value middle = .error error stop := by
  cases ran : operation start with
  | ok value middle =>
    rw [bind_of_ok ran]
    constructor
    · intro after
      exact .inr ⟨value, middle, rfl, after⟩
    · rintro (impossible | ⟨_, _, same, after⟩)
      · cases impossible
      · cases same
        exact after
  | error error middle =>
    rw [bind_of_error ran]
    constructor
    · intro same
      cases same
      exact .inl rfl
    · rintro (same | ⟨_, _, impossible, _⟩)
      · cases same
        rfl
      · cases impossible

theorem map_eq_ok {convert : α → β} {start stop : σ} {result : β} :
    (do return convert (← operation) : EStateM ε σ β) start = .ok result stop ↔
      ∃ value, operation start = .ok value stop ∧ convert value = result := by
  rw [bind_eq_ok]
  constructor
  · rintro ⟨value, middle, ran, returned⟩
    cases returned
    exact ⟨value, ran, rfl⟩
  · rintro ⟨value, ran, rfl⟩
    exact ⟨value, stop, ran, rfl⟩

theorem adaptExcept_of_ok {rename : ε → ε'} {start stop : σ} {value : α}
    (ran : operation start = .ok value stop) :
    EStateM.adaptExcept rename operation start = .ok value stop := by
  simp only [EStateM.adaptExcept, ran]

theorem adaptExcept_of_error {rename : ε → ε'} {start stop : σ} {error : ε}
    (failed : operation start = .error error stop) :
    EStateM.adaptExcept rename operation start = .error (rename error) stop := by
  simp only [EStateM.adaptExcept, failed]

theorem adaptExcept_eq_ok {rename : ε → ε'} {start stop : σ} {value : α} :
    EStateM.adaptExcept rename operation start = .ok value stop ↔ operation start = .ok value stop := by
  cases ran : operation start with
  | ok value middle => rw [adaptExcept_of_ok ran]; simp
  | error error middle => rw [adaptExcept_of_error ran]; simp

/-! What an operation leaves of a state -/

/-- Whatever it comes to, the operation leaves a state that is related to the one it was given. -/
def Leaves (related : σ → σ → Prop) (operation : EStateM ε σ α) : Prop :=
  ∀ state, related state (afterwards (operation state))

section Leaves

variable {related : σ → σ → Prop}

theorem leaves_pure (refl : ∀ state, related state state) (value : α) :
    Leaves related (pure value : EStateM ε σ α) := refl

theorem leaves_throw (refl : ∀ state, related state state) (error : ε) :
    Leaves related (throw error : EStateM ε σ α) := refl

theorem Leaves.bind (trans : ∀ {one two three}, related one two → related two three → related one three)
    (first : Leaves related operation) (second : ∀ value, Leaves related (next value)) :
    Leaves related (operation >>= next) := by
  intro state
  have left := first state
  cases ran : operation state with
  | ok value middle =>
    rw [ran, afterwards] at left
    rw [bind_of_ok ran]
    exact trans left (second value middle)
  | error error middle =>
    rw [ran, afterwards] at left
    rw [bind_of_error ran]
    exact left

theorem Leaves.adaptExcept (leaves : Leaves related operation) (rename : ε → ε') :
    Leaves related (EStateM.adaptExcept rename operation) := by
  intro state
  have left := leaves state
  simp only [EStateM.adaptExcept]
  cases ran : operation state with
  | ok value middle =>
    rw [ran] at left
    exact left
  | error error middle =>
    rw [ran] at left
    exact left

end Leaves

end AppendLog
