import Mathlib.Tactic.Common

/-!
# Computations with a state that survives failure

A routine of an imperative program that reports an error code keeps whatever it
wrote before it failed. The monad below records exactly this: a failing run still
returns the state it reached. Its postcondition calculus is a weakest precondition
with one condition for normal results and one for failures.
-/

/-- A computation in two parts succeeds when both do. -/
theorem Except.bind_eq_ok {ε α β : Type} {x : Except ε α} {f : α → Except ε β} {b : β} :
    (x >>= f) = .ok b ↔ ∃ a, x = .ok a ∧ f a = .ok b := by
  cases x with
  | ok a => exact ⟨fun h => ⟨a, rfl, h⟩, fun ⟨_, ha, h⟩ => Except.ok.inj ha ▸ h⟩
  | error e =>
    constructor
    · intro h
      cases h
    · rintro ⟨_, h, _⟩
      cases h

/-- Only an error is mapped to an error. -/
theorem Except.map_eq_error {ε α β : Type} {x : Except ε α} {f : α → β} {e : ε}
    (h : x.map f = .error e) : x = .error e := by
  cases x with
  | error e' => exact congrArg Except.error (Except.error.inj h)
  | ok a => cases h

/-- Only a value is mapped to a value. -/
theorem Except.map_eq_ok {ε α β : Type} {x : Except ε α} {f : α → β} {b : β}
    (h : x.map f = .ok b) : ∃ a, x = .ok a := by
  cases x with
  | error e => cases h
  | ok a => exact ⟨a, rfl⟩

/-- A program over a state `σ` that returns a value or an error, and in both cases
the state it reached. -/
def Prog (ε σ α : Type) : Type := σ → Except ε α × σ

namespace Prog

variable {ε σ τ α β : Type}

/-- Run a program and continue with its result. It is irreducible so that unification
compares programs and not their runs. -/
@[irreducible] protected def bind (m : Prog ε σ α) (f : α → Prog ε σ β) : Prog ε σ β := fun s =>
  match m s with
  | (.ok a, s') => f a s'
  | (.error e, s') => (.error e, s')

instance : Monad (Prog ε σ) where
  pure a := fun s => (.ok a, s)
  bind := Prog.bind

/-- Fail with an error and keep the current state. -/
def fail (e : ε) : Prog ε σ α := fun s => (.error e, s)

/-- Read the state. -/
def get : Prog ε σ σ := fun s => (.ok s, s)

/-- Update the state. -/
def modify (f : σ → σ) : Prog ε σ Unit := fun s => (.ok (), f s)

/-- Continue only when a condition holds. -/
def ensure (e : ε) (p : Prop) [Decidable p] : Prog ε σ Unit :=
  if p then pure () else fail e

/-- Take the value of an option, or fail. -/
def ofOption (e : ε) : Option α → Prog ε σ α
  | some a => pure a
  | none => fail e

/-- Take the value of a computation without state, or its error. -/
def ofExcept : Except ε α → Prog ε σ α
  | .ok a => pure a
  | .error e => fail e

/-- Run a program and return how it ended. -/
def attempt (m : Prog ε σ α) : Prog ε σ (Except ε α) := fun s => (.ok (m s).1, (m s).2)

/-- Run a program on a part of the state. -/
def zoom (part : σ → τ) (put : τ → σ → σ) (m : Prog ε τ α) : Prog ε σ α := fun s =>
  ((m (part s)).1, put (m (part s)).2 s)

/-- Run a program on the first part of a pair. -/
def onFst (m : Prog ε σ α) : Prog ε (σ × τ) α := zoom Prod.fst (fun s p => (s, p.2)) m

/-- Run a program on the second part of a pair. -/
def onSnd (m : Prog ε τ α) : Prog ε (σ × τ) α := zoom Prod.snd (fun t p => (p.1, t)) m

@[simp] theorem pure_apply (a : α) (s : σ) : (pure a : Prog ε σ α) s = (.ok a, s) := rfl

@[simp] theorem fail_apply (e : ε) (s : σ) : (fail e : Prog ε σ α) s = (.error e, s) := rfl

@[simp] theorem get_apply (s : σ) : (get : Prog ε σ σ) s = (.ok s, s) := rfl

@[simp] theorem modify_apply (f : σ → σ) (s : σ) :
    (modify f : Prog ε σ Unit) s = (.ok (), f s) := rfl

@[simp] theorem zoom_apply (part : σ → τ) (put : τ → σ → σ) (m : Prog ε τ α) (s : σ) :
    zoom part put m s = ((m (part s)).1, put (m (part s)).2 s) := rfl

/-- A successful part of the state. -/
theorem zoom_of_ok {part : σ → τ} {put : τ → σ → σ} {m : Prog ε τ α} {s : σ} {t : τ} {a : α}
    (h : m (part s) = (.ok a, t)) : zoom part put m s = (.ok a, put t s) := by
  rw [zoom_apply, h]

/-- A failing part of the state. -/
theorem zoom_of_error {part : σ → τ} {put : τ → σ → σ} {m : Prog ε τ α} {s : σ} {t : τ} {e : ε}
    (h : m (part s) = (.error e, t)) : zoom part put m s = (.error e, put t s) := by
  rw [zoom_apply, h]

@[simp] theorem onFst_apply (m : Prog ε σ α) (p : σ × τ) :
    onFst m p = ((m p.1).1, ((m p.1).2, p.2)) := rfl

@[simp] theorem onSnd_apply (m : Prog ε τ α) (p : σ × τ) :
    onSnd m p = ((m p.2).1, (p.1, (m p.2).2)) := rfl

@[simp] theorem ofOption_some (e : ε) (a : α) :
    (ofOption e (some a) : Prog ε σ α) = pure a := rfl

@[simp] theorem ofOption_none (e : ε) : (ofOption e none : Prog ε σ α) = fail e := rfl

@[simp] theorem ofExcept_ok (a : α) : (ofExcept (.ok a) : Prog ε σ α) = pure a := rfl

@[simp] theorem ofExcept_error (e : ε) :
    (ofExcept (.error e : Except ε α) : Prog ε σ α) = fail e := rfl

/-- The run of a sequence. -/
theorem bind_apply (m : Prog ε σ α) (f : α → Prog ε σ β) (s : σ) :
    (m >>= f) s = match m s with
      | (.ok a, s') => f a s'
      | (.error e, s') => (.error e, s') := by
  change Prog.bind m f s = _
  unfold Prog.bind
  rfl

/-- A sequence whose first part succeeds continues with its result. -/
theorem bind_of_ok {m : Prog ε σ α} {f : α → Prog ε σ β} {s s' : σ} {a : α}
    (h : m s = (.ok a, s')) : (m >>= f) s = f a s' := by
  rw [bind_apply, h]

/-- A sequence whose first part fails stops in the state of that failure. -/
theorem bind_of_error {m : Prog ε σ α} {f : α → Prog ε σ β} {s s' : σ} {e : ε}
    (h : m s = (.error e, s')) : (m >>= f) s = (.error e, s') := by
  rw [bind_apply, h]

/-- A successful sequence splits into its two successful parts. -/
theorem bind_eq_ok {m : Prog ε σ α} {f : α → Prog ε σ β} {s s' : σ} {b : β} :
    (m >>= f) s = (.ok b, s') ↔
      ∃ a t, m s = (.ok a, t) ∧ f a t = (.ok b, s') := by
  rcases h : m s with ⟨r, t⟩
  cases r with
  | ok a => simp [bind_of_ok h]
  | error e => simp [bind_of_error h]

/-- Sequences associate. -/
theorem bind_assoc {γ : Type} (m : Prog ε σ α) (f : α → Prog ε σ β) (g : β → Prog ε σ γ) :
    (m >>= f >>= g) = (m >>= fun a => f a >>= g) := by
  funext s
  rcases h : m s with ⟨r, t⟩
  cases r with
  | ok a => rw [bind_apply, bind_of_ok h, bind_of_ok h, ← bind_apply]
  | error e => rw [bind_of_error (bind_of_error h), bind_of_error h]

/-- Nothing more to do changes nothing. -/
theorem bind_pure_unit (m : Prog ε σ Unit) : (m >>= fun _ => pure ()) = m := by
  funext s
  rcases h : m s with ⟨r, t⟩
  cases r with
  | ok a => rw [bind_of_ok h, pure_apply]
  | error e => rw [bind_of_error h]

@[simp] theorem pure_bind (a : α) (f : α → Prog ε σ β) : (pure a >>= f) = f a :=
  funext fun _ => bind_of_ok rfl

@[simp] theorem fail_bind (e : ε) (f : α → Prog ε σ β) :
    ((fail e : Prog ε σ α) >>= f) = fail e :=
  funext fun _ => bind_of_error rfl

@[simp] theorem get_bind (f : σ → Prog ε σ β) (s : σ) :
    ((get : Prog ε σ σ) >>= f) s = f s s :=
  bind_of_ok rfl

@[simp] theorem modify_bind (g : σ → σ) (f : Unit → Prog ε σ β) (s : σ) :
    ((modify g : Prog ε σ Unit) >>= f) s = f () (g s) :=
  bind_of_ok rfl

/-- A successful part on the first component of a pair. -/
theorem onFst_bind_of_ok {m : Prog ε σ α} {f : α → Prog ε (σ × τ) β} {s s' : σ} {t : τ} {a : α}
    (h : m s = (.ok a, s')) : (onFst m >>= f) (s, t) = f a (s', t) :=
  bind_of_ok (by rw [onFst_apply, h])

/-- A run on the first component of a pair that succeeds. -/
theorem onFst_bind_eq_ok {m : Prog ε σ α} {f : α → Prog ε (σ × τ) β} {s : σ} {t : τ} {b : β}
    {p : σ × τ} :
    (onFst m >>= f) (s, t) = (.ok b, p) ↔ ∃ a s', m s = (.ok a, s') ∧ f a (s', t) = (.ok b, p) := by
  rw [bind_eq_ok]
  constructor
  · rintro ⟨a, q, hrun, hrest⟩
    rw [onFst_apply, Prod.mk.injEq] at hrun
    obtain ⟨hok, rfl⟩ := hrun
    exact ⟨a, _, Prod.ext hok rfl, hrest⟩
  · rintro ⟨a, s', hrun, hrest⟩
    exact ⟨a, (s', t), by rw [onFst_apply, hrun], hrest⟩

/-- A run on the second component of a pair that succeeds. -/
theorem onSnd_bind_eq_ok {m : Prog ε τ α} {f : α → Prog ε (σ × τ) β} {p q : σ × τ} {b : β} :
    (onSnd m >>= f) p = (.ok b, q) ↔ ∃ a t, m p.2 = (.ok a, t) ∧ f a (p.1, t) = (.ok b, q) := by
  rw [bind_eq_ok]
  constructor
  · rintro ⟨a, _, hrun, hrest⟩
    rw [onSnd_apply, Prod.mk.injEq] at hrun
    obtain ⟨hok, rfl⟩ := hrun
    exact ⟨a, _, Prod.ext hok rfl, hrest⟩
  · rintro ⟨a, t, hrun, hrest⟩
    exact ⟨a, (p.1, t), by rw [onSnd_apply, hrun], hrest⟩

/-- A successful part on the second component of a pair. -/
theorem onSnd_bind_of_ok {m : Prog ε τ α} {f : α → Prog ε (σ × τ) β} {s : σ} {t t' : τ} {a : α}
    (h : m t = (.ok a, t')) : (onSnd m >>= f) (s, t) = f a (s, t') :=
  bind_of_ok (by rw [onSnd_apply, h])

/-- A failing part on the second component of a pair. -/
theorem onSnd_bind_of_error {m : Prog ε τ α} {f : α → Prog ε (σ × τ) β} {s : σ} {t t' : τ} {e : ε}
    (h : m t = (.error e, t')) : (onSnd m >>= f) (s, t) = (.error e, (s, t')) :=
  bind_of_error (by rw [onSnd_apply, h])

@[simp] theorem onSnd_modify_bind (g : τ → τ) (f : Unit → Prog ε (σ × τ) β) (p : σ × τ) :
    (onSnd (modify g) >>= f) p = f () (p.1, g p.2) :=
  bind_of_ok rfl

/-- An attempt returns how the run ends. -/
theorem attempt_of_eq {m : Prog ε σ α} {s s' : σ} {r : Except ε α} (h : m s = (r, s')) :
    attempt m s = (.ok r, s') := by
  rw [attempt, h]

/-- A sequence continues with the outcome of an attempt. -/
@[simp] theorem attempt_bind (m : Prog ε σ α) (f : Except ε α → Prog ε σ β) (s : σ) :
    (attempt m >>= f) s = f (m s).1 (m s).2 :=
  bind_of_ok rfl

theorem ensure_of_pos {e : ε} {p : Prop} [Decidable p] (h : p) :
    (ensure e p : Prog ε σ Unit) = pure () := if_pos h

theorem ensure_of_neg {e : ε} {p : Prop} [Decidable p] (h : ¬ p) :
    (ensure e p : Prog ε σ Unit) = fail e := if_neg h

/-- A successful sequence behind an optional value. -/
theorem ofOption_bind_eq_ok {e : ε} {o : Option α} {f : α → Prog ε σ β} {s s' : σ} {b : β} :
    (ofOption e o >>= f) s = (.ok b, s') ↔ ∃ a, o = some a ∧ f a s = (.ok b, s') := by
  cases o with
  | none =>
    rw [ofOption_none, fail_bind]
    constructor
    · intro hrun
      cases hrun
    · rintro ⟨_, hsome, _⟩
      cases hsome
  | some a =>
    rw [ofOption_some, pure_bind]
    constructor
    · intro hrun
      exact ⟨a, rfl, hrun⟩
    · rintro ⟨_, ⟨⟩, hrun⟩
      exact hrun

/-- A successful sequence behind a condition. -/
theorem ensure_bind_eq_ok {e : ε} {p : Prop} [Decidable p] {f : Unit → Prog ε σ β} {s s' : σ}
    {b : β} : (ensure e p >>= f) s = (.ok b, s') ↔ p ∧ f () s = (.ok b, s') := by
  by_cases h : p
  · rw [ensure_of_pos h, pure_bind]
    exact (and_iff_right h).symm
  · rw [ensure_of_neg h, fail_bind]
    constructor
    · intro hrun
      cases hrun
    · rintro ⟨hp, _⟩
      exact absurd hp h

/-- The weakest precondition: the run from `s` ends normally in `Q` or fails in `E`. -/
def Post (m : Prog ε σ α) (Q : α → σ → Prop) (E : ε → σ → Prop) (s : σ) : Prop :=
  match m s with
  | (.ok a, s') => Q a s'
  | (.error e, s') => E e s'

section Post

variable {Q Q' : α → σ → Prop} {R : β → σ → Prop} {E E' : ε → σ → Prop} {s : σ}

@[simp] theorem post_pure (a : α) : Post (pure a : Prog ε σ α) Q E s ↔ Q a s := Iff.rfl

@[simp] theorem post_fail (e : ε) : Post (fail e : Prog ε σ α) Q E s ↔ E e s := Iff.rfl

@[simp] theorem post_get {Q : σ → σ → Prop} :
    Post (get : Prog ε σ σ) Q E s ↔ Q s s := Iff.rfl

@[simp] theorem post_modify {Q : Unit → σ → Prop} (f : σ → σ) :
    Post (modify f : Prog ε σ Unit) Q E s ↔ Q () (f s) := Iff.rfl

/-- The rule of sequencing. -/
@[simp] theorem post_attempt (m : Prog ε σ α) {Q : Except ε α → σ → Prop} :
    Post (attempt m) Q E s ↔ Q (m s).1 (m s).2 := Iff.rfl

@[simp] theorem post_bind (m : Prog ε σ α) (f : α → Prog ε σ β) :
    Post (m >>= f) R E s ↔ Post m (fun a s' => Post (f a) R E s') E s := by
  unfold Post
  rcases h : m s with ⟨r, t⟩
  cases r with
  | ok a => simp [bind_of_ok h]
  | error e => simp [bind_of_error h]

@[simp] theorem post_ensure {Q : Unit → σ → Prop} (e : ε) (p : Prop) [Decidable p] :
    Post (ensure e p : Prog ε σ Unit) Q E s ↔ (p → Q () s) ∧ (¬ p → E e s) := by
  by_cases h : p <;> simp [ensure, h]

@[simp] theorem post_ofOption (e : ε) (o : Option α) :
    Post (ofOption e o : Prog ε σ α) Q E s ↔
      (∀ a, o = some a → Q a s) ∧ (o = none → E e s) := by
  cases o <;> simp [ofOption]

@[simp] theorem post_ofExcept (r : Except ε α) :
    Post (ofExcept r : Prog ε σ α) Q E s ↔
      (∀ a, r = .ok a → Q a s) ∧ (∀ e, r = .error e → E e s) := by
  cases r <;> simp [ofExcept]

@[simp] theorem post_zoom (part : σ → τ) (put : τ → σ → σ) (m : Prog ε τ α) :
    Post (zoom part put m) Q E s ↔
      Post m (fun a t => Q a (put t s)) (fun e t => E e (put t s)) (part s) := by
  unfold Post
  rw [zoom_apply]
  rcases m (part s) with ⟨r, t⟩
  cases r <;> rfl

theorem post_ite (p : Prop) [Decidable p] (m n : Prog ε σ α) :
    Post (if p then m else n) Q E s ↔ (p → Post m Q E s) ∧ (¬ p → Post n Q E s) := by
  by_cases h : p <;> simp [h]

/-- The rule of consequence. -/
theorem Post.mono {m : Prog ε σ α} (h : Post m Q E s) (hQ : ∀ a t, Q a t → Q' a t)
    (hE : ∀ e t, E e t → E' e t) : Post m Q' E' s := by
  unfold Post at h ⊢
  rcases hm : m s with ⟨r, t⟩
  rw [hm] at h
  cases r with
  | ok a => exact hQ a t h
  | error e => exact hE e t h

/-- A postcondition of every state holds after every run. -/
theorem Post.of_forall {m : Prog ε σ α} (hQ : ∀ a t, Q a t) (hE : ∀ e t, E e t) :
    Post m Q E s := by
  unfold Post
  split
  · exact hQ _ _
  · exact hE _ _

/-- A postcondition that does not depend on the result holds of the final state. -/
theorem Post.state {m : Prog ε σ α} {P : σ → Prop}
    (h : Post m (fun _ t => P t) (fun _ t => P t) s) : P (m s).2 := by
  unfold Post at h
  split at h <;> rename_i heq <;> rwa [heq]

/-- A property of the final state is a postcondition of both ends. -/
theorem Post.of_state {m : Prog ε σ α} {P : σ → Prop} (h : P (m s).2) :
    Post m (fun _ t => P t) (fun _ t => P t) s := by
  unfold Post
  rcases hm : m s with ⟨r, t⟩
  rw [hm] at h
  cases r with
  | ok a => exact h
  | error e => exact h

/-- A postcondition that holds speaks about every successful run. -/
theorem Post.of_ok {m : Prog ε σ α} (h : Post m Q E s) {a : α} {t : σ}
    (hm : m s = (.ok a, t)) : Q a t := by
  unfold Post at h
  rwa [hm] at h

/-- A postcondition that holds speaks about every failing run. -/
theorem Post.of_error {m : Prog ε σ α} (h : Post m Q E s) {e : ε} {t : σ}
    (hm : m s = (.error e, t)) : E e t := by
  unfold Post at h
  rwa [hm] at h

/-- The postcondition of a known run. -/
theorem post_of_eq {m : Prog ε σ α} {a : α} {t : σ} (h : m s = (.ok a, t)) :
    Post m Q E s ↔ Q a t := by
  unfold Post
  rw [h]

/-- The postcondition of a run that is known to fail. -/
theorem post_of_error {m : Prog ε σ α} {e : ε} {t : σ} (h : m s = (.error e, t)) :
    Post m Q E s ↔ E e t := by
  unfold Post
  rw [h]

/-- A run whose outcome is decided by a condition succeeds exactly under it. -/
theorem Post.ok_iff {m : Prog ε σ Unit} {P : Prop} (h : Post m (fun _ _ => P) (fun _ _ => ¬ P) s) :
    (m s).1 = .ok () ↔ P := by
  rcases hm : m s with ⟨r, t⟩
  cases r with
  | error e => exact iff_of_false (fun hok => by cases hok) (h.of_error hm)
  | ok u => exact iff_of_true rfl (h.of_ok hm)

/-- A run that cannot fail succeeds. -/
theorem Post.exists_ok {m : Prog ε σ α} (h : Post m Q (fun _ _ => False) s) :
    ∃ a t, m s = (.ok a, t) ∧ Q a t := by
  unfold Post at h
  split at h
  · exact ⟨_, _, ‹_›, h⟩
  · exact h.elim

end Post

/-- A condition decides how a run ends: under it the run is refused with an error, and otherwise it
reaches a state with a property. -/
def Decides (e : ε) (A : Prop) (m : Prog ε σ Unit) (Q : σ → Prop) (s : σ) : Prop :=
  Post m (fun _ t => Q t ∧ ¬ A) (fun e' _ => e' = e ∧ A) s

namespace Decides

variable {e : ε} {A B : Prop} {m n : Prog ε σ Unit} {Q R : σ → Prop} {s : σ}

/-- A sequence is refused when one of its parts is. -/
theorem bind (hm : Decides e A m Q s) (hn : ∀ t, Q t → Decides e B n R t) :
    Decides e (A ∨ B) (m >>= fun _ => n) R s := by
  rw [Decides, post_bind]
  refine hm.mono (fun _ t ⟨ht, hA⟩ => ?_) fun e' _ ⟨he, hA⟩ => ⟨he, .inl hA⟩
  exact (hn t ht).mono (fun _ u ⟨hu, hB⟩ => ⟨hu, not_or.mpr ⟨hA, hB⟩⟩)
    fun e' _ ⟨he, hB⟩ => ⟨he, .inr hB⟩

/-- The condition in other words, and a weaker property. -/
theorem imp (hm : Decides e A m Q s) (hAB : A ↔ B) (hQ : ∀ t, Q t → R t) : Decides e B m R s :=
  hm.mono (fun _ t ⟨ht, hA⟩ => ⟨hQ t ht, fun hB => hA (hAB.mpr hB)⟩)
    fun _ _ ⟨he, hA⟩ => ⟨he, hAB.mp hA⟩

/-- A run that is refused. -/
theorem eq_error (hm : Decides e A m Q s) (hA : A) : (m s).1 = .error e := by
  unfold Decides Post at hm
  split at hm
  · exact absurd hA hm.2
  · rename_i heq
    rw [heq, hm.1]

/-- A run that is not refused. -/
theorem exists_ok (hm : Decides e A m Q s) (hA : ¬ A) : ∃ t, m s = (.ok (), t) ∧ Q t := by
  unfold Decides Post at hm
  split at hm
  · exact ⟨_, ‹_›, hm.1⟩
  · exact absurd hm.2 hA

end Decides

/-- No run of a program fails with a certain error. -/
def Never (e : ε) (m : Prog ε σ α) : Prop := ∀ s, (m s).1 ≠ .error e

namespace Never

variable {e e' : ε}

theorem pure (a : α) : Never e (Pure.pure a : Prog ε σ α) := by
  intro s h
  cases h

theorem get : Never e (Prog.get : Prog ε σ σ) := by
  intro s h
  cases h

theorem modify (f : σ → σ) : Never e (Prog.modify f) := by
  intro s h
  cases h

/-- Another error is no matter. -/
theorem fail (hne : e' ≠ e) : Never e (Prog.fail e' : Prog ε σ α) := by
  intro s h
  exact hne (Except.error.inj h)

theorem ensure (hne : e' ≠ e) (p : Prop) [Decidable p] :
    Never e (Prog.ensure e' p : Prog ε σ Unit) := by
  by_cases hp : p
  · rw [ensure_of_pos hp]
    exact pure ()
  · rw [ensure_of_neg hp]
    exact fail hne

theorem ofOption (hne : e' ≠ e) (o : Option α) :
    Never e (Prog.ofOption e' o : Prog ε σ α) := by
  cases o with
  | none => exact fail hne
  | some a => exact pure a

/-- The rule of sequencing. -/
theorem bind {m : Prog ε σ α} {f : α → Prog ε σ β} (hm : Never e m) (hf : ∀ a, Never e (f a)) :
    Never e (m >>= f) := by
  intro s
  rcases hrun : m s with ⟨r, t⟩
  cases r with
  | ok a =>
    rw [bind_of_ok hrun]
    exact hf a t
  | error e' =>
    rw [bind_of_error hrun]
    have hne := hm s
    rw [hrun] at hne
    intro h
    exact hne (congrArg Except.error (Except.error.inj h))

theorem zoom {part : σ → τ} {put : τ → σ → σ} {m : Prog ε τ α} (hm : Never e m) :
    Never e (Prog.zoom part put m) := fun s => hm (part s)

theorem ite {p : Prop} [Decidable p] {m n : Prog ε σ α} (hm : Never e m) (hn : Never e n) :
    Never e (if p then m else n) := by
  split_ifs
  · exact hm
  · exact hn

end Never

end Prog
