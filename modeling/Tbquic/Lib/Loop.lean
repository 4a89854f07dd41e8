import Tbquic.Lib.Fallible

/-!
# Loops of computations

A loop repeats a step until a condition holds. Its runs are studied through the states that it is
in before a step. A bound on the number of steps takes the place of a proof that the loop ends, and
a measure shows that the bound is not reached.
-/

namespace Prog

variable {ε σ : Type}

/-- Repeat a step until a condition holds. When the bound is reached, the loop fails. -/
def repeatUntil (bound : ε) (done : σ → Bool) (step : Prog ε σ Unit) : ℕ → Prog ε σ Unit
  | 0 => fail bound
  | n + 1 => do
    let s ← get
    if done s = true then pure ()
    else do
      step
      repeatUntil bound done step n

/-- A loop that starts in one state is in another one before a step. -/
inductive Visits (done : σ → Bool) (step : Prog ε σ Unit) : σ → σ → Prop
  | start {s : σ} : done s = false → Visits done step s s
  | step {s t u : σ} : done s = false → step s = (.ok (), t) → Visits done step t u →
      Visits done step s u

section Loop

variable {bound : ε} {done : σ → Bool} {step : Prog ε σ Unit} {start : σ}

/-- The loop ends when its condition holds. -/
theorem repeatUntil_of_done {s : σ} (h : done s = true) (n : ℕ) :
    repeatUntil bound done step (n + 1) s = (.ok (), s) := by
  rw [repeatUntil, get_bind, if_pos h]
  rfl

/-- The loop goes on with a step. -/
theorem repeatUntil_of_not_done {s : σ} (h : done s = false) (n : ℕ) :
    repeatUntil bound done step (n + 1) s =
      (step >>= fun _ => repeatUntil bound done step n) s := by
  rw [repeatUntil, get_bind, if_neg (Bool.eq_false_iff.mp h)]

/-- What holds at the start and is kept by every step from a visited state holds in all visited
states. -/
theorem Visits.invariant {P : σ → Prop} {s : σ} (h : Visits done step start s)
    (hstep : ∀ s t, Visits done step start s → P s → step s = (.ok (), t) → P t)
    (hstart : P start) : P s := by
  induction h with
  | start => exact hstart
  | step hdone hrun _ ih =>
    refine ih (fun s t hs => hstep s t (hs.step hdone hrun)) ?_
    exact hstep _ _ (Visits.start hdone) hstart hrun

/-- A loop that is done after one step visits its start only. -/
theorem Visits.eq_start {s : σ} (h : Visits done step start s)
    (hdone : ∀ t, step start = (.ok (), t) → done t = true) : s = start := by
  cases h with
  | start => rfl
  | step _ hrun hvisits =>
    have hend := hdone _ hrun
    cases hvisits with
    | start hgoes => rw [hend] at hgoes; cases hgoes
    | step hgoes => rw [hend] at hgoes; cases hgoes

/-- A loop whose visited states decrease a measure ends before the bound. -/
theorem repeatUntil_ne_bound (measure : σ → ℕ)
    (hmeasure : ∀ s t, Visits done step start s → step s = (.ok (), t) → measure t < measure s)
    (hbound : ∀ s, Visits done step start s → (step s).1 ≠ .error bound) {n : ℕ}
    (hn : measure start < n) : (repeatUntil bound done step n start).1 ≠ .error bound := by
  induction n generalizing start with
  | zero => exact absurd hn (Nat.not_lt_zero _)
  | succ n ih =>
    cases hdone : done start with
    | true =>
      rw [repeatUntil_of_done hdone]
      intro h
      cases h
    | false =>
      have hvisits : Visits done step start start := Visits.start hdone
      rw [repeatUntil_of_not_done hdone]
      rcases hrun : step start with ⟨r, t⟩
      cases r with
      | error e =>
        rw [bind_of_error hrun]
        have hne := hbound start hvisits
        rw [hrun] at hne
        exact hne
      | ok u =>
        rw [bind_of_ok hrun]
        have hless := hmeasure start t hvisits hrun
        refine ih (fun s u hs => hmeasure s u (hs.step hdone hrun)) (fun s hs => ?_) (by omega)
        exact hbound s (hs.step hdone hrun)

/-- A loop whose condition never holds does not end. -/
theorem repeatUntil_ne_ok (hdone : ∀ s, done s = false) (n : ℕ) :
    (repeatUntil bound done step n start).1 ≠ .ok () := by
  induction n generalizing start with
  | zero => exact fun h => (by cases h)
  | succ n ih =>
    rw [repeatUntil_of_not_done (hdone start)]
    rcases hrun : step start with ⟨r, t⟩
    cases r with
    | error e =>
      rw [bind_of_error hrun]
      exact fun h => (by cases h)
    | ok u =>
      rw [bind_of_ok hrun]
      exact ih

/-- A loop ends behind a number of steps when each of them leads from one stage to the next. -/
theorem repeatUntil_of_stages {P : ℕ → σ → Prop} {last : ℕ}
    (hstep : ∀ k s, k < last → P k s → done s = false ∧ ∃ t, step s = (.ok (), t) ∧ P (k + 1) t)
    (hlast : ∀ s, P last s → done s = true) {k : ℕ} (hk : k ≤ last) {s : σ} (hs : P k s) :
    ∃ t, P last t ∧ ∀ n, last - k < n → repeatUntil bound done step n s = (.ok (), t) := by
  induction hleft : last - k generalizing k s with
  | zero =>
    obtain rfl : k = last := by omega
    refine ⟨s, hs, fun n hn => ?_⟩
    obtain ⟨n, rfl⟩ := Nat.exists_eq_succ_of_ne_zero (Nat.ne_of_gt hn)
    exact repeatUntil_of_done (hlast s hs) n
  | succ left ih =>
    have hlt : k < last := by omega
    obtain ⟨hdone, t, hrun, ht⟩ := hstep k s hlt hs
    obtain ⟨u, hu, hrest⟩ := ih hlt ht (by omega)
    refine ⟨u, hu, fun n hn => ?_⟩
    obtain ⟨n, rfl⟩ := Nat.exists_eq_succ_of_ne_zero (Nat.ne_zero_of_lt hn)
    rw [repeatUntil_of_not_done hdone, bind_of_ok hrun]
    exact hrest n (by omega)

end Loop

/-- Move a position forward round by round, as long as a condition on it holds. When the bound is
reached, the loop fails. -/
def advance (bound : ε) (goes : ℕ → Bool) (round : ℕ → Prog ε σ ℕ) : ℕ → ℕ → Prog ε σ Unit
  | 0, _ => fail bound
  | n + 1, p =>
    if goes p = true then do
      let p ← round p
      advance bound goes round n p
    else pure ()

/-- A loop that starts at one position and in one state comes to others. -/
inductive Arrives (goes : ℕ → Bool) (round : ℕ → Prog ε σ ℕ) : ℕ → σ → ℕ → σ → Prop
  | start {p : ℕ} {s : σ} : Arrives goes round p s p s
  | round {p q r : ℕ} {s t u : σ} : goes p = true → round p s = (.ok q, t) →
      Arrives goes round q t r u → Arrives goes round p s r u

section Advance

variable {bound : ε} {goes : ℕ → Bool} {round : ℕ → Prog ε σ ℕ} {p q : ℕ} {s t : σ}

/-- What holds at the start and is kept by every round of the run holds wherever the loop comes. -/
theorem Arrives.invariant {P : ℕ → σ → Prop} (h : Arrives goes round p s q t)
    (hround : ∀ q r t u, Arrives goes round p s q t → P q t → goes q = true →
      round q t = (.ok r, u) → P r u)
    (hstart : P p s) : P q t := by
  induction h with
  | start => exact hstart
  | round hgoes hrun _ ih =>
    refine ih (fun q r t u hq => hround q r t u (.round hgoes hrun hq)) ?_
    exact hround _ _ _ _ .start hstart hgoes hrun

/-- A loop whose condition fails stays where it is. -/
theorem Arrives.eq_of_stop (h : Arrives goes round p s q t) (hstop : goes p = false) : q = p := by
  cases h with
  | start => rfl
  | round hgoes => rw [hstop] at hgoes; cases hgoes

/-- A loop whose rounds all go forward comes to its end. -/
theorem advance_of_progress {stop : ℕ} (hstop : goes stop = false) (hp : p ≤ stop)
    (hround : ∀ q t, Arrives goes round p s q t → q < stop →
      goes q = true ∧ ∃ r u, round q t = (.ok r, u) ∧ q < r ∧ r ≤ stop) :
    ∃ t, Arrives goes round p s stop t ∧
      ∀ n, stop - p < n → advance bound goes round n p s = (.ok (), t) := by
  induction hleft : stop - p using Nat.strongRecOn generalizing p s with
  | ind left ih =>
    rcases Nat.lt_or_eq_of_le hp with hlt | rfl
    · obtain ⟨hgoes, q, t, hrun, hless, hle⟩ := hround p s .start hlt
      obtain ⟨u, harrives, hrest⟩ := ih (stop - q) (by omega) hle
        (fun r u hr => hround r u (.round hgoes hrun hr)) rfl
      refine ⟨u, .round hgoes hrun harrives, fun n hn => ?_⟩
      obtain ⟨n, rfl⟩ := Nat.exists_eq_succ_of_ne_zero (Nat.ne_zero_of_lt hn)
      rw [advance, if_pos hgoes, bind_of_ok hrun]
      exact hrest n (by omega)
    · refine ⟨s, .start, fun n hn => ?_⟩
      obtain ⟨n, rfl⟩ := Nat.exists_eq_succ_of_ne_zero (Nat.ne_zero_of_lt hn)
      rw [advance, if_neg (Bool.eq_false_iff.mp hstop)]
      rfl

end Advance

end Prog
