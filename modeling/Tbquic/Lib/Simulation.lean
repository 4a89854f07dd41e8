import Tbquic.Lib.Fallible

/-!
# Simulation of partial functions by programs

A program follows a partial function when it succeeds exactly where the function has a
value, in a state that is related to it. Following is preserved by sequencing, so a long
program is compared with its abstract account part by part.
-/

namespace Prog

variable {ε σ τ α α' β β' : Type}

/-- The program succeeds with a related result and state when the option has a value, and fails
when it has none. -/
def Follows (m : Prog ε σ α) (o : Option β) (R : β → α → σ → Prop) (s : σ) : Prop :=
  match o with
  | some b => ∃ a t, m s = (.ok a, t) ∧ R b a t
  | none => ∃ e t, m s = (.error e, t)

variable {m : Prog ε σ α} {o : Option β} {R R' : β → α → σ → Prop} {s : σ}

/-- A successful run follows its account. -/
theorem Follows.of_ok {a : α} {b : β} {t : σ} (h : m s = (.ok a, t)) (hR : R b a t) :
    Follows m (some b) R s :=
  ⟨a, t, h, hR⟩

/-- A failing run follows an account without value. -/
theorem Follows.of_error {e : ε} {t : σ} (h : m s = (.error e, t)) : Follows m none R s :=
  ⟨e, t, h⟩

/-- The rule of sequencing. -/
theorem Follows.bind {f : α → Prog ε σ α'} {g : β → Option β'} {S : β' → α' → σ → Prop}
    (hm : Follows m o R s) (hf : ∀ b a t, o = some b → R b a t → Follows (f a) (g b) S t) :
    Follows (m >>= f) (o.bind g) S s := by
  cases o with
  | none =>
    obtain ⟨e, t, h⟩ := hm
    exact .of_error (bind_of_error h)
  | some b =>
    obtain ⟨a, t, h, hR⟩ := hm
    have hf := hf b a t rfl hR
    unfold Follows at hf ⊢
    rwa [bind_of_ok h]

/-- The rule of consequence. -/
theorem Follows.mono (hm : Follows m o R s) (hR : ∀ b a t, o = some b → R b a t → R' b a t) :
    Follows m o R' s := by
  cases o with
  | none => exact hm
  | some b =>
    obtain ⟨a, t, h, h'⟩ := hm
    exact .of_ok h (hR b a t rfl h')

/-- The account can be replaced by an image of its value. -/
theorem Follows.map {f : β → β'} {S : β' → α → σ → Prop} (hm : Follows m o R s)
    (hR : ∀ b a t, R b a t → S (f b) a t) : Follows m (o.map f) S s := by
  cases o with
  | none => exact hm
  | some b =>
    obtain ⟨a, t, h, h'⟩ := hm
    exact .of_ok h (hR b a t h')

/-- A program on a part of the state. -/
theorem Follows.zoom {part : τ → σ} {put : σ → τ → τ} {t : τ}
    (hm : Follows m o R (part t)) :
    Follows (zoom part put m) o (fun b a u => ∃ s, R b a s ∧ u = put s t) t := by
  cases o with
  | none =>
    obtain ⟨e, s, h⟩ := hm
    exact .of_error (by rw [zoom_apply, h])
  | some b =>
    obtain ⟨a, s, h, hR⟩ := hm
    exact .of_ok (by rw [zoom_apply, h]) ⟨s, hR, rfl⟩

/-- A program with an account succeeds. -/
theorem Follows.exists_ok {b : β} (hm : Follows m o R s) (ho : o = some b) :
    ∃ a t, m s = (.ok a, t) ∧ R b a t := by
  subst ho
  exact hm

/-- The second program does on the image of a state what the first one does on the state. -/
def Image {σ' : Type} (g : σ → σ') (m : Prog ε σ α) (m' : Prog ε σ' α) : Prop :=
  ∀ s, m' (g s) = ((m s).1, g (m s).2)

section Image

variable {σ' : Type} {g : σ → σ'} {m' : Prog ε σ' α}

theorem image_pure (a : α) : Image g (pure a : Prog ε σ α) (pure a) := fun _ => rfl

theorem image_fail (e : ε) : Image g (fail e : Prog ε σ α) (fail e) := fun _ => rfl

theorem image_ensure (e : ε) (p : Prop) [Decidable p] :
    Image g (ensure e p : Prog ε σ Unit) (ensure e p) := by
  intro s
  unfold ensure
  split <;> rfl

theorem image_ofExcept (x : Except ε α) :
    Image g (ofExcept x : Prog ε σ α) (ofExcept x) := by
  intro s
  cases x <;> rfl

/-- An update that fits the map. -/
theorem image_modify {f : σ → σ} {f' : σ' → σ'} (h : ∀ s, f' (g s) = g (f s)) :
    Image g (modify f : Prog ε σ Unit) (modify f') := by
  intro s
  rw [modify_apply, modify_apply, h]

/-- The rule of sequencing. -/
theorem Image.bind {f : α → Prog ε σ β} {f' : α → Prog ε σ' β} (hm : Image g m m')
    (hf : ∀ a, Image g (f a) (f' a)) : Image g (m >>= f) (m' >>= f') := by
  intro s
  rcases h : m s with ⟨r, t⟩
  have h' := hm s
  rw [h] at h'
  cases r with
  | error e => rw [bind_of_error h, bind_of_error h']
  | ok a =>
    rw [bind_of_ok h, bind_of_ok h']
    exact hf a t

/-- Programs that read the state. -/
theorem Image.get_bind {f : σ → Prog ε σ α} {f' : σ' → Prog ε σ' α}
    (hf : ∀ s, Image g (f s) (f' (g s))) : Image g (get >>= f) (get >>= f') := by
  intro s
  rw [Prog.get_bind, Prog.get_bind]
  exact hf s s

/-- A program whose outcome is observed. -/
theorem Image.attempt (hm : Image g m m') : Image g (attempt m) (attempt m') := by
  intro s
  have h := hm s
  unfold Prog.attempt
  rw [h]

/-- Programs on a part of the state that the map acts on. -/
theorem Image.zoom {τ' : Type} {gPart : τ → τ'} {p : Prog ε τ α} {p' : Prog ε τ' α}
    {part : σ → τ} {put : τ → σ → σ} {part' : σ' → τ'} {put' : τ' → σ' → σ'}
    (hp : Image gPart p p') (hpart : ∀ s, part' (g s) = gPart (part s))
    (hput : ∀ t s, put' (gPart t) (g s) = g (put t s)) :
    Image g (zoom part put p) (zoom part' put' p') := by
  intro s
  rw [zoom_apply, zoom_apply, hpart, hp]
  exact Prod.ext rfl (hput _ _)

/-- A program on a part of the state that the map leaves alone. -/
theorem image_zoom {p : Prog ε τ α} {part : σ → τ} {put : τ → σ → σ} {part' : σ' → τ}
    {put' : τ → σ' → σ'} (hpart : ∀ s, part' (g s) = part s)
    (hput : ∀ t s, put' t (g s) = g (put t s)) :
    Image g (Prog.zoom part put p) (Prog.zoom part' put' p) :=
  Image.zoom (show Image id p p from fun _ => rfl) hpart hput

end Image

/-- Every run of the program, also one that fails, relates the states before and after it. -/
def Keeps (R : σ → σ → Prop) (m : Prog ε σ α) : Prop := ∀ s, R s (m s).2

section Keeps

variable {R : σ → σ → Prop} {f : α → Prog ε σ β}

theorem keeps_pure (hrefl : ∀ s, R s s) (a : α) : Keeps R (pure a : Prog ε σ α) := hrefl

theorem keeps_fail (hrefl : ∀ s, R s s) (e : ε) : Keeps R (fail e : Prog ε σ α) := hrefl

theorem keeps_ensure (hrefl : ∀ s, R s s) (e : ε) (p : Prop) [Decidable p] :
    Keeps R (ensure e p : Prog ε σ Unit) := by
  intro s
  unfold ensure
  split
  · exact hrefl s
  · exact hrefl s

theorem keeps_ofExcept (hrefl : ∀ s, R s s) (x : Except ε α) :
    Keeps R (ofExcept x : Prog ε σ α) := by
  intro s
  cases x <;> exact hrefl s

theorem keeps_modify {g : σ → σ} (h : ∀ s, R s (g s)) : Keeps R (modify g : Prog ε σ Unit) := h

/-- The rule of sequencing. -/
theorem Keeps.bind (htrans : ∀ {s t u}, R s t → R t u → R s u) (hm : Keeps R m)
    (hf : ∀ a, Keeps R (f a)) : Keeps R (m >>= f) := by
  intro s
  have hstep := hm s
  rcases h : m s with ⟨r, t⟩
  rw [h] at hstep
  cases r with
  | error e => rwa [bind_of_error h]
  | ok a =>
    rw [bind_of_ok h]
    exact htrans hstep (hf a t)

/-- A program that reads the state. -/
theorem keeps_get_bind {f : σ → Prog ε σ α} (h : ∀ s, R s (f s s).2) : Keeps R (get >>= f) := by
  intro s
  rw [Prog.get_bind]
  exact h s

/-- A program whose outcome is observed. -/
theorem Keeps.attempt (hm : Keeps R m) : Keeps R (attempt m) := hm

/-- A program on a part of the state. -/
theorem keeps_zoom {p : Prog ε τ α} {part : σ → τ} {put : τ → σ → σ}
    (h : ∀ s, R s (put (p (part s)).2 s)) : Keeps R (zoom part put p) := h

end Keeps

end Prog
