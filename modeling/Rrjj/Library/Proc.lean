import Mathlib.Tactic

/-! Programs over a state that may return, fail, or be cut off while they wait for
their environment, with the rules used to prove what they do to the state. -/

namespace Library

inductive Outcome (ε α : Type) where
  | ok (value : α)
  | error (failure : ε)
  | cut
  deriving DecidableEq

structure Proc (σ ε α : Type) where
  run : σ → Outcome ε α × σ

namespace Proc
variable {σ ε α β : Type}

def bind (m : Proc σ ε α) (f : α → Proc σ ε β) : Proc σ ε β where
  run s :=
    match m.run s with
    | (.ok a, t) => (f a).run t
    | (.error e, t) => (.error e, t)
    | (.cut, t) => (.cut, t)

instance : Monad (Proc σ ε) where
  pure a := ⟨fun s => (.ok a, s)⟩
  bind := bind

def get : Proc σ ε σ := ⟨fun s => (.ok s, s)⟩
def modify (f : σ → σ) : Proc σ ε Unit := ⟨fun s => (.ok (), f s)⟩
def throw (e : ε) : Proc σ ε α := ⟨fun s => (.error e, s)⟩
def cut : Proc σ ε α := ⟨fun s => (.cut, s)⟩

def ofExcept : Except ε α → Proc σ ε α
  | .ok a => pure a
  | .error e => throw e

def attempt (m : Proc σ ε α) : Proc σ ε (Except ε α) where
  run s :=
    match m.run s with
    | (.ok a, t) => (.ok (.ok a), t)
    | (.error e, t) => (.ok (.error e), t)
    | (.cut, t) => (.cut, t)

def catching {ε' : Type} (m : Proc σ ε α) : Proc σ ε' (Except ε α) where
  run s :=
    match m.run s with
    | (.ok a, t) => (.ok (.ok a), t)
    | (.error e, t) => (.ok (.error e), t)
    | (.cut, t) => (.cut, t)

@[simp] theorem run_pure (a : α) (s : σ) : (pure a : Proc σ ε α).run s = (.ok a, s) := rfl

@[simp] theorem run_get (s : σ) : (get : Proc σ ε σ).run s = (.ok s, s) := rfl

@[simp] theorem run_modify (f : σ → σ) (s : σ) :
    (modify f : Proc σ ε Unit).run s = (.ok (), f s) := rfl

@[simp] theorem run_throw (e : ε) (s : σ) : (throw e : Proc σ ε α).run s = (.error e, s) := rfl

@[simp] theorem run_cut (s : σ) : (cut : Proc σ ε α).run s = (.cut, s) := rfl

@[simp] theorem run_ofExcept_ok (a : α) (s : σ) :
    (Proc.ofExcept (.ok a) : Proc σ ε α).run s = (.ok a, s) := rfl

@[simp] theorem run_ofExcept_error (e : ε) (s : σ) :
    (Proc.ofExcept (.error e) : Proc σ ε α).run s = (.error e, s) := rfl

theorem run_bind (m : Proc σ ε α) (f : α → Proc σ ε β) (s : σ) :
    (m >>= f).run s = match m.run s with
      | (.ok a, t) => (f a).run t
      | (.error e, t) => (.error e, t)
      | (.cut, t) => (.cut, t) := rfl

theorem ext_run {m m' : Proc σ ε α} (h : ∀ s, m.run s = m'.run s) : m = m' := by
  cases m
  cases m'
  congr 1
  exact funext h

instance : LawfulMonad (Proc σ ε) := by
  refine LawfulMonad.mk' _ ?_ ?_ ?_
  · intro α m
    refine ext_run fun s => ?_
    change (m >>= fun a => pure (id a)).run s = m.run s
    rw [run_bind]
    rcases m.run s with ⟨_ | _ | _, t⟩ <;> rfl
  · intro α β a f
    rfl
  · intro α β γ m f g
    refine ext_run fun s => ?_
    simp only [run_bind]
    rcases m.run s with ⟨_ | _ | _, t⟩ <;> rfl

theorem run_ofExcept_ok_bind (a : α) (f : α → Proc σ ε β) (s : σ) :
    (Proc.ofExcept (.ok a) >>= f).run s = (f a).run s := rfl

theorem run_get_bind (f : σ → Proc σ ε β) (s : σ) : (get >>= f).run s = (f s).run s := rfl

theorem run_modify_bind (g : σ → σ) (f : Unit → Proc σ ε β) (s : σ) :
    (modify g >>= f).run s = (f ()).run (g s) := rfl

theorem ofExcept_pure (a : α) : (Proc.ofExcept (pure a) : Proc σ ε α) = pure a := rfl

theorem ofExcept_bind (x : Except ε α) (f : α → Except ε β) :
    (Proc.ofExcept (x >>= f) : Proc σ ε β) = Proc.ofExcept x >>= fun a => Proc.ofExcept (f a) := by
  cases x <;> rfl

def Ends (Q : α → σ → Prop) (R : σ → Prop) : Outcome ε α × σ → Prop
  | (.ok a, t) => Q a t
  | (.error _, t) => R t
  | (.cut, t) => R t

theorem Ends.mono {Q Q' : α → σ → Prop} {R R' : σ → Prop} {r : Outcome ε α × σ}
    (h : Ends Q R r) (hQ : ∀ a s, Q a s → Q' a s) (hR : ∀ s, R s → R' s) : Ends Q' R' r := by
  rcases r with ⟨a | e | _, t⟩
  · exact hQ a t h
  · exact hR t h
  · exact hR t h

theorem Ends.final {I : σ → Prop} {r : Outcome ε α × σ} (h : Ends (fun _ => I) I r) : I r.2 := by
  rcases r with ⟨a | e | _, t⟩ <;> exact h

theorem Ends.outcome {Q : α → σ → Prop} {R : σ → Prop} {r : Outcome ε α × σ} (h : Ends Q R r) :
    (∃ a, r.1 = .ok a ∧ Q a r.2) ∨ (∀ a, r.1 ≠ .ok a) ∧ R r.2 := by
  rcases r with ⟨a | e | _, t⟩
  · exact Or.inl ⟨a, rfl, h⟩
  · exact Or.inr ⟨fun _ => nofun, h⟩
  · exact Or.inr ⟨fun _ => nofun, h⟩

def Triple (P : σ → Prop) (m : Proc σ ε α) (Q : α → σ → Prop) (R : σ → Prop) : Prop :=
  ∀ s, P s → Ends Q R (m.run s)

variable {P P' : σ → Prop} {Q Q' : α → σ → Prop} {R R' : σ → Prop} {m : Proc σ ε α}

theorem Triple.conseq (h : Triple P' m Q' R') (hP : ∀ s, P s → P' s)
    (hQ : ∀ a s, Q' a s → Q a s) (hR : ∀ s, R' s → R s) : Triple P m Q R :=
  fun s hs => (h s (hP s hs)).mono hQ hR

theorem Triple.pre (h : Triple P' m Q R) (hP : ∀ s, P s → P' s) : Triple P m Q R :=
  fun s hs => h s (hP s hs)

theorem Triple.post (h : Triple P m Q' R) (hQ : ∀ a s, Q' a s → Q a s) : Triple P m Q R :=
  fun s hs => (h s hs).mono hQ fun _ hr => hr

theorem Triple.and (h : Triple P m Q R) (h' : Triple P m Q' R') :
    Triple P m (fun a s => Q a s ∧ Q' a s) (fun s => R s ∧ R' s) := by
  intro s hs
  have hm := h s hs
  have hm' := h' s hs
  rcases hr : m.run s with ⟨a | e | _, t⟩ <;> rw [hr] at hm hm' <;> exact ⟨hm, hm'⟩

theorem Triple.pure {a : α} (h : ∀ s, P s → Q a s) :
    Triple P (Pure.pure a : Proc σ ε α) Q R := h

theorem Triple.bind {f : α → Proc σ ε β} {Q' : β → σ → Prop} (hm : Triple P m Q R)
    (hf : ∀ a, Triple (Q a) (f a) Q' R) : Triple P (m >>= f) Q' R := by
  intro s hs
  have h := hm s hs
  rw [run_bind]
  rcases hr : m.run s with ⟨a | e | _, t⟩ <;> rw [hr] at h
  · exact hf a t h
  · exact h
  · exact h

theorem Triple.map {f : α → β} {Q : β → σ → Prop} (hm : Triple P m (fun a => Q (f a)) R) :
    Triple P (f <$> m) Q R := hm.bind fun _ => Triple.pure fun _ h => h

theorem Triple.get {f : σ → Proc σ ε α}
    (h : ∀ u, P u → Triple (fun s => s = u) (f u) Q R) : Triple P (Proc.get >>= f) Q R :=
  fun s hs => h s hs s rfl

theorem Triple.modify {g : σ → σ} {Q : Unit → σ → Prop} (h : ∀ s, P s → Q () (g s)) :
    Triple (ε := ε) P (Proc.modify g) Q R := h

theorem Triple.throw {e : ε} (h : ∀ s, P s → R s) : Triple P (Proc.throw e : Proc σ ε α) Q R := h

theorem Triple.cut (h : ∀ s, P s → R s) : Triple P (Proc.cut : Proc σ ε α) Q R := h

theorem Triple.ofExcept {r : Except ε α} (h : ∀ a, r = .ok a → ∀ s, P s → Q a s)
    (hR : ∀ e, r = .error e → ∀ s, P s → R s) : Triple P (Proc.ofExcept r) Q R := by
  cases r with
  | ok a => exact Triple.pure (h a rfl)
  | error e => exact Triple.throw (hR e rfl)

theorem Triple.of_start (h : ∀ u, P u → Triple (fun s => s = u) m Q R) : Triple P m Q R :=
  fun s hs => h s hs s rfl

theorem Triple.trivial {P : σ → Prop} {m : Proc σ ε α} :
    Triple P m (fun _ _ => True) (fun _ => True) := by
  intro s _
  rcases m.run s with ⟨_ | _ | _, t⟩ <;> exact True.intro

theorem Triple.after {f : α → Proc σ ε β} {Q : β → σ → Prop}
    (hf : ∀ a, Triple (fun _ => True) (f a) Q (fun _ => True)) :
    Triple P (m >>= f) Q (fun _ => True) := Triple.bind Triple.trivial hf

theorem Triple.attempt (h : Triple P m Q R) :
    Triple P (Proc.attempt m)
      (fun r s => match r with | .ok a => Q a s | .error _ => R s) R := by
  intro s hs
  have hm := h s hs
  simp only [Proc.attempt]
  rcases hr : m.run s with ⟨a | e | _, t⟩ <;> rw [hr] at hm <;> exact hm

theorem Triple.catching {ε' : Type} (h : Triple P m Q R) :
    Triple P (Proc.catching m : Proc σ ε' (Except ε α))
      (fun r s => match r with | .ok a => Q a s | .error _ => R s) R := by
  intro s hs
  have hm := h s hs
  simp only [Proc.catching]
  rcases hr : m.run s with ⟨a | e | _, t⟩ <;> rw [hr] at hm <;> exact hm

/-- `m` keeps `I`, however it ends. -/
def Keeps (I : σ → Prop) (m : Proc σ ε α) : Prop := Triple I m (fun _ => I) I

variable {I : σ → Prop}

theorem Keeps.final (h : Keeps I m) {s : σ} (hs : I s) : I (m.run s).2 := (h s hs).final

theorem Keeps.returns (h : Keeps I m) : Triple I m (fun _ => I) fun _ => True :=
  h.conseq (fun _ hs => hs) (fun _ _ hs => hs) fun _ _ => True.intro

theorem Keeps.pure (a : α) : Keeps I (Pure.pure a : Proc σ ε α) := Triple.pure fun _ hs => hs

theorem Keeps.bind {f : α → Proc σ ε β} (hm : Keeps I m) (hf : ∀ a, Keeps I (f a)) :
    Keeps I (m >>= f) := Triple.bind hm hf

theorem Keeps.get {f : σ → Proc σ ε α} (h : ∀ u, I u → Keeps I (f u)) :
    Keeps I (Proc.get >>= f) := fun s hs => h s hs s hs

theorem Keeps.modify {g : σ → σ} (h : ∀ s, I s → I (g s)) : Keeps (ε := ε) I (Proc.modify g) := h

theorem Keeps.throw (e : ε) : Keeps I (Proc.throw e : Proc σ ε α) := fun _ hs => hs

theorem Keeps.cut : Keeps I (Proc.cut : Proc σ ε α) := fun _ hs => hs

theorem Keeps.attempt (h : Keeps I m) : Keeps I (Proc.attempt m) :=
  (Triple.attempt h).post fun r _ hs => by cases r <;> exact hs

def Stays (I C : σ → Prop) (m : Proc σ ε α) : Prop :=
  ∀ s, I s → ((m.run s).1 = .cut → C (m.run s).2) ∧ ((m.run s).1 ≠ .cut → I (m.run s).2)

section
variable {C : σ → Prop}

theorem Stays.final (h : Stays I C m) (cuts : ∀ s, I s → C s) {s : σ} (hs : I s) : C (m.run s).2 := by
  by_cases hcut : (m.run s).1 = .cut
  · exact (h s hs).1 hcut
  · exact cuts _ ((h s hs).2 hcut)

theorem Stays.pure (a : α) : Stays I C (Pure.pure a : Proc σ ε α) :=
  fun _ hs => ⟨nofun, fun _ => hs⟩

theorem Stays.bind {f : α → Proc σ ε β} (hm : Stays I C m) (hf : ∀ a, Stays I C (f a)) :
    Stays I C (m >>= f) := by
  intro s hs
  have h := hm s hs
  rw [run_bind]
  rcases hr : m.run s with ⟨a | e | _, t⟩ <;> rw [hr] at h
  · exact hf a t (h.2 nofun)
  · exact ⟨nofun, fun _ => h.2 nofun⟩
  · exact ⟨fun _ => h.1 rfl, fun hne => absurd rfl hne⟩

theorem Stays.get {f : σ → Proc σ ε α} (h : ∀ u, I u → Stays I C (f u)) :
    Stays I C (Proc.get >>= f) := fun s hs => h s hs s hs

theorem Stays.modify {g : σ → σ} (h : ∀ s, I s → I (g s)) : Stays (ε := ε) I C (Proc.modify g) :=
  fun s hs => ⟨nofun, fun _ => h s hs⟩

theorem Stays.throw (e : ε) : Stays I C (Proc.throw e : Proc σ ε α) := fun _ hs => ⟨nofun, fun _ => hs⟩

theorem Stays.cut (cuts : ∀ s, I s → C s) : Stays I C (Proc.cut : Proc σ ε α) :=
  fun s hs => ⟨fun _ => cuts s hs, fun hne => absurd rfl hne⟩

theorem Stays.attempt (h : Stays I C m) : Stays I C (Proc.attempt m) := by
  intro s hs
  have hm := h s hs
  simp only [Proc.attempt]
  rcases hr : m.run s with ⟨a | e | _, t⟩ <;> rw [hr] at hm
  · exact ⟨nofun, fun _ => hm.2 nofun⟩
  · exact ⟨nofun, fun _ => hm.2 nofun⟩
  · exact ⟨fun _ => hm.1 rfl, fun hne => absurd rfl hne⟩

end

def zoom {τ : Type} (part : σ → τ) (put : τ → σ → σ) (m : Proc τ ε α) : Proc σ ε α where
  run s := ((m.run (part s)).1, put (m.run (part s)).2 s)

theorem Triple.zoom {τ : Type} {part : σ → τ} {put : τ → σ → σ} {m : Proc τ ε α}
    {P' R' : τ → Prop} {Q' : α → τ → Prop} (h : Triple P' m Q' R') (hP : ∀ s, P s → P' (part s))
    (hQ : ∀ s a t, P s → Q' a t → Q a (put t s)) (hR : ∀ s t, P s → R' t → R (put t s)) :
    Triple P (zoom part put m) Q R := by
  intro s hs
  have hm := h (part s) (hP s hs)
  rcases hrun : m.run (part s) with ⟨outcome, t⟩
  rw [hrun] at hm
  simp only [Proc.zoom, hrun]
  cases outcome with
  | ok a => exact hQ s a t hs hm
  | error failure => exact hR s t hs hm
  | cut => exact hR s t hs hm

def Uncut (m : Proc σ ε α) : Prop := ∀ s, (m.run s).1 ≠ .cut

theorem Uncut.pure (a : α) : Uncut (Pure.pure a : Proc σ ε α) := fun _ h => nomatch h

theorem Uncut.throw (e : ε) : Uncut (Proc.throw e : Proc σ ε α) := fun _ h => nomatch h

theorem Uncut.bind {f : α → Proc σ ε β} (hm : Uncut m) (hf : ∀ a, Uncut (f a)) :
    Uncut (m >>= f) := by
  intro s
  rw [run_bind]
  rcases hrun : m.run s with ⟨a | e | _, t⟩
  · exact hf a t
  · exact fun h => nomatch h
  · exact absurd (congrArg Prod.fst hrun) (hm s)

def Projects {τ : Type} (π : σ → τ) (m : Proc σ ε α) (n : Proc τ ε α) : Prop :=
  ∀ s, ((m.run s).1, π (m.run s).2) = n.run (π s)

section
variable {τ : Type} {π : σ → τ} {n : Proc τ ε α}

theorem Projects.ofExcept (result : Except ε α) :
    Projects π (Proc.ofExcept result) (Proc.ofExcept result) := by
  intro s
  cases result <;> rfl

theorem Projects.modify {f : σ → σ} {g : τ → τ} (h : ∀ s, π (f s) = g (π s)) :
    Projects (ε := ε) π (Proc.modify f) (Proc.modify g) := fun s => congrArg (Prod.mk _) (h s)

theorem Projects.bind {f : α → Proc σ ε β} {g : α → Proc τ ε β} (h : Projects π m n)
    (hf : ∀ a, Projects π (f a) (g a)) : Projects π (m >>= f) (n >>= g) := by
  intro s
  rw [run_bind, run_bind, ← h s]
  rcases m.run s with ⟨a | e | _, t⟩
  · exact hf a t
  · rfl
  · rfl

theorem Projects.get {f : σ → Proc σ ε β} {g : τ → Proc τ ε β}
    (h : ∀ s, Projects π (f s) (g (π s))) : Projects π (Proc.get >>= f) (Proc.get >>= g) :=
  fun s => h s s

end

theorem Keeps.zoom {τ : Type} {part : σ → τ} {put : τ → σ → σ} {m : Proc τ ε α}
    (h : ∀ t s, I s → I (put t s)) : Keeps I (zoom part put m) := by
  have hany : Triple (fun _ : τ => True) m (fun _ _ => True) fun _ => True := Triple.trivial
  exact hany.zoom (fun _ _ => True.intro) (fun s _ t hs _ => h t s hs) fun s t hs _ => h t s hs

structure Oracle (τ : Type) where
  answers : ℕ → τ
  horizon : ℕ

end Proc
end Library
