import Mathlib.Tactic

/-! Properties of traces: what holds at each position of a growing list of labels,
given the labels before it. -/

namespace Library
variable {ι : Type} {P Q : List ι → ι → Prop} {trace before after : List ι} {label : ι}

/-- `P` holds of every label of the trace and the labels before it. -/
def AtEvery (P : List ι → ι → Prop) (trace : List ι) : Prop :=
  ∀ before label after, trace = before ++ label :: after → P before label

theorem atEvery_nil : AtEvery P [] := by
  intro before label after h
  exact absurd h.symm (by simp)

theorem split_snoc {next : ι} (h : trace ++ [next] = before ++ label :: after) :
    (trace = before ∧ next = label ∧ after = []) ∨
      ∃ rest, after = rest ++ [next] ∧ trace = before ++ label :: rest := by
  rcases List.eq_nil_or_concat after with rfl | ⟨rest, last, rfl⟩
  · obtain ⟨hbefore, hsame⟩ := List.append_inj' h rfl
    exact Or.inl ⟨hbefore, List.singleton_inj.mp hsame, rfl⟩
  · rw [List.concat_eq_append, ← List.cons_append, ← List.append_assoc] at h
    obtain ⟨hbefore, hsame⟩ := List.append_inj' h rfl
    refine Or.inr ⟨rest, ?_, hbefore⟩
    rw [List.concat_eq_append, List.singleton_inj.mp hsame]

theorem AtEvery.snoc (h : AtEvery P trace) (hlabel : P trace label) :
    AtEvery P (trace ++ [label]) := by
  intro before next after heq
  rcases split_snoc heq with ⟨rfl, rfl, -⟩ | ⟨rest, -, htrace⟩
  · exact hlabel
  · exact h before next rest htrace

theorem AtEvery.of_prefix {later : List ι} (h : AtEvery P later) (earlier : trace <+: later) :
    AtEvery P trace := by
  obtain ⟨rest, rfl⟩ := earlier
  intro before label after heq
  exact h before label (after ++ rest) (by rw [heq]; simp)

theorem AtEvery.mono (h : AtEvery P trace) (hPQ : ∀ before label, P before label → Q before label) :
    AtEvery Q trace := fun before label after heq => hPQ before label (h before label after heq)

theorem AtEvery.mem (h : AtEvery P trace) (hmem : label ∈ trace) :
    ∃ before after, trace = before ++ label :: after ∧ P before label := by
  obtain ⟨before, after, rfl⟩ := List.append_of_mem hmem
  exact ⟨before, after, rfl, h before label after rfl⟩

theorem last_unique {p : ι → Bool} {before before' after after' : List ι} {label label' : ι}
    (h : before ++ label :: after = before' ++ label' :: after')
    (hlabel : p label = true) (hlabel' : p label' = true)
    (hafter : ∀ l ∈ after, p l = false) (hafter' : ∀ l ∈ after', p l = false) :
    before = before' ∧ label = label' ∧ after = after' := by
  rcases List.append_eq_append_iff.mp h with ⟨mid, hbefore, hmid⟩ | ⟨mid, hbefore, hmid⟩
  · rcases mid with _ | ⟨first, mid⟩
    · rw [List.nil_append, List.cons.injEq] at hmid
      exact ⟨by rw [hbefore, List.append_nil], hmid.1, hmid.2⟩
    · rw [List.cons_append, List.cons.injEq] at hmid
      have := hafter label' (by rw [hmid.2]; simp)
      rw [hlabel'] at this
      exact absurd this (by decide)
  · rcases mid with _ | ⟨first, mid⟩
    · rw [List.nil_append, List.cons.injEq] at hmid
      exact ⟨by rw [hbefore, List.append_nil], hmid.1.symm, hmid.2.symm⟩
    · rw [List.cons_append, List.cons.injEq] at hmid
      have := hafter' label (by rw [hmid.2]; simp)
      rw [hlabel] at this
      exact absurd this (by decide)

theorem flatMap_split {κ : Type} {f : κ → List ι} {xs : List κ}
    (h : xs.flatMap f = before ++ label :: after) :
    ∃ first x rest start finish, xs = first ++ x :: rest ∧ f x = start ++ label :: finish ∧
      before = first.flatMap f ++ start := by
  induction xs generalizing before with
  | nil => exact absurd h (by simp)
  | cons x xs ih =>
    rw [List.flatMap_cons] at h
    rcases List.append_eq_append_iff.mp h with ⟨mid, hbefore, hrest⟩ | ⟨mid, hx, hlabel⟩
    · obtain ⟨first, y, rest, start, finish, rfl, hy, rfl⟩ := ih hrest
      refine ⟨x :: first, y, rest, start, finish, rfl, hy, ?_⟩
      rw [hbefore, List.flatMap_cons, List.append_assoc]
    · rcases mid with _ | ⟨next, mid⟩
      · rw [List.append_nil] at hx
        have hlabel : xs.flatMap f = [] ++ label :: after := hlabel.symm
        obtain ⟨first, y, rest, start, finish, rfl, hy, hnil⟩ := ih hlabel
        refine ⟨x :: first, y, rest, start, finish, rfl, hy, ?_⟩
        rw [List.flatMap_cons, List.append_assoc, ← hnil, List.append_nil, hx]
      · obtain ⟨rfl, -⟩ := List.cons.inj hlabel
        exact ⟨[], x, xs, before, mid, rfl, hx, rfl⟩

theorem range_split {n : ℕ} {first rest : List ℕ} {m : ℕ} (h : List.range n = first ++ m :: rest) :
    first = List.range m := by
  have hlength : first.length < n := by
    have htotal := congrArg List.length h
    rw [List.length_range, List.length_append, List.length_cons] at htotal
    omega
  have hm : m = first.length := by
    have hget : (List.range n)[first.length]? = some m := by
      rw [h, List.getElem?_append_right (Nat.le_refl _), Nat.sub_self]
      rfl
    rw [List.getElem?_range hlength] at hget
    exact (Option.some.inj hget).symm
  have htake := congrArg (List.take first.length) h
  rw [List.take_left, List.take_range, Nat.min_eq_left hlength.le] at htake
  rw [hm, htake]

theorem exists_first {p : ι → Bool} (h : ∃ l ∈ trace, p l = true) :
    ∃ before label after, trace = before ++ label :: after ∧ p label = true ∧
      ∀ l ∈ before, p l = false := by
  obtain ⟨first, hfirst⟩ := Option.isSome_iff_exists.mp (List.find?_isSome.mpr h)
  obtain ⟨hp, before, after, htrace, hbefore⟩ := List.find?_eq_some_iff_append.mp hfirst
  exact ⟨before, first, after, htrace, hp, fun l hl => by simpa using hbefore l hl⟩

end Library
