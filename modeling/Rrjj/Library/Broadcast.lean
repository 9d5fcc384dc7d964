import Mathlib.Tactic

/-! A broadcast channel. Each receiver has its own place in the stream of what was sent; one that falls
behind is told how many values it has missed, and goes on with a later one. -/

namespace Library

inductive Received (α : Type) where
  | value (value : α)
  | lagged (missed : ℕ)

structure Channel (α : Type) where
  recv : List α → ℕ → Option (Received α × ℕ)

structure Channel.Orderly {α : Type} (channel : Channel α) : Prop where
  value : ∀ {sent position value next}, channel.recv sent position = some (.value value, next) →
    sent[position]? = some value ∧ next = position + 1
  lagged : ∀ {sent position missed next}, channel.recv sent position = some (.lagged missed, next) →
    0 < missed ∧ next = position + missed ∧ next ≤ sent.length

inductive Delivery {α : Type} (sent : List α) : ℕ → List (Received α) → ℕ → Prop
  | done (position : ℕ) : Delivery sent position [] position
  | value {position last : ℕ} {value : α} {items : List (Received α)}
      (held : sent[position]? = some value) (rest : Delivery sent (position + 1) items last) :
      Delivery sent position (.value value :: items) last
  | lagged {position missed last : ℕ} {items : List (Received α)} (some : 0 < missed)
      (rest : Delivery sent (position + missed) items last) :
      Delivery sent position (.lagged missed :: items) last

section
variable {α : Type} {sent later : List α} {position next last : ℕ} {items more : List (Received α)}
  {item : Received α}

theorem Delivery.append (first : Delivery sent position items next) (second : Delivery sent next more last) :
    Delivery sent position (items ++ more) last := by
  induction first with
  | done => exact second
  | value held _ ih => exact .value held (ih second)
  | lagged hsome _ ih => exact .lagged hsome (ih second)

theorem Delivery.mono (h : Delivery sent position items last) (grown : sent <+: later) :
    Delivery later position items last := by
  obtain ⟨rest, rfl⟩ := grown
  induction h with
  | done => exact .done _
  | value held _ ih =>
    refine .value ?_ ih
    rwa [List.getElem?_append_left (List.getElem?_eq_some_iff.mp held).1]
  | lagged hsome _ ih => exact .lagged hsome ih

variable {channel : Channel α}

theorem Delivery.recv (orderly : channel.Orderly) (h : Delivery sent position items next)
    (received : channel.recv sent next = some (item, last)) :
    Delivery sent position (items ++ [item]) last := by
  apply h.append
  cases item with
  | value value =>
    obtain ⟨hvalue, rfl⟩ := orderly.value received
    exact .value hvalue (.done _)
  | lagged missed =>
    obtain ⟨hmissed, rfl, -⟩ := orderly.lagged received
    exact .lagged hmissed (.done _)

theorem Channel.Orderly.recv_le (orderly : channel.Orderly)
    (received : channel.recv sent position = some (item, last)) : last ≤ sent.length := by
  cases item with
  | value value =>
    obtain ⟨hvalue, rfl⟩ := orderly.value received
    exact (List.getElem?_eq_some_iff.mp hvalue).1
  | lagged missed => exact (orderly.lagged received).2.2

end

def Channel.keeping {α : Type} (capacity : ℕ) : Channel α where
  recv sent position :=
    if position + capacity < sent.length then
      some (.lagged (sent.length - capacity - position), sent.length - capacity)
    else sent[position]?.map fun value => (.value value, position + 1)

theorem Channel.keeping_orderly {α : Type} (capacity : ℕ) :
    (Channel.keeping capacity : Channel α).Orderly where
  value := by
    intro sent position value next h
    unfold keeping at h
    dsimp only at h
    split_ifs at h
    · exact absurd h (by simp)
    · obtain ⟨held, hheld, heq⟩ := Option.map_eq_some_iff.mp h
      obtain ⟨hvalue, rfl⟩ := Prod.mk.inj heq
      rw [← Received.value.inj hvalue]
      exact ⟨hheld, rfl⟩
  lagged := by
    intro sent position missed next h
    unfold keeping at h
    dsimp only at h
    split_ifs at h
    · obtain ⟨hmissed, rfl⟩ := Prod.mk.inj (Option.some.inj h)
      rw [← Received.lagged.inj hmissed]
      exact ⟨by omega, by omega, by omega⟩
    · obtain ⟨held, -, heq⟩ := Option.map_eq_some_iff.mp h
      exact absurd (Prod.mk.inj heq).1 (by simp)

end Library
