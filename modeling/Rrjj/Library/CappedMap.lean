import Mathlib.Tactic

/-! Maps from keys to sets of values that stop taking new keys at a cap, and remember
that they did. What a sequence of merges keeps, adds and may drop. -/

namespace Library
open Std

structure CappedMap (κ ω : Type) [Ord κ] [Ord ω] where
  map : TreeMap κ (TreeSet ω)
  limited : Bool

namespace CappedMap
variable {κ ω : Type} [Ord κ] [Ord ω] {cap : ℕ} {s t u : CappedMap κ ω}

def Held (map : TreeMap κ (TreeSet ω)) (key : κ) (values : List ω) : Prop :=
  ∃ set, map[key]? = some set ∧ ∀ v ∈ values, v ∈ set

structure Merge (cap : ℕ) (s : CappedMap κ ω) (entries : List (κ × List ω)) (t : CappedMap κ ω) :
    Prop where
  kept : ∀ key values, Held s.map key values → Held t.map key values
  limited : s.limited = true → t.limited = true
  grown : s.map.size ≤ t.map.size
  bounded : s.map.size ≤ cap → t.map.size ≤ cap
  complete : ∀ entry ∈ entries, Held t.map entry.1 entry.2 ∨ (cap ≤ t.map.size ∧ t.limited = true)
  sound : ∀ key set, t.map[key]? = some set →
    ((∃ old, s.map[key]? = some old) ∨ ∃ entry ∈ entries, entry.1 = key) ∧
      ∀ v ∈ set, (∃ old, s.map[key]? = some old ∧ v ∈ old) ∨
        ∃ entry ∈ entries, entry.1 = key ∧ v ∈ entry.2

theorem Merge.refl (s : CappedMap κ ω) : Merge cap s [] s where
  kept _ _ h := h
  limited h := h
  grown := le_rfl
  bounded h := h
  complete entry h := absurd h (by simp)
  sound _ set h := ⟨Or.inl ⟨set, h⟩, fun _ hv => Or.inl ⟨set, h, hv⟩⟩

theorem Merge.trans {first second : List (κ × List ω)} (h : Merge cap s first t)
    (h' : Merge cap t second u) : Merge cap s (first ++ second) u where
  kept key values hheld := h'.kept key values (h.kept key values hheld)
  limited hlimited := h'.limited (h.limited hlimited)
  grown := h.grown.trans h'.grown
  bounded hsize := h'.bounded (h.bounded hsize)
  complete entry hmem := by
    rcases List.mem_append.mp hmem with hmem | hmem
    · rcases h.complete entry hmem with hheld | ⟨hsize, hlimited⟩
      · exact Or.inl (h'.kept _ _ hheld)
      · exact Or.inr ⟨hsize.trans h'.grown, h'.limited hlimited⟩
    · exact h'.complete entry hmem
  sound key set hset := by
    obtain ⟨hkey, hvalues⟩ := h'.sound key set hset
    constructor
    · rcases hkey with ⟨old, hold⟩ | ⟨entry, hmem, hentry⟩
      · refine (h.sound key old hold).1.imp_right ?_
        rintro ⟨entry, hmem, hentry⟩
        exact ⟨entry, List.mem_append_left _ hmem, hentry⟩
      · exact Or.inr ⟨entry, List.mem_append_right _ hmem, hentry⟩
    · intro v hv
      rcases hvalues v hv with ⟨old, hold, hvold⟩ | ⟨entry, hmem, hentry, hventry⟩
      · refine ((h.sound key old hold).2 v hvold).imp_right ?_
        rintro ⟨entry, hmem, hentry, hventry⟩
        exact ⟨entry, List.mem_append_left _ hmem, hentry, hventry⟩
      · exact Or.inr ⟨entry, List.mem_append_right _ hmem, hentry, hventry⟩

theorem Merge.drop (entry : κ × List ω) (full : cap ≤ s.map.size) :
    Merge cap s [entry] ⟨s.map, true⟩ where
  kept _ _ h := h
  limited _ := rfl
  grown := le_rfl
  bounded h := h
  complete _ _ := Or.inr ⟨full, rfl⟩
  sound _ set h := ⟨Or.inl ⟨set, h⟩, fun _ hv => Or.inl ⟨set, h, hv⟩⟩

variable [TransOrd κ] [LawfulEqOrd κ]

theorem Merge.store {key : κ} {values : List ω} {set : TreeSet ω}
    (mem : ∀ v, v ∈ set ↔ (∃ old, s.map[key]? = some old ∧ v ∈ old) ∨ v ∈ values)
    (room : (∃ old, s.map[key]? = some old) ∨ s.map.size < cap) :
    Merge cap s [(key, values)] ⟨s.map.insert key set, s.limited⟩ where
  kept other found := by
    rintro ⟨old, hold, hvalues⟩
    rw [Held, TreeMap.getElem?_insert]
    split_ifs with hcompare
    · obtain rfl := LawfulEqOrd.eq_of_compare hcompare
      exact ⟨set, rfl, fun v hv => (mem v).mpr (Or.inl ⟨old, hold, hvalues v hv⟩)⟩
    · exact ⟨old, hold, hvalues⟩
  limited h := h
  grown := TreeMap.size_le_size_insert
  bounded hsize := by
    rw [TreeMap.size_insert]
    split_ifs with hmem
    · exact hsize
    · rcases room with ⟨old, hold⟩ | hroom
      · rw [← TreeMap.mem_iff_contains, TreeMap.mem_iff_isSome_getElem?, hold] at hmem
        exact absurd rfl hmem
      · exact hroom
  complete entry hmem := by
    rw [List.mem_singleton.mp hmem]
    refine Or.inl ⟨set, TreeMap.getElem?_insert_self, fun v hv => (mem v).mpr (Or.inr hv)⟩
  sound other found hfound := by
    rw [TreeMap.getElem?_insert] at hfound
    split_ifs at hfound with hcompare
    · obtain rfl := LawfulEqOrd.eq_of_compare hcompare
      obtain rfl := Option.some.inj hfound
      refine ⟨Or.inr ⟨_, List.mem_singleton_self _, rfl⟩, fun v hv => ?_⟩
      refine ((mem v).mp hv).imp_right fun hvalues => ?_
      exact ⟨_, List.mem_singleton_self _, rfl, hvalues⟩
    · exact ⟨Or.inl ⟨found, hfound⟩, fun v hv => Or.inl ⟨found, hfound, hv⟩⟩

theorem Merge.full_of_nodup {entries : List (κ × List ω)} (h : Merge cap s entries t)
    (distinct : (entries.map Prod.fst).Nodup) (full : cap ≤ entries.length) : cap ≤ t.map.size := by
  by_contra hroom
  have hsubset : entries.map Prod.fst ⊆ t.map.keys := by
    intro key hkey
    rw [List.mem_map] at hkey
    obtain ⟨entry, hmem, rfl⟩ := hkey
    rcases h.complete entry hmem with ⟨set, hset, -⟩ | ⟨hsize, -⟩
    · rw [TreeMap.mem_keys, TreeMap.mem_iff_isSome_getElem?, hset]
      rfl
    · exact absurd hsize hroom
  have hlength := (List.subperm_of_subset distinct hsubset).length_le
  rw [List.length_map, TreeMap.length_keys] at hlength
  exact hroom (full.trans hlength)

theorem Merge.full {batch : TreeMap κ (TreeSet ω)} {entries : List (κ × List ω)}
    (h : Merge cap s entries t) (keys : batch.keys = entries.map Prod.fst)
    (full : cap ≤ batch.size) : cap ≤ t.map.size := by
  refine h.full_of_nodup (keys ▸ TreeMap.nodup_keys) ?_
  have hlength := congrArg List.length keys
  rw [TreeMap.length_keys, List.length_map] at hlength
  exact full.trans hlength.le

end CappedMap
end Library
