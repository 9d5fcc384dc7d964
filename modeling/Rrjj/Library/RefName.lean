import Mathlib.Data.List.Infix
import Mathlib.Tactic

/-! The names that `git check-ref-format` accepts, and when a directory of names and a last
component make one. -/

namespace Library

/-- The letters that no name of a reference holds: control characters and those with a meaning
of their own to Git. -/
def isRefForbidden (letter : Char) : Bool :=
  letter.toNat < 0x20 || letter.toNat = 0x7f ||
    letter ∈ [' ', '~', '^', ':', '?', '*', '[', '\\']

structure RefText (text : List Char) : Prop where
  letters : ∀ letter ∈ text, isRefForbidden letter = false
  dots : ¬ ['.', '.'] <:+: text
  brace : ¬ ['@', '{'] <:+: text

structure RefComponent (part : List Char) : Prop where
  written : part ≠ []
  visible : ¬ ['.'] <+: part
  unlocked : ¬ ".lock".toList <:+ part

structure RefFormat (name : List Char) : Prop where
  text : RefText name
  components : ∀ part ∈ name.splitOn '/', RefComponent part
  nested : '/' ∈ name
  ended : ¬ ['.'] <:+ name
  named : name ≠ ['@']

theorem letters_iff {text : List Char} :
    (text.all fun letter => !isRefForbidden letter) = true ↔
      ∀ letter ∈ text, isRefForbidden letter = false := by
  rw [List.all_eq_true]
  simp only [Bool.not_eq_true']

instance (text : List Char) : Decidable (RefText text) :=
  -- letter by letter of the text, not over all letters
  decidable_of_iff ((text.all fun letter => !isRefForbidden letter) = true ∧
      ¬ ['.', '.'] <:+: text ∧ ¬ ['@', '{'] <:+: text)
    ⟨fun h => ⟨letters_iff.1 h.1, h.2.1, h.2.2⟩, fun h => ⟨letters_iff.2 h.letters, h.dots, h.brace⟩⟩

instance (part : List Char) : Decidable (RefComponent part) :=
  decidable_of_iff (part ≠ [] ∧ ¬ ['.'] <+: part ∧ ¬ ".lock".toList <:+ part)
    ⟨fun h => ⟨h.1, h.2.1, h.2.2⟩, fun h => ⟨h.written, h.visible, h.unlocked⟩⟩

instance (name : List Char) : Decidable (RefFormat name) :=
  decidable_of_iff (RefText name ∧ (∀ part ∈ name.splitOn '/', RefComponent part) ∧ '/' ∈ name ∧
      ¬ ['.'] <:+ name ∧ name ≠ ['@'])
    ⟨fun h => ⟨h.1, h.2.1, h.2.2.1, h.2.2.2.1, h.2.2.2.2⟩,
      fun h => ⟨h.text, h.components, h.nested, h.ended, h.named⟩⟩

example : RefFormat "refs/rrjj/sessions/a-1".toList := by decide

example : ¬ RefFormat "refs/rrjj/.sessions/a".toList := by decide

variable {α : Type} {sep : α} {word front last : List α}

theorem prefix_of_join (one : sep ∉ word) (h : word <+: front ++ sep :: last) : word <+: front := by
  induction front generalizing word with
  | nil =>
    cases word with
    | nil => exact List.nil_prefix
    | cons letter tail =>
      obtain ⟨rfl, -⟩ := List.cons_prefix_cons.1 h
      exact absurd List.mem_cons_self one
  | cons first front ih =>
    cases word with
    | nil => exact List.nil_prefix
    | cons letter tail =>
      obtain ⟨rfl, htail⟩ := List.cons_prefix_cons.1 h
      exact List.cons_prefix_cons.2 ⟨rfl, ih (fun hmem => one (List.mem_cons_of_mem _ hmem)) htail⟩

theorem infix_join_iff (one : sep ∉ word) :
    word <:+: front ++ sep :: last ↔ word <:+: front ∨ word <:+: last := by
  constructor
  · intro h
    induction front with
    | nil =>
      rcases List.infix_cons_iff.1 h with hstart | hlater
      · rw [← List.nil_append (sep :: last)] at hstart
        exact Or.inl (prefix_of_join one hstart).isInfix
      · exact Or.inr hlater
    | cons first front ih =>
      rcases List.infix_cons_iff.1 h with hstart | hlater
      · change word <+: (first :: front) ++ sep :: last at hstart
        exact Or.inl (prefix_of_join one hstart).isInfix
      · exact (ih hlater).imp_left fun hfront => hfront.trans (List.suffix_cons first front).isInfix
  · rintro (hfront | hlast)
    · exact hfront.trans (List.prefix_append front _).isInfix
    · have hsuffix : last <:+ front ++ sep :: last := ⟨front ++ [sep], by simp⟩
      exact hlast.trans hsuffix.isInfix

theorem head_splitOn {text : List Char} (h : (text.splitOn '/').head? = some []) :
    text = [] ∨ ['/'] <+: text := by
  cases text with
  | nil => exact Or.inl rfl
  | cons first rest =>
    by_cases hslash : first = '/'
    · exact Or.inr ⟨rest, by rw [hslash]; rfl⟩
    · exfalso
      rw [List.splitOn_cons_eq_if_modifyHead, if_neg (by simpa using hslash)] at h
      obtain ⟨part, parts, hparts⟩ := List.exists_cons_of_ne_nil (List.splitOn_ne_nil '/' rest)
      rw [hparts] at h
      simp at h

theorem slash_of_empty {text : List Char} (h : [] ∈ (text.splitOn '/').tail) :
    ['/'] <:+ text ∨ ['/', '/'] <:+: text := by
  induction text with
  | nil => simp at h
  | cons first rest ih =>
    obtain ⟨part, parts, hparts⟩ := List.exists_cons_of_ne_nil (List.splitOn_ne_nil '/' rest)
    have hlater : [] ∈ parts → ['/'] <:+ first :: rest ∨ ['/', '/'] <:+: first :: rest := by
      intro hmem
      refine (ih (by rw [hparts]; exact hmem)).imp ?_ ?_
      · exact fun hends => hends.trans (List.suffix_cons first rest)
      · exact fun hdouble => hdouble.trans (List.suffix_cons first rest).isInfix
    rw [List.splitOn_cons_eq_if_modifyHead, hparts] at h
    by_cases hslash : first = '/'
    · rw [if_pos (by simpa using hslash), List.tail_cons] at h
      rcases List.mem_cons.1 h with hpart | hmem
      · -- the component after this slash is empty: it ends the text, or a second slash follows
        have hhead : (rest.splitOn '/').head? = some [] := by rw [hparts, hpart]; rfl
        rcases head_splitOn hhead with rfl | ⟨later, rfl⟩
        · exact Or.inl ⟨[], by rw [hslash]; rfl⟩
        · exact Or.inr ⟨[], later, by rw [hslash]; rfl⟩
      · exact hlater hmem
    · rw [if_neg (by simpa using hslash)] at h
      exact hlater h

theorem component_written {text : List Char} (hwritten : text ≠ []) (hstart : ¬ ['/'] <+: text)
    (hends : ¬ ['/'] <:+ text) (hdouble : ¬ ['/', '/'] <:+: text) :
    ∀ part ∈ text.splitOn '/', part ≠ [] := by
  rintro part hpart rfl
  obtain ⟨first, parts, hparts⟩ := List.exists_cons_of_ne_nil (List.splitOn_ne_nil '/' text)
  rw [hparts] at hpart
  rcases List.mem_cons.1 hpart with rfl | hmem
  · exact (head_splitOn (by rw [hparts]; rfl)).elim hwritten hstart
  · exact (slash_of_empty (by rw [hparts]; exact hmem)).elim hends hdouble

theorem refText_join_iff {front last : List Char} :
    RefText (front ++ '/' :: last) ↔ RefText front ∧ RefText last := by
  have hdots : ['.', '.'] <:+: front ++ '/' :: last ↔ _ := infix_join_iff (by decide)
  have hbrace : ['@', '{'] <:+: front ++ '/' :: last ↔ _ := infix_join_iff (by decide)
  constructor
  · rintro ⟨hletters, hnoDots, hnoBrace⟩
    rw [hdots, not_or] at hnoDots
    rw [hbrace, not_or] at hnoBrace
    refine ⟨⟨fun letter hmem => ?_, hnoDots.1, hnoBrace.1⟩, fun letter hmem => ?_, hnoDots.2, hnoBrace.2⟩
    · exact hletters letter (List.mem_append_left _ hmem)
    · exact hletters letter (List.mem_append_right _ (List.mem_cons_of_mem _ hmem))
  · rintro ⟨hfront, hlast⟩
    refine ⟨fun letter hmem => ?_, ?_, ?_⟩
    · rcases List.mem_append.1 hmem with hmem | hmem
      · exact hfront.letters letter hmem
      · rcases List.mem_cons.1 hmem with rfl | hmem
        · decide
        · exact hlast.letters letter hmem
    · rw [hdots, not_or]
      exact ⟨hfront.dots, hlast.dots⟩
    · rw [hbrace, not_or]
      exact ⟨hfront.brace, hlast.brace⟩

theorem splitOn_join {front last : List Char} (one : '/' ∉ last) :
    (front ++ '/' :: last).splitOn '/' = front.splitOn '/' ++ [last] := by
  rw [List.splitOn_append_cons_self, List.splitOn_eq_singleton one]

/-- What a directory of names and a last component must be like, each on its own, to make a
name of a reference. -/
theorem refFormat_join_iff {front last : List Char} (one : '/' ∉ last) (hwritten : last ≠ []) :
    RefFormat (front ++ '/' :: last) ↔
      (RefText front ∧ RefText last) ∧
        (∀ part ∈ front.splitOn '/' ++ [last], RefComponent part) ∧ ¬ ['.'] <:+ last := by
  have hnested : '/' ∈ front ++ '/' :: last := List.mem_append_right _ List.mem_cons_self
  have hsuffix : last <:+ front ++ '/' :: last := ⟨front ++ ['/'], by simp⟩
  have hends : ['.'] <:+ front ++ '/' :: last ↔ ['.'] <:+ last := by
    refine ⟨fun h => ?_, fun h => h.trans hsuffix⟩
    exact List.suffix_of_suffix_length_le h hsuffix (List.length_pos_iff.2 hwritten)
  constructor
  · intro h
    refine ⟨refText_join_iff.1 h.text, ?_, fun hdot => h.ended (hends.2 hdot)⟩
    rw [← splitOn_join one]
    exact h.components
  · rintro ⟨htext, hcomponents, hdot⟩
    refine ⟨refText_join_iff.2 htext, ?_, hnested, fun hdotted => hdot (hends.1 hdotted), ?_⟩
    · rw [splitOn_join one]
      exact hcomponents
    · intro hsingle
      rw [hsingle] at hnested
      exact absurd hnested (by decide)

end Library
