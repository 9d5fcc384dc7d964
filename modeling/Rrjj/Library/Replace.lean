import Mathlib.Data.List.Infix
import Mathlib.Tactic

/-! The occurrences of a pattern in a text, replaced from left to right, and what cannot be
read in the outcome: a word that shares no letter with the replacement lies between two
replacements, in a part of the text that was left as it is. -/

namespace Library

inductive Replaced {α : Type} (pat rep : List α) : List α → List α → Prop where
  | done : Replaced pat rep [] []
  | found {rest out : List α} (next : Replaced pat rep rest out) :
      Replaced pat rep (pat ++ rest) (rep ++ out)
  | kept {letter : α} {rest out : List α} (absent : ¬ pat <+: letter :: rest)
      (next : Replaced pat rep rest out) : Replaced pat rep (letter :: rest) (letter :: out)

variable {α : Type} {pat rep text out word : List α}

theorem infix_after (hword : word ≠ []) (apart : ∀ letter ∈ word, letter ∉ rep)
    (h : word <:+: rep ++ out) : word <:+: out := by
  induction rep with
  | nil => exact h
  | cons first rest ih =>
    rcases List.infix_cons_iff.1 h with hstart | hlater
    · -- the word would begin with a letter of the replacement
      obtain ⟨letter, tail, rfl⟩ := List.exists_cons_of_ne_nil hword
      obtain ⟨rfl, -⟩ := List.cons_prefix_cons.1 hstart
      exact absurd List.mem_cons_self (apart letter List.mem_cons_self)
    · exact ih (fun letter hletter hmem => apart letter hletter (List.mem_cons_of_mem _ hmem)) hlater

namespace Replaced

theorem kept_append {stretch rest : List α} (next : Replaced pat rep rest out)
    (absent : ∀ before after, stretch = before ++ after → after ≠ [] → ¬ pat <+: after ++ rest) :
    Replaced pat rep (stretch ++ rest) (stretch ++ out) := by
  induction stretch with
  | nil => exact next
  | cons letter stretch ih =>
    refine .kept (absent [] (letter :: stretch) rfl (List.cons_ne_nil _ _)) (ih ?_)
    intro before after heq
    exact absent (letter :: before) after (by rw [heq]; rfl)

theorem prefix_before (h : Replaced pat rep text out) (hrep : rep ≠ [])
    (apart : ∀ letter ∈ word, letter ∉ rep) (hout : word <+: out) : word <+: text := by
  induction h generalizing word with
  | done => exact hout
  | @found rest out _ _ =>
    cases word with
    | nil => exact List.nil_prefix
    | cons letter tail =>
      obtain ⟨first, others, rfl⟩ := List.exists_cons_of_ne_nil hrep
      obtain ⟨rfl, -⟩ := List.cons_prefix_cons.1 hout
      exact absurd List.mem_cons_self (apart letter List.mem_cons_self)
  | @kept letter rest out _ _ ih =>
    cases word with
    | nil => exact List.nil_prefix
    | cons first tail =>
      obtain ⟨rfl, htail⟩ := List.cons_prefix_cons.1 hout
      have hrest : tail <+: rest :=
        ih (fun letter hletter => apart letter (List.mem_cons_of_mem _ hletter)) htail
      exact List.cons_prefix_cons.2 ⟨rfl, hrest⟩

theorem infix_before (h : Replaced pat rep text out) (hrep : rep ≠ []) (hword : word ≠ [])
    (apart : ∀ letter ∈ word, letter ∉ rep) (hout : word <:+: out) : word <:+: text := by
  induction h with
  | done => exact hout
  | @found rest out _ ih =>
    have hrest : word <:+: rest := ih (infix_after hword apart hout)
    exact hrest.trans (List.suffix_append pat rest).isInfix
  | @kept letter rest out absent next ih =>
    rcases List.infix_cons_iff.1 hout with hstart | hlater
    · exact ((Replaced.kept absent next).prefix_before hrep apart hstart).isInfix
    · exact (ih hlater).trans (List.suffix_cons letter rest).isInfix

theorem absent (h : Replaced pat rep text out) (hrep : rep ≠ []) (hpat : pat ≠ [])
    (apart : ∀ letter ∈ pat, letter ∉ rep) : ¬ pat <:+: out := by
  induction h with
  | done => exact fun hout => hpat (List.infix_nil.1 hout)
  | found _ ih => exact fun hout => ih (infix_after hpat apart hout)
  | kept habsent next ih =>
    intro hout
    rcases List.infix_cons_iff.1 hout with hstart | hlater
    · -- it would begin where the text has no occurrence
      exact habsent ((Replaced.kept habsent next).prefix_before hrep apart hstart)
    · exact ih hlater

end Replaced

section Strings
open String String.Slice String.Slice.Pattern String.Slice.Pattern.Model

def replaceStep {s : Slice} (rep sofar : String) : SearchStep s → String
  | .matched .. => sofar ++ rep.toSlice
  | .rejected start stop => sofar ++ s.slice! start stop

theorem not_prefix_of_unmatched {pat : String} {s : Slice} {start stop : s.Pos}
    (hnone : ∀ pos, start ≤ pos → pos < stop → ¬ MatchesAt pat pos) {before first last rest : String}
    (hstart : start.Splits before (first ++ (last ++ rest)))
    (hstop : stop.Splits (before ++ (first ++ last)) rest) (hlast : last ≠ "") :
    ¬ pat.toList <+: last.toList ++ rest.toList := by
  rintro ⟨tail, htail⟩
  obtain ⟨here, hhere⟩ : ∃ here : s.Pos, here.Splits (before ++ first) (last ++ rest) := by
    have hwhole : s.copy = (before ++ first) ++ (last ++ rest) := by
      rw [hstart.eq_append, String.append_assoc]
    exact ⟨_, Slice.Pos.splits_ofEqAppend hwhole⟩
  have hmatch : MatchesAt pat here := by
    have hlater : last ++ rest = pat ++ ofList tail := by
      rw [← String.toList_inj]
      simpa using htail.symm
    exact ForwardStringSearcher.matchesAt_iff_splits.2 ⟨_, ofList tail, hlater ▸ hhere⟩
  have hfrom : start ≤ here := (hstart.le_iff_exists_eq_append hhere).2 ⟨first, rfl, rfl⟩
  have hto : here < stop :=
    (hhere.lt_iff_exists_eq_append hstop).2 ⟨last, hlast, by rw [String.append_assoc], rfl⟩
  exact hnone here hfrom hto hmatch

/-- The steps of a search from a position on. -/
theorem replaced_of_search {pat : String} (rep : String) {s : Slice} {steps : List (SearchStep s)} {pos : s.Pos}
    (h : IsValidSearchFrom pat pos steps) {before after : String} (hpos : pos.Splits before after) :
    ∃ out : String, Replaced pat.toList rep.toList after.toList out.toList ∧
      ∀ sofar, steps.foldl (replaceStep rep) sofar = sofar ++ out := by
  induction h generalizing before after with
  | endPos =>
    obtain ⟨rfl, rfl⟩ := splits_endPos_iff.1 hpos
    exact ⟨"", .done, fun sofar => by simp⟩
  | matched hmatch _ ih =>
    obtain ⟨front, rest, hstart, hstop⟩ := ForwardStringSearcher.isLongestMatchAt_iff_splits.1 hmatch
    obtain ⟨out, hout, hfold⟩ := ih hstop
    refine ⟨rep ++ out, ?_, fun sofar => ?_⟩
    · rw [hpos.eq_right hstart, String.toList_append, String.toList_append]
      exact .found hout
    · rw [List.foldl_cons, hfold]
      simp [replaceStep, String.append_assoc]
  | @mismatched steps start stop hlt hnone _ ih =>
    obtain ⟨stretch, -, hfront, rfl⟩ := (hpos.lt_iff_exists_eq_append stop.splits).1 hlt
    have hstop : stop.Splits (before ++ stretch) (s.sliceFrom stop).copy := hfront ▸ stop.splits
    obtain ⟨out, hout, hfold⟩ := ih hstop
    obtain ⟨hle, hcopy⟩ : ∃ hle, (s.slice start stop hle).copy = stretch :=
      copy_slice_eq_iff_splits.2 ⟨before, _, hpos, hstop⟩
    refine ⟨stretch ++ out, ?_, fun sofar => ?_⟩
    · rw [String.toList_append, String.toList_append]
      refine hout.kept_append ?_
      intro first last hsplit hlast
      -- what is left of the stretch begins at a position of the search
      have hcut : stretch = ofList first ++ ofList last := by
        rw [← String.ofList_append, ← hsplit, String.ofList_toList]
      rw [hcut, String.append_assoc] at hpos
      rw [hcut] at hstop
      rw [← String.toList_ofList (l := last)]
      refine not_prefix_of_unmatched hnone hpos hstop ?_
      intro hempty
      exact hlast (by simpa using congrArg String.toList hempty)
    · rw [List.foldl_cons, hfold, replaceStep, ← slice_eq_slice! (h := hle)]
      simp [hcopy, String.append_assoc]

theorem replaced_replace {pat : String} (hpat : pat ≠ "") (text rep : String) :
    Replaced pat.toList rep.toList text.toList (text.replace pat rep).toList := by
  have hsearch := (ForwardStringSearcher.lawfulToForwardSearcherModel hpat).isValidSearchFrom_toList
    text.toSlice
  obtain ⟨out, hout, hfold⟩ := replaced_of_search rep hsearch (splits_startPos _)
  have hreplace : text.replace pat rep = out := by
    have hsteps := hfold ""
    rw [String.empty_append] at hsteps
    rw [← hsteps]
    unfold String.replace Slice.replace
    rw [← Std.Iter.foldl_toList]
    congr 1
    funext sofar step
    cases step <;> rfl
  rw [hreplace]
  simpa using hout

end Strings
end Library
