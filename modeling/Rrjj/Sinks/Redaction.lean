import Rrjj.Library.Replace
import Rrjj.Sinks.Git

/-! What the sinks' messages cannot tell: after `redact_secrets` no secret can be read in a
message, in whatever order the secrets are replaced and however they overlap. -/

namespace Rrjj
open Library

theorem star_of_mem {letter : Char} (h : letter ∈ "***".toList) : letter = '*' := by
  simpa using h

theorem infix_of_redactSecrets {secrets : List String} {message : String} {word : List Char}
    (hword : word ≠ []) (hstar : '*' ∉ word)
    (h : word <:+: (redactSecrets message secrets).toList) : word <:+: message.toList := by
  unfold redactSecrets at h
  induction secrets generalizing message with
  | nil => exact h
  | cons secret rest ih =>
    rw [List.foldl_cons] at h
    have hstep := ih h
    by_cases hempty : secret.isEmpty = true
    · rwa [if_pos hempty] at hstep
    · rw [if_neg hempty] at hstep
      have hsecret : secret ≠ "" := by simpa using hempty
      refine (replaced_replace hsecret message "***").infix_before (by decide) hword ?_ hstep
      exact fun letter hletter hmem => hstar (star_of_mem hmem ▸ hletter)

theorem redactSecrets_cons {secret : String} (hsecret : secret ≠ "") (message : String)
    (rest : List String) :
    redactSecrets message (secret :: rest) = redactSecrets (message.replace secret "***") rest := by
  unfold redactSecrets
  rw [List.foldl_cons, if_neg (by simpa using hsecret)]

/-- One secret without stars is gone, whatever the others are. -/
theorem redactSecrets_hides {secrets : List String} {secret : String} (hmem : secret ∈ secrets)
    (hsecret : secret ≠ "") (hstar : '*' ∉ secret.toList) (message : String) :
    ¬ secret.toList <:+: (redactSecrets message secrets).toList := by
  induction secrets generalizing message with
  | nil => exact absurd hmem List.not_mem_nil
  | cons first rest ih =>
    by_cases hrest : secret ∈ rest
    · unfold redactSecrets
      rw [List.foldl_cons]
      exact ih hrest _
    · obtain rfl : secret = first := (List.mem_cons.1 hmem).resolve_right hrest
      rw [redactSecrets_cons hsecret]
      -- it is gone after its own replacement, and no later one brings it back
      intro hout
      have hwritten : secret.toList ≠ [] := by simpa using hsecret
      have hback := infix_of_redactSecrets hwritten hstar hout
      refine (replaced_replace hsecret message "***").absent (by decide) hwritten ?_ hback
      exact fun letter hletter hmem => hstar (star_of_mem hmem ▸ hletter)

theorem redactSecrets_absent (message : String) (secrets : List String)
    (h : ∀ secret ∈ secrets, secret ≠ "" ∧ '*' ∉ secret.toList) :
    ∀ secret ∈ secrets, ¬ secret.toList <:+: (redactSecrets message secrets).toList := by
  intro secret hmem
  obtain ⟨hsecret, hstar⟩ := h secret hmem
  exact redactSecrets_hides hmem hsecret hstar message

theorem redactSecrets_absent_chained :
    ¬ "ab".toList <:+: (redactSecrets "acabb" ["cab", "ab"]).toList :=
  redactSecrets_absent "acabb" ["cab", "ab"] (by decide) "ab" (by decide)

section Credentials

def isToken68 (letter : Char) : Bool :=
  letter.isAlphanum || letter ∈ ['-', '.', '_', '~', '+', '/', '=']

structure HttpCredential where
  scheme : String
  token : String
  known : scheme = "Bearer" ∨ scheme = "Basic"
  letters : ∀ letter ∈ token.toList, isToken68 letter = true

def HttpCredential.header (credential : HttpCredential) : String :=
  credential.scheme ++ " " ++ credential.token

theorem HttpCredential.header_redactable (credential : HttpCredential) :
    credential.header ≠ "" ∧ '*' ∉ credential.header.toList := by
  unfold HttpCredential.header
  constructor
  · intro hempty
    simpa using congrArg String.length hempty
  · intro hmem
    simp only [String.toList_append, List.mem_append] at hmem
    rcases hmem with (hscheme | hblank) | htoken
    · rcases credential.known with hknown | hknown <;> simp [hknown] at hscheme
    · simp at hblank
    · exact absurd (credential.letters _ htoken) (by decide)

theorem HttpEventConfig.sanitized_hides {config : HttpEventConfig} {credential : HttpCredential}
    (hsent : config.authorization = some credential.header) (message : String) :
    ¬ credential.header.toList <:+: (config.sanitized message).toList := by
  obtain ⟨hheader, hstar⟩ := credential.header_redactable
  exact redactSecrets_hides (by simp [hsent]) hheader hstar message

theorem GitCheckpointConfig.sanitized_hides {config : GitCheckpointConfig}
    {credential : HttpCredential} (hsent : config.authorization = some credential.header)
    (message : String) : ¬ credential.header.toList <:+: (config.sanitized message).toList := by
  obtain ⟨hheader, hstar⟩ := credential.header_redactable
  exact redactSecrets_hides (by simp [hsent]) hheader hstar message

end Credentials
end Rrjj
