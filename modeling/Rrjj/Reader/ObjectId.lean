import Mathlib.Data.Nat.Bitwise
import Rrjj.Reader
import Rrjj.Library.Fallible

/-! Object ids: what `decode_id` makes of a string, byte for byte. -/

namespace Rrjj

abbrev ReadTask := ExceptT ReadError Option

def panics {α : Type} : ReadTask α := ExceptT.mk none

def utf8Bytes (text : List Char) : Bytes := text.flatMap String.utf8EncodeChar

def isCharBoundary (bytes : Bytes) (index : ℕ) : Bool :=
  index = 0 || index = bytes.length ||
    bytes[index]?.any fun byte => byte.toNat < 128 || 192 ≤ byte.toNat

def slice (bytes : Bytes) (start stop : ℕ) : ReadTask Bytes :=
  if isCharBoundary bytes start ∧ isCharBoundary bytes stop then
    pure ((bytes.drop start).take (stop - start))
  else panics

def toDigit (c : Char) : Option ℕ :=
  if '0' ≤ c ∧ c ≤ '9' then some (c.toNat - '0'.toNat)
  else if 'a' ≤ c ∧ c ≤ 'f' then some (c.toNat - 'a'.toNat + 10)
  else if 'A' ≤ c ∧ c ≤ 'F' then some (c.toNat - 'A'.toNat + 10)
  else none

def byteDigit (byte : UInt8) : Option ℕ := toDigit (Char.ofNat byte.toNat)

def plusSign : UInt8 := 43
def minusSign : UInt8 := 45

def radixDigits : ℕ → Bytes → Option UInt8
  | value, [] => some (UInt8.ofNat value)
  | value, byte :: rest => do
    let digit ← byteDigit byte
    if value * 16 + digit < 256 then radixDigits (value * 16 + digit) rest else none

def fromStrRadix : Bytes → Option UInt8
  | [] => none
  | [byte] => if byte = plusSign ∨ byte = minusSign then none else radixDigits 0 [byte]
  | byte :: rest => if byte = plusSign then radixDigits 0 rest else radixDigits 0 (byte :: rest)

def afterColon (text : List Char) : List Char :=
  if ':' ∈ text then (text.dropWhile (· ≠ ':')).tail else text

def hexBytes (value : String) : Bytes := utf8Bytes (afterColon value.toList)

def decodePiece (value : String) (hex : Bytes) (index : ℕ) : ReadTask UInt8 := do
  let piece ← slice hex index (index + 2)
  match fromStrRadix piece with
  | some byte => pure byte
  | none => throw (.invalidObjectId value)

def decodeId (value : String) : ReadTask Bytes :=
  let hex := hexBytes value
  if hex.length % 2 ≠ 0 then throw (.invalidObjectId value)
  else (List.range (hex.length / 2)).mapM fun index => decodePiece value hex (2 * index)

def hexDigit (digit : ℕ) : Char := (Nat.digitChar digit)

def hexText (bytes : Bytes) : String :=
  String.ofList (bytes.flatMap fun byte => [hexDigit (byte.toNat / 16), hexDigit (byte.toNat % 16)])

/-- `JjRecorder::op_id`, from the id of the operation. -/
def operationText (id : Bytes) : String := "op:" ++ hexText id

def hexValue : List Char → Option Bytes
  | [] => some []
  | [_] => none
  | high :: low :: rest => do
    let highDigit ← toDigit high
    let lowDigit ← toDigit low
    let bytes ← hexValue rest
    some (UInt8.ofNat (highDigit * 16 + lowDigit) :: bytes)

theorem mapM_range_cases {α : Type} (f : ℕ → ReadTask α) (count : ℕ) :
    (∃ values, (List.range count).mapM f = pure values ∧ ∀ k < count, ∃ value, f k = pure value) ∨
      ∃ k < count, (∀ j < k, ∃ value, f j = pure value) ∧
        ((∃ failure, f k = throw failure ∧ (List.range count).mapM f = throw failure) ∨
          f k = panics ∧ (List.range count).mapM f = panics) := by
  induction count with
  | zero => exact Or.inl ⟨[], rfl, fun k hk => absurd hk (Nat.not_lt_zero k)⟩
  | succ count ih =>
    have hsplit : (List.range (count + 1)).mapM f = (List.range count).mapM f >>= fun values =>
        f count >>= fun value => pure (values ++ [value]) := by
      rw [List.range_succ, List.mapM_append]
      simp
    rw [hsplit]
    rcases ih with ⟨values, hvalues, hall⟩ | ⟨k, hk, hbefore, hstops⟩
    · rw [hvalues, pure_bind]
      have hcase : f count = panics ∨ (∃ failure, f count = throw failure) ∨
          ∃ value, f count = pure value := by
        rcases hrun : (f count).run with _ | failure | value
        · exact Or.inl hrun
        · exact Or.inr (Or.inl ⟨failure, hrun⟩)
        · exact Or.inr (Or.inr ⟨value, hrun⟩)
      rcases hcase with hpanics | ⟨failure, hfails⟩ | ⟨value, hvalue⟩
      · exact Or.inr ⟨count, Nat.lt_succ_self count, hall, Or.inr ⟨hpanics, by rw [hpanics]; rfl⟩⟩
      · exact Or.inr ⟨count, Nat.lt_succ_self count, hall,
          Or.inl ⟨failure, hfails, by rw [hfails]; rfl⟩⟩
      · left
        refine ⟨values ++ [value], by rw [hvalue, pure_bind], ?_⟩
        intro k hk
        rcases Nat.lt_succ_iff_lt_or_eq.mp hk with hlt | rfl
        · exact hall k hlt
        · exact ⟨value, hvalue⟩
    · refine Or.inr ⟨k, Nat.lt_succ_of_lt hk, hbefore, ?_⟩
      rcases hstops with ⟨failure, hfails, hwhole⟩ | ⟨hpanics, hwhole⟩
      · exact Or.inl ⟨failure, hfails, by rw [hwhole]; rfl⟩
      · exact Or.inr ⟨hpanics, by rw [hwhole]; rfl⟩

def pieceAt (hex : Bytes) (index : ℕ) : Bytes := (hex.drop (2 * index)).take 2

section
variable {value : String} {hex : Bytes} {index : ℕ}

def Whole (hex : Bytes) (index : ℕ) : Prop :=
  isCharBoundary hex (2 * index) = true ∧ isCharBoundary hex (2 * index + 2) = true

theorem decodePiece_eq : decodePiece value hex (2 * index) =
    if isCharBoundary hex (2 * index) ∧ isCharBoundary hex (2 * index + 2) then
      match fromStrRadix (pieceAt hex index) with
      | some byte => pure byte
      | none => throw (.invalidObjectId value)
    else panics := by
  unfold decodePiece slice pieceAt
  rw [Nat.add_sub_cancel_left]
  split_ifs
  · rfl
  · rfl

theorem decodePiece_ok_iff {byte : UInt8} : decodePiece value hex (2 * index) = pure byte ↔
    Whole hex index ∧ fromStrRadix (pieceAt hex index) = some byte := by
  rw [decodePiece_eq]
  unfold Whole
  split_ifs with hwhole
  · rcases fromStrRadix (pieceAt hex index) with _ | found
    · simp only [reduceCtorEq, and_false, iff_false]
      exact fun h => nomatch h
    · simp only [hwhole, and_self, true_and, Option.some.injEq]
      constructor
      · intro h
        exact Except.ok.inj (Option.some.inj h)
      · intro h
        rw [h]
  · simp only [hwhole, false_and, iff_false]
    exact fun h => nomatch h

theorem decodePiece_throws_iff {failure : ReadError} : decodePiece value hex (2 * index) = throw failure ↔
    Whole hex index ∧ fromStrRadix (pieceAt hex index) = none ∧ failure = .invalidObjectId value := by
  rw [decodePiece_eq]
  unfold Whole
  split_ifs with hwhole
  · rcases fromStrRadix (pieceAt hex index) with _ | found
    · simp only [hwhole, and_self, true_and]
      constructor
      · intro h
        exact (Except.error.inj (Option.some.inj h)).symm
      · intro h
        rw [h]
    · simp only [reduceCtorEq, false_and, and_false, iff_false]
      exact fun h => nomatch h
  · simp only [hwhole, false_and, iff_false]
    exact fun h => nomatch h

theorem decodePiece_panics_iff : decodePiece value hex (2 * index) = panics ↔ ¬ Whole hex index := by
  rw [decodePiece_eq]
  unfold Whole
  split_ifs with hwhole
  · simp only [hwhole, and_self, not_true_eq_false, iff_false]
    rcases fromStrRadix (pieceAt hex index) with _ | found <;> exact fun h => nomatch h
  · simp only [hwhole, not_false_eq_true]

end

theorem decodeId_error {value : String} {failure : ReadError}
    (h : decodeId value = throw failure) : failure = .invalidObjectId value := by
  unfold decodeId at h
  simp only at h
  split_ifs at h
  · exact (Except.error.inj (Option.some.inj h)).symm
  · rcases mapM_range_cases (fun index => decodePiece value (hexBytes value) (2 * index))
      ((hexBytes value).length / 2) with ⟨values, hvalues, -⟩ | ⟨k, -, -, ⟨other, hother, hwhole⟩ | ⟨-, hwhole⟩⟩
    · rw [hvalues] at h
      exact nomatch h
    · rw [hwhole] at h
      rw [← Except.error.inj (Option.some.inj h)]
      exact (decodePiece_throws_iff.mp hother).2.2
    · rw [hwhole] at h
      exact nomatch h

theorem toDigit_ascii {c : Char} {digit : ℕ} (h : toDigit c = some digit) :
    c.toNat < 128 ∧ digit < 16 := by
  have hbounds : ∀ a b : Char, a ≤ b ↔ a.toNat ≤ b.toNat := fun _ _ => Iff.rfl
  unfold toDigit at h
  simp only [hbounds] at h
  have h0 : '0'.toNat = 48 := rfl
  have h9 : '9'.toNat = 57 := rfl
  have ha : 'a'.toNat = 97 := rfl
  have hf : 'f'.toNat = 102 := rfl
  have hA : 'A'.toNat = 65 := rfl
  have hF : 'F'.toNat = 70 := rfl
  rw [h0, h9, ha, hf, hA, hF] at h
  split_ifs at h
  · rw [← Option.some.inj h]
    omega
  · rw [← Option.some.inj h]
    omega
  · rw [← Option.some.inj h]
    omega

theorem utf8_ascii {c : Char} (h : c.toNat < 128) :
    String.utf8EncodeChar c = [UInt8.ofNat c.toNat] := by
  unfold String.utf8EncodeChar
  exact if_pos (Nat.le_of_lt_succ h)

theorem byteDigit_ascii {c : Char} (h : c.toNat < 128) :
    byteDigit (UInt8.ofNat c.toNat) = toDigit c := by
  unfold byteDigit
  rw [UInt8.toNat_ofNat_of_lt' (Nat.lt_trans h (by decide)), Char.ofNat_toNat]

theorem utf8_beyond {c : Char} (h : 128 ≤ c.toNat) :
    ∃ byte ∈ String.utf8EncodeChar c, 128 ≤ byte.toNat := by
  have hsize : ∀ n, 128 ≤ n → n < 256 → 128 ≤ (UInt8.ofNat n).toNat := by
    intro n hle hlt
    rwa [UInt8.toNat_ofNat_of_lt' hlt]
  have hfirst : ¬ c.val.toNat ≤ 0x7f := Nat.not_le.mpr h
  unfold String.utf8EncodeChar
  simp only [hfirst, if_false]
  split_ifs
  · exact ⟨_, List.mem_cons_self, hsize _ (by omega) (by omega)⟩
  · exact ⟨_, List.mem_cons_self, hsize _ (by omega) (by omega)⟩
  · exact ⟨_, List.mem_cons_self, hsize _ (by omega) (by omega)⟩

theorem byteDigit_small {byte : UInt8} (h : (byteDigit byte).isSome) : byte.toNat < 128 := by
  obtain ⟨digit, hdigit⟩ := Option.isSome_iff_exists.mp h
  have hascii := (toDigit_ascii hdigit).1
  have hvalid : Nat.isValidChar byte.toNat := Or.inl (Nat.lt_trans byte.toNat_lt (by decide))
  have hchar : (Char.ofNat byte.toNat).toNat = byte.toNat := by
    unfold Char.ofNat
    rw [dif_pos hvalid]
    rfl
  rwa [hchar] at hascii

def AllDigits (text : List Char) : Prop := ∀ c ∈ text, (toDigit c).isSome

theorem utf8Bytes_cons (c : Char) (text : List Char) :
    utf8Bytes (c :: text) = String.utf8EncodeChar c ++ utf8Bytes text := rfl

theorem AllDigits.bytes {text : List Char} (h : AllDigits text) :
    utf8Bytes text = text.map fun c => UInt8.ofNat c.toNat := by
  induction text with
  | nil => rfl
  | cons c text ih =>
    obtain ⟨digit, hdigit⟩ := Option.isSome_iff_exists.mp (h c List.mem_cons_self)
    rw [utf8Bytes_cons, utf8_ascii (toDigit_ascii hdigit).1, List.map_cons, List.singleton_append,
      ih fun other hmem => h other (List.mem_cons_of_mem c hmem)]

theorem allDigits_iff {text : List Char} :
    AllDigits text ↔ ∀ byte ∈ utf8Bytes text, (byteDigit byte).isSome := by
  constructor
  · intro h byte hbyte
    rw [h.bytes] at hbyte
    obtain ⟨c, hc, rfl⟩ := List.mem_map.mp hbyte
    obtain ⟨digit, hdigit⟩ := Option.isSome_iff_exists.mp (h c hc)
    rw [byteDigit_ascii (toDigit_ascii hdigit).1]
    exact h c hc
  · intro h c hc
    have hmem : ∀ byte ∈ String.utf8EncodeChar c, (byteDigit byte).isSome := by
      intro byte hbyte
      exact h byte (List.mem_flatMap.mpr ⟨c, hc, hbyte⟩)
    by_cases hascii : c.toNat < 128
    · rw [← byteDigit_ascii hascii]
      apply hmem
      rw [utf8_ascii hascii]
      exact List.mem_singleton_self _
    · obtain ⟨byte, hbyte, hlarge⟩ := utf8_beyond (Nat.not_lt.mp hascii)
      have hsmall := byteDigit_small (hmem byte hbyte)
      omega

theorem hexValue_isSome_iff {text : List Char} :
    (hexValue text).isSome ↔ AllDigits text ∧ text.length % 2 = 0 := by
  induction text using hexValue.induct with
  | case1 => simp [hexValue, AllDigits]
  | case2 c => simp [hexValue]
  | case3 high low rest ih =>
    have hall : AllDigits (high :: low :: rest) ↔
        (toDigit high).isSome ∧ (toDigit low).isSome ∧ AllDigits rest := by
      simp [AllDigits]
    have hstep : (hexValue (high :: low :: rest)).isSome ↔
        (toDigit high).isSome ∧ (toDigit low).isSome ∧ (hexValue rest).isSome := by
      simp only [hexValue]
      rcases toDigit high with _ | highDigit
      · simp
      · rcases toDigit low with _ | lowDigit
        · simp
        · rcases hexValue rest with _ | bytes <;> simp
    rw [hstep, ih, hall, List.length_cons, List.length_cons, Nat.add_assoc, Nat.add_mod_right]
    simp only [and_assoc]

section
variable {value : String} {hex : Bytes} {index : ℕ}

theorem isCharBoundary_digits (digits : ∀ byte ∈ hex, (byteDigit byte).isSome) (le : index ≤ hex.length) :
    isCharBoundary hex index = true := by
  unfold isCharBoundary
  rcases Nat.lt_or_eq_of_le le with hlt | heq
  · have hbyte := List.getElem?_eq_getElem hlt
    have hsmall := byteDigit_small (digits hex[index] (List.getElem_mem hlt))
    rw [hbyte, Option.any_some]
    simp [hsmall]
  · simp [heq]

theorem fromStrRadix_digits {high low : UInt8} {highDigit lowDigit : ℕ}
    (hhigh : byteDigit high = some highDigit) (hlow : byteDigit low = some lowDigit) :
    fromStrRadix [high, low] = some (UInt8.ofNat (highDigit * 16 + lowDigit)) := by
  have hplus : high ≠ plusSign := by
    intro hsame
    have hnone : byteDigit plusSign = none := by decide
    rw [hsame, hnone] at hhigh
    exact nomatch hhigh
  have hhighBound := (toDigit_ascii hhigh).2
  have hlowBound := (toDigit_ascii hlow).2
  have hfirst : 0 * 16 + highDigit < 256 := by omega
  have hsecond : (0 * 16 + highDigit) * 16 + lowDigit < 256 := by omega
  have hsum : (0 * 16 + highDigit) * 16 + lowDigit = highDigit * 16 + lowDigit := by omega
  simp only [fromStrRadix, if_neg hplus, radixDigits, hhigh, hlow, Option.bind_eq_bind, Option.bind_some,
    if_pos hfirst, hsum]
  rw [hsum] at hsecond
  exact if_pos hsecond

theorem decodePieces_digits {text : List Char} {bytes : Bytes} (h : hexValue text = some bytes) :
    (utf8Bytes text).length = 2 * bytes.length ∧
      ∀ k (hk : k < bytes.length),
        decodePiece value (utf8Bytes text) (2 * k) = pure bytes[k] := by
  have hsome : (hexValue text).isSome := Option.isSome_of_eq_some h
  have hdigits := (hexValue_isSome_iff.mp hsome).1
  have hpieces : (utf8Bytes text).length = 2 * bytes.length ∧
      ∀ k (hk : k < bytes.length), fromStrRadix (pieceAt (utf8Bytes text) k) = some bytes[k] := by
    clear hsome
    induction text using hexValue.induct generalizing bytes with
    | case1 =>
      have hnil : [] = bytes := Option.some.inj h
      subst hnil
      exact ⟨rfl, fun k hk => absurd hk (Nat.not_lt_zero k)⟩
    | case2 c => exact absurd h (by simp [hexValue])
    | case3 high low rest ih =>
      simp only [hexValue, Option.bind_eq_bind, Option.bind_eq_some_iff, Option.some.injEq] at h
      obtain ⟨highDigit, hhigh, lowDigit, hlow, others, hrest, rfl⟩ := h
      have hascii := (toDigit_ascii hhigh).1
      have hasciiLow := (toDigit_ascii hlow).1
      obtain ⟨hlength, hothers⟩ := ih hrest fun c hc =>
        hdigits c (List.mem_cons_of_mem _ (List.mem_cons_of_mem _ hc))
      -- a digit is one byte of the text
      have htext : utf8Bytes (high :: low :: rest) =
          UInt8.ofNat high.toNat :: UInt8.ofNat low.toNat :: utf8Bytes rest := by
        rw [utf8Bytes_cons, utf8Bytes_cons, utf8_ascii hascii, utf8_ascii hasciiLow]
        rfl
      rw [htext]
      constructor
      · rw [List.length_cons, List.length_cons, hlength, List.length_cons]
        omega
      · intro k hk
        rcases k with _ | k
        · have hpiece : pieceAt (UInt8.ofNat high.toNat :: UInt8.ofNat low.toNat :: utf8Bytes rest) 0 =
              [UInt8.ofNat high.toNat, UInt8.ofNat low.toNat] := rfl
          rw [hpiece, fromStrRadix_digits ((byteDigit_ascii hascii).trans hhigh)
            ((byteDigit_ascii hasciiLow).trans hlow)]
          rfl
        · have hpiece : pieceAt (UInt8.ofNat high.toNat :: UInt8.ofNat low.toNat :: utf8Bytes rest)
              (k + 1) = pieceAt (utf8Bytes rest) k := by
            unfold pieceAt
            rw [Nat.mul_add, Nat.mul_one, List.drop_succ_cons, List.drop_succ_cons]
          rw [hpiece]
          exact hothers k (Nat.lt_of_succ_lt_succ hk)
  refine ⟨hpieces.1, fun k hk => decodePiece_ok_iff.mpr ⟨⟨?_, ?_⟩, hpieces.2 k hk⟩⟩
  · exact isCharBoundary_digits (allDigits_iff.mp hdigits) (by omega)
  · exact isCharBoundary_digits (allDigits_iff.mp hdigits) (by omega)

theorem mapM_range_pure {α : Type} {f : ℕ → ReadTask α} {values : List α}
    (h : ∀ k (hk : k < values.length), f k = pure values[k]) :
    (List.range values.length).mapM f = pure values := by
  induction values using List.reverseRecOn with
  | nil => rfl
  | append_singleton values last ih =>
    have hbefore : ∀ k (hk : k < values.length), f k = pure values[k] := by
      intro k hk
      have hwhole := h k (by rw [List.length_append]; exact Nat.lt_add_right _ hk)
      rwa [List.getElem_append_left hk] at hwhole
    have hlast := h values.length (by simp)
    rw [List.getElem_concat_length rfl] at hlast
    rw [List.length_append, List.length_singleton, List.range_succ, List.mapM_append, ih hbefore,
      pure_bind, List.mapM_cons, hlast]
    rfl

theorem decodeId_digits {bytes : Bytes} (h : hexValue (afterColon value.toList) = some bytes) :
    decodeId value = pure bytes := by
  obtain ⟨hlength, hpieces⟩ := @decodePieces_digits value _ _ h
  have heven : ¬ (hexBytes value).length % 2 ≠ 0 := by
    unfold hexBytes
    omega
  have hhalf : (hexBytes value).length / 2 = bytes.length := by
    unfold hexBytes
    omega
  unfold decodeId
  rw [if_neg heven, hhalf]
  exact mapM_range_pure hpieces

end

/-- An even number of digits gives their value, and anything else is refused. -/
def DecodesExactly (value : String) : Prop :=
  (decodeId value).run = some (match hexValue (afterColon value.toList) with
    | some bytes => .ok bytes
    | none => .error (.invalidObjectId value))

/-- The bytes are odd in number, or digits; or the first piece that cannot be parsed comes before any
that does not end at a char boundary. -/
def Decodable (hex : Bytes) : Prop :=
  hex.length % 2 = 1 ∨ (∀ byte ∈ hex, (byteDigit byte).isSome) ∨
    ∃ k < hex.length / 2, (∀ j ≤ k, isCharBoundary hex (2 * j + 2) = true) ∧
      (∀ j < k, (fromStrRadix (pieceAt hex j)).isSome) ∧ fromStrRadix (pieceAt hex k) = none

section
variable {value : String} {hex : Bytes}

theorem AllDigits.even_iff {text : List Char} (h : AllDigits text) :
    (utf8Bytes text).length % 2 = 0 ↔ (hexValue text).isSome := by
  rw [hexValue_isSome_iff, h.bytes, List.length_map]
  exact (and_iff_right h).symm

theorem whole_of_boundaries {k : ℕ} (h : ∀ j ≤ k, isCharBoundary hex (2 * j + 2) = true) : Whole hex k := by
  refine ⟨?_, h k le_rfl⟩
  rcases k with _ | k
  · rfl
  · have hbefore := h k (Nat.le_succ k)
    rwa [Nat.mul_succ]

theorem decodeId_odd (h : (hexBytes value).length % 2 = 1) :
    (decodeId value).run = some (.error (.invalidObjectId value)) := by
  have hne : (hexBytes value).length % 2 ≠ 0 := by omega
  unfold decodeId
  rw [if_pos hne]
  rfl

/-- Of an even number of bytes every piece is parsed, or the first that is not is refused or cuts a
character. -/
theorem decodeId_even (h : (hexBytes value).length % 2 = 0) :
    (∃ bytes, (decodeId value).run = some (.ok bytes) ∧
      ∀ k < (hexBytes value).length / 2, (fromStrRadix (pieceAt (hexBytes value) k)).isSome) ∨
    ∃ k < (hexBytes value).length / 2,
      (∀ j < k, Whole (hexBytes value) j ∧ (fromStrRadix (pieceAt (hexBytes value) j)).isSome) ∧
      ((decodeId value).run = some (.error (.invalidObjectId value)) ∧ Whole (hexBytes value) k ∧
          fromStrRadix (pieceAt (hexBytes value) k) = none ∨
        (decodeId value).run = none ∧ ¬ Whole (hexBytes value) k) := by
  have hdecoded : decodeId value = (List.range ((hexBytes value).length / 2)).mapM
      fun index => decodePiece value (hexBytes value) (2 * index) := by
    unfold decodeId
    exact if_neg (not_not.mpr h)
  have hparsed : ∀ k, (∃ byte, decodePiece value (hexBytes value) (2 * k) = pure byte) →
      Whole (hexBytes value) k ∧ (fromStrRadix (pieceAt (hexBytes value) k)).isSome := by
    rintro k ⟨byte, hbyte⟩
    obtain ⟨hwhole, hsome⟩ := decodePiece_ok_iff.mp hbyte
    exact ⟨hwhole, Option.isSome_of_eq_some hsome⟩
  rw [hdecoded]
  rcases mapM_range_cases (fun index => decodePiece value (hexBytes value) (2 * index))
    ((hexBytes value).length / 2) with ⟨values, hvalues, hpieces⟩ | ⟨k, hk, hbefore, hstops⟩
  · left
    rw [hvalues]
    exact ⟨values, rfl, fun k hk => (hparsed k (hpieces k hk)).2⟩
  · right
    refine ⟨k, hk, fun j hj => hparsed j (hbefore j hj), ?_⟩
    rcases hstops with ⟨failure, hfails, hwhole⟩ | ⟨hpanics, hwhole⟩
    · obtain ⟨hends, hnone, rfl⟩ := decodePiece_throws_iff.mp hfails
      rw [hwhole]
      exact Or.inl ⟨rfl, hends, hnone⟩
    · rw [hwhole]
      exact Or.inr ⟨rfl, decodePiece_panics_iff.mp hpanics⟩

theorem decodesExactly_digits (h : (hexValue (afterColon value.toList)).isSome) : DecodesExactly value := by
  obtain ⟨bytes, hbytes⟩ := Option.isSome_iff_exists.mp h
  unfold DecodesExactly
  rw [decodeId_digits hbytes, hbytes]
  rfl

theorem decodesExactly_of_none (h : hexValue (afterColon value.toList) = none) :
    DecodesExactly value ↔ (decodeId value).run = some (.error (.invalidObjectId value)) := by
  unfold DecodesExactly
  rw [h]

theorem decodesExactly_iff (value : String) : DecodesExactly value ↔ Decodable (hexBytes value) := by
  have hhex : hexBytes value = utf8Bytes (afterColon value.toList) := rfl
  have hall : (hexBytes value).length % 2 = 0 →
      ((∀ byte ∈ hexBytes value, (byteDigit byte).isSome) ↔
        (hexValue (afterColon value.toList)).isSome) := by
    intro heven
    rw [hhex, ← allDigits_iff]
    exact ⟨fun h => h.even_iff.mp heven, fun h => (hexValue_isSome_iff.mp h).1⟩
  -- digits are decoded; of the rest the question is what is refused
  by_cases hsome : (hexValue (afterColon value.toList)).isSome
  · refine iff_of_true (decodesExactly_digits hsome) (Or.inr (Or.inl ?_))
    rw [hhex]
    exact allDigits_iff.mp (hexValue_isSome_iff.mp hsome).1
  rw [decodesExactly_of_none (Option.not_isSome_iff_eq_none.mp hsome)]
  rcases Nat.mod_two_eq_zero_or_one (hexBytes value).length with heven | hodd
  · have hdigits := mt (hall heven).mp hsome
    rcases decodeId_even heven with ⟨bytes, hok, hpieces⟩ | ⟨k, hk, hbefore, hstops⟩
    · -- every piece is parsed
      rw [hok]
      refine iff_of_false (by simp) ?_
      rintro (hodd | hbytes | ⟨k, hk, -, -, hnone⟩)
      · omega
      · exact hdigits hbytes
      · have hparsed := hpieces k hk
        rw [hnone] at hparsed
        exact nomatch hparsed
    · rcases hstops with ⟨herror, hwhole, hnone⟩ | ⟨hpanic, hcut⟩
      · -- the first piece that is not parsed is refused
        refine iff_of_true herror (Or.inr (Or.inr ⟨k, hk, ?_, fun j hj => (hbefore j hj).2, hnone⟩))
        intro j hj
        rcases Nat.lt_or_eq_of_le hj with hlt | rfl
        · exact (hbefore j hlt).1.2
        · exact hwhole.2
      · -- a piece that cuts a character panics
        rw [hpanic]
        refine iff_of_false (by simp) ?_
        rintro (hodd | hbytes | ⟨first, hfirst, hends, -, hnone⟩)
        · omega
        · exact hdigits hbytes
        · rcases Nat.lt_or_ge first k with hlt | hge
          · have hfound := (hbefore first hlt).2
            rw [hnone] at hfound
            exact nomatch hfound
          · exact hcut (whole_of_boundaries fun j hj => hends j (hj.trans hge))
  · exact iff_of_true (decodeId_odd hodd) (Or.inl hodd)

end

theorem toDigit_hexDigit {digit : ℕ} (h : digit < 16) : toDigit (hexDigit digit) = some digit := by
  have hall : ∀ d : Fin 16, toDigit (hexDigit d.val) = some d.val := by decide
  exact hall ⟨digit, h⟩

theorem hexValue_digits (bytes : Bytes) :
    hexValue (bytes.flatMap fun byte => [hexDigit (byte.toNat / 16), hexDigit (byte.toNat % 16)]) =
      some bytes := by
  induction bytes with
  | nil => rfl
  | cons byte bytes ih =>
    have hhigh : byte.toNat / 16 < 16 := Nat.div_lt_of_lt_mul byte.toNat_lt
    have hlow : byte.toNat % 16 < 16 := Nat.mod_lt _ (by decide)
    have hbyte : byte.toNat / 16 * 16 + byte.toNat % 16 = byte.toNat := Nat.div_add_mod' _ _
    simp only [List.flatMap_cons, List.cons_append, List.nil_append, hexValue, toDigit_hexDigit hhigh,
      toDigit_hexDigit hlow, ih, hbyte, Option.bind_eq_bind, Option.bind_some, UInt8.ofNat_toNat]

theorem decodeId_operationText (bytes : Bytes) : decodeId (operationText bytes) = pure bytes := by
  apply decodeId_digits
  have hafter : afterColon (operationText bytes).toList = (hexText bytes).toList := by
    unfold operationText
    rw [String.toList_append]
    rfl
  rw [hafter]
  unfold hexText
  rw [String.toList_ofList]
  exact hexValue_digits bytes

/-- Ids are decoded as they should be exactly when no sign and no cut character is met, and those of
the recorder always are. -/
theorem object_ids_decoded (value : String) (bytes : Bytes) :
    (DecodesExactly value ↔ Decodable (hexBytes value)) ∧
      (decodeId (operationText bytes)).run = some (.ok bytes) := by
  constructor
  · exact decodesExactly_iff value
  · rw [decodeId_operationText]
    rfl

/-- A character cut in two panics, and a plus sign passes for a digit. -/
theorem object_ids_cut_and_signed :
    ((decodeId "op:aéb").run = none ∧ ¬ DecodesExactly "op:aéb") ∧
      (decodeId "op:+f").run = some (.ok [15]) ∧ ¬ DecodesExactly "op:+f" := by
  have hcut : (decodeId "op:aéb").run = none := by decide +kernel
  have hsigned : (decodeId "op:+f").run = some (.ok [15]) := by decide +kernel
  refine ⟨⟨hcut, ?_⟩, hsigned, ?_⟩
  · intro hexact
    unfold DecodesExactly at hexact
    rw [hcut] at hexact
    exact nomatch hexact
  · intro hexact
    have hvalue : hexValue (afterColon "op:+f".toList) = none := by decide +kernel
    unfold DecodesExactly at hexact
    rw [hsigned, hvalue] at hexact
    exact absurd (Option.some.inj hexact) (by simp)

end Rrjj
