import Rrjj.Library.JsValue

/-! JavaScript values as text: what `String` and `Number` make of data, and the text of a node as
markup. What throws is `none`. -/

namespace Library

namespace JsText

theorem encodeChar_ne_nil (c : Char) : encodeChar c ≠ [] := by
  unfold encodeChar
  split_ifs <;> exact List.cons_ne_nil _ _

theorem ofNat_inj {m n : ℕ} (hm : m < 0x10000) (hn : n < 0x10000)
    (h : UInt16.ofNat m = UInt16.ofNat n) : m = n := by
  have hnat := congrArg UInt16.toNat h
  rwa [UInt16.toNat_ofNat', UInt16.toNat_ofNat', Nat.mod_eq_of_lt hm, Nat.mod_eq_of_lt hn] at hnat

theorem encodeChar_inj {c d : Char} {rest more : JsText}
    (h : encodeChar c ++ rest = encodeChar d ++ more) : c = d ∧ rest = more := by
  have hc : c.toNat < 0xd800 ∨ 0xdfff < c.toNat ∧ c.toNat < 0x110000 := c.valid
  have hd : d.toNat < 0xd800 ∨ 0xdfff < d.toNat ∧ d.toNat < 0x110000 := d.valid
  have hsame : ∀ {n : ℕ}, c.toNat = n → d.toNat = n → c = d := by
    intro n hcn hdn
    rw [← Char.ofNat_toNat c, ← Char.ofNat_toNat d, hcn, hdn]
  unfold encodeChar at h
  split_ifs at h with hlow hother hother
  · obtain ⟨hunit, hrest⟩ := List.cons.inj h
    have hvalue := ofNat_inj (by omega) (by omega) hunit
    exact ⟨hsame hvalue rfl, hrest⟩
  · obtain ⟨hunit, -⟩ := List.cons.inj h
    have hvalue := ofNat_inj (by omega) (by omega) hunit
    omega
  · obtain ⟨hunit, -⟩ := List.cons.inj h
    have hvalue := ofNat_inj (by omega) (by omega) hunit
    omega
  · obtain ⟨hfirst, htail⟩ := List.cons.inj h
    obtain ⟨hsecond, hrest⟩ := List.cons.inj htail
    have hhigh := ofNat_inj (by omega) (by omega) hfirst
    have hlow := ofNat_inj (by omega) (by omega) hsecond
    exact ⟨hsame (by omega) rfl, hrest⟩

theorem of_injective {first second : String} (h : JsText.of first = JsText.of second) : first = second := by
  have hall : ∀ a b : List Char, a.flatMap encodeChar = b.flatMap encodeChar → a = b := by
    intro a
    induction a with
    | nil =>
      intro b hb
      cases b with
      | nil => rfl
      | cons c b => exact absurd (List.append_eq_nil_iff.mp hb.symm).1 (encodeChar_ne_nil c)
    | cons c a ih =>
      intro b hb
      cases b with
      | nil => exact absurd (List.append_eq_nil_iff.mp hb).1 (encodeChar_ne_nil c)
      | cons d b =>
        obtain ⟨rfl, hrest⟩ := encodeChar_inj hb
        rw [ih b hrest]
  exact String.toList_inj.mp (hall _ _ h)

def join (separator : String) (texts : List JsText) : JsText :=
  (texts.intersperse (JsText.of separator)).flatten

def lessThan : UInt16 := 60
def greaterThan : UInt16 := 62
def ampersand : UInt16 := 38
def noBreakSpace : UInt16 := 160

def escapeUnit (unit : UInt16) : JsText :=
  if unit = ampersand then .of "&amp;"
  else if unit = noBreakSpace then .of "&nbsp;"
  else if unit = lessThan then .of "&lt;"
  else if unit = greaterThan then .of "&gt;"
  else [unit]

def escape (text : JsText) : JsText := text.flatMap escapeUnit

def Inert (text : JsText) : Prop := lessThan ∉ text ∧ greaterThan ∉ text

theorem escape_inert (text : JsText) : (escape text).Inert := by
  have hunit : ∀ unit : UInt16, (escapeUnit unit).Inert := by
    intro unit
    unfold escapeUnit
    split_ifs with hamp hspace hless hgreater
    · exact ⟨by decide, by decide⟩
    · exact ⟨by decide, by decide⟩
    · exact ⟨by decide, by decide⟩
    · exact ⟨by decide, by decide⟩
    · exact ⟨fun h => hless (List.mem_singleton.mp h).symm, fun h => hgreater (List.mem_singleton.mp h).symm⟩
  constructor <;> intro h
  · obtain ⟨unit, -, hmem⟩ := List.mem_flatMap.mp h
    exact (hunit unit).1 hmem
  · obtain ⟨unit, -, hmem⟩ := List.mem_flatMap.mp h
    exact (hunit unit).2 hmem

end JsText

structure JsHost where
  numberText : JsNumber → JsText
  toNumber : JsText → JsNumber
  add : JsNumber → JsNumber → JsNumber
  stringify : JsValue → JsText

namespace JsValue

def isText (text : String) : JsValue → Bool
  | .text value => value == JsText.of text
  | _ => false

def isNullish : JsValue → Bool
  | .undefined | .null => true
  | _ => false

def isTruthy : JsValue → Bool
  | .undefined | .null | .number .nan => false
  | .bool value => value
  | .number (.finite value) => value ≠ 0
  | .text value => !value.isEmpty
  | _ => true

def property (key : String) (value : JsValue) : Option JsValue :=
  if value.isNullish then none else some (value.get key)

def elements? : JsValue → Option (List JsValue)
  | .array elements => some elements
  | _ => none

section
variable (host : JsHost)

mutual
def toText : JsValue → Option JsText
  | .undefined => some (.of "undefined")
  | .null => some (.of "null")
  | .bool value => some (.of (toString value))
  | .number value => some (host.numberText value)
  | .text value => some value
  | .array elements => (elementTexts elements).map (JsText.join ",")
  | .object fields =>
    if (fields.lookup (JsText.of "toString")).isSome then none else some (.of "[object Object]")
  | .other => none

def elementTexts : List JsValue → Option (List JsText)
  | [] => some []
  | element :: rest => do
    let text ← if element.isNullish then some [] else element.toText
    let texts ← elementTexts rest
    return text :: texts
end

def toNumber : JsValue → Option JsNumber
  | .undefined => some .nan
  | .null => some (.finite 0)
  | .bool value => some (.finite (if value then 1 else 0))
  | .number value => some value
  | value => (value.toText host).map host.toNumber

end

def ownValues : JsValue → List JsValue
  | .array elements => elements
  | .object fields => fields.map Prod.snd
  | .text units => units.map fun unit => .text [unit]
  | _ => []

def sameValue : JsValue → JsValue → Bool
  | .undefined, .undefined | .null, .null => true
  | .bool first, .bool second => first == second
  | .number first, .number second => first == second
  | .text first, .text second => first == second
  | _, _ => false

def distinct (values : List JsValue) : List JsValue :=
  values.foldl (fun kept value => if kept.any (sameValue value) then kept else kept ++ [value]) []

end JsValue
end Library
