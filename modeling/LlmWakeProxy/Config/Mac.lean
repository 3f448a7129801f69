import Mathlib.Data.List.Forall2
import Mathlib.Tactic.IntervalCases
import LlmWakeProxy.Config.Env
import LlmWakeProxy.Library.JsonString
import LlmWakeProxy.Library.Lines

/-!
The hardware address of the host. `parse_mac` hands each of six groups to
`u8::from_str_radix`, which reads more than two digits: a plus sign may lead, leading
zeros do not count, and one digit is enough.
-/

namespace LlmWakeProxy.Config
open LlmWakeProxy.Forward (Text)
open LlmWakeProxy.Library

/-- The two hexadecimal digits, of either case, of a byte. -/
def Denotes (group : Text) (byte : UInt8) : Prop :=
  ∃ high low h l, group = [high, low] ∧ Json.hexValue high = some h ∧
    Json.hexValue low = some l ∧ byte.toNat = 16 * h + l

/-- `XX:XX:XX:XX:XX:XX`, for the address. -/
def MacFormat (input : Text) (mac : Vector UInt8 6) : Prop :=
  ∃ groups, input = [':'].intercalate groups ∧ List.Forall₂ Denotes groups mac.toList

/-- The input is read as an address exactly when it is one in the documented format. -/
def ReadAsDocumented (input : Text) : Prop :=
  ∀ mac, parseMac input = some mac ↔ MacFormat input mac

def isHexDigit (c : Char) : Bool := (Json.hexValue c).isSome

/-- What `u8::from_str_radix` reads: a plus sign perhaps, zeros, and at most two more
digits. -/
def HexNumeral (group : Text) : Prop :=
  ∃ sign ∈ [[], ['+']], ∃ zeros digits, group = sign ++ (zeros ++ digits) ∧
    (∀ c ∈ zeros, c = '0') ∧ (∀ c ∈ digits, isHexDigit c = true) ∧ digits.length ≤ 2 ∧
    zeros ++ digits ≠ []

def TwoHexDigits (group : Text) : Prop :=
  group.length = 2 ∧ ∀ c ∈ group, isHexDigit c = true

/-- Six numerals with single colons between them, which are not all two digits. -/
def LooseMac (input : Text) : Prop :=
  ∃ groups, input = [':'].intercalate groups ∧ groups.length = 6 ∧
    (∀ group ∈ groups, HexNumeral group) ∧ ∃ group ∈ groups, ¬ TwoHexDigits group

def lowerDigit (n : Nat) : Char := Json.hexDigit n

def upperDigit (n : Nat) : Char := if n < 10 then Char.ofNat (0x30 + n) else Char.ofNat (0x37 + n)

/-- The address in the documented format, with digits of one case. -/
def formatMac (digit : Nat → Char) (mac : Vector UInt8 6) : Text :=
  [':'].intercalate
    (mac.toList.map fun byte => [digit (byte.toNat / 16), digit (byte.toNat % 16)])

/-! ### A group -/

theorem char_le_iff {a b : Char} : a ≤ b ↔ a.toNat ≤ b.toNat := Iff.rfl

theorem toDigit_eq_hexValue (c : Char) : toDigit 16 c = Json.hexValue c := by
  simp only [toDigit, Json.hexValue, char_le_iff, Char.reduceToNat]
  split_ifs <;> simp <;> omega

theorem hexValue_lt {c : Char} {n : Nat} (h : Json.hexValue c = some n) : n < 16 := by
  simp only [Json.hexValue, char_le_iff, Char.reduceToNat] at h
  split_ifs at h <;> cases h <;> omega

theorem hexValue_eq_zero {c : Char} (h : Json.hexValue c = some 0) : c = '0' := by
  simp only [Json.hexValue, char_le_iff, Char.reduceToNat] at h
  split_ifs at h with hdigit
  · have hval : c.toNat = 48 := by
      have := Option.some.inj h
      omega
    exact Char.toNat_inj.mp hval
  · cases h
  · cases h

theorem readDigits_cons {radix bound acc v : Nat} {c : Char} {rest : Text}
    (h : readDigits radix bound acc (c :: rest) = some v) :
    ∃ digit, toDigit radix c = some digit ∧ acc * radix + digit < bound ∧
      readDigits radix bound (acc * radix + digit) rest = some v := by
  obtain ⟨digit, hdigit, h⟩ := Option.bind_eq_some_iff.mp h
  split at h
  next hbound => exact ⟨digit, hdigit, hbound, h⟩
  next => cases h

/-- What is read is at least what the digits so far count for, and every character is a
digit. -/
theorem readDigits_le {radix bound acc v : Nat} {text : Text}
    (h : readDigits radix bound acc text = some v) :
    acc * radix ^ text.length ≤ v ∧ ∀ c ∈ text, (toDigit radix c).isSome := by
  induction text generalizing acc with
  | nil =>
      cases h
      simp
  | cons c rest ih =>
      obtain ⟨digit, hdigit, _, h⟩ := readDigits_cons h
      obtain ⟨hle, hrest⟩ := ih h
      constructor
      · calc acc * radix ^ (c :: rest).length
            = acc * radix * radix ^ rest.length := by
              rw [List.length_cons, Nat.pow_succ', Nat.mul_assoc]
          _ ≤ (acc * radix + digit) * radix ^ rest.length :=
              Nat.mul_le_mul_right _ (Nat.le_add_right _ _)
          _ ≤ v := hle
      · simpa [hdigit] using hrest

theorem readDigits_lt {radix bound acc v : Nat} {text : Text}
    (h : readDigits radix bound acc text = some v) (hacc : acc < bound) : v < bound := by
  induction text generalizing acc with
  | nil =>
      cases h
      exact hacc
  | cons c rest ih =>
      obtain ⟨digit, _, hbound, h⟩ := readDigits_cons h
      exact ih h hbound

theorem readDigits_zeros {zeros : Text} (hzeros : ∀ c ∈ zeros, c = '0') (digits : Text) :
    readDigits 16 UInt8.size 0 (zeros ++ digits) = readDigits 16 UInt8.size 0 digits := by
  induction zeros with
  | nil => rfl
  | cons c rest ih =>
      obtain rfl := hzeros c List.mem_cons_self
      exact ih fun c hc => hzeros c (List.mem_cons_of_mem _ hc)

/-- After a digit that is not a zero there is room for one more. -/
theorem readDigits_shape {text : Text} {v : Nat}
    (h : readDigits 16 UInt8.size 0 text = some v) :
    ∃ zeros digits, text = zeros ++ digits ∧ (∀ c ∈ zeros, c = '0') ∧
      (∀ c ∈ digits, isHexDigit c = true) ∧ digits.length ≤ 2 := by
  induction text with
  | nil => exact ⟨[], [], rfl, by simp, by simp, by simp⟩
  | cons c rest ih =>
      have hdigits := (readDigits_le h).2
      have hv : v < UInt8.size := readDigits_lt h (by decide)
      obtain ⟨digit, hdigit, _, h⟩ := readDigits_cons h
      rcases Nat.eq_zero_or_pos digit with rfl | hpos
      · obtain ⟨zeros, digits, rfl, hzeros, hrest⟩ := ih h
        have hc : c = '0' := hexValue_eq_zero (toDigit_eq_hexValue c ▸ hdigit)
        exact ⟨c :: zeros, digits, rfl, by simpa [hc] using hzeros, hrest⟩
      · have hlength : rest.length < 2 := by
          have hle := (readDigits_le h).1
          have hpow : 16 ^ rest.length < 16 ^ 2 :=
            calc 16 ^ rest.length ≤ (0 * 16 + digit) * 16 ^ rest.length :=
                  Nat.le_mul_of_pos_left _ (by omega)
              _ ≤ v := hle
              _ < 16 ^ 2 := hv
          exact (Nat.pow_lt_pow_iff_right (by decide)).mp hpow
        refine ⟨[], c :: rest, rfl, by simp, fun d hd => ?_, ?_⟩
        · rw [isHexDigit, ← toDigit_eq_hexValue]
          exact hdigits d hd
        · rw [List.length_cons]
          omega

/-- A number of two digits, and so of one, is below the bound of a byte. -/
theorem readDigits_two {high low : Char} {h l : Nat} (hhigh : Json.hexValue high = some h)
    (hlow : Json.hexValue low = some l) :
    readDigits 16 UInt8.size 0 [high, low] = some (16 * h + l) ∧
      readDigits 16 UInt8.size 0 [low] = some l := by
  have hh := hexValue_lt hhigh
  have hl := hexValue_lt hlow
  have hsize : UInt8.size = 256 := rfl
  constructor
  · simp only [readDigits, toDigit_eq_hexValue, hhigh, hlow, Option.bind_eq_bind,
      Option.bind_some]
    rw [if_pos (by omega), if_pos (by omega)]
    congr 1
    omega
  · simp only [readDigits, toDigit_eq_hexValue, hlow, Option.bind_eq_bind, Option.bind_some]
    rw [if_pos (by omega)]
    congr 1
    omega

theorem fromStrRadix_eq_some {radix bound v : Nat} {text : Text} :
    fromStrRadix radix bound text = some v ↔
      ∃ sign ∈ [[], ['+']], ∃ body, text = sign ++ body ∧ body ≠ [] ∧
        readDigits radix bound 0 body = some v := by
  constructor
  · intro h
    unfold fromStrRadix at h
    split at h
    next => cases h
    next => cases h
    next digits hdigits =>
      exact ⟨['+'], by simp, digits, rfl, fun hnil => hdigits (hnil ▸ rfl), h⟩
    next hnil _ _ => exact ⟨[], by simp, text, rfl, hnil, h⟩
  · rintro ⟨sign, hsign, body, rfl, hbody, h⟩
    obtain ⟨c, rest, rfl⟩ := List.exists_cons_of_ne_nil hbody
    have hc : c ≠ '+' := by
      rintro rfl
      simp [readDigits, toDigit] at h
    rcases List.mem_pair.mp hsign with rfl | rfl
    · rw [List.nil_append, ← h]
      unfold fromStrRadix
      split
      next => contradiction
      next heq => exact absurd (List.cons.inj heq).1 hc
      next heq => exact absurd (List.cons.inj heq).1 hc
      next => rfl
    · exact h

theorem hexNumeral_iff {group : Text} :
    HexNumeral group ↔ ∃ byte, parseU8Hex group = some byte := by
  simp only [parseU8Hex, Option.map_eq_some_iff, fromStrRadix_eq_some]
  constructor
  · rintro ⟨sign, hsign, zeros, digits, rfl, hzeros, hdigits, hlength, hbody⟩
    suffices h : ∃ v, readDigits 16 UInt8.size 0 digits = some v by
      obtain ⟨v, hv⟩ := h
      exact ⟨_, v, ⟨sign, hsign, zeros ++ digits, rfl, hbody,
        (readDigits_zeros hzeros digits).trans hv⟩, rfl⟩
    rcases digits with _ | ⟨high, _ | ⟨low, _ | ⟨extra, rest⟩⟩⟩
    · exact ⟨0, rfl⟩
    · obtain ⟨l, hl⟩ := Option.isSome_iff_exists.mp (hdigits high (by simp))
      exact ⟨l, (readDigits_two hl hl).2⟩
    · obtain ⟨h, hh⟩ := Option.isSome_iff_exists.mp (hdigits high (by simp))
      obtain ⟨l, hl⟩ := Option.isSome_iff_exists.mp (hdigits low (by simp))
      exact ⟨16 * h + l, (readDigits_two hh hl).1⟩
    · simp at hlength
  · rintro ⟨_, v, ⟨sign, hsign, body, rfl, hbody, hread⟩, -⟩
    obtain ⟨zeros, digits, rfl, hzeros, hdigits, hlength⟩ := readDigits_shape hread
    exact ⟨sign, hsign, zeros, digits, rfl, hzeros, hdigits, hlength, hbody⟩

theorem Denotes.twoHexDigits {group : Text} {byte : UInt8} (h : Denotes group byte) :
    TwoHexDigits group := by
  obtain ⟨high, low, _, _, rfl, hhigh, hlow, -⟩ := h
  simp [TwoHexDigits, isHexDigit, hhigh, hlow]

theorem Denotes.parseU8Hex_eq {group : Text} {byte : UInt8} (h : Denotes group byte) :
    parseU8Hex group = some byte := by
  obtain ⟨high, low, h, l, rfl, hhigh, hlow, hbyte⟩ := h
  have hread : fromStrRadix 16 UInt8.size [high, low] = some (16 * h + l) :=
    fromStrRadix_eq_some.mpr
      ⟨[], by simp, [high, low], rfl, by simp, (readDigits_two hhigh hlow).1⟩
  rw [parseU8Hex, hread, ← hbyte]
  exact congrArg some (UInt8.ofNat_toNat)

/-- Two digits are read as what they denote. -/
theorem denotes_of_parseU8Hex {group : Text} {byte : UInt8} (htwo : TwoHexDigits group)
    (h : parseU8Hex group = some byte) : Denotes group byte := by
  obtain ⟨hlength, hdigits⟩ := htwo
  obtain ⟨high, low, rfl⟩ := List.length_eq_two.mp hlength
  obtain ⟨x, hx⟩ := Option.isSome_iff_exists.mp (hdigits high (by simp))
  obtain ⟨y, hy⟩ := Option.isSome_iff_exists.mp (hdigits low (by simp))
  have hlt : 16 * x + y < UInt8.size := by
    have hx := hexValue_lt hx
    have hy := hexValue_lt hy
    have hsize : UInt8.size = 256 := rfl
    omega
  have hdenotes : Denotes [high, low] (UInt8.ofNat (16 * x + y)) :=
    ⟨high, low, x, y, rfl, hx, hy, UInt8.toNat_ofNat_of_lt' hlt⟩
  rw [hdenotes.parseU8Hex_eq] at h
  exact Option.some.inj h ▸ hdenotes

/-! ### The groups -/

theorem HexNumeral.no_colon {group : Text} (h : HexNumeral group) : ':' ∉ group := by
  obtain ⟨sign, hsign, zeros, digits, rfl, hzeros, hdigits, -, -⟩ := h
  have hcolon : isHexDigit ':' = false := by decide
  intro hmem
  rcases List.mem_append.mp hmem with hmem | hmem
  · rcases List.mem_pair.mp hsign with rfl | rfl <;> simp at hmem
  · rcases List.mem_append.mp hmem with hmem | hmem
    · exact absurd (hzeros _ hmem) (by decide)
    · exact absurd (hdigits _ hmem) (by simp [hcolon])

/-- The loop over the groups, as the groups and the bytes side by side. -/
theorem parseMac_eq_some {input : Text} {mac : Vector UInt8 6} :
    parseMac input = some mac ↔
      List.Forall₂ (fun group byte => parseU8Hex group = some byte) (input.splitOn ':')
        mac.toList := by
  constructor
  · intro h
    unfold parseMac at h
    split at h
    next hsplit =>
      simp only [Option.bind_eq_bind, Option.bind_eq_some_iff] at h
      obtain ⟨_, ha, _, hb, _, hc, _, hd, _, he, _, hf, h⟩ := h
      cases h
      rw [hsplit]
      exact .cons ha (.cons hb (.cons hc (.cons hd (.cons he (.cons hf .nil)))))
    next => cases h
  · intro h
    have hmac : mac = #v[mac[0], mac[1], mac[2], mac[3], mac[4], mac[5]] := by
      ext i hi
      interval_cases i <;> rfl
    rw [hmac] at h ⊢
    generalize hsplit : input.splitOn ':' = groups at h
    rcases h with _ | ⟨ha, _ | ⟨hb, _ | ⟨hc, _ | ⟨hd, _ | ⟨he, _ | ⟨hf, _ | _⟩⟩⟩⟩⟩⟩
    simp only [parseMac, hsplit, ha, hb, hc, hd, he, hf]
    rfl

/-- What follows of every group from what it is paired with. -/
theorem forall_groups {P : Text → Prop} {R : Text → UInt8 → Prop} {groups : List Text}
    {bytes : List UInt8} (h : List.Forall₂ R groups bytes)
    (hgroup : ∀ group byte, R group byte → P group) : ∀ group ∈ groups, P group :=
  ((List.forall₂_and_left groups bytes).mp
    (h.imp fun group byte hr => ⟨hgroup group byte hr, hr⟩)).1

theorem splitOn_groups {groups : List Text} (hlength : groups.length = 6)
    (hnumeral : ∀ group ∈ groups, HexNumeral group) :
    ([':'].intercalate groups).splitOn ':' = groups :=
  List.splitOn_intercalate ':' (fun group hgroup => (hnumeral group hgroup).no_colon)
    (fun hnil => by simp [hnil] at hlength)

/-- The groups of an address in the documented format are what the input is divided
into. -/
theorem MacFormat.splitOn {input : Text} {mac : Vector UInt8 6} (h : MacFormat input mac) :
    List.Forall₂ Denotes (input.splitOn ':') mac.toList := by
  obtain ⟨groups, rfl, h⟩ := h
  have hnumeral : ∀ group ∈ groups, HexNumeral group :=
    forall_groups h fun _ byte hd => hexNumeral_iff.mpr ⟨byte, hd.parseU8Hex_eq⟩
  rwa [splitOn_groups (h.length_eq.trans mac.size_toArray) hnumeral]

theorem MacFormat.parseMac_eq {input : Text} {mac : Vector UInt8 6} (h : MacFormat input mac) :
    parseMac input = some mac :=
  parseMac_eq_some.mpr (h.splitOn.imp fun _ _ => Denotes.parseU8Hex_eq)

/-- Six numerals are read as some address. -/
theorem exists_parseMac {groups : List Text} (hlength : groups.length = 6)
    (hnumeral : ∀ group ∈ groups, HexNumeral group) :
    ∃ mac, parseMac ([':'].intercalate groups) = some mac := by
  let bytes := groups.map fun group => (parseU8Hex group).getD 0
  refine ⟨⟨bytes.toArray, by simp [bytes, hlength]⟩, parseMac_eq_some.mpr ?_⟩
  rw [splitOn_groups hlength hnumeral]
  refine List.forall₂_map_right_iff.mpr (List.forall₂_same.mpr fun group hgroup => ?_)
  obtain ⟨byte, hbyte⟩ := hexNumeral_iff.mp (hnumeral group hgroup)
  simp [hbyte]

theorem readAsDocumented_iff {input : Text} : ReadAsDocumented input ↔ ¬ LooseMac input := by
  constructor
  · rintro hread ⟨groups, rfl, hlength, hnumeral, group, hgroup, hloose⟩
    obtain ⟨mac, hmac⟩ := exists_parseMac hlength hnumeral
    have hformat := ((hread mac).mp hmac).splitOn
    rw [splitOn_groups hlength hnumeral] at hformat
    have htwo : ∀ group ∈ groups, TwoHexDigits group :=
      forall_groups hformat fun _ _ hd => hd.twoHexDigits
    exact hloose (htwo group hgroup)
  · intro hloose mac
    refine ⟨fun hmac => ?_, MacFormat.parseMac_eq⟩
    have hparse := parseMac_eq_some.mp hmac
    have hinput : input = [':'].intercalate (input.splitOn ':') :=
      (List.intercalate_splitOn ':').symm
    have hnumeral : ∀ group ∈ input.splitOn ':', HexNumeral group :=
      forall_groups hparse fun _ byte hg => hexNumeral_iff.mpr ⟨byte, hg⟩
    have htwo : ∀ group ∈ input.splitOn ':', TwoHexDigits group := by
      by_contra hne
      push Not at hne
      exact hloose ⟨_, hinput, hparse.length_eq.trans mac.size_toArray, hnumeral, hne⟩
    refine ⟨_, hinput, ?_⟩
    exact ((List.forall₂_and_left _ _).mpr ⟨htwo, hparse⟩).imp fun _ _ hg =>
      denotes_of_parseU8Hex hg.1 hg.2

/-! ### Formatting -/

theorem hexValue_lowerDigit {n : Nat} (h : n < 16) : Json.hexValue (lowerDigit n) = some n := by
  have hall : ∀ n < 16, Json.hexValue (lowerDigit n) = some n := by decide
  exact hall n h

theorem hexValue_upperDigit {n : Nat} (h : n < 16) : Json.hexValue (upperDigit n) = some n := by
  have hall : ∀ n < 16, Json.hexValue (upperDigit n) = some n := by decide
  exact hall n h

theorem formatMac_macFormat {digit : Nat → Char}
    (hdigit : ∀ {n}, n < 16 → Json.hexValue (digit n) = some n) (mac : Vector UInt8 6) :
    MacFormat (formatMac digit mac) mac := by
  refine ⟨_, rfl, List.forall₂_map_left_iff.mpr (List.forall₂_same.mpr fun byte _ => ?_)⟩
  have hbyte : byte.toNat < 256 := byte.toNat_lt
  exact ⟨_, _, _, _, rfl, hdigit (by omega), hdigit (by omega), by omega⟩

/-- An input is read as the documented format has it, unless it is six numerals that
are not all two digits; those are read as well. What is formatted in either case is read
back. -/
theorem parseMac_documented_iff (input : Text) (mac : Vector UInt8 6) :
    (ReadAsDocumented input ↔ ¬ LooseMac input) ∧
      parseMac (formatMac lowerDigit mac) = some mac ∧
      parseMac (formatMac upperDigit mac) = some mac :=
  ⟨readAsDocumented_iff, (formatMac_macFormat hexValue_lowerDigit mac).parseMac_eq,
    (formatMac_macFormat hexValue_upperDigit mac).parseMac_eq⟩

/-- A sign stands in the place of a digit, and one digit or three in the place of two. -/
theorem parseMac_reads_loose :
    parseMac "+A:BB:CC:DD:EE:FF".toList = some #v[0x0A, 0xBB, 0xCC, 0xDD, 0xEE, 0xFF] ∧
      parseMac "1:2:3:4:5:006".toList = some #v[1, 2, 3, 4, 5, 6] ∧
      ¬ ReadAsDocumented "+A:BB:CC:DD:EE:FF".toList ∧
      ¬ ReadAsDocumented "1:2:3:4:5:006".toList := by
  have hsigned : parseMac "+A:BB:CC:DD:EE:FF".toList =
      some #v[0x0A, 0xBB, 0xCC, 0xDD, 0xEE, 0xFF] := by decide
  have hshort : parseMac "1:2:3:4:5:006".toList = some #v[1, 2, 3, 4, 5, 6] := by decide
  refine ⟨hsigned, hshort, fun hread => ?_, fun hread => ?_⟩
  · have htwo := forall_groups ((hread _).mp hsigned).splitOn fun _ _ hd => hd.twoHexDigits
    exact absurd ((htwo "+A".toList (by decide)).2 '+' (by decide)) (by decide)
  · have htwo := forall_groups ((hread _).mp hshort).splitOn fun _ _ hd => hd.twoHexDigits
    exact absurd (htwo "1".toList (by decide)).1 (by decide)

end LlmWakeProxy.Config
