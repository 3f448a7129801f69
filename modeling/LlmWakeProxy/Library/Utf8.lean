import Mathlib.Data.List.Basic

/-!
UTF-8 with replacement. The decoder reads one byte at a time and keeps the
unfinished sequence. A byte that cannot continue it ends it: the unfinished
bytes, which are the longest prefix of a well-formed sequence, become one
replacement character and the byte is read again as the first of a sequence.
Encoding and then decoding is the identity.
-/

namespace LlmWakeProxy.Library.Utf8

def encode (text : List Char) : List UInt8 := text.flatMap String.utf8EncodeChar

@[simp] theorem encode_cons (c : Char) (text : List Char) :
    encode (c :: text) = String.utf8EncodeChar c ++ encode text := rfl

@[simp] theorem encode_append (left right : List Char) :
    encode (left ++ right) = encode left ++ encode right :=
  List.flatMap_append

def replacement : Char := Char.ofNat 0xFFFD

/-- An unfinished sequence: the bytes it still needs, the bounds of the next one,
and the bits read so far. -/
structure Pending where
  needed : Nat
  lower : Nat
  upper : Nat
  bits : Nat
  deriving DecidableEq, Repr

/-- Read the first byte of a sequence. -/
def first (byte : Nat) : List Char × Option Pending :=
  if byte ≤ 0x7F then
    ([Char.ofNat byte], none)
  else if 0xC2 ≤ byte ∧ byte ≤ 0xDF then
    ([], some { needed := 1, lower := 0x80, upper := 0xBF, bits := byte - 0xC0 })
  else if 0xE0 ≤ byte ∧ byte ≤ 0xEF then
    ([], some
      { needed := 2
        lower := if byte = 0xE0 then 0xA0 else 0x80
        upper := if byte = 0xED then 0x9F else 0xBF
        bits := byte - 0xE0 })
  else if 0xF0 ≤ byte ∧ byte ≤ 0xF4 then
    ([], some
      { needed := 3
        lower := if byte = 0xF0 then 0x90 else 0x80
        upper := if byte = 0xF4 then 0x8F else 0xBF
        bits := byte - 0xF0 })
  else
    ([replacement], none)

def next (pending : Option Pending) (byte : Nat) : List Char × Option Pending :=
  match pending with
  | none => first byte
  | some p =>
      if p.lower ≤ byte ∧ byte ≤ p.upper then
        let bits := 64 * p.bits + (byte - 0x80)
        if p.needed = 1 then
          ([Char.ofNat bits], none)
        else
          ([], some { needed := p.needed - 1, lower := 0x80, upper := 0xBF, bits := bits })
      else
        (replacement :: (first byte).1, (first byte).2)

def decodeFrom (pending : Option Pending) : List UInt8 → List Char
  | [] => if pending.isSome then [replacement] else []
  | byte :: rest =>
      (next pending byte.toNat).1 ++ decodeFrom (next pending byte.toNat).2 rest

/-- Decode, replacing what is not well formed. -/
def decodeLossy (bytes : List UInt8) : List Char := decodeFrom none bytes

/-- A continuation byte that is in bounds. -/
theorem decodeFrom_continue {p : Pending} {byte : UInt8} {rest : List UInt8}
    (lower : p.lower ≤ byte.toNat) (upper : byte.toNat ≤ p.upper) (more : p.needed ≠ 1) :
    decodeFrom (some p) (byte :: rest) =
      decodeFrom (some ⟨p.needed - 1, 0x80, 0xBF, 64 * p.bits + (byte.toNat - 0x80)⟩) rest := by
  simp [decodeFrom, next, lower, upper, more]

theorem decodeFrom_complete {p : Pending} {byte : UInt8} {rest : List UInt8}
    (lower : p.lower ≤ byte.toNat) (upper : byte.toNat ≤ p.upper) (last : p.needed = 1) :
    decodeFrom (some p) (byte :: rest) =
      Char.ofNat (64 * p.bits + (byte.toNat - 0x80)) :: decodeFrom none rest := by
  simp [decodeFrom, next, lower, upper, last]

private theorem toNat_ofNat_of_lt {n : Nat} (h : n < 256) : (UInt8.ofNat n).toNat = n := by
  rw [UInt8.toNat_ofNat']
  exact Nat.mod_eq_of_lt h

/-- The lead byte of a sequence. -/
theorem decodeFrom_first {p : Pending} {byte : UInt8} {rest : List UInt8}
    (h : first byte.toNat = ([], some p)) :
    decodeFrom none (byte :: rest) = decodeFrom (some p) rest := by
  simp [decodeFrom, next, h]

section Encoded

variable {v : Nat} {rest : List UInt8}

private theorem decode_one (h : v ≤ 0x7F) :
    decodeFrom none ([UInt8.ofNat v] ++ rest) = Char.ofNat v :: decodeFrom none rest := by
  have hbyte : (UInt8.ofNat v).toNat = v := toNat_ofNat_of_lt (by omega)
  simp [decodeFrom, next, first, hbyte, h]

private theorem decode_two (lower : 0x7F < v) (upper : v ≤ 0x7FF) :
    decodeFrom none ([UInt8.ofNat (v / 64 % 0x20 + 0xC0), UInt8.ofNat (v % 0x40 + 0x80)] ++ rest) =
      Char.ofNat v :: decodeFrom none rest := by
  have h₀ : (UInt8.ofNat (v / 64 % 0x20 + 0xC0)).toNat = v / 64 + 0xC0 := by
    rw [toNat_ofNat_of_lt (by omega)]
    omega
  have h₁ : (UInt8.ofNat (v % 0x40 + 0x80)).toNat = v % 0x40 + 0x80 := toNat_ofNat_of_lt (by omega)
  have lead : first (v / 64 + 0xC0) = ([], some ⟨1, 0x80, 0xBF, v / 64⟩) := by
    rw [first, if_neg (by omega), if_pos (by omega), Nat.add_sub_cancel]
  have bits : 64 * (v / 64) + (v % 0x40 + 0x80 - 0x80) = v := by omega
  rw [List.cons_append, decodeFrom_first (h₀ ▸ lead), List.cons_append,
    decodeFrom_complete (by simp only [h₁]; omega) (by simp only [h₁]; omega) rfl]
  simp only [h₁, bits, List.nil_append]

private theorem decode_three (lower : 0x7FF < v) (upper : v ≤ 0xFFFF)
    (valid : v < 0xD800 ∨ 0xDFFF < v) :
    decodeFrom none ([UInt8.ofNat (v / 4096 % 0x10 + 0xE0), UInt8.ofNat (v / 64 % 0x40 + 0x80),
        UInt8.ofNat (v % 0x40 + 0x80)] ++ rest) =
      Char.ofNat v :: decodeFrom none rest := by
  have h₀ : (UInt8.ofNat (v / 4096 % 0x10 + 0xE0)).toNat = v / 4096 + 0xE0 := by
    rw [toNat_ofNat_of_lt (by omega)]
    omega
  have h₁ : (UInt8.ofNat (v / 64 % 0x40 + 0x80)).toNat = v / 64 % 0x40 + 0x80 :=
    toNat_ofNat_of_lt (by omega)
  have h₂ : (UInt8.ofNat (v % 0x40 + 0x80)).toNat = v % 0x40 + 0x80 := toNat_ofNat_of_lt (by omega)
  -- the bounds of the second byte exclude overlong forms and surrogates
  have lead : first (v / 4096 + 0xE0) = ([], some ⟨2, if v / 4096 + 0xE0 = 0xE0 then 0xA0 else 0x80,
      if v / 4096 + 0xE0 = 0xED then 0x9F else 0xBF, v / 4096⟩) := by
    rw [first, if_neg (by omega), if_neg (by omega), if_pos (by omega), Nat.add_sub_cancel]
  have bits : 64 * (64 * (v / 4096) + (v / 64 % 0x40 + 0x80 - 0x80)) +
      (v % 0x40 + 0x80 - 0x80) = v := by omega
  rw [List.cons_append, decodeFrom_first (h₀ ▸ lead), List.cons_append,
    decodeFrom_continue (by simp only [h₁]; split <;> omega) (by simp only [h₁]; split <;> omega)
      (by simp),
    List.cons_append, decodeFrom_complete (by simp only [h₂]; omega) (by simp only [h₂]; omega) rfl]
  simp only [h₁, h₂, bits, List.nil_append]

private theorem decode_four (lower : 0xFFFF < v) (upper : v < 0x110000) :
    decodeFrom none ([UInt8.ofNat (v / 262144 % 0x08 + 0xF0), UInt8.ofNat (v / 4096 % 0x40 + 0x80),
        UInt8.ofNat (v / 64 % 0x40 + 0x80), UInt8.ofNat (v % 0x40 + 0x80)] ++ rest) =
      Char.ofNat v :: decodeFrom none rest := by
  have h₀ : (UInt8.ofNat (v / 262144 % 0x08 + 0xF0)).toNat = v / 262144 + 0xF0 := by
    rw [toNat_ofNat_of_lt (by omega)]
    omega
  have h₁ : (UInt8.ofNat (v / 4096 % 0x40 + 0x80)).toNat = v / 4096 % 0x40 + 0x80 :=
    toNat_ofNat_of_lt (by omega)
  have h₂ : (UInt8.ofNat (v / 64 % 0x40 + 0x80)).toNat = v / 64 % 0x40 + 0x80 :=
    toNat_ofNat_of_lt (by omega)
  have h₃ : (UInt8.ofNat (v % 0x40 + 0x80)).toNat = v % 0x40 + 0x80 := toNat_ofNat_of_lt (by omega)
  have lead : first (v / 262144 + 0xF0) = ([], some ⟨3,
      if v / 262144 + 0xF0 = 0xF0 then 0x90 else 0x80,
      if v / 262144 + 0xF0 = 0xF4 then 0x8F else 0xBF, v / 262144⟩) := by
    rw [first, if_neg (by omega), if_neg (by omega), if_neg (by omega), if_pos (by omega),
      Nat.add_sub_cancel]
  have bits : 64 * (64 * (64 * (v / 262144) + (v / 4096 % 0x40 + 0x80 - 0x80)) +
      (v / 64 % 0x40 + 0x80 - 0x80)) + (v % 0x40 + 0x80 - 0x80) = v := by omega
  rw [List.cons_append, decodeFrom_first (h₀ ▸ lead), List.cons_append,
    decodeFrom_continue (by simp only [h₁]; split <;> omega) (by simp only [h₁]; split <;> omega)
      (by simp),
    List.cons_append, decodeFrom_continue (by simp only [h₂]; omega) (by simp only [h₂]; omega)
      (by simp),
    List.cons_append, decodeFrom_complete (by simp only [h₃]; omega) (by simp only [h₃]; omega) rfl]
  simp only [h₁, h₂, h₃, bits, List.nil_append]

end Encoded

theorem decodeFrom_encodeChar (c : Char) (rest : List UInt8) :
    decodeFrom none (String.utf8EncodeChar c ++ rest) = c :: decodeFrom none rest := by
  have valid : c.val.toNat < 0xD800 ∨ (0xDFFF < c.val.toNat ∧ c.val.toNat < 0x110000) := c.valid
  rw [show c :: decodeFrom none rest = Char.ofNat c.toNat :: decodeFrom none rest by
    rw [Char.ofNat_toNat]]
  simp only [String.utf8EncodeChar]
  split
  · exact decode_one ‹_›
  · split
    · exact decode_two (by omega) ‹_›
    · split
      · exact decode_three (by omega) ‹_› (by omega)
      · exact decode_four (by omega) (by omega)

/-- Decoding undoes encoding. -/
theorem decodeLossy_encode (text : List Char) : decodeLossy (encode text) = text := by
  induction text with
  | nil => rfl
  | cons c rest ih =>
      rw [encode_cons, decodeLossy, decodeFrom_encodeChar]
      exact congrArg _ ih

theorem encode_injective : Function.Injective encode :=
  Function.LeftInverse.injective decodeLossy_encode

/-- Decode what is well formed as a whole. -/
def decode (bytes : List UInt8) : Option (List Char) :=
  if encode (decodeLossy bytes) = bytes then some (decodeLossy bytes) else none

theorem decode_eq_some_iff {bytes : List UInt8} {text : List Char} :
    decode bytes = some text ↔ bytes = encode text := by
  unfold decode
  constructor
  · intro h
    split at h
    next hwhole =>
      cases h
      exact hwhole.symm
    next => cases h
  · rintro rfl
    rw [decodeLossy_encode, if_pos rfl]

@[simp] theorem decode_encode (text : List Char) : decode (encode text) = some text :=
  decode_eq_some_iff.mpr rfl

end LlmWakeProxy.Library.Utf8
