import Mathlib.Data.List.Infix
import LlmWakeProxy.Library.Utf8

/-!
Decoding a fragment of UTF-8 by itself. A fragment is never shortened by being
decoded and encoded again, since a replacement character is as long as what it
replaces can be; so cutting a text into fragments and decoding each changes the
text exactly when some fragment is not well formed. ASCII text that appears in
what is decoded was there before.
-/

namespace LlmWakeProxy.Library.Utf8

/-- What an unfinished sequence of so many bytes can be. -/
inductive Pending.Sound (p : Pending) : Nat → Prop
  | firstOfTwo (needed : p.needed = 1) (lower : 0x80 ≤ p.lower) (upper : p.upper ≤ 0xBF)
      (bits : 0x2 ≤ p.bits ∧ p.bits ≤ 0x1F) : Sound p 1
  | firstOfThree (needed : p.needed = 2) (lower : 0x80 ≤ p.lower) (upper : p.upper ≤ 0xBF)
      (bits : p.bits ≤ 0xF) (overlong : p.bits = 0 → 0xA0 ≤ p.lower)
      (surrogate : p.bits = 0xD → p.upper ≤ 0x9F) : Sound p 1
  | firstOfFour (needed : p.needed = 3) (lower : 0x80 ≤ p.lower) (upper : p.upper ≤ 0xBF)
      (bits : p.bits ≤ 0x4) (overlong : p.bits = 0 → 0x90 ≤ p.lower)
      (beyond : p.bits = 4 → p.upper ≤ 0x8F) : Sound p 1
  | secondOfThree (needed : p.needed = 1) (lower : 0x80 ≤ p.lower) (upper : p.upper ≤ 0xBF)
      (bits : 0x20 ≤ p.bits ∧ p.bits ≤ 0x3FF) (surrogate : p.bits < 0x360 ∨ 0x37F < p.bits) :
      Sound p 2
  | secondOfFour (needed : p.needed = 2) (lower : 0x80 ≤ p.lower) (upper : p.upper ≤ 0xBF)
      (bits : 0x10 ≤ p.bits ∧ p.bits ≤ 0x10F) : Sound p 2
  | thirdOfFour (needed : p.needed = 1) (lower : 0x80 ≤ p.lower) (upper : p.upper ≤ 0xBF)
      (bits : 0x400 ≤ p.bits ∧ p.bits ≤ 0x43FF) : Sound p 3

/-- The bytes read of an unfinished sequence, none between sequences. -/
def Reads : Option Pending → Nat → Prop
  | none, read => read = 0
  | some p, read => p.Sound read

/-- A byte read as the first of a sequence: an ASCII character, the start of a
sequence, or replaced. -/
theorem first_cases {byte : Nat} (h : byte < 256) :
    (byte ≤ 0x7F ∧ first byte = ([Char.ofNat byte], none)) ∨
      (∃ p, p.Sound 1 ∧ first byte = ([], some p)) ∨
      (first byte = ([replacement], none)) := by
  unfold first
  split
  next hascii => exact .inl ⟨hascii, rfl⟩
  next =>
    refine .inr ?_
    split
    next htwo =>
      refine .inl ⟨_, .firstOfTwo rfl (Nat.le_refl _) (Nat.le_refl _) ?_, rfl⟩
      simp only
      omega
    next =>
      split
      next hthree =>
        refine .inl ⟨_, .firstOfThree rfl ?_ ?_ ?_ ?_ ?_, rfl⟩ <;> simp only
        · split <;> omega
        · split <;> omega
        · omega
        · intro hbits
          rw [if_pos (by omega)]
        · intro hbits
          rw [if_pos (by omega)]
      next =>
        split
        next hfour =>
          refine .inl ⟨_, .firstOfFour rfl ?_ ?_ ?_ ?_ ?_, rfl⟩ <;> simp only
          · split <;> omega
          · split <;> omega
          · omega
          · intro hbits
            rw [if_pos (by omega)]
          · intro hbits
            rw [if_pos (by omega)]
        next => exact .inr rfl

/-- A byte that goes on with a sequence keeps it sound. -/
theorem Pending.Sound.continued {p : Pending} {read byte : Nat} (h : p.Sound read)
    (lower : p.lower ≤ byte) (upper : byte ≤ p.upper) (more : p.needed ≠ 1) :
    Pending.Sound ⟨p.needed - 1, 0x80, 0xBF, 64 * p.bits + (byte - 0x80)⟩ (read + 1) := by
  cases h with
  | firstOfThree needed _ _ bits overlong surrogate =>
      refine .secondOfThree ?_ (Nat.le_refl _) (Nat.le_refl _) ?_ ?_ <;> simp only <;> omega
  | firstOfFour needed _ _ bits overlong beyond =>
      refine .secondOfFour ?_ (Nat.le_refl _) (Nat.le_refl _) ?_ <;> simp only <;> omega
  | secondOfFour needed _ _ bits =>
      refine .thirdOfFour ?_ (Nat.le_refl _) (Nat.le_refl _) ?_ <;> simp only <;> omega
  | firstOfTwo needed | secondOfThree needed | thirdOfFour needed => exact absurd needed more

/-- The ranges of the characters of two, three and four bytes. -/
def Ranges (size v : Nat) : Prop :=
  size = 2 ∧ 0x7F < v ∧ v ≤ 0x7FF ∨
    size = 3 ∧ 0x7FF < v ∧ v ≤ 0xFFFF ∧ (v < 0xD800 ∨ 0xDFFF < v) ∨
    size = 4 ∧ 0xFFFF < v ∧ v < 0x110000

theorem Ranges.char {size v : Nat} (h : Ranges size v) :
    (Char.ofNat v).utf8Size = size ∧ 0x7F < (Char.ofNat v).toNat := by
  have valid : v.isValidChar := by
    simp only [Ranges, Nat.isValidChar] at h ⊢
    omega
  have hval : (Char.ofNat v).val.toNat = v := by
    rw [Char.ofNat, dif_pos valid]
    rfl
  refine ⟨?_, ?_⟩
  · obtain ⟨rfl, lower, upper⟩ | ⟨rfl, lower, upper, _⟩ | ⟨rfl, lower, _⟩ := h
    · rw [Char.utf8Size_eq_two_iff, UInt32.lt_iff_toNat_lt, UInt32.le_iff_toNat_le, hval]
      exact ⟨lower, upper⟩
    · rw [Char.utf8Size_eq_three_iff, UInt32.lt_iff_toNat_lt, UInt32.le_iff_toNat_le, hval]
      exact ⟨lower, upper⟩
    · rw [Char.utf8Size_eq_four_iff, UInt32.lt_iff_toNat_lt, hval]
      exact lower
  · have htoNat : (Char.ofNat v).toNat = v := hval
    simp only [Ranges] at h
    omega

/-- A byte that completes a sequence completes a character of its length. -/
theorem Pending.Sound.completed {p : Pending} {read byte : Nat} (h : p.Sound read)
    (lower : p.lower ≤ byte) (upper : byte ≤ p.upper) (last : p.needed = 1) :
    Ranges (read + 1) (64 * p.bits + (byte - 0x80)) := by
  cases h with
  | firstOfTwo _ _ _ bits => exact .inl ⟨rfl, by omega, by omega⟩
  | secondOfThree _ _ _ bits surrogate =>
      exact .inr (.inl ⟨rfl, by omega, by omega, by omega⟩)
  | thirdOfFour _ _ _ bits => exact .inr (.inr ⟨rfl, by omega, by omega⟩)
  | firstOfThree needed | firstOfFour needed | secondOfFour needed => omega

theorem Pending.Sound.le_three {p : Pending} {read : Nat} (h : p.Sound read) : read ≤ 3 := by
  cases h <;> omega

/-- No character of the text is ASCII. -/
def Foreign (text : List Char) : Prop := ∀ c ∈ text, 0x7F < c.toNat

/-- What reading a byte yields: foreign characters only, or ASCII at the end, which
is the byte itself. -/
structure Step (read : Nat) (byte : Nat) (out : List Char) (after : Option Pending) (read' : Nat) :
    Prop where
  reads : Reads after read'
  grows : read + 1 ≤ (encode out).length + read'
  ascii : Foreign out ∨
    byte ≤ 0x7F ∧ after = none ∧ ∃ before, Foreign before ∧ out = before ++ [Char.ofNat byte]

theorem foreign_replacement : Foreign [replacement] := by
  intro c hc
  obtain rfl := List.mem_singleton.mp hc
  decide

theorem replacement_utf8Size : replacement.utf8Size = 3 := by
  decide

theorem length_encode_singleton (c : Char) : (encode [c]).length = c.utf8Size := by
  simp [encode]

theorem first_step {byte : Nat} (h : byte < 256) :
    ∃ read', Step 0 byte (first byte).1 (first byte).2 read' := by
  obtain ⟨hascii, hfirst⟩ | ⟨p, hp, hfirst⟩ | hfirst := first_cases h
  · rw [hfirst]
    refine ⟨0, rfl, ?_, .inr ⟨hascii, rfl, [], by simp [Foreign], rfl⟩⟩
    have hpos := Char.utf8Size_pos (Char.ofNat byte)
    rw [length_encode_singleton]
    omega
  · rw [hfirst]
    exact ⟨1, hp, by simp, .inl (by simp [Foreign])⟩
  · rw [hfirst]
    refine ⟨0, rfl, ?_, .inl foreign_replacement⟩
    rw [length_encode_singleton, replacement_utf8Size]
    omega

/-- A byte read on in a sequence: it goes on with it, completes it or ends it. -/
theorem next_some_cases {p : Pending} {read : Nat} (h : p.Sound read) (byte : Nat) :
    (∃ p', p'.Sound (read + 1) ∧ next (some p) byte = ([], some p')) ∨
      (∃ v, Ranges (read + 1) v ∧ next (some p) byte = ([Char.ofNat v], none)) ∨
      next (some p) byte = (replacement :: (first byte).1, (first byte).2) := by
  by_cases inside : p.lower ≤ byte ∧ byte ≤ p.upper
  · by_cases last : p.needed = 1
    · exact .inr (.inl ⟨_, h.completed inside.1 inside.2 last, by simp [next, inside, last]⟩)
    · exact .inl ⟨_, h.continued inside.1 inside.2 last, by simp [next, inside, last]⟩
  · exact .inr (.inr (by simp only [next, if_neg inside]))

theorem next_step {pending : Option Pending} {read byte : Nat} (h : Reads pending read)
    (hbyte : byte < 256) :
    ∃ read', Step read byte (next pending byte).1 (next pending byte).2 read' := by
  cases pending with
  | none =>
      obtain rfl : read = 0 := h
      exact first_step hbyte
  | some p =>
      obtain ⟨p', hp', hnext⟩ | ⟨v, hv, hnext⟩ | hnext := next_some_cases h byte
      · rw [hnext]
        exact ⟨read + 1, hp', by simp, .inl (by simp [Foreign])⟩
      · obtain ⟨hsize, hforeign⟩ := hv.char
        rw [hnext]
        refine ⟨0, rfl, ?_, .inl (by simpa [Foreign] using hforeign)⟩
        rw [length_encode_singleton, hsize]
      · obtain ⟨read', hreads, hgrows, hascii⟩ := first_step hbyte
        rw [hnext]
        refine ⟨read', hreads, ?_, ?_⟩
        · have hread := Pending.Sound.le_three h
          rw [encode_cons, List.length_append, String.length_utf8EncodeChar, replacement_utf8Size]
          omega
        · obtain hforeign | ⟨hle, hafter, before, hbefore, hout⟩ := hascii
          · exact .inl (List.forall_mem_cons.mpr ⟨foreign_replacement _ (by simp), hforeign⟩)
          · refine .inr ⟨hle, hafter, replacement :: before, ?_, by rw [hout]; rfl⟩
            exact List.forall_mem_cons.mpr ⟨foreign_replacement _ (by simp), hbefore⟩

/-- What is decoded is at least as long, encoded, as what was read. -/
theorem length_decodeFrom {pending : Option Pending} {read : Nat} (h : Reads pending read)
    (bytes : List UInt8) : read + bytes.length ≤ (encode (decodeFrom pending bytes)).length := by
  induction bytes generalizing pending read with
  | nil =>
      cases pending with
      | none =>
          obtain rfl : read = 0 := h
          simp
      | some p =>
          have hread := Pending.Sound.le_three h
          have hdecoded : decodeFrom (some p) [] = [replacement] := rfl
          rw [hdecoded, length_encode_singleton, replacement_utf8Size]
          exact hread
  | cons byte rest ih =>
      obtain ⟨read', hreads, hgrows, _⟩ := next_step h byte.toNat_lt
      have hrest := ih hreads
      rw [decodeFrom, encode_append, List.length_append, List.length_cons]
      omega

theorem length_le_decodeLossy (bytes : List UInt8) :
    bytes.length ≤ (encode (decodeLossy bytes)).length := by
  have h : Reads none 0 := rfl
  have hlength := length_decodeFrom h bytes
  rwa [Nat.zero_add] at hlength

theorem length_flatten_le (fragments : List (List UInt8)) :
    fragments.flatten.length ≤ (fragments.flatMap fun bytes => encode (decodeLossy bytes)).length := by
  induction fragments with
  | nil => exact Nat.le_refl _
  | cons bytes rest ih =>
      rw [List.flatten_cons, List.flatMap_cons, List.length_append, List.length_append]
      exact Nat.add_le_add (length_le_decodeLossy bytes) ih

/-- Decoding fragments one by one changes nothing exactly when each is well formed. -/
theorem flatMap_decodeLossy_iff (fragments : List (List UInt8)) :
    (fragments.flatMap fun bytes => encode (decodeLossy bytes)) = fragments.flatten ↔
      ∀ bytes ∈ fragments, ∃ text, bytes = encode text := by
  constructor
  · intro h
    induction fragments with
    | nil => simp
    | cons bytes rest ih =>
        -- no fragment shrinks, so the boundaries agree
        have hrest := length_flatten_le rest
        have hfirst := length_le_decodeLossy bytes
        have hlength := congrArg List.length h
        simp only [List.flatMap_cons, List.flatten_cons, List.length_append] at hlength
        have same : (encode (decodeLossy bytes)).length = bytes.length := by omega
        obtain ⟨hbytes, hothers⟩ := List.append_inj h same
        exact List.forall_mem_cons.mpr ⟨⟨decodeLossy bytes, hbytes.symm⟩, ih hothers⟩
  · intro h
    rw [List.flatMap_def]
    refine congrArg _ ?_
    conv_rhs => rw [← List.map_id fragments]
    refine List.map_congr_left fun bytes hbytes => ?_
    obtain ⟨text, rfl⟩ := h bytes hbytes
    rw [decodeLossy_encode]
    rfl

/-! ### ASCII text in what is decoded -/

/-- What follows an unfinished sequence begins with a foreign character. -/
theorem decodeFrom_some_foreign {p : Pending} {read : Nat} (h : p.Sound read)
    {bytes : List UInt8} {c : Char} {text : List Char}
    (hdecoded : decodeFrom (some p) bytes = c :: text) : 0x7F < c.toNat := by
  induction bytes generalizing p read with
  | nil =>
      cases hdecoded
      exact foreign_replacement _ (by simp)
  | cons byte rest ih =>
      rw [decodeFrom] at hdecoded
      obtain ⟨p', hp', hnext⟩ | ⟨v, hv, hnext⟩ | hnext := next_some_cases h byte.toNat
      · rw [hnext] at hdecoded
        exact ih hp' hdecoded
      · rw [hnext] at hdecoded
        cases hdecoded
        exact hv.char.2
      · rw [hnext] at hdecoded
        cases hdecoded
        exact foreign_replacement _ (by simp)

theorem encodeChar_of_ascii {byte : UInt8} (h : byte.toNat ≤ 0x7F) :
    String.utf8EncodeChar (Char.ofNat byte.toNat) = [byte] := by
  have valid : byte.toNat.isValidChar := by
    simp only [Nat.isValidChar]
    omega
  have hval : (Char.ofNat byte.toNat).val.toNat = byte.toNat := by
    rw [Char.ofNat, dif_pos valid]
    rfl
  simp only [String.utf8EncodeChar, hval, if_pos h, UInt8.ofNat_toNat]

/-- ASCII text that what is decoded begins with is what the bytes begin with. -/
theorem isPrefix_of_decodeFrom {key : List Char} (hascii : ∀ c ∈ key, c.toNat ≤ 0x7F)
    {bytes : List UInt8} (h : key <+: decodeFrom none bytes) : encode key <+: bytes := by
  induction key generalizing bytes with
  | nil => exact List.nil_prefix
  | cons c rest ih =>
      obtain ⟨hc, hrest⟩ := List.forall_mem_cons.mp hascii
      obtain ⟨after, hafter⟩ := h
      cases bytes with
      | nil => cases hafter
      | cons byte bytes =>
          rw [decodeFrom, next] at hafter
          obtain ⟨hle, hfirst⟩ | ⟨p, hp, hfirst⟩ | hfirst := first_cases byte.toNat_lt
          · rw [hfirst] at hafter
            injection hafter with hhead htail
            rw [encode_cons, hhead, encodeChar_of_ascii hle]
            exact List.cons_prefix_cons.mpr ⟨rfl, ih hrest ⟨after, htail⟩⟩
          · rw [hfirst] at hafter
            exact absurd hc (Nat.not_le.mpr (decodeFrom_some_foreign hp hafter.symm))
          · rw [hfirst] at hafter
            injection hafter with hhead _
            rw [hhead] at hc
            exact absurd hc (Nat.not_le.mpr (foreign_replacement _ (by simp)))

/-- ASCII text inside what is decoded is inside the bytes. -/
theorem isInfix_of_decodeFrom {key : List Char} (hne : key ≠ [])
    (hascii : ∀ c ∈ key, c.toNat ≤ 0x7F) {pending : Option Pending} {read : Nat}
    (reads : Reads pending read) {bytes : List UInt8} (h : key <:+: decodeFrom pending bytes) :
    encode key <:+: bytes := by
  induction bytes generalizing pending read with
  | nil =>
      obtain ⟨c, rest, rfl⟩ := List.exists_cons_of_ne_nil hne
      have hc : c ∈ decodeFrom pending [] := h.subset List.mem_cons_self
      have hforeign : Foreign (decodeFrom pending []) := by
        cases pending with
        | none => simp [decodeFrom, Foreign]
        | some p => exact foreign_replacement
      exact absurd (hascii c List.mem_cons_self) (Nat.not_le.mpr (hforeign c hc))
  | cons byte bytes ih =>
      obtain ⟨read', hreads, _, hstep⟩ := next_step reads byte.toNat_lt
      obtain ⟨before, after, hdecoded⟩ := h
      rw [decodeFrom, List.append_assoc] at hdecoded
      obtain ⟨overlap, hout, hkey⟩ | ⟨gap, _, hrest⟩ := List.append_eq_append_iff.mp hdecoded
      · cases overlap with
        | nil => exact List.infix_cons (ih hreads ⟨[], after, by simpa using hkey⟩)
        | cons c others =>
            obtain ⟨c', rest, rfl⟩ := List.exists_cons_of_ne_nil hne
            obtain ⟨rfl, hrest⟩ := List.cons.inj hkey
            obtain ⟨hc, hrestAscii⟩ := List.forall_mem_cons.mp hascii
            have hmem : c' ∈ (next pending byte.toNat).1 := by simp [hout]
            obtain hforeign | ⟨hle, hafter, foreign, hforeign, hlast⟩ := hstep
            · exact absurd hc (Nat.not_le.mpr (hforeign _ hmem))
            · -- the key begins with the last character of the step
              rw [hlast] at hout
              obtain rfl | ⟨others', x, rfl⟩ := List.eq_nil_or_concat others
              · obtain ⟨_, hbyte⟩ := List.append_inj' hout rfl
                obtain rfl : c' = Char.ofNat byte.toNat := (List.cons.inj hbyte).1.symm
                rw [hafter] at hrest
                rw [encode_cons, encodeChar_of_ascii hle]
                have tail := isPrefix_of_decodeFrom hrestAscii ⟨after, by simpa using hrest⟩
                exact (List.cons_prefix_cons.mpr ⟨rfl, tail⟩).isInfix
              · have hjoined : foreign ++ [Char.ofNat byte.toNat] =
                    (before ++ c' :: others') ++ [x] := by
                  simpa using hout
                have hinside := (List.append_inj' hjoined rfl).1
                exact absurd hc (Nat.not_le.mpr (hforeign c' (by simp [hinside])))
      · exact List.infix_cons (ih hreads ⟨gap, after, by rw [hrest, List.append_assoc]⟩)

theorem isInfix_of_decodeLossy {key : List Char} (hne : key ≠ [])
    (hascii : ∀ c ∈ key, c.toNat ≤ 0x7F) {bytes : List UInt8} (h : key <:+: decodeLossy bytes) :
    encode key <:+: bytes := by
  have reads : Reads none 0 := rfl
  exact isInfix_of_decodeFrom hne hascii reads h

end LlmWakeProxy.Library.Utf8
