import LlmWakeProxy.Library.JsonText

/-!
The escapes of JSON strings. A string as it is written is read as a text, unless an
escape is wrong or denotes half of a surrogate pair. What a text is written as is
read back.
-/

namespace LlmWakeProxy.Library.Json

def hexValue (c : Char) : Option Nat :=
  if '0' ≤ c ∧ c ≤ '9' then some (c.toNat - '0'.toNat)
  else if 'a' ≤ c ∧ c ≤ 'f' then some (c.toNat - 'a'.toNat + 10)
  else if 'A' ≤ c ∧ c ≤ 'F' then some (c.toNat - 'A'.toNat + 10)
  else none

/-- The code unit of four hexadecimal digits. -/
def codeUnit (a b c d : Char) : Option Nat := do
  return ((← hexValue a) * 0x1000 + (← hexValue b) * 0x100 + (← hexValue c) * 0x10 + (← hexValue d))

/-- An escape of a single character. -/
def simpleEscape : Char → Option Char
  | '\x22' => some '\x22'
  | '\x5c' => some '\x5c'
  | '/' => some '/'
  | 'b' => some '\x08'
  | 'f' => some '\x0c'
  | 'n' => some '\n'
  | 'r' => some '\r'
  | 't' => some '\t'
  | _ => none

/-- The text that a string denotes. -/
def unescape : List Char → Option (List Char)
  | [] => some []
  | '\x5c' :: 'u' :: a :: b :: c :: d :: rest =>
      match codeUnit a b c d with
      | none => none
      | some unit =>
          if 0xD800 ≤ unit ∧ unit < 0xDC00 then
            match rest with
            | '\x5c' :: 'u' :: e :: f :: g :: h :: rest =>
                match codeUnit e f g h with
                | none => none
                | some low =>
                    if 0xDC00 ≤ low ∧ low < 0xE000 then
                      (unescape rest).map fun text =>
                        Char.ofNat (0x10000 + (unit - 0xD800) * 0x400 + (low - 0xDC00)) :: text
                    else none
            | _ => none
          else if 0xDC00 ≤ unit ∧ unit < 0xE000 then none
          else (unescape rest).map (Char.ofNat unit :: ·)
  | '\x5c' :: c :: rest =>
      match simpleEscape c with
      | some denoted => (unescape rest).map (denoted :: ·)
      | none => none
  | ['\x5c'] => none
  | c :: rest => (unescape rest).map (c :: ·)

def hexDigit (n : Nat) : Char := if n < 10 then Char.ofNat (0x30 + n) else Char.ofNat (0x57 + n)

/-- What a character is written as. -/
def escapeChar (c : Char) : List Char :=
  if c = '\x22' then ['\x5c', '\x22']
  else if c = '\x5c' then ['\x5c', '\x5c']
  else if c = '\x08' then ['\x5c', 'b']
  else if c = '\x0c' then ['\x5c', 'f']
  else if c = '\n' then ['\x5c', 'n']
  else if c = '\r' then ['\x5c', 'r']
  else if c = '\t' then ['\x5c', 't']
  else if isControl c then ['\x5c', 'u', '0', '0', hexDigit (c.toNat / 16), hexDigit (c.toNat % 16)]
  else [c]

def escape (text : List Char) : List Char := text.flatMap escapeChar

theorem codeUnit_hexDigit {n : Nat} (h : n < 0x20) :
    codeUnit '0' '0' (hexDigit (n / 16)) (hexDigit (n % 16)) = some n :=
  (show ∀ n < 0x20, codeUnit '0' '0' (hexDigit (n / 16)) (hexDigit (n % 16)) = some n by decide) n h

theorem unescape_plain {c : Char} (h : c ≠ '\x5c') (rest : List Char) :
    unescape (c :: rest) = (unescape rest).map (c :: ·) := by
  rw [unescape.eq_def]
  split <;> simp_all

theorem unescape_simple {c denoted : Char} (h : simpleEscape c = some denoted) (rest : List Char) :
    unescape ('\x5c' :: c :: rest) = (unescape rest).map (denoted :: ·) := by
  have hunicode : c ≠ 'u' := by
    rintro rfl
    cases h
  rw [unescape]
  · rw [h]
  · rintro _ _ _ _ _ rfl
    exact absurd rfl hunicode

theorem unescape_escapeChar (c : Char) (rest : List Char) :
    unescape (escapeChar c ++ rest) = (unescape rest).map (c :: ·) := by
  unfold escapeChar
  split_ifs with hquote hbackslash hbackspace hfeed hnewline hreturn htab hcontrol
  · subst hquote
    exact unescape_simple rfl rest
  · subst hbackslash
    exact unescape_simple rfl rest
  · subst hbackspace
    exact unescape_simple rfl rest
  · subst hfeed
    exact unescape_simple rfl rest
  · subst hnewline
    exact unescape_simple rfl rest
  · subst hreturn
    exact unescape_simple rfl rest
  · subst htab
    exact unescape_simple rfl rest
  · have hsmall : c.toNat < 0x20 := by simpa [isControl] using hcontrol
    have hunit := codeUnit_hexDigit hsmall
    have hhigh : ¬ (0xD800 ≤ c.toNat ∧ c.toNat < 0xDC00) := by omega
    have hlow : ¬ (0xDC00 ≤ c.toNat ∧ c.toNat < 0xE000) := by omega
    simp only [List.cons_append, List.nil_append]
    rw [unescape]
    simp only [hunit, if_neg hhigh, if_neg hlow, Char.ofNat_toNat]
  · exact unescape_plain hbackslash rest

/-- What a text is written as denotes the text. -/
theorem unescape_escape (text : List Char) : unescape (escape text) = some text := by
  induction text with
  | nil => rfl
  | cons c rest ih =>
      rw [escape] at ih ⊢
      rw [List.flatMap_cons, unescape_escapeChar, ih]
      rfl

/-! ### Escapes in a text -/

theorem hexDigit_plain {n : Nat} (h : n < 16) :
    hexDigit n ≠ '\x22' ∧ hexDigit n ≠ '\x5c' ∧ isControl (hexDigit n) = false :=
  (show ∀ n < 16, hexDigit n ≠ '\x22' ∧ hexDigit n ≠ '\x5c' ∧ isControl (hexDigit n) = false by
    decide) n h

theorem lexFrom_plain {c : Char} (h : c ≠ '\x22' ∧ c ≠ '\x5c' ∧ isControl c = false)
    (acc rest : List Char) : lexFrom (.str acc) (c :: rest) = lexFrom (.str (acc ++ [c])) rest := by
  obtain ⟨hquote, hbackslash, hcontrol⟩ := h
  exact lexFrom_silent (by simp [Place.next, hquote, hbackslash, hcontrol])

theorem lexFrom_escaped {c : Char} (h : isControl c = false) (acc rest : List Char) :
    lexFrom (.str acc) ('\x5c' :: c :: rest) = lexFrom (.str (acc ++ ['\x5c', c])) rest := by
  have hescape : Place.next (.str acc) '\x5c' = some (.escape acc, []) := rfl
  rw [lexFrom_silent hescape]
  exact lexFrom_silent (by simp [Place.next, h])

theorem lexFrom_escapeChar (c : Char) (acc rest : List Char) :
    lexFrom (.str acc) (escapeChar c ++ rest) = lexFrom (.str (acc ++ escapeChar c)) rest := by
  unfold escapeChar
  split_ifs with hquote hbackslash hbackspace hfeed hnewline hreturn htab hcontrol
  · exact lexFrom_escaped rfl acc rest
  · exact lexFrom_escaped rfl acc rest
  · exact lexFrom_escaped rfl acc rest
  · exact lexFrom_escaped rfl acc rest
  · exact lexFrom_escaped rfl acc rest
  · exact lexFrom_escaped rfl acc rest
  · exact lexFrom_escaped rfl acc rest
  · have hsmall : c.toNat < 0x20 := by simpa [isControl] using hcontrol
    have hhigh : c.toNat / 16 < 16 := by omega
    have hlow : c.toNat % 16 < 16 := by omega
    simp only [List.cons_append, List.nil_append]
    rw [lexFrom_escaped rfl, lexFrom_plain (by decide), lexFrom_plain (by decide),
      lexFrom_plain (hexDigit_plain hhigh), lexFrom_plain (hexDigit_plain hlow)]
    simp
  · exact lexFrom_plain ⟨hquote, hbackslash, by simpa using hcontrol⟩ acc rest

/-- What a text is written as is read as a string. -/
theorem lexFrom_escape (text acc rest : List Char) :
    lexFrom (.str acc) (escape text ++ rest) = lexFrom (.str (acc ++ escape text)) rest := by
  induction text generalizing acc with
  | nil => simp [escape]
  | cons c text ih =>
      rw [escape] at ih ⊢
      rw [List.flatMap_cons, List.append_assoc, lexFrom_escapeChar, ih, List.append_assoc]

/-- What a character is written as has no control character. -/
theorem escapeChar_clean (c : Char) : ∀ d ∈ escapeChar c, isControl d = false := by
  unfold escapeChar
  split_ifs with hquote hbackslash hbackspace hfeed hnewline hreturn htab hcontrol
  · simp [isControl]
  · simp [isControl]
  · simp [isControl]
  · simp [isControl]
  · simp [isControl]
  · simp [isControl]
  · simp [isControl]
  · have hsmall : c.toNat < 0x20 := by simpa [isControl] using hcontrol
    have hhigh := (hexDigit_plain (n := c.toNat / 16) (by omega)).2.2
    have hlow := (hexDigit_plain (n := c.toNat % 16) (by omega)).2.2
    simp only [List.forall_mem_cons]
    exact ⟨by decide, by decide, by decide, by decide, hhigh, hlow, by simp⟩
  · simpa using hcontrol

/-- What a text is written as has no control character. -/
theorem escape_clean (text : List Char) : ∀ d ∈ escape text, isControl d = false := by
  intro d hd
  obtain ⟨c, _, hmem⟩ := List.mem_flatMap.mp hd
  exact escapeChar_clean c d hmem

end LlmWakeProxy.Library.Json
