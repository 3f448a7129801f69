import Mathlib.Data.List.Infix

/-!
The tokens of a JSON text. The lexer is a machine that reads one character after
the other: the punctuation, the strings with their escapes kept, and the bare words
in between, which are numbers and literals if they are anything. A line break ends
what is being read, or is a mistake, so that a text is lexed line by line.
-/

namespace LlmWakeProxy.Library.Json

inductive Bracket where
  | square
  | curly
  deriving DecidableEq, Repr

inductive Token where
  | opening (bracket : Bracket)
  | closing (bracket : Bracket)
  | colon
  | comma
  | str (raw : List Char)
  | word (raw : List Char)
  deriving DecidableEq, Repr

def isSpace (c : Char) : Bool := c = ' ' ∨ c = '\t' ∨ c = '\n' ∨ c = '\r'

def punctuation : Char → Option Token
  | '[' => some (.opening .square)
  | ']' => some (.closing .square)
  | '\x7b' => some (.opening .curly)
  | '\x7d' => some (.closing .curly)
  | ':' => some .colon
  | ',' => some .comma
  | _ => none

/-- Where the lexer is, with what it has read of a token. -/
inductive Place where
  | gap
  | word (raw : List Char)
  | str (raw : List Char)
  | escape (raw : List Char)
  deriving DecidableEq, Repr

/-- A character that is not within a token. -/
def begins (c : Char) : Place × List Token :=
  if isSpace c then (.gap, [])
  else if c = '\x22' then (.str [], [])
  else match punctuation c with
    | some token => (.gap, [token])
    | none => (.word [c], [])

/-- A character that a bare word goes on with. -/
def IsBare (c : Char) : Prop := isSpace c = false ∧ c ≠ '\x22' ∧ punctuation c = none

instance (c : Char) : Decidable (IsBare c) := inferInstanceAs (Decidable (_ ∧ _ ∧ _))

/-- A control character may not stand in a string. -/
def isControl (c : Char) : Bool := c.toNat < 0x20

def Place.next : Place → Char → Option (Place × List Token)
  | .gap, c => some (begins c)
  | .word raw, c =>
      if IsBare c then some (.word (raw ++ [c]), [])
      else some ((begins c).1, .word raw :: (begins c).2)
  | .str raw, c =>
      if c = '\x22' then some (.gap, [.str raw])
      else if c = '\x5c' then some (.escape raw, [])
      else if isControl c then none
      else some (.str (raw ++ [c]), [])
  | .escape raw, c => if isControl c then none else some (.str (raw ++ ['\x5c', c]), [])

def Place.finish : Place → Option (List Token)
  | .gap => some []
  | .word raw => some [.word raw]
  | .str _ | .escape _ => none

def lexFrom : Place → List Char → Option (List Token)
  | place, [] => place.finish
  | place, c :: rest =>
      match place.next c with
      | some (next, out) => (lexFrom next rest).map (out ++ ·)
      | none => none

def lex (text : List Char) : Option (List Token) := lexFrom .gap text

theorem lexFrom_step {place next : Place} {c : Char} {out : List Token} {rest : List Char}
    (h : place.next c = some (next, out)) :
    lexFrom place (c :: rest) = (lexFrom next rest).map (out ++ ·) := by
  rw [lexFrom, h]

theorem lexFrom_silent {place next : Place} {c : Char} {rest : List Char}
    (h : place.next c = some (next, [])) : lexFrom place (c :: rest) = lexFrom next rest := by
  rw [lexFrom_step h]
  exact Option.map_id'

theorem lexFrom_stuck {place : Place} {c : Char} {rest : List Char} (h : place.next c = none) :
    lexFrom place (c :: rest) = none := by
  rw [lexFrom, h]

/-- A character that ends whatever is being read and is nothing itself. -/
def Separates (c : Char) : Prop := ∀ place : Place, place.next c = place.finish.map (.gap, ·)

theorem separates_newline : Separates '\n' := by
  intro place
  cases place <;> rfl

theorem separates_return : Separates '\r' := by
  intro place
  cases place <;> rfl

/-- The tokens on both sides of a separator. -/
theorem lexFrom_separated {c : Char} (h : Separates c) (place : Place) (before after : List Char) :
    lexFrom place (before ++ c :: after) =
      (lexFrom place before).bind fun tokens => (lex after).map (tokens ++ ·) := by
  induction before generalizing place with
  | nil =>
      have hnext := h place
      cases hfinish : place.finish with
      | none =>
          rw [hfinish] at hnext
          rw [List.nil_append, lexFrom_stuck hnext, lexFrom, hfinish]
          rfl
      | some out =>
          rw [hfinish] at hnext
          rw [List.nil_append, lexFrom_step hnext, lexFrom, hfinish]
          rfl
  | cons d before ih =>
      rw [List.cons_append]
      cases hnext : place.next d with
      | none => rw [lexFrom_stuck hnext, lexFrom_stuck hnext, Option.bind_none]
      | some step =>
          obtain ⟨next, out⟩ := step
          rw [lexFrom_step hnext, lexFrom_step hnext, ih]
          cases lexFrom next before with
          | none => rfl
          | some tokens =>
              cases lex after <;> simp

theorem lex_separated {c : Char} (h : Separates c) (before after : List Char) :
    lex (before ++ c :: after) =
      (lex before).bind fun tokens => (lex after).map (tokens ++ ·) :=
  lexFrom_separated h .gap before after

/-- A separator at the end gives nothing. -/
theorem lex_append_separator {c : Char} (h : Separates c) (text : List Char) :
    lex (text ++ [c]) = lex text := by
  rw [lex_separated h]
  cases lex text <;> simp [lex, lexFrom, Place.finish]

/-- The tokens of a line, none if it has a mistake. -/
def lineTokens (line : List Char) : List Token := (lex line).getD []

/-- A text is lexed when its lines are, to the tokens of its lines. -/
theorem lex_lines {c : Char} (h : Separates c) {lines : List (List Char)} (hne : lines ≠ [])
    {tokens : List Token} :
    lex ([c].intercalate lines) = some tokens ↔
      (∀ line ∈ lines, (lex line).isSome) ∧ tokens = (lines.map lineTokens).flatten := by
  induction lines generalizing tokens with
  | nil => exact absurd rfl hne
  | cons line rest ih =>
      cases rest with
      | nil =>
          rw [List.intercalate_singleton, List.forall_mem_singleton, List.map_singleton,
            List.flatten_singleton, lineTokens]
          cases lex line with
          | none => simp
          | some first => simpa using eq_comm
      | cons next rest =>
          rw [List.intercalate_cons_cons, List.append_assoc, List.singleton_append, lex_separated h,
            List.forall_mem_cons]
          cases hline : lex line with
          | none => simp
          | some first =>
              simp only [Option.bind_some, Option.map_eq_some_iff, Option.isSome_some, true_and]
              constructor
              · rintro ⟨following, hfollowing, rfl⟩
                obtain ⟨hlexed, rfl⟩ := (ih (by simp)).mp hfollowing
                exact ⟨hlexed, by simp [lineTokens, hline]⟩
              · rintro ⟨hlexed, rfl⟩
                exact ⟨_, (ih (by simp)).mpr ⟨hlexed, rfl⟩, by simp [lineTokens, hline]⟩

/-- A token that has begun is given. -/
theorem lexFrom_ne_nil {place : Place} (h : place ≠ .gap) {text : List Char} {tokens : List Token}
    (hlex : lexFrom place text = some tokens) : tokens ≠ [] := by
  induction text generalizing place tokens with
  | nil =>
      cases place with
      | gap => exact absurd rfl h
      | word _ =>
          cases hlex
          simp
      | str _ | escape _ => cases hlex
  | cons c rest ih =>
      cases hnext : place.next c with
      | none =>
          rw [lexFrom_stuck hnext] at hlex
          cases hlex
      | some step =>
          obtain ⟨next, out⟩ := step
          rw [lexFrom_step hnext] at hlex
          obtain ⟨following, hfollowing, rfl⟩ := Option.map_eq_some_iff.mp hlex
          by_cases hgap : next = .gap
          · cases place with
            | gap => exact absurd rfl h
            | word _ | str _ | escape _ =>
                simp only [Place.next] at hnext
                split_ifs at hnext <;> cases hnext <;> simp_all
          · simp [ih hgap hfollowing]

theorem begins_ne_gap {c : Char} (hspace : isSpace c = false) (h : (begins c).2 = []) :
    (begins c).1 ≠ .gap := by
  unfold begins at h ⊢
  simp only [hspace, Bool.false_eq_true, if_false] at h ⊢
  by_cases hquote : c = '\x22'
  · simp [hquote]
  · simp only [if_neg hquote] at h ⊢
    cases hpunctuation : punctuation c with
    | none => simp
    | some token => simp [hpunctuation] at h

/-- Only blank text has no tokens. -/
theorem lex_eq_nil {text : List Char} : lex text = some [] ↔ ∀ c ∈ text, isSpace c := by
  induction text with
  | nil => simp [lex, lexFrom, Place.finish]
  | cons c rest ih =>
      have hgap : Place.next .gap c = some (begins c) := rfl
      rw [List.forall_mem_cons, ← ih]
      by_cases hspace : isSpace c = true
      · have hbegins : begins c = (.gap, []) := by simp [begins, hspace]
        rw [hbegins] at hgap
        rw [lex, lexFrom_silent hgap]
        simp [lex, hspace]
      · refine iff_of_false (fun hnil => ?_) fun h => hspace h.1
        rw [lex, lexFrom_step hgap] at hnil
        obtain ⟨following, hfollowing, hout⟩ := Option.map_eq_some_iff.mp hnil
        obtain ⟨hnone, hrest⟩ := List.append_eq_nil_iff.mp hout
        exact lexFrom_ne_nil (begins_ne_gap (by simpa using hspace) hnone) hfollowing hrest

/-! ### Strings in the text -/

/-- What has been read of a string. -/
def Place.read : Place → List Char
  | .str raw => '\x22' :: raw
  | .escape raw => '\x22' :: raw ++ ['\x5c']
  | _ => []

theorem begins_read (c : Char) :
    (begins c).1.read <:+ [c] ∧ ∀ raw, .str raw ∉ (begins c).2 := by
  unfold begins
  split
  · simp [Place.read]
  · split
    next hquote => simp [Place.read, hquote]
    next =>
      unfold punctuation
      split <;> rename_i h <;> split at h <;> cases h <;> simp [Place.read]

/-- A step keeps what was read, or gives the string it ends. -/
theorem Place.next_read {place next : Place} {c : Char} {out : List Token}
    (h : place.next c = some (next, out)) :
    next.read <:+ place.read ++ [c] ∧
      ∀ raw, .str raw ∈ out → '\x22' :: raw ++ ['\x22'] = place.read ++ [c] := by
  cases place with
  | gap =>
      obtain ⟨hread, hout⟩ := begins_read c
      rw [Option.some.inj h] at hread hout
      exact ⟨hread, fun raw hraw => absurd hraw (hout raw)⟩
  | word word =>
      simp only [Place.next] at h
      split at h
      · cases h
        simp [Place.read]
      · obtain ⟨hread, hout⟩ := begins_read c
        cases h
        exact ⟨hread, fun raw hraw => absurd (by simpa using hraw) (hout raw)⟩
  | str word =>
      simp only [Place.next] at h
      split_ifs at h with hquote hescape <;> cases h <;> simp_all [Place.read]
  | escape word =>
      simp only [Place.next] at h
      split_ifs at h
      cases h
      simp [Place.read]

/-- A string that is lexed stands in the text in its quotes. -/
theorem quoted_infix_from {place : Place} {text : List Char} {tokens : List Token} {raw : List Char}
    (h : lexFrom place text = some tokens) (hraw : .str raw ∈ tokens) :
    '\x22' :: raw ++ ['\x22'] <:+: place.read ++ text := by
  induction text generalizing place tokens with
  | nil =>
      cases place with
      | gap | word _ =>
          cases h
          simp at hraw
      | str _ | escape _ => cases h
  | cons c rest ih =>
      cases hnext : place.next c with
      | none =>
          rw [lexFrom_stuck hnext] at h
          cases h
      | some step =>
          obtain ⟨next, out⟩ := step
          obtain ⟨hread, hout⟩ := Place.next_read hnext
          rw [lexFrom_step hnext] at h
          obtain ⟨following, hfollowing, rfl⟩ := Option.map_eq_some_iff.mp h
          rcases List.mem_append.mp hraw with hnow | hlater
          · rw [hout raw hnow]
            exact ⟨[], rest, by simp⟩
          · obtain ⟨skipped, hskipped⟩ := hread
            refine (ih hfollowing hlater).trans ⟨skipped, [], ?_⟩
            rw [List.append_nil, ← List.append_assoc, hskipped, List.append_assoc,
              List.singleton_append]

theorem quoted_infix {text : List Char} {tokens : List Token} {raw : List Char}
    (h : lex text = some tokens) (hraw : .str raw ∈ tokens) :
    '\x22' :: raw ++ ['\x22'] <:+: text :=
  quoted_infix_from h hraw

end LlmWakeProxy.Library.Json
