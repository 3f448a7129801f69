import Mathlib.Algebra.GroupWithZero.Nat
import Mathlib.Data.Bool.AllAny
import Mathlib.Data.List.Infix

/-!
The reading of a POSIX shell: a text is cut into words at unquoted blanks, and
the quotes are removed. Where a text has an operator, an expansion, a pattern or
a comment outside quotes, what the shell makes of it is not only a matter of the
text, and there is no reading here.

Words that are joined by spaces are read back when every word is plain, and not
otherwise: a character for quoting is lost, and a blank divides its word. Since
reading never gives back more than it was given, a reading that is as long as
its text has plain words only.
-/

namespace LlmWakeProxy.Library.Shell

def blanks : List Char := [' ', '\t']

def quotes : List Char := ['\x27', '\x22', '\x5c']

/-- Operators, the characters that begin an expansion, and those of patterns. -/
def actives : List Char := ['\n', '|', '&', ';', '<', '>', '(', ')', '$', '\x60', '*', '?', '[']

/-- The characters that have a meaning where a word begins: a comment, a home directory. -/
def leaders : List Char := ['#', '~']

/-- A character that stands for itself wherever it stands in a word. -/
def Ordinary (c : Char) : Prop := c ∉ blanks ∧ c ∉ quotes ∧ c ∉ actives

instance (c : Char) : Decidable (Ordinary c) := inferInstanceAs (Decidable (_ ∧ _ ∧ _))

/-- A word that is read as it is. -/
structure Plain (word : List Char) : Prop where
  ne_nil : word ≠ []
  ordinary : ∀ c ∈ word, Ordinary c
  leader : ∀ c ∈ word.head?, c ∉ leaders

instance (word : List Char) : Decidable (Plain word) :=
  decidable_of_iff
    (word ≠ [] ∧ word.all (Ordinary ·) = true ∧ word.head?.all (· ∉ leaders) = true)
    ⟨fun h => ⟨h.1, List.all_iff_forall_prop.mp h.2.1, by simpa [Option.all_eq_true] using h.2.2⟩,
      fun h => ⟨h.ne_nil, List.all_iff_forall_prop.mpr h.ordinary,
        by simpa [Option.all_eq_true] using h.leader⟩⟩

/-- Where a reading is: between words, in a word outside quotes, within quotes, or
after a backslash. -/
inductive Place where
  | gap
  | word
  | single
  | double
  | escaped (inWord : Bool)
  | escapedDouble
  deriving DecidableEq, Repr

/-- What a character gives: nothing, a part of the word, or the word's end. -/
inductive Effect where
  | skip
  | keep (part : List Char)
  | close
  deriving DecidableEq, Repr

/-- A character outside quotes that is no blank. -/
def unquoted (inWord : Bool) (c : Char) : Option (Place × Effect) :=
  if c = '\x27' then some (.single, .keep [])
  else if c = '\x22' then some (.double, .keep [])
  else if c = '\x5c' then some (.escaped inWord, .skip)
  else if c ∈ actives ∨ (inWord = false ∧ c ∈ leaders) then none
  else some (.word, .keep [c])

def Place.next : Place → Char → Option (Place × Effect)
  | .gap, c => if c ∈ blanks then some (.gap, .skip) else unquoted false c
  | .word, c => if c ∈ blanks then some (.gap, .close) else unquoted true c
  | .single, c => if c = '\x27' then some (.word, .keep []) else some (.single, .keep [c])
  | .double, c =>
      if c = '\x22' then some (.word, .keep [])
      else if c = '\x5c' then some (.escapedDouble, .skip)
      else if c = '$' ∨ c = '\x60' then none
      else some (.double, .keep [c])
  -- a backslash and a line break are both removed
  | .escaped inWord, c =>
      if c = '\n' then some (if inWord then .word else .gap, .skip) else some (.word, .keep [c])
  | .escapedDouble, c =>
      if c = '\n' then some (.double, .skip)
      else if c ∈ ['$', '\x60', '\x22', '\x5c'] then some (.double, .keep [c])
      else some (.double, .keep ['\x5c', c])

/-- Add what a character gives to the words that follow; the first of them is the
rest of the word that is being read. -/
def Effect.apply : Effect → List (List Char) → List (List Char)
  | .skip, words => words
  | .keep part, words => words.modifyHead (part ++ ·)
  | .close, words => [] :: words

/-- The words from a place on. -/
def wordsFrom : Place → List Char → Option (List (List Char))
  | .gap, [] => some []
  | .word, [] => some [[]]
  | _, [] => none
  | place, c :: rest =>
      match place.next c with
      | some (next, effect) => (wordsFrom next rest).map effect.apply
      | none => none

/-- The words of a text. -/
def words (text : List Char) : Option (List (List Char)) := wordsFrom .gap text

def join (args : List (List Char)) : List Char := [' '].intercalate args

theorem wordsFrom_step {place next : Place} {c : Char} {effect : Effect} {rest : List Char}
    (h : place.next c = some (next, effect)) :
    wordsFrom place (c :: rest) = (wordsFrom next rest).map effect.apply := by
  rw [wordsFrom, h]

theorem wordsFrom_cases {place : Place} {c : Char} {rest : List Char} {read : List (List Char)}
    (h : wordsFrom place (c :: rest) = some read) :
    ∃ next effect following, place.next c = some (next, effect) ∧
      wordsFrom next rest = some following ∧ read = effect.apply following := by
  rw [wordsFrom] at h
  split at h
  · rename_i next effect hnext
    obtain ⟨following, hfollowing, rfl⟩ := Option.map_eq_some_iff.mp h
    exact ⟨next, effect, following, hnext, hfollowing, rfl⟩
  · cases h

/-! ### Lengths -/

/-- The length of the words with a separator after each. -/
def weight (words : List (List Char)) : Nat := (words.map fun word => word.length + 1).sum

@[simp] theorem weight_nil : weight [] = 0 := rfl

@[simp] theorem weight_cons (word : List Char) (words : List (List Char)) :
    weight (word :: words) = word.length + 1 + weight words := rfl

@[simp] theorem weight_append (words others : List (List Char)) :
    weight (words ++ others) = weight words + weight others := by
  simp [weight]

theorem length_lt_weight {word : List Char} {words : List (List Char)} (h : word ∈ words) :
    word.length < weight words := by
  obtain ⟨before, after, rfl⟩ := List.append_of_mem h
  rw [weight_append, weight_cons]
  omega

theorem weight_join (args : List (List Char)) (h : args ≠ []) :
    (join args).length + 1 = weight args := by
  induction args with
  | nil => exact absurd rfl h
  | cons arg rest ih =>
      cases rest with
      | nil => simp [join]
      | cons next rest =>
          have hrest := ih (by simp)
          rw [join] at hrest ⊢
          rw [List.intercalate_cons_cons, weight_cons, ← hrest]
          simp only [List.length_append, List.length_singleton]
          omega

def Effect.weight : Effect → Nat
  | .skip => 0
  | .keep part => part.length
  | .close => 1

/-- What the place holds back: a backslash in double quotes may turn out to stand
for itself. -/
def Place.held : Place → Nat
  | .escapedDouble => 2
  | _ => 1

theorem weight_apply_le (effect : Effect) (words : List (List Char)) :
    weight (effect.apply words) ≤ effect.weight + weight words := by
  cases effect with
  | skip => simp [Effect.apply]
  | close => simp [Effect.apply, Effect.weight]
  | keep part =>
      cases words with
      | nil => simp [Effect.apply]
      | cons word rest =>
          simp only [Effect.apply, Effect.weight, List.modifyHead_cons, weight_cons,
            List.length_append]
          omega

theorem unquoted_held {inWord : Bool} {c : Char} {next : Place} {effect : Effect}
    (h : unquoted inWord c = some (next, effect)) : effect.weight + next.held ≤ 2 := by
  unfold unquoted at h
  split_ifs at h <;> cases h <;> simp [Effect.weight, Place.held]

/-- A character gives no more than it is long, and what was held back. -/
theorem Place.next_held {place next : Place} {c : Char} {effect : Effect}
    (h : place.next c = some (next, effect)) : effect.weight + next.held ≤ place.held + 1 := by
  cases place with
  | gap | word =>
      simp only [Place.next] at h
      split_ifs at h
      · cases h
        simp [Effect.weight, Place.held]
      · exact unquoted_held h
  | single | double | escaped _ | escapedDouble =>
      simp only [Place.next] at h
      split_ifs at h <;> cases h <;> simp [Effect.weight, Place.held]

/-- A reading is no longer than its text. -/
theorem weight_wordsFrom_le {place : Place} {text : List Char} {read : List (List Char)}
    (h : wordsFrom place text = some read) : weight read ≤ text.length + place.held := by
  induction text generalizing place read with
  | nil =>
      cases place with
      | gap | word =>
          cases h
          simp [Place.held]
      | single | double | escaped _ | escapedDouble => cases h
  | cons c rest ih =>
      obtain ⟨next, effect, following, hnext, hfollowing, rfl⟩ := wordsFrom_cases h
      have happly := weight_apply_le effect following
      have hheld := Place.next_held hnext
      have hlength := ih hfollowing
      rw [List.length_cons]
      omega

/-! ### Plain words -/

theorem unquoted_tight {inWord : Bool} {c : Char} {next : Place} {effect : Effect}
    (h : unquoted inWord c = some (next, effect)) (hblank : c ∉ blanks)
    (tight : 2 ≤ effect.weight + next.held) :
    next = .word ∧ effect = .keep [c] ∧ Ordinary c ∧ (inWord = false → c ∉ leaders) := by
  unfold unquoted at h
  split_ifs at h with hsingle hdouble hescape hactive
  · cases h
    simp [Effect.weight, Place.held] at tight
  · cases h
    simp [Effect.weight, Place.held] at tight
  · cases h
    simp [Effect.weight, Place.held] at tight
  · cases h
    obtain ⟨hactive, hleader⟩ := not_or.mp hactive
    refine ⟨rfl, rfl, ⟨hblank, ?_, hactive⟩, fun hout hmem => hleader ⟨hout, hmem⟩⟩
    simp [quotes, hsingle, hdouble, hescape]

/-- Outside quotes a character that gives all it is long stands for itself, or ends a word. -/
theorem Place.next_tight {place next : Place} {c : Char} {effect : Effect}
    (h : place.next c = some (next, effect)) (outside : place = .gap ∨ place = .word)
    (tight : 2 ≤ effect.weight + next.held) :
    (next = .word ∧ effect = .keep [c] ∧ Ordinary c ∧ (place = .gap → c ∉ leaders)) ∨
      (place = .word ∧ next = .gap ∧ effect = .close) := by
  obtain rfl | rfl := outside
  · simp only [Place.next] at h
    split_ifs at h with hblank
    · cases h
      simp [Effect.weight, Place.held] at tight
    · obtain ⟨hnext, heffect, hordinary, hleader⟩ := unquoted_tight h hblank tight
      exact .inl ⟨hnext, heffect, hordinary, fun _ => hleader rfl⟩
  · simp only [Place.next] at h
    split_ifs at h with hblank
    · cases h
      exact .inr ⟨rfl, rfl, rfl⟩
    · obtain ⟨hnext, heffect, hordinary, _⟩ := unquoted_tight h hblank tight
      exact .inl ⟨hnext, heffect, hordinary, fun hgap => nomatch hgap⟩

/-- What a reading outside quotes gives when nothing is lost. -/
def AllPlain : Place → List (List Char) → Prop
  | .word, read => ∃ word rest, read = word :: rest ∧ (∀ c ∈ word, Ordinary c) ∧
      ∀ other ∈ rest, Plain other
  | _, read => ∀ word ∈ read, Plain word

theorem allPlain_of_tight {place : Place} {text : List Char} {read : List (List Char)}
    (h : wordsFrom place text = some read) (outside : place = .gap ∨ place = .word)
    (tight : text.length + 1 ≤ weight read) : AllPlain place read := by
  induction text generalizing place read with
  | nil =>
      obtain rfl | rfl := outside
      · cases h
        simp [AllPlain]
      · cases h
        simp [AllPlain]
  | cons c rest ih =>
      obtain ⟨next, effect, following, hnext, hfollowing, rfl⟩ := wordsFrom_cases h
      have happly := weight_apply_le effect following
      have hlength := weight_wordsFrom_le hfollowing
      rw [List.length_cons] at tight
      obtain ⟨rfl, rfl, hordinary, hleader⟩ | ⟨rfl, rfl, rfl⟩ :=
        Place.next_tight hnext outside (by omega)
      · have hfull : rest.length + 1 ≤ weight following := by
          simp only [Effect.weight, List.length_singleton] at happly
          omega
        obtain ⟨word, others, rfl, hword, hothers⟩ := ih hfollowing (.inr rfl) hfull
        have hall : ∀ d ∈ c :: word, Ordinary d := by
          simpa using ⟨hordinary, hword⟩
        obtain rfl | rfl := outside
        · simp only [AllPlain, Effect.apply, List.modifyHead_cons, List.forall_mem_cons]
          exact ⟨⟨by simp, hall, by simpa using hleader rfl⟩, hothers⟩
        · exact ⟨c :: word, others, rfl, hall, hothers⟩
      · have hfull : rest.length + 1 ≤ weight following := by
          simp only [Effect.weight] at happly
          omega
        exact ⟨[], following, rfl, by simp, ih hfollowing (.inl rfl) hfull⟩

/-- The words of a text that lost nothing in reading are plain. -/
theorem plain_of_tight {text : List Char} {read : List (List Char)} (h : words text = some read)
    (tight : text.length + 1 ≤ weight read) : ∀ word ∈ read, Plain word :=
  allPlain_of_tight h (.inl rfl) tight

theorem next_word_of_ordinary {c : Char} (h : Ordinary c) :
    Place.next .word c = some (.word, .keep [c]) := by
  obtain ⟨hblank, hquote, hactive⟩ := h
  simp only [quotes, List.mem_cons, List.not_mem_nil, or_false, not_or] at hquote
  simp [Place.next, unquoted, hblank, hquote, hactive]

theorem next_gap_of_ordinary {c : Char} (h : Ordinary c) (hleader : c ∉ leaders) :
    Place.next .gap c = some (.word, .keep [c]) := by
  obtain ⟨hblank, hquote, hactive⟩ := h
  simp only [quotes, List.mem_cons, List.not_mem_nil, or_false, not_or] at hquote
  simp [Place.next, unquoted, hblank, hquote, hactive, hleader]

private theorem map_keep (c : Char) (word : List Char) (read : Option (List (List Char))) :
    (read.map fun words => words.modifyHead (word ++ ·)).map (Effect.keep [c]).apply =
      read.map fun words => words.modifyHead (c :: word ++ ·) := by
  rw [Option.map_map]
  congr 1
  funext words
  cases words <;> rfl

theorem wordsFrom_ordinary {word : List Char} (h : ∀ c ∈ word, Ordinary c) (rest : List Char) :
    wordsFrom .word (word ++ rest) =
      (wordsFrom .word rest).map fun words => words.modifyHead (word ++ ·) := by
  induction word with
  | nil =>
      have hid : (fun words : List (List Char) => words.modifyHead ([] ++ ·)) = id := by
        funext words
        cases words <;> rfl
      rw [hid, Option.map_id]
      rfl
  | cons c word ih =>
      rw [List.cons_append, wordsFrom_step (next_word_of_ordinary (h c List.mem_cons_self)),
        ih fun d hd => h d (List.mem_cons_of_mem _ hd)]
      exact map_keep c word _

theorem wordsFrom_plain {word : List Char} (h : Plain word) (rest : List Char) :
    wordsFrom .gap (word ++ rest) =
      (wordsFrom .word rest).map fun words => words.modifyHead (word ++ ·) := by
  cases word with
  | nil => exact absurd rfl h.ne_nil
  | cons c word =>
      rw [List.cons_append, wordsFrom_step (next_gap_of_ordinary (h.ordinary c List.mem_cons_self)
          (h.leader c rfl)),
        wordsFrom_ordinary fun d hd => h.ordinary d (List.mem_cons_of_mem _ hd)]
      exact map_keep c word _

/-- Plain words are read back. -/
theorem words_join {args : List (List Char)} (h : ∀ arg ∈ args, Plain arg) :
    words (join args) = some args := by
  induction args with
  | nil => rfl
  | cons arg rest ih =>
      have harg := h arg List.mem_cons_self
      have hrest := ih fun other hother => h other (List.mem_cons_of_mem _ hother)
      cases rest with
      | nil =>
          have hread := wordsFrom_plain harg []
          simpa [words, join, wordsFrom] using hread
      | cons next rest =>
          have hblank : Place.next .word ' ' = some (.gap, .close) := rfl
          rw [words, join] at hrest ⊢
          rw [List.intercalate_cons_cons, List.append_assoc, wordsFrom_plain harg,
            List.singleton_append, wordsFrom_step hblank, hrest]
          simp [Effect.apply]

/-- Joined words are read back exactly when they are plain. -/
theorem words_join_iff {args : List (List Char)} :
    words (join args) = some args ↔ ∀ arg ∈ args, Plain arg := by
  refine ⟨fun h => ?_, words_join⟩
  cases args with
  | nil => simp
  | cons arg rest => exact plain_of_tight h (weight_join _ (by simp)).le

end LlmWakeProxy.Library.Shell
