import Mathlib.Data.List.Basic
import Mathlib.Data.List.Induction
import Mathlib.Logic.Function.Basic

/-!
Texts of lines `key=value`. A line ends with a line feed, or with a carriage return
before it; the end of the text ends the last one. A line is divided at its first
separator, and of several lines for one key the last counts.

What is printed as such lines is read back, as long as no key or value breaks a line.
-/

namespace LlmWakeProxy.Library.KeyValue

universe u v
variable {α : Type u} [DecidableEq α]

/-- The line without a carriage return at its end. -/
def chomp (cr : α) (line : List α) : List α :=
  if line.getLast? = some cr then line.dropLast else line

/-- The lines of a text; an empty last one is none. -/
def lines (lf cr : α) (text : List α) : List (List α) :=
  (text.splitOn lf).dropLast.map (chomp cr) ++
    ((text.splitOn lf).getLast?.filter (· ≠ [])).toList

/-- The two sides of the first separator. -/
def splitOnce (sep : α) : List α → Option (List α × List α)
  | [] => none
  | a :: rest =>
      if a = sep then some ([], rest)
      else (splitOnce sep rest).map fun (key, value) => (a :: key, value)

/-- The value that the last of the pairs has for the key. -/
def lastOf {κ : Type u} {β : Type v} [DecidableEq κ] (pairs : List (κ × β)) (key : κ) : Option β :=
  (pairs.filter (·.1 = key)).getLast?.map Prod.snd

/-- The line of a pair. -/
def line (sep : α) (pair : List α × List α) : List α := pair.1 ++ sep :: pair.2

/-- The lines of the pairs, each with a line feed. -/
def print (lf sep : α) (pairs : List (List α × List α)) : List α :=
  pairs.flatMap fun pair => line sep pair ++ [lf]

/-- The pair can be told from its line, and the line from the text. -/
structure Printable (lf cr sep : α) (pair : List α × List α) : Prop where
  key : sep ∉ pair.1
  unbroken : lf ∉ line sep pair
  value : (line sep pair).getLast? ≠ some cr

theorem splitOnce_eq_some {sep : α} {text key value : List α} :
    splitOnce sep text = some (key, value) ↔ sep ∉ key ∧ text = line sep (key, value) := by
  induction text generalizing key with
  | nil => simp [splitOnce, line]
  | cons a rest ih =>
      rw [splitOnce]
      by_cases same : a = sep
      · subst same
        rw [if_pos rfl]
        cases key with
        | nil => simp [line]
        | cons b key =>
            simp only [line, List.cons_append, List.mem_cons, List.cons.injEq, not_or,
              Option.some.injEq, Prod.mk.injEq, reduceCtorEq, false_and, false_iff]
            exact fun ⟨⟨differs, _⟩, same, _⟩ => differs same
      · rw [if_neg same, Option.map_eq_some_iff]
        cases key with
        | nil => simp [line, same]
        | cons b key =>
            simp only [line, List.cons_append, List.mem_cons, List.cons.injEq, not_or,
              Prod.exists, Prod.mk.injEq]
            constructor
            · rintro ⟨key', value', found, ⟨rfl, rfl⟩, rfl⟩
              obtain ⟨fresh, split⟩ := ih.mp found
              exact ⟨⟨Ne.symm same, fresh⟩, rfl, split⟩
            · rintro ⟨⟨_, fresh⟩, rfl, split⟩
              exact ⟨key, value, ih.mpr ⟨fresh, split⟩, ⟨rfl, rfl⟩, rfl⟩

/-- Of pairs inserted in turn the last for a key counts. -/
theorem foldl_update {κ : Type u} {β : Type v} [DecidableEq κ] (pairs : List (κ × β))
    (found : κ → Option β) (key : κ) :
    (pairs.foldl (fun (m : κ → Option β) (pair : κ × β) =>
      Function.update m pair.1 (some pair.2)) found) key =
      (lastOf pairs key).or (found key) := by
  induction pairs using List.reverseRecOn with
  | nil => rfl
  | append_singleton pairs pair ih =>
      rw [List.foldl_append, lastOf, List.filter_append]
      by_cases here : pair.1 = key
      · subst here
        simp
      · simp [here, Function.update_of_ne (Ne.symm here), ih, lastOf]

omit [DecidableEq α] in
theorem print_eq (lf sep : α) (pairs : List (List α × List α)) :
    print lf sep pairs = [lf].intercalate (pairs.map (line sep) ++ [[]]) := by
  induction pairs with
  | nil => rfl
  | cons pair rest ih =>
      rw [print, List.flatMap_cons, ← print, ih, List.map_cons, List.cons_append]
      cases rest with
      | nil => simp [List.intercalate]
      | cons next rest => simp [List.intercalate]

/-- The lines that are printed are read. -/
theorem lines_print {lf cr sep : α} {pairs : List (List α × List α)}
    (h : ∀ pair ∈ pairs, Printable lf cr sep pair) :
    lines lf cr (print lf sep pairs) = pairs.map (line sep) := by
  have unbroken : ∀ text ∈ pairs.map (line sep) ++ [[]], lf ∉ text := by
    intro text htext
    obtain hline | rfl := List.mem_append.mp htext |>.imp_right List.mem_singleton.mp
    · obtain ⟨pair, hpair, rfl⟩ := List.mem_map.mp hline
      exact (h pair hpair).unbroken
    · exact List.not_mem_nil
  have kept : ∀ pair ∈ pairs, chomp cr (line sep pair) = line sep pair :=
    fun pair hpair => if_neg (h pair hpair).value
  rw [lines, print_eq, List.splitOn_intercalate lf unbroken (by simp), List.dropLast_concat,
    List.getLast?_concat, List.map_map]
  rw [show pairs.map (chomp cr ∘ line sep) = pairs.map (line sep) from List.map_congr_left kept]
  exact List.append_nil _

/-- The pairs that the lines of a text stand for. -/
def pairsOf (lf cr sep : α) (text : List α) : List (List α × List α) :=
  (lines lf cr text).filterMap (splitOnce sep)

/-- What is printed is read back. -/
theorem pairsOf_print {lf cr sep : α} {printed : List (List α × List α)}
    (h : ∀ pair ∈ printed, Printable lf cr sep pair) :
    pairsOf lf cr sep (print lf sep printed) = printed := by
  have divided : ∀ pair ∈ printed, (splitOnce sep ∘ line sep) pair = some pair :=
    fun pair hpair => splitOnce_eq_some.mpr ⟨(h pair hpair).key, rfl⟩
  rw [pairsOf, lines_print h, List.filterMap_map, List.filterMap_congr divided, List.filterMap_some]

end LlmWakeProxy.Library.KeyValue
