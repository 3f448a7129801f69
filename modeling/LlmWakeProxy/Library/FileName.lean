import Mathlib.Data.List.DropRight
import Mathlib.Data.List.Infix

/-!
File names in path texts. The file name is what follows the last slash and its
stem what comes before the last dot, unless the dot is the first character. That
a name is the file name of a path, with or without its extension, is the same as
that it stands in the path in a certain place.
-/

namespace LlmWakeProxy.Library.FileName

/-- What follows the last slash. -/
def fileName (path : List Char) : List Char := path.rtakeWhile (· ≠ '/')

/-- A file name without its extension. -/
def fileStem (name : List Char) : List Char :=
  if (name.rdropWhile (· ≠ '.')).length ≤ 1 then name else (name.rdropWhile (· ≠ '.')).dropLast

/-- A bare name that is the file name of the path, with or without its extension. -/
def Names (bare path : List Char) : Prop :=
  '/' ∉ bare ∧ (bare = fileName path ∨ bare = fileStem (fileName path))

instance (bare path : List Char) : Decidable (Names bare path) :=
  inferInstanceAs (Decidable (_ ∧ _))

/-- The name occurs in the path after a slash, or first, and before an
extension, or last. -/
def StandsIn (bare path : List Char) : Prop :=
  '/' ∉ bare ∧ ∃ before after, path = before ++ bare ++ after ∧
    (before = [] ∨ ['/'] <:+ before) ∧
    (after = [] ∨ bare ≠ [] ∧ ∃ ext, after = '.' :: ext ∧ '.' ∉ ext ∧ '/' ∉ ext)

section LastSeparator

variable {c : Char} {before after : List Char}

theorem rtakeWhile_split (h : c ∉ after) :
    (before ++ c :: after).rtakeWhile (· ≠ c) = after := by
  have hrest : after.reverse.takeWhile (fun x => decide (x ≠ c)) = after.reverse :=
    List.takeWhile_eq_self_iff.mpr fun x hx => by
      simpa using fun heq : x = c => h (heq ▸ List.mem_reverse.mp hx)
  have hreverse : (before ++ c :: after).reverse = after.reverse ++ c :: before.reverse := by simp
  rw [List.rtakeWhile, hreverse, List.takeWhile_append, hrest, if_pos rfl, List.takeWhile_cons,
    if_neg (by simp)]
  simp

theorem rdropWhile_split (h : c ∉ after) :
    (before ++ c :: after).rdropWhile (· ≠ c) = before ++ [c] := by
  have hwhole := List.rdropWhile_append_rtakeWhile (p := fun x => decide (x ≠ c))
    (l := before ++ c :: after)
  rw [rtakeWhile_split h] at hwhole
  exact List.append_cancel_right (hwhole.trans (by simp))

theorem exists_split {text : List Char} (h : c ∈ text) :
    ∃ before after, text = before ++ c :: after ∧ c ∉ after := by
  obtain ⟨after, before, htext, hafter⟩ := List.eq_append_cons_of_mem (List.mem_reverse.mpr h)
  refine ⟨before.reverse, after.reverse, ?_, by simpa using hafter⟩
  rw [← List.reverse_reverse text, htext]
  simp

end LastSeparator

theorem fileName_split {dir name : List Char} (h : '/' ∉ name) :
    fileName (dir ++ '/' :: name) = name :=
  rtakeWhile_split h

theorem fileName_of_not_mem {name : List Char} (h : '/' ∉ name) : fileName name = name :=
  List.rtakeWhile_eq_self_iff.mpr fun x hx => by
    simpa using fun heq : x = '/' => h (heq ▸ hx)

/-- The file name is the slash-free end of the path that a slash precedes. -/
theorem eq_fileName_iff {name path : List Char} :
    name = fileName path ↔ '/' ∉ name ∧ ∃ before, path = before ++ name ∧
      (before = [] ∨ ['/'] <:+ before) := by
  constructor
  · rintro rfl
    by_cases hslash : '/' ∈ path
    · obtain ⟨dir, name, rfl, hname⟩ := exists_split hslash
      rw [fileName_split hname]
      exact ⟨hname, dir ++ ['/'], by simp, .inr (List.suffix_append _ _)⟩
    · rw [fileName_of_not_mem hslash]
      exact ⟨hslash, [], rfl, .inl rfl⟩
  · rintro ⟨hname, before, rfl, rfl | ⟨dir, rfl⟩⟩
    · exact (fileName_of_not_mem hname).symm
    · rw [List.append_assoc]
      exact (fileName_split hname).symm

/-- A stem is the whole name or, when it is not empty, what precedes an extension. -/
theorem eq_or_eq_fileStem_iff {bare name : List Char} :
    bare = name ∨ bare = fileStem name ↔
      bare = name ∨ bare ≠ [] ∧ ∃ ext, name = bare ++ '.' :: ext ∧ '.' ∉ ext := by
  refine or_congr_right' fun hne => ?_
  constructor
  · rintro rfl
    by_cases hdot : '.' ∈ name
    · obtain ⟨stem, ext, rfl, hext⟩ := exists_split hdot
      cases stem with
      | nil =>
          have hdrop : ([] ++ '.' :: ext).rdropWhile (· ≠ '.') = [] ++ ['.'] := rdropWhile_split hext
          refine absurd ?_ hne
          rw [fileStem, hdrop, if_pos (by simp)]
      | cons first rest =>
          have hstem : fileStem (first :: rest ++ '.' :: ext) = first :: rest := by
            rw [fileStem, rdropWhile_split hext, if_neg (by simp), List.dropLast_concat]
          rw [hstem]
          exact ⟨by simp, ext, rfl, hext⟩
    · have hnil : name.rdropWhile (fun x => decide (x ≠ '.')) = [] :=
        List.rdropWhile_eq_nil_iff.mpr fun x hx => by
          simpa using fun heq : x = '.' => hdot (heq ▸ hx)
      refine absurd ?_ hne
      rw [fileStem, hnil, if_pos (by simp)]
  · rintro ⟨hbare, ext, rfl, hext⟩
    have hlong : ¬ (bare ++ ['.']).length ≤ 1 := by
      have hpos := List.length_pos_of_ne_nil hbare
      simp only [List.length_append, List.length_singleton]
      omega
    rw [fileStem, rdropWhile_split hext, if_neg hlong, List.dropLast_concat]

theorem names_iff {bare path : List Char} : Names bare path ↔ StandsIn bare path := by
  unfold Names StandsIn
  refine and_congr_right fun hbare => ?_
  rw [eq_or_eq_fileStem_iff]
  constructor
  · rintro (hname | ⟨hne, ext, hname, hext⟩)
    · obtain ⟨_, before, hpath, hbefore⟩ := eq_fileName_iff.mp hname
      exact ⟨before, [], by simpa using hpath, hbefore, .inl rfl⟩
    · obtain ⟨hslash, before, hpath, hbefore⟩ := eq_fileName_iff.mp hname.symm
      refine ⟨before, '.' :: ext, by simpa using hpath, hbefore, .inr ⟨hne, ext, rfl, hext, ?_⟩⟩
      exact fun hmem => hslash (by simp [hmem])
  · rintro ⟨before, after, hpath, hbefore, rfl | ⟨hne, ext, rfl, hext, hslash⟩⟩
    · exact .inl (eq_fileName_iff.mpr ⟨hbare, before, by simpa using hpath, hbefore⟩)
    · refine .inr ⟨hne, ext, (eq_fileName_iff.mpr ⟨?_, before, by simpa using hpath, hbefore⟩).symm,
        hext⟩
      simp [hbare, hslash]

end LlmWakeProxy.Library.FileName
