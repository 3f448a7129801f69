import Mathlib.Data.List.Infix

/-!
Line-wise processing of a text that arrives in chunks. A function applied to
every line of the whole text is compared with the same function applied to
every line of every chunk. The two differ only on the lines a chunk boundary
divides: the chunks see the pieces of such a line, the whole text sees the line.
A line none of whose infixes the function changes is indifferent to being
divided, and no other line is.
-/

namespace LlmWakeProxy.Library.Lines

universe u
variable {α : Type u} [DecidableEq α] {sep : α} {f : List α → List α}

/-- Apply `f` to every line. -/
def linewise (sep : α) (f : List α → List α) (text : List α) : List α :=
  [sep].intercalate ((text.splitOn sep).map f)

omit [DecidableEq α] in
theorem intercalate_append {lines others : List (List α)} (hlines : lines ≠ [])
    (hothers : others ≠ []) :
    [sep].intercalate (lines ++ others) =
      [sep].intercalate lines ++ sep :: [sep].intercalate others := by
  induction lines with
  | nil => exact absurd rfl hlines
  | cons line rest ih =>
      cases rest with
      | nil =>
          rw [List.singleton_append, List.intercalate_cons_of_ne_nil hothers]
          simp
      | cons next rest =>
          rw [List.cons_append, List.cons_append, List.intercalate_cons_cons,
            ← List.cons_append, ih (by simp), List.intercalate_cons_cons]
          simp

/-- Two texts put together at a line break are processed each by itself. -/
theorem linewise_append (f : List α → List α) (text other : List α) :
    linewise sep f (text ++ sep :: other) = linewise sep f text ++ sep :: linewise sep f other := by
  have hsplit : (text ++ sep :: other).splitOn sep = text.splitOn sep ++ other.splitOn sep :=
    List.splitOn_append_cons_self text other
  rw [linewise, hsplit, List.map_append]
  exact intercalate_append (by simp) (by simp)

/-- Put the lines of a chunk before the divided lines of what follows: the last
line of the chunk is the first piece of the first line that follows. -/
def attach : List (List α) → List (List (List α)) → List (List (List α))
  | [], lines => lines
  | [last], [] => [[last]]
  | [last], line :: lines => (last :: line) :: lines
  | line :: next :: rest, lines => [line] :: attach (next :: rest) lines

/-- The lines of the chunks' concatenation, each as its pieces. -/
def pieces (sep : α) : List (List α) → List (List (List α))
  | [] => [[]]
  | chunk :: rest => attach (chunk.splitOn sep) (pieces sep rest)

omit [DecidableEq α] in
theorem attach_ne_nil (chunk : List (List α)) {lines : List (List (List α))} (h : lines ≠ []) :
    attach chunk lines ≠ [] := by
  induction chunk with
  | nil => exact h
  | cons line rest ih =>
      cases rest with
      | nil => cases lines <;> simp [attach]
      | cons next rest => simp [attach]

theorem pieces_ne_nil (chunks : List (List α)) : pieces sep chunks ≠ [] := by
  induction chunks with
  | nil => simp [pieces]
  | cons chunk rest ih => exact attach_ne_nil _ ih

omit [DecidableEq α] in
theorem intercalate_attach (f : List α → List α) {chunk : List (List α)}
    {lines : List (List (List α))} (hchunk : chunk ≠ []) (hlines : lines ≠ []) :
    [sep].intercalate ((attach chunk lines).map fun ps => ps.flatMap f) =
      [sep].intercalate (chunk.map f) ++
        [sep].intercalate (lines.map fun ps => ps.flatMap f) := by
  induction chunk with
  | nil => exact absurd rfl hchunk
  | cons line rest ih =>
      cases rest with
      | nil =>
          cases lines with
          | nil => exact absurd rfl hlines
          | cons first others =>
              cases others <;> simp [attach, List.intercalate_cons_cons]
      | cons next rest =>
          have attached := attach_ne_nil (next :: rest) hlines
          rw [attach, List.map_cons, List.map_cons, List.map_cons,
            List.intercalate_cons_of_ne_nil (by simpa using attached), ih (by simp),
            List.map_cons, List.intercalate_cons_cons]
          simp

/-- Processing chunk by chunk is processing the pieces of every line. -/
theorem flatMap_linewise (f : List α → List α) (chunks : List (List α)) :
    chunks.flatMap (linewise sep f) =
      [sep].intercalate ((pieces sep chunks).map fun ps => ps.flatMap f) := by
  induction chunks with
  | nil => simp [pieces]
  | cons chunk rest ih =>
      rw [List.flatMap_cons, pieces,
        intercalate_attach f (List.splitOn_ne_nil sep chunk) (pieces_ne_nil rest), ← ih]
      rfl

omit [DecidableEq α] in
theorem mem_attach {P : List α → Prop} {chunk : List (List α)} {lines : List (List (List α))}
    (hchunk : ∀ line ∈ chunk, P line) (hlines : ∀ ps ∈ lines, ∀ p ∈ ps, P p) :
    ∀ ps ∈ attach chunk lines, ∀ p ∈ ps, P p := by
  induction chunk with
  | nil => exact hlines
  | cons line rest ih =>
      have hline := hchunk line List.mem_cons_self
      have hrest := fun other h => hchunk other (List.mem_cons_of_mem _ h)
      cases rest with
      | nil =>
          cases lines with
          | nil => simpa [attach] using hline
          | cons first others =>
              intro ps hps p hp
              rcases List.mem_cons.mp hps with rfl | hothers
              · rcases List.mem_cons.mp hp with rfl | hfirst
                · exact hline
                · exact hlines first List.mem_cons_self p hfirst
              · exact hlines ps (List.mem_cons_of_mem _ hothers) p hp
      | cons next rest =>
          intro ps hps p hp
          rcases List.mem_cons.mp hps with rfl | hothers
          · exact List.mem_singleton.mp hp ▸ hline
          · exact ih hrest ps hothers p hp

theorem not_mem_of_mem_splitOn {text : List α} :
    ∀ line ∈ text.splitOn sep, sep ∉ line := by
  induction text with
  | nil => simp
  | cons a rest ih =>
      have hne := List.splitOn_ne_nil sep rest
      rw [List.splitOn_cons_eq_if_modifyHead]
      split
      · simpa using ih
      · rename_i hsep
        generalize rest.splitOn sep = lines at ih hne ⊢
        cases lines with
        | nil => exact absurd rfl hne
        | cons first others =>
            have hne : sep ≠ a := fun heq => hsep (by simp [heq])
            simpa [hne] using ih

/-- What is made of the lines are the lines of what is made of the text. -/
theorem splitOn_linewise {text : List α} (hf : ∀ line, sep ∉ line → sep ∉ f line) :
    (linewise sep f text).splitOn sep = (text.splitOn sep).map f := by
  refine List.splitOn_intercalate sep ?_ (by simp)
  intro line hline
  obtain ⟨original, horiginal, rfl⟩ := List.mem_map.mp hline
  exact hf original (not_mem_of_mem_splitOn original horiginal)

/-- To process every line again changes nothing if it does not on a single line. -/
theorem linewise_idempotent (hf : ∀ line, sep ∉ line → sep ∉ f line)
    (again : ∀ line, sep ∉ line → f (f line) = f line) (text : List α) :
    linewise sep f (linewise sep f text) = linewise sep f text := by
  rw [linewise, splitOn_linewise hf, List.map_map]
  refine congrArg _ (List.map_congr_left fun line hline => ?_)
  exact again line (not_mem_of_mem_splitOn line hline)

theorem not_mem_of_mem_pieces {chunks : List (List α)} :
    ∀ ps ∈ pieces sep chunks, ∀ p ∈ ps, sep ∉ p := by
  induction chunks with
  | nil => simp [pieces]
  | cons chunk rest ih => exact mem_attach not_mem_of_mem_splitOn ih

/-- The pieces of the lines, joined, are the lines. -/
theorem splitOn_flatten (chunks : List (List α)) :
    chunks.flatten.splitOn sep = (pieces sep chunks).map List.flatten := by
  have joined : chunks.flatten = [sep].intercalate ((pieces sep chunks).map List.flatten) := by
    have whole : chunks.flatMap (linewise sep id) = _ := flatMap_linewise id chunks
    have lines : linewise sep id = id := by
      funext text
      simp [linewise, List.intercalate_splitOn]
    simpa only [lines, List.flatMap_id] using whole
  rw [joined]
  refine List.splitOn_intercalate sep ?_ ?_
  · intro line hline
    obtain ⟨ps, hps, rfl⟩ := List.mem_map.mp hline
    intro hsep
    obtain ⟨p, hp, hmem⟩ := List.mem_flatten.mp hsep
    exact not_mem_of_mem_pieces ps hps p hp hmem
  · simpa using pieces_ne_nil chunks

/-- Processing the whole text is processing its lines. -/
theorem linewise_flatten (f : List α → List α) (chunks : List (List α)) :
    linewise sep f chunks.flatten =
      [sep].intercalate ((pieces sep chunks).map fun ps => f ps.flatten) := by
  rw [linewise, splitOn_flatten, List.map_map]
  rfl

/-- The lines that a chunk boundary divides, as their non-empty pieces. -/
def divided (sep : α) (chunks : List (List α)) : List (List (List α)) :=
  ((pieces sep chunks).map fun ps => ps.filter fun p => p ≠ []).filter fun ps => 2 ≤ ps.length

/-- Nothing inside the line is changed, wherever one cuts. -/
def Inert (f : List α → List α) (line : List α) : Prop := ∀ p, p <:+: line → f p = p

omit [DecidableEq α] in
private theorem flatMap_filter_ne_nil (hempty : f [] = []) (ps : List (List α)) :
    (ps.filter fun p => p ≠ []).flatMap f = ps.flatMap f := by
  induction ps with
  | nil => rfl
  | cons p rest ih =>
      by_cases hp : p = []
      · simp [hp, hempty, ← ih]
      · simp [hp, ← ih]

omit [DecidableEq α] in
private theorem flatten_filter_ne_nil (ps : List (List α)) :
    (ps.filter fun p => p ≠ []).flatten = ps.flatten := by
  simpa using flatMap_filter_ne_nil (f := id) rfl ps

omit [DecidableEq α] in
/-- Changing the pieces of an inert line changes nothing. -/
theorem Inert.flatMap {ps : List (List α)} (h : Inert f ps.flatten) : ps.flatMap f = ps.flatten := by
  have fixed : ∀ p ∈ ps, f p = p := by
    intro p hp
    refine h p ?_
    obtain ⟨before, after, rfl⟩ := List.append_of_mem hp
    exact ⟨before.flatten, after.flatten, by simp⟩
  rw [List.flatMap_def, List.map_congr_left fixed, List.map_id']

/-- Chunks that divide inert lines only are processed like the whole text. -/
theorem flatMap_linewise_of_inert (hempty : f [] = []) {chunks : List (List α)}
    (h : ∀ ps ∈ divided sep chunks, Inert f ps.flatten) :
    chunks.flatMap (linewise sep f) = linewise sep f chunks.flatten := by
  rw [flatMap_linewise, linewise_flatten]
  refine congrArg _ (List.map_congr_left fun ps hps => ?_)
  rw [← flatMap_filter_ne_nil hempty ps, ← flatten_filter_ne_nil ps]
  cases hfilter : ps.filter fun p => p ≠ [] with
  | nil => simp [hempty]
  | cons p rest =>
      cases rest with
      | nil => simp
      | cons q rest =>
          have hdivided : p :: q :: rest ∈ divided sep chunks := by
            refine List.mem_filter.mpr ⟨?_, by simp⟩
            exact List.mem_map.mpr ⟨ps, hps, hfilter⟩
          have inert := h _ hdivided
          rw [inert.flatMap, inert _ (List.infix_refl _)]

/-- A text without the separator is one line. -/
theorem linewise_of_not_mem {text : List α} (h : sep ∉ text) : linewise sep f text = f text := by
  simp [linewise, List.splitOn_eq_singleton h]

omit [DecidableEq α] in
theorem infix_intercalate {lines : List (List α)} {line : List α} (h : line ∈ lines) :
    line <:+: [sep].intercalate lines := by
  induction lines with
  | nil => cases h
  | cons first rest ih =>
      cases rest with
      | nil =>
          obtain rfl := List.mem_singleton.mp h
          simp
      | cons next rest =>
          rw [List.intercalate_cons_cons]
          rcases List.mem_cons.mp h with rfl | hrest
          · exact ⟨[], [sep] ++ [sep].intercalate (next :: rest), by simp⟩
          · exact (ih hrest).trans ⟨first ++ [sep], [], by simp⟩

theorem infix_of_mem_splitOn {text line : List α} (h : line ∈ text.splitOn sep) : line <:+: text := by
  have inside : line <:+: [sep].intercalate (text.splitOn sep) := infix_intercalate h
  rwa [List.intercalate_splitOn] at inside

omit [DecidableEq α] in
private theorem flatten_singletons (text : List α) : (text.map fun a => [a]).flatten = text := by
  induction text with
  | nil => rfl
  | cons a rest ih => simp [ih]

/-- One element at a time nothing is changed. -/
private theorem flatMap_singletons (hshort : ∀ p : List α, p.length ≤ 1 → f p = p) (text : List α) :
    (text.map fun a => [a]).flatMap (linewise sep f) = text := by
  induction text with
  | nil => rfl
  | cons a rest ih =>
      have single : linewise sep f [a] = [a] := by
        by_cases hsep : a = sep
        · have hempty : f [] = [] := hshort [] (by simp)
          simp [linewise, hsep, List.splitOn_cons_eq_if_modifyHead, hempty,
            List.intercalate_cons_cons]
        · rw [linewise_of_not_mem (by simpa using Ne.symm hsep), hshort [a] (by simp)]
      rw [List.map_cons, List.flatMap_cons, single, ih]
      rfl

/-- A text is processed alike in all chunkings exactly when its lines are inert. -/
theorem chunking_irrelevant_iff (hshort : ∀ p : List α, p.length ≤ 1 → f p = p) (text : List α) :
    (∀ chunks : List (List α), chunks.flatten = text →
        chunks.flatMap (linewise sep f) = linewise sep f text) ↔
      ∀ line ∈ text.splitOn sep, Inert f line := by
  constructor
  · intro h line hline p hp
    obtain ⟨before, after, htext⟩ := hp.trans (infix_of_mem_splitOn hline)
    have hsep : sep ∉ p := fun hmem => not_mem_of_mem_splitOn line hline (hp.subset hmem)
    -- the two chunkings that tell the piece from its image
    have apart := h (text.map fun a => [a]) (flatten_singletons text)
    have around := h ((before.map fun a => [a]) ++ [p] ++ after.map fun a => [a]) (by
      rw [List.flatten_append, List.flatten_append, flatten_singletons, flatten_singletons,
        List.flatten_singleton, htext])
    rw [flatMap_singletons hshort] at apart
    rw [← apart, List.flatMap_append, List.flatMap_append, flatMap_singletons hshort,
      flatMap_singletons hshort, List.flatMap_singleton, linewise_of_not_mem hsep, ← htext] at around
    exact List.append_cancel_left (List.append_cancel_right around)
  · intro h chunks hchunks
    subst hchunks
    refine flatMap_linewise_of_inert (hshort [] (by simp)) ?_
    intro ps hps
    obtain ⟨hmem, _⟩ := List.mem_filter.mp hps
    obtain ⟨all, hall, rfl⟩ := List.mem_map.mp hmem
    rw [flatten_filter_ne_nil]
    refine h _ ?_
    rw [splitOn_flatten]
    exact List.mem_map_of_mem hall

end LlmWakeProxy.Library.Lines
