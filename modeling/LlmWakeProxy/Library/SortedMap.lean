import Mathlib.Order.Lattice
import Mathlib.Data.List.Nodup

/-!
Maps as lists of entries whose keys ascend. A map is collected from entries one after
the other, so that of two entries with one key the later stays. Nothing about the
order matters to what is done to the values.
-/

namespace LlmWakeProxy.Library.SortedMap

universe u v w
variable {κ : Type u} {α : Type v} {β : Type w} [LinearOrder κ]

def insert (key : κ) (value : α) : List (κ × α) → List (κ × α)
  | [] => [(key, value)]
  | (k, v) :: rest =>
      if k = key then (key, value) :: rest
      else if key < k then (key, value) :: (k, v) :: rest
      else (k, v) :: insert key value rest

def collect (entries : List (κ × α)) : List (κ × α) :=
  entries.foldl (fun map entry => insert entry.1 entry.2 map) []

def Ascending (map : List (κ × α)) : Prop := (map.map Prod.fst).Pairwise (· < ·)

variable {map : List (κ × α)} {key : κ} {value : α}

theorem ascending_nil : Ascending ([] : List (κ × α)) := List.Pairwise.nil

/-- A key has one value. -/
theorem value_unique {other : α} (h : Ascending map) (hvalue : (key, value) ∈ map)
    (hother : (key, other) ∈ map) : value = other := by
  have hnodup : (map.map Prod.fst).Nodup := List.Pairwise.imp ne_of_lt h
  exact congrArg Prod.snd (List.inj_on_of_nodup_map hnodup hvalue hother rfl)

theorem mem_insert {entry : κ × α} (h : entry ∈ insert key value map) :
    entry = (key, value) ∨ entry ∈ map := by
  induction map with
  | nil => exact .inl (List.mem_singleton.mp h)
  | cons first rest ih =>
      rw [insert] at h
      split_ifs at h
      · exact (List.mem_cons.mp h).imp_right (List.mem_cons_of_mem _)
      · exact List.mem_cons.mp h
      · obtain rfl | hrest := List.mem_cons.mp h
        · exact .inr List.mem_cons_self
        · exact (ih hrest).imp_right (List.mem_cons_of_mem _)

theorem mem_keys_insert {k : κ} :
    k ∈ (insert key value map).map Prod.fst ↔ k = key ∨ k ∈ map.map Prod.fst := by
  induction map with
  | nil => simp [insert]
  | cons first rest ih =>
      rw [insert]
      split_ifs with heq
      · simp [heq]
      · simp
      · rw [List.map_cons, List.mem_cons, ih, List.map_cons, List.mem_cons]
        exact or_left_comm

theorem ascending_insert (h : Ascending map) : Ascending (insert key value map) := by
  induction map with
  | nil => simp [insert, Ascending]
  | cons first rest ih =>
      obtain ⟨hfirst, hrest⟩ := List.pairwise_cons.mp h
      rw [insert]
      split_ifs with heq hlt
      · subst heq
        exact List.pairwise_cons.mpr ⟨hfirst, hrest⟩
      · refine List.pairwise_cons.mpr ⟨fun k hk => ?_, h⟩
        obtain rfl | hmem := List.mem_cons.mp hk
        · exact hlt
        · exact lt_trans hlt (hfirst k hmem)
      · refine List.pairwise_cons.mpr ⟨fun k hk => ?_, ih hrest⟩
        obtain rfl | hmem := mem_keys_insert.mp hk
        · exact lt_of_le_of_ne (not_lt.mp hlt) heq
        · exact hfirst k hmem

theorem insert_last (h : ∀ k ∈ map.map Prod.fst, k < key) :
    insert key value map = map ++ [(key, value)] := by
  induction map with
  | nil => rfl
  | cons first rest ih =>
      obtain ⟨hfirst, hrest⟩ := List.forall_mem_cons.mp h
      rw [insert, if_neg (ne_of_lt hfirst), if_neg (lt_asymm hfirst), ih hrest]
      rfl

theorem map_insert (f : α → β) :
    (insert key value map).map (Prod.map id f) = insert key (f value) (map.map (Prod.map id f)) := by
  induction map with
  | nil => rfl
  | cons first rest ih =>
      simp only [insert, List.map_cons, id_eq, Prod.map]
      split_ifs
      · rfl
      · rfl
      · rw [List.map_cons, ih]
        rfl

private theorem map_foldl_insert (f : α → β) (entries : List (κ × α)) :
    (entries.foldl (fun map entry => insert entry.1 entry.2 map) map).map (Prod.map id f) =
      (entries.map (Prod.map id f)).foldl (fun map entry => insert entry.1 entry.2 map)
        (map.map (Prod.map id f)) := by
  induction entries generalizing map with
  | nil => rfl
  | cons entry rest ih =>
      rw [List.foldl_cons, ih, map_insert]
      rfl

/-- What is done to the values can be done before. -/
theorem map_collect (f : α → β) (entries : List (κ × α)) :
    (collect entries).map (Prod.map id f) = collect (entries.map (Prod.map id f)) :=
  map_foldl_insert f entries

private theorem foldl_insert_spec (entries : List (κ × α)) (h : Ascending map) :
    Ascending (entries.foldl (fun map entry => insert entry.1 entry.2 map) map) ∧
      ∀ entry ∈ entries.foldl (fun map entry => insert entry.1 entry.2 map) map,
        entry ∈ map ∨ entry ∈ entries := by
  induction entries generalizing map with
  | nil => exact ⟨h, fun entry hentry => .inl hentry⟩
  | cons entry rest ih =>
      obtain ⟨hascending, hmem⟩ := ih (ascending_insert h)
      refine ⟨hascending, fun other hother => ?_⟩
      obtain hmap | hrest := hmem other hother
      · obtain rfl | hold := mem_insert hmap
        · exact .inr List.mem_cons_self
        · exact .inl hold
      · exact .inr (List.mem_cons_of_mem _ hrest)

theorem ascending_collect (entries : List (κ × α)) : Ascending (collect entries) :=
  (foldl_insert_spec entries ascending_nil).1

theorem mem_collect {entries : List (κ × α)} {entry : κ × α} (h : entry ∈ collect entries) :
    entry ∈ entries :=
  ((foldl_insert_spec entries ascending_nil).2 entry h).resolve_left List.not_mem_nil

private theorem mem_keys_foldl_insert {k : κ} (entries : List (κ × α)) :
    k ∈ (entries.foldl (fun map entry => insert entry.1 entry.2 map) map).map Prod.fst ↔
      k ∈ map.map Prod.fst ∨ k ∈ entries.map Prod.fst := by
  induction entries generalizing map with
  | nil => simp
  | cons entry rest ih =>
      rw [List.foldl_cons, ih, mem_keys_insert, List.map_cons, List.mem_cons]
      exact or_assoc.trans or_left_comm

theorem mem_keys_collect {entries : List (κ × α)} {k : κ} :
    k ∈ (collect entries).map Prod.fst ↔ k ∈ entries.map Prod.fst := by
  rw [collect, mem_keys_foldl_insert]
  simp

private theorem foldl_insert_ascending (entries : List (κ × α)) (h : Ascending (map ++ entries)) :
    entries.foldl (fun map entry => insert entry.1 entry.2 map) map = map ++ entries := by
  induction entries generalizing map with
  | nil => simp
  | cons entry rest ih =>
      have hlast : ∀ k ∈ map.map Prod.fst, k < entry.1 := by
        rw [Ascending, List.map_append, List.pairwise_append] at h
        exact fun k hk => h.2.2 k hk entry.1 (by simp)
      rw [List.foldl_cons, insert_last hlast, ih (by simpa using h)]
      simp

/-- Ascending entries are their own map. -/
theorem collect_of_ascending {entries : List (κ × α)} (h : Ascending entries) :
    collect entries = entries := by
  have hempty : Ascending ([] ++ entries) := h
  rw [collect, foldl_insert_ascending entries hempty, List.nil_append]

end LlmWakeProxy.Library.SortedMap
