import LlmWakeProxy.Library.JsonText

/-!
The values of JSON as they are written: strings and bare words are kept as they stand
in the text, and the members of an object in their order. The tokens of a tree are
what the grammar says.

Only what stands directly in the outermost object is on its surface. When parts of
its tokens that are trees of their own are exchanged for other trees, the surface
changes at most where a tree begins.
-/

namespace LlmWakeProxy.Library.Json

inductive Tree where
  | str (raw : List Char)
  | word (raw : List Char)
  | array (items : List Tree)
  | object (members : List (List Char × Tree))

mutual

def Tree.tokens : Tree → List Token
  | .str raw => [.str raw]
  | .word raw => [.word raw]
  | .array items => .opening .square :: (itemsTokens [] items ++ [.closing .square])
  | .object members => .opening .curly :: (membersTokens [] members ++ [.closing .curly])

/-- The items, each after the separator; the first has its own. -/
def itemsTokens (sep : List Token) : List Tree → List Token
  | [] => []
  | item :: rest => sep ++ (item.tokens ++ itemsTokens [.comma] rest)

def membersTokens (sep : List Token) : List (List Char × Tree) → List Token
  | [] => []
  | (key, value) :: rest =>
      sep ++ (.str key :: .colon :: (value.tokens ++ membersTokens [.comma] rest))

end

/-- Induction on trees. -/
theorem Tree.induct {P : Tree → Prop} (str : ∀ raw, P (.str raw)) (word : ∀ raw, P (.word raw))
    (array : ∀ items, (∀ item ∈ items, P item) → P (.array items))
    (object : ∀ members, (∀ member ∈ members, P member.2) → P (.object members)) :
    ∀ tree, P tree := by
  intro tree
  refine @Tree.rec P (fun items => ∀ item ∈ items, P item)
    (fun members => ∀ member ∈ members, P member.2) (fun member => P member.2)
    str word array object ?_ ?_ ?_ ?_ ?_ tree
  · simp
  · simp_all
  · simp
  · simp_all
  · simp_all

/-- The first token of a tree. -/
def Tree.head : Tree → Token
  | .str raw => .str raw
  | .word raw => .word raw
  | .array _ => .opening .square
  | .object _ => .opening .curly

theorem Tree.tokens_ne_nil (tree : Tree) : tree.tokens ≠ [] := by
  cases tree <;> simp [tokens]

/-! ### Depth -/

/-- The depth after a token. -/
def Token.depth (d : Nat) : Token → Nat
  | .opening _ => d + 1
  | .closing _ => d - 1
  | _ => d

def depth (d : Nat) (tokens : List Token) : Nat := tokens.foldl Token.depth d

@[simp] theorem depth_nil (d : Nat) : depth d [] = d := rfl

@[simp] theorem depth_cons (d : Nat) (token : Token) (tokens : List Token) :
    depth d (token :: tokens) = depth (token.depth d) tokens := rfl

@[simp] theorem depth_append (d : Nat) (tokens others : List Token) :
    depth d (tokens ++ others) = depth (depth d tokens) others := List.foldl_append

/-- The depth never falls below `low`. -/
def StaysAbove (low : Nat) : Nat → List Token → Prop
  | d, [] => low ≤ d
  | d, token :: rest => low ≤ d ∧ StaysAbove low (token.depth d) rest

theorem StaysAbove.start {low d : Nat} {tokens : List Token} (h : StaysAbove low d tokens) :
    low ≤ d := by
  cases tokens with
  | nil => exact h
  | cons _ _ => exact h.1

theorem staysAbove_append {low d : Nat} {tokens others : List Token} :
    StaysAbove low d (tokens ++ others) ↔
      StaysAbove low d tokens ∧ StaysAbove low (depth d tokens) others := by
  induction tokens generalizing d with
  | nil => exact ⟨fun h => ⟨h.start, h⟩, fun h => h.2⟩
  | cons token rest ih => simp only [List.cons_append, StaysAbove, depth_cons, ih, and_assoc]

/-- What a tree does to the depth: nothing in the end, and never less before. -/
def Level (tokens : List Token) : Prop := ∀ d, depth d tokens = d ∧ StaysAbove d d tokens

theorem Level.append {tokens others : List Token} (h : Level tokens) (hothers : Level others) :
    Level (tokens ++ others) := by
  intro d
  rw [depth_append, staysAbove_append, (h d).1]
  exact ⟨(hothers d).1, (h d).2, (hothers d).2⟩

theorem level_nil : Level [] := fun d => ⟨rfl, Nat.le_refl d⟩

theorem level_of_flat {token : Token} (h : ∀ d, token.depth d = d) : Level [token] := by
  intro d
  simp [StaysAbove, h]

theorem level_comma : Level [.comma] := level_of_flat fun _ => rfl

theorem StaysAbove.lower {low low' d : Nat} {tokens : List Token} (h : StaysAbove low d tokens)
    (hlow : low' ≤ low) : StaysAbove low' d tokens := by
  induction tokens generalizing d with
  | nil => exact Nat.le_trans hlow h
  | cons token rest ih => exact ⟨Nat.le_trans hlow h.1, ih h.2⟩

theorem Level.bracketed {tokens : List Token} (h : Level tokens) (bracket : Bracket) :
    Level (.opening bracket :: (tokens ++ [.closing bracket])) := by
  intro d
  have hinner := h (d + 1)
  simp only [depth_cons, depth_append, depth_nil, StaysAbove, staysAbove_append, Token.depth,
    hinner.1]
  exact ⟨by omega, Nat.le_refl d, hinner.2.lower (by omega), by omega, by omega⟩

theorem level_items {items : List Tree} (h : ∀ item ∈ items, Level item.tokens) {sep : List Token}
    (hsep : Level sep) : Level (itemsTokens sep items) := by
  induction items generalizing sep with
  | nil => exact level_nil
  | cons item rest ih =>
      have hrest := ih (fun other hother => h other (List.mem_cons_of_mem _ hother)) level_comma
      exact hsep.append ((h item List.mem_cons_self).append hrest)

theorem level_members {members : List (List Char × Tree)}
    (h : ∀ member ∈ members, Level member.2.tokens) {sep : List Token} (hsep : Level sep) :
    Level (membersTokens sep members) := by
  induction members generalizing sep with
  | nil => exact level_nil
  | cons member rest ih =>
      have hrest := ih (fun other hother => h other (List.mem_cons_of_mem _ hother)) level_comma
      have hkey : Level [.str member.1] := level_of_flat fun _ => rfl
      have hcolon : Level [.colon] := level_of_flat fun _ => rfl
      exact hsep.append (hkey.append (hcolon.append ((h member List.mem_cons_self).append hrest)))

theorem Tree.level (tree : Tree) : Level tree.tokens := by
  induction tree using Tree.induct with
  | str raw | word raw => exact level_of_flat fun _ => rfl
  | array items ih => exact (level_items ih level_nil).bracketed .square
  | object members ih => exact (level_members ih level_nil).bracketed .curly

theorem itemsTokens_level (items : List Tree) : Level (itemsTokens [] items) :=
  level_items (fun item _ => item.level) level_nil

theorem membersTokens_level (members : List (List Char × Tree)) :
    Level (membersTokens [] members) :=
  level_members (fun member _ => member.2.level) level_nil

/-- Within an object the depth is never zero. -/
theorem depth_pos_of_prefix {members : List (List Char × Tree)} {before after : List Token}
    (h : (Tree.object members).tokens = before ++ after) (hbefore : before ≠ [])
    (hafter : after ≠ []) :
    0 < depth 0 before := by
  cases before with
  | nil => exact absurd rfl hbefore
  | cons token before =>
      obtain ⟨rfl, htail⟩ := List.cons.inj h
      obtain ⟨inner, last, rfl⟩ : ∃ inner last, after = inner ++ [last] :=
        ⟨_, _, (List.dropLast_append_getLast hafter).symm⟩
      rw [List.append_eq, ← List.append_assoc] at htail
      obtain ⟨hinner, _⟩ := List.append_inj' htail rfl
      have habove := (membersTokens_level members 1).2
      rw [hinner, staysAbove_append] at habove
      exact habove.2.start

/-! ### The surface -/

section Surface

universe u
variable {μ : Type u} (mark : Token → List μ)

/-- What the tokens at depth one are marked as. -/
def surface (mark : Token → List μ) : Nat → List Token → List μ
  | _, [] => []
  | d, token :: rest => (if d = 1 then mark token else []) ++ surface mark (token.depth d) rest

theorem surface_append (d : Nat) (tokens others : List Token) :
    surface mark d (tokens ++ others) =
      surface mark d tokens ++ surface mark (depth d tokens) others := by
  induction tokens generalizing d with
  | nil => rfl
  | cons token rest ih => simp only [List.cons_append, surface, ih, depth_cons, List.append_assoc]

theorem surface_of_above {low d : Nat} {tokens : List Token} (h : StaysAbove low d tokens)
    (hlow : 2 ≤ low) : surface mark d tokens = [] := by
  induction tokens generalizing d with
  | nil => rfl
  | cons token rest ih =>
      have hd : d ≠ 1 := by
        have := h.1
        omega
      rw [surface, if_neg hd, ih h.2]
      rfl

/-- A tree that stands on the surface shows its first token. -/
theorem surface_tree (tree : Tree) : surface mark 1 tree.tokens = mark tree.head := by
  cases tree with
  | str raw | word raw => simp [Tree.tokens, Tree.head, surface]
  | array items =>
      obtain ⟨hdepth, habove⟩ := itemsTokens_level items 2
      have hinner := surface_of_above mark habove (Nat.le_refl 2)
      simp [Tree.tokens, Tree.head, surface, surface_append, Token.depth, hinner, hdepth]
  | object members =>
      obtain ⟨hdepth, habove⟩ := membersTokens_level members 2
      have hinner := surface_of_above mark habove (Nat.le_refl 2)
      simp [Tree.tokens, Tree.head, surface, surface_append, Token.depth, hinner, hdepth]

/-- Punctuation is not marked. -/
structure Unpunctuated : Prop where
  colon : mark .colon = []
  comma : mark .comma = []
  closing : ∀ bracket, mark (.closing bracket) = []

variable {mark}

theorem surface_members (h : Unpunctuated mark) (members : List (List Char × Tree))
    {sep : List Token} (hsep : sep = [] ∨ sep = [.comma]) :
    surface mark 1 (membersTokens sep members) =
      members.flatMap fun member => mark (.str member.1) ++ mark member.2.head := by
  induction members generalizing sep with
  | nil => rfl
  | cons member rest ih =>
      have hvalue := surface_tree mark member.2
      have hdepth := (member.2.level 1).1
      have hrest := ih (.inr rfl)
      obtain rfl | rfl := hsep <;>
        simp [membersTokens, surface, surface_append, Token.depth, h.colon, h.comma, hvalue, hdepth,
          hrest]

/-- The surface of an object is its members' keys and the beginnings of their values. -/
theorem surface_object (h : Unpunctuated mark) (members : List (List Char × Tree)) :
    surface mark 0 (Tree.object members).tokens =
      members.flatMap fun member => mark (.str member.1) ++ mark member.2.head := by
  have hdepth := (membersTokens_level members 1).1
  have hmembers := surface_members h members (.inl rfl)
  simp [Tree.tokens, surface, surface_append, Token.depth, hdepth, hmembers, h.closing]

/-- Tokens that were kept, or are a tree's and were exchanged for those of a tree that
begins alike. -/
def Exchanged (mark : Token → List μ) (tokens others : List Token) : Prop :=
  others = tokens ∨
    ∃ tree other : Tree, tokens = tree.tokens ∧ others = other.tokens ∧
      mark tree.head = mark other.head

theorem Exchanged.surface {tokens others : List Token} (h : Exchanged mark tokens others) {d : Nat}
    (hd : 0 < d) :
    surface mark d others = surface mark d tokens ∧ depth d others = depth d tokens := by
  obtain rfl | ⟨tree, other, rfl, rfl, hhead⟩ := h
  · exact ⟨rfl, rfl⟩
  · obtain ⟨hdepth, habove⟩ := tree.level d
    obtain ⟨hdepth', habove'⟩ := other.level d
    refine ⟨?_, by rw [hdepth, hdepth']⟩
    by_cases hone : d = 1
    · subst hone
      rw [surface_tree, surface_tree, hhead]
    · rw [surface_of_above mark habove (by omega), surface_of_above mark habove' (by omega)]

/-- A tree that begins after a part of an object, or is not the whole of it, is not on
the outermost level. -/
theorem depth_pos_of_tree {members : List (List Char × Tree)} {before after : List Token}
    {tree : Tree}
    (whole : (Tree.object members).tokens = before ++ (tree.tokens ++ after))
    (proper : tree.tokens ≠ (Tree.object members).tokens) : 0 < depth 0 before := by
  by_cases hbefore : before = []
  · rw [hbefore, List.nil_append] at whole
    by_cases hafter : after = []
    · rw [hafter, List.append_nil] at whole
      exact absurd whole.symm proper
    · have hpos := depth_pos_of_prefix whole tree.tokens_ne_nil hafter
      rw [(tree.level 0).1] at hpos
      exact absurd hpos (Nat.lt_irrefl 0)
  · exact depth_pos_of_prefix whole hbefore (by simp [tree.tokens_ne_nil])

/-- Exchanging parts of an object does not change its surface, unless the whole object
is one part. -/
theorem surface_exchanged {members : List (List Char × Tree)} {parts others : List (List Token)}
    (h : List.Forall₂ (Exchanged mark) parts others) (before : List Token)
    (whole : (Tree.object members).tokens = before ++ parts.flatten)
    (proper : ∀ part ∈ parts, part ≠ (Tree.object members).tokens) :
    surface mark (depth 0 before) others.flatten = surface mark (depth 0 before) parts.flatten := by
  induction h generalizing before with
  | nil => rfl
  | @cons part other parts others hpart _ ih =>
      have hrest := ih (before ++ part) (by simpa using whole)
        fun other hother => proper other (List.mem_cons_of_mem _ hother)
      rw [depth_append] at hrest
      rw [List.flatten_cons, List.flatten_cons, surface_append, surface_append]
      rcases hpart with rfl | htrees
      · rw [hrest]
      · have hd : 0 < depth 0 before := by
          obtain ⟨tree, _, rfl, _, _⟩ := htrees
          exact depth_pos_of_tree whole (proper _ List.mem_cons_self)
        obtain ⟨hsurface, hdepth⟩ := Exchanged.surface (.inr htrees) hd
        rw [hsurface, hdepth, hrest]

end Surface

end LlmWakeProxy.Library.Json
