import LlmWakeProxy.Library.JsonTree

/-!
A parser of JSON and a printer. The parser gives a tree for the tokens of a tree and
for no others, so that no tokens are those of two trees. What a tree is printed as is
lexed as its tokens.
-/

namespace LlmWakeProxy.Library.Json

/-! ### Parsing -/

/-- Go past a separator. -/
def skip : List Token → List Token → Option (List Token)
  | [], tokens => some tokens
  | token :: sep, first :: rest => if first = token then skip sep rest else none
  | _ :: _, [] => none

mutual

/-- The tree that the tokens begin with, and the tokens after it. -/
def parseTree : Nat → List Token → Option (Tree × List Token)
  | 0, _ => none
  | _ + 1, .str raw :: rest => some (.str raw, rest)
  | _ + 1, .word raw :: rest => some (.word raw, rest)
  | fuel + 1, .opening .square :: rest =>
      (parseItems fuel [] rest).map fun (items, rest) => (.array items, rest)
  | fuel + 1, .opening .curly :: rest =>
      (parseMembers fuel [] rest).map fun (members, rest) => (.object members, rest)
  | _ + 1, _ => none

/-- The items up to the bracket, each after the separator. -/
def parseItems : Nat → List Token → List Token → Option (List Tree × List Token)
  | 0, _, _ => none
  | _ + 1, _, .closing .square :: rest => some ([], rest)
  | fuel + 1, sep, tokens => do
      let (item, rest) ← parseTree fuel (← skip sep tokens)
      let (items, rest) ← parseItems fuel [.comma] rest
      return (item :: items, rest)

def parseMembers : Nat → List Token → List Token → Option (List (List Char × Tree) × List Token)
  | 0, _, _ => none
  | _ + 1, _, .closing .curly :: rest => some ([], rest)
  | fuel + 1, sep, tokens => do
      match ← skip sep tokens with
      | .str key :: .colon :: rest =>
          let (value, rest) ← parseTree fuel rest
          let (members, rest) ← parseMembers fuel [.comma] rest
          return ((key, value) :: members, rest)
      | _ => none

end

def parse (tokens : List Token) : Option Tree :=
  match parseTree tokens.length tokens with
  | some (tree, []) => some tree
  | _ => none

theorem skip_eq_some {sep tokens rest : List Token} :
    skip sep tokens = some rest ↔ tokens = sep ++ rest := by
  induction sep generalizing tokens with
  | nil => simp [skip]
  | cons token sep ih =>
      cases tokens with
      | nil => simp [skip]
      | cons first tokens =>
          rw [skip]
          split_ifs with heq
          · simp [heq, ih]
          · simp [heq]

/-- With so much fuel, what is parsed are the tokens of what it is parsed as. -/
structure Sound (fuel : Nat) : Prop where
  tree : ∀ {tokens tree rest}, parseTree fuel tokens = some (tree, rest) →
    tokens = tree.tokens ++ rest
  items : ∀ {sep tokens items rest}, parseItems fuel sep tokens = some (items, rest) →
    tokens = itemsTokens sep items ++ .closing .square :: rest
  members : ∀ {sep tokens members rest}, parseMembers fuel sep tokens = some (members, rest) →
    tokens = membersTokens sep members ++ .closing .curly :: rest

theorem Sound.tree_succ {fuel : Nat} (h : Sound fuel) {tokens rest : List Token} {tree : Tree}
    (hparse : parseTree (fuel + 1) tokens = some (tree, rest)) : tokens = tree.tokens ++ rest := by
  rw [parseTree.eq_def] at hparse
  split at hparse
  case h_1 => contradiction
  case h_2 | h_3 =>
      cases hparse
      rfl
  case h_4 fuel after heq =>
      obtain rfl := Nat.succ.inj heq
      obtain ⟨⟨items, rest⟩, hitems, heq⟩ := Option.map_eq_some_iff.mp hparse
      cases heq
      simp [Tree.tokens, h.items hitems]
  case h_5 fuel after heq =>
      obtain rfl := Nat.succ.inj heq
      obtain ⟨⟨members, rest⟩, hmembers, heq⟩ := Option.map_eq_some_iff.mp hparse
      cases heq
      simp [Tree.tokens, h.members hmembers]
  case h_6 => cases hparse

theorem Sound.items_succ {fuel : Nat} (h : Sound fuel) {sep tokens rest : List Token}
    {items : List Tree} (hparse : parseItems (fuel + 1) sep tokens = some (items, rest)) :
    tokens = itemsTokens sep items ++ .closing .square :: rest := by
  rw [parseItems.eq_def] at hparse
  split at hparse
  case h_1 => contradiction
  case h_2 =>
      cases hparse
      rfl
  case h_3 fuel sep tokens heq _ =>
      obtain rfl := Nat.succ.inj heq
      obtain ⟨body, hskip, hparse⟩ := Option.bind_eq_some_iff.mp hparse
      obtain ⟨⟨item, following⟩, hitem, hparse⟩ := Option.bind_eq_some_iff.mp hparse
      obtain ⟨⟨others, after⟩, hothers, heq⟩ := Option.bind_eq_some_iff.mp hparse
      cases heq
      rw [skip_eq_some.mp hskip, h.tree hitem, h.items hothers]
      simp [itemsTokens]

theorem Sound.members_succ {fuel : Nat} (h : Sound fuel) {sep tokens rest : List Token}
    {members : List (List Char × Tree)}
    (hparse : parseMembers (fuel + 1) sep tokens = some (members, rest)) :
    tokens = membersTokens sep members ++ .closing .curly :: rest := by
  rw [parseMembers.eq_def] at hparse
  split at hparse
  case h_1 => contradiction
  case h_2 =>
      cases hparse
      rfl
  case h_3 fuel sep tokens heq _ =>
      obtain rfl := Nat.succ.inj heq
      obtain ⟨body, hskip, hparse⟩ := Option.bind_eq_some_iff.mp hparse
      split at hparse
      case h_2 => cases hparse
      case h_1 key body =>
          obtain ⟨⟨value, following⟩, hvalue, hparse⟩ := Option.bind_eq_some_iff.mp hparse
          obtain ⟨⟨others, after⟩, hothers, heq⟩ := Option.bind_eq_some_iff.mp hparse
          cases heq
          rw [skip_eq_some.mp hskip, h.tree hvalue, h.members hothers]
          simp [membersTokens]

theorem sound (fuel : Nat) : Sound fuel := by
  induction fuel with
  | zero =>
      refine ⟨fun h => ?_, fun h => ?_, fun h => ?_⟩
      · rw [parseTree] at h
        cases h
      · rw [parseItems] at h
        cases h
      · rw [parseMembers] at h
        cases h
  | succ fuel ih => exact ⟨ih.tree_succ, ih.items_succ, ih.members_succ⟩

/-! ### Completeness -/

/-- With fuel for each of its tokens a tree is parsed. -/
def Parses (tree : Tree) : Prop :=
  ∀ fuel rest, tree.tokens.length ≤ fuel →
    parseTree fuel (tree.tokens ++ rest) = some (tree, rest)

theorem skip_append (sep tokens : List Token) : skip sep (sep ++ tokens) = some tokens :=
  skip_eq_some.mpr rfl

theorem Tree.tokens_eq (tree : Tree) : ∃ tail, tree.tokens = tree.head :: tail := by
  cases tree <;> exact ⟨_, rfl⟩

theorem Tree.head_ne_closing (tree : Tree) (bracket : Bracket) : tree.head ≠ .closing bracket := by
  cases tree <;> simp [Tree.head]

theorem parseItems_step {fuel : Nat} {sep tokens body following rest : List Token} {item : Tree}
    {others : List Tree} (hfirst : ∀ after, tokens ≠ .closing .square :: after)
    (hskip : skip sep tokens = some body) (hitem : parseTree fuel body = some (item, following))
    (hothers : parseItems fuel [.comma] following = some (others, rest)) :
    parseItems (fuel + 1) sep tokens = some (item :: others, rest) := by
  rw [parseItems.eq_def]
  split
  case h_1 => contradiction
  case h_2 after _ => exact absurd rfl (hfirst after)
  case h_3 fuel sep tokens heq _ =>
      obtain rfl := Nat.succ.inj heq
      simp [hskip, hitem, hothers]

theorem parseMembers_step {fuel : Nat} {sep tokens body following rest : List Token}
    {key : List Char} {value : Tree} {others : List (List Char × Tree)}
    (hfirst : ∀ after, tokens ≠ .closing .curly :: after)
    (hskip : skip sep tokens = some (.str key :: .colon :: body))
    (hvalue : parseTree fuel body = some (value, following))
    (hothers : parseMembers fuel [.comma] following = some (others, rest)) :
    parseMembers (fuel + 1) sep tokens = some ((key, value) :: others, rest) := by
  rw [parseMembers.eq_def]
  split
  case h_1 => contradiction
  case h_2 after _ => exact absurd rfl (hfirst after)
  case h_3 fuel sep tokens heq _ =>
      obtain rfl := Nat.succ.inj heq
      simp [hskip, hvalue, hothers]

theorem parseItems_complete {items : List Tree} (h : ∀ item ∈ items, Parses item) {sep : List Token}
    (fuel : Nat) (rest : List Token) (hsep : sep = [] ∨ sep = [.comma])
    (hfuel : (itemsTokens sep items).length < fuel) :
    parseItems fuel sep (itemsTokens sep items ++ .closing .square :: rest) =
      some (items, rest) := by
  induction items generalizing fuel sep with
  | nil =>
      cases fuel with
      | zero => exact absurd hfuel (Nat.not_lt_zero _)
      | succ fuel => rfl
  | cons item others ih =>
      cases fuel with
      | zero => exact absurd hfuel (Nat.not_lt_zero _)
      | succ fuel =>
          have hpos := List.length_pos_of_ne_nil item.tokens_ne_nil
          simp only [itemsTokens, List.length_append] at hfuel
          have hitem := h item List.mem_cons_self fuel
            (itemsTokens [.comma] others ++ .closing .square :: rest) (by omega)
          have hothers := ih (fun other hother => h other (List.mem_cons_of_mem _ hother)) fuel
            (.inr rfl) (by omega)
          refine parseItems_step ?_ ?_ hitem hothers
          · intro after heq
            obtain ⟨tail, htail⟩ := item.tokens_eq
            obtain rfl | rfl := hsep
            · rw [itemsTokens, htail] at heq
              exact item.head_ne_closing .square (List.cons.inj heq).1
            · cases (List.cons.inj heq).1
          · rw [itemsTokens, List.append_assoc, List.append_assoc]
            exact skip_append _ _

theorem parseMembers_complete {members : List (List Char × Tree)}
    (h : ∀ member ∈ members, Parses member.2) {sep : List Token} (fuel : Nat) (rest : List Token)
    (hsep : sep = [] ∨ sep = [.comma]) (hfuel : (membersTokens sep members).length < fuel) :
    parseMembers fuel sep (membersTokens sep members ++ .closing .curly :: rest) =
      some (members, rest) := by
  induction members generalizing fuel sep with
  | nil =>
      cases fuel with
      | zero => exact absurd hfuel (Nat.not_lt_zero _)
      | succ fuel => rfl
  | cons member others ih =>
      cases fuel with
      | zero => exact absurd hfuel (Nat.not_lt_zero _)
      | succ fuel =>
          simp only [membersTokens, List.length_append, List.length_cons] at hfuel
          have hvalue := h member List.mem_cons_self fuel
            (membersTokens [.comma] others ++ .closing .curly :: rest) (by omega)
          have hothers := ih (fun other hother => h other (List.mem_cons_of_mem _ hother)) fuel
            (.inr rfl) (by omega)
          refine parseMembers_step ?_ ?_ hvalue hothers
          · intro after heq
            obtain rfl | rfl := hsep <;> cases (List.cons.inj heq).1
          · rw [membersTokens, List.append_assoc, List.cons_append, List.cons_append,
              List.append_assoc]
            exact skip_append _ _

theorem Tree.parses (tree : Tree) : Parses tree := by
  induction tree using Tree.induct with
  | str raw | word raw =>
      intro fuel rest hfuel
      cases fuel with
      | zero => exact absurd hfuel (Nat.not_succ_le_zero _)
      | succ fuel => rfl
  | array items ih =>
      intro fuel rest hfuel
      cases fuel with
      | zero => exact absurd hfuel (Nat.not_succ_le_zero _)
      | succ fuel =>
          simp only [tokens, List.length_cons, List.length_append, List.length_nil] at hfuel
          have hitems := parseItems_complete ih fuel rest (.inl rfl) (by omega)
          simp [tokens, parseTree, hitems]
  | object members ih =>
      intro fuel rest hfuel
      cases fuel with
      | zero => exact absurd hfuel (Nat.not_succ_le_zero _)
      | succ fuel =>
          simp only [tokens, List.length_cons, List.length_append, List.length_nil] at hfuel
          have hmembers := parseMembers_complete ih fuel rest (.inl rfl) (by omega)
          simp [tokens, parseTree, hmembers]

/-- A tree is parsed from its tokens and from no others. -/
theorem parse_eq_some {tokens : List Token} {tree : Tree} :
    parse tokens = some tree ↔ tokens = tree.tokens := by
  unfold parse
  constructor
  · intro h
    split at h
    next found hfound =>
      cases h
      rw [(sound _).tree hfound, List.append_nil]
    next => cases h
  · rintro rfl
    have hparses := tree.parses _ [] (Nat.le_refl _)
    rw [List.append_nil] at hparses
    rw [hparses]

theorem Tree.tokens_injective {tree other : Tree} (h : tree.tokens = other.tokens) : tree = other :=
  Option.some.inj ((parse_eq_some.mpr h).symm.trans (parse_eq_some.mpr rfl)).symm

/-! ### Printing -/

mutual

def Tree.text : Tree → List Char
  | .str raw => '\x22' :: (raw ++ ['\x22'])
  | .word raw => raw
  | .array items => '[' :: (itemsText [] items ++ [']'])
  | .object members => '\x7b' :: (membersText [] members ++ ['\x7d'])

def itemsText (sep : List Char) : List Tree → List Char
  | [] => []
  | item :: rest => sep ++ (item.text ++ itemsText [','] rest)

def membersText (sep : List Char) : List (List Char × Tree) → List Char
  | [] => []
  | (key, value) :: rest =>
      sep ++ ('\x22' :: (key ++ ['\x22']) ++ (':' :: (value.text ++ membersText [','] rest)))

end

/-- A string that the lexer reads as it is. -/
def Quotable (raw : List Char) : Prop :=
  ∀ acc rest, lexFrom (.str acc) (raw ++ rest) = lexFrom (.str (acc ++ raw)) rest

def Token.Printable : Token → Prop
  | .str raw => Quotable raw
  | .word raw => raw ≠ [] ∧ ∀ c ∈ raw, IsBare c
  | _ => True

/-- No bare word goes on into the text. -/
def Stops (text : List Char) : Prop := ∀ c ∈ text.head?, ¬ IsBare c

/-- The text gives the tokens, whatever follows. -/
def Gives (text : List Char) (tokens : List Token) : Prop :=
  ∀ rest, lex (text ++ rest) = (lex rest).map (tokens ++ ·)

/-- The text gives the tokens when no bare word goes on behind it. -/
def GivesWord (text : List Char) (tokens : List Token) : Prop :=
  ∀ rest, Stops rest → lex (text ++ rest) = (lex rest).map (tokens ++ ·)

theorem Gives.word {text : List Char} {tokens : List Token} (h : Gives text tokens) :
    GivesWord text tokens := fun rest _ => h rest

theorem gives_nil : Gives [] [] := by
  intro rest
  simp

theorem Gives.append {text more : List Char} {tokens others : List Token} (h : Gives text tokens)
    (hmore : Gives more others) : Gives (text ++ more) (tokens ++ others) := by
  intro rest
  rw [List.append_assoc, h, hmore, Option.map_map]
  simp [Function.comp_def]

theorem GivesWord.append {text more : List Char} {tokens others : List Token}
    (h : GivesWord text tokens) (hstops : ∀ rest, Stops (more ++ rest))
    (hmore : Gives more others) :
    Gives (text ++ more) (tokens ++ others) := by
  intro rest
  rw [List.append_assoc, h _ (hstops rest), hmore, Option.map_map]
  simp [Function.comp_def]

theorem gives_punctuation {c : Char} {token : Token} (h : begins c = (.gap, [token])) :
    Gives [c] [token] := by
  intro rest
  exact lexFrom_step (congrArg some h)

theorem gives_str {raw : List Char} (h : Quotable raw) :
    Gives ('\x22' :: (raw ++ ['\x22'])) [.str raw] := by
  intro rest
  have hopening : Place.next .gap '\x22' = some (.str [], []) := rfl
  have hclosing : Place.next (.str raw) '\x22' = some (.gap, [.str raw]) := rfl
  rw [List.cons_append, List.append_assoc, lex, lexFrom_silent hopening, h [], List.nil_append,
    List.singleton_append, lexFrom_step hclosing]
  rfl

theorem begins_bare {c : Char} (h : IsBare c) : begins c = (.word [c], []) := by
  obtain ⟨hspace, hquote, hpunctuation⟩ := h
  simp [begins, hspace, hquote, hpunctuation]

theorem lexFrom_bare {word : List Char} (h : ∀ c ∈ word, IsBare c) (acc rest : List Char) :
    lexFrom (.word acc) (word ++ rest) = lexFrom (.word (acc ++ word)) rest := by
  induction word generalizing acc with
  | nil => simp
  | cons c word ih =>
      have hnext : Place.next (.word acc) c = some (.word (acc ++ [c]), []) :=
        if_pos (h c List.mem_cons_self)
      rw [List.cons_append, lexFrom_silent hnext, ih fun d hd => h d (List.mem_cons_of_mem _ hd)]
      simp

theorem lexFrom_stops {raw rest : List Char} (h : Stops rest) :
    lexFrom (.word raw) rest = (lex rest).map ([.word raw] ++ ·) := by
  cases rest with
  | nil => rfl
  | cons c rest =>
      have hbare : ¬ IsBare c := h c rfl
      have hnext : Place.next (.word raw) c = some ((begins c).1, .word raw :: (begins c).2) :=
        if_neg hbare
      have hgap : Place.next .gap c = some (begins c) := rfl
      rw [lexFrom_step hnext, lex, lexFrom_step hgap, Option.map_map]
      rfl

theorem gives_word {raw : List Char} (h : Token.Printable (.word raw)) :
    GivesWord raw [.word raw] := by
  intro rest hrest
  obtain ⟨hne, hbare⟩ := h
  cases raw with
  | nil => exact absurd rfl hne
  | cons c word =>
      have hnext : Place.next .gap c = some (.word [c], []) :=
        congrArg some (begins_bare (hbare c List.mem_cons_self))
      rw [List.cons_append, lex, lexFrom_silent hnext,
        lexFrom_bare fun d hd => hbare d (List.mem_cons_of_mem _ hd), lexFrom_stops hrest]
      rfl

theorem stops_items (items : List Tree) (rest : List Char) :
    Stops (itemsText [','] items ++ [']'] ++ rest) := by
  cases items <;> intro c hc <;> cases Option.some.inj hc <;> decide

theorem stops_members (members : List (List Char × Tree)) (rest : List Char) :
    Stops (membersText [','] members ++ ['\x7d'] ++ rest) := by
  cases members <;> intro c hc <;> cases Option.some.inj hc <;> decide

theorem gives_items {items : List Tree} (h : ∀ item ∈ items, GivesWord item.text item.tokens)
    {sep : List Char} {sepTokens : List Token} (hsep : Gives sep sepTokens) :
    Gives (itemsText sep items ++ [']']) (itemsTokens sepTokens items ++ [.closing .square]) := by
  induction items generalizing sep sepTokens with
  | nil => exact gives_punctuation rfl
  | cons item rest ih =>
      have hrest := ih (fun other hother => h other (List.mem_cons_of_mem _ hother))
        (gives_punctuation rfl : Gives [','] [.comma])
      have hitem := (h item List.mem_cons_self).append (stops_items rest) hrest
      simp only [itemsText, itemsTokens, List.append_assoc]
      exact hsep.append hitem

theorem gives_members {members : List (List Char × Tree)}
    (h : ∀ member ∈ members, Quotable member.1 ∧ GivesWord member.2.text member.2.tokens)
    {sep : List Char} {sepTokens : List Token} (hsep : Gives sep sepTokens) :
    Gives (membersText sep members ++ ['\x7d'])
      (membersTokens sepTokens members ++ [.closing .curly]) := by
  induction members generalizing sep sepTokens with
  | nil => exact gives_punctuation rfl
  | cons member rest ih =>
      obtain ⟨hkey, hvalue⟩ := h member List.mem_cons_self
      have hrest := ih (fun other hother => h other (List.mem_cons_of_mem _ hother))
        (gives_punctuation rfl : Gives [','] [.comma])
      have hcolon : Gives [':'] [.colon] := gives_punctuation rfl
      have hmember := (gives_str hkey).append
        (hcolon.append (hvalue.append (stops_members rest) hrest))
      simpa [membersText, membersTokens] using hsep.append hmember

theorem mem_itemsTokens {items : List Tree} {item : Tree} (h : item ∈ items) {token : Token}
    (htoken : token ∈ item.tokens) (sep : List Token) : token ∈ itemsTokens sep items := by
  induction items generalizing sep with
  | nil => cases h
  | cons first rest ih =>
      simp only [itemsTokens, List.mem_append]
      obtain rfl | hrest := List.mem_cons.mp h
      · exact .inr (.inl htoken)
      · exact .inr (.inr (ih hrest _))

theorem mem_membersTokens {members : List (List Char × Tree)} {member : List Char × Tree}
    (h : member ∈ members) {token : Token}
    (htoken : token = .str member.1 ∨ token ∈ member.2.tokens)
    (sep : List Token) : token ∈ membersTokens sep members := by
  induction members generalizing sep with
  | nil => cases h
  | cons first rest ih =>
      simp only [membersTokens, List.mem_append, List.mem_cons]
      obtain rfl | hrest := List.mem_cons.mp h
      · exact .inr (htoken.imp_right fun htoken => .inr (.inl htoken))
      · exact .inr (.inr (.inr (.inr (ih hrest _))))

theorem forall_itemsTokens {P : Token → Prop} (comma : P .comma) {items : List Tree}
    (h : ∀ item ∈ items, ∀ token ∈ item.tokens, P token) {sep : List Token}
    (hsep : ∀ token ∈ sep, P token) : ∀ token ∈ itemsTokens sep items, P token := by
  induction items generalizing sep with
  | nil => simp [itemsTokens]
  | cons item rest ih =>
      have hrest := ih (fun other hother => h other (List.mem_cons_of_mem _ hother))
        (List.forall_mem_singleton.mpr comma)
      simp only [itemsTokens, List.forall_mem_append]
      exact ⟨hsep, h item List.mem_cons_self, hrest⟩

theorem forall_membersTokens {P : Token → Prop} (comma : P .comma) (colon : P .colon)
    {members : List (List Char × Tree)}
    (h : ∀ member ∈ members, P (.str member.1) ∧ ∀ token ∈ member.2.tokens, P token)
    {sep : List Token} (hsep : ∀ token ∈ sep, P token) :
    ∀ token ∈ membersTokens sep members, P token := by
  induction members generalizing sep with
  | nil => simp [membersTokens]
  | cons member rest ih =>
      obtain ⟨hkey, hvalue⟩ := h member List.mem_cons_self
      have hrest := ih (fun other hother => h other (List.mem_cons_of_mem _ hother))
        (List.forall_mem_singleton.mpr comma)
      simp only [membersTokens, List.forall_mem_append, List.forall_mem_cons]
      exact ⟨hsep, hkey, colon, hvalue, hrest⟩

theorem Tree.givesWord (tree : Tree) (h : ∀ token ∈ tree.tokens, token.Printable) :
    GivesWord tree.text tree.tokens := by
  induction tree using Tree.induct with
  | str raw => exact (gives_str (h (.str raw) List.mem_cons_self)).word
  | word raw => exact gives_word (h (.word raw) List.mem_cons_self)
  | array items ih =>
      have hitems : ∀ item ∈ items, GivesWord item.text item.tokens := fun item hitem =>
        ih item hitem fun token htoken => h token
          (List.mem_cons_of_mem _ (List.mem_append_left _ (mem_itemsTokens hitem htoken [])))
      have hopening : Gives ['['] [.opening .square] := gives_punctuation rfl
      exact (hopening.append (gives_items hitems gives_nil)).word
  | object members ih =>
      have hmembers : ∀ member ∈ members,
          Quotable member.1 ∧ GivesWord member.2.text member.2.tokens := by
        intro member hmember
        have hprintable : ∀ token, token = .str member.1 ∨ token ∈ member.2.tokens →
            token.Printable := fun token htoken => h token
          (List.mem_cons_of_mem _ (List.mem_append_left _ (mem_membersTokens hmember htoken [])))
        exact ⟨hprintable (.str member.1) (.inl rfl),
          ih member hmember fun token htoken => hprintable token (.inr htoken)⟩
      have hopening : Gives ['\x7b'] [.opening .curly] := gives_punctuation rfl
      exact (hopening.append (gives_members hmembers gives_nil)).word

/-- A tree is lexed as it was printed. -/
theorem Tree.lex_text {tree : Tree} (h : ∀ token ∈ tree.tokens, token.Printable) :
    lex tree.text = some tree.tokens := by
  have hgives := tree.givesWord h [] (by simp [Stops])
  rw [List.append_nil] at hgives
  rw [hgives]
  exact congrArg some (List.append_nil _)

/-! ### Texts on one line -/

/-- Nothing in the token, as it is written, is a control character. -/
def Token.Clean : Token → Prop
  | .str raw | .word raw => ∀ c ∈ raw, isControl c = false
  | _ => True

theorem itemsText_clean {items : List Tree}
    (h : ∀ item ∈ items, ∀ c ∈ item.text, isControl c = false) {sep : List Char}
    (hsep : ∀ c ∈ sep, isControl c = false) : ∀ c ∈ itemsText sep items, isControl c = false := by
  induction items generalizing sep with
  | nil => simp [itemsText]
  | cons item rest ih =>
      have hrest := ih (fun other hother => h other (List.mem_cons_of_mem _ hother))
        (List.forall_mem_singleton.mpr (show isControl ',' = false by decide))
      simp only [itemsText, List.forall_mem_append]
      exact ⟨hsep, h item List.mem_cons_self, hrest⟩

theorem membersText_clean {members : List (List Char × Tree)}
    (h : ∀ member ∈ members, (∀ c ∈ member.1, isControl c = false) ∧
      ∀ c ∈ member.2.text, isControl c = false) {sep : List Char}
    (hsep : ∀ c ∈ sep, isControl c = false) :
    ∀ c ∈ membersText sep members, isControl c = false := by
  induction members generalizing sep with
  | nil => simp [membersText]
  | cons member rest ih =>
      obtain ⟨hkey, hvalue⟩ := h member List.mem_cons_self
      have hrest := ih (fun other hother => h other (List.mem_cons_of_mem _ hother))
        (List.forall_mem_singleton.mpr (show isControl ',' = false by decide))
      simp only [membersText, List.forall_mem_append, List.forall_mem_cons]
      exact ⟨hsep, ⟨by decide, hkey, by decide, by simp⟩, by decide, hvalue, hrest⟩

/-- Where the tokens are clean, so is the text. -/
theorem Tree.text_clean (tree : Tree) (h : ∀ token ∈ tree.tokens, token.Clean) :
    ∀ c ∈ tree.text, isControl c = false := by
  induction tree using Tree.induct with
  | str raw =>
      have hraw : ∀ c ∈ raw, isControl c = false := h (.str raw) List.mem_cons_self
      simp only [Tree.text, List.forall_mem_cons, List.forall_mem_append]
      exact ⟨by decide, hraw, by decide, by simp⟩
  | word raw => exact h (.word raw) List.mem_cons_self
  | array items ih =>
      have hitems : ∀ item ∈ items, ∀ c ∈ item.text, isControl c = false := fun item hitem =>
        ih item hitem fun token htoken => h token
          (List.mem_cons_of_mem _ (List.mem_append_left _ (mem_itemsTokens hitem htoken [])))
      simp only [Tree.text, List.forall_mem_cons, List.forall_mem_append]
      exact ⟨by decide, itemsText_clean hitems (by simp), by decide, by simp⟩
  | object members ih =>
      have hmembers : ∀ member ∈ members, (∀ c ∈ member.1, isControl c = false) ∧
          ∀ c ∈ member.2.text, isControl c = false := by
        intro member hmember
        have hclean : ∀ token, token = .str member.1 ∨ token ∈ member.2.tokens → token.Clean :=
          fun token htoken => h token
            (List.mem_cons_of_mem _ (List.mem_append_left _ (mem_membersTokens hmember htoken [])))
        exact ⟨hclean (.str member.1) (.inl rfl),
          ih member hmember fun token htoken => hclean token (.inr htoken)⟩
      simp only [Tree.text, List.forall_mem_cons, List.forall_mem_append]
      exact ⟨by decide, membersText_clean hmembers (by simp), by decide, by simp⟩

end LlmWakeProxy.Library.Json
