import LlmWakeProxy.Forward.Document

/-!
The rewriting of a response that is not streamed. The body is one JSON document, but
it is taken line by line like a stream, and only a line that is a JSON text by itself
is rewritten. When the document stands on one line it is rewritten as a whole. When
it is spread over several lines, the lines that are rewritten are inside the document,
and its own model stays what it is.
-/

namespace LlmWakeProxy.Forward
open LlmWakeProxy.Library

universe u
variable {ν : Type u} {number : Text → Option ν} {serde : SerdeJson ν} {modelAlias : Text}

/-- The body is a JSON object of integers, literals and strings, in which one member is
spelled as the model. -/
structure IsDocument (body : Text) (members : List (Text × Json.Tree)) : Prop where
  text : Json.lex body = some (Json.Tree.object members).tokens
  integers : IntegerTokens (Json.Tree.object members).tokens
  spelled : (members.map Prod.fst).count model = 1

/-- The rewritten body is the same object, with the alias as its model. -/
def RewritesModel (serde : SerdeJson ν) (modelAlias body : Text) : Prop :=
  ∃ fields, serde.fromStr body = some (.object fields) ∧
    serde.fromStr (rewriteModelAlias serde body modelAlias) =
      some (.object (setField model (.string modelAlias) fields))

/-- All of the document stands on one line; the other lines are blank. -/
def OneLine (body : Text) : Prop :=
  ∃ before line after, body.splitOn '\n' = before ++ line :: after ∧
    ∀ other ∈ before ++ after, ∀ c ∈ other, Json.isSpace c = true

/-! ### A line -/

theorem lex_dataPrefix (rest : Text) :
    Json.lex (dataPrefix ++ rest) =
      (Json.lex rest).map ([.word ['d', 'a', 't', 'a'], .colon] ++ ·) := by
  have hword : Json.Token.Printable (.word ['d', 'a', 't', 'a']) :=
    ⟨by decide, List.all_iff_forall_prop.mp (by decide)⟩
  have hstops : Json.Stops (':' :: ' ' :: rest) := by
    intro c hc
    cases hc
    decide
  have hcolon : Json.Place.next .gap ':' = some (.gap, [.colon]) := rfl
  have hspace : Json.Place.next .gap ' ' = some (.gap, []) := rfl
  have htext : dataPrefix ++ rest = ['d', 'a', 't', 'a'] ++ ':' :: ' ' :: rest := rfl
  rw [htext, Json.gives_word hword _ hstops, Json.lex, Json.lexFrom_step hcolon,
    Json.lexFrom_silent hspace, Option.map_map]
  rfl

/-- A line of JSON without its carriage return, and what is made of it. -/
theorem rewriteLine_stripped (serde : SerdeJson ν) (modelAlias line : Text) :
    ∃ stripped ending, line = stripped ++ ending ∧ (ending = [] ∨ ending = ['\r']) ∧
      rewriteLine serde modelAlias line = processLine serde modelAlias stripped ++ ending := by
  unfold rewriteLine
  cases hsuffix : line.dropSuffix? ['\r'] with
  | some stripped => exact ⟨stripped, ['\r'], dropSuffix_eq hsuffix, .inr rfl, rfl⟩
  | none => exact ⟨line, [], (List.append_nil _).symm, .inl rfl, (List.append_nil _).symm⟩

theorem lex_append_ending {ending : Text} (h : ending = [] ∨ ending = ['\r']) (text : Text) :
    Json.lex (text ++ ending) = Json.lex text := by
  obtain rfl | rfl := h
  · rw [List.append_nil]
  · exact Json.lex_append_separator Json.separates_return text

/-- A line of integers, literals and strings is parsed as a whole, if it mentions the key. -/
theorem processLine_of_tokens {line : Text} {tokens : List Json.Token}
    (hlex : Json.lex line = some tokens) (h : IntegerTokens tokens) :
    processLine serde modelAlias line =
      if modelKey <:+: line then (rewriteJson serde modelAlias line).getD line else line := by
  unfold processLine
  cases hprefix : line.dropPrefix? dataPrefix with
  | some sseData =>
      rw [dropPrefix_eq hprefix, lex_dataPrefix] at hlex
      obtain ⟨following, _, rfl⟩ := Option.map_eq_some_iff.mp hlex
      have hdata := h.words ['d', 'a', 't', 'a'] (by simp)
      exact absurd hdata (by decide)
  | none =>
      by_cases hkey : modelKey <:+: line
      · cases hjson : rewriteJson serde modelAlias line <;> simp [hkey]
      · simp [hkey]

/-- The tokens are a tree's, and the others are those of the value with its model set. -/
def Rewritten (number : Text → Option ν) (modelAlias : Text) (tokens others : List Json.Token) :
    Prop :=
  ∃ tree other value, tokens = tree.tokens ∧ treeValue number tree = some value ∧
    others = other.tokens ∧ treeValue number other = some (value.setModel modelAlias)

/-- A line that is a text by itself and mentions the key is rewritten. -/
theorem rewriteLine_of_value (faithful : serde.Faithful number) (modelAlias : Text) {line : Text}
    {tokens : List Json.Token} (hlex : Json.lex line = some tokens) (h : IntegerTokens tokens) :
    (∃ others, Json.lex (rewriteLine serde modelAlias line) = some others ∧
      Rewritten number modelAlias tokens others) ∨
    (Json.lex (rewriteLine serde modelAlias line) = some tokens ∧
      ∀ tree value, tokens = tree.tokens → treeValue number tree = some value →
        .str model ∉ tokens) := by
  obtain ⟨stripped, ending, rfl, hending, hline⟩ := rewriteLine_stripped serde modelAlias line
  rw [lex_append_ending hending] at hlex
  rw [hline, lex_append_ending hending, processLine_of_tokens hlex h]
  by_cases hkey : modelKey <:+: stripped
  · cases hparse : serde.fromStr stripped with
    | some value =>
        refine .inl ?_
        obtain ⟨tree, htree, hvalue⟩ := (faithful.parses stripped value).mp hparse
        obtain rfl := Option.some.inj (hlex.symm.trans htree)
        have hinteger := (integerValue_of_treeValue h hvalue).setModel modelAlias
        obtain ⟨printed, hprinted, hread⟩ := faithful.prints _ hinteger
        obtain ⟨other, hother, hotherValue⟩ := (faithful.parses printed _).mp hread
        refine ⟨other.tokens, ?_, tree, other, value, rfl, hvalue, rfl, hotherValue⟩
        simp [hkey, rewriteJson, hparse, hprinted, hother]
    | none =>
        refine .inr ⟨by simp [hkey, rewriteJson, hparse, hlex], fun tree value htokens hvalue => ?_⟩
        have hparsed := (faithful.parses stripped value).mpr ⟨tree, htokens ▸ hlex, hvalue⟩
        rw [hparse] at hparsed
        cases hparsed
  · exact .inr ⟨by simp [hkey, hlex], fun _ _ _ _ hmodel => hkey (Json.quoted_infix hlex hmodel)⟩

/-! ### A document on one line -/

theorem rewriteLine_of_blank {line : Text} (h : ∀ c ∈ line, Json.isSpace c = true) :
    rewriteLine serde modelAlias line = line := by
  refine rewriteLine_eq_self fun rewritable => ?_
  have hmem : 'm' ∈ line := rewritable.mentions.subset (by decide)
  exact absurd (h 'm' hmem) (by decide)

theorem lineTokens_of_blank {lines : List Text}
    (h : ∀ line ∈ lines, ∀ c ∈ line, Json.isSpace c = true) :
    (lines.map Json.lineTokens).flatten = [] := by
  rw [List.flatten_eq_nil_iff]
  intro tokens htokens
  obtain ⟨line, hline, rfl⟩ := List.mem_map.mp htokens
  rw [Json.lineTokens, Json.lex_eq_nil.mpr (h line hline)]
  rfl

/-- Blank lines around a line add nothing to it. -/
theorem lex_oneLine {before after : List Text} {line : Text}
    (h : ∀ other ∈ before ++ after, ∀ c ∈ other, Json.isSpace c = true) :
    Json.lex (['\n'].intercalate (before ++ line :: after)) = Json.lex line := by
  obtain ⟨hbefore, hafter⟩ := List.forall_mem_append.mp h
  refine Option.ext fun tokens => ?_
  rw [Json.lex_lines Json.separates_newline (by simp), List.map_append, List.map_cons,
    List.flatten_append, List.flatten_cons, lineTokens_of_blank hbefore, lineTokens_of_blank hafter,
    List.append_nil, List.nil_append]
  constructor
  · rintro ⟨hlexed, rfl⟩
    obtain ⟨tokens, htokens⟩ := Option.isSome_iff_exists.mp (hlexed line (by simp))
    rw [Json.lineTokens, htokens]
    rfl
  · intro hline
    refine ⟨fun other hother => ?_, by rw [Json.lineTokens, hline]; rfl⟩
    obtain hother | rfl | hother : other ∈ before ∨ other = line ∨ other ∈ after := by
      simpa using hother
    · rw [Json.lex_eq_nil.mpr (hbefore other hother)]
      rfl
    · rw [hline]
      rfl
    · rw [Json.lex_eq_nil.mpr (hafter other hother)]
      rfl

theorem IsDocument.model_mem {body : Text} {members : List (Text × Json.Tree)}
    (document : IsDocument body members) : model ∈ members.map Prod.fst :=
  List.count_pos_iff.mp (by rw [document.spelled]; exact Nat.one_pos)

theorem IsDocument.spelled_mem {body : Text} {members : List (Text × Json.Tree)}
    (document : IsDocument body members) : .str model ∈ (Json.Tree.object members).tokens := by
  obtain ⟨member, hmember, hkey⟩ := List.mem_map.mp document.model_mem
  rw [← hkey]
  exact List.mem_cons_of_mem _
    (List.mem_append_left _ (Json.mem_membersTokens hmember (.inl rfl) []))

/-- The parsed document. -/
theorem IsDocument.value (faithful : serde.Faithful number) {body : Text}
    {members : List (Text × Json.Tree)} (document : IsDocument body members) :
    ∃ entries, List.Forall₂ (EntryOf number) members entries ∧
      treeValue number (.object members) = some (.object (SortedMap.collect entries)) := by
  obtain ⟨value, hvalue⟩ := exists_treeValue faithful.integers (.object members) document.integers
  obtain ⟨entries, hentries, rfl⟩ := Option.map_eq_some_iff.mp hvalue
  exact ⟨entries, membersEntries_eq_some.mp hentries, hvalue⟩

/-- A document on one line is rewritten. -/
theorem rewritesModel_of_oneLine (faithful : serde.Faithful number) {body : Text}
    {members : List (Text × Json.Tree)} (document : IsDocument body members) (h : OneLine body)
    (modelAlias : Text) : RewritesModel serde modelAlias body := by
  obtain ⟨before, line, after, hlines, hblank⟩ := h
  obtain ⟨hbefore, hafter⟩ := List.forall_mem_append.mp hblank
  obtain ⟨entries, _, hvalue⟩ := document.value faithful
  have hbody : body = ['\n'].intercalate (before ++ line :: after) := by
    rw [← hlines, List.intercalate_splitOn]
  have hline : Json.lex line = some (Json.Tree.object members).tokens := by
    rw [← lex_oneLine hblank, ← hbody, document.text]
  have hresult : rewriteModelAlias serde body modelAlias =
      ['\n'].intercalate (before ++ rewriteLine serde modelAlias line :: after) := by
    have hkept : ∀ lines : List Text, (∀ other ∈ lines, ∀ c ∈ other, Json.isSpace c = true) →
        lines.map (rewriteLine serde modelAlias) = lines := fun lines hlines =>
      (List.map_congr_left fun other hother =>
        rewriteLine_of_blank (hlines other hother)).trans (List.map_id' lines)
    rw [rewriteModelAlias_eq_linewise, Lines.linewise, hlines, List.map_append, List.map_cons,
      hkept before hbefore, hkept after hafter]
  refine ⟨_, (faithful.parses _ _).mpr ⟨_, document.text, hvalue⟩, (faithful.parses _ _).mpr ?_⟩
  rw [hresult, lex_oneLine hblank]
  obtain ⟨_, hothers, tree, other, value, htree, htreeValue, rfl, hother⟩ | ⟨_, hunmentioned⟩ :=
    rewriteLine_of_value faithful modelAlias hline document.integers
  · obtain rfl := Json.Tree.tokens_injective htree
    obtain rfl := Option.some.inj (hvalue.symm.trans htreeValue)
    exact ⟨other, hothers, hother⟩
  · exact absurd document.spelled_mem (hunmentioned _ _ rfl hvalue)

/-! ### A document on several lines -/

/-- What is seen of a value without looking into it. -/
inductive Mark (ν : Type u) where
  | scalar (value : Option (Value ν))
  | array
  | object

def Value.mark : Value ν → Mark ν
  | .array _ => .array
  | .object _ => .object
  | value => .scalar (some value)

def tokenMark (number : Text → Option ν) : Json.Token → List (Mark ν)
  | .str raw => [.scalar ((Json.unescape raw).map .string)]
  | .word raw => [.scalar (wordValue number raw)]
  | .opening .square => [.array]
  | .opening .curly => [.object]
  | _ => []

theorem unpunctuated : Json.Unpunctuated (tokenMark number) := ⟨rfl, rfl, fun _ => rfl⟩

theorem wordValue_mark {raw : Text} {value : Value ν} (h : wordValue number raw = some value) :
    value.mark = .scalar (some value) := by
  unfold wordValue at h
  split_ifs at h
  · cases h
    rfl
  · cases h
    rfl
  · cases h
    rfl
  · obtain ⟨n, _, rfl⟩ := Option.map_eq_some_iff.mp h
    rfl

/-- A tree begins as its value looks. -/
theorem tokenMark_head {tree : Json.Tree} {value : Value ν}
    (h : treeValue number tree = some value) : tokenMark number tree.head = [value.mark] := by
  cases tree with
  | str raw =>
      obtain ⟨text, htext, rfl⟩ := Option.map_eq_some_iff.mp h
      simp [Json.Tree.head, tokenMark, htext, Value.mark]
  | word raw =>
      rw [wordValue_mark h]
      exact congrArg (fun v => [Mark.scalar v]) h
  | array items =>
      obtain ⟨values, _, rfl⟩ := Option.map_eq_some_iff.mp h
      rfl
  | object members =>
      obtain ⟨entries, _, rfl⟩ := Option.map_eq_some_iff.mp h
      rfl

@[simp] theorem mark_setModel (value : Value ν) (modelAlias : Text) :
    (value.setModel modelAlias).mark = value.mark := by
  cases value <;> rfl

theorem Rewritten.exchanged {tokens others : List Json.Token}
    (h : Rewritten number modelAlias tokens others) :
    Json.Exchanged (tokenMark number) tokens others := by
  obtain ⟨tree, other, value, rfl, hvalue, rfl, hother⟩ := h
  refine .inr ⟨tree, other, rfl, rfl, ?_⟩
  rw [tokenMark_head hvalue, tokenMark_head hother, mark_setModel]

/-- What is seen of the entries of an object. -/
def entryMarks (entry : Text × Value ν) : List (Mark ν) :=
  [.scalar (some (.string entry.1)), entry.2.mark]

theorem surface_entries {members : List (Text × Json.Tree)} {entries : List (Text × Value ν)}
    (h : List.Forall₂ (EntryOf number) members entries) :
    Json.surface (tokenMark number) 0 (Json.Tree.object members).tokens =
      entries.flatMap entryMarks := by
  rw [Json.surface_object unpunctuated]
  induction h with
  | nil => rfl
  | @cons member entry members entries hentry _ ih =>
      obtain ⟨hkey, hvalue⟩ := hentry
      have hname : tokenMark number (.str member.1) = [.scalar (some (.string entry.1))] := by
        simp [tokenMark, hkey]
      rw [List.flatMap_cons, List.flatMap_cons, ih, hname, tokenMark_head hvalue]
      rfl

theorem marks_of_flatMap {entries others : List (Text × Value ν)}
    (h : entries.flatMap entryMarks = others.flatMap entryMarks) :
    entries.map (Prod.map id Value.mark) = others.map (Prod.map id Value.mark) := by
  induction entries generalizing others with
  | nil =>
      cases others with
      | nil => rfl
      | cons other others => simp [entryMarks] at h
  | cons entry entries ih =>
      cases others with
      | nil => simp [entryMarks] at h
      | cons other others =>
          simp only [List.flatMap_cons, entryMarks, List.cons_append, List.nil_append,
            List.cons.injEq, Mark.scalar.injEq, Option.some.injEq, Value.string.injEq] at h
          obtain ⟨hkey, hmark, hrest⟩ := h
          rw [List.map_cons, List.map_cons, ih hrest, Prod.map, Prod.map, hkey, hmark]

/-- A field that looks the same when it is set had a value that looks like it. -/
theorem mem_of_marks_setField {key : Text} {value : Value ν} {fields : List (Text × Value ν)}
    (hkey : key ∈ fields.map Prod.fst)
    (h : (setField key value fields).map (Prod.map id Value.mark) =
      fields.map (Prod.map id Value.mark)) :
    ∃ old, (key, old) ∈ fields ∧ old.mark = value.mark := by
  induction fields with
  | nil => cases hkey
  | cons field rest ih =>
      rw [setField] at h
      split_ifs at h with heq
      · subst heq
        have hhead := (List.cons.inj h).1
        exact ⟨field.2, List.mem_cons_self, (congrArg Prod.snd hhead).symm⟩
      · have hrest : key ∈ rest.map Prod.fst := (List.mem_cons.mp hkey).resolve_left (Ne.symm heq)
        obtain ⟨old, hold, hmark⟩ := ih hrest (List.cons.inj h).2
        exact ⟨old, List.mem_cons_of_mem _ hold, hmark⟩

theorem eq_string_of_mark {value : Value ν} {text : Text}
    (h : value.mark = (Value.string text : Value ν).mark) : value = .string text := by
  cases value <;> simp_all [Value.mark]

/-- The lines of a text that is lexed. -/
theorem lex_splitOn {body : Text} {tokens : List Json.Token} :
    Json.lex body = some tokens ↔ (∀ line ∈ body.splitOn '\n', (Json.lex line).isSome) ∧
      tokens = ((body.splitOn '\n').map Json.lineTokens).flatten := by
  rw [← Json.lex_lines Json.separates_newline (List.splitOn_ne_nil _ _), List.intercalate_splitOn]

/-- A line with all the tokens leaves the others blank. -/
theorem oneLine_of_line {body line : Text} {tokens : List Json.Token}
    (hlex : Json.lex body = some tokens) (hline : line ∈ body.splitOn '\n')
    (hall : Json.lineTokens line = tokens) : OneLine body := by
  obtain ⟨hlexed, htokens⟩ := lex_splitOn.mp hlex
  obtain ⟨before, after, hsplit⟩ := List.append_of_mem hline
  refine ⟨before, line, after, hsplit, fun other hother => Json.lex_eq_nil.mp ?_⟩
  obtain ⟨found, hfound⟩ := Option.isSome_iff_exists.mp (hlexed other (by
    rw [hsplit]
    simpa [or_left_comm] using Or.inr (List.mem_append.mp hother)))
  have hlength := congrArg List.length htokens
  rw [hsplit, List.map_append, List.map_cons, hall, List.flatten_append, List.flatten_cons,
    List.length_append, List.length_append] at hlength
  have hnone : ((before ++ after).map Json.lineTokens).flatten = [] := by
    rw [List.map_append, List.flatten_append]
    refine List.eq_nil_of_length_eq_zero ?_
    rw [List.length_append]
    omega
  have hother := List.flatten_eq_nil_iff.mp hnone _ (List.mem_map_of_mem hother)
  rw [Json.lineTokens, hfound] at hother
  rw [hfound]
  exact congrArg some hother

/-- On several lines the rewriting keeps the surface of the document. -/
theorem surface_rewritten (faithful : serde.Faithful number) (modelAlias : Text) {body : Text}
    {members : List (Text × Json.Tree)} (document : IsDocument body members)
    (several : ¬ OneLine body) :
    ∃ others, Json.lex (rewriteModelAlias serde body modelAlias) = some others ∧
      Json.surface (tokenMark number) 0 others =
        Json.surface (tokenMark number) 0 (Json.Tree.object members).tokens := by
  obtain ⟨hlexed, htokens⟩ := lex_splitOn.mp document.text
  have hline : ∀ line ∈ body.splitOn '\n',
      (Json.lex (rewriteLine serde modelAlias line)).isSome ∧
        Json.Exchanged (tokenMark number) (Json.lineTokens line)
          (Json.lineTokens (rewriteLine serde modelAlias line)) := by
    intro line hmem
    obtain ⟨tokens, hlex⟩ := Option.isSome_iff_exists.mp (hlexed line hmem)
    have hintegers : IntegerTokens tokens := document.integers.mono fun token htoken => by
      rw [htokens, List.mem_flatten]
      exact ⟨_, List.mem_map_of_mem hmem, by rwa [Json.lineTokens, hlex]⟩
    rw [Json.lineTokens, Json.lineTokens, hlex]
    obtain ⟨others, hothers, hrewritten⟩ | ⟨hkept, _⟩ :=
      rewriteLine_of_value faithful modelAlias hlex hintegers
    · rw [hothers]
      exact ⟨rfl, hrewritten.exchanged⟩
    · rw [hkept]
      exact ⟨rfl, .inl rfl⟩
  have hexchanged : List.Forall₂ (Json.Exchanged (tokenMark number))
      ((body.splitOn '\n').map Json.lineTokens)
      ((body.splitOn '\n').map fun line => Json.lineTokens (rewriteLine serde modelAlias line)) := by
    rw [List.forall₂_map_left_iff, List.forall₂_map_right_iff, List.forall₂_same]
    exact fun line hmem => (hline line hmem).2
  have hresult : rewriteModelAlias serde body modelAlias =
      ['\n'].intercalate ((body.splitOn '\n').map (rewriteLine serde modelAlias)) :=
    rewriteModelAlias_eq_linewise serde body modelAlias
  have hlexedResult : Json.lex (rewriteModelAlias serde body modelAlias) =
      some (((body.splitOn '\n').map (rewriteLine serde modelAlias)).map Json.lineTokens).flatten := by
    rw [hresult]
    refine (Json.lex_lines Json.separates_newline (by simp)).mpr ⟨fun rewritten hmem => ?_, rfl⟩
    obtain ⟨line, hsource, rfl⟩ := List.mem_map.mp hmem
    exact (hline line hsource).1
  refine ⟨_, hlexedResult, ?_⟩
  rw [List.map_map, htokens]
  refine Json.surface_exchanged hexchanged [] htokens fun part hpart hall => several ?_
  obtain ⟨line, hmem, rfl⟩ := List.mem_map.mp hpart
  exact oneLine_of_line document.text hmem hall

theorem object_of_treeValue {tree : Json.Tree} {fields : List (Text × Value ν)}
    (h : treeValue number tree = some (.object fields)) :
    ∃ members entries, tree = .object members ∧ List.Forall₂ (EntryOf number) members entries ∧
      fields = SortedMap.collect entries := by
  cases tree with
  | str raw =>
      obtain ⟨_, _, heq⟩ := Option.map_eq_some_iff.mp h
      cases heq
  | word raw => cases wordValue_mark h
  | array items =>
      obtain ⟨_, _, heq⟩ := Option.map_eq_some_iff.mp h
      cases heq
  | object members =>
      obtain ⟨entries, hentries, heq⟩ := Option.map_eq_some_iff.mp h
      cases heq
      exact ⟨members, entries, rfl, membersEntries_eq_some.mp hentries, rfl⟩

theorem unescape_model : Json.unescape model = some model := by
  decide

theorem model_mem_entries {members : List (Text × Json.Tree)} {entries : List (Text × Value ν)}
    (h : List.Forall₂ (EntryOf number) members entries) (hmem : model ∈ members.map Prod.fst) :
    model ∈ entries.map Prod.fst := by
  induction h with
  | nil => cases hmem
  | @cons member entry members entries hentry _ ih =>
      obtain hfirst | hrest := List.mem_cons.mp hmem
      · have hkey := hentry.1
        rw [← hfirst, unescape_model] at hkey
        rw [List.map_cons, ← Option.some.inj hkey]
        exact List.mem_cons_self
      · exact List.mem_cons_of_mem _ (ih hrest)

/-- Where a document is rewritten, it stands on one line, or has the alias already. -/
theorem oneLine_or_named (faithful : serde.Faithful number) {body : Text}
    {members : List (Text × Json.Tree)} (document : IsDocument body members)
    (h : RewritesModel serde modelAlias body) :
    OneLine body ∨
      ∃ fields, serde.fromStr body = some (.object fields) ∧
        (model, .string modelAlias) ∈ fields := by
  refine or_iff_not_imp_left.mpr fun several => ?_
  obtain ⟨fields, hfields, hresult⟩ := h
  obtain ⟨entries, hentries, hvalue⟩ := document.value faithful
  have hparsed := (faithful.parses _ _).mpr ⟨_, document.text, hvalue⟩
  obtain rfl : SortedMap.collect entries = fields := by
    rw [hparsed] at hfields
    cases hfields
    rfl
  refine ⟨_, hfields, ?_⟩
  -- the result is an object whose surface is that of the body
  obtain ⟨others, hothers, hsurface⟩ := surface_rewritten faithful modelAlias document several
  obtain ⟨tree, htree, htreeValue⟩ := (faithful.parses _ _).mp hresult
  obtain rfl := Option.some.inj (hothers.symm.trans htree)
  obtain ⟨members', entries', rfl, hentries', hset⟩ := object_of_treeValue htreeValue
  rw [surface_entries hentries, surface_entries hentries'] at hsurface
  have hmarks : (setField model (.string modelAlias) (SortedMap.collect entries)).map
      (Prod.map id Value.mark) = (SortedMap.collect entries).map (Prod.map id Value.mark) := by
    rw [hset, SortedMap.map_collect, SortedMap.map_collect, marks_of_flatMap hsurface]
  have hmem : model ∈ (SortedMap.collect entries).map Prod.fst :=
    SortedMap.mem_keys_collect.mpr (model_mem_entries hentries document.model_mem)
  obtain ⟨old, hold, hmark⟩ := mem_of_marks_setField hmem hmarks
  rwa [eq_string_of_mark hmark] at hold

/-- A document that is rewritten for two aliases stands on one line. -/
theorem oneLine_of_two (faithful : serde.Faithful number) {body : Text}
    {members : List (Text × Json.Tree)} (document : IsDocument body members) {other : Text}
    (h : RewritesModel serde modelAlias body) (hother : RewritesModel serde other body)
    (hne : modelAlias ≠ other) : OneLine body := by
  by_contra several
  obtain ⟨fields, hfields, hnamed⟩ := (oneLine_or_named faithful document h).resolve_left several
  obtain ⟨fields', hfields', hnamed'⟩ :=
    (oneLine_or_named faithful document hother).resolve_left several
  obtain ⟨entries, hentries, hvalue⟩ := document.value faithful
  rw [(faithful.parses _ _).mpr ⟨_, document.text, hvalue⟩] at hfields hfields'
  cases hfields
  cases hfields'
  cases SortedMap.value_unique (SortedMap.ascending_collect entries) hnamed hnamed'
  exact hne rfl

/-- The body is rewritten, whatever the alias, exactly when the document stands on one
line. -/
theorem rewritesModel_iff (serde : SerdeJson ν) (number : Text → Option ν)
    (faithful : serde.Faithful number) (body : Text) (members : List (Text × Json.Tree))
    (document : IsDocument body members) :
    (∀ modelAlias, RewritesModel serde modelAlias body) ↔ OneLine body := by
  refine ⟨fun h => ?_, rewritesModel_of_oneLine faithful document⟩
  exact oneLine_of_two faithful document (h []) (h ['x']) (by decide)

section Instances

def namedMembers : List (Text × Json.Tree) :=
  [(model, .str ['m']), (['o'], .object [(model, .word ['1'])])]

def compactBody : Text :=
  "\x7b\x22model\x22: \x22m\x22, \x22o\x22: \x7b\x22model\x22:1\x7d\x7d\r\n".toList

def prettyBody : Text :=
  "\x7b\n\x22model\x22: \x22m\x22,\n\x22o\x22: \x7b\x22model\x22:1\x7d\n\x7d".toList

theorem compactBody_document : IsDocument compactBody namedMembers :=
  ⟨by decide, .of_all (by decide), by decide⟩

theorem prettyBody_document : IsDocument prettyBody namedMembers :=
  ⟨by decide, .of_all (by decide), by decide⟩

/-- A document on one line gets the alias. -/
theorem rewritesModel_iff_compact : RewritesModel SerdeJson.byText ['x'] compactBody := by
  refine (rewritesModel_iff _ _ byText_faithful _ _ compactBody_document).mpr ?_ ['x']
  refine ⟨[], compactBody.dropLast, [[]], by decide, by simp⟩

theorem prettyBody_several : ¬ OneLine prettyBody := by
  rintro ⟨before, line, after, hlines, hblank⟩
  have hsplit : prettyBody.splitOn '\n' = [['\x7b'], "\x22model\x22: \x22m\x22,".toList,
      "\x22o\x22: \x7b\x22model\x22:1\x7d".toList, ['\x7d']] := by decide
  rw [hsplit] at hlines
  cases before with
  | nil =>
      obtain ⟨_, rfl⟩ := List.cons.inj hlines
      exact absurd (hblank ['\x7d'] (by simp) '\x7d' (by simp)) (by decide)
  | cons first rest =>
      obtain ⟨rfl, _⟩ := List.cons.inj hlines
      exact absurd (hblank ['\x7b'] (by simp) '\x7b' (by simp)) (by decide)

/-- A document on several lines keeps its model. -/
theorem pretty_body_keeps_model :
    ¬ ∀ (ν : Type) (serde : SerdeJson ν) (number : Text → Option ν), serde.Faithful number →
        ∀ (body : Text) (members : List (Text × Json.Tree)), IsDocument body members →
          ∀ modelAlias, RewritesModel serde modelAlias body := by
  intro claim
  have rewritten := claim _ _ _ byText_faithful _ _ prettyBody_document
  exact prettyBody_several
    (oneLine_of_two byText_faithful prettyBody_document (rewritten []) (rewritten ['x']) (by decide))

end Instances
end LlmWakeProxy.Forward
