import LlmWakeProxy.Forward.Document

/-!
What `rewrite_model_alias` is on texts of several lines, and when it is applied
again. Of `serde_json` it is taken for granted that what it prints has no line break
and is read back as the value, and that no JSON text begins as an event does.
-/

namespace LlmWakeProxy.Forward
open LlmWakeProxy.Library

universe u
variable {ν : Type u} {serde : SerdeJson ν}

/-- What is printed of a value that was parsed and had its model set stands on one
line and is read back, and no text is parsed that begins as an event does. -/
structure SerdeJson.Reprints (serde : SerdeJson ν) : Prop where
  notEvent : ∀ text value, serde.fromStr text = some value → ¬ dataPrefix <+: text
  oneLine : ∀ text value modelAlias printed, serde.fromStr text = some value →
    serde.toString (value.setModel modelAlias) = some printed → '\n' ∉ printed ∧ '\r' ∉ printed
  reads : ∀ text value modelAlias printed, serde.fromStr text = some value →
    serde.toString (value.setModel modelAlias) = some printed →
    serde.fromStr printed = some (value.setModel modelAlias)

/-- The same value, but for the `model` of an object. -/
def Value.SameButModel : Value ν → Value ν → Prop
  | .object fields, .object others =>
      List.Forall₂ (fun field other => other.1 = field.1 ∧ (field.1 ≠ model → other.2 = field.2))
        fields others
  | value, other => other = value

/-- The carriage return of a line that ends in one. -/
def lineEnd (part : Text) : Text :=
  if ['\r'] <:+ part then ['\r'] else []

/-- The line is kept, or its JSON value is printed again with at most its model
changed, after the event's prefix and before the carriage return if the line had one. -/
def LineRewritten (serde : SerdeJson ν) (part part' : Text) : Prop :=
  part' = part ∨ ∃ lead ∈ [[], dataPrefix], ∃ text printed value value',
    part = lead ++ text ++ lineEnd part ∧ serde.fromStr text = some value ∧
      value.SameButModel value' ∧ serde.toString value' = some printed ∧
      part' = lead ++ printed ++ lineEnd part

/-! ### Setting the model -/

theorem setField_setField (key : Text) (value : Value ν) (fields : List (Text × Value ν)) :
    setField key value (setField key value fields) = setField key value fields := by
  induction fields with
  | nil => rfl
  | cons field rest ih =>
      obtain ⟨k, v⟩ := field
      by_cases hk : k = key
      · simp only [setField, if_pos hk]
      · simp only [setField, if_neg hk, ih]

theorem setModel_setModel (value : Value ν) (modelAlias : Text) :
    (value.setModel modelAlias).setModel modelAlias = value.setModel modelAlias := by
  cases value with
  | object fields => exact congrArg Value.object (setField_setField _ _ _)
  | _ => rfl

theorem sameButModel_setField (value : Value ν) (fields : List (Text × Value ν)) :
    List.Forall₂ (fun field other => other.1 = field.1 ∧ (field.1 ≠ model → other.2 = field.2))
      fields (setField model value fields) := by
  induction fields with
  | nil => exact .nil
  | cons field rest ih =>
      obtain ⟨k, v⟩ := field
      by_cases hk : k = model
      · simp only [setField, if_pos hk]
        exact .cons ⟨rfl, fun other => absurd hk other⟩
          (List.forall₂_same.mpr fun _ _ => ⟨rfl, fun _ => rfl⟩)
      · simp only [setField, if_neg hk]
        exact .cons ⟨rfl, fun _ => rfl⟩ ih

theorem sameButModel_setModel (value : Value ν) (modelAlias : Text) :
    value.SameButModel (value.setModel modelAlias) := by
  cases value with
  | object fields => exact sameButModel_setField _ fields
  | _ => rfl

/-! ### A line -/

section Line

variable {modelAlias : Text}

/-- What is printed is printed alike when it is read. -/
theorem rewriteJson_rewriteJson (h : serde.Reprints) {text printed : Text}
    (hjson : rewriteJson serde modelAlias text = some printed) :
    rewriteJson serde modelAlias printed = some printed := by
  obtain ⟨value, hvalue, hprinted⟩ := Option.bind_eq_some_iff.mp hjson
  rw [rewriteJson, h.reads text value modelAlias printed hvalue hprinted, Option.bind_some,
    setModel_setModel]
  exact hprinted

theorem rewriteJson_oneLine (h : serde.Reprints) {text printed : Text}
    (hjson : rewriteJson serde modelAlias text = some printed) :
    '\n' ∉ printed ∧ '\r' ∉ printed := by
  obtain ⟨value, hvalue, hprinted⟩ := Option.bind_eq_some_iff.mp hjson
  exact h.oneLine text value modelAlias printed hvalue hprinted

theorem rewriteJson_notEvent (h : serde.Reprints) {text printed : Text}
    (hjson : rewriteJson serde modelAlias text = some printed) : ¬ dataPrefix <+: printed := by
  obtain ⟨value, hvalue, hprinted⟩ := Option.bind_eq_some_iff.mp hjson
  exact h.notEvent printed _ (h.reads text value modelAlias printed hvalue hprinted)

/-- What becomes of a line without its carriage return: nothing, or its payload is
printed again behind the prefix it had. -/
theorem processLine_cases (serde : SerdeJson ν) (modelAlias cleanPart : Text) :
    processLine serde modelAlias cleanPart = cleanPart ∨
      ∃ lead ∈ [[], dataPrefix], ∃ text printed, cleanPart = lead ++ text ∧
        rewriteJson serde modelAlias text = some printed ∧
        processLine serde modelAlias cleanPart = lead ++ printed := by
  unfold processLine
  split
  next sseData hprefix =>
    split
    next =>
      split
      next printed hjson =>
        exact .inr ⟨dataPrefix, by simp, sseData, printed, dropPrefix_eq hprefix, hjson, rfl⟩
      next => exact .inl rfl
    next => exact .inl rfl
  next =>
    split
    next =>
      split
      next printed hjson => exact .inr ⟨[], by simp, cleanPart, printed, rfl, hjson, rfl⟩
      next => exact .inl rfl
    next => exact .inl rfl

theorem dropPrefix_append (text : Text) :
    (dataPrefix ++ text).dropPrefix? dataPrefix = some text :=
  List.dropPrefix?_eq_some_iff.mpr ⟨dataPrefix, rfl, beq_self_eq_true _⟩

theorem dropPrefix_eq_none {text : Text} (h : ¬ dataPrefix <+: text) :
    text.dropPrefix? dataPrefix = none := by
  cases hprefix : text.dropPrefix? dataPrefix with
  | none => rfl
  | some rest => exact absurd ⟨rest, (dropPrefix_eq hprefix).symm⟩ h

theorem dropSuffix_append (text : Text) : (text ++ ['\r']).dropSuffix? ['\r'] = some text :=
  List.dropSuffix?_eq_some_iff.mpr ⟨['\r'], rfl, beq_self_eq_true _⟩

theorem dropSuffix_eq_none {text : Text} (h : '\r' ∉ text) : text.dropSuffix? ['\r'] = none := by
  cases hsuffix : text.dropSuffix? ['\r'] with
  | none => rfl
  | some rest =>
      refine absurd ?_ h
      rw [dropSuffix_eq hsuffix]
      simp

/-- A payload that is printed as it stands is kept. -/
theorem processLine_eq_self {cleanPart : Text}
    (h : ∀ rewritten, rewriteJson serde modelAlias
      ((cleanPart.dropPrefix? dataPrefix).getD cleanPart) = some rewritten →
        rewritten = (cleanPart.dropPrefix? dataPrefix).getD cleanPart) :
    processLine serde modelAlias cleanPart = cleanPart := by
  by_contra hne
  obtain ⟨_, rewritten, hjson, hchanged⟩ := (processLine_ne_iff serde modelAlias cleanPart).mp hne
  exact hchanged (h rewritten hjson)

theorem processLine_processLine (h : serde.Reprints) (cleanPart : Text) :
    processLine serde modelAlias (processLine serde modelAlias cleanPart) =
      processLine serde modelAlias cleanPart := by
  obtain hkept | ⟨lead, hlead, text, printed, _, hjson, hprocessed⟩ :=
    processLine_cases serde modelAlias cleanPart
  · rw [hkept, hkept]
  · rw [hprocessed]
    have again := rewriteJson_rewriteJson h hjson
    have hpayload :
        ((lead ++ printed).dropPrefix? dataPrefix).getD (lead ++ printed) = printed := by
      obtain rfl | rfl : lead = [] ∨ lead = dataPrefix := by simpa using hlead
      · rw [List.nil_append, dropPrefix_eq_none (rewriteJson_notEvent h hjson), Option.getD_none]
      · rw [dropPrefix_append, Option.getD_some]
    refine processLine_eq_self fun rewritten hrewritten => ?_
    rw [hpayload] at hrewritten ⊢
    exact Option.some.inj (hrewritten.symm.trans again)

/-- A line that is printed again has no line break in it. -/
theorem printed_oneLine (h : serde.Reprints) {lead text printed : Text}
    (hlead : lead ∈ [[], dataPrefix]) (hjson : rewriteJson serde modelAlias text = some printed) :
    '\n' ∉ lead ++ printed ∧ '\r' ∉ lead ++ printed := by
  obtain ⟨newline, carriageReturn⟩ := rewriteJson_oneLine h hjson
  have hclean : '\n' ∉ lead ∧ '\r' ∉ lead := by
    obtain rfl | rfl : lead = [] ∨ lead = dataPrefix := by simpa using hlead
    · simp
    · decide
  simp only [List.mem_append, not_or]
  exact ⟨⟨hclean.1, newline⟩, hclean.2, carriageReturn⟩

theorem newline_not_mem_processLine (h : serde.Reprints) {cleanPart : Text}
    (hpart : '\n' ∉ cleanPart) : '\n' ∉ processLine serde modelAlias cleanPart := by
  obtain hkept | ⟨lead, hlead, text, printed, _, hjson, hprocessed⟩ :=
    processLine_cases serde modelAlias cleanPart
  · rwa [hkept]
  · rw [hprocessed]
    exact (printed_oneLine h hlead hjson).1

theorem newline_not_mem_rewriteLine (h : serde.Reprints) {part : Text} (hpart : '\n' ∉ part) :
    '\n' ∉ rewriteLine serde modelAlias part := by
  unfold rewriteLine
  split
  next stripped hsuffix =>
    rw [dropSuffix_eq hsuffix, List.mem_append, not_or] at hpart
    rw [List.mem_append, not_or]
    exact ⟨newline_not_mem_processLine h hpart.1, hpart.2⟩
  next => exact newline_not_mem_processLine h hpart

theorem rewriteLine_rewriteLine (h : serde.Reprints) (part : Text) :
    rewriteLine serde modelAlias (rewriteLine serde modelAlias part) =
      rewriteLine serde modelAlias part := by
  cases hsuffix : part.dropSuffix? ['\r'] with
  | some stripped =>
      have hline : rewriteLine serde modelAlias part =
          processLine serde modelAlias stripped ++ ['\r'] := by
        rw [rewriteLine, hsuffix]
      rw [hline, rewriteLine, dropSuffix_append]
      exact congrArg (· ++ ['\r']) (processLine_processLine h stripped)
  | none =>
      have hline : rewriteLine serde modelAlias part = processLine serde modelAlias part := by
        rw [rewriteLine, hsuffix]
      have hunsuffixed : (processLine serde modelAlias part).dropSuffix? ['\r'] = none := by
        obtain hkept | ⟨lead, hlead, text, printed, _, hjson, hprocessed⟩ :=
          processLine_cases serde modelAlias part
        · rw [hkept, hsuffix]
        · rw [hprocessed]
          exact dropSuffix_eq_none (printed_oneLine h hlead hjson).2
      rw [hline, rewriteLine, hunsuffixed]
      exact processLine_processLine h part

theorem lineEnd_of_dropSuffix {part stripped : Text}
    (h : part.dropSuffix? ['\r'] = some stripped) : lineEnd part = ['\r'] :=
  if_pos ⟨stripped, (dropSuffix_eq h).symm⟩

theorem lineEnd_of_unsuffixed {part : Text} (h : part.dropSuffix? ['\r'] = none) :
    lineEnd part = [] := by
  refine if_neg fun hsuffix => ?_
  obtain ⟨stripped, rfl⟩ := hsuffix
  rw [dropSuffix_append] at h
  cases h

theorem lineRewritten_rewriteLine (serde : SerdeJson ν) (modelAlias part : Text) :
    LineRewritten serde part (rewriteLine serde modelAlias part) := by
  have processed : ∀ cleanPart : Text, part = cleanPart ++ lineEnd part →
      LineRewritten serde part (processLine serde modelAlias cleanPart ++ lineEnd part) := by
    intro cleanPart hpart
    obtain hkept | ⟨lead, hlead, text, printed, hclean, hjson, hprocessed⟩ :=
      processLine_cases serde modelAlias cleanPart
    · exact .inl (by rw [hkept, ← hpart])
    · obtain ⟨value, hvalue, hprinted⟩ := Option.bind_eq_some_iff.mp hjson
      exact .inr ⟨lead, hlead, text, printed, value, value.setModel modelAlias,
        by rw [← hclean, ← hpart], hvalue, sameButModel_setModel value modelAlias, hprinted,
        by rw [hprocessed]⟩
  unfold rewriteLine
  split
  next stripped hsuffix =>
    have ended := lineEnd_of_dropSuffix hsuffix
    have kept := processed stripped (by rw [ended]; exact dropSuffix_eq hsuffix)
    rwa [ended] at kept
  next hsuffix =>
    have ended := lineEnd_of_unsuffixed hsuffix
    have kept := processed part (by rw [ended, List.append_nil])
    rwa [ended, List.append_nil] at kept

end Line

/-- Texts put together at a line break are rewritten each by itself, to rewrite again
changes nothing, and line by line the body is kept or has a JSON value printed again
with at most its top-level model changed. -/
theorem rewriteModelAlias_linewise (h : serde.Reprints) (modelAlias a b : Text) :
    rewriteModelAlias serde (a ++ '\n' :: b) modelAlias =
        rewriteModelAlias serde a modelAlias ++ '\n' :: rewriteModelAlias serde b modelAlias ∧
      rewriteModelAlias serde (rewriteModelAlias serde a modelAlias) modelAlias =
        rewriteModelAlias serde a modelAlias ∧
      List.Forall₂ (LineRewritten serde) (a.splitOn '\n')
        ((rewriteModelAlias serde a modelAlias).splitOn '\n') := by
  simp only [rewriteModelAlias_eq_linewise]
  refine ⟨Lines.linewise_append _ a b, ?_, ?_⟩
  · exact Lines.linewise_idempotent (fun line hline => newline_not_mem_rewriteLine h hline)
      (fun line _ => rewriteLine_rewriteLine h line) a
  · rw [Lines.splitOn_linewise fun line hline => newline_not_mem_rewriteLine h hline,
      List.forall₂_map_right_iff, List.forall₂_same]
    exact fun line _ => lineRewritten_rewriteLine serde modelAlias line

/-! ### The parser and the printer by text -/

theorem clean_of_isNatural {raw : Text} (h : isNatural raw = true) :
    ∀ c ∈ raw, Json.isControl c = false := by
  intro c hc
  have hdigit := (isDigit_of_isNatural h).2 c hc
  simp only [isDigit, decide_eq_true_eq] at hdigit
  have hlow : '0'.toNat ≤ c.toNat := hdigit.1
  simp only [Json.isControl, decide_eq_false_iff_not, Nat.not_lt]
  exact Nat.le_trans (by decide) hlow

theorem clean_of_isInteger {raw : Text} (h : isInteger raw = true) :
    Json.Token.Clean (.word raw) := by
  unfold isInteger at h
  split at h
  next => exact List.forall_mem_cons.mpr ⟨by decide, clean_of_isNatural h⟩
  next => exact clean_of_isNatural h

/-- A value of integers is printed without control characters. -/
theorem toTree_clean {value : Value Text} (h : IntegerValue textNumber value) :
    ∀ token ∈ value.toTree.tokens, token.Clean := by
  induction h with
  | null => exact List.forall_mem_singleton.mpr (List.all_iff_forall_prop.mp (by decide))
  | bool b =>
      cases b <;>
        exact List.forall_mem_singleton.mpr (List.all_iff_forall_prop.mp (by decide))
  | number integer read =>
      rw [textNumber, if_pos integer] at read
      cases read
      exact List.forall_mem_singleton.mpr (clean_of_isInteger integer)
  | string text => exact List.forall_mem_singleton.mpr (Json.escape_clean text)
  | @array items each ih =>
      rw [Value.toTree, itemsTrees_eq]
      have hitems : ∀ tree ∈ items.map Value.toTree, ∀ token ∈ tree.tokens, token.Clean := by
        intro tree htree
        obtain ⟨item, hitem, rfl⟩ := List.mem_map.mp htree
        exact ih item hitem
      simp only [Json.Tree.tokens, List.forall_mem_cons, List.forall_mem_append]
      exact ⟨trivial, Json.forall_itemsTokens trivial hitems (by simp), trivial, by simp⟩
  | @object fields ascending each ih =>
      rw [Value.toTree, fieldsMembers_eq]
      have hmembers : ∀ member ∈ fields.map fun field => (Json.escape field.1, field.2.toTree),
          Json.Token.Clean (.str member.1) ∧ ∀ token ∈ member.2.tokens, token.Clean := by
        intro member hmember
        obtain ⟨field, hfield, rfl⟩ := List.mem_map.mp hmember
        exact ⟨Json.escape_clean field.1, ih field hfield⟩
      simp only [Json.Tree.tokens, List.forall_mem_cons, List.forall_mem_append]
      exact ⟨trivial, Json.forall_membersTokens trivial trivial hmembers (by simp), trivial,
        by simp⟩

/-- What is parsed is made of integers, as no other numbers are read. -/
theorem integerValue_of_byText {text : Text} {value : Value Text}
    (h : SerdeJson.byText.fromStr text = some value) : IntegerValue textNumber value := by
  obtain ⟨tree, _, hvalue⟩ := (byText_faithful.parses text value).mp h
  refine integerValue_of_words (fun raw n _ _ hnumber => ?_) hvalue
  unfold textNumber at hnumber
  split at hnumber
  next integer => exact integer
  next => cases hnumber

/-- A text that begins as an event does has a colon behind its first word. -/
theorem not_event_of_byText {text : Text} {value : Value Text}
    (h : SerdeJson.byText.fromStr text = some value) : ¬ dataPrefix <+: text := by
  rintro ⟨rest, rfl⟩
  obtain ⟨tree, hlex, _⟩ := (byText_faithful.parses _ _).mp h
  have hword : Json.GivesWord ['d', 'a', 't', 'a'] [.word ['d', 'a', 't', 'a']] :=
    Json.gives_word ⟨by simp, List.all_iff_forall_prop.mp (by decide)⟩
  have hcolon : Json.Gives [':'] [.colon] := Json.gives_punctuation rfl
  have hstops : ∀ more, Json.Stops ([':'] ++ more) := by
    intro more c hc
    cases hc
    decide
  have hevent := hword.append hstops hcolon (' ' :: rest)
  obtain ⟨tokens, _, htokens⟩ := Option.map_eq_some_iff.mp (hevent.symm.trans hlex)
  cases tree <;> cases htokens

theorem byText_reprints : SerdeJson.byText.Reprints where
  notEvent _ _ h := not_event_of_byText h
  oneLine text value modelAlias printed h hprinted := by
    have integers := (integerValue_of_byText h).setModel modelAlias
    obtain rfl := Option.some.inj hprinted
    have clean := Json.Tree.text_clean _ (toTree_clean integers)
    have hnewline : Json.isControl '\n' ≠ false := by decide
    have hreturn : Json.isControl '\r' ≠ false := by decide
    exact ⟨fun hmem => hnewline (clean '\n' hmem), fun hmem => hreturn (clean '\r' hmem)⟩
  reads text value modelAlias printed h hprinted := by
    obtain ⟨text', hprinted', hread⟩ :=
      byText_faithful.prints _ ((integerValue_of_byText h).setModel modelAlias)
    rwa [Option.some.inj (hprinted.symm.trans hprinted')]

/-- An event of a stream, as it comes and as it is passed on. -/
def eventLine (name : Char) : Text :=
  dataPrefix ++ ['\x7b', '\x22', 'm', 'o', 'd', 'e', 'l', '\x22', ':', '\x22', name, '\x22',
    '\x7d', '\r']

theorem rewriteModelAlias_linewise_event :
    rewriteModelAlias SerdeJson.byText (eventLine 'm') ['x'] = eventLine 'x' ∧
      rewriteModelAlias SerdeJson.byText (eventLine 'm' ++ '\n' :: eventLine 'm') ['x'] =
        rewriteModelAlias SerdeJson.byText (eventLine 'm') ['x'] ++
          '\n' :: rewriteModelAlias SerdeJson.byText (eventLine 'm') ['x'] ∧
      rewriteModelAlias SerdeJson.byText
          (rewriteModelAlias SerdeJson.byText (eventLine 'm') ['x']) ['x'] =
        rewriteModelAlias SerdeJson.byText (eventLine 'm') ['x'] ∧
      List.Forall₂ (LineRewritten SerdeJson.byText) ((eventLine 'm').splitOn '\n')
        ((rewriteModelAlias SerdeJson.byText (eventLine 'm') ['x']).splitOn '\n') :=
  ⟨by decide, rewriteModelAlias_linewise byText_reprints ['x'] (eventLine 'm') (eventLine 'm')⟩

end LlmWakeProxy.Forward
