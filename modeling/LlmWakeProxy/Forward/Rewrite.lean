import LlmWakeProxy.Library.Lines

/-!
The model alias in a response body. `rewrite_model_alias` works line by line: a
line that mentions the key and is a JSON text, possibly after the prefix of a
server-sent event and before a carriage return, is parsed, gets the alias as its
`model` and is printed again. Every other line is kept.

A Rust string is the list of its scalar values. `serde_json` is a parameter: a
parser and a printer of JSON values, whose errors the code does not look at.
-/

namespace LlmWakeProxy.Forward
open LlmWakeProxy.Library

universe u
variable {ν : Type u}

abbrev Text := List Char

/-- `serde_json::Value`, over the type of its numbers. -/
inductive Value (ν : Type u) where
  | null
  | bool (b : Bool)
  | number (n : ν)
  | string (text : Text)
  | array (items : List (Value ν))
  | object (fields : List (Text × Value ν))

/-- `serde_json::from_str` and `serde_json::to_string`, without their errors. -/
structure SerdeJson (ν : Type u) where
  fromStr : Text → Option (Value ν)
  toString : Value ν → Option Text

/-- A parser that accepts nothing. -/
def SerdeJson.mute : SerdeJson Unit where
  fromStr _ := none
  toString _ := none

def model : Text := ['m', 'o', 'd', 'e', 'l']

/-- The key as it is searched for, in its quotes. -/
def modelKey : Text := ['\x22', 'm', 'o', 'd', 'e', 'l', '\x22']

def dataPrefix : Text := ['d', 'a', 't', 'a', ':', ' ']

/-- `get_mut` on a map, and an assignment through it. -/
def setField (key : Text) (value : Value ν) : List (Text × Value ν) → List (Text × Value ν)
  | [] => []
  | (k, v) :: rest => if k = key then (k, value) :: rest else (k, v) :: setField key value rest

def Value.setModel (modelAlias : Text) : Value ν → Value ν
  | .object fields => .object (setField model (.string modelAlias) fields)
  | value => value

/-- Parse, set the model, print. -/
def rewriteJson (serde : SerdeJson ν) (modelAlias text : Text) : Option Text :=
  (serde.fromStr text).bind fun value => serde.toString (value.setModel modelAlias)

/-- What `rewrite_model_alias` does to a line without its carriage return. -/
def processLine (serde : SerdeJson ν) (modelAlias cleanPart : Text) : Text :=
  match cleanPart.dropPrefix? dataPrefix with
  | some sseData =>
      if modelKey <:+: sseData then
        match rewriteJson serde modelAlias sseData with
        | some rewritten => dataPrefix ++ rewritten
        | none => cleanPart
      else cleanPart
  | none =>
      if modelKey <:+: cleanPart then
        match rewriteJson serde modelAlias cleanPart with
        | some rewritten => rewritten
        | none => cleanPart
      else cleanPart

/-- What `rewrite_model_alias` does to a line. -/
def rewriteLine (serde : SerdeJson ν) (modelAlias part : Text) : Text :=
  match part.dropSuffix? ['\r'] with
  | some stripped => processLine serde modelAlias stripped ++ ['\r']
  | none => processLine serde modelAlias part

def rewriteModelAlias (serde : SerdeJson ν) (body modelAlias : Text) : Text :=
  if modelKey <:+: body then
    ['\n'].intercalate ((body.splitOn '\n').map (rewriteLine serde modelAlias))
  else
    body

/-- The part of a line that is handed to the parser. -/
def payload (part : Text) : Text :=
  let cleanPart := (part.dropSuffix? ['\r']).getD part
  (cleanPart.dropPrefix? dataPrefix).getD cleanPart

/-- The line mentions the key, its payload is a JSON text, and it is printed
differently once the alias is set. -/
def Rewritable (serde : SerdeJson ν) (modelAlias part : Text) : Prop :=
  modelKey <:+: payload part ∧
    ∃ rewritten, rewriteJson serde modelAlias (payload part) = some rewritten ∧
      rewritten ≠ payload part

theorem dropPrefix_eq {text rest : Text} (h : text.dropPrefix? dataPrefix = some rest) :
    text = dataPrefix ++ rest := by
  obtain ⟨pre, rfl, hpre⟩ := List.dropPrefix?_eq_some_iff.mp h
  rw [eq_of_beq hpre]

theorem dropSuffix_eq {text rest : Text} (h : text.dropSuffix? ['\r'] = some rest) :
    text = rest ++ ['\r'] := by
  obtain ⟨suffix, rfl, hsuffix⟩ := List.dropSuffix?_eq_some_iff.mp h
  rw [eq_of_beq hsuffix]

theorem processLine_ne_iff (serde : SerdeJson ν) (modelAlias cleanPart : Text) :
    processLine serde modelAlias cleanPart ≠ cleanPart ↔
      modelKey <:+: (cleanPart.dropPrefix? dataPrefix).getD cleanPart ∧
        ∃ rewritten, rewriteJson serde modelAlias ((cleanPart.dropPrefix? dataPrefix).getD cleanPart) =
          some rewritten ∧ rewritten ≠ (cleanPart.dropPrefix? dataPrefix).getD cleanPart := by
  unfold processLine
  cases hprefix : cleanPart.dropPrefix? dataPrefix with
  | some sseData =>
      have hpart := dropPrefix_eq hprefix
      by_cases hkey : modelKey <:+: sseData
      · cases hjson : rewriteJson serde modelAlias sseData with
        | some rewritten => simp [hkey, hjson, hpart]
        | none => simp [hkey, hjson]
      · simp [hkey]
  | none =>
      by_cases hkey : modelKey <:+: cleanPart
      · cases hjson : rewriteJson serde modelAlias cleanPart with
        | some rewritten => simp [hkey, hjson]
        | none => simp [hkey, hjson]
      · simp [hkey]

/-- A line is changed exactly when it is rewritable. -/
theorem rewriteLine_ne_iff (serde : SerdeJson ν) (modelAlias part : Text) :
    rewriteLine serde modelAlias part ≠ part ↔ Rewritable serde modelAlias part := by
  unfold rewriteLine Rewritable payload
  cases hsuffix : part.dropSuffix? ['\r'] with
  | some stripped =>
      have hpart := dropSuffix_eq hsuffix
      rw [Option.getD_some, ← processLine_ne_iff]
      simp [hpart]
  | none => exact processLine_ne_iff serde modelAlias part

theorem payload_within (part : Text) : payload part <:+: part := by
  have hstripped : ∀ text : Text, (text.dropPrefix? dataPrefix).getD text <:+: text := by
    intro text
    cases h : text.dropPrefix? dataPrefix with
    | some rest => exact ⟨dataPrefix, [], by simp [dropPrefix_eq h]⟩
    | none => exact List.infix_refl _
  unfold payload
  cases h : part.dropSuffix? ['\r'] with
  | some rest => exact (hstripped rest).trans ⟨[], ['\r'], by simp [dropSuffix_eq h]⟩
  | none => exact hstripped part

theorem Rewritable.mentions {serde : SerdeJson ν} {modelAlias part : Text}
    (h : Rewritable serde modelAlias part) : modelKey <:+: part :=
  h.1.trans (payload_within part)

theorem rewriteLine_eq_self {serde : SerdeJson ν} {modelAlias part : Text}
    (h : ¬ Rewritable serde modelAlias part) : rewriteLine serde modelAlias part = part := by
  by_contra hne
  exact h ((rewriteLine_ne_iff serde modelAlias part).mp hne)

theorem rewriteLine_of_short (serde : SerdeJson ν) (modelAlias part : Text)
    (h : part.length ≤ 1) : rewriteLine serde modelAlias part = part := by
  refine rewriteLine_eq_self fun rewritable => ?_
  have hlength := rewritable.mentions.length_le
  simp only [modelKey, List.length_cons, List.length_nil] at hlength
  omega

/-- The early return changes nothing: without the key no line is changed. -/
theorem rewriteModelAlias_eq_linewise (serde : SerdeJson ν) (body modelAlias : Text) :
    rewriteModelAlias serde body modelAlias =
      Lines.linewise '\n' (rewriteLine serde modelAlias) body := by
  unfold rewriteModelAlias
  split
  · rfl
  · rename_i hkey
    have kept : ∀ line ∈ body.splitOn '\n', rewriteLine serde modelAlias line = line := by
      intro line hline
      refine rewriteLine_eq_self fun rewritable => hkey ?_
      exact rewritable.mentions.trans (Lines.infix_of_mem_splitOn hline)
    rw [Lines.linewise, List.map_congr_left kept, List.map_id', List.intercalate_splitOn]

theorem inert_rewriteLine_iff (serde : SerdeJson ν) (modelAlias line : Text) :
    Lines.Inert (rewriteLine serde modelAlias) line ↔
      ∀ part, part <:+: line → ¬ Rewritable serde modelAlias part := by
  refine forall_congr' fun part => imp_congr_right fun _ => ?_
  rw [← rewriteLine_ne_iff, not_not]

end LlmWakeProxy.Forward
