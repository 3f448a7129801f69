import Mathlib.Data.Bool.AllAny
import Mathlib.Data.List.Forall2
import Mathlib.Data.List.Lex
import Mathlib.Data.Char
import LlmWakeProxy.Library.JsonString
import LlmWakeProxy.Library.JsonParser
import LlmWakeProxy.Library.SortedMap
import LlmWakeProxy.Forward.Rewrite

/-!
JSON texts and the values `serde_json` makes of them. An object is a map by its keys,
in their order; of several members with one key the last counts. How numbers are
represented is a parameter, and so is the parser, of which is taken for granted that
it reads the texts of JSON and no others, and what it prints of a value whose numbers
are integers it reads back as the value. Its limit on nesting is left out.
-/

namespace LlmWakeProxy.Forward
open LlmWakeProxy.Library

universe u
variable {ν : Type u}

def isDigit (c : Char) : Bool := '0' ≤ c ∧ c ≤ '9'

def isNatural : Text → Bool
  | ['0'] => true
  | c :: rest => c ≠ '0' && isDigit c && rest.all isDigit
  | [] => false

/-- The texts of integers in JSON. -/
def isInteger : Text → Bool
  | '-' :: digits => isNatural digits
  | digits => isNatural digits

def trueWord : Text := ['t', 'r', 'u', 'e']

def falseWord : Text := ['f', 'a', 'l', 's', 'e']

def nullWord : Text := ['n', 'u', 'l', 'l']

/-- What a bare word denotes; `number` reads the texts of numbers. -/
def wordValue (number : Text → Option ν) (raw : Text) : Option (Value ν) :=
  if raw = trueWord then some (.bool true)
  else if raw = falseWord then some (.bool false)
  else if raw = nullWord then some .null
  else (number raw).map .number

mutual

/-- The value of a JSON text, if its strings and numbers have one. -/
def treeValue (number : Text → Option ν) : Json.Tree → Option (Value ν)
  | .str raw => (Json.unescape raw).map .string
  | .word raw => wordValue number raw
  | .array items => (itemsValues number items).map .array
  | .object members =>
      (membersEntries number members).map fun entries => .object (SortedMap.collect entries)

def itemsValues (number : Text → Option ν) : List Json.Tree → Option (List (Value ν))
  | [] => some []
  | item :: rest =>
      (treeValue number item).bind fun value => (itemsValues number rest).map (value :: ·)

def membersEntries (number : Text → Option ν) :
    List (Text × Json.Tree) → Option (List (Text × Value ν))
  | [] => some []
  | (key, value) :: rest =>
      (Json.unescape key).bind fun key =>
        (treeValue number value).bind fun value =>
          (membersEntries number rest).map ((key, value) :: ·)

end

/-- The values whose numbers are integers, with maps for objects. -/
inductive IntegerValue (number : Text → Option ν) : Value ν → Prop
  | null : IntegerValue number .null
  | bool (b : Bool) : IntegerValue number (.bool b)
  | number {raw : Text} {n : ν} (integer : isInteger raw = true) (read : number raw = some n) :
      IntegerValue number (.number n)
  | string (text : Text) : IntegerValue number (.string text)
  | array {items : List (Value ν)} (each : ∀ item ∈ items, IntegerValue number item) :
      IntegerValue number (.array items)
  | object {fields : List (Text × Value ν)} (ascending : SortedMap.Ascending fields)
      (each : ∀ field ∈ fields, IntegerValue number field.2) : IntegerValue number (.object fields)

/-- `serde_json` parses the texts of JSON, and prints integers and what is made of
them so that they are read back. -/
structure SerdeJson.Faithful (serde : SerdeJson ν) (number : Text → Option ν) : Prop where
  integers : ∀ raw, isInteger raw = true → (number raw).isSome
  parses : ∀ text value, serde.fromStr text = some value ↔
    ∃ tree, Json.lex text = some tree.tokens ∧ treeValue number tree = some value
  prints : ∀ value, IntegerValue number value →
    ∃ text, serde.toString value = some text ∧ serde.fromStr text = some value

/-- The bare words are literals or integers, and the strings have no wrong escapes. -/
structure IntegerTokens (tokens : List Json.Token) : Prop where
  words : ∀ raw, .word raw ∈ tokens → raw ∈ [trueWord, falseWord, nullWord] ∨ isInteger raw = true
  strings : ∀ raw, .str raw ∈ tokens → (Json.unescape raw).isSome

def integerToken : Json.Token → Bool
  | .word raw => raw ∈ [trueWord, falseWord, nullWord] ∨ isInteger raw = true
  | .str raw => (Json.unescape raw).isSome
  | _ => true

theorem IntegerTokens.of_all {tokens : List Json.Token} (h : tokens.all integerToken = true) :
    IntegerTokens tokens := by
  rw [List.all_eq_true] at h
  exact ⟨fun raw hraw => of_decide_eq_true (h _ hraw), fun raw hraw => h _ hraw⟩

theorem IntegerTokens.mono {tokens others : List Json.Token} (h : IntegerTokens tokens)
    (hsub : others ⊆ tokens) : IntegerTokens others :=
  ⟨fun raw hraw => h.words raw (hsub hraw), fun raw hraw => h.strings raw (hsub hraw)⟩

/-! ### The values of trees -/

section Values

variable {number : Text → Option ν}

theorem itemsValues_eq_some {items : List Json.Tree} {values : List (Value ν)} :
    itemsValues number items = some values ↔
      List.Forall₂ (fun item value => treeValue number item = some value) items values := by
  induction items generalizing values with
  | nil => simp [itemsValues, eq_comm]
  | cons item rest ih =>
      rw [itemsValues, List.forall₂_cons_left_iff]
      constructor
      · intro h
        obtain ⟨value, hvalue, h⟩ := Option.bind_eq_some_iff.mp h
        obtain ⟨following, hfollowing, rfl⟩ := Option.map_eq_some_iff.mp h
        exact ⟨value, following, hvalue, ih.mp hfollowing, rfl⟩
      · rintro ⟨value, following, hvalue, hfollowing, rfl⟩
        simp [hvalue, ih.mpr hfollowing]

/-- The key and the value of a member. -/
def EntryOf (number : Text → Option ν) (member : Text × Json.Tree) (entry : Text × Value ν) :
    Prop :=
  Json.unescape member.1 = some entry.1 ∧ treeValue number member.2 = some entry.2

theorem membersEntries_eq_some {members : List (Text × Json.Tree)}
    {entries : List (Text × Value ν)} :
    membersEntries number members = some entries ↔
      List.Forall₂ (EntryOf number) members entries := by
  induction members generalizing entries with
  | nil => simp [membersEntries, eq_comm]
  | cons member rest ih =>
      rw [membersEntries, List.forall₂_cons_left_iff]
      constructor
      · intro h
        obtain ⟨key, hkey, h⟩ := Option.bind_eq_some_iff.mp h
        obtain ⟨value, hvalue, h⟩ := Option.bind_eq_some_iff.mp h
        obtain ⟨following, hfollowing, rfl⟩ := Option.map_eq_some_iff.mp h
        exact ⟨(key, value), following, ⟨hkey, hvalue⟩, ih.mp hfollowing, rfl⟩
      · rintro ⟨entry, following, ⟨hkey, hvalue⟩, hfollowing, rfl⟩
        simp [hkey, hvalue, ih.mpr hfollowing]

private theorem exists_left {α : Type} {β : Type u} {R : α → β → Prop} {xs : List α} {ys : List β}
    (h : List.Forall₂ R xs ys) {y : β} (hy : y ∈ ys) : ∃ x ∈ xs, R x y := by
  induction h with
  | nil => cases hy
  | cons hxy _ ih =>
      obtain rfl | hrest := List.mem_cons.mp hy
      · exact ⟨_, List.mem_cons_self, hxy⟩
      · obtain ⟨x, hx, hR⟩ := ih hrest
        exact ⟨x, List.mem_cons_of_mem _ hx, hR⟩

private theorem exists_forall₂ {α : Type} {β : Type u} {R : α → β → Prop} {xs : List α}
    (h : ∀ x ∈ xs, ∃ y, R x y) : ∃ ys, List.Forall₂ R xs ys := by
  induction xs with
  | nil => exact ⟨[], .nil⟩
  | cons x rest ih =>
      obtain ⟨y, hy⟩ := h x List.mem_cons_self
      obtain ⟨ys, hys⟩ := ih fun other hother => h other (List.mem_cons_of_mem _ hother)
      exact ⟨y :: ys, .cons hy hys⟩

theorem IntegerTokens.item {items : List Json.Tree}
    (h : IntegerTokens (Json.Tree.array items).tokens) {item : Json.Tree} (hitem : item ∈ items) :
    IntegerTokens item.tokens :=
  h.mono fun _ htoken =>
    List.mem_cons_of_mem _ (List.mem_append_left _ (Json.mem_itemsTokens hitem htoken []))

theorem IntegerTokens.member {members : List (Text × Json.Tree)}
    (h : IntegerTokens (Json.Tree.object members).tokens) {member : Text × Json.Tree}
    (hmember : member ∈ members) :
    (Json.unescape member.1).isSome ∧ IntegerTokens member.2.tokens := by
  have hsub : ∀ token, token = .str member.1 ∨ token ∈ member.2.tokens →
      token ∈ (Json.Tree.object members).tokens := fun token htoken =>
    List.mem_cons_of_mem _ (List.mem_append_left _ (Json.mem_membersTokens hmember htoken []))
  exact ⟨h.strings _ (hsub _ (.inl rfl)), h.mono fun token htoken => hsub token (.inr htoken)⟩

/-- Every text of literals, integers and strings has a value. -/
theorem exists_treeValue (integers : ∀ raw, isInteger raw = true → (number raw).isSome)
    (tree : Json.Tree) (h : IntegerTokens tree.tokens) :
    ∃ value, treeValue number tree = some value := by
  induction tree using Json.Tree.induct with
  | str raw =>
      obtain ⟨text, htext⟩ := Option.isSome_iff_exists.mp (h.strings raw List.mem_cons_self)
      exact ⟨.string text, by rw [treeValue, htext]; rfl⟩
  | word raw =>
      rw [treeValue, wordValue]
      split_ifs with htrue hfalse hnull
      · exact ⟨_, rfl⟩
      · exact ⟨_, rfl⟩
      · exact ⟨_, rfl⟩
      · have hinteger := (h.words raw List.mem_cons_self).resolve_left
          (by simp [htrue, hfalse, hnull])
        obtain ⟨n, hn⟩ := Option.isSome_iff_exists.mp (integers raw hinteger)
        exact ⟨.number n, by rw [hn]; rfl⟩
  | array items ih =>
      obtain ⟨values, hvalues⟩ := exists_forall₂ fun item hitem => ih item hitem (h.item hitem)
      exact ⟨.array values, by rw [treeValue, itemsValues_eq_some.mpr hvalues]; rfl⟩
  | object members ih =>
      have hentry : ∀ member ∈ members, ∃ entry, EntryOf number member entry := by
        intro member hmember
        obtain ⟨hkey, htokens⟩ := h.member hmember
        obtain ⟨key, hkey⟩ := Option.isSome_iff_exists.mp hkey
        obtain ⟨value, hvalue⟩ := ih member hmember htokens
        exact ⟨(key, value), hkey, hvalue⟩
      obtain ⟨entries, hentries⟩ := exists_forall₂ hentry
      exact ⟨_, by rw [treeValue, membersEntries_eq_some.mpr hentries]; rfl⟩

/-- A value is made of integers if no other words are read as numbers. -/
theorem integerValue_of_words {tree : Json.Tree}
    (h : ∀ raw n, .word raw ∈ tree.tokens → raw ∉ [trueWord, falseWord, nullWord] →
      number raw = some n → isInteger raw = true)
    {value : Value ν} (hvalue : treeValue number tree = some value) :
    IntegerValue number value := by
  induction tree using Json.Tree.induct generalizing value with
  | str raw =>
      obtain ⟨text, _, rfl⟩ := Option.map_eq_some_iff.mp hvalue
      exact .string text
  | word raw =>
      rw [treeValue, wordValue] at hvalue
      split_ifs at hvalue with htrue hfalse hnull
      · cases hvalue
        exact .bool true
      · cases hvalue
        exact .bool false
      · cases hvalue
        exact .null
      · obtain ⟨n, hn, rfl⟩ := Option.map_eq_some_iff.mp hvalue
        exact .number (h raw n List.mem_cons_self (by simp [htrue, hfalse, hnull]) hn) hn
  | array items ih =>
      obtain ⟨values, hvalues, rfl⟩ := Option.map_eq_some_iff.mp hvalue
      refine .array fun value hmem => ?_
      obtain ⟨item, hitem, hitemValue⟩ := exists_left (itemsValues_eq_some.mp hvalues) hmem
      refine ih item hitem (fun raw n hraw => h raw n ?_) hitemValue
      exact List.mem_cons_of_mem _ (List.mem_append_left _ (Json.mem_itemsTokens hitem hraw []))
  | object members ih =>
      obtain ⟨entries, hentries, rfl⟩ := Option.map_eq_some_iff.mp hvalue
      refine .object (SortedMap.ascending_collect entries) fun entry hmem => ?_
      obtain ⟨member, hmember, _, hmemberValue⟩ :=
        exists_left (membersEntries_eq_some.mp hentries) (SortedMap.mem_collect hmem)
      refine ih member hmember (fun raw n hraw => h raw n ?_) hmemberValue
      exact List.mem_cons_of_mem _
        (List.mem_append_left _ (Json.mem_membersTokens hmember (.inr hraw) []))

/-- The value of such a text is made of integers. -/
theorem integerValue_of_treeValue {tree : Json.Tree} (h : IntegerTokens tree.tokens)
    {value : Value ν} (hvalue : treeValue number tree = some value) :
    IntegerValue number value :=
  integerValue_of_words (fun raw _ hraw other _ => (h.words raw hraw).resolve_left other) hvalue

theorem keys_setField (key : Text) (value : Value ν) (fields : List (Text × Value ν)) :
    (setField key value fields).map Prod.fst = fields.map Prod.fst := by
  induction fields with
  | nil => rfl
  | cons field rest ih =>
      rw [setField]
      split_ifs with heq
      · rfl
      · rw [List.map_cons, ih]
        rfl

theorem mem_setField {key : Text} {value : Value ν} {fields : List (Text × Value ν)}
    {field : Text × Value ν} (h : field ∈ setField key value fields) :
    field.2 = value ∨ field ∈ fields := by
  induction fields with
  | nil => cases h
  | cons first rest ih =>
      rw [setField] at h
      split_ifs at h
      · obtain rfl | hrest := List.mem_cons.mp h
        · exact .inl rfl
        · exact .inr (List.mem_cons_of_mem _ hrest)
      · obtain rfl | hrest := List.mem_cons.mp h
        · exact .inr List.mem_cons_self
        · exact (ih hrest).imp_right (List.mem_cons_of_mem _)

theorem IntegerValue.setModel {value : Value ν} (h : IntegerValue number value)
    (modelAlias : Text) :
    IntegerValue number (value.setModel modelAlias) := by
  cases h with
  | null => exact .null
  | bool b => exact .bool b
  | number integer read => exact .number integer read
  | string text => exact .string text
  | array each => exact .array each
  | object ascending each =>
      refine .object ?_ fun field hfield => ?_
      · rw [SortedMap.Ascending, keys_setField]
        exact ascending
      · obtain hset | hold := mem_setField hfield
        · exact hset ▸ .string modelAlias
        · exact each field hold

end Values

/-! ### A parser and a printer that represent numbers by their texts -/

mutual

def Value.toTree : Value Text → Json.Tree
  | .null => .word nullWord
  | .bool true => .word trueWord
  | .bool false => .word falseWord
  | .number n => .word n
  | .string text => .str (Json.escape text)
  | .array items => .array (itemsTrees items)
  | .object fields => .object (fieldsMembers fields)

def itemsTrees : List (Value Text) → List Json.Tree
  | [] => []
  | item :: rest => item.toTree :: itemsTrees rest

def fieldsMembers : List (Text × Value Text) → List (Text × Json.Tree)
  | [] => []
  | (key, value) :: rest => (Json.escape key, value.toTree) :: fieldsMembers rest

end

def textNumber (raw : Text) : Option Text := if isInteger raw then some raw else none

def SerdeJson.byText : SerdeJson Text where
  fromStr text :=
    (Json.lex text).bind fun tokens => (Json.parse tokens).bind (treeValue textNumber)
  toString value := some value.toTree.text

theorem isBare_of_isDigit {c : Char} (h : isDigit c = true) : Json.IsBare c := by
  refine ⟨Bool.eq_false_iff.mpr fun hspace => ?_, ?_, ?_⟩
  · simp only [Json.isSpace, decide_eq_true_eq] at hspace
    obtain rfl | rfl | rfl | rfl := hspace <;> exact absurd h (by decide)
  · rintro rfl
    exact absurd h (by decide)
  · unfold Json.punctuation
    split <;> first | rfl | exact absurd h (by decide)

theorem isDigit_of_isNatural {raw : Text} (h : isNatural raw = true) :
    raw ≠ [] ∧ ∀ c ∈ raw, isDigit c = true := by
  unfold isNatural at h
  split at h
  · exact ⟨by simp, List.all_eq_true.mp (by decide)⟩
  · simp only [Bool.and_eq_true, List.all_eq_true] at h
    exact ⟨by simp, List.forall_mem_cons.mpr ⟨h.1.2, h.2⟩⟩
  · cases h

theorem printable_of_isInteger {raw : Text} (h : isInteger raw = true) :
    Json.Token.Printable (.word raw) := by
  unfold isInteger at h
  split at h
  · obtain ⟨_, hdigits⟩ := isDigit_of_isNatural h
    exact ⟨by simp, List.forall_mem_cons.mpr
      ⟨by decide, fun c hc => isBare_of_isDigit (hdigits c hc)⟩⟩
  · obtain ⟨hne, hdigits⟩ := isDigit_of_isNatural h
    exact ⟨hne, fun c hc => isBare_of_isDigit (hdigits c hc)⟩

theorem itemsTrees_eq (items : List (Value Text)) : itemsTrees items = items.map Value.toTree := by
  induction items with
  | nil => rfl
  | cons item rest ih => rw [itemsTrees, ih, List.map_cons]

theorem fieldsMembers_eq (fields : List (Text × Value Text)) :
    fieldsMembers fields = fields.map fun field => (Json.escape field.1, field.2.toTree) := by
  induction fields with
  | nil => rfl
  | cons field rest ih => rw [fieldsMembers, ih, List.map_cons]

theorem quotable_escape (text : Text) : Json.Quotable (Json.escape text) :=
  Json.lexFrom_escape text

theorem textNumber_of_isInteger {raw : Text} (h : isInteger raw = true) :
    wordValue textNumber raw = some (.number raw) := by
  unfold wordValue
  split_ifs with htrue hfalse hnull
  · subst htrue
    exact absurd h (by decide)
  · subst hfalse
    exact absurd h (by decide)
  · subst hnull
    exact absurd h (by decide)
  · rw [textNumber, if_pos h]
    rfl

/-- A value of integers is printed, and its text denotes it. -/
theorem toTree_spec {value : Value Text} (h : IntegerValue textNumber value) :
    (∀ token ∈ value.toTree.tokens, token.Printable) ∧
      treeValue textNumber value.toTree = some value := by
  induction h with
  | null =>
      exact ⟨List.forall_mem_singleton.mpr
        ⟨by decide, List.all_iff_forall_prop.mp (by decide)⟩, rfl⟩
  | bool b =>
      cases b <;>
        exact ⟨List.forall_mem_singleton.mpr
          ⟨by decide, List.all_iff_forall_prop.mp (by decide)⟩, rfl⟩
  | number integer read =>
      rw [textNumber, if_pos integer] at read
      cases read
      exact ⟨List.forall_mem_singleton.mpr (printable_of_isInteger integer),
        textNumber_of_isInteger integer⟩
  | string text =>
      refine ⟨List.forall_mem_singleton.mpr (quotable_escape text), ?_⟩
      rw [Value.toTree, treeValue, Json.unescape_escape]
      rfl
  | @array items each ih =>
      rw [Value.toTree, itemsTrees_eq]
      constructor
      · have hitems : ∀ tree ∈ items.map Value.toTree, ∀ token ∈ tree.tokens, token.Printable := by
          intro tree htree
          obtain ⟨item, hitem, rfl⟩ := List.mem_map.mp htree
          exact (ih item hitem).1
        simp only [Json.Tree.tokens, List.forall_mem_cons, List.forall_mem_append]
        exact ⟨trivial, Json.forall_itemsTokens trivial hitems (by simp), trivial, by simp⟩
      · have hvalues : List.Forall₂ (fun tree value => treeValue textNumber tree = some value)
            (items.map Value.toTree) items := by
          rw [List.forall₂_map_left_iff, List.forall₂_same]
          exact fun item hitem => (ih item hitem).2
        rw [treeValue, itemsValues_eq_some.mpr hvalues]
        rfl
  | @object fields ascending each ih =>
      rw [Value.toTree, fieldsMembers_eq]
      constructor
      · have hmembers : ∀ member ∈ fields.map fun field => (Json.escape field.1, field.2.toTree),
            Json.Token.Printable (.str member.1) ∧
              ∀ token ∈ member.2.tokens, token.Printable := by
          intro member hmember
          obtain ⟨field, hfield, rfl⟩ := List.mem_map.mp hmember
          exact ⟨quotable_escape field.1, (ih field hfield).1⟩
        simp only [Json.Tree.tokens, List.forall_mem_cons, List.forall_mem_append]
        exact ⟨trivial, Json.forall_membersTokens trivial trivial hmembers (by simp), trivial,
          by simp⟩
      · have hentries : List.Forall₂ (EntryOf textNumber)
            (fields.map fun field => (Json.escape field.1, field.2.toTree)) fields := by
          rw [List.forall₂_map_left_iff, List.forall₂_same]
          exact fun field hfield => ⟨Json.unescape_escape field.1, (ih field hfield).2⟩
        rw [treeValue, membersEntries_eq_some.mpr hentries, Option.map_some,
          SortedMap.collect_of_ascending ascending]

/-- The parser and the printer are what is taken for granted of `serde_json`. -/
theorem byText_faithful : SerdeJson.byText.Faithful textNumber where
  integers raw h := by rw [textNumber, if_pos h]; rfl
  parses text value := by
    constructor
    · intro h
      obtain ⟨tokens, hlex, h⟩ := Option.bind_eq_some_iff.mp h
      obtain ⟨tree, hparse, hvalue⟩ := Option.bind_eq_some_iff.mp h
      exact ⟨tree, Json.parse_eq_some.mp hparse ▸ hlex, hvalue⟩
    · rintro ⟨tree, hlex, hvalue⟩
      simp only [SerdeJson.byText, hlex, Option.bind_some, Json.parse_eq_some.mpr rfl, hvalue]
  prints value h := by
    obtain ⟨hprintable, hvalue⟩ := toTree_spec h
    refine ⟨_, rfl, ?_⟩
    simp only [SerdeJson.byText, Json.Tree.lex_text hprintable, Option.bind_some,
      Json.parse_eq_some.mpr rfl, hvalue]

end LlmWakeProxy.Forward
