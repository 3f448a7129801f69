import LlmWakeProxy.Library.Utf8
import LlmWakeProxy.Forward.Rewrite

/-!
The body of a streamed response. `forward_streaming` rewrites every chunk of the
upstream body by itself: it decodes the chunk, with replacement, rewrites the
text and encodes it again. Nothing is carried from one chunk to the next.
-/

namespace LlmWakeProxy.Forward
open LlmWakeProxy.Library

universe u v
variable {ν : Type u} {ε : Type v}

abbrev Bytes := List UInt8

/-- What the closure of `forward_streaming` does to the bytes of a chunk. -/
def relayChunk (serde : SerdeJson ν) (modelAlias : Text) (bytes : Bytes) : Bytes :=
  Utf8.encode (rewriteModelAlias serde (Utf8.decodeLossy bytes) modelAlias)

/-- The body stream of the response of `forward_streaming`. -/
def forwardStreaming (serde : SerdeJson ν) (modelAlias : Text) (upstream : List (Except ε Bytes)) :
    List (Except ε Bytes) :=
  upstream.map fun chunk => chunk.map (relayChunk serde modelAlias)

/-- The bytes a client receives from a body stream, which an error ends. -/
def received : List (Except ε Bytes) → Bytes
  | [] => []
  | .ok bytes :: rest => bytes ++ received rest
  | .error _ :: _ => []

/-- An upstream body that arrives in chunks cut at character boundaries. -/
def arriving (ε : Type v) (chunks : List Text) : List (Except ε Bytes) :=
  chunks.map fun text => .ok (Utf8.encode text)

theorem received_forwardStreaming (serde : SerdeJson ν) (modelAlias : Text) (chunks : List Text) :
    received (forwardStreaming serde modelAlias (arriving ε chunks)) =
      Utf8.encode (chunks.flatMap (Lines.linewise '\n' (rewriteLine serde modelAlias))) := by
  induction chunks with
  | nil => rfl
  | cons text rest ih =>
      have hchunk : relayChunk serde modelAlias (Utf8.encode text) =
          Utf8.encode (Lines.linewise '\n' (rewriteLine serde modelAlias) text) := by
        rw [relayChunk, Utf8.decodeLossy_encode, rewriteModelAlias_eq_linewise]
      rw [List.flatMap_cons, Utf8.encode_append, ← ih, ← hchunk]
      rfl

/-- How the network cuts a stream is irrelevant exactly when no part of any line
is rewritable, and a single way of cutting it is harmless when no part of a line
it divides is. -/
theorem chunking_harmless_iff (serde : SerdeJson ν) (modelAlias stream : Text) :
    ((∀ chunks : List Text, chunks.flatten = stream →
        received (forwardStreaming serde modelAlias (arriving ε chunks)) =
          Utf8.encode (rewriteModelAlias serde stream modelAlias)) ↔
      ∀ line ∈ stream.splitOn '\n', ∀ part, part <:+: line → ¬ Rewritable serde modelAlias part) ∧
    ∀ chunks : List Text, chunks.flatten = stream →
      (∀ ps ∈ Lines.divided '\n' chunks, ∀ part, part <:+: ps.flatten →
        ¬ Rewritable serde modelAlias part) →
      received (forwardStreaming serde modelAlias (arriving ε chunks)) =
        Utf8.encode (rewriteModelAlias serde stream modelAlias) := by
  have hshort := rewriteLine_of_short serde modelAlias
  simp only [received_forwardStreaming, rewriteModelAlias_eq_linewise,
    Utf8.encode_injective.eq_iff, ← inert_rewriteLine_iff]
  refine ⟨Lines.chunking_irrelevant_iff hshort stream, ?_⟩
  intro chunks hchunks inert
  rw [← hchunks]
  exact Lines.flatMap_linewise_of_inert (hshort [] (Nat.zero_le _)) inert

/-- A JSON object with one string member, as a parser and printer of that text. -/
def memberText (value : Text) : Text :=
  ['\x7b'] ++ modelKey ++ [':', '\x22'] ++ value ++ ['\x22', '\x7d']

/-- `serde_json` on the object whose model is named `m`, and on what it becomes. -/
def memberSerde : SerdeJson Empty where
  fromStr text := if text = memberText ['m'] then some (.object [(model, .string ['m'])]) else none
  toString
    | .object [(_, .string value)] => some (memberText value)
    | _ => none

/-- An event cut inside the key is relayed with the upstream's model name. -/
theorem event_cut_in_key_keeps_model :
    ¬ ∀ (ν : Type) (serde : SerdeJson ν) (modelAlias : Text) (chunks : List Text),
      received (forwardStreaming serde modelAlias (arriving Empty chunks)) =
        Utf8.encode (rewriteModelAlias serde chunks.flatten modelAlias) := by
  intro claim
  have relayed := claim Empty memberSerde ['a']
    [dataPrefix ++ ['\x7b', '\x22', 'm', 'o'],
      ['d', 'e', 'l', '\x22', ':', '\x22', 'm', '\x22', '\x7d']]
  rw [received_forwardStreaming, Utf8.encode_injective.eq_iff] at relayed
  exact absurd relayed (by decide)

end LlmWakeProxy.Forward
