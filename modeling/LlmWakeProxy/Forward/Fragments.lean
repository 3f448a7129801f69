import Mathlib.Data.Bool.AllAny
import LlmWakeProxy.Library.Fragment
import LlmWakeProxy.Forward.Streaming

/-!
A streamed body in which there is nothing to rewrite. Every chunk is decoded by
itself, and what is not well formed in it is replaced; a character that two
chunks share is well formed in neither.
-/

namespace LlmWakeProxy.Forward
open LlmWakeProxy.Library

universe u v
variable {ν : Type u} {ε : Type v} {serde : SerdeJson ν} {modelAlias : Text}

theorem received_relayed (chunks : List Bytes) :
    received (forwardStreaming serde modelAlias (chunks.map (.ok : Bytes → Except ε Bytes))) =
      chunks.flatMap (relayChunk serde modelAlias) := by
  induction chunks with
  | nil => rfl
  | cons chunk rest ih =>
      rw [List.flatMap_cons, ← ih]
      rfl

theorem modelKey_ascii : ∀ c ∈ modelKey, c.toNat ≤ 0x7F :=
  List.all_iff_forall_prop.mp (by decide)

theorem relayChunk_of_no_key {chunk : Bytes} (h : ¬ Utf8.encode modelKey <:+: chunk) :
    relayChunk serde modelAlias chunk = Utf8.encode (Utf8.decodeLossy chunk) := by
  have hkey : ¬ modelKey <:+: Utf8.decodeLossy chunk := fun hinside =>
    h (Utf8.isInfix_of_decodeLossy (by decide) modelKey_ascii hinside)
  rw [relayChunk, rewriteModelAlias, if_neg hkey]

/-- A body without the key is relayed as it came exactly when every chunk of it is
UTF-8 by itself, that is when no character is divided. -/
theorem relayed_unchanged_iff (serde : SerdeJson ν) (modelAlias : Text) (chunks : List Bytes)
    (noKey : ¬ Utf8.encode modelKey <:+: chunks.flatten) :
    received (forwardStreaming serde modelAlias (chunks.map (.ok : Bytes → Except ε Bytes))) =
        chunks.flatten ↔
      ∀ chunk ∈ chunks, ∃ text, chunk = Utf8.encode text := by
  have decoded : chunks.flatMap (relayChunk serde modelAlias) =
      chunks.flatMap fun chunk => Utf8.encode (Utf8.decodeLossy chunk) := by
    rw [List.flatMap_def, List.flatMap_def]
    refine congrArg _ (List.map_congr_left fun chunk hchunk => ?_)
    refine relayChunk_of_no_key fun hinside => noKey ?_
    exact hinside.trans (List.infix_of_mem_flatten hchunk)
  rw [received_relayed, decoded]
  exact Utf8.flatMap_decodeLossy_iff chunks

/-- Text in two chunks, cut between characters. -/
theorem relayed_unchanged_iff_whole :
    received (forwardStreaming SerdeJson.mute ['a']
        ([[0xC3, 0xA9], [0x21]].map (.ok : Bytes → Except Empty Bytes))) = [0xC3, 0xA9, 0x21] :=
  (relayed_unchanged_iff SerdeJson.mute ['a'] [[0xC3, 0xA9], [0x21]] (by decide)).mpr
    (List.forall_mem_cons.mpr ⟨⟨['\u00E9'], by decide⟩,
      List.forall_mem_cons.mpr ⟨⟨['!'], by decide⟩, by simp⟩⟩)

/-- A character of two bytes that arrives in two chunks is relayed as two
replacement characters. -/
theorem divided_character_is_replaced :
    ¬ ∀ (ν : Type) (serde : SerdeJson ν) (modelAlias stream : Text) (chunks : List Bytes),
        chunks.flatten = Utf8.encode stream → ¬ Utf8.encode modelKey <:+: chunks.flatten →
        received (forwardStreaming serde modelAlias
          (chunks.map (.ok : Bytes → Except Empty Bytes))) = chunks.flatten := by
  intro claim
  have relayed := claim Unit SerdeJson.mute ['a'] ['\u00E9'] [[0xC3], [0xA9]] (by decide)
    (by decide)
  exact absurd relayed (by decide)

end LlmWakeProxy.Forward
