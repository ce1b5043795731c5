import Xty.Message.WellFormed
import Xty.Server.Transitions

/-! What the decoder makes of a chunk that the epoll thread has read. -/

namespace Xty.Server

open Xty.General.LittleEndian Xty.General.Cursor
open Xty.Message

section Chunks

variable {b : RecvBuffer} {r : ReadBytes} {m : MsgObject} {a : ℕ}

/-- A chunk is decoded or rejected as it should be exactly when the first four bytes of the buffer
hold one of the five types and no bounds test wraps around. -/
theorem chunk_decodes_exactly_iff (b : RecvBuffer) (r : ReadBytes) :
    DecodesExactly (b.region r) ↔
      ∃ t, HeadType (b.region r) t ∧ DoesNotWrap (b.region r) t := by
  have hb := b.fits
  rw [clientBufferSize] at hb
  refine decodesExactly_iff ?_
  change b.base + 12 < addressSpace
  omega

theorem unknown_type_undefined : ∃ (b : RecvBuffer) (r : ReadBytes),
    DeSerializeEntity.deSerialize (b.region r) = .error .undefined ∧
      ¬ DecodesExactly (b.region r) := by
  let r : ReadBytes := ⟨[5, 0, 0, 0], by decide, by decide⟩
  have hf : (buffer₀.region r).fetch buffer₀.base sizeofMsgType = some [5, 0, 0, 0] :=
    Region.fetch_inside (R := buffer₀.region r) le_rfl le_rfl
  have hnone : ∀ t, ¬ HeadType (buffer₀.region r) t := by
    intro t ht
    have hc := Option.some.inj (hf.symm.trans ht)
    revert hc
    cases t <;> decide
  exact ⟨buffer₀, r, deSerialize_undefined hnone, fun h => hnone _ h.creator.choose_spec⟩

lemma decoded_tagged (h : DeSerializeEntity.deSerialize (b.region r) = .ok (m, a)) : m.Tagged :=
  (deSerialize_inv h).1

lemma decoded_fits (h : DeSerializeEntity.deSerialize (b.region r) = .ok (m, a)) :
    m.encodedSize ≤ r.bytes.length := by
  obtain ⟨_, _, rest, hbytes⟩ := deSerialize_inv h
  have hl := congrArg List.length hbytes
  rw [List.length_append, List.length_append, encodeHead_length, encodeStrings_length] at hl
  have hr : (b.region r).bytes.length = r.bytes.length := rfl
  rw [MsgObject.encodedSize, serializedSize, sizeofMsgType, sizeofSizeT]
  rw [hr, sizeofSizeT] at hl
  omega

end Chunks

end Xty.Server
