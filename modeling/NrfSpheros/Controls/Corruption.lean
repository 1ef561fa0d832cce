/-
  One byte of a frame overwritten on the wire.

  The corruption hits the stuffed bytes, and the checksum is over the unescaped ones.  Between the two
  stands `Stuffing.Splits.apart`: a byte written over another changes one unescaped byte, or it makes
  an escape pair or tears one apart, and then one unescaped byte is lost or won.  The checksum sees
  the change of a single byte (`changed_sum_ne`), the checksum byte itself included.  What it does not
  see, if the bytes are such that the sums agree, is a pair made or torn apart.
-/
import NrfSpheros.Controls.Acceptance

namespace NrfSpheros

namespace Packet

open PacketEncoding

/-- What stands between the first and the last byte. -/
def inner (bs : List UInt8) : List UInt8 := bs.tail.dropLast

/-- The unescaped bytes of a packet, checksum included, sum to `0xFF`. -/
theorem sum_unescaped (p : Packet) : (p.unescaped.map UInt8.toNat).sum % 256 = 0xff := by
  rw [unescaped, List.map_append, List.sum_append, List.map_singleton, List.sum_singleton,
    packetChk_toNat]
  omega

/-- **The checksum sees one changed byte.** -/
theorem changed_sum_ne {x y : UInt8} (h : x ≠ y) (w₁ w₂ : List UInt8) :
    ((w₁ ++ x :: w₂).map UInt8.toNat).sum % 256 ≠ ((w₁ ++ y :: w₂).map UInt8.toNat).sum % 256 := by
  have hx := x.toNat_lt
  have hy := y.toNat_lt
  have hne : x.toNat ≠ y.toNat := fun heq => h (UInt8.toNat_inj.mp heq)
  simp only [List.map_append, List.map_cons, List.sum_append, List.sum_cons]
  omega

/-- Two packets whose unescaped bytes are a byte apart differ in their length. -/
theorem length_of_apart {p q : Packet} (h : Stuffing.Apart p.unescaped q.unescaped) :
    q.unescaped.length = p.unescaped.length + 1 ∨ p.unescaped.length = q.unescaped.length + 1 := by
  rcases h with ⟨w₁, x, y, w₂, hne, hp, hq⟩ | hlen
  · have hsum := (sum_unescaped p).trans (sum_unescaped q).symm
    rw [hp, hq] at hsum
    exact absurd hsum (changed_sum_ne hne w₁ w₂)
  · exact hlen

/-- A position between the delimiters falls into the body. -/
theorem exists_overwritten {body : List UInt8} {sop eop : UInt8} {i : Nat} (b : UInt8) (hpos : 0 < i)
    (hi : i + 1 < (sop :: (body ++ [eop])).length) :
    ∃ l a r, body = l ++ a :: r ∧ (sop :: (body ++ [eop]))[i]? = some a ∧
      (sop :: (body ++ [eop])).set i b = sop :: ((l ++ b :: r) ++ [eop]) := by
  obtain ⟨k, rfl⟩ : ∃ k, i = k + 1 := ⟨i - 1, by omega⟩
  have hk : k < body.length := by
    simp only [List.length_cons, List.length_append, List.length_nil] at hi
    omega
  refine ⟨body.take k, body[k], body.drop (k + 1), ?_, ?_, ?_⟩
  · rw [← List.drop_eq_getElem_cons hk, List.take_append_drop]
  · rw [List.getElem?_cons_succ, List.getElem?_append_left hk, List.getElem?_eq_getElem hk]
  · rw [List.set_cons_succ, List.set_append_left _ _ hk, List.set_eq_take_append_cons_drop,
      if_pos hk]

/-- **Corruption of one byte.**  If a frame with one byte between its delimiters overwritten is
    accepted, its body unescapes to one byte more or one byte less than before. -/
theorem length_of_overwritten (p : Packet) {i : Nat} {b : UInt8} (hpos : 0 < i)
    (hi : i + 1 < p.build.length) (hb : p.build[i]? ≠ some b) {q : Packet}
    (h : parseResponse (p.build.set i b) = .ok q) :
    ∃ u v, unescapeData (inner p.build) = .ok u ∧ unescapeData (inner (p.build.set i b)) = .ok v ∧
      (v.length = u.length + 1 ∨ u.length = v.length + 1) := by
  have hframe := build_eq p
  rw [hframe] at hi hb h ⊢
  obtain ⟨l, a, r, hbody, hold, hset⟩ := exists_overwritten b hpos hi
  have hab : a ≠ b := by
    rintro rfl
    exact hb hold
  rw [hset] at h ⊢
  obtain ⟨-, -, -, hsplit⟩ := parse_eq_ok h
  have hsent : spheroStuffing.Splits (l ++ a :: r) p.unescaped :=
    hbody ▸ Stuffing.splits_stuff p.unescaped
  refine ⟨p.unescaped, q.unescaped, ?_, ?_, length_of_apart (hsent.apart hab hsplit)⟩
  · rw [inner, List.tail_cons, List.dropLast_concat]
    exact unescapeData_of_splits (Stuffing.splits_stuff p.unescaped)
  · rw [inner, List.tail_cons, List.dropLast_concat]
    exact unescapeData_of_splits hsplit

/-- The data bytes `0x88 0x05` arrive as `0xAB 0x05`, a pair for `0x8D`, which is their sum. -/
theorem length_of_overwritten_pair :
    ∃ u v, unescapeData (inner [0x8D, 0x00, 0x13, 0x0D, 0x00, 0x88, 0x05, 0x52, 0xD8]) = .ok u ∧
      unescapeData (inner [0x8D, 0x00, 0x13, 0x0D, 0x00, 0xAB, 0x05, 0x52, 0xD8]) = .ok v ∧
      (v.length = u.length + 1 ∨ u.length = v.length + 1) :=
  length_of_overwritten ⟨⟨0x00⟩, 0x13, 0x0D, 0x00, 0, 0, PacketError.success, [0x88, 0x05]⟩
    (i := 5) (b := 0xAB) (q := ⟨⟨0x00⟩, 0x13, 0x0D, 0x00, 0, 0, PacketError.success, [0x8D]⟩)
    (by decide) (by decide) (by decide) (by decide)

end Packet

end NrfSpheros
