/-
  What `Packet::build` puts on the wire, byte by byte, and how a stream of it falls apart.

  1. **The body** (`stuffed_body`) — what stands between the two delimiters has neither of them, no
     escape byte without a code, and one byte more than was stuffed for each byte that is special.
     All of it holds of any body of the scheme in `Theory.Stuffing`; header, data and checksum may
     have any values.
  2. **The stream** (`build_transparent`) — so the end byte of a frame is its last byte and no other,
     and `Theory.Delimited` applies: frames that follow one another are cut apart after each end byte,
     and nowhere else.
-/
import NrfSpheros.Theory.Delimited
import NrfSpheros.Controls.Corruption
import NrfSpheros.Controls.PacketCollector

namespace NrfSpheros

namespace Packet

open PacketEncoding
open Delimited (cut)

/-! ## The body -/

/-- `body` is `u` with its special bytes escaped. -/
structure IsStuffed (body u : List UInt8) : Prop where
  start_not_mem : start ∉ body
  end_not_mem : end_ ∉ body
  /-- Every escape byte is followed, inside the body, by one of the three codes. -/
  code_after_escape : ∀ i, body[i]? = some escape →
    ∃ c ∈ [escapedEscape, escapedStart, escapedEnd], body[i + 1]? = some c
  /-- Each special byte takes two. -/
  length_eq : body.length = u.length + u.countP fun b => b = start ∨ b = end_ ∨ b = escape
  /-- Nothing is lost. -/
  unescape_eq : unescapeData body = .ok u

/-- Only the three codes are decoded. -/
theorem mem_codes {c : UInt8} (h : spheroStuffing.decode c ≠ none) :
    c ∈ [escapedEscape, escapedStart, escapedEnd] := by
  contrapose! h
  simp only [List.mem_cons, List.not_mem_nil, or_false, not_or] at h
  show (if c = escapedStart then some start else if c = escapedEnd then some end_
    else if c = escapedEscape then some escape else none) = none
  rw [if_neg h.2.1, if_neg h.2.2, if_neg h.1]

/-- Only the three special bytes have a code. -/
theorem isSome_code (b : UInt8) :
    (spheroStuffing.code b).isSome = decide (b = start ∨ b = end_ ∨ b = escape) := by
  rw [Bool.eq_iff_iff, decide_eq_true_iff, Option.isSome_iff_ne_none]
  exact special_iff b

/-- What `build` puts between the delimiters. -/
theorem stuffed_body (u : List UInt8) : IsStuffed (spheroStuffing.stuff u) u where
  start_not_mem := Stuffing.not_mem_stuff (by decide) (by decide) u
  end_not_mem := Stuffing.not_mem_stuff (by decide) (by decide) u
  code_after_escape := by
    intro i hi
    obtain ⟨c, hnext, hc⟩ := (Stuffing.splits_stuff u).code_after_esc hi
    exact ⟨c, mem_codes hc, hnext⟩
  length_eq := by
    rw [Stuffing.length_stuff, funext isSome_code]
  unescape_eq := unescapeData_of_splits (Stuffing.splits_stuff u)

/-! ## The stream -/

/-- A frame has one end byte, its last. -/
theorem delimited_build (p : Packet) : Delimited end_ p.build :=
  ⟨start :: spheroStuffing.stuff p.unescaped, build_eq p, PacketCollector.not_mem_build p⟩

/-- So has each frame of a stream. -/
theorem delimited_frames (ps : List Packet) : ∀ f ∈ ps.map build, Delimited end_ f := by
  intro f hf
  obtain ⟨p, -, rfl⟩ := List.mem_map.mp hf
  exact delimited_build p

/-- **Byte stuffing is transparent.**  Every frame is a stuffed body between two delimiters, and the
    bytes it was made of sum to `0xFF`.  Frames sent one after the other are found again by cutting
    after each end byte; a piece of the stream is made of whole frames only if it ends in one; and
    no other frames make the same stream. -/
theorem build_transparent :
    (∀ p : Packet,
      (∃ body, p.build = start :: (body ++ [end_]) ∧ IsStuffed body p.unescaped) ∧
        (p.unescaped.map UInt8.toNat).sum % 256 = 0xFF) ∧
    ∀ ps : List Packet,
      cut end_ (ps.map build).flatten = ps.map build ∧
      (∀ n, (∃ k, (ps.map build).flatten.take n = ((ps.map build).take k).flatten) ↔
        (ps.map build).flatten.take n = [] ∨
          ((ps.map build).flatten.take n).getLast? = some end_) ∧
      ∀ qs : List Packet, (qs.map build).flatten = (ps.map build).flatten ↔
        qs.map build = ps.map build := by
  refine ⟨fun p => ⟨⟨_, build_eq p, stuffed_body _⟩, sum_unescaped p⟩, fun ps => ⟨?_, ?_, ?_⟩⟩
  · exact Delimited.cut_flatten (delimited_frames ps)
  · exact fun n => Delimited.whole_iff (delimited_frames ps) (List.take_prefix n _)
  · exact fun qs => Delimited.flatten_inj (delimited_frames qs) (delimited_frames ps)

-- the three special bytes, and a checksum that is one of them
example : build ⟨⟨0x00⟩, 0x8D, 0xD8, 0xAB, 0, 0, PacketError.success, [0x44]⟩ =
    [0x8D, 0x00, 0xAB, 0x05, 0xAB, 0x50, 0xAB, 0x23, 0x44, 0xAB, 0x23, 0xD8] := by decide

end Packet

end NrfSpheros
