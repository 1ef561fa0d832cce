/-
  `Sphero::set_all_leds_with_map`: the mask and the values of one packet.

  The loop over the LEDs builds the mask and the list of values side by side.  The packet says nothing
  more, so the robot gives the values in order to the set bits, from the lowest.

  1. **The loop is `Bits.pack`** with the bit of an LED and the mapping's `find`.
  2. **Nothing mapped, nothing sent** (`mask_eq_zero_iff`).
  3. **The robot gets the mapping back** (`setAllLedsWithMap_encodes`).
-/
import NrfSpheros.Sphero.Commands
import NrfSpheros.Theory.Bits

namespace NrfSpheros

open Bits (bit)

namespace LEDs

theorem toByte_lt (led : LEDs) : led.toByte.toNat < 8 := by cases led <;> decide

/-- No two LEDs share a bit. -/
theorem toByte_injective : Function.Injective fun led : LEDs => led.toByte.toNat := by
  intro led led' h
  cases led <;> cases led' <;> first | rfl | exact absurd h (by decide)

theorem mem_all (led : LEDs) : led ∈ all := by cases led <;> decide

/-- The loop meets the LEDs in the order of their bits. -/
theorem all_ascending : all.Pairwise fun led led' => led.toByte.toNat < led'.toByte.toNat := by
  decide

end LEDs

namespace Sphero

/-- The mask and the values, as the loop leaves them. -/
def packed (mapping : Finmap fun _ : LEDs => UInt8) : UInt8 × List UInt8 :=
  LEDs.all.foldl (mapLed mapping) (0, [])

/-- **The loop is `Bits.pack`.** -/
theorem packed_eq (mapping : Finmap fun _ : LEDs => UInt8) :
    packed mapping =
      LEDs.all.foldl (Bits.pack LEDs.toByte fun led => mapping.lookup led) (0, []) := by
  have hturn : mapLed mapping = Bits.pack LEDs.toByte fun led => mapping.lookup led := by
    funext r led
    unfold mapLed Bits.pack
    beta_reduce
    cases mapping.lookup led <;> rfl
  rw [packed, hturn]

/-- The bits of the mask are the mapped LEDs. -/
theorem bit_packed (mapping : Finmap fun _ : LEDs => UInt8) (j : Nat) :
    bit (packed mapping).1 j = true ↔ ∃ led ∈ mapping, j = led.toByte.toNat := by
  rw [packed_eq, Bits.bit_foldl_pack LEDs.toByte_lt, Bits.bit_zero]
  constructor
  · rintro (h | ⟨led, -, hsome, rfl⟩)
    · exact absurd h Bool.false_ne_true
    · exact ⟨led, Finmap.lookup_isSome.mp hsome, rfl⟩
  · rintro ⟨led, hmem, rfl⟩
    exact Or.inr ⟨led, LEDs.mem_all led, Finmap.lookup_isSome.mpr hmem, rfl⟩

/-- An empty mask is that of a mapping that names no LED. -/
theorem mask_eq_zero_iff (mapping : Finmap fun _ : LEDs => UInt8) :
    (packed mapping).1 = 0 ↔ ∀ led, led ∉ mapping := by
  constructor
  · intro h led hmem
    have hbit := (bit_packed mapping _).mpr ⟨led, hmem, rfl⟩
    rw [h, Bits.bit_zero] at hbit
    exact Bool.false_ne_true hbit
  · intro h
    apply Bits.ext_bit
    intro j _
    rw [Bits.bit_zero, Bool.eq_false_iff]
    intro hbit
    obtain ⟨led, hmem, -⟩ := (bit_packed mapping j).mp hbit
    exact h led hmem

/-- There are as many values as mapped LEDs. -/
theorem length_packed (mapping : Finmap fun _ : LEDs => UInt8) :
    (packed mapping).2.length = (Bits.setBits (packed mapping).1).length := by
  rw [packed_eq]
  exact Bits.length_values_pack LEDs.toByte_lt LEDs.all_ascending

/-- The values given to the set bits in order are the mapping. -/
theorem lookup_packed (mapping : Finmap fun _ : LEDs => UInt8) (led : LEDs) :
    (Bits.unpack (packed mapping)).lookup led.toByte.toNat = mapping.lookup led := by
  rw [packed_eq]
  exact Bits.lookup_unpack LEDs.toByte_lt LEDs.toByte_injective LEDs.all_ascending
    (LEDs.mem_all led)

/-- **The packet says the mapping.**  A mapping that names no LED sends nothing.  Any other sends one
    packet: a mask with the bits of the mapped LEDs and no others, and behind it as many values as it
    has set bits, where the values given to the set bits in order are the mapping.  The order in which
    the mapping keeps its entries makes no difference: the parameter is a finite map, which has none, and
    the loop is over the LEDs and looks each of them up, as in the source. -/
theorem setAllLedsWithMap_encodes (s : Sphero) (mapping : Finmap fun _ : LEDs => UInt8) :
    ((∀ led, led ∉ mapping) → s.setAllLedsWithMap mapping = (s, [])) ∧
    ((∃ led, led ∈ mapping) → ∃ packet mask values,
      (s.setAllLedsWithMap mapping).2 = [packet] ∧ packet.data = mask :: values ∧
      values.length = (Bits.setBits mask).length ∧
      (∀ j, bit mask j = true ↔ ∃ led ∈ mapping, j = led.toByte.toNat) ∧
      ∀ led, (Bits.unpack (mask, values)).lookup led.toByte.toNat = mapping.lookup led) ∧
    ∀ entries entries' : AList fun _ : LEDs => UInt8, entries.entries.Perm entries'.entries →
      s.setAllLedsWithMap entries.toFinmap = s.setAllLedsWithMap entries'.toFinmap := by
  refine ⟨fun h => ?_, fun h => ?_, fun entries entries' h => ?_⟩
  · exact if_neg (not_not_intro ((mask_eq_zero_iff mapping).mpr h))
  · have hmask : (packed mapping).1 ≠ 0 := by
      rw [Ne, mask_eq_zero_iff]
      obtain ⟨led, hmem⟩ := h
      exact fun hnone => hnone led hmem
    have hsent : s.setAllLedsWithMap mapping =
        ((s.setAllLedsWith8BitMask (packed mapping).1 (packed mapping).2).1,
          [(s.setAllLedsWith8BitMask (packed mapping).1 (packed mapping).2).2]) := if_pos hmask
    exact ⟨_, (packed mapping).1, (packed mapping).2, congrArg Prod.snd hsent,
      Io.setAllLedsWith8BitMask_data _ _ _ _, length_packed mapping, bit_packed mapping,
      lookup_packed mapping⟩
  · have heq : entries.toFinmap = entries'.toFinmap := AList.toFinmap_eq.mpr h
    rw [heq]

/-- Two LEDs, in an order of their own. -/
def frontAndBack : AList fun _ : LEDs => UInt8 :=
  List.toAList [⟨.backBlue, 7⟩, ⟨.frontRed, 200⟩]

/-- The same two, the other way round. -/
def backAndFront : AList fun _ : LEDs => UInt8 :=
  List.toAList [⟨.frontRed, 200⟩, ⟨.backBlue, 7⟩]

theorem setAllLedsWithMap_encodes_two :
    (create 0).setAllLedsWithMap ∅ = (create 0, []) ∧
    (∃ packet mask values, ((create 0).setAllLedsWithMap frontAndBack.toFinmap).2 = [packet] ∧
      packet.data = mask :: values ∧ values.length = (Bits.setBits mask).length) ∧
    (create 0).setAllLedsWithMap frontAndBack.toFinmap =
      (create 0).setAllLedsWithMap backAndFront.toFinmap := by
  have hnone := (setAllLedsWithMap_encodes (create 0) ∅).1 fun _ => Finmap.notMem_empty
  obtain ⟨-, hsent, horder⟩ := setAllLedsWithMap_encodes (create 0) frontAndBack.toFinmap
  obtain ⟨packet, mask, values, hpacket, hdata, hlength, -⟩ := hsent ⟨.frontRed, by decide⟩
  exact ⟨hnone, ⟨packet, mask, values, hpacket, hdata, hlength⟩,
    horder frontAndBack backAndFront (by decide)⟩

end Sphero

end NrfSpheros
