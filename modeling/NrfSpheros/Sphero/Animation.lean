/-
  `Sphero::register_matrix_animation`: the frames of an animation and the indexes they go by.

  1. **Compression** — a frame of 8×8 palette indexes becomes 32 bytes, four bit planes of eight
     rows.

  2. **Two encoders** — `save_compressed_frame` tells the robot to store a frame under an index, and
     `save_compressed_frame_animation` lists the indexes of the frames to play.  Both come from
     `frame_index`, a `uint16_t`, but the first passes through a `uint8_t` parameter.  `Agrees` says
     that in one call the two name the same frames.

  3. **Where they part** (`animations_agree_iff`) — over any sequence of calls they agree exactly as
     long as no more than 256 frames are registered.
-/
import Mathlib.Algebra.GroupWithZero.Nat
import NrfSpheros.Sphero.Commands
import NrfSpheros.Theory.Run
import NrfSpheros.Theory.Wire

namespace NrfSpheros

/-- A frame: 8 rows of 8 pixels, each an index into the palette. -/
abbrev Frame := Vector (Vector UInt8 8) 8

namespace Frame

/-- One row of a bit plane: bit `7 - col` is bit `idx` of the pixel in column `col`. -/
def compressRow (row : Vector UInt8 8) (idx : UInt8) : UInt8 :=
  (List.finRange 8).foldl (fun res col =>
    let bit := (row[col] &&& 1 <<< idx) >>> idx
    res ||| bit <<< (7 - UInt8.ofNat col.val)) 0

/-- The loop over `row_idx`, with `rows` rows to go: after row 0 the index wraps to `UINT8_MAX`. -/
def compressPlane (frame : Frame) (idx : UInt8) :
    (rows : Nat) → rows ≤ 8 → List UInt8 → List UInt8
  | 0, _, compressed => compressed
  | rowIdx + 1, h, compressed =>
    have : rowIdx < 8 := h
    compressPlane frame idx rowIdx (Nat.le_of_succ_le h)
      (compressed ++ [compressRow frame[rowIdx] idx])

/-- `compressed_frame`: the planes 0 to 3. -/
def compress (frame : Frame) : List UInt8 :=
  ([0, 1, 2, 3] : List UInt8).foldl (fun compressed idx =>
    compressPlane frame idx 8 (Nat.le_refl 8) compressed) []

end Frame

/-- The state of the loop over the frames. -/
structure Saving where
  sphero : Sphero
  sent : List Packet
  frameIndexes : List UInt16

/-- The arguments of one `register_matrix_animation`. -/
structure Animation where
  frames : List Frame
  palette : List RGBColor
  fps : UInt8
  transition : Bool

namespace Sphero

/-- One turn of the loop: `frame_index` becomes a `uint8_t` on its way to `save_compressed_frame`. -/
def saveFrame (st : Saving) (frame : Frame) : Saving :=
  let r := st.sphero.saveCompressedFrame st.sphero.frameIndex.toUInt8 frame.compress
  { sphero := { r.1 with frameIndex := r.1.frameIndex + 1 }
    sent := st.sent ++ [r.2]
    frameIndexes := st.frameIndexes ++ [r.1.frameIndex] }

def registerMatrixAnimation (s : Sphero) (a : Animation) : Sphero × List Packet :=
  let st := a.frames.foldl saveFrame ⟨s, [], []⟩
  let r := st.sphero.saveCompressedFrameAnimation a.fps a.transition a.palette st.frameIndexes
  (r.1, st.sent ++ [r.2])

/-! ## The bytes of the two packets -/

/-- The two bytes of a frame index, high byte first. -/
def indexBytes (index : UInt16) : List UInt8 := [(index >>> 8).toUInt8, (index &&& 0xFF).toUInt8]

/-- The index in a `save_compressed_frame` packet. -/
def savedIndex (packet : Packet) : List UInt8 := packet.data.take 2

/-- The `i`-th index in a `save_compressed_frame_animation` packet: it follows the id, the rate, the
    fade flag, the palette with its size, and the number of frames. -/
def listedIndex (palette : List RGBColor) (i : Nat) (packet : Packet) : List UInt8 :=
  (packet.data.drop (6 + 3 * palette.length + 2 * i)).take 2

theorem savedIndex_saveCompressedFrame (s : Sphero) (index : UInt8) (frame : List UInt8) :
    savedIndex (s.saveCompressedFrame index frame).2 = [0, index] := by
  have hdata : (s.saveCompressedFrame index frame).2.data = 0 :: index :: frame :=
    Io.saveCompressedFrame_data _ _ _ _
  rw [savedIndex, hdata]
  rfl

/-- The sections of the data: four bytes, the palette, the number of frames and the indexes. -/
theorem animation_data (m : PacketManager) (animationId fps : UInt8) (fade : Bool)
    (palette : List RGBColor) (indexes : List UInt16) (tid : UInt8) :
    (Io.saveCompressedFrameAnimation m animationId fps fade palette indexes tid).1.data =
      [animationId, fps % 31, fade.toUInt8, UInt8.ofNat palette.length]
        ++ palette.flatMap (fun color => [color.red, color.green, color.blue])
        ++ indexBytes (UInt16.ofNat indexes.length) ++ indexes.flatMap indexBytes := by
  have hpalette : (fun (data : List UInt8) (color : RGBColor) =>
      data ++ [color.red] ++ [color.green] ++ [color.blue]) =
      fun data color => data ++ [color.red, color.green, color.blue] := by
    funext data color
    simp
  have hindexes : (fun (data : List UInt8) (index : UInt16) =>
      data ++ [(index >>> 8).toUInt8] ++ [(index &&& 0xFF).toUInt8]) =
      fun data index => data ++ indexBytes index := by
    funext data index
    simp [indexBytes]
  unfold Io.saveCompressedFrameAnimation
  rw [Commands.encode_data, hpalette, hindexes, Packet.foldl_append_eq, Packet.foldl_append_eq]
  simp [indexBytes]

theorem saveCompressedFrameAnimation_data (s : Sphero) (fps : UInt8) (fade : Bool)
    (palette : List RGBColor) (indexes : List UInt16) :
    (s.saveCompressedFrameAnimation fps fade palette indexes).2.data =
      [s.animationIndex, fps % 31, fade.toUInt8, UInt8.ofNat palette.length]
        ++ palette.flatMap (fun color => [color.red, color.green, color.blue])
        ++ indexBytes (UInt16.ofNat indexes.length) ++ indexes.flatMap indexBytes :=
  animation_data s.packetManager s.animationIndex fps fade palette indexes _

theorem listedIndex_saveCompressedFrameAnimation (s : Sphero) (fps : UInt8) (fade : Bool)
    (palette : List RGBColor) (indexes : List UInt16) {i : Nat} (hi : i < indexes.length) :
    listedIndex palette i (s.saveCompressedFrameAnimation fps fade palette indexes).2
      = indexBytes indexes[i] := by
  have hpalette : (palette.flatMap fun color => [color.red, color.green, color.blue]).length
      = 3 * palette.length := by
    rw [List.length_flatMap]
    simp [Nat.mul_comm]
  -- everything before the indexes, and the indexes before the `i`-th
  have hhead : ∀ head tail : List UInt8, head.length = 6 + 3 * palette.length →
      (head ++ tail).drop (6 + 3 * palette.length + 2 * i) = tail.drop (2 * i) := by
    intro head tail hlen
    rw [← hlen, ← List.drop_drop, List.drop_left]
  unfold listedIndex
  rw [saveCompressedFrameAnimation_data, hhead _ _ (by simp [indexBytes, hpalette]; omega),
    Wire.drop_flatMap (k := 2) (fun _ => rfl), List.drop_eq_getElem_cons hi, List.flatMap_cons]
  rfl

/-! ## The loop over the frames -/

/-- What the loop has done after the frames with the indexes from `base` on. -/
structure Saved (base : UInt16) (st : Saving) : Prop where
  frameIndex : st.sphero.frameIndex = base + UInt16.ofNat st.frameIndexes.length
  sent : st.sent.map savedIndex = st.frameIndexes.map fun index => [0, index.toUInt8]
  indexes : st.frameIndexes =
    (List.range st.frameIndexes.length).map fun i => base + UInt16.ofNat i

theorem saved_saveFrame {base : UInt16} {st : Saving} (h : Saved base st) (frame : Frame) :
    Saved base (saveFrame st frame) := by
  have hindexes : (saveFrame st frame).frameIndexes = st.frameIndexes ++ [st.sphero.frameIndex] :=
    rfl
  constructor
  · rw [hindexes, List.length_append]
    show st.sphero.frameIndex + 1 = _
    rw [h.frameIndex, UInt16.add_assoc]
    congr 1
    exact (UInt16.ofNat_add _ _).symm
  · rw [hindexes, List.map_append]
    show (st.sent ++ [_]).map savedIndex = _
    rw [List.map_append, h.sent]
    simp only [List.map_cons, List.map_nil, savedIndex_saveCompressedFrame]
  · rw [hindexes, List.length_append, List.length_singleton, List.range_succ, List.map_append,
      ← h.indexes, List.map_singleton, ← h.frameIndex]

theorem saved_foldl {base : UInt16} {st : Saving} (h : Saved base st) (frames : List Frame) :
    Saved base (frames.foldl saveFrame st) ∧
      (frames.foldl saveFrame st).frameIndexes.length = st.frameIndexes.length + frames.length := by
  induction frames generalizing st with
  | nil => exact ⟨h, rfl⟩
  | cons frame frames ih =>
    obtain ⟨hsaved, hlength⟩ := ih (saved_saveFrame h frame)
    refine ⟨hsaved, ?_⟩
    have hone : (saveFrame st frame).frameIndexes.length = st.frameIndexes.length + 1 :=
      List.length_append
    rw [List.foldl_cons, hlength, hone, List.length_cons]
    omega

/-! ## The two encoders over a run of calls -/

/-- In the packets of one call, the index the animation lists for its `i`-th frame is the one the
    `i`-th frame was saved under. -/
def Agrees (a : Animation) (sent : List Packet) : Prop :=
  ∀ i, i < a.frames.length →
    (sent[a.frames.length]?).map (listedIndex a.palette i) = (sent[i]?).map savedIndex

/-- One call. -/
def registerStep (s : Sphero) (a : Animation) : Option Sphero :=
  some (s.registerMatrixAnimation a).1

/-- The number of frames of all calls. -/
def totalFrames (calls : List Animation) : Nat := (calls.map fun a => a.frames.length).sum

/-- An index fits into the parameter of `save_compressed_frame` if it is below 256. -/
theorem indexBytes_eq_iff (index : UInt16) :
    indexBytes index = [0, index.toUInt8] ↔ index.toNat < 256 := by
  have hlow : (index &&& 0xFF).toUInt8 = index.toUInt8 := by
    rw [← UInt8.toNat_inj, Wire.toNat_low, UInt16.toNat_toUInt8]
  unfold indexBytes
  rw [hlow, List.cons.injEq, ← UInt8.toNat_inj, Wire.toNat_high]
  show index.toNat / 256 = 0 ∧ _ ↔ _
  rw [Nat.div_eq_zero_iff_lt (by decide)]
  exact and_iff_left rfl

/-- The state after the loop of one call. -/
def saving (s : Sphero) (a : Animation) : Saving := a.frames.foldl saveFrame ⟨s, [], []⟩

theorem saved_saving (s : Sphero) (a : Animation) :
    Saved s.frameIndex (s.saving a) ∧ (s.saving a).frameIndexes.length = a.frames.length := by
  have hstart : Saved s.frameIndex ⟨s, [], []⟩ := ⟨by simp, rfl, rfl⟩
  obtain ⟨hsaved, hlength⟩ := saved_foldl hstart a.frames
  exact ⟨hsaved, hlength.trans (Nat.zero_add _)⟩

theorem frameIndex_registerMatrixAnimation (s : Sphero) (a : Animation) :
    (s.registerMatrixAnimation a).1.frameIndex = s.frameIndex + UInt16.ofNat a.frames.length := by
  obtain ⟨hsaved, hlength⟩ := saved_saving s a
  have h := hsaved.frameIndex
  rw [hlength] at h
  exact h

/-- What one call lists for its `i`-th frame, and what it saved that frame under. -/
theorem indexes_registerMatrixAnimation (s : Sphero) (a : Animation) {i : Nat}
    (hi : i < a.frames.length) :
    ((s.registerMatrixAnimation a).2[a.frames.length]?).map (listedIndex a.palette i)
        = some (indexBytes (s.frameIndex + UInt16.ofNat i)) ∧
      ((s.registerMatrixAnimation a).2[i]?).map savedIndex
        = some [0, (s.frameIndex + UInt16.ofNat i).toUInt8] := by
  obtain ⟨hsaved, hlength⟩ := saved_saving s a
  have hindex : (s.saving a).frameIndexes[i]? = some (s.frameIndex + UInt16.ofNat i) := by
    rw [hsaved.indexes, hlength, List.getElem?_map, List.getElem?_range hi, Option.map_some]
  have hsent : (s.saving a).sent.length = a.frames.length := by
    rw [← hlength, ← List.length_map (f := savedIndex), hsaved.sent, List.length_map]
  have hpackets : (s.registerMatrixAnimation a).2 = (s.saving a).sent ++
      [((s.saving a).sphero.saveCompressedFrameAnimation a.fps a.transition a.palette
        (s.saving a).frameIndexes).2] := rfl
  rw [hpackets]
  constructor
  · have hi' : i < (s.saving a).frameIndexes.length := hlength ▸ hi
    rw [List.getElem?_append_right (Nat.le_of_eq hsent), hsent, Nat.sub_self]
    rw [List.getElem?_eq_getElem hi', Option.some.injEq] at hindex
    show some (listedIndex _ _ _) = _
    rw [listedIndex_saveCompressedFrameAnimation _ _ _ _ _ hi', hindex]
  · rw [List.getElem?_append_left (hsent ▸ hi), ← List.getElem?_map, hsaved.sent,
      List.getElem?_map, hindex, Option.map_some]

/-- **One call agrees exactly as far as its last frame index is below 256.** -/
theorem agrees_iff {s : Sphero} {k : Nat} (hk : s.frameIndex = UInt16.ofNat k) (a : Animation)
    (hfew : k + a.frames.length < 65536) :
    Agrees a (s.registerMatrixAnimation a).2 ↔ a.frames.length = 0 ∨ k + a.frames.length ≤ 256 := by
  have hframe : ∀ i, i < a.frames.length →
      (((s.registerMatrixAnimation a).2[a.frames.length]?).map (listedIndex a.palette i)
        = ((s.registerMatrixAnimation a).2[i]?).map savedIndex ↔ k + i < 256) := by
    intro i hi
    obtain ⟨hlisted, hsaved⟩ := indexes_registerMatrixAnimation s a hi
    have hindex : (s.frameIndex + UInt16.ofNat i).toNat = k + i := by
      rw [hk, ← UInt16.ofNat_add, UInt16.toNat_ofNat', Nat.mod_eq_of_lt (by omega)]
    rw [hlisted, hsaved, Option.some.injEq, indexBytes_eq_iff, hindex]
  constructor
  · intro h
    rcases Nat.eq_zero_or_pos a.frames.length with hzero | hpos
    · exact Or.inl hzero
    · have hlast := (hframe (a.frames.length - 1) (by omega)).mp (h _ (by omega))
      exact Or.inr (by omega)
  · intro h i hi
    exact (hframe i hi).mpr (by omega)

theorem along_agrees_iff {s : Sphero} {k : Nat} (hk : s.frameIndex = UInt16.ofNat k)
    (calls : List Animation) (hfew : k + totalFrames calls < 65536) :
    Transition.Along registerStep (fun s a => Agrees a (s.registerMatrixAnimation a).2) s calls ↔
      totalFrames calls = 0 ∨ k + totalFrames calls ≤ 256 := by
  induction calls generalizing s k with
  | nil => exact iff_of_true trivial (Or.inl rfl)
  | cons a calls ih =>
    have htotal : totalFrames (a :: calls) = a.frames.length + totalFrames calls := List.sum_cons
    rw [htotal] at hfew ⊢
    have hnext : (s.registerMatrixAnimation a).1.frameIndex = UInt16.ofNat (k + a.frames.length) := by
      rw [frameIndex_registerMatrixAnimation, hk, UInt16.ofNat_add]
    have hrest := ih hnext (by omega)
    have hcall := agrees_iff hk a (by omega)
    constructor
    · rintro ⟨hfirst, hlater⟩
      have h := hcall.mp hfirst
      have h' := hrest.mp (hlater _ rfl)
      omega
    · intro h
      refine ⟨hcall.mpr (by omega), fun s' hs' => ?_⟩
      rw [← Option.some.inj hs']
      exact hrest.mpr (by omega)

/-- **Where the two encoders part.**  On one Sphero object, over any sequence of calls, the
    animations list the frames that were saved if and only if no more than 256 are registered. -/
theorem animations_agree_iff (id : UInt8) (calls : List Animation)
    (hfew : totalFrames calls < 65536) :
    Transition.Along registerStep (fun s a => Agrees a (s.registerMatrixAnimation a).2)
        (create id) calls ↔ totalFrames calls ≤ 256 := by
  rw [along_agrees_iff (s := create id) (k := 0) rfl calls (by omega)]
  omega

/-- A frame with all its pixels off. -/
def blank : Frame := Vector.replicate 8 (Vector.replicate 8 0)

/-- An animation of `n` blank frames. -/
def blanks (n : Nat) : Animation := ⟨List.replicate n blank, [], 1, false⟩

/-- One animation of one frame. -/
theorem animations_agree_iff_one :
    Transition.Along registerStep (fun s a => Agrees a (s.registerMatrixAnimation a).2)
        (create 0) [blanks 1] ↔ totalFrames [blanks 1] ≤ 256 :=
  animations_agree_iff 0 [blanks 1] (by decide)

/-- The 257th frame is saved under index 0 and played under index 256. -/
theorem animations_disagree :
    ¬ (∀ (id : UInt8) (calls : List Animation), totalFrames calls < 65536 →
      Transition.Along registerStep (fun s a => Agrees a (s.registerMatrixAnimation a).2)
        (create id) calls) := by
  intro h
  have hlength : (blanks 257).frames.length = 257 := List.length_replicate
  have htotal : totalFrames [blanks 257] = 257 := by
    simp only [totalFrames, List.map_cons, List.map_nil, List.sum_cons, List.sum_nil, hlength,
      Nat.add_zero]
  have hagrees := (h 0 [blanks 257] (by omega)).1
  have hbound := (agrees_iff (s := create 0) (k := 0) rfl (blanks 257) (by omega)).mp hagrees
  omega

end Sphero

end NrfSpheros
