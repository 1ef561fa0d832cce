/-
  The compressed frame of `Sphero::register_matrix_animation`.

  A pixel is an index into a palette of 16 colours, four bits of it.  The compressed frame is four bit
  planes of eight bytes; a byte is a row, the last row first, and its highest bit is column 0.

  1. **The loops as they count** (`compressLoops`): `row_idx` is a `uint8_t` and ends by wrapping below
     zero.  They end, and in `compress` (`compressLoops_eq`).
  2. **Where each bit is** (`bit_compress`).
  3. **Reading it back** (`decompress`): a frame comes back up to the bits a palette index does not
     have (`compress_lossless`).
-/
import NrfSpheros.Sphero.Animation
import NrfSpheros.Theory.Bits

namespace NrfSpheros

open Bits (bit)

namespace Frame

/-! ## The loops as they count -/

/-- `for (uint8_t row_idx = 7; row_idx != UINT8_MAX; row_idx--)`, from `rowIdx` on. -/
def rowLoop (frame : Frame) (idx rowIdx : UInt8) (compressed : List UInt8) :
    Except Fault (List UInt8) :=
  if rowIdx = 255 then .ok compressed
  else if h : rowIdx.toNat < 8 then
    rowLoop frame idx (rowIdx - 1) (compressed ++ [compressRow frame[rowIdx.toNat] idx])
  else .error .outOfBounds
termination_by (rowIdx + 1).toNat
decreasing_by
  rw [UInt8.sub_add_cancel, UInt8.toNat_add]
  show rowIdx.toNat < (rowIdx.toNat + 1) % 256
  omega

/-- `for (uint8_t idx = 0; idx < 4; idx++)`, from `idx` on. -/
def planeLoop (frame : Frame) (idx : UInt8) (compressed : List UInt8) : Except Fault (List UInt8) :=
  if h : idx < 4 then do
    let compressed ← rowLoop frame idx 7 compressed
    planeLoop frame (idx + 1) compressed
  else .ok compressed
termination_by 4 - idx.toNat
decreasing_by
  have hlt : idx.toNat < 4 := h
  rw [UInt8.toNat_add]
  show 4 - (idx.toNat + 1) % 256 < 4 - idx.toNat
  omega

def compressLoops (frame : Frame) : Except Fault (List UInt8) := planeLoop frame 0 []

/-- From row `rows - 1` on there are `rows` rows to go; with none left the index has wrapped. -/
theorem rowLoop_eq (frame : Frame) (idx : UInt8) (rows : Nat) (h : rows ≤ 8)
    (compressed : List UInt8) :
    rowLoop frame idx (UInt8.ofNat rows - 1) compressed =
      .ok (compressPlane frame idx rows h compressed) := by
  induction rows generalizing compressed with
  | zero =>
    rw [rowLoop, if_pos (by rfl)]
    rfl
  | succ rows ih =>
    have hsub : UInt8.ofNat (rows + 1) - 1 = UInt8.ofNat rows := by
      rw [UInt8.ofNat_add]
      exact UInt8.add_sub_cancel _ _
    have hnat : (UInt8.ofNat rows).toNat = rows := by
      rw [UInt8.toNat_ofNat']
      omega
    have hne : UInt8.ofNat rows ≠ 255 := by
      intro heq
      have := congrArg UInt8.toNat heq
      rw [hnat] at this
      have hmax : (255 : UInt8).toNat = 255 := rfl
      omega
    rw [hsub, rowLoop, if_neg hne, dif_pos (by rw [hnat]; omega)]
    simp only [hnat]
    exact ih (Nat.le_of_succ_le h) _

/-- **The loops end, in the compressed frame.** -/
theorem compressLoops_eq (frame : Frame) : compressLoops frame = .ok frame.compress := by
  have hrows : ∀ idx compressed, rowLoop frame idx 7 compressed =
      .ok (compressPlane frame idx 8 (Nat.le_refl 8) compressed) :=
    fun idx compressed => rowLoop_eq frame idx 8 (Nat.le_refl 8) compressed
  have hnext : ∀ idx compressed, idx < 4 → planeLoop frame idx compressed =
      planeLoop frame (idx + 1) (compressPlane frame idx 8 (Nat.le_refl 8) compressed) := by
    intro idx compressed h
    rw [planeLoop, dif_pos h, hrows]
    rfl
  rw [compressLoops, hnext 0 _ (by decide), hnext _ _ (by decide), hnext _ _ (by decide),
    hnext _ _ (by decide), planeLoop, dif_neg (by decide)]
  rfl

/-! ## Where each bit is -/

/-- `frame[row][col]`. -/
def pixel (frame : Frame) (row col : Fin 8) : UInt8 := (frame.get row).get col

/-- The bytes of a plane. -/
def plane (frame : Frame) (idx : UInt8) : List UInt8 :=
  (List.finRange 8).map fun i => compressRow (frame.get i.rev) idx

theorem compressPlane_eq (frame : Frame) (idx : UInt8) (compressed : List UInt8) :
    compressPlane frame idx 8 (Nat.le_refl 8) compressed = compressed ++ plane frame idx := by
  have hplane : plane frame idx = [compressRow frame[7] idx, compressRow frame[6] idx,
      compressRow frame[5] idx, compressRow frame[4] idx, compressRow frame[3] idx,
      compressRow frame[2] idx, compressRow frame[1] idx, compressRow frame[0] idx] := rfl
  rw [hplane]
  simp [compressPlane]

theorem compress_eq (frame : Frame) :
    frame.compress = ([0, 1, 2, 3] : List UInt8).flatMap (plane frame) := by
  simp [compress, compressPlane_eq]

theorem length_plane (frame : Frame) (idx : UInt8) : (plane frame idx).length = 8 := by
  simp [plane]

/-- Byte `8 k + (7 - r)` is row `r` of plane `k`. -/
theorem getElem?_compress (frame : Frame) (r : Fin 8) (k : Fin 4) :
    frame.compress[8 * k.val + (7 - r.val)]? =
      some (compressRow (frame.get r) (UInt8.ofNat k.val)) := by
  have hr := r.isLt
  have hk : k.val < ([0, 1, 2, 3] : List UInt8).length := k.isLt
  have hidx : ([0, 1, 2, 3] : List UInt8)[k.val] = UInt8.ofNat k.val := by
    revert k
    decide
  rw [compress_eq, Wire.getElem?_flatMap (length_plane frame) hk (by omega), hidx, plane,
    List.getElem?_map]
  have hrow : (List.finRange 8)[7 - r.val]? = some r.rev := by
    revert r
    decide
  rw [hrow]
  simp only [Option.map_some, Fin.rev_rev]

/-- **Bit `7 - c` of a row is bit `idx` of the pixel in column `c`.** -/
theorem bit_compressRow (row : Vector UInt8 8) {idx : UInt8} (hidx : idx.toNat < 8) (c : Fin 8) :
    bit (compressRow row idx) (7 - c.val) = bit (row.get c) idx.toNat := by
  have hplace : ∀ col : Fin 8, (7 - UInt8.ofNat col.val).toNat = 7 - col.val := by decide
  have hrow : compressRow row idx = (List.finRange 8).foldl (fun res col =>
      res ||| ((row.get col &&& 1 <<< idx) >>> idx) <<< (7 - UInt8.ofNat col.val)) 0 := rfl
  rw [hrow, Bool.eq_iff_iff, Bits.bit_gather_iff fun col => Bits.bit_pick _ hidx (by
    rw [hplace]
    omega) _]
  simp only [hplace]
  constructor
  · rintro ⟨col, hsame, hbit⟩
    obtain rfl : c = col := by omega
    exact hbit
  · exact fun hbit => ⟨c, rfl, hbit⟩

/-- **Where each bit is.** -/
theorem bit_compress (frame : Frame) (r c : Fin 8) (k : Fin 4) :
    ∃ b, frame.compress[8 * k.val + (7 - r.val)]? = some b ∧
      bit b (7 - c.val) = bit (frame.pixel r c) k.val := by
  have hk : (UInt8.ofNat k.val).toNat = k.val := by
    revert k
    decide
  refine ⟨_, getElem?_compress frame r k, ?_⟩
  rw [bit_compressRow (frame.get r) (by omega), hk, pixel]

/-! ## Reading it back -/

/-- The pixel at row `r` and column `c`, from its bits in the four planes. -/
def pixelAt (bytes : List UInt8) (r c : Fin 8) : UInt8 :=
  let place := 7 - UInt8.ofNat c.val
  ([0, 1, 2, 3] : List UInt8).foldl (fun pixel k =>
    pixel ||| ((bytes.getD (8 * k.toNat + (7 - r.val)) 0 &&& 1 <<< place) >>> place) <<< k) 0

/-- The decoder of a compressed frame. -/
def decompress (bytes : List UInt8) : Frame :=
  Vector.ofFn fun r => Vector.ofFn fun c => pixelAt bytes r c

/-- The bits of plane `k` make up bit `k` of the pixels. -/
theorem pixelAt_compress (frame : Frame) (r c : Fin 8) :
    pixelAt frame.compress r c = frame.pixel r c % 16 := by
  have hplace : (7 - UInt8.ofNat c.val).toNat = 7 - c.val := by
    revert c
    decide
  have hc : (7 - UInt8.ofNat c.val).toNat < 8 := by
    rw [hplace]
    omega
  have hsmall : ∀ k : Fin 4, (UInt8.ofNat k.val).toNat = k.val := by decide
  have hbyte : ∀ k : Fin 4, bit (frame.compress.getD (8 * k.val + (7 - r.val)) 0) (7 - c.val) =
      bit (frame.pixel r c) k.val := by
    intro k
    obtain ⟨b, hb, hbit⟩ := bit_compress frame r c k
    rw [List.getD_eq_getElem?_getD, hb, Option.getD_some, hbit]
  -- bit by bit: bit `j` of the pixel comes from plane `j`, if there is one
  apply Bits.ext_bit
  intro j hj
  rw [Bits.bit_mod _ (show (16 : UInt8).toNat = 2 ^ 4 from rfl)]
  have hpixel : pixelAt frame.compress r c = (List.finRange 4).foldl (fun pixel k => pixel |||
      ((frame.compress.getD (8 * k.val + (7 - r.val)) 0 &&& 1 <<< (7 - UInt8.ofNat c.val)) >>>
        (7 - UInt8.ofNat c.val)) <<< UInt8.ofNat k.val) 0 := rfl
  rw [hpixel, Bool.eq_iff_iff, Bits.bit_gather_iff fun k => Bits.bit_pick _ hc (by
    rw [hsmall]
    omega) _, Bool.and_eq_true, decide_eq_true_eq]
  simp only [hsmall, hplace, hbyte]
  constructor
  · rintro ⟨k, rfl, hbit⟩
    exact ⟨k.isLt, hbit⟩
  · rintro ⟨hlt, hbit⟩
    exact ⟨⟨j, hlt⟩, rfl, hbit⟩

theorem decompress_compress (frame : Frame) (r c : Fin 8) :
    (decompress frame.compress).pixel r c = frame.pixel r c % 16 := by
  have hentry : (decompress frame.compress).pixel r c = pixelAt frame.compress r c := by
    simp only [decompress, pixel, Vector.get, Vector.toArray_ofFn, Array.getElem_ofFn]
    rfl
  rw [hentry, pixelAt_compress]

/-- Every pixel is an index into a palette of 16 colours. -/
def Indexed (frame : Frame) : Prop := ∀ r c : Fin 8, frame.pixel r c < 16

/-- A frame of palette indexes is determined by its bytes. -/
theorem eq_of_compress_eq {frame frame' : Frame} (h : Indexed frame) (h' : Indexed frame')
    (heq : frame.compress = frame'.compress) : frame = frame' := by
  have hpixel : ∀ r c : Fin 8, frame.pixel r c = frame'.pixel r c := by
    intro r c
    calc frame.pixel r c = frame.pixel r c % 16 := (UInt8.mod_eq_of_lt (h r c)).symm
      _ = (decompress frame.compress).pixel r c := (decompress_compress frame r c).symm
      _ = (decompress frame'.compress).pixel r c := by rw [heq]
      _ = frame'.pixel r c % 16 := decompress_compress frame' r c
      _ = frame'.pixel r c := UInt8.mod_eq_of_lt (h' r c)
  apply Vector.ext
  intro r hr
  apply Vector.ext
  intro c hc
  exact hpixel ⟨r, hr⟩ ⟨c, hc⟩

/-- **Compression loses nothing.**  The loops end with 32 bytes that hold the low four bits of every
    pixel, each in a place of its own; the decoder finds them there, and frames of palette indexes
    with the same bytes are the same frame. -/
theorem compress_lossless (frame : Frame) :
    (∃ bytes, compressLoops frame = .ok bytes ∧ bytes.length = 32 ∧
      (∀ (r c : Fin 8) (k : Fin 4), ∃ b, bytes[8 * k.val + (7 - r.val)]? = some b ∧
        bit b (7 - c.val) = bit (frame.pixel r c) k.val) ∧
      ∀ r c : Fin 8, (decompress bytes).pixel r c = frame.pixel r c % 16) ∧
    ∀ frame' : Frame, Indexed frame → Indexed frame' →
      compressLoops frame = compressLoops frame' → frame = frame' := by
  refine ⟨⟨frame.compress, compressLoops_eq frame, ?_, bit_compress frame,
    decompress_compress frame⟩, ?_⟩
  · rw [compress_eq, List.length_flatMap]
    simp [length_plane]
  · intro frame' h h' heq
    rw [compressLoops_eq, compressLoops_eq, Except.ok.injEq] at heq
    exact eq_of_compress_eq h h' heq

/-- A frame with the colours along its diagonals. -/
def diagonals : Frame := Vector.ofFn fun r : Fin 8 => Vector.ofFn fun c : Fin 8 =>
  UInt8.ofNat (r.val + c.val)

/-- Reading the diagonals back gives the diagonals, since both frames have the same bytes. -/
theorem compress_lossless_diagonals :
    (∃ bytes, compressLoops diagonals = .ok bytes ∧ bytes.length = 32) ∧
      diagonals = decompress diagonals.compress := by
  have hindexed : Indexed diagonals := by
    unfold Indexed
    decide
  have hindexed' : Indexed (decompress diagonals.compress) := by
    intro r c
    rw [decompress_compress, UInt8.mod_eq_of_lt (hindexed r c)]
    exact hindexed r c
  have hbytes : compressLoops diagonals = compressLoops (decompress diagonals.compress) := by
    rw [compressLoops_eq, compressLoops_eq]
    exact congrArg Except.ok (by decide)
  obtain ⟨⟨bytes, heq, hlength, _⟩, hinj⟩ := compress_lossless diagonals
  exact ⟨⟨bytes, heq, hlength⟩, hinj _ hindexed hindexed' hbytes⟩

end Frame

end NrfSpheros
