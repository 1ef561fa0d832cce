/-
  The data of `IO::save_compressed_frame_animation`, read back.

  After three bytes come two lists, each behind its own length: a byte and three bytes for each colour,
  then a word and a word for each frame index.  Nothing marks where the first list ends and the second
  begins, except the first length.

  1. **The reader** (`read`) takes the sections in this order.
  2. **It takes exactly the data** (`reads_data`), as long as the lengths fit their fields.  So the
     data determines the animation (`data_injective`).
-/
import NrfSpheros.Sphero.Animation

namespace NrfSpheros

/-- What the data says. -/
structure AnimationData where
  animationId : UInt8
  fps : UInt8
  fadeAnimation : Bool
  palette : List RGBColor
  frameIndexes : List UInt16
deriving DecidableEq, Repr

namespace AnimationData

open Wire (Reader Reads)

/-- The three bytes of a colour. -/
def readColor : Reader RGBColor := do
  let red ← Wire.byte
  let green ← Wire.byte
  let blue ← Wire.byte
  pure ⟨red, green, blue⟩

/-- The number of colours, and the colours. -/
def readPalette : Reader (List RGBColor) := do
  let size ← Wire.byte
  Wire.times readColor size.toNat

/-- The number of frames, and the index of each. -/
def readIndexes : Reader (List UInt16) := do
  let frameCount ← Wire.word
  Wire.times Wire.word frameCount.toNat

def read : Reader AnimationData := do
  let animationId ← Wire.byte
  let fps ← Wire.byte
  let fade ← Wire.byte
  let palette ← readPalette
  let indexes ← readIndexes
  pure ⟨animationId, fps, fade != 0, palette, indexes⟩

theorem reads_color (c : RGBColor) : Reads readColor [c.red, c.green, c.blue] c := fun _ => rfl

/-- A palette whose size fits a byte. -/
theorem reads_palette {colors : List RGBColor} (h : colors.length ≤ 255) :
    Reads readPalette (UInt8.ofNat colors.length :: colors.flatMap fun c => [c.red, c.green, c.blue])
      colors := by
  apply Reads.counted (Wire.reads_byte (UInt8.ofNat colors.length)) _ reads_color
  rw [UInt8.toNat_ofNat']
  omega

/-- A list of indexes whose length fits a word. -/
theorem reads_indexes {indexes : List UInt16} (h : indexes.length ≤ 65535) :
    Reads readIndexes
      (Sphero.indexBytes (UInt16.ofNat indexes.length) ++ indexes.flatMap Sphero.indexBytes)
      indexes := by
  apply Reads.counted (Wire.reads_word (UInt16.ofNat indexes.length)) _ Wire.reads_word
  rw [UInt16.toNat_ofNat']
  omega

/-- **The reader takes exactly the data.** -/
theorem reads_data (m : PacketManager) (animationId fps : UInt8) (fade : Bool)
    {colors : List RGBColor} {indexes : List UInt16} (tid : UInt8) (hcolors : colors.length ≤ 255)
    (hindexes : indexes.length ≤ 65535) :
    Reads read
      (Io.saveCompressedFrameAnimation m animationId fps fade colors indexes tid).1.data
      ⟨animationId, fps % 31, fade, colors, indexes⟩ := by
  have hflag : (fade.toUInt8 != 0) = fade := by cases fade <;> rfl
  have hsections : (Io.saveCompressedFrameAnimation m animationId fps fade colors indexes tid).1.data
      = [animationId] ++ ([fps % 31] ++ ([fade.toUInt8] ++
        ((UInt8.ofNat colors.length :: colors.flatMap fun c => [c.red, c.green, c.blue]) ++
        ((Sphero.indexBytes (UInt16.ofNat indexes.length) ++ indexes.flatMap Sphero.indexBytes) ++
        [])))) := by
    rw [Sphero.animation_data]
    simp
  rw [hsections]
  apply (Wire.reads_byte animationId).bind
  apply (Wire.reads_byte (fps % 31)).bind
  apply (Wire.reads_byte fade.toUInt8).bind
  apply (reads_palette hcolors).bind
  apply (reads_indexes hindexes).bind
  rw [hflag]
  exact Wire.reads_pure _

/-- Packets of animations with the same data are packets of the same animation. -/
theorem data_injective {m m' : PacketManager} {animationId animationId' fps fps' : UInt8}
    {fade fade' : Bool} {colors colors' : List RGBColor} {indexes indexes' : List UInt16}
    {tid tid' : UInt8} (hcolors : colors.length ≤ 255) (hindexes : indexes.length ≤ 65535)
    (hcolors' : colors'.length ≤ 255) (hindexes' : indexes'.length ≤ 65535)
    (h : (Io.saveCompressedFrameAnimation m animationId fps fade colors indexes tid).1.data =
      (Io.saveCompressedFrameAnimation m' animationId' fps' fade' colors' indexes' tid').1.data) :
    (⟨animationId, fps % 31, fade, colors, indexes⟩ : AnimationData) =
      ⟨animationId', fps' % 31, fade', colors', indexes'⟩ := by
  have hread := (reads_data m animationId fps fade tid hcolors hindexes).all
  rw [h, (reads_data m' animationId' fps' fade' tid' hcolors' hindexes').all] at hread
  exact (congrArg Prod.fst (Option.some.inj hread)).symm

/-- **The data can be read back.**  The reader finds the id, the rate modulo 31, the flag, the palette
    and the indexes, and leaves no byte over. -/
theorem read_animation_data (m : PacketManager) (animationId fps : UInt8) (fade : Bool)
    (colors : List RGBColor) (indexes : List UInt16) (tid : UInt8) (hcolors : colors.length ≤ 255)
    (hindexes : indexes.length ≤ 65535) :
    read (Io.saveCompressedFrameAnimation m animationId fps fade colors indexes tid).1.data =
      some (⟨animationId, fps % 31, fade, colors, indexes⟩, []) :=
  (reads_data m animationId fps fade tid hcolors hindexes).all

/-- Two colours and three frames. -/
theorem read_animation_data_two :
    read (Io.saveCompressedFrameAnimation PacketManager.new 1 40 true [⟨255, 0, 0⟩, ⟨0, 0, 255⟩]
      [0, 1, 256] 2).1.data = some (⟨1, 9, true, [⟨255, 0, 0⟩, ⟨0, 0, 255⟩], [0, 1, 256]⟩, []) :=
  read_animation_data PacketManager.new 1 40 true [⟨255, 0, 0⟩, ⟨0, 0, 255⟩] [0, 1, 256] 2
    (by decide) (by decide)

end AnimationData

end NrfSpheros
