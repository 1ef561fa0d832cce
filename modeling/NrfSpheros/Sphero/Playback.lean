/-
  What a robot shows of the animations that were registered.

  `register_matrix_animation` sends the frames of an animation one by one, each under its number, and
  then the animation with the numbers of its frames, under a number of its own.  `play_animation` sends
  only that number.

  1. **The player** has the animations that were registered and shows what it is asked for.
  2. **The screen** is a robot that does what the packets say: it keeps frames and animations by their
     numbers, and looks the frames up when it plays.
  3. **The screen shows what the player shows** (`shows_registered`) — over any run of the two methods
     and of commands that are not about frames or animations, as long as the numbers last: 256 frames,
     though `frame_index` has two bytes, and 256 animations.  A frame saved directly under its number
     would be shown in the place of a registered one.
-/
import NrfSpheros.Sphero.Matrix
import NrfSpheros.Sphero.Orders
import NrfSpheros.Theory.Numbered

namespace NrfSpheros

open Numbered

/-! ## The player -/

/-- What is seen of an animation. -/
structure Clip where
  frames : List Frame
  palette : List RGBColor
  fps : UInt8
  fade : Bool

/-- The pixels as indexes into a palette of 16 colours. -/
def Frame.reduce (frame : Frame) : Frame := frame.map fun row => row.map (· % 16)

def Animation.clip (a : Animation) : Clip :=
  ⟨a.frames.map Frame.reduce, a.palette, a.fps % 31, a.transition⟩

/-- A command that is not about frames or animations. -/
abbrev Bystander := { c : Command //
  match c with
  | .saveCompressedFrame _ _ | .saveCompressedFrameAnimation _ _ _ _ _ | .playAnimation _ _ => False
  | _ => True }

/-- A call of a method of the object: one of the two, or of one that is not about frames or animations. -/
inductive MethodCall
  | register (a : Animation)
  | play (animationId : UInt8) (loop : Bool)
  | other (c : Bystander) (tid : UInt8)

/-- The animations that are registered. -/
def registered (calls : List MethodCall) : List Animation :=
  calls.filterMap fun
    | .register a => some a
    | _ => none

structure Player where
  clips : List Clip
  /-- What was shown, if there was such an animation, and whether in a loop. -/
  shown : List (Option Clip × Bool)

namespace Player

def new : Player := ⟨[], []⟩

def next (p : Player) : MethodCall → Player
  | .register a => { p with clips := p.clips ++ [a.clip] }
  | .play animationId loop => { p with shown := p.shown ++ [(p.clips[animationId.toNat]?, loop)] }
  | .other _ _ => p

end Player

/-! ## The screen -/

structure Screen where
  frames : UInt16 → Option Frame
  animations : UInt8 → Option AnimationData
  shown : List (Option Clip × Bool)

namespace Screen

def new : Screen := ⟨fun _ => none, fun _ => none, []⟩

/-- An animation with its frames. -/
def clip (s : Screen) (animationId : UInt8) : Option Clip := do
  let a ← s.animations animationId
  let frames ← a.frameIndexes.mapM s.frames
  pure ⟨frames, a.palette, a.fps, a.fadeAnimation⟩

def follow (s : Screen) : Order → Screen
  | .saveFrame index frame =>
    { s with frames := Function.update s.frames index (some (Frame.decompress frame)) }
  | .saveAnimation a => { s with animations := Function.update s.animations a.animationId (some a) }
  | .playAnimation animationId loop => { s with shown := s.shown ++ [(s.clip animationId, loop)] }
  | _ => s

/-- The packets that are orders, one after the other. -/
def obey (s : Screen) (packets : List Packet) : Screen :=
  (packets.filterMap Order.read).foldl follow s

theorem obey_append (s : Screen) (ps qs : List Packet) : s.obey (ps ++ qs) = (s.obey ps).obey qs := by
  unfold obey
  rw [List.filterMap_append, List.foldl_append]

theorem obey_singleton {s : Screen} {p : Packet} {order : Order} (h : Order.read p = some order) :
    s.obey [p] = s.follow order := by
  unfold obey
  rw [List.filterMap_cons_some h]
  rfl

/-- A bystander changes nothing. -/
theorem follow_bystander (s : Screen) (c : Bystander) : s.follow c.val.order = s := by
  obtain ⟨c, hc⟩ := c
  cases c with
  | saveCompressedFrame | saveCompressedFrameAnimation | playAnimation => exact hc.elim
  | _ => rfl

end Screen

namespace Sphero

/-- A method and the packets it sends. -/
def perform (s : Sphero) : MethodCall → Sphero × List Packet
  | .register a => s.registerMatrixAnimation a
  | .play animationId loop =>
    let r := s.playAnimation animationId loop
    (r.1, [r.2])
  | .other c tid =>
    let r := s.command fun m => c.val.encode m tid
    (r.1, [r.2])

/-- The packets of calls one after the other. -/
def performAll (s : Sphero) : List MethodCall → List Packet
  | [] => []
  | call :: calls =>
    let r := s.perform call
    r.2 ++ performAll r.1 calls

end Sphero

/-! ## What the packets say -/

theorem Frame.decompress_compress_eq (frame : Frame) : decompress frame.compress = frame.reduce := by
  apply Vector.ext
  intro r hr
  apply Vector.ext
  intro c hc
  have hpixel := decompress_compress frame ⟨r, hr⟩ ⟨c, hc⟩
  simp only [Frame.reduce, Vector.getElem_map]
  exact hpixel

theorem toNat_word {n : Nat} (h : n < 256) : (UInt16.ofNat n).toNat = n :=
  UInt16.toNat_ofNat_of_lt' (Nat.lt_trans h (by decide))

/-- Numbers below 256 are not used twice. -/
theorem distinct_word : Distinct UInt16.ofNat 256 := by
  intro i j hi hj h
  have hnat := congrArg UInt16.toNat h
  rwa [toNat_word hi, toNat_word hj] at hnat

theorem distinct_byte : Distinct UInt8.ofNat 256 := by
  intro i j hi hj h
  have hnat := congrArg UInt8.toNat h
  rwa [UInt8.toNat_ofNat_of_lt' hi, UInt8.toNat_ofNat_of_lt' hj] at hnat

/-- The `uint8_t` parameter keeps a number below 256. -/
theorem toUInt16_toUInt8_ofNat {n : Nat} (h : n < 256) :
    (UInt16.ofNat n).toUInt8.toUInt16 = UInt16.ofNat n := by
  rw [← UInt16.toNat_inj, UInt8.toNat_toUInt16, UInt16.toNat_toUInt8, toNat_word h]
  exact Nat.mod_eq_of_lt h

/-- The packet of one frame. -/
theorem read_saveCompressedFrame {s : Sphero} {n : Nat} (hn : n < 256)
    (hindex : s.frameIndex = UInt16.ofNat n) (bytes : List UInt8) :
    Order.read (s.saveCompressedFrame s.frameIndex.toUInt8 bytes).2 =
      some (.saveFrame (UInt16.ofNat n) bytes) := by
  have hread : Order.read (s.saveCompressedFrame s.frameIndex.toUInt8 bytes).2 =
      some (.saveFrame s.frameIndex.toUInt8.toUInt16 bytes) :=
    Command.read_encode (c := .saveCompressedFrame s.frameIndex.toUInt8 bytes) trivial
      s.packetManager Processors.secondary.toByte
  rw [hread, hindex, toUInt16_toUInt8_ofNat hn]

/-- The loop of `s` after the frames `done`, and a screen `r` that had the frames `xs`. -/
structure Saves (s : Sphero) (r : Screen) (xs done : List Frame) (st : Saving) : Prop where
  frameIndex : st.sphero.frameIndex = UInt16.ofNat (xs.length + done.length)
  animationIndex : st.sphero.animationIndex = s.animationIndex
  indexes : st.frameIndexes = (List.range' xs.length done.length).map UInt16.ofNat
  obeyed : ∃ kept, r.obey st.sent = { r with frames := kept } ∧
    Holds UInt16.ofNat 256 kept (xs ++ done.map Frame.reduce)

/-- **One frame**: it goes under the next number. -/
theorem saves_saveFrame {s : Sphero} {r : Screen} {xs done : List Frame} {st : Saving}
    (h : Saves s r xs done st) (hfew : xs.length + done.length < 256) (frame : Frame) :
    Saves s r xs (done ++ [frame]) (Sphero.saveFrame st frame) := by
  have hlength : (done ++ [frame]).length = done.length + 1 := List.length_append
  have hentries : (xs ++ done.map Frame.reduce).length = xs.length + done.length := by
    rw [List.length_append, List.length_map]
  obtain ⟨kept, hobey, hkept⟩ := h.obeyed
  constructor
  · show st.sphero.frameIndex + 1 = _
    rw [h.frameIndex, hlength, ← Nat.add_assoc]
    exact (UInt16.ofNat_add _ _).symm
  · exact h.animationIndex
  · show st.frameIndexes ++ [st.sphero.frameIndex] = _
    rw [h.indexes, h.frameIndex, hlength, List.range'_1_concat, List.map_append, List.map_singleton]
  · refine ⟨Function.update kept (UInt16.ofNat (xs.length + done.length)) (some frame.reduce), ?_, ?_⟩
    · show r.obey (st.sent ++ [_]) = _
      rw [Screen.obey_append, hobey,
        Screen.obey_singleton (read_saveCompressedFrame hfew h.frameIndex frame.compress),
        ← Frame.decompress_compress_eq]
      rfl
    · have hput := hkept.put distinct_word (by rw [hentries]; exact hfew) frame.reduce
      rw [hentries] at hput
      rw [List.map_append, List.map_singleton, ← List.append_assoc]
      exact hput

/-- The whole loop: the induction is on the frames to go. -/
theorem saves_foldl {s : Sphero} {r : Screen} {xs : List Frame} (frames : List Frame) :
    ∀ {done : List Frame} {st : Saving}, Saves s r xs done st →
      xs.length + (done.length + frames.length) ≤ 256 →
      Saves s r xs (done ++ frames) (frames.foldl Sphero.saveFrame st) := by
  induction frames with
  | nil =>
    intro done st h _
    rw [List.append_nil]
    exact h
  | cons frame frames ih =>
    intro done st h hfew
    rw [List.length_cons] at hfew
    rw [List.append_cons]
    apply ih (saves_saveFrame h (by omega) frame)
    rw [List.length_append, List.length_singleton]
    omega

/-! ## The screen shows what the player shows -/

/-- The numbers of an animation are those of its frames. -/
structure Plays (xs : List Frame) (a : AnimationData) (c : Clip) : Prop where
  frames : ∃ base, a.frameIndexes = (List.range' base c.frames.length).map UInt16.ofNat ∧
    base + c.frames.length ≤ xs.length ∧ (xs.drop base).take c.frames.length = c.frames
  palette : a.palette = c.palette
  fps : a.fps = c.fps
  fade : a.fadeAnimation = c.fade

/-- More frames do not change an animation. -/
theorem Plays.append {xs : List Frame} {a : AnimationData} {c : Clip} (h : Plays xs a c)
    (ys : List Frame) : Plays (xs ++ ys) a c := by
  obtain ⟨base, hindexes, hbase, hframes⟩ := h.frames
  refine ⟨⟨base, hindexes, ?_, ?_⟩, h.palette, h.fps, h.fade⟩
  · rw [List.length_append]
    omega
  · rw [take_drop_append hbase, hframes]

/-- The object, the screen and the player after the same calls: the screen has the frames `xs` and the
    animations `ds`, which are the player's. -/
structure Follows (s : Sphero) (r : Screen) (p : Player) (xs : List Frame)
    (ds : List AnimationData) : Prop where
  frameIndex : s.frameIndex = UInt16.ofNat xs.length
  animationIndex : s.animationIndex = UInt8.ofNat ds.length
  frames : Holds UInt16.ofNat 256 r.frames xs
  animations : Holds UInt8.ofNat 256 r.animations ds
  few : xs.length ≤ 256
  clips : List.Forall₂ (Plays xs) ds p.clips
  shown : r.shown = p.shown

theorem follows_new (id : UInt8) : Follows (Sphero.create id) Screen.new Player.new [] [] where
  frameIndex := rfl
  animationIndex := rfl
  frames := holds_nil
  animations := holds_nil
  few := Nat.zero_le _
  clips := List.Forall₂.nil
  shown := rfl

namespace Follows

variable {s : Sphero} {r : Screen} {p : Player} {xs : List Frame} {ds : List AnimationData}

/-- The screen finds the frames of every animation. -/
theorem clip (h : Follows s r p xs ds) (animationId : UInt8) :
    r.clip animationId = p.clips[animationId.toNat]? := by
  have hfound : r.animations animationId = ds[animationId.toNat]? := by
    have hheld := h.animations animationId.toNat animationId.toNat_lt
    rwa [UInt8.ofNat_toNat] at hheld
  have hsame := h.clips.length_eq
  rcases Nat.lt_or_ge animationId.toNat ds.length with hlt | hge
  · have hlt' : animationId.toNat < p.clips.length := hsame ▸ hlt
    have hplays : Plays xs ds[animationId.toNat] p.clips[animationId.toNat] :=
      h.clips.get hlt hlt'
    obtain ⟨base, hindexes, hbase, hframes⟩ := hplays.frames
    have hlook : ds[animationId.toNat].frameIndexes.mapM r.frames =
        some p.clips[animationId.toNat].frames := by
      rw [hindexes, h.frames.mapM_range' hbase h.few, hframes]
    show (r.animations animationId).bind (fun a => (a.frameIndexes.mapM r.frames).bind fun frames =>
      some (⟨frames, a.palette, a.fps, a.fadeAnimation⟩ : Clip)) = _
    rw [hfound, List.getElem?_eq_getElem hlt, List.getElem?_eq_getElem hlt', Option.bind_some, hlook,
      Option.bind_some, hplays.palette, hplays.fps, hplays.fade]
  · rw [List.getElem?_eq_none hge] at hfound
    rw [List.getElem?_eq_none (hsame ▸ hge), Screen.clip, hfound]
    rfl

/-- **A registered animation**: its frames, and then the animation that names them. -/
theorem register (h : Follows s r p xs ds) {a : Animation}
    (hframes : xs.length + a.frames.length ≤ 256) (hanimations : ds.length < 256)
    (hpalette : a.palette.length ≤ 255) :
    ∃ d, Follows (s.registerMatrixAnimation a).1 (r.obey (s.registerMatrixAnimation a).2)
      (p.next (.register a)) (xs ++ a.frames.map Frame.reduce) (ds ++ [d]) := by
  have hstart : Saves s r xs [] ⟨s, [], []⟩ := by
    refine ⟨h.frameIndex, rfl, rfl, r.frames, rfl, ?_⟩
    rw [List.map_nil, List.append_nil]
    exact h.frames
  -- the loop over the frames
  have hsaves : Saves s r xs a.frames (s.saving a) :=
    saves_foldl a.frames hstart (by rw [List.length_nil, Nat.zero_add]; exact hframes)
  obtain ⟨kept, hobey, hkept⟩ := hsaves.obeyed
  let d : AnimationData := ⟨s.animationIndex, a.fps % 31, a.transition, a.palette,
    (List.range' xs.length a.frames.length).map UInt16.ofNat⟩
  -- the command after it names the frames by the indexes of the loop
  have hread : Order.read ((s.saving a).sphero.saveCompressedFrameAnimation a.fps a.transition
      a.palette (s.saving a).frameIndexes).2 = some (.saveAnimation d) := by
    have hcommand : Order.read ((s.saving a).sphero.saveCompressedFrameAnimation a.fps a.transition
        a.palette (s.saving a).frameIndexes).2 = some (.saveAnimation
          ⟨(s.saving a).sphero.animationIndex, a.fps % 31, a.transition, a.palette,
            (s.saving a).frameIndexes⟩) := by
      refine Command.read_encode (c := .saveCompressedFrameAnimation
        (s.saving a).sphero.animationIndex a.fps a.transition a.palette (s.saving a).frameIndexes)
        ⟨hpalette, ?_⟩ (s.saving a).sphero.packetManager Processors.secondary.toByte
      rw [hsaves.indexes, List.length_map, List.length_range']
      omega
    rw [hcommand, hsaves.animationIndex, hsaves.indexes]
  have hscreen : r.obey (s.registerMatrixAnimation a).2 = { r with
      frames := kept
      animations := Function.update r.animations s.animationIndex (some d) } := by
    show r.obey ((s.saving a).sent ++ [((s.saving a).sphero.saveCompressedFrameAnimation a.fps
      a.transition a.palette (s.saving a).frameIndexes).2]) = _
    rw [Screen.obey_append, hobey, Screen.obey_singleton hread]
    rfl
  refine ⟨d, ?_⟩
  rw [hscreen]
  constructor
  · show (s.saving a).sphero.frameIndex = _
    rw [hsaves.frameIndex, List.length_append, List.length_map]
  · show (s.saving a).sphero.animationIndex + 1 = _
    rw [hsaves.animationIndex, h.animationIndex, List.length_append, List.length_singleton]
    exact (UInt8.ofNat_add _ _).symm
  · exact hkept
  · show Holds UInt8.ofNat 256 (Function.update r.animations s.animationIndex (some d)) _
    rw [h.animationIndex]
    exact h.animations.put distinct_byte hanimations d
  · rw [List.length_append, List.length_map]
    exact hframes
  · apply List.rel_append (h.clips.imp fun _ _ hplays => hplays.append _)
    refine List.Forall₂.cons ⟨⟨xs.length, ?_, ?_, ?_⟩, rfl, rfl, rfl⟩ List.Forall₂.nil
    · show d.frameIndexes = (List.range' xs.length (a.frames.map Frame.reduce).length).map _
      rw [List.length_map]
    · rw [List.length_append]
      exact Nat.le_refl _
    · show ((xs ++ a.frames.map Frame.reduce).drop xs.length).take (a.frames.map Frame.reduce).length = _
      rw [List.drop_left, List.take_length]
      rfl
  · exact h.shown

/-- An animation is played. -/
theorem play (h : Follows s r p xs ds) (animationId : UInt8) (loop : Bool) :
    Follows (s.playAnimation animationId loop).1 (r.obey [(s.playAnimation animationId loop).2])
      (p.next (.play animationId loop)) xs ds := by
  have hread : Order.read (s.playAnimation animationId loop).2 =
      some (.playAnimation animationId loop) :=
    Command.read_encode (c := .playAnimation animationId loop) trivial s.packetManager
      Processors.secondary.toByte
  rw [Screen.obey_singleton hread]
  refine ⟨h.frameIndex, h.animationIndex, h.frames, h.animations, h.few, h.clips, ?_⟩
  show r.shown ++ [(r.clip animationId, loop)] = _
  rw [h.clip, h.shown]
  rfl

/-- A command that is not about frames or animations. -/
theorem other (h : Follows s r p xs ds) (c : Bystander) (tid : UInt8) :
    Follows (s.perform (.other c tid)).1 (r.obey (s.perform (.other c tid)).2) p xs ds := by
  have hfits : c.val.Fits := by
    obtain ⟨c, hc⟩ := c
    cases c with
    | saveCompressedFrameAnimation => exact hc.elim
    | _ => trivial
  have hread : Order.read (s.command fun m => c.val.encode m tid).2 = some c.val.order :=
    Command.read_encode hfits s.packetManager tid
  show Follows (s.command fun m => c.val.encode m tid).1
    (r.obey [(s.command fun m => c.val.encode m tid).2]) p xs ds
  rw [Screen.obey_singleton hread, Screen.follow_bystander]
  exact ⟨h.frameIndex, h.animationIndex, h.frames, h.animations, h.few, h.clips, h.shown⟩

/-- **The whole run**: the induction is on the calls. -/
theorem performAll {calls : List MethodCall} (h : Follows s r p xs ds)
    (hframes : xs.length + Sphero.totalFrames (registered calls) ≤ 256)
    (hanimations : ds.length + (registered calls).length ≤ 256)
    (hpalette : ∀ a ∈ registered calls, a.palette.length ≤ 255) :
    (r.obey (s.performAll calls)).shown = (calls.foldl Player.next p).shown := by
  induction calls generalizing s r p xs ds with
  | nil => exact h.shown
  | cons call calls ih =>
    rw [Sphero.performAll, Screen.obey_append, List.foldl_cons]
    cases call with
    | register a =>
      have hcons : registered (.register a :: calls) = a :: registered calls := rfl
      rw [hcons, Sphero.totalFrames, List.map_cons, List.sum_cons] at hframes
      rw [hcons, List.length_cons] at hanimations
      rw [hcons] at hpalette
      obtain ⟨d, hd⟩ := h.register (by omega) (by omega) (hpalette a List.mem_cons_self)
      refine ih hd ?_ ?_ fun b hb => hpalette b (List.mem_cons_of_mem a hb)
      · rw [List.length_append, List.length_map, Sphero.totalFrames]
        omega
      · rw [List.length_append, List.length_singleton]
        omega
    | play animationId loop => exact ih (h.play animationId loop) hframes hanimations hpalette
    | other c tid => exact ih (h.other c tid) hframes hanimations hpalette

end Follows

/-! ## On the wire -/

theorem norm_foldl {frames : List Frame} {st : Saving} (h : st.sent.map Packet.norm = st.sent) :
    (frames.foldl Sphero.saveFrame st).sent.map Packet.norm =
      (frames.foldl Sphero.saveFrame st).sent := by
  induction frames generalizing st with
  | nil => exact h
  | cons frame frames ih =>
    apply ih
    show (st.sent ++ [_]).map Packet.norm = _
    rw [List.map_append, h, List.map_singleton, Sphero.saveCompressedFrame, Sphero.command,
      Io.saveCompressedFrame, Commands.encode_norm]
    rfl

/-- No packet has fields that its flags do not select. -/
theorem norm_performAll (s : Sphero) (calls : List MethodCall) :
    (s.performAll calls).map Packet.norm = s.performAll calls := by
  induction calls generalizing s with
  | nil => rfl
  | cons call calls ih =>
    have hcall : (s.perform call).2.map Packet.norm = (s.perform call).2 := by
      cases call with
      | register a =>
        have hsent : (s.saving a).sent.map Packet.norm = (s.saving a).sent := norm_foldl rfl
        show ((s.saving a).sent ++ [_]).map Packet.norm = _
        rw [List.map_append, hsent]
        exact congrArg (fun p => (s.saving a).sent ++ [p]) (Commands.encode_norm _ _ _ _ _)
      | play animationId loop =>
        exact congrArg (fun p => [p]) (Commands.encode_norm _ _ _ _ _)
      | other c tid => exact congrArg (fun p => [p]) (Command.encode_norm c.val s.packetManager tid)
    rw [Sphero.performAll, List.map_append, hcall, ih]

/-- **The screen shows what the player shows.**  `register_matrix_animation` and `play_animation` of one
    object are called in any order, with commands in between that are not about frames or animations;
    what they send goes as one stream, cut anyhow.  Who collects it, and keeps and plays what the packets
    say, shows in every place the animation that was registered under that number, or none if there was
    none: as long as no more than 256 frames and 256 animations are registered, of palettes whose size
    fits its byte. -/
theorem shows_registered (id : UInt8) {calls : List MethodCall} {chunks : List Chunk}
    (hframes : Sphero.totalFrames (registered calls) ≤ 256)
    (hanimations : (registered calls).length ≤ 256)
    (hpalette : ∀ a ∈ registered calls, a.palette.length ≤ 255)
    (hs : stream chunks = (((Sphero.create id).performAll calls).map Packet.build).flatten) :
    (Screen.new.obey (callbacks (PacketCollector.session PacketCollector.new chunks).out)).shown =
      (calls.foldl Player.next Player.new).shown := by
  rw [PacketCollector.callbacks_stream hs, norm_performAll]
  apply (follows_new id).performAll
  · rw [List.length_nil, Nat.zero_add]
    exact hframes
  · rw [List.length_nil, Nat.zero_add]
    exact hanimations
  · exact hpalette

/-- An animation of one frame is registered and played, and another one is not there. -/
def played : List MethodCall :=
  [.register ⟨[Frame.diagonals], [⟨255, 0, 0⟩], 40, true⟩, .play 0 true, .play 1 false]

theorem shows_registered_played :
    let sent := (((Sphero.create 0).performAll played).map Packet.build).flatten
    (Screen.new.obey (callbacks (PacketCollector.session PacketCollector.new
        [⟨sent.take 50, by decide⟩, ⟨sent.drop 50, by decide⟩]).out)).shown =
      [(some ⟨[Frame.diagonals.reduce], [⟨255, 0, 0⟩], 9, true⟩, true), (none, false)] :=
  @shows_registered 0 played _ (by decide) (by decide) (by decide) (by decide)

end NrfSpheros
