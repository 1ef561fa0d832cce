/-
  The sender and the receiver together: `Packet::build`, cut into notifications anyhow, against
  `PacketCollector::add_packet`.

  `call_frames` is the round trip on an uncut stream, an induction over the packets with
  `call_build` as its step; `Chunked.calls_eq_call` makes the cutting invisible.
-/
import NrfSpheros.Controls.PacketCollector
import NrfSpheros.Controls.PacketManager

namespace NrfSpheros

namespace PacketCollector

/-- The frames of a list of packets, uncut: one parse a frame, each returning the packet. -/
theorem call_frames (ps : List Packet) :
    Chunked.call addByte new (ps.map Packet.build).flatten =
      ⟨new, ps.map fun p => ⟨p.build, .ok p.norm⟩, none⟩ := by
  induction ps with
  | nil => rfl
  | cons p ps ih =>
    have hp := call_build p
    rw [List.map_cons, List.flatten_cons, Chunked.call_append (by rw [hp]), hp, ih]
    rfl

theorem callbacks_frames (ps : List Packet) :
    callbacks (ps.map fun p => ⟨p.build, .ok p.norm⟩) = ps.map Packet.norm := by
  induction ps with
  | nil => rfl
  | cons p ps ih =>
    rw [List.map_cons, List.map_cons, ← ih]
    rfl

/-- The packets that come out of a cut stream. -/
theorem callbacks_stream {ps : List Packet} {chunks : List Chunk}
    (hs : stream chunks = (ps.map Packet.build).flatten) :
    callbacks (session new chunks).out = ps.map Packet.norm := by
  have hframes := call_frames ps
  rw [← hs] at hframes
  have hsession : session new chunks = Chunked.call addByte new (stream chunks) := by
    apply Chunked.calls_eq_call Exit.fatal
    show (Chunked.call addByte new (stream chunks)).exit = none
    rw [hframes]
  rw [hsession, hframes]
  exact callbacks_frames ps

/-- **Stream round trip.**  However the frames of a list of packets are cut into notifications,
    the collector parses each frame once, every parse returns, the callback gets the packets in
    order, and nothing is left over; and a packet made by `Commands::encode` comes back field for
    field. -/
theorem stream_round_trip :
    (∀ (ps : List Packet) (chunks : List Chunk),
      stream chunks = (ps.map Packet.build).flatten →
        callbacks (session new chunks).out = ps.map Packet.norm ∧
          session new chunks = ⟨new, ps.map fun p => ⟨p.build, .ok p.norm⟩, none⟩) ∧
    ∀ (m : PacketManager) (did cid tid : UInt8) (data : List UInt8),
      (Commands.encode m did cid tid data).1.norm = (Commands.encode m did cid tid data).1 := by
  refine ⟨fun ps chunks hs => ?_, Commands.encode_norm⟩
  have hframes := call_frames ps
  rw [← hs] at hframes
  have hsession : session new chunks = Chunked.call addByte new (stream chunks) :=
    Chunked.calls_eq_call Exit.fatal (by
      show (Chunked.call addByte new (stream chunks)).exit = none
      rw [hframes])
  rw [hsession, hframes]
  exact ⟨callbacks_frames ps, rfl⟩

/-- Two packets, the second with special bytes in its data, cut inside an escape pair. -/
theorem stream_round_trip_two :
    let p : Packet := { wakePacket with seq := 1, data := [0x8D, 0xAB] }
    callbacks (session new
        [⟨wakePacket.build ++ p.build.take 7, by decide⟩, ⟨p.build.drop 7, by decide⟩]).out
      = [wakePacket, p] :=
  (stream_round_trip.1 [wakePacket, { wakePacket with seq := 1, data := [0x8D, 0xAB] }] _
    (by decide)).1

end PacketCollector

end NrfSpheros
