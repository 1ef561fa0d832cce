/-
  Sequence numbers, and what they keep apart.

  1. **Calls of `new_packet`** — the manager counts modulo 255 and not modulo 256, so `0xFF` is the
     number of no packet (`seq_of_call`), and two packets share an id only if a multiple of 255 calls
     lies between them (`id_eq_iff_of_calls`).
  2. **A Sphero object in use** (`Life`) — the methods that touch the maps and the manager, called in
     any order and with any arguments, as by any number of threads.  One thing restrains the caller:
     `setup_response` is private, and what it is given was made by `new_packet`.  The command thread
     of `System`, with the receive callback, is one such use (`exists_life`).
  3. **Unsolicited packets** — every key of `waiting` is the id of a packet that was made
     (`Numbered`), so none has the low byte `0xFF`, and what arrives with it is dropped.
-/
import NrfSpheros.Sphero.Requests

namespace NrfSpheros

/-! ## Calls of `new_packet` -/

namespace PacketManager

theorem seq_of_call {calls : List Args} {k : Nat} {p : Packet}
    (hp : (new.newPackets calls)[k]? = some p) : p.seq.toNat = k % 255 := by
  rw [newPackets_seq (n := 0) rfl hp, Nat.zero_add]

end PacketManager

namespace Packet

/-- A sequence number the manager gives out. -/
theorem seq_ne_of_mod {p : Packet} {k : Nat} (h : p.seq.toNat = k % 255) : p.seq ≠ 0xFF := by
  intro hseq
  rw [hseq] at h
  have hlt : k % 255 < 255 := Nat.mod_lt k (by decide)
  exact absurd h (Nat.ne_of_gt hlt)

/-- The low byte of an id is the sequence number. -/
theorem id_mod (p : Packet) : p.id.toNat % 256 = p.seq.toNat := by
  have hseq := p.seq.toNat_lt
  rw [id_toNat]
  omega

theorem id_eq_iff_of_calls {p q : Packet} {i j : Nat} (hij : i < j) (hp : p.seq.toNat = i % 255)
    (hq : q.seq.toNat = j % 255) :
    p.id = q.id ↔ p.did = q.did ∧ p.cid = q.cid ∧ 255 ∣ j - i := by
  have hseq : p.seq = q.seq ↔ 255 ∣ j - i := by
    rw [← UInt8.toNat_inj, hp, hq]
    omega
  rw [id_eq_iff, hseq]

end Packet

/-! ## A Sphero object in use -/

/-- A Sphero object, and the packets `new_packet` has returned. -/
structure Life where
  sphero : Sphero
  made : List Packet

namespace Life

/-- A call of a method, or a step of one that other threads can see. -/
inductive Call
  | newPacket (did cid tid : UInt8) (data : List UInt8)
  | setupResponse (packet : Packet)
  | handlePacket (packet : Packet)
  | receivedCb (chunk : Chunk)
  | waitForResponse (response : SignalPtr)
  /-- The methods that number frames and animations. -/
  | count (frameIndex : UInt16) (animationIndex : UInt8)

def new (id : UInt8) : Life := ⟨Sphero.create id, []⟩

def step (l : Life) : Call → Option Life
  | .newPacket did cid tid data =>
    let r := l.sphero.packetManager.newPacket did cid tid data
    some ⟨{ l.sphero with packetManager := r.2 }, l.made ++ [r.1]⟩
  | .setupResponse packet =>
    if packet ∈ l.made then some { l with sphero := (l.sphero.setupResponse packet).1 } else none
  | .handlePacket packet => some { l with sphero := l.sphero.handlePacket packet }
  | .receivedCb chunk => some { l with sphero := (l.sphero.receivedCb chunk).1 }
  | .waitForResponse response =>
    some { l with sphero := (l.sphero.waitForResponse response).1 }
  | .count frameIndex animationIndex =>
    some { l with sphero := { l.sphero with frameIndex, animationIndex } }

theorem step_setupResponse {l l' : Life} {p : Packet} (h : l.step (.setupResponse p) = some l') :
    p ∈ l.made ∧ l' = { l with sphero := (l.sphero.setupResponse p).1 } := by
  simp only [step] at h
  split at h
  · exact ⟨‹_›, (Option.some.inj h).symm⟩
  · cases h

/-- The command thread and the object it commands. -/
structure Follows (s : System) (l : Life) : Prop where
  sphero : l.sphero = s.sphero
  current : ∀ {p}, s.thread.current = some p → p ∈ l.made

/-- What the command thread does is calls on the object. -/
theorem follows_step {s s' : System} {l : Life} {e : System.Step} (h : Follows s l)
    (hs : s.step e = some s') : ∃ calls l', Transition.run step l calls = some l' ∧ Follows s' l' := by
  obtain ⟨sphero, made⟩ := l
  obtain ⟨rfl, hcurrent⟩ := h
  cases e with
  | create did cid tid data =>
    obtain ⟨-, rfl⟩ := System.step_create hs
    refine ⟨[.newPacket did cid (if tid ≠ 0 then Commands.nibbleToByte 0x1 tid else tid) data], _,
      rfl, rfl, fun hp => ?_⟩
    rw [← Option.some.inj hp]
    exact List.mem_append_right _ (List.mem_singleton_self _)
  | execute =>
    obtain ⟨p, ht, rfl⟩ := System.step_execute hs
    exact ⟨[], _, rfl, rfl, fun hp => hcurrent (by rw [ht]; exact hp)⟩
  | setup =>
    obtain ⟨p, ht, rfl⟩ := System.step_setup hs
    -- the packet of the request is one the thread has made
    have hmade : p ∈ made := hcurrent (by rw [ht]; rfl)
    refine ⟨[.setupResponse p], ⟨(s.sphero.setupResponse p).1, made⟩, ?_, rfl, fun hp => by cases hp⟩
    rw [Transition.run_cons, step, if_pos hmade]
    rfl
  | finish =>
    obtain ⟨p, -, rfl⟩ := System.step_finish hs
    exact ⟨[], _, rfl, rfl, fun hp => by cases hp⟩
  | receive q =>
    obtain rfl := System.step_receive hs
    exact ⟨[.handlePacket q], _, rfl, rfl, hcurrent⟩
  | wait r =>
    obtain ⟨-, -, rfl⟩ := System.step_wait hs
    exact ⟨[], _, rfl, rfl, fun hp => by cases hp⟩
  | wake =>
    obtain ⟨r, -, rfl⟩ := System.step_wake hs
    exact ⟨[.waitForResponse r.signal], _, rfl, rfl, fun hp => by cases hp⟩

/-- **The command thread is one use of the object.** -/
theorem exists_life {id : UInt8} {es : List System.Step} {s : System}
    (hrun : Transition.run System.step (System.new id) es = some s) :
    ∃ calls l, Transition.run step (new id) calls = some l ∧ l.sphero = s.sphero := by
  have hnew : Follows (System.new id) (new id) := ⟨rfl, fun hp => by cases hp⟩
  obtain ⟨calls, l, hl, hfollows⟩ := Transition.run_refines follows_step hnew hrun
  exact ⟨calls, l, hl, hfollows.sphero⟩

/-! ## Unsolicited packets -/

/-- The packets are numbered in the order they were made, and the object waits for their ids only. -/
structure Numbered (l : Life) : Prop where
  manager : l.sphero.packetManager.seq.toNat = l.made.length % 255
  seq : ∀ {k p}, l.made[k]? = some p → p.seq.toNat = k % 255
  waiting : ∀ {id}, id ∈ l.sphero.waiting → ∃ p ∈ l.made, p.id = id

theorem numbered_new (id : UInt8) : (new id).Numbered where
  manager := rfl
  seq h := by cases h
  waiting h := absurd h Finmap.notMem_empty

/-- A step that makes no packet, leaves the manager alone and adds no key. -/
theorem Numbered.of_waiting {l : Life} (h : l.Numbered) {sphero : Sphero}
    (hm : sphero.packetManager = l.sphero.packetManager)
    (hw : ∀ {id}, id ∈ sphero.waiting → id ∈ l.sphero.waiting) : Numbered ⟨sphero, l.made⟩ where
  manager := by rw [hm]; exact h.manager
  seq := h.seq
  waiting hid := h.waiting (hw hid)

theorem numbered_newPacket {l : Life} (h : l.Numbered) (did cid tid : UInt8) (data : List UInt8) :
    Numbered ⟨{ l.sphero with
      packetManager := (l.sphero.packetManager.newPacket did cid tid data).2 },
      l.made ++ [(l.sphero.packetManager.newPacket did cid tid data).1]⟩ where
  manager := by
    rw [List.length_append, List.length_singleton]
    exact PacketManager.newPacket_next h.manager did cid tid data
  seq := by
    intro k p hp
    rcases Nat.lt_or_ge k l.made.length with hk | hk
    · rw [List.getElem?_append_left hk] at hp
      exact h.seq hp
    · rw [List.getElem?_append_right hk, List.getElem?_singleton] at hp
      split at hp
      · rename_i hlast
        obtain rfl := Option.some.inj hp
        rw [PacketManager.newPacket_seq, h.manager, Nat.le_antisymm (Nat.sub_eq_zero_iff_le.mp hlast) hk]
      · cases hp
  waiting := by
    intro id hid
    obtain ⟨p, hp, heq⟩ := h.waiting hid
    exact ⟨p, List.mem_append_left _ hp, heq⟩

theorem numbered_step {l l' : Life} {c : Call} (h : l.Numbered) (hs : l.step c = some l') :
    l'.Numbered := by
  cases c with
  | newPacket did cid tid data =>
    obtain rfl := Option.some.inj hs
    exact numbered_newPacket h did cid tid data
  | setupResponse p =>
    obtain ⟨hp, rfl⟩ := step_setupResponse hs
    refine { h with waiting := fun {id} hid => ?_ }
    rcases Finmap.mem_insert.mp hid with rfl | hid
    · exact ⟨p, hp, rfl⟩
    · exact h.waiting hid
  | handlePacket q =>
    obtain rfl := Option.some.inj hs
    exact h.of_waiting (l.sphero.handlePacket_packetManager q)
      (fun hid => by rwa [Sphero.handlePacket_waiting] at hid)
  | receivedCb chunk =>
    obtain rfl := Option.some.inj hs
    obtain ⟨hw, hm⟩ := l.sphero.receivedCb_frame chunk
    exact h.of_waiting hm fun hid => by rwa [hw] at hid
  | waitForResponse response =>
    obtain rfl := Option.some.inj hs
    refine h.of_waiting (l.sphero.waitForResponse_packetManager response) fun {id} hid => ?_
    obtain ⟨σ, hσ⟩ := Finmap.mem_iff.mp hid
    exact Finmap.mem_of_lookup_eq_some (Sphero.lookup_of_waitForResponse hσ)
  | count frameIndex animationIndex =>
    obtain rfl := Option.some.inj hs
    exact h.of_waiting rfl fun hid => hid

theorem numbered_reachable {id : UInt8} {calls : List Call} {l : Life}
    (hrun : Transition.run step (new id) calls = some l) : l.Numbered :=
  Transition.invariant numbered_step (numbered_new id) hrun

/-- No key of `waiting` ends in `0xFF`. -/
theorem Numbered.key_ne {l : Life} (h : l.Numbered) {id : UInt32} (hid : id ∈ l.sphero.waiting) :
    id.toNat % 256 ≠ 0xFF := by
  obtain ⟨p, hp, rfl⟩ := h.waiting hid
  obtain ⟨k, hk⟩ := List.mem_iff_getElem?.mp hp
  rw [Packet.id_mod, h.seq hk]
  have hlt : k % 255 < 255 := Nat.mod_lt k (by decide)
  exact Nat.ne_of_lt hlt

/-- **A packet with the sequence number `0xFF` is dropped.** -/
theorem Numbered.handlePacket_eq {l : Life} (h : l.Numbered) {q : Packet} (hq : q.seq = 0xFF) :
    l.sphero.handlePacket q = l.sphero := by
  refine Sphero.handlePacket_of_lookup_none (Finmap.lookup_eq_none.mpr fun hid => ?_)
  apply h.key_ne hid
  rw [Packet.id_mod, hq]
  rfl

/-- **Sequence numbers.**  The packet of call `k` has the number `k` modulo 255, never `0xFF`; two
    packets have one id exactly if device, command and number agree, and the numbers do every 255
    calls.  So a Sphero object, whatever is done to it, waits for no id that ends in `0xFF`, and a
    packet that does changes nothing. -/
theorem sequence_discipline :
    (∀ calls : List PacketManager.Args,
      (PacketManager.new.newPackets calls).length = calls.length ∧
      (∀ k p, (PacketManager.new.newPackets calls)[k]? = some p →
        p.seq.toNat = k % 255 ∧ p.seq ≠ 0xFF) ∧
      ∀ i j p q, i < j → (PacketManager.new.newPackets calls)[i]? = some p →
        (PacketManager.new.newPackets calls)[j]? = some q →
          (p.id = q.id ↔ p.did = q.did ∧ p.cid = q.cid ∧ 255 ∣ j - i)) ∧
    ∀ (id : UInt8) (calls : List Call) (l : Life),
      Transition.run step (new id) calls = some l →
        (∀ k ∈ l.sphero.waiting, k.toNat % 256 ≠ 0xFF) ∧
        ∀ q : Packet, q.seq = 0xFF → l.sphero.handlePacket q = l.sphero := by
  constructor
  · intro calls
    refine ⟨PacketManager.length_newPackets _ calls, fun k p hp => ?_, fun i j p q hij hp hq => ?_⟩
    · have hseq := PacketManager.seq_of_call hp
      exact ⟨hseq, Packet.seq_ne_of_mod hseq⟩
    · exact Packet.id_eq_iff_of_calls hij (PacketManager.seq_of_call hp)
        (PacketManager.seq_of_call hq)
  · intro id calls l hrun
    have h := numbered_reachable hrun
    exact ⟨fun k hk => h.key_ne hk, fun q hq => h.handlePacket_eq hq⟩

/-- The packet of `wake`, number `seq`. -/
def wakeOf (seq : UInt8) : Packet := (PacketManager.newPacket ⟨seq⟩ Power.powerDid 13 0 []).1

/-- A Sphero object that has made its first `wake` packet and waits for the response. -/
def waitingForWake : Sphero :=
  (Sphero.setupResponse { Sphero.create 1 with packetManager := ⟨1⟩ } (wakeOf 0)).1

/-- Two `wake` packets, and what arrives unsolicited while the first is waited for. -/
theorem sequence_discipline_wake :
    ((wakeOf 1).seq.toNat = 1 % 255 ∧ (wakeOf 1).seq ≠ 0xFF) ∧
      ((wakeOf 0).id = (wakeOf 1).id ↔
        (wakeOf 0).did = (wakeOf 1).did ∧ (wakeOf 0).cid = (wakeOf 1).cid ∧ 255 ∣ 1 - 0) ∧
      waitingForWake.handlePacket (wakeOf 0xFF) = waitingForWake := by
  have hcalls := sequence_discipline.1 [⟨Power.powerDid, 13, 0, []⟩, ⟨Power.powerDid, 13, 0, []⟩]
  refine ⟨hcalls.2.1 1 (wakeOf 1) rfl, hcalls.2.2 0 1 _ _ (by decide) rfl rfl, ?_⟩
  have hlife := sequence_discipline.2 1
    [.newPacket Power.powerDid 13 0 [], .setupResponse (wakeOf 0)] ⟨waitingForWake, [wakeOf 0]⟩ rfl
  exact hlife.2 (wakeOf 0xFF) rfl

end Life

end NrfSpheros
