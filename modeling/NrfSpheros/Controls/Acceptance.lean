/-
  Which byte sequences `Packet::parse_response` accepts, and what packet it makes of them.

  1. **Positions** (`fieldsAt`) — the fields of an unescaped frame by their index.  The parser erases
     what it has read from the front of its vector, and reads `err` before it erases; that each field
     is still read at its own index is `fieldsAt_unescaped`.
  2. **Acceptance** (`parse_eq_ok_iff`) — the accepted buffers: two delimiters, a body that splits
     completely, a header as long as its flags ask, the right checksum.
  3. **Canonical frames** (`build_eq_iff`) — the parser does not look for bare delimiters in a body,
     so it accepts frames that `build` does not make; among the buffers that parse to a packet, `build`
     makes the one that has none.
-/
import Mathlib.Algebra.GroupWithZero.Nat
import NrfSpheros.Controls.Codec

namespace NrfSpheros

namespace Packet

open PacketFlags (isResponse hasTargetId hasSourceId)
open PacketEncoding

/-! ## Positions -/

/-- The fields of an unescaped frame by position: an optional field that is there moves those after
    it on by one.  The last byte is the checksum. -/
def fieldsAt (u : List UInt8) : Packet :=
  let flags : PacketFlags := ⟨u.getD 0 0⟩
  let t := (flags.has hasTargetId).toNat
  let s := (flags.has hasSourceId).toNat
  let r := (flags.has isResponse).toNat
  { flags
    tid := if flags.has hasTargetId then u.getD 1 0 else 0
    sid := if flags.has hasSourceId then u.getD (1 + t) 0 else 0
    did := u.getD (1 + t + s) 0
    cid := u.getD (2 + t + s) 0
    seq := u.getD (3 + t + s) 0
    err := if flags.has isResponse then ⟨u.getD (4 + t + s) 0⟩ else PacketError.success
    data := (u.drop (4 + t + s + r)).dropLast }

/-- An unescaped frame has the header its flags byte asks for and ends in its checksum. -/
structure Complete (u : List UInt8) : Prop where
  header : 5 + (PacketFlags.has ⟨u.getD 0 0⟩ hasTargetId).toNat +
    (PacketFlags.has ⟨u.getD 0 0⟩ hasSourceId).toNat +
    (PacketFlags.has ⟨u.getD 0 0⟩ isResponse).toNat ≤ u.length
  checksum : (u.getLastD 0).toNat = 0xff - (u.dropLast.map UInt8.toNat).sum % 256

theorem accumulate_eq (payload : List UInt8) : accumulate payload = (payload.map UInt8.toNat).sum := by
  rw [accumulate, List.sum_eq_foldl, List.foldl_map]

theorem packetChk_toNat (payload : List UInt8) :
    (packetChk payload).toNat = 0xff - (payload.map UInt8.toNat).sum % 256 := by
  have hmask : accumulate payload &&& 0xff = (payload.map UInt8.toNat).sum % 256 := by
    rw [accumulate_eq]
    exact Nat.and_two_pow_sub_one_eq_mod _ 8
  rw [packetChk, hmask, UInt8.toNat_ofNat']
  omega

/-- Each field of a packet stands at its index, if its flags select it. -/
theorem fieldsAt_unescaped (p : Packet) : fieldsAt p.unescaped = p.norm := by
  rw [unescaped, content_eq]
  cases ht : p.flags.has hasTargetId <;> cases hs : p.flags.has hasSourceId <;>
    cases hr : p.flags.has isResponse <;> simp [fieldsAt, norm, ht, hs, hr]

theorem length_content (p : Packet) :
    p.content.length = headerLength p.flags + p.data.length := by
  rw [content_eq, headerLength]
  cases ht : p.flags.has hasTargetId <;> cases hs : p.flags.has hasSourceId <;>
    cases hr : p.flags.has isResponse <;> simp <;> omega

theorem flags_unescaped (p : Packet) : (⟨p.unescaped.getD 0 0⟩ : PacketFlags) = p.flags := by
  rw [unescaped, content_eq]
  rfl

theorem complete_unescaped (p : Packet) : Complete p.unescaped := by
  constructor
  · rw [flags_unescaped, unescaped, List.length_append, length_content, headerLength]
    simp only [List.length_singleton]
    omega
  · rw [unescaped, List.getLastD_concat, List.dropLast_concat]
    exact packetChk_toNat p.content

/-- A complete frame is the content of a packet and its checksum. -/
theorem exists_unescaped {u : List UInt8} (h : Complete u) : ∃ p : Packet, p.unescaped = u := by
  obtain ⟨hheader, hchecksum⟩ := h
  rcases List.eq_nil_or_concat u with rfl | ⟨v, c, rfl⟩
  · exact absurd hheader (by simp)
  · rw [List.concat_eq_append] at hheader hchecksum ⊢
    cases v with
    | nil =>
      simp only [List.nil_append, List.length_singleton] at hheader
      omega
    | cons f rest =>
      have hlen : headerLength ⟨f⟩ ≤ (f :: rest).length := by
        simp only [List.cons_append, List.getD_cons_zero, List.length_cons, List.length_append,
          List.length_nil] at hheader
        simp only [headerLength, List.length_cons]
        omega
      obtain ⟨p, hp⟩ := exists_content hlen
      refine ⟨p, ?_⟩
      have hc : c = packetChk (f :: rest) := by
        rw [List.getLastD_concat, List.dropLast_concat, ← packetChk_toNat] at hchecksum
        exact UInt8.toNat_inj.mp hchecksum
      rw [unescaped, hp, hc]

/-! ## Acceptance -/

/-- **Exact acceptance.** -/
theorem parse_eq_ok_iff {bs : List UInt8} (hlen : 2 ≤ bs.length) (q : Packet) :
    parseResponse bs = .ok q ↔
      ∃ body u, bs = start :: (body ++ [end_]) ∧ spheroStuffing.Splits body u ∧ Complete u ∧
        q = fieldsAt u := by
  constructor
  · intro h
    obtain ⟨sop, body, eop, rfl⟩ := exists_delimiters hlen
    obtain ⟨rfl, rfl, hnorm, hsplit⟩ := parse_eq_ok h
    exact ⟨body, q.unescaped, rfl, hsplit, complete_unescaped q, by rw [fieldsAt_unescaped, hnorm]⟩
  · rintro ⟨body, u, rfl, hsplit, hcomplete, rfl⟩
    obtain ⟨p, rfl⟩ := exists_unescaped hcomplete
    rw [fieldsAt_unescaped]
    exact parse_of_splits hsplit

/-- The answer to the first `wake_with_response`, target and source included. -/
theorem parse_eq_ok_iff_wake :
    ∃ body u, [0x8D, 0x31, 0x12, 0x01, 0x13, 0x0D, 0x00, 0x00, 0x9B, 0xD8] =
        start :: (body ++ [end_]) ∧ spheroStuffing.Splits body u ∧ Complete u ∧
      ⟨⟨0x31⟩, 0x13, 0x0D, 0x00, 0x12, 0x01, ⟨0x00⟩, []⟩ = fieldsAt u :=
  (parse_eq_ok_iff (by decide) _).mp (by decide)

/-! ## Canonical frames -/

/-- No unescaped delimiter stands between the first and the last byte.  The code of a delimiter is
    none, so a delimiter is unescaped wherever it stands. -/
def NoBareDelimiter (bs : List UInt8) : Prop :=
  start ∉ bs.tail.dropLast ∧ end_ ∉ bs.tail.dropLast

instance (bs : List UInt8) : Decidable (NoBareDelimiter bs) :=
  inferInstanceAs (Decidable (_ ∧ _))

theorem special_iff (d : UInt8) :
    spheroStuffing.code d ≠ none ↔ d = start ∨ d = end_ ∨ d = escape := by
  show (if d = start then some escapedStart else if d = end_ then some escapedEnd
    else if d = escape then some escapedEscape else none) ≠ none ↔ _
  split_ifs with h₁ h₂ h₃ <;> simp [*]

/-- A frame is canonical exactly when it has no bare delimiter. -/
theorem stuff_eq_iff {body u : List UInt8} (h : spheroStuffing.Splits body u) :
    spheroStuffing.stuff u = body ↔ start ∉ body ∧ end_ ∉ body := by
  rw [h.stuff_eq_iff]
  constructor
  · intro hbare
    refine ⟨fun hmem => ?_, fun hmem => ?_⟩
    · exact absurd (hbare start hmem (by decide)) (by decide)
    · exact absurd (hbare end_ hmem (by decide)) (by decide)
  · rintro ⟨hstart, hend⟩ d hmem hd
    rcases (special_iff d).mp hd with rfl | rfl | rfl
    · exact absurd hmem hstart
    · exact absurd hmem hend
    · rfl

/-- `pop_back` leaves nothing to return of a single byte. -/
theorem length_of_parse_eq_ok {bs : List UInt8} {q : Packet} (h : parseResponse bs = .ok q) :
    2 ≤ bs.length := by
  rcases bs with _ | ⟨b, _ | ⟨c, rest⟩⟩
  · cases h
  · cases h
  · simp only [List.length_cons]
    omega

theorem build_eq_iff_noBareDelimiter {bs : List UInt8} {q : Packet}
    (h : parseResponse bs = .ok q) : q.build = bs ↔ NoBareDelimiter bs := by
  obtain ⟨sop, body, eop, rfl⟩ := exists_delimiters (length_of_parse_eq_ok h)
  obtain ⟨rfl, rfl, -, hsplit⟩ := parse_eq_ok h
  rw [NoBareDelimiter, List.tail_cons, List.dropLast_concat, ← stuff_eq_iff hsplit, build_eq]
  constructor
  · intro heq
    exact List.append_cancel_right (List.cons.inj heq).2
  · intro heq
    rw [heq]

/-- **Canonical frames.**  An accepted buffer is what `build` makes of its packet exactly when it has
    no bare delimiter, so two buffers without one do not parse to the same packet. -/
theorem build_eq_iff {bs : List UInt8} {q : Packet} (h : parseResponse bs = .ok q) :
    (q.build = bs ↔ NoBareDelimiter bs) ∧
      ∀ bs', parseResponse bs' = .ok q → NoBareDelimiter bs → NoBareDelimiter bs' → bs' = bs := by
  refine ⟨build_eq_iff_noBareDelimiter h, fun bs' h' hbare hbare' => ?_⟩
  rw [← (build_eq_iff_noBareDelimiter h').mpr hbare', (build_eq_iff_noBareDelimiter h).mpr hbare]

/-- A frame that lost no byte. -/
theorem build_eq_iff_wake :
    (Packet.build ⟨⟨0x01⟩, 0x13, 0x0D, 0x00, 0, 0, ⟨0x00⟩, []⟩ =
        [0x8D, 0x01, 0x13, 0x0D, 0x00, 0x00, 0xDE, 0xD8] ↔
      NoBareDelimiter [0x8D, 0x01, 0x13, 0x0D, 0x00, 0x00, 0xDE, 0xD8]) ∧
      ∀ bs', parseResponse bs' = .ok ⟨⟨0x01⟩, 0x13, 0x0D, 0x00, 0, 0, ⟨0x00⟩, []⟩ →
        NoBareDelimiter [0x8D, 0x01, 0x13, 0x0D, 0x00, 0x00, 0xDE, 0xD8] → NoBareDelimiter bs' →
          bs' = [0x8D, 0x01, 0x13, 0x0D, 0x00, 0x00, 0xDE, 0xD8] :=
  build_eq_iff (by decide)

/-- The parser accepts canonical frames only: what it returns is built back to what it read, no
    accepted frame has a bare delimiter, and no packet has two. -/
def AcceptsCanonical : Prop :=
  (∀ bs q, parseResponse bs = .ok q → q.build = bs) ∧
    (∀ bs q, parseResponse bs = .ok q → NoBareDelimiter bs) ∧
    ∀ bs bs' q, parseResponse bs = .ok q → parseResponse bs' = .ok q → bs = bs'

/-- A data byte that is a bare start byte. -/
theorem accepts_bare_start : ¬ AcceptsCanonical := by
  rintro ⟨hbuild, -, -⟩
  have heq := hbuild [0x8D, 0x01, 0x13, 0x0D, 0x00, 0x00, 0x8D, 0x51, 0xD8]
    ⟨⟨0x01⟩, 0x13, 0x0D, 0x00, 0, 0, ⟨0x00⟩, [0x8D]⟩ (by decide)
  exact absurd heq (by decide)

end Packet

end NrfSpheros
