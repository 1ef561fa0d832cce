/-
  `Packet::build` against `Packet::parse_response`.

  1. **Stuffing.**  The escape pairs of `PacketEncoding` are an instance `spheroStuffing` of the
     general scheme of `Theory.Stuffing`; the loop of `build` is its `stuff` (`build_eq`) and
     `unescape_data` its `unstuff`, with the two ways out of the grammar turned into an
     out-of-bounds read and an empty vector (`unescapeData_eq`).
  2. **Header.**  `readFields` undoes `content` up to the fields that the flags do not select
     (`readFields_content`, `norm`), and accepts nothing else (`readFields_eq_ok`): a vector is
     read without an out-of-bounds access exactly when it is as long as its flags ask
     (`readFields_ok_iff`).
  3. **Frames.**  `parse_build` is the round trip; `parse_safe_iff` is the exact condition under
     which `parse_response` stays inside its vectors.
-/
import NrfSpheros.Theory.Stuffing
import NrfSpheros.Controls.Packet

namespace NrfSpheros

open PacketFlags (isResponse hasTargetId hasSourceId)
open PacketEncoding

/-! ## The stuffing scheme of `PacketEncoding` -/

/-- The escape pairs of the Sphero protocol. -/
def spheroStuffing : Stuffing UInt8 where
  esc := escape
  code a :=
    if a = start then some escapedStart
    else if a = end_ then some escapedEnd
    else if a = escape then some escapedEscape
    else none
  decode c :=
    if c = escapedStart then some start
    else if c = escapedEnd then some end_
    else if c = escapedEscape then some escape
    else none
  decode_iff := by
    intro a c
    constructor
    · intro h
      split_ifs at h with h₁ h₂ h₃
      all_goals
        cases h
        subst c
        decide
    · intro h
      split_ifs at h with h₁ h₂ h₃
      all_goals
        cases h
        subst a
        decide
  code_esc := by decide
  code_plain := by
    intro a c h
    split_ifs at h
    all_goals
      cases h
      decide

namespace Packet

/-- A byte is escaped as the scheme says. -/
theorem escapeByte_eq (b : UInt8) : escapeByte b = spheroStuffing.encode b := by
  unfold escapeByte Stuffing.encode spheroStuffing
  simp only
  split_ifs <;> rfl

theorem foldl_append_eq {α β : Type} (f : α → List β) (l : List α) (acc : List β) :
    l.foldl (fun acc a => acc ++ f a) acc = acc ++ l.flatMap f := by
  induction l generalizing acc with
  | nil => simp
  | cons a l ih => rw [List.foldl_cons, ih, List.flatMap_cons, List.append_assoc]

/-- A loop of `push_back`. -/
theorem foldl_push {α : Type} (l acc : List α) :
    l.foldl (fun acc a => acc ++ [a]) acc = acc ++ l := by
  rw [foldl_append_eq (fun a => [a]), List.flatMap_singleton']

/-- The bytes of a packet before stuffing: content and checksum. -/
def unescaped (p : Packet) : List UInt8 := p.content ++ [packetChk p.content]

/-- **`build` is a stuffed body between two delimiters.** -/
theorem build_eq (p : Packet) :
    p.build = start :: (spheroStuffing.stuff p.unescaped ++ [end_]) := by
  show (p.unescaped.foldl (fun escaped byte => escaped ++ escapeByte byte) [start]) ++ [end_] = _
  rw [foldl_append_eq, funext escapeByte_eq]
  rfl

/-- A packet has two delimiters, a header of four bytes and a checksum. -/
theorem build_length (p : Packet) : 7 ≤ p.build.length := by
  have hsplit := (Stuffing.splits_stuff (S := spheroStuffing) p.unescaped).length_le.1
  have hcontent : 4 ≤ p.content.length := by
    unfold content
    split_ifs <;> simp
  rw [build_eq]
  simp only [unescaped, List.length_append, List.length_cons, List.length_nil] at hsplit ⊢
  omega

/-- The `switch` of `unescape_data` is a lookup in the receiver's table. -/
theorem unescapeLoop_pair (acc rest : List UInt8) (c : UInt8) :
    unescapeLoop acc (escape :: c :: rest) =
      match spheroStuffing.decode c with
      | none => .ok []
      | some x => unescapeLoop (acc ++ [x]) rest := by
  rw [unescapeLoop, if_pos rfl]
  unfold spheroStuffing
  simp only
  split_ifs <;> rfl

/-- `unescape_data` is the grammar of the scheme, with the two ways out of it made concrete. -/
theorem unescapeLoop_eq (acc body : List UInt8) :
    unescapeLoop acc body =
      match spheroStuffing.unstuff body with
      | .ok u => .ok (acc ++ u)
      | .error .dangling => .error .outOfBounds
      | .error .unknown => .ok [] := by
  induction body using Stuffing.unstuff.induct (S := spheroStuffing) generalizing acc with
  | case1 => simp [unescapeLoop, Stuffing.unstuff]
  | case2 => simp [unescapeLoop, Stuffing.unstuff, spheroStuffing]
  | case3 a ha =>
    have ha' : a ≠ escape := ha
    simp [unescapeLoop, Stuffing.unstuff, ha, ha']
  | case4 c rest hc =>
    show unescapeLoop acc (escape :: c :: rest) = _
    rw [unescapeLoop_pair, hc, Stuffing.unstuff, if_pos rfl, hc]
  | case5 c rest x hc ih =>
    show unescapeLoop acc (escape :: c :: rest) = _
    rw [unescapeLoop_pair, hc, Stuffing.unstuff, if_pos rfl, hc]
    show unescapeLoop (acc ++ [x]) rest = _
    rw [ih]
    rcases spheroStuffing.unstuff rest with (_ | _) | u <;> simp [Except.map]
  | case6 a c rest ha ih =>
    have ha' : a ≠ escape := ha
    rw [unescapeLoop, if_neg ha', ih, Stuffing.unstuff, if_neg ha]
    rcases spheroStuffing.unstuff (c :: rest) with (_ | _) | u <;> simp [Except.map]

/-- The loop is the decoder of the scheme, but that it forgets what it has after an unknown code. -/
theorem unescapeData_eq (body : List UInt8) :
    unescapeData body =
      match spheroStuffing.unstuff body with
      | .ok u => .ok u
      | .error .dangling => .error .outOfBounds
      | .error .unknown => .ok [] := by
  rw [unescapeData, unescapeLoop_eq]
  rfl

/-- A body that is well formed. -/
theorem unescapeData_of_splits {body u : List UInt8} (h : spheroStuffing.Splits body u) :
    unescapeData body = .ok u := by
  rw [unescapeData_eq, Stuffing.unstuff_eq_ok_iff.mpr h]

/-! ## The header -/

/-- The packet with the fields its flags do not select set to what the parser puts there. -/
def norm (p : Packet) : Packet :=
  { p with
    tid := if p.flags.has hasTargetId then p.tid else 0
    sid := if p.flags.has hasSourceId then p.sid else 0
    err := if p.flags.has isResponse then p.err else PacketError.success }

/-- The number of header bytes that the flags ask for: the flags byte, `did`, `cid`, `seq` and the
    selected optional fields. -/
def headerLength (flags : PacketFlags) : Nat :=
  4 + (flags.has hasTargetId).toNat + (flags.has hasSourceId).toNat + (flags.has isResponse).toNat

/-- The content, field by field. -/
theorem content_eq (p : Packet) :
    p.content = p.flags.bits ::
      ((if p.flags.has hasTargetId then [p.tid] else []) ++
        ((if p.flags.has hasSourceId then [p.sid] else []) ++
          (p.did :: p.cid :: p.seq ::
            ((if p.flags.has isResponse then [p.err.code] else []) ++ p.data)))) := by
  have hdata : ∀ packet : List UInt8,
      (if p.data.length > 0 then packet ++ p.data else packet) = packet ++ p.data := by
    intro packet
    split_ifs with h
    · rfl
    · rw [List.eq_nil_of_length_eq_zero (Nat.eq_zero_of_not_pos h), List.append_nil]
  unfold content
  simp only [hdata]
  split_ifs <;> simp

@[simp] theorem vecAt_zero (b : UInt8) (v : List UInt8) : vecAt (b :: v) 0 = .ok b := rfl

@[simp] theorem vecAt_succ (b : UInt8) (v : List UInt8) (i : Nat) :
    vecAt (b :: v) (i + 1) = vecAt v i := rfl

@[simp] theorem vecAt_nil (i : Nat) : vecAt [] i = .error .outOfBounds := rfl

@[simp] theorem vecErase_one (b : UInt8) (v : List UInt8) : vecErase (b :: v) 1 = .ok v := rfl

@[simp] theorem vecErase_three (a b c : UInt8) (v : List UInt8) :
    vecErase (a :: b :: c :: v) 3 = .ok v := rfl

/-- The parser undoes the content, up to the fields the flags do not select. -/
theorem readFields_content (p : Packet) : readFields p.content = .ok p.norm := by
  rw [content_eq]
  cases ht : p.flags.has hasTargetId <;> cases hs : p.flags.has hasSourceId <;>
    cases hr : p.flags.has isResponse <;>
    simp [readFields, norm, ht, hs, hr, bind, Except.bind, pure, Except.pure]

/-- A packet that has lost its other fields has no more to lose. -/
theorem norm_norm (p : Packet) : p.norm.norm = p.norm := by
  simp only [norm]
  split_ifs <;> rfl

/-- They are not sent. -/
theorem content_norm (p : Packet) : p.norm.content = p.content := by
  rw [content_eq, content_eq]
  cases ht : p.flags.has hasTargetId <;> cases hs : p.flags.has hasSourceId <;>
    cases hr : p.flags.has isResponse <;> simp [norm, ht, hs, hr]

/-- Every vector as long as its flags ask is the content of a packet. -/
theorem exists_content {f : UInt8} {rest : List UInt8}
    (h : headerLength ⟨f⟩ ≤ (f :: rest).length) : ∃ p : Packet, p.content = f :: rest := by
  -- `optional b l h`: one byte is split off `l` when `b` selects the field
  have optional : ∀ (b : Bool) (l : List UInt8), b.toNat ≤ l.length →
      ∃ x l', l = (if b then [x] else []) ++ l' ∧ l'.length + b.toNat = l.length := by
    intro b l hl
    cases b with
    | false => exact ⟨0, l, rfl, rfl⟩
    | true =>
      cases l with
      | nil => exact absurd hl (by decide)
      | cons x l' => exact ⟨x, l', rfl, rfl⟩
  simp only [headerLength, List.length_cons] at h
  obtain ⟨t, l₁, rfl, h₁⟩ := optional (PacketFlags.has ⟨f⟩ hasTargetId) rest (by omega)
  obtain ⟨s, l₂, rfl, h₂⟩ := optional (PacketFlags.has ⟨f⟩ hasSourceId) l₁ (by omega)
  rcases l₂ with _ | ⟨d, _ | ⟨c, _ | ⟨q, l₃⟩⟩⟩
  · simp only [List.length_nil] at h₂; omega
  · simp only [List.length_cons, List.length_nil] at h₂; omega
  · simp only [List.length_cons, List.length_nil] at h₂; omega
  · simp only [List.length_cons] at h₂
    obtain ⟨e, l₄, rfl, -⟩ := optional (PacketFlags.has ⟨f⟩ isResponse) l₃ (by omega)
    exact ⟨{ flags := ⟨f⟩, did := d, cid := c, seq := q, tid := t, sid := s, err := ⟨e⟩, data := l₄ },
      content_eq _⟩

/-- A vector shorter than its flags ask is read out of bounds. -/
theorem readFields_short {f : UInt8} {rest : List UInt8}
    (h : (f :: rest).length < headerLength ⟨f⟩) :
    readFields (f :: rest) = .error .outOfBounds := by
  simp only [headerLength] at h
  cases ht : PacketFlags.has ⟨f⟩ hasTargetId <;> cases hs : PacketFlags.has ⟨f⟩ hasSourceId <;>
    cases hr : PacketFlags.has ⟨f⟩ isResponse <;>
    simp only [ht, hs, hr, Bool.toNat_true, Bool.toNat_false] at h <;>
    -- at most six bytes can follow the flags; a longer `rest` contradicts `h`
    rcases rest with _ | ⟨a, _ | ⟨b, _ | ⟨c, _ | ⟨d, _ | ⟨e, _ | ⟨g, rest⟩⟩⟩⟩⟩⟩ <;>
    simp [readFields, ht, hs, hr, bind, Except.bind, pure, Except.pure] <;>
    (simp only [List.length_cons] at h; omega)

theorem readFields_nil : readFields [] = .error .outOfBounds := rfl

/-- **The parser accepts contents only**, and gives back the packet whose content it was. -/
theorem readFields_eq_ok {v : List UInt8} {q : Packet} (h : readFields v = .ok q) :
    v = q.content ∧ q.norm = q := by
  cases v with
  | nil =>
    rw [readFields_nil] at h
    cases h
  | cons f rest =>
    by_cases hlen : headerLength ⟨f⟩ ≤ (f :: rest).length
    · obtain ⟨p, hp⟩ := exists_content hlen
      rw [← hp, readFields_content, Except.ok.injEq] at h
      rw [← h, content_norm, norm_norm]
      exact ⟨hp.symm, rfl⟩
    · rw [readFields_short (Nat.lt_of_not_le hlen)] at h
      cases h

/-- `v` is as long as its flags byte asks. -/
def HasHeader : List UInt8 → Prop
  | [] => False
  | f :: rest => headerLength ⟨f⟩ ≤ (f :: rest).length

instance : DecidablePred HasHeader
  | [] => inferInstanceAs (Decidable False)
  | f :: rest => inferInstanceAs (Decidable (headerLength ⟨f⟩ ≤ (f :: rest).length))

/-- Reading the fields never throws: it returns or it reads out of bounds, and which of the two
    is a matter of length alone. -/
theorem readFields_cases (v : List UInt8) :
    (HasHeader v ∧ ∃ q, readFields v = .ok q) ∨
      (¬ HasHeader v ∧ readFields v = .error .outOfBounds) := by
  cases v with
  | nil => exact Or.inr ⟨fun h => h, rfl⟩
  | cons f rest =>
    by_cases hlen : headerLength ⟨f⟩ ≤ (f :: rest).length
    · obtain ⟨p, hp⟩ := exists_content hlen
      exact Or.inl ⟨hlen, p.norm, hp ▸ readFields_content p⟩
    · exact Or.inr ⟨hlen, readFields_short (Nat.lt_of_not_le hlen)⟩

/-! ## Frames -/

/-- `parse_response` after the unescaping: the checksum test and the header. -/
def checkFields (unescaped : List UInt8) : Except Fault Packet := do
  let checksum ← vecAt unescaped (unescaped.length - 1)
  let unescaped ← vecPopBack unescaped
  if checksum ≠ packetChk unescaped then throw (.runtimeError "Invalid checksum")
  readFields unescaped

/-- What `parse_response` does with a buffer of two bytes or more, by its delimiters. -/
theorem parseResponse_frame (sop eop : UInt8) (body : List UInt8) :
    parseResponse (sop :: (body ++ [eop])) =
      if sop ≠ start then .error (.runtimeError "Invalid start of packet")
      else if eop ≠ end_ then .error (.runtimeError "Invalid end of packet")
      else unescapeData body >>= checkFields := by
  have heop : vecAt (sop :: (body ++ [eop])) (body.length + 1) = .ok eop := by
    simp [vecAt]
  have hpop : vecPopBack (body ++ [eop]) = .ok body := by
    simp [vecPopBack]
  rw [parseResponse]
  simp only [List.length_cons, List.length_append, List.length_nil, Nat.add_sub_cancel, heop,
    vecAt_zero, vecErase_one, hpop, reduceCtorEq, if_false, bind, Except.bind, throw, throwThe,
    MonadExceptOf.throw]
  split_ifs <;> rfl

/-- The last byte is compared with the checksum of the others. -/
theorem checkFields_concat (v : List UInt8) (c : UInt8) :
    checkFields (v ++ [c]) =
      if c = packetChk v then readFields v else .error (.runtimeError "Invalid checksum") := by
  have hc : vecAt (v ++ [c]) v.length = .ok c := by simp [vecAt]
  have hpop : vecPopBack (v ++ [c]) = .ok v := by simp [vecPopBack]
  simp only [checkFields, List.length_append, List.length_cons, List.length_nil,
    Nat.add_sub_cancel, hc, hpop, bind, Except.bind, throw, throwThe, MonadExceptOf.throw]
  split_ifs <;> simp_all

theorem unescaped_norm (p : Packet) : p.norm.unescaped = p.unescaped := by
  rw [unescaped, content_norm, unescaped]

/-- What `parse_response` makes of a frame that stands for the bytes of a packet. -/
theorem parse_of_splits {body : List UInt8} {p : Packet}
    (h : spheroStuffing.Splits body p.unescaped) :
    parseResponse (start :: (body ++ [end_])) = .ok p.norm := by
  rw [parseResponse_frame, if_neg (by simp), if_neg (by simp), unescapeData_of_splits h]
  show checkFields p.unescaped = _
  rw [unescaped, checkFields_concat, if_pos rfl, readFields_content]

/-- **Round trip of one frame.** -/
theorem parse_build (p : Packet) : parseResponse p.build = .ok p.norm := by
  rw [build_eq]
  exact parse_of_splits (Stuffing.splits_stuff _)

/-- An accepted frame, taken apart: its body splits into the content of the packet and its
    checksum. -/
theorem parse_eq_ok {sop eop : UInt8} {body : List UInt8} {q : Packet}
    (h : parseResponse (sop :: (body ++ [eop])) = .ok q) :
    sop = start ∧ eop = end_ ∧ q.norm = q ∧ spheroStuffing.Splits body q.unescaped := by
  rw [parseResponse_frame] at h
  split_ifs at h with hs he
  rw [not_not] at hs he
  refine ⟨hs, he, ?_⟩
  rw [unescapeData_eq] at h
  rcases hu : spheroStuffing.unstuff body with (_ | _) | u
  · rw [hu] at h
    cases h
  · rw [hu] at h
    cases h
  · rw [hu] at h
    replace h : checkFields u = .ok q := h
    rcases List.eq_nil_or_concat u with rfl | ⟨v, c, rfl⟩
    · cases h
    · rw [List.concat_eq_append, checkFields_concat] at h
      split_ifs at h with hc
      obtain ⟨rfl, hq⟩ := readFields_eq_ok h
      refine ⟨hq, ?_⟩
      rw [unescaped, ← hc, ← List.concat_eq_append]
      exact Stuffing.unstuff_eq_ok_iff.mp hu

/-- The header is read if the checksum is right. -/
theorem checkFields_safe_iff (v : List UInt8) (c : UInt8) :
    checkFields (v ++ [c]) ≠ .error .outOfBounds ↔ (c = packetChk v → HasHeader v) := by
  rw [checkFields_concat]
  by_cases hc : c = packetChk v
  · rw [if_pos hc]
    rcases readFields_cases v with ⟨hv, q, hq⟩ | ⟨hv, herr⟩
    · rw [hq]
      exact ⟨fun _ _ => hv, fun _ h => by cases h⟩
    · rw [herr]
      exact ⟨fun h => absurd rfl h, fun h => absurd (h hc) hv⟩
  · rw [if_neg hc]
    exact ⟨fun _ h => absurd h hc, fun _ h => by cases h⟩

/-- Unescaping and the tests after it stay in bounds exactly on a body that splits into a
    checksum and what it is the checksum of, with a header as long as its flags ask. -/
theorem unescape_safe_iff (body : List UInt8) :
    unescapeData body >>= checkFields ≠ .error .outOfBounds ↔
      ∃ u c, spheroStuffing.Splits body (u ++ [c]) ∧ (c = packetChk u → HasHeader u) := by
  rw [unescapeData_eq]
  constructor
  · intro h
    rcases hu : spheroStuffing.unstuff body with (_ | _) | u
    · rw [hu] at h
      exact absurd rfl h
    · rw [hu] at h
      exact absurd rfl h
    · rw [hu] at h
      replace h : checkFields u ≠ .error .outOfBounds := h
      rcases List.eq_nil_or_concat u with rfl | ⟨v, c, rfl⟩
      · exact absurd rfl h
      · rw [List.concat_eq_append] at h hu
        exact ⟨v, c, Stuffing.unstuff_eq_ok_iff.mp hu, (checkFields_safe_iff v c).mp h⟩
  · rintro ⟨u, c, hsplit, hheader⟩
    rw [Stuffing.unstuff_eq_ok_iff.mpr hsplit]
    show checkFields (u ++ [c]) ≠ .error .outOfBounds
    exact (checkFields_safe_iff u c).mpr hheader

/-- A buffer that `parse_response` can parse without leaving its vectors: if its two delimiters
    are right, its body splits completely, into a checksum and what it is the checksum of, and if
    the checksum is right, what it is of is as long as its flags byte asks. -/
def FrameSafe (bs : List UInt8) : Prop :=
  ∀ body, bs = start :: (body ++ [end_]) →
    ∃ u c, spheroStuffing.Splits body (u ++ [c]) ∧ (c = packetChk u → HasHeader u)

/-- A buffer of two bytes or more has two delimiters. -/
theorem exists_delimiters {bs : List UInt8} (h : 2 ≤ bs.length) :
    ∃ sop body eop, bs = sop :: (body ++ [eop]) := by
  cases bs with
  | nil => simp at h
  | cons sop rest =>
    rcases List.eq_nil_or_concat rest with rfl | ⟨body, eop, rfl⟩
    · simp at h
    · exact ⟨sop, body, eop, by rw [List.concat_eq_append]⟩

/-- **The exact condition for staying in bounds**, on every buffer with room for two
    delimiters. -/
theorem parse_safe_iff {bs : List UInt8} (hlen : 2 ≤ bs.length) :
    parseResponse bs ≠ .error .outOfBounds ↔ FrameSafe bs := by
  obtain ⟨sop, body, eop, rfl⟩ := exists_delimiters hlen
  have hframe : ∀ b, sop :: (body ++ [eop]) = start :: (b ++ [end_]) ↔
      sop = start ∧ body = b ∧ eop = end_ := by
    intro b
    simp
  rw [parseResponse_frame]
  simp only [FrameSafe, hframe]
  by_cases hs : sop = start
  · by_cases he : eop = end_
    · rw [if_neg (not_not.mpr hs), if_neg (not_not.mpr he), unescape_safe_iff]
      constructor
      · rintro h b ⟨-, rfl, -⟩
        exact h
      · exact fun h => h body ⟨hs, rfl, he⟩
    · rw [if_neg (not_not.mpr hs), if_pos he]
      exact ⟨fun _ b hb => absurd hb.2.2 he, fun _ h => by cases h⟩
  · rw [if_pos hs]
    exact ⟨fun _ b hb => absurd hb.1 hs, fun _ h => by cases h⟩

end Packet

end NrfSpheros
