/-
  Reading bytes back.

  A reader takes what it needs from the front of a list of bytes and leaves the rest.  `Reads r bs x`:
  it takes exactly `bs`, whatever follows, and makes `x` of it.  So a format can be read section by
  section, and `Reads.bind` puts the sections together; a section of many elements behind their number
  is `Reads.times`.

  Sixteen-bit words go high byte first (`highFirst`), and `joinBytes` undoes that.
-/
import Mathlib.Data.List.Basic

namespace Wire

variable {α β : Type}

/-- A reader, which may find too few bytes. -/
abbrev Reader := StateT (List UInt8) Option

/-- `r` takes `bs` and returns `x`. -/
def Reads (r : Reader α) (bs : List UInt8) (x : α) : Prop :=
  ∀ rest, r (bs ++ rest) = some (x, rest)

theorem reads_pure (x : α) : Reads (pure x) [] x := fun _ => rfl

/-- **One section after another.** -/
theorem Reads.bind {r : Reader α} {f : α → Reader β} {bs cs : List UInt8} {x : α} {y : β}
    (h : Reads r bs x) (h' : Reads (f x) cs y) : Reads (r >>= f) (bs ++ cs) y := by
  intro rest
  show (r (bs ++ cs ++ rest) >>= fun p => f p.1 p.2) = _
  rw [List.append_assoc, h (cs ++ rest)]
  exact h' rest

/-- The bytes are taken to the last one. -/
theorem Reads.all {r : Reader α} {bs : List UInt8} {x : α} (h : Reads r bs x) :
    r bs = some (x, []) := by
  have hnil := h []
  rwa [List.append_nil] at hnil

/-- What a reader makes of a list that it takes to the last byte. -/
def whole (r : Reader α) (bs : List UInt8) : Option α :=
  match r bs with
  | some (x, []) => some x
  | _ => none

theorem Reads.whole {r : Reader α} {bs : List UInt8} {x : α} (h : Reads r bs x) :
    Wire.whole r bs = some x := by
  simp only [Wire.whole, h.all]

/-- The next byte. -/
def byte : Reader UInt8
  | [] => none
  | b :: rest => some (b, rest)

theorem reads_byte (b : UInt8) : Reads byte [b] b := fun _ => rfl

/-- `n` elements. -/
def times (r : Reader α) : Nat → Reader (List α)
  | 0 => pure []
  | n + 1 => do
    let x ← r
    let xs ← times r n
    pure (x :: xs)

/-- **As many elements as were written.** -/
theorem Reads.times {r : Reader α} {encode : α → List UInt8} (h : ∀ x, Reads r (encode x) x)
    (l : List α) : Reads (times r l.length) (l.flatMap encode) l := by
  induction l with
  | nil => exact reads_pure []
  | cons x l ih =>
    rw [List.flatMap_cons, ← List.append_nil (l.flatMap encode)]
    exact (h x).bind (ih.bind (reads_pure (x :: l)))

/-- A number, and as many elements. -/
theorem Reads.counted {γ : Type} {count : Reader γ} {size : γ → Nat} {n : γ} {bs : List UInt8}
    {r : Reader α} {encode : α → List UInt8} {l : List α} (hn : Reads count bs n)
    (hsize : size n = l.length) (h : ∀ x, Reads r (encode x) x) :
    Reads (count >>= fun n => Wire.times r (size n)) (bs ++ l.flatMap encode) l := by
  apply hn.bind
  rw [hsize]
  exact Reads.times h l

/-! ## Fields of one width -/

/-- Lists of one length, one after another: the first `i` fill `k * i` places. -/
theorem drop_flatMap {f : α → List β} {k : Nat} (hf : ∀ x, (f x).length = k) (l : List α)
    (i : Nat) : (l.flatMap f).drop (k * i) = (l.drop i).flatMap f := by
  induction i generalizing l with
  | zero => simp
  | succ i ih =>
    cases l with
    | nil => simp
    | cons x l =>
      rw [List.flatMap_cons, List.drop_succ_cons, ← ih l, Nat.mul_succ, Nat.add_comm,
        List.drop_append, hf x]
      simp [hf x]

/-- The `j`-th place of the `i`-th of them. -/
theorem getElem?_flatMap {f : α → List β} {k : Nat} (hf : ∀ x, (f x).length = k) {l : List α}
    {i j : Nat} (hi : i < l.length) (hj : j < k) : (l.flatMap f)[k * i + j]? = (f l[i])[j]? := by
  rw [← List.getElem?_drop, drop_flatMap hf, List.drop_eq_getElem_cons hi, List.flatMap_cons]
  apply List.getElem?_append_left
  rw [hf]
  exact hj

/-! ## Words -/

/-- The two bytes of a word. -/
def highFirst (x : UInt16) : List UInt8 := [(x >>> 8).toUInt8, (x &&& 0xFF).toUInt8]

def joinBytes (high low : UInt8) : UInt16 := (high.toUInt16 <<< 8) ||| low.toUInt16

theorem toNat_high (x : UInt16) : (x >>> 8).toUInt8.toNat = x.toNat / 256 := by
  have hlt := x.toNat_lt
  rw [UInt16.toNat_toUInt8, UInt16.toNat_shiftRight]
  show (x.toNat >>> 8) % 2 ^ 8 = _
  rw [Nat.shiftRight_eq_div_pow]
  omega

theorem toNat_low (x : UInt16) : (x &&& 0xFF).toUInt8.toNat = x.toNat % 256 := by
  rw [UInt16.toNat_toUInt8, UInt16.toNat_and]
  show (x.toNat &&& 2 ^ 8 - 1) % 2 ^ 8 = _
  rw [Nat.and_two_pow_sub_one_eq_mod, Nat.mod_mod]

theorem toNat_joinBytes (high low : UInt8) :
    (joinBytes high low).toNat = high.toNat * 256 + low.toNat := by
  have hhigh := high.toNat_lt
  have hlow := low.toNat_lt
  have h8 : (8 : UInt16).toNat % 16 = 8 := rfl
  have hor : high.toNat * 256 + low.toNat = high.toNat <<< 8 ||| low.toNat := by
    rw [← Nat.shiftLeft_add_eq_or_of_lt hlow, Nat.shiftLeft_eq]
  simp only [joinBytes, UInt16.toNat_or, UInt16.toNat_shiftLeft, UInt8.toNat_toUInt16, h8]
  rw [Nat.mod_eq_of_lt (by rw [Nat.shiftLeft_eq]; omega), ← hor]

/-- **The bytes of a word, joined again, are the word.** -/
theorem joinBytes_highFirst (x : UInt16) :
    joinBytes (x >>> 8).toUInt8 (x &&& 0xFF).toUInt8 = x := by
  rw [← UInt16.toNat_inj, toNat_joinBytes, toNat_high, toNat_low]
  omega

/-- The next word. -/
def word : Reader UInt16 := do
  let high ← byte
  let low ← byte
  pure (joinBytes high low)

theorem reads_word (x : UInt16) : Reads word (highFirst x) x := by
  intro rest
  show some (joinBytes (x >>> 8).toUInt8 (x &&& 0xFF).toUInt8, rest) = _
  rw [joinBytes_highFirst]

end Wire
