/-
  Byte stuffing over an arbitrary alphabet.

  A `Stuffing` scheme names an escape symbol `esc` and a partial map `code`: a symbol `a` with
  `code a = some c` is *special*, may not stand for itself on the wire, and is sent as the pair
  `esc, c`.  `decode` is the receiver's table, the inverse of `code`.

  1. `stuff` — the sender's encoder, symbol by symbol.
  2. `Splits body u` — the receiver's grammar: `body` falls apart completely into plain symbols
     other than `esc` and pairs `esc, c` with a decodable `c`, and `u` is what they stand for.
     A receiver of this kind is more liberal than the sender: it takes a bare special symbol
     other than `esc` as plain.
  3. `unstuff` — the grammar as a function, which also says why a body falls outside it.

  The results are the ones a frame format rests on: a stuffed word splits back into the word
  (`splits_stuff`), the splitting is unique (`Splits.unique`) and decided by `unstuff`
  (`unstuff_eq_ok_iff`), no delimiter survives stuffing (`not_mem_stuff`) and no escape symbol is left
  without a code (`Splits.code_after_esc`), stuffing costs one symbol for each special one
  (`length_stuff`), of the bodies that stand for one word the stuffed one is the one without bare
  delimiters (`Splits.stuff_eq_iff`), and a body with one symbol overwritten stands for a word with
  one symbol changed, or for one that is longer or shorter by one (`Splits.apart`).
-/
import Mathlib.Data.List.Basic

/-- A stuffing scheme: the escape symbol, the sender's table and the receiver's table. -/
structure Stuffing (α : Type) where
  /-- The escape symbol. -/
  esc : α
  /-- The sender's table: the special symbols and their codes. -/
  code : α → Option α
  /-- The receiver's table. -/
  decode : α → Option α
  /-- The two tables are inverse to each other. -/
  decode_iff : ∀ {a c}, decode c = some a ↔ code a = some c
  /-- The escape symbol is itself special. -/
  code_esc : code esc ≠ none
  /-- A code is not special, so it can stand for itself after `esc`. -/
  code_plain : ∀ {a c}, code a = some c → code c = none

namespace Stuffing

variable {α : Type} (S : Stuffing α)

/-! ## The sender -/

/-- What one symbol is sent as. -/
def encode (a : α) : List α :=
  match S.code a with
  | none => [a]
  | some c => [S.esc, c]

/-- What a word is sent as. -/
def stuff (u : List α) : List α := u.flatMap S.encode

@[simp] theorem stuff_cons (a : α) (u : List α) : S.stuff (a :: u) = S.encode a ++ S.stuff u := by
  simp [stuff]

variable {S}

theorem encode_plain {a : α} (h : S.code a = none) : S.encode a = [a] := by
  simp [encode, h]

theorem encode_special {a c : α} (h : S.code a = some c) : S.encode a = [S.esc, c] := by
  simp [encode, h]

theorem ne_esc_of_plain {a : α} (h : S.code a = none) : a ≠ S.esc := by
  rintro rfl
  exact S.code_esc h

/-- **No delimiter survives.**  A special symbol other than the escape symbol does not occur in a
    stuffed word: not as itself, and not as a code, since codes are plain. -/
theorem not_mem_stuff {d : α} (hd : S.code d ≠ none) (hesc : d ≠ S.esc) (u : List α) :
    d ∉ S.stuff u := by
  intro hmem
  obtain ⟨a, -, ha⟩ := List.mem_flatMap.mp hmem
  cases hc : S.code a with
  | none =>
    rw [encode_plain hc, List.mem_singleton] at ha
    exact hd (ha ▸ hc)
  | some c =>
    rw [encode_special hc] at ha
    rcases List.mem_cons.mp ha with h | h
    · exact hesc h
    · rw [List.mem_singleton] at h
      exact hd (h ▸ S.code_plain hc)

/-- **What stuffing costs**: one symbol for each special one. -/
theorem length_stuff (u : List α) :
    (S.stuff u).length = u.length + u.countP fun a => (S.code a).isSome := by
  induction u with
  | nil => rfl
  | cons a u ih =>
    rw [stuff_cons, List.length_append, ih, List.countP_cons, List.length_cons]
    cases hc : S.code a with
    | none =>
      rw [encode_plain hc]
      simp only [List.length_singleton, Option.isSome_none, Bool.false_eq_true, if_false]
      omega
    | some c =>
      rw [encode_special hc]
      simp only [List.length_cons, List.length_nil, Option.isSome_some, if_true]
      omega

variable (S)

/-! ## The receiver's grammar -/

/-- `Splits S body u` — `body` splits completely into plain symbols and escape pairs, and stands
    for `u`. -/
inductive Splits : List α → List α → Prop
  | nil : Splits [] []
  | plain {a : α} {body u : List α} (ha : a ≠ S.esc) (h : Splits body u) :
      Splits (a :: body) (a :: u)
  | pair {a c : α} {body u : List α} (hc : S.decode c = some a) (h : Splits body u) :
      Splits (S.esc :: c :: body) (a :: u)

variable {S}

/-- **A stuffed word splits back into the word.** -/
theorem splits_stuff (u : List α) : S.Splits (S.stuff u) u := by
  induction u with
  | nil => exact .nil
  | cons a u ih =>
    rw [stuff_cons]
    cases hc : S.code a with
    | none =>
      rw [encode_plain hc]
      exact .plain (ne_esc_of_plain hc) ih
    | some c =>
      rw [encode_special hc]
      exact .pair (S.decode_iff.mpr hc) ih

theorem Splits.of_plain {a : α} {body u : List α} (ha : a ≠ S.esc) (h : S.Splits (a :: body) u) :
    ∃ v, u = a :: v ∧ S.Splits body v := by
  cases h with
  | plain _ h => exact ⟨_, rfl, h⟩
  | pair _ _ => exact absurd rfl ha

theorem Splits.of_pair {a c : α} {body u : List α} (hc : S.decode c = some a)
    (h : S.Splits (S.esc :: c :: body) u) : ∃ v, u = a :: v ∧ S.Splits body v := by
  cases h with
  | plain hesc _ => exact absurd rfl hesc
  | pair hc' h =>
    rw [hc, Option.some.injEq] at hc'
    exact ⟨_, by rw [hc'], h⟩

/-- A code is not special, so where a body starts with one it stands for itself. -/
theorem ne_esc_of_decode {a c : α} (hc : S.decode c = some a) : c ≠ S.esc := by
  rintro rfl
  exact S.code_esc (S.code_plain (S.decode_iff.mp hc))

theorem decode_injective {a c d : α} (hc : S.decode c = some a) (hd : S.decode d = some a) :
    c = d :=
  Option.some.inj ((S.decode_iff.mp hc).symm.trans (S.decode_iff.mp hd))

theorem Splits.append {b₁ u₁ b₂ u₂ : List α} (h₁ : S.Splits b₁ u₁) (h₂ : S.Splits b₂ u₂) :
    S.Splits (b₁ ++ b₂) (u₁ ++ u₂) := by
  induction h₁ with
  | nil => exact h₂
  | plain ha _ ih => exact .plain ha ih
  | pair hc _ ih => exact .pair hc ih

/-- A body splits in at most one way. -/
theorem Splits.unique {body u v : List α} (hu : S.Splits body u) (hv : S.Splits body v) :
    u = v := by
  induction hu generalizing v with
  | nil =>
    cases hv
    rfl
  | plain ha _ ih =>
    obtain ⟨w, rfl, hw⟩ := hv.of_plain ha
    rw [ih hw]
  | pair hc _ ih =>
    obtain ⟨w, rfl, hw⟩ := Splits.of_pair hc hv
    rw [ih hw]

/-- Splitting consumes at least as much as it yields. -/
theorem Splits.length_le {body u : List α} (h : S.Splits body u) :
    u.length ≤ body.length ∧ body.length ≤ 2 * u.length := by
  induction h with
  | nil => simp
  | plain _ _ ih => simp only [List.length_cons]; omega
  | pair _ _ ih => simp only [List.length_cons]; omega

/-- In a body that splits, the escape symbol is always followed by a code: it is no plain symbol, and
    no code either. -/
theorem Splits.code_after_esc {body u : List α} (h : S.Splits body u) {i : Nat}
    (hi : body[i]? = some S.esc) : ∃ c, body[i + 1]? = some c ∧ S.decode c ≠ none := by
  induction h generalizing i with
  | nil => cases hi
  | plain ha _ ih =>
    cases i with
    | zero => exact absurd (Option.some.inj hi) ha
    | succ i => exact ih hi
  | @pair a c body u hc _ ih =>
    rcases i with _ | _ | i
    · exact ⟨c, rfl, by rw [hc]; exact Option.some_ne_none a⟩
    · exact absurd (Option.some.inj hi) (ne_esc_of_decode hc)
    · exact ih hi

/-- A body and its tail do not stand for the same word. -/
theorem Splits.not_tail {b : α} {body w : List α} (h : S.Splits (b :: body) w)
    (htail : S.Splits body w) : False := by
  cases h with
  | plain hb h =>
    have hlen := congrArg List.length (h.unique htail)
    simp at hlen
  | pair hc _ =>
    obtain ⟨w, heq, _⟩ := htail.of_plain (ne_esc_of_decode hc)
    obtain ⟨rfl, -⟩ := List.cons.inj heq
    -- the code would be special at once
    have hcode := S.decode_iff.mp hc
    rw [S.code_plain hcode] at hcode
    cases hcode

/-- A symbol that is neither the escape symbol nor a code stands for itself wherever it occurs, so
    a body splits around it. -/
theorem Splits.around {d : α} (hesc : d ≠ S.esc) (hcode : S.decode d = none) {b₁ b₂ w : List α}
    (h : S.Splits (b₁ ++ d :: b₂) w) :
    ∃ u₁ u₂, w = u₁ ++ d :: u₂ ∧ S.Splits b₁ u₁ ∧ S.Splits b₂ u₂ := by
  generalize hb : b₁ ++ d :: b₂ = b at h
  induction h generalizing b₁ with
  | nil => exact absurd hb (by simp)
  | @plain a body u ha h ih =>
    cases b₁ with
    | nil =>
      rw [List.nil_append, List.cons.injEq] at hb
      obtain ⟨rfl, rfl⟩ := hb
      exact ⟨[], u, rfl, .nil, h⟩
    | cons x b₁ =>
      rw [List.cons_append, List.cons.injEq] at hb
      obtain ⟨rfl, hb⟩ := hb
      obtain ⟨u₁, u₂, rfl, h₁, h₂⟩ := ih hb
      exact ⟨x :: u₁, u₂, rfl, .plain ha h₁, h₂⟩
  | @pair a c body u hc h ih =>
    cases b₁ with
    | nil =>
      rw [List.nil_append, List.cons.injEq] at hb
      exact absurd hb.1 hesc
    | cons x b₁ =>
      rw [List.cons_append, List.cons.injEq] at hb
      obtain ⟨rfl, hb⟩ := hb
      cases b₁ with
      | nil =>
        -- `d` would have to be the code of the pair
        rw [List.nil_append, List.cons.injEq] at hb
        rw [← hb.1, hcode] at hc
        cases hc
      | cons y b₁ =>
        rw [List.cons_append, List.cons.injEq] at hb
        obtain ⟨rfl, hb⟩ := hb
        obtain ⟨u₁, u₂, rfl, h₁, h₂⟩ := ih hb
        exact ⟨a :: u₁, u₂, rfl, .pair hc h₁, h₂⟩

/-- **Canonical bodies.**  The receiver takes more than the sender sends: a body is the stuffed form
    of what it stands for exactly when it has no bare special symbol. -/
theorem Splits.stuff_eq_iff {body u : List α} (h : S.Splits body u) :
    S.stuff u = body ↔ ∀ d ∈ body, S.code d ≠ none → d = S.esc := by
  constructor
  · rintro rfl d hmem hd
    by_contra hesc
    exact not_mem_stuff hd hesc u hmem
  · intro hbare
    induction h with
    | nil => rfl
    | @plain a body u ha h ih =>
      have hplain : S.code a = none := by
        by_contra hd
        exact ha (hbare a List.mem_cons_self hd)
      rw [stuff_cons, encode_plain hplain, ih fun d hd => hbare d (List.mem_cons_of_mem _ hd)]
      rfl
    | @pair a c body u hc h ih =>
      have hrest : ∀ d ∈ body, S.code d ≠ none → d = S.esc :=
        fun d hd => hbare d (List.mem_cons_of_mem _ (List.mem_cons_of_mem _ hd))
      rw [stuff_cons, encode_special (S.decode_iff.mp hc), ih hrest]
      rfl

/-! ## One symbol overwritten -/

/-- Two words that differ in one symbol, or of which one is longer by one. -/
def Apart (u v : List α) : Prop :=
  (∃ w₁ x y w₂, x ≠ y ∧ u = w₁ ++ x :: w₂ ∧ v = w₁ ++ y :: w₂) ∨
    v.length = u.length + 1 ∨ u.length = v.length + 1

theorem Apart.cons {u v : List α} (h : Apart u v) (z : α) : Apart (z :: u) (z :: v) := by
  rcases h with ⟨w₁, x, y, w₂, hne, rfl, rfl⟩ | hlen | hlen
  · exact Or.inl ⟨z :: w₁, x, y, w₂, hne, rfl, rfl⟩
  · exact Or.inr (Or.inl (congrArg Nat.succ hlen))
  · exact Or.inr (Or.inr (congrArg Nat.succ hlen))

theorem Apart.symm {u v : List α} (h : Apart u v) : Apart v u := by
  rcases h with ⟨w₁, x, y, w₂, hne, rfl, rfl⟩ | hlen | hlen
  · exact Or.inl ⟨w₁, y, x, w₂, hne.symm, rfl, rfl⟩
  · exact Or.inr (Or.inr hlen)
  · exact Or.inr (Or.inl hlen)

/-- The first symbol is overwritten by a plain one. -/
theorem Splits.apart_head {a b : α} (hab : a ≠ b) (hb : b ≠ S.esc) {r u v : List α}
    (hu : S.Splits (a :: r) u) (hv : S.Splits (b :: r) v) : Apart u v := by
  obtain ⟨w, rfl, hw⟩ := hv.of_plain hb
  cases hu with
  | plain _ h =>
    rw [hw.unique h]
    exact Or.inl ⟨[], a, b, _, hab, rfl, rfl⟩
  | pair hc h =>
    -- a pair is torn apart, and its code stands for itself
    obtain ⟨w', rfl, hw'⟩ := hw.of_plain (ne_esc_of_decode hc)
    rw [hw'.unique h]
    exact Or.inr (Or.inl rfl)

/-- **One symbol overwritten.**  Of two bodies that differ in one symbol, either they stand for words
    that differ in one symbol, or the symbol makes a pair with the next one in one of them and not in
    the other, and the words differ in length by one. -/
theorem Splits.apart {a b : α} (hab : a ≠ b) {l r u v : List α} (hu : S.Splits (l ++ a :: r) u)
    (hv : S.Splits (l ++ b :: r) v) : Apart u v := by
  generalize hbody : l ++ a :: r = body at hu
  induction hu generalizing l v with
  | nil => exact absurd hbody (by simp)
  | @plain x body u hx h ih =>
    cases l with
    | nil =>
      obtain ⟨rfl, rfl⟩ := List.cons.inj hbody
      exact (hv.apart_head hab.symm hx (.plain hx h)).symm
    | cons z l =>
      obtain ⟨rfl, hrest⟩ := List.cons.inj hbody
      obtain ⟨w, rfl, hw⟩ := Splits.of_plain hx hv
      exact (ih hw hrest).cons z
  | @pair x c body u hc h ih =>
    cases l with
    | nil =>
      obtain ⟨rfl, rfl⟩ := List.cons.inj hbody
      exact Splits.apart_head hab hab.symm (.pair hc h) hv
    | cons z l =>
      obtain ⟨rfl, hrest⟩ := List.cons.inj hbody
      cases l with
      | nil =>
        -- the code of a pair is overwritten by another
        obtain ⟨rfl, rfl⟩ := List.cons.inj hrest
        cases hv with
        | plain hesc _ => exact absurd rfl hesc
        | @pair y _ _ w hd hw =>
          rw [hw.unique h]
          refine Or.inl ⟨[], x, y, u, ?_, rfl, rfl⟩
          rintro rfl
          exact hab (decode_injective hc hd)
      | cons c' l =>
        obtain ⟨rfl, hbody'⟩ := List.cons.inj hrest
        obtain ⟨w, rfl, hw⟩ := Splits.of_pair hc hv
        exact (ih hw hbody').cons x

/-! ## The receiver's function -/

/-- Why a body falls outside the grammar. -/
inductive Bad
  /-- The body ends on the escape symbol. -/
  | dangling
  /-- The escape symbol is followed by something that is no code. -/
  | unknown
deriving DecidableEq, Repr

variable (S)

/-- The grammar as a function. -/
def unstuff [DecidableEq α] : List α → Except Bad (List α)
  | [] => .ok []
  | [a] => if a = S.esc then .error .dangling else .ok [a]
  | a :: b :: rest =>
    if a = S.esc then
      match S.decode b with
      | none => .error .unknown
      | some x => (unstuff rest).map (x :: ·)
    else (unstuff (b :: rest)).map (a :: ·)

variable {S}

/-- **The function decides the grammar.** -/
theorem unstuff_eq_ok_iff [DecidableEq α] {body u : List α} :
    S.unstuff body = .ok u ↔ S.Splits body u := by
  constructor
  · intro h
    induction body using unstuff.induct (S := S) generalizing u with
    | case1 =>
      simp only [unstuff, Except.ok.injEq] at h
      exact h ▸ .nil
    | case2 => simp [unstuff] at h
    | case3 a ha =>
      simp only [unstuff, if_neg ha, Except.ok.injEq] at h
      exact h ▸ .plain ha .nil
    | case4 b rest hb => simp [unstuff, hb] at h
    | case5 b rest x hb ih =>
      simp only [unstuff, if_true, hb] at h
      cases hr : S.unstuff rest with
      | error e => simp [hr, Except.map] at h
      | ok v =>
        simp only [hr, Except.map, Except.ok.injEq] at h
        exact h ▸ .pair hb (ih hr)
    | case6 a b rest ha ih =>
      simp only [unstuff, if_neg ha] at h
      cases hr : S.unstuff (b :: rest) with
      | error e => simp [hr, Except.map] at h
      | ok v =>
        simp only [hr, Except.map, Except.ok.injEq] at h
        exact h ▸ .plain ha (ih hr)
  · intro h
    -- the derivation, and with it the list, from the front
    induction h with
    | nil => rfl
    | @plain a body u ha h ih =>
      cases body with
      | nil =>
        cases h
        simp [unstuff, ha]
      | cons b rest => simp [unstuff, if_neg ha, ih, Except.map]
    | pair hc _ ih => simp [unstuff, hc, ih, Except.map]

end Stuffing
