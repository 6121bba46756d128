import CommandShell.Text.Utf8
import Mathlib.Tactic.Common

/-!
# Decoding and encoding

What is read off a byte sequence in pieces is what was put into it. Every piece that is an encoded
scalar value consists of the bytes of that scalar value (`encode_of_completes`), so the pieces hold
all bytes in order (`bytes_pieces`), and the bytes of a text are decoded to this text
(`decode_encode`). A decoder never looks for more than continuation bytes, so it stops before any
other byte: a byte sequence may be cut there, and its parts decoded on their own
(`pieces_append`). Where an ASCII byte is the separator, this is `decodeChars_separated`.
-/

namespace CommandShell
namespace Utf8

/-! ## First bytes in numbers -/

/-- The table of first bytes in numbers, for arithmetic. -/
theorem expectedAfter_eq (b : UInt8) :
    expectedAfter b =
      if 0xC2 ≤ b.toNat ∧ b.toNat ≤ 0xDF then some ⟨b.toNat - 0xC0, 0x80, 0xBF, 0⟩
      else if b.toNat = 0xE0 then some ⟨0x0, 0xA0, 0xBF, 1⟩
      else if b.toNat = 0xED then some ⟨0xD, 0x80, 0x9F, 1⟩
      else if 0xE1 ≤ b.toNat ∧ b.toNat ≤ 0xEF then some ⟨b.toNat - 0xE0, 0x80, 0xBF, 1⟩
      else if b.toNat = 0xF0 then some ⟨0x0, 0x90, 0xBF, 2⟩
      else if 0xF1 ≤ b.toNat ∧ b.toNat ≤ 0xF3 then some ⟨b.toNat - 0xF0, 0x80, 0xBF, 2⟩
      else if b.toNat = 0xF4 then some ⟨0x4, 0x80, 0x8F, 2⟩
      else none := by
  simp only [expectedAfter, UInt8.le_iff_toNat_le, ← UInt8.toNat_inj]
  rfl

/-- The byte goes on with an encoding, and begins none. -/
def IsContinuation (b : UInt8) : Prop := 0x80 ≤ b ∧ b ≤ 0xBF

/-- The six bits of a value that a continuation byte holds. -/
def digit (b : UInt8) : Nat := b.toNat - 0x80

theorem digit_eq (b : UInt8) : digit b = b.toNat - 0x80 := rfl

theorem continuation_iff {b : UInt8} :
    IsContinuation b ↔ b.toNat = 0x80 + digit b ∧ digit b < 64 := by
  have hdigit := digit_eq b
  simp only [IsContinuation, UInt8.le_iff_toNat_le, UInt8.reduceToNat]
  omega

/-- What a first byte holds of a value, with the mark for two, three or four bytes. -/
theorem first_of_expectedAfter {a : UInt8} {e : Expected} (h : expectedAfter a = some e) :
    (∃ x, a.toNat = 0xC0 + x ∧ 2 ≤ x ∧ x < 32) ∨ (∃ x, a.toNat = 0xE0 + x ∧ x < 16) ∨
      ∃ x, a.toNat = 0xF0 + x ∧ x ≤ 4 := by
  by_cases htwo : 0xC2 ≤ a.toNat ∧ a.toNat ≤ 0xDF
  · exact Or.inl ⟨a.toNat - 0xC0, by omega, by omega, by omega⟩
  by_cases hthree : 0xE0 ≤ a.toNat ∧ a.toNat ≤ 0xEF
  · exact Or.inr (Or.inl ⟨a.toNat - 0xE0, by omega, by omega⟩)
  by_cases hfour : 0xF0 ≤ a.toNat ∧ a.toNat ≤ 0xF4
  · exact Or.inr (Or.inr ⟨a.toNat - 0xF0, by omega, by omega⟩)
  -- no other byte begins an encoding of several bytes
  rw [expectedAfter_eq, if_neg htwo, if_neg (by omega), if_neg (by omega), if_neg (by omega),
    if_neg (by omega), if_neg (by omega), if_neg (by omega)] at h
  cases h

theorem expectedAfter_two {a : UInt8} {x : Nat} (ha : a.toNat = 0xC0 + x) (hx : 2 ≤ x ∧ x < 32) :
    ∃ e, expectedAfter a = some e ∧ e.value = x ∧ e.more = 0 ∧
      ∀ b, e.low ≤ b ∧ b ≤ e.high ↔ IsContinuation b := by
  rw [expectedAfter_eq, if_pos (by omega)]
  exact ⟨_, rfl, by dsimp only; omega, rfl, fun b => Iff.rfl⟩

/-- The byte after the first of three must not make an overlong form or a surrogate. -/
theorem expectedAfter_three {a : UInt8} {x : Nat} (ha : a.toNat = 0xE0 + x) (hx : x < 16) :
    ∃ e, expectedAfter a = some e ∧ e.value = x ∧ e.more = 1 ∧
      ∀ b, e.low ≤ b ∧ b ≤ e.high ↔
        IsContinuation b ∧ (x = 0 → 32 ≤ digit b) ∧ (x = 13 → digit b < 32) := by
  rw [expectedAfter_eq, if_neg (by omega)]
  by_cases hlong : x = 0
  · rw [if_pos (by omega)]
    refine ⟨_, rfl, hlong.symm, rfl, fun b => ?_⟩
    have hdigit := digit_eq b
    simp only [IsContinuation, UInt8.le_iff_toNat_le, UInt8.reduceToNat]
    omega
  rw [if_neg (by omega)]
  by_cases hsurrogate : x = 13
  · rw [if_pos (by omega)]
    refine ⟨_, rfl, hsurrogate.symm, rfl, fun b => ?_⟩
    have hdigit := digit_eq b
    simp only [IsContinuation, UInt8.le_iff_toNat_le, UInt8.reduceToNat]
    omega
  · rw [if_neg (by omega), if_pos (by omega)]
    refine ⟨_, rfl, by dsimp only; omega, rfl, fun b => ?_⟩
    simp only [hlong, hsurrogate, false_implies, and_true]
    rfl

/-- The byte after the first of four must not make an overlong form or a value above U+10FFFF. -/
theorem expectedAfter_four {a : UInt8} {x : Nat} (ha : a.toNat = 0xF0 + x) (hx : x ≤ 4) :
    ∃ e, expectedAfter a = some e ∧ e.value = x ∧ e.more = 2 ∧
      ∀ b, e.low ≤ b ∧ b ≤ e.high ↔
        IsContinuation b ∧ (x = 0 → 16 ≤ digit b) ∧ (x = 4 → digit b < 16) := by
  rw [expectedAfter_eq, if_neg (by omega), if_neg (by omega), if_neg (by omega),
    if_neg (by omega)]
  by_cases hlong : x = 0
  · rw [if_pos (by omega)]
    refine ⟨_, rfl, hlong.symm, rfl, fun b => ?_⟩
    have hdigit := digit_eq b
    simp only [IsContinuation, UInt8.le_iff_toNat_le, UInt8.reduceToNat]
    omega
  rw [if_neg (by omega)]
  by_cases hlast : x = 4
  · rw [if_neg (by omega), if_pos (by omega)]
    refine ⟨_, rfl, hlast.symm, rfl, fun b => ?_⟩
    have hdigit := digit_eq b
    simp only [IsContinuation, UInt8.le_iff_toNat_le, UInt8.reduceToNat]
    omega
  · rw [if_pos (by omega)]
    refine ⟨_, rfl, by dsimp only; omega, rfl, fun b => ?_⟩
    simp only [hlong, hlast, false_implies, and_true]
    rfl

/-- No encoding of several bytes begins with an ASCII byte. -/
theorem not_ascii_of_expectedAfter {a : UInt8} {e : Expected} (h : expectedAfter a = some e) :
    ¬ a < 0x80 := by
  rw [UInt8.lt_iff_toNat_lt]
  simp only [UInt8.reduceToNat]
  rcases first_of_expectedAfter h with ⟨x, ha, -⟩ | ⟨x, ha, -⟩ | ⟨x, ha, -⟩ <;> omega

theorem next_of_expectedAfter {a : UInt8} {e : Expected} (rest : List UInt8)
    (h : expectedAfter a = some e) : next a rest = complete [a] e rest := by
  rw [next, if_neg (not_ascii_of_expectedAfter h), h]

/-! ## Cuts -/

/-- Nothing but a continuation byte may come next. -/
def Expected.Sound (e : Expected) : Prop := ∀ b, e.low ≤ b ∧ b ≤ e.high → IsContinuation b

theorem sound_of_expectedAfter {a : UInt8} {e : Expected} (h : expectedAfter a = some e) :
    e.Sound := by
  intro b hb
  rcases first_of_expectedAfter h with ⟨x, ha, hx⟩ | ⟨x, ha, hx⟩ | ⟨x, ha, hx⟩
  · obtain ⟨e', he', -, -, hallows⟩ := expectedAfter_two ha hx
    obtain rfl := Option.some.inj (he'.symm.trans h)
    exact (hallows b).1 hb
  · obtain ⟨e', he', -, -, hallows⟩ := expectedAfter_three ha hx
    obtain rfl := Option.some.inj (he'.symm.trans h)
    exact ((hallows b).1 hb).1
  · obtain ⟨e', he', -, -, hallows⟩ := expectedAfter_four ha hx
    obtain rfl := Option.some.inj (he'.symm.trans h)
    exact ((hallows b).1 hb).1

theorem complete_append {seen : List UInt8} {e : Expected} {bytes : List UInt8} {c : UInt8}
    (rest : List UInt8) (he : e.Sound) (hc : ¬ IsContinuation c) :
    complete seen e (bytes ++ c :: rest)
      = ((complete seen e bytes).1, (complete seen e bytes).2 ++ c :: rest) := by
  induction bytes generalizing seen e with
  | nil =>
    -- the encoding is cut short by the byte just as by the end
    have hout : ¬ (e.low ≤ c ∧ c ≤ e.high) := fun h => hc (he c h)
    simp only [List.nil_append, complete, if_neg hout]
  | cons b bytes ih =>
    rw [List.cons_append, complete, complete]
    split
    · cases e.more with
      | zero => rfl
      -- after the second byte every continuation byte is allowed
      | succ more => exact ih fun _ h => h
    · rfl

theorem next_append {b c : UInt8} (bytes rest : List UInt8) (hc : ¬ IsContinuation c) :
    next b (bytes ++ c :: rest) = ((next b bytes).1, (next b bytes).2 ++ c :: rest) := by
  rw [next, next]
  split
  · rfl
  · split
    · rfl
    · next e he => exact complete_append rest (sound_of_expectedAfter he) hc

/-- A byte sequence may be cut before every byte that is no continuation byte. -/
theorem pieces_append {c : UInt8} (bytes rest : List UInt8) (hc : ¬ IsContinuation c) :
    pieces (bytes ++ c :: rest) = pieces bytes ++ pieces (c :: rest) := by
  fun_induction pieces bytes with
  | case1 => rfl
  | case2 b bytes ih =>
    rw [List.cons_append, pieces, next_append bytes rest hc, ih]
    rfl

theorem next_ascii {c : UInt8} (rest : List UInt8) (hc : c < 0x80) :
    next c rest = (.scalar (Char.ofNat c.toNat), rest) := by
  rw [next, if_pos hc]

/-- An ASCII byte is a piece of its own. What stands before it and what stands after it is decoded
as if it stood alone. -/
theorem decodeChars_separated {c : UInt8} (bytes rest : List UInt8) (hc : c < 0x80) :
    decodeChars (bytes ++ c :: rest)
      = decodeChars bytes ++ Char.ofNat c.toNat :: decodeChars rest := by
  have hout : ¬ IsContinuation c := fun h => UInt8.not_lt.2 h.1 hc
  rw [decodeChars, pieces_append bytes rest hout, pieces, next_ascii rest hc, List.map_append,
    List.map_cons]
  rfl

@[simp] theorem decodeChars_nil : decodeChars [] = [] := by
  rw [decodeChars, pieces, List.map_nil]

theorem decode_nil : decode [] = "" := by
  rw [decode, decodeChars_nil]

theorem decodeChars_eq_nil_iff {bytes : List UInt8} : decodeChars bytes = [] ↔ bytes = [] := by
  cases bytes with
  | nil => simp
  | cons b rest => simp [decodeChars, pieces]

/-! ## The bytes of a value -/

theorem toNat_ofNat_of_valid {v : Nat} (h : v.isValidChar) : (Char.ofNat v).val.toNat = v := by
  rw [Char.ofNat, dif_pos h]
  rfl

/-- A byte is the one with its number. -/
theorem ofNat_eq {k : Nat} {b : UInt8} (h : k = b.toNat) : UInt8.ofNat k = b := by
  rw [h, UInt8.ofNat_toNat]

theorem exists_toNat_eq {k : Nat} (h : k < 256) : ∃ b : UInt8, b.toNat = k :=
  ⟨UInt8.ofNat k, UInt8.toNat_ofNat_of_lt' h⟩

theorem encodeChar_one {a : UInt8} (ha : a.toNat < 0x80) :
    String.utf8EncodeChar (Char.ofNat a.toNat) = [a] := by
  have hvalid : a.toNat.isValidChar := Or.inl (by omega)
  simp only [String.utf8EncodeChar, toNat_ofNat_of_valid hvalid]
  rw [if_pos (by omega), UInt8.ofNat_toNat]

theorem encodeChar_two {a b : UInt8} {x v : Nat} (ha : a.toNat = 0xC0 + x) (hx : 2 ≤ x ∧ x < 32)
    (hb : IsContinuation b) (hv : v = x * 64 + digit b) :
    String.utf8EncodeChar (Char.ofNat v) = [a, b] := by
  obtain ⟨hb, hy⟩ := continuation_iff.1 hb
  have hvalid : v.isValidChar := Or.inl (by omega)
  simp only [String.utf8EncodeChar, toNat_ofNat_of_valid hvalid]
  rw [if_neg (by omega), if_pos (by omega), ofNat_eq (b := a) (by omega),
    ofNat_eq (b := b) (by omega)]

theorem encodeChar_three {a b c : UInt8} {x v : Nat} (ha : a.toNat = 0xE0 + x) (hx : x < 16)
    (hb : IsContinuation b) (hc : IsContinuation c) (hlong : x = 0 → 32 ≤ digit b)
    (hsurrogate : x = 13 → digit b < 32) (hv : v = (x * 64 + digit b) * 64 + digit c) :
    String.utf8EncodeChar (Char.ofNat v) = [a, b, c] := by
  obtain ⟨hb, hy⟩ := continuation_iff.1 hb
  obtain ⟨hc, hz⟩ := continuation_iff.1 hc
  have hvalid : v.isValidChar := by
    unfold Nat.isValidChar
    omega
  have hlarge : 0x7FF < v := by omega
  clear hlong hsurrogate
  simp only [String.utf8EncodeChar, toNat_ofNat_of_valid hvalid]
  rw [if_neg (by omega), if_neg (by omega), if_pos (by omega), ofNat_eq (b := a) (by omega),
    ofNat_eq (b := b) (by omega), ofNat_eq (b := c) (by omega)]

theorem encodeChar_four {a b c d : UInt8} {x v : Nat} (ha : a.toNat = 0xF0 + x) (hx : x ≤ 4)
    (hb : IsContinuation b) (hc : IsContinuation c) (hd : IsContinuation d)
    (hlong : x = 0 → 16 ≤ digit b) (hlast : x = 4 → digit b < 16)
    (hv : v = ((x * 64 + digit b) * 64 + digit c) * 64 + digit d) :
    String.utf8EncodeChar (Char.ofNat v) = [a, b, c, d] := by
  obtain ⟨hb, hy⟩ := continuation_iff.1 hb
  obtain ⟨hc, hz⟩ := continuation_iff.1 hc
  obtain ⟨hd, hu⟩ := continuation_iff.1 hd
  have hvalid : v.isValidChar := by
    unfold Nat.isValidChar
    omega
  have hlarge : 0xFFFF < v := by omega
  clear hlong hlast
  simp only [String.utf8EncodeChar, toNat_ofNat_of_valid hvalid]
  rw [if_neg (by omega), if_neg (by omega), if_neg (by omega), ofNat_eq (b := a) (by omega),
    ofNat_eq (b := b) (by omega), ofNat_eq (b := c) (by omega), ofNat_eq (b := d) (by omega)]

/-- A value is put together from its digits to the base 64. -/
theorem exists_digits (v : Nat) :
    ∃ high third second last, v = ((high * 64 + third) * 64 + second) * 64 + last ∧
      third < 64 ∧ second < 64 ∧ last < 64 :=
  ⟨v / 262144, v / 4096 % 64, v / 64 % 64, v % 64, by omega, by omega, by omega, by omega⟩

theorem exists_continuation {y : Nat} (h : y < 64) : ∃ b, IsContinuation b ∧ digit b = y := by
  obtain ⟨b, hb⟩ := exists_toNat_eq (k := 0x80 + y) (by omega)
  have hdigit : digit b = y := by rw [digit_eq, hb, Nat.add_sub_cancel_left]
  exact ⟨b, continuation_iff.2 (by omega), hdigit⟩

/-! ## Complete encodings -/

/-- What is needed after a further byte. -/
def Expected.step (e : Expected) (b : UInt8) (more : Nat) : Expected :=
  ⟨e.value * 64 + digit b, 0x80, 0xBF, more⟩

theorem Expected.step_value (e : Expected) (b : UInt8) (more : Nat) :
    (e.step b more).value = e.value * 64 + digit b := rfl

/-- Some bytes are just what an unfinished encoding needs, and they complete a value. -/
inductive Completes : Expected → List UInt8 → Nat → Prop
  | last {e : Expected} {b : UInt8} {value : Nat} (allows : e.low ≤ b ∧ b ≤ e.high)
    (last : e.more = 0) (sum : value = e.value * 64 + digit b) : Completes e [b] value
  | step {e : Expected} {b : UInt8} {more value : Nat} {tail : List UInt8}
    (allows : e.low ≤ b ∧ b ≤ e.high) (goesOn : e.more = more + 1)
    (later : Completes (e.step b more) tail value) :
    Completes e (b :: tail) value

namespace Completes

variable {e : Expected} {tail : List UInt8} {value : Nat}

theorem one (h : Completes e tail value) (hmore : e.more = 0) :
    ∃ b, (e.low ≤ b ∧ b ≤ e.high) ∧ tail = [b] ∧ value = e.value * 64 + digit b := by
  cases h with
  | last allows _ sum => exact ⟨_, allows, rfl, sum⟩
  | step _ goesOn _ =>
    rw [hmore] at goesOn
    cases goesOn

theorem uncons {more : Nat} (h : Completes e tail value) (hmore : e.more = more + 1) :
    ∃ b later, (e.low ≤ b ∧ b ≤ e.high) ∧ tail = b :: later ∧
      Completes (e.step b more) later value := by
  cases h with
  | last _ last _ =>
    rw [hmore] at last
    cases last
  | step allows goesOn later =>
    rw [hmore] at goesOn
    cases goesOn
    exact ⟨_, _, allows, rfl, later⟩

end Completes

theorem complete_of_completes {e : Expected} {tail : List UInt8} {value : Nat}
    (h : Completes e tail value) (seen rest : List UInt8) :
    complete seen e (tail ++ rest) = (.scalar (Char.ofNat value), rest) := by
  induction h generalizing seen with
  | last allows last sum =>
    rw [List.singleton_append, complete, if_pos allows]
    simp only [last, sum, digit_eq]
  | step allows goesOn _ ih =>
    rw [List.cons_append, complete, if_pos allows]
    simp only [goesOn]
    exact ih _

/-- An unfinished encoding is given up, with all bytes kept, or it is completed. -/
theorem complete_cases (seen : List UInt8) (e : Expected) (bytes : List UInt8) :
    (∃ part left, complete seen e bytes = (.invalid part, left) ∧ part ++ left = seen ++ bytes) ∨
      ∃ tail value left, complete seen e bytes = (.scalar (Char.ofNat value), left) ∧
        Completes e tail value ∧ bytes = tail ++ left := by
  induction bytes generalizing seen e with
  | nil => exact Or.inl ⟨seen, [], rfl, rfl⟩
  | cons b rest ih =>
    rw [complete]
    by_cases hb : e.low ≤ b ∧ b ≤ e.high
    · rw [if_pos hb]
      cases hmore : e.more with
      | zero => exact Or.inr ⟨[b], _, rest, rfl, .last hb hmore rfl, rfl⟩
      | succ more =>
        rcases ih (seen ++ [b]) (e.step b more) with
          ⟨part, left, heq, hparts⟩ | ⟨tail, value, left, heq, hc, rfl⟩
        · refine Or.inl ⟨part, left, heq, ?_⟩
          rw [hparts, List.append_assoc, List.singleton_append]
        · exact Or.inr ⟨b :: tail, value, left, heq, .step hb hmore hc, rfl⟩
    · rw [if_neg hb]
      exact Or.inl ⟨seen, b :: rest, rfl, rfl⟩

/-- A completed encoding consists of the bytes of its value. -/
theorem encode_of_completes {a : UInt8} {e : Expected} {tail : List UInt8} {value : Nat}
    (he : expectedAfter a = some e) (h : Completes e tail value) :
    String.utf8EncodeChar (Char.ofNat value) = a :: tail := by
  rcases first_of_expectedAfter he with ⟨x, ha, hx⟩ | ⟨x, ha, hx⟩ | ⟨x, ha, hx⟩
  · obtain ⟨e', he', hvalue, hmore, hallows⟩ := expectedAfter_two ha hx
    obtain rfl := Option.some.inj (he'.symm.trans he)
    obtain ⟨b, hb, rfl, hv⟩ := h.one hmore
    rw [hvalue] at hv
    exact encodeChar_two ha hx ((hallows b).1 hb) hv
  · obtain ⟨e', he', hvalue, hmore, hallows⟩ := expectedAfter_three ha hx
    obtain rfl := Option.some.inj (he'.symm.trans he)
    obtain ⟨b, later, hb, rfl, h₁⟩ := h.uncons hmore
    obtain ⟨c, hc, rfl, hv⟩ := h₁.one rfl
    obtain ⟨hb, hlong, hsurrogate⟩ := (hallows b).1 hb
    rw [Expected.step_value, hvalue] at hv
    exact encodeChar_three ha hx hb hc hlong hsurrogate hv
  · obtain ⟨e', he', hvalue, hmore, hallows⟩ := expectedAfter_four ha hx
    obtain rfl := Option.some.inj (he'.symm.trans he)
    obtain ⟨b, later, hb, rfl, h₁⟩ := h.uncons hmore
    obtain ⟨c, later, hc, rfl, h₂⟩ := h₁.uncons rfl
    obtain ⟨d, hd, rfl, hv⟩ := h₂.one rfl
    obtain ⟨hb, hlong, hlarge⟩ := (hallows b).1 hb
    rw [Expected.step_value, Expected.step_value, hvalue] at hv
    exact encodeChar_four ha hx hb hc hd hlong hlarge hv

/-- An ASCII character has one byte. -/
theorem exists_ascii {c : Char} (h : c.val.toNat < 0x80) :
    ∃ a : UInt8, a < 0x80 ∧ a.toNat = c.val.toNat ∧ c = Char.ofNat a.toNat ∧
      String.utf8EncodeChar c = [a] := by
  obtain ⟨a, ha⟩ := exists_toNat_eq (k := c.val.toNat) (by omega)
  have hlt : a.toNat < 0x80 := by omega
  have hchar : c = Char.ofNat a.toNat := by
    rw [ha]
    exact (Char.ofNat_toNat c).symm
  refine ⟨a, UInt8.lt_iff_toNat_lt.2 hlt, ha, hchar, ?_⟩
  rw [hchar, encodeChar_one hlt]

/-- The bytes of a character that is not ASCII are a first byte and what completes it. -/
theorem exists_completes {c : Char} (h : 0x80 ≤ c.val.toNat) :
    ∃ a e tail, String.utf8EncodeChar c = a :: tail ∧ expectedAfter a = some e ∧
      Completes e tail c.val.toNat := by
  have hvalid : c.val.toNat.isValidChar := c.valid
  generalize hv : c.val.toNat = v at h hvalid
  have hchar : c = Char.ofNat v := by
    rw [← hv]
    exact (Char.ofNat_toNat c).symm
  clear hv
  subst hchar
  unfold Nat.isValidChar at hvalid
  -- the bytes are the digits of the value, with their marks
  obtain ⟨high, third, second, last, hdigits, hthird, hsecond, hlast⟩ := exists_digits v
  obtain ⟨d, hd, rfl⟩ := exists_continuation hlast
  by_cases htwo : v < 0x800
  · have hx : 2 ≤ second ∧ second < 32 := by omega
    have hsum : v = second * 64 + digit d := by omega
    obtain ⟨a, ha⟩ := exists_toNat_eq (k := 0xC0 + second) (by omega)
    obtain ⟨e, he, hvalue, hmore, hallows⟩ := expectedAfter_two ha hx
    refine ⟨a, e, [d], encodeChar_two ha hx hd hsum, he, ?_⟩
    exact .last ((hallows d).2 hd) hmore (by rw [hvalue, hsum])
  obtain ⟨c, hc, rfl⟩ := exists_continuation hsecond
  by_cases hthree : v < 0x10000
  · have hx : third < 16 := by omega
    have hlong : third = 0 → 32 ≤ digit c := by omega
    have hsurrogate : third = 13 → digit c < 32 := by omega
    have hsum : v = (third * 64 + digit c) * 64 + digit d := by omega
    obtain ⟨a, ha⟩ := exists_toNat_eq (k := 0xE0 + third) (by omega)
    obtain ⟨e, he, hvalue, hmore, hallows⟩ := expectedAfter_three ha hx
    refine ⟨a, e, [c, d], encodeChar_three ha hx hc hd hlong hsurrogate hsum, he, ?_⟩
    refine .step ((hallows c).2 ⟨hc, hlong, hsurrogate⟩) hmore (.last hd rfl ?_)
    rw [Expected.step_value, hvalue, hsum]
  · obtain ⟨b, hb, rfl⟩ := exists_continuation hthird
    have hx : high ≤ 4 := by omega
    have hlong : high = 0 → 16 ≤ digit b := by omega
    have hlarge : high = 4 → digit b < 16 := by omega
    obtain ⟨a, ha⟩ := exists_toNat_eq (k := 0xF0 + high) (by omega)
    obtain ⟨e, he, hvalue, hmore, hallows⟩ := expectedAfter_four ha hx
    refine ⟨a, e, [b, c, d], encodeChar_four ha hx hb hc hd hlong hlarge hdigits, he, ?_⟩
    refine .step ((hallows b).2 ⟨hb, hlong, hlarge⟩) hmore (.step hc rfl (.last hd rfl ?_))
    rw [Expected.step_value, Expected.step_value, hvalue, hdigits]

/-! ## Round trips -/

/-- A piece and what is left after it are the bytes that there were. -/
theorem bytes_next (b : UInt8) (rest : List UInt8) :
    (next b rest).1.bytes ++ (next b rest).2 = b :: rest := by
  rw [next]
  split
  · next hb =>
    rw [UInt8.lt_iff_toNat_lt] at hb
    rw [Piece.bytes, encodeChar_one hb]
    rfl
  · split
    · rfl
    · next e he =>
      rcases complete_cases [b] e rest with
        ⟨part, left, heq, hparts⟩ | ⟨tail, value, left, heq, hc, rfl⟩
      · rw [heq]
        exact hparts
      · rw [heq, Piece.bytes, encode_of_completes he hc]
        rfl

/-- The pieces of a byte sequence hold all its bytes, in order. -/
theorem bytes_pieces (bytes : List UInt8) : (pieces bytes).flatMap Piece.bytes = bytes := by
  fun_induction pieces bytes with
  | case1 => rfl
  | case2 b rest ih => rw [List.flatMap_cons, ih, bytes_next]

/-- The bytes of a character are one piece, whatever comes after them. -/
theorem pieces_encodeChar (c : Char) (rest : List UInt8) :
    pieces (String.utf8EncodeChar c ++ rest) = .scalar c :: pieces rest := by
  by_cases hc : c.val.toNat < 0x80
  · obtain ⟨a, hlt, -, hchar, hbytes⟩ := exists_ascii hc
    rw [hbytes, List.singleton_append, pieces, next_ascii rest hlt, ← hchar]
  · obtain ⟨a, e, tail, hbytes, he, htail⟩ := exists_completes (Nat.not_lt.1 hc)
    have hchar : Char.ofNat c.val.toNat = c := Char.ofNat_toNat c
    rw [hbytes, List.cons_append, pieces, next_of_expectedAfter _ he, complete_of_completes htail,
      hchar]

/-- The pieces of a text are its characters. -/
theorem pieces_encodeChars (chars : List Char) :
    pieces (encodeChars chars) = chars.map .scalar := by
  induction chars with
  | nil => rw [encodeChars, List.flatMap_nil, pieces, List.map_nil]
  | cons c rest ih =>
    rw [encodeChars, List.flatMap_cons, pieces_encodeChar, List.map_cons]
    exact congrArg (List.cons (.scalar c)) ih

theorem decodeChars_encodeChars (chars : List Char) : decodeChars (encodeChars chars) = chars := by
  have hchar : Piece.char ∘ Piece.scalar = id := rfl
  rw [decodeChars, pieces_encodeChars, List.map_map, hchar, List.map_id]

/-- The bytes of a text are decoded to this text. -/
theorem decode_encode (text : String) : decode (encode text) = text := by
  rw [decode, encode, decodeChars_encodeChars, String.ofList_toList]

theorem encode_append (s t : String) : encode (s ++ t) = encode s ++ encode t := by
  simp [encode, encodeChars]

/-- Texts can be encoded one by one. -/
theorem flatten_encode (texts : List String) :
    (texts.map encode).flatten = encode (String.join texts) := by
  induction texts with
  | nil => rfl
  | cons text rest ih => rw [List.map_cons, List.flatten_cons, ih, String.join_cons, encode_append]

/-- An ASCII byte of an encoded text comes from its own character. -/
theorem ofNat_mem_of_mem_encode {b : UInt8} {text : String} (h : b ∈ encode text)
    (hb : b < 0x80) : Char.ofNat b.toNat ∈ text.toList := by
  obtain ⟨before, after, hsplit⟩ := List.append_of_mem h
  have hchars : text.toList
      = decodeChars before ++ Char.ofNat b.toNat :: decodeChars after := by
    rw [← decodeChars_separated before after hb, ← hsplit, encode, decodeChars_encodeChars]
  rw [hchars]
  exact List.mem_append_right _ List.mem_cons_self

/-- An ASCII character in a decoded text comes from its own byte. -/
theorem exists_mem_of_mem_decodeChars {c : Char} {bytes : List UInt8} (h : c ∈ decodeChars bytes)
    (hc : c.val.toNat < 0x80) : ∃ b ∈ bytes, b.toNat = c.val.toNat := by
  obtain ⟨piece, hpiece, hchar⟩ := List.mem_map.1 h
  cases piece with
  | invalid part =>
    -- the replacement character is no ASCII character
    subst hchar
    exact absurd hc (show ¬ replacement.val.toNat < 0x80 by decide)
  | scalar d =>
    obtain rfl : d = c := hchar
    obtain ⟨a, -, ha, -, hbytes⟩ := exists_ascii hc
    have hmem : a ∈ (Piece.scalar d).bytes := by
      rw [Piece.bytes, hbytes]
      exact List.mem_singleton_self a
    refine ⟨a, ?_, ha⟩
    rw [← bytes_pieces bytes]
    exact List.mem_flatMap.2 ⟨_, hpiece, hmem⟩

end Utf8

/-! ## Stretches between separators -/

/-- A list is a stretch without separators, or such a stretch with a separator and a list after
it. -/
theorem separated_induction {α : Type} (isSeparator : α → Bool) {P : List α → Prop}
    (last : ∀ xs, (∀ x ∈ xs, isSeparator x = false) → P xs)
    (next : ∀ xs separator rest, (∀ x ∈ xs, isSeparator x = false) →
      isSeparator separator = true → P rest → P (xs ++ separator :: rest))
    (items : List α) : P items := by
  -- the stretch so far is kept in front of the items
  suffices h : ∀ xs, (∀ x ∈ xs, isSeparator x = false) → P (xs ++ items) from h [] (by simp)
  induction items with
  | nil =>
    intro xs hxs
    rw [List.append_nil]
    exact last xs hxs
  | cons item rest ih =>
    intro xs hxs
    cases hitem : isSeparator item with
    | true => exact next xs item rest hxs hitem (ih [] (by simp))
    | false =>
      have h := ih (xs ++ [item]) (by simpa [or_imp, forall_and] using ⟨hxs, hitem⟩)
      rwa [List.append_assoc, List.singleton_append] at h

end CommandShell
