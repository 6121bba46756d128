import CommandShell.Proofs.Decoding
import Mathlib.Data.List.Basic

/-!
# The cut into scalar values and maximal invalid parts

A decoder goes byte by byte and looks up what may follow. What it should find is said here without
it: the encodings are those of the characters, and a part is invalid if no encoding stands where it
stands. Such a part is as long as some encoding begins with it (`MaximalInvalid`), so the parts of a
byte sequence are determined from left to right (`Cut`). The decoder gives up an encoding at the
first byte with which none goes on (`complete_invalid`), so the pieces that it cuts off are these
parts, and there is no other cut (`cut_iff`).
-/

namespace CommandShell
namespace Utf8

/-! ## Cuts -/

/-- Some encoding begins with these bytes. -/
def Begins (bytes : List UInt8) : Prop := ∃ c : Char, bytes <+: String.utf8EncodeChar c

/-- No encoding stands at the beginning of `bytes`, and `part` is what is invalid there: as many
bytes as some encoding begins with, or else a single byte. -/
structure MaximalInvalid (part bytes : List UInt8) : Prop where
  incomplete : ∀ c : Char, ¬ String.utf8EncodeChar c <+: bytes
  front : part <+: bytes
  nonempty : part ≠ []
  begins : Begins part ∨ part.length = 1
  longest : ∀ longer, longer <+: bytes → Begins longer → longer.length ≤ part.length

/-- A byte sequence is cut, from left to right, into encodings of one scalar value each and maximal
invalid parts. -/
inductive Cut : List UInt8 → List Piece → Prop
  | done : Cut [] []
  | scalar {c : Char} {rest : List UInt8} {cut : List Piece} (later : Cut rest cut) :
    Cut (String.utf8EncodeChar c ++ rest) (.scalar c :: cut)
  | invalid {part rest : List UInt8} {cut : List Piece}
    (here : MaximalInvalid part (part ++ rest)) (later : Cut rest cut) :
    Cut (part ++ rest) (.invalid part :: cut)

theorem MaximalInvalid.length_le {part other bytes : List UInt8} (h : MaximalInvalid part bytes)
    (h' : MaximalInvalid other bytes) : part.length ≤ other.length := by
  rcases h.begins with hbegins | hone
  · exact h'.longest part h.front hbegins
  · have hpos := List.length_pos_iff.2 h'.nonempty
    omega

/-- At one place there is one maximal invalid part. -/
theorem MaximalInvalid.eq {part other bytes : List UInt8} (h : MaximalInvalid part bytes)
    (h' : MaximalInvalid other bytes) : part = other := by
  have hle := h.length_le h'
  have hge := h'.length_le h
  have hpre : part <+: other := List.prefix_of_prefix_length_le h.front h'.front hle
  exact hpre.eq_of_length (by omega)

/-! ## Unfinished encodings -/

/-- An unfinished encoding may go on with these bytes. -/
def GoesOn (e : Expected) (bytes : List UInt8) : Prop :=
  ∃ tail value, Completes e tail value ∧ bytes <+: tail

/-- Some byte may come next. -/
def Expected.Open (e : Expected) : Prop := e.low ≤ e.high

theorem open_of_expectedAfter {a : UInt8} {e : Expected} (h : expectedAfter a = some e) :
    e.Open := by
  rw [expectedAfter] at h
  split_ifs at h <;> (obtain rfl := Option.some.inj h; rw [Expected.Open]; dsimp only; decide)

/-- After the second byte any continuation byte may come. -/
theorem open_step (e : Expected) (b : UInt8) (more : Nat) : (e.step b more).Open :=
  show (0x80 : UInt8) ≤ 0xBF by decide

theorem exists_completes_of_open {e : Expected} (h : e.Open) :
    ∃ tail value, Completes e tail value := by
  have hlow : e.low ≤ e.low ∧ e.low ≤ e.high := ⟨UInt8.le_refl _, h⟩
  generalize hmore : e.more = more
  induction more generalizing e with
  | zero => exact ⟨[e.low], _, .last hlow hmore rfl⟩
  | succ more ih =>
    have hopen := open_step e e.low more
    obtain ⟨tail, value, htail⟩ := ih hopen ⟨UInt8.le_refl _, hopen⟩ rfl
    exact ⟨e.low :: tail, value, .step hlow hmore htail⟩

theorem goesOn_nil {e : Expected} (h : e.Open) : GoesOn e [] := by
  obtain ⟨tail, value, htail⟩ := exists_completes_of_open h
  exact ⟨tail, value, htail, List.nil_prefix⟩

/-- The next byte is one of those that are allowed. -/
theorem GoesOn.allows {e : Expected} {b : UInt8} {bytes : List UInt8} (h : GoesOn e (b :: bytes)) :
    e.low ≤ b ∧ b ≤ e.high := by
  obtain ⟨tail, value, htail, hpre⟩ := h
  cases htail with
  | last allows =>
    obtain ⟨rfl, -⟩ := List.cons_prefix_cons.1 hpre
    exact allows
  | step allows =>
    obtain ⟨rfl, -⟩ := List.cons_prefix_cons.1 hpre
    exact allows

theorem goesOn_cons_iff {e : Expected} {b : UInt8} {bytes : List UInt8} {more : Nat}
    (hb : e.low ≤ b ∧ b ≤ e.high) (hmore : e.more = more + 1) :
    GoesOn e (b :: bytes) ↔ GoesOn (e.step b more) bytes := by
  constructor
  · rintro ⟨tail, value, htail, hpre⟩
    obtain ⟨b', later, -, rfl, hlater⟩ := htail.uncons hmore
    obtain ⟨rfl, hrest⟩ := List.cons_prefix_cons.1 hpre
    exact ⟨later, value, hlater, hrest⟩
  · rintro ⟨tail, value, htail, hpre⟩
    exact ⟨b :: tail, value, .step hb hmore htail, List.cons_prefix_cons.2 ⟨rfl, hpre⟩⟩

/-- What is given up of an unfinished encoding are the bytes with which it may go on, as many as
there are. -/
theorem complete_invalid {seen bytes part left : List UInt8} {e : Expected} (hopen : e.Open)
    (h : complete seen e bytes = (.invalid part, left)) :
    ∃ used, part = seen ++ used ∧ GoesOn e used ∧
      ∀ longer, longer <+: bytes → GoesOn e longer → longer.length ≤ used.length := by
  induction bytes generalizing seen e with
  | nil =>
    obtain ⟨hpart, -⟩ := Prod.mk.inj h
    refine ⟨[], by simpa using (Piece.invalid.inj hpart).symm, goesOn_nil hopen, ?_⟩
    intro longer hpre _
    simp [List.prefix_nil.1 hpre]
  | cons b rest ih =>
    rw [complete] at h
    by_cases hb : e.low ≤ b ∧ b ≤ e.high
    · rw [if_pos hb] at h
      cases hmore : e.more with
      | zero => simp [hmore] at h
      | succ more =>
        simp only [hmore] at h
        obtain ⟨used, rfl, hused, hlongest⟩ := ih (open_step e b more) h
        refine ⟨b :: used, by simp, (goesOn_cons_iff hb hmore).2 hused, ?_⟩
        intro longer hpre hlonger
        cases longer with
        | nil => exact Nat.zero_le _
        | cons b' longer =>
          obtain ⟨rfl, hrest⟩ := List.cons_prefix_cons.1 hpre
          exact Nat.succ_le_succ (hlongest longer hrest ((goesOn_cons_iff hb hmore).1 hlonger))
    · -- with this byte no encoding goes on
      rw [if_neg hb] at h
      obtain ⟨hpart, -⟩ := Prod.mk.inj h
      refine ⟨[], by simpa using (Piece.invalid.inj hpart).symm, goesOn_nil hopen, ?_⟩
      intro longer hpre hlonger
      cases longer with
      | nil => exact Nat.le_refl _
      | cons b' longer =>
        obtain ⟨rfl, -⟩ := List.cons_prefix_cons.1 hpre
        exact absurd hlonger.allows hb

/-! ## First bytes -/

/-- What begins with a byte that is not ASCII begins with a first byte, and goes on. -/
theorem exists_expectedAfter_of_begins {a : UInt8} {bytes : List UInt8} (ha : ¬ a < 0x80)
    (h : Begins (a :: bytes)) : ∃ e, expectedAfter a = some e ∧ GoesOn e bytes := by
  obtain ⟨c, hpre⟩ := h
  by_cases hc : c.val.toNat < 0x80
  · obtain ⟨a', hlt, -, -, hbytes⟩ := exists_ascii hc
    rw [hbytes] at hpre
    obtain ⟨rfl, -⟩ := List.cons_prefix_cons.1 hpre
    exact absurd hlt ha
  · obtain ⟨a', e, tail, hbytes, he, htail⟩ := exists_completes (Nat.not_lt.1 hc)
    rw [hbytes] at hpre
    obtain ⟨rfl, hrest⟩ := List.cons_prefix_cons.1 hpre
    exact ⟨e, he, tail, _, htail, hrest⟩

theorem begins_of_goesOn {a : UInt8} {e : Expected} {bytes : List UInt8}
    (he : expectedAfter a = some e) (h : GoesOn e bytes) : Begins (a :: bytes) := by
  obtain ⟨tail, value, htail, hpre⟩ := h
  refine ⟨Char.ofNat value, ?_⟩
  rw [encode_of_completes he htail]
  exact List.cons_prefix_cons.2 ⟨rfl, hpre⟩

/-! ## The pieces -/

/-- Where an encoding stands, it is the next piece. -/
theorem next_of_prefix {c : Char} {b : UInt8} {rest : List UInt8}
    (h : String.utf8EncodeChar c <+: b :: rest) : (next b rest).1 = .scalar c := by
  obtain ⟨later, hlater⟩ := h
  have hpieces := pieces_encodeChar c later
  rw [hlater, pieces] at hpieces
  exact (List.cons.inj hpieces).1

/-- A piece that is invalid is a maximal invalid part. -/
theorem maximalInvalid_next {b : UInt8} {rest part left : List UInt8}
    (h : next b rest = (.invalid part, left)) : MaximalInvalid part (b :: rest) := by
  have hparts := bytes_next b rest
  rw [h] at hparts
  have hfront : part <+: b :: rest := ⟨left, hparts⟩
  have hincomplete : ∀ c : Char, ¬ String.utf8EncodeChar c <+: b :: rest := by
    intro c hpre
    have hscalar := next_of_prefix hpre
    rw [h] at hscalar
    cases hscalar
  by_cases hb : b < 0x80
  · rw [next_ascii rest hb] at h
    cases (Prod.mk.inj h).1
  cases he : expectedAfter b with
  | none =>
    -- no encoding begins with this byte, so it stands alone
    rw [next, if_neg hb, he] at h
    obtain ⟨hpart, -⟩ := Prod.mk.inj h
    obtain rfl := Piece.invalid.inj hpart
    refine ⟨hincomplete, hfront, List.cons_ne_nil b [], Or.inr rfl, ?_⟩
    intro longer hpre hlonger
    cases longer with
    | nil => exact Nat.zero_le _
    | cons b' longer =>
      obtain ⟨rfl, -⟩ := List.cons_prefix_cons.1 hpre
      obtain ⟨e, he', -⟩ := exists_expectedAfter_of_begins hb hlonger
      rw [he] at he'
      cases he'
  | some e =>
    rw [next_of_expectedAfter rest he] at h
    obtain ⟨used, rfl, hused, hlongest⟩ := complete_invalid (open_of_expectedAfter he) h
    refine ⟨hincomplete, hfront, List.cons_ne_nil b used, Or.inl (begins_of_goesOn he hused), ?_⟩
    intro longer hpre hlonger
    cases longer with
    | nil => exact Nat.zero_le _
    | cons b' longer =>
      obtain ⟨rfl, hrest⟩ := List.cons_prefix_cons.1 hpre
      obtain ⟨e', he', hgoesOn⟩ := exists_expectedAfter_of_begins hb hlonger
      obtain rfl := Option.some.inj (he.symm.trans he')
      exact Nat.succ_le_succ (hlongest longer hrest hgoesOn)

theorem cut_pieces (bytes : List UInt8) : Cut bytes (pieces bytes) := by
  fun_induction pieces bytes with
  | case1 => exact .done
  | case2 b rest ih =>
    have hparts := bytes_next b rest
    rcases hnext : next b rest with ⟨piece, left⟩
    rw [hnext] at ih hparts
    rw [← hparts]
    cases piece with
    | scalar c => exact .scalar ih
    | invalid part =>
      refine .invalid ?_ ih
      have hhere := maximalInvalid_next hnext
      rwa [← hparts] at hhere

/-- The pieces are the only cut. -/
theorem cut_iff {bytes : List UInt8} {cut : List Piece} : Cut bytes cut ↔ cut = pieces bytes := by
  constructor
  · intro h
    induction h with
    | done => rw [pieces]
    | @scalar c rest cut _ ih => rw [pieces_encodeChar, ih]
    | @invalid part rest cut here _ ih =>
      obtain ⟨b, tail, rfl⟩ := List.exists_cons_of_ne_nil here.nonempty
      rw [List.cons_append] at here ⊢
      have hparts := bytes_next b (tail ++ rest)
      rcases hnext : next b (tail ++ rest) with ⟨piece, left⟩
      rw [hnext] at hparts
      cases piece with
      | scalar c => exact absurd ⟨left, hparts⟩ (here.incomplete c)
      | invalid other =>
        -- both parts are maximal, so what is left after them is the same
        obtain rfl := here.eq (maximalInvalid_next hnext)
        obtain rfl : left = rest := by
          rw [Piece.bytes, ← List.cons_append] at hparts
          exact List.append_cancel_left hparts
        rw [pieces, hnext, ih]
  · rintro rfl
    exact cut_pieces bytes

/-! ## Valid bytes -/

theorem isValid_iff {bytes : List UInt8} :
    isValid bytes = true ↔ ∀ part, .invalid part ∉ pieces bytes := by
  rw [isValid, List.all_eq_true]
  constructor
  · intro h part hpart
    cases h _ hpart
  · intro h piece hpiece
    cases piece with
    | scalar c => rfl
    | invalid part => exact absurd hpiece (h part)

/-- Bytes without an invalid part are those of their text. -/
theorem encode_decode {bytes : List UInt8} (h : isValid bytes = true) :
    encode (decode bytes) = bytes := by
  have hkept : ∀ piece ∈ pieces bytes, String.utf8EncodeChar piece.char = piece.bytes := by
    intro piece hpiece
    cases piece with
    | scalar c => rfl
    | invalid part => exact absurd hpiece (isValid_iff.1 h part)
  calc encode (decode bytes)
      = ((pieces bytes).map Piece.char).flatMap String.utf8EncodeChar := by
        rw [encode, decode, String.toList_ofList, encodeChars, decodeChars]
    _ = (pieces bytes).flatMap Piece.bytes := by
        rw [List.flatMap_map]
        exact List.flatMap_congr hkept
    _ = bytes := bytes_pieces bytes

theorem isValid_encodeChars (chars : List Char) : isValid (encodeChars chars) = true := by
  refine isValid_iff.2 fun part => ?_
  rw [pieces_encodeChars]
  simp

/-- The bytes of a text, and no others, can be taken for it as they are. -/
theorem fromUTF8?_eq_some_iff {bytes : List UInt8} {text : String} :
    String.fromUTF8? bytes.toByteArray = some text ↔ bytes = encode text := by
  have hchars : text.toByteArray = (encode text).toByteArray := by
    have harray : (String.ofList text.toList).toByteArray = (encode text).toByteArray := rfl
    rwa [String.ofList_toList] at harray
  have hbytes : bytes.toByteArray = text.toByteArray ↔ bytes = encode text := by
    rw [hchars]
    constructor
    · intro h
      have hdata := congrArg (fun array : ByteArray => array.data.toList) h
      simpa only [List.toList_data_toByteArray] using hdata
    · rintro rfl
      rfl
  rw [← hbytes, String.fromUTF8?]
  split
  · rw [Option.some.injEq, ← String.toByteArray_inj]
    rfl
  · next hinvalid =>
    -- the bytes of a text are valid
    constructor
    · intro h
      cases h
    · intro h
      rw [h] at hinvalid
      exact absurd text.isValidUTF8 hinvalid

theorem eq_encode_iff {bytes : List UInt8} {text : String} :
    bytes = encode text ↔ isValid bytes = true ∧ text = decode bytes := by
  constructor
  · rintro rfl
    exact ⟨isValid_encodeChars text.toList, (decode_encode text).symm⟩
  · rintro ⟨hvalid, rfl⟩
    exact (encode_decode hvalid).symm

/-! ## The text -/

/-- A byte sequence is cut in one way only. Its text has a character for each part of this cut: the
scalar value that is encoded, or a replacement for what is invalid. The bytes can be taken as they
are exactly if no part is invalid, which leads to the same text, and exactly then the text has these
bytes again. So every text is decoded from its bytes. -/
theorem existsUnique_cut_decode :
    (∀ bytes, ∃ cut : List Piece, (∀ other, Cut bytes other ↔ other = cut) ∧
      (decode bytes).toList = cut.map Piece.char ∧
      (∀ (i : Nat) (part : List UInt8), cut[i]? = some (Piece.invalid part) →
        (decode bytes).toList[i]? = some '\uFFFD') ∧
      (∀ text, String.fromUTF8? bytes.toByteArray = some text ↔
        (∀ part, .invalid part ∉ cut) ∧ text = decode bytes) ∧
      asText bytes = decode bytes ∧
      (encode (decode bytes) = bytes ↔ ∀ part, .invalid part ∉ cut)) ∧
    ∀ text, decode (encode text) = text := by
  refine ⟨fun bytes => ⟨pieces bytes, fun other => cut_iff, ?_, ?_, ?_, ?_, ?_⟩, decode_encode⟩
  · rw [decode, String.toList_ofList, decodeChars]
  · intro i part hpart
    rw [decode, String.toList_ofList, decodeChars, List.getElem?_map, hpart]
    rfl
  · intro text
    rw [fromUTF8?_eq_some_iff, eq_encode_iff, isValid_iff]
  · rw [asText]
    cases htext : String.fromUTF8? bytes.toByteArray with
    | none => rfl
    | some text => exact (eq_encode_iff.1 (fromUTF8?_eq_some_iff.1 htext)).2
  · rw [← isValid_iff]
    exact ⟨fun hbytes => (eq_encode_iff.1 hbytes.symm).1, encode_decode⟩

/-- Encodings that are cut short, overlong forms, a surrogate, and a value that is too large. -/
example : pieces [0xE2, 0x82, 0xE2, 0x82, 0xAC, 0xC0, 0x80, 0xED, 0xA0, 0xF0, 0x9F, 0x98, 0x21,
      0xF4, 0x90]
    = [.invalid [0xE2, 0x82], .scalar '€', .invalid [0xC0], .invalid [0x80], .invalid [0xED],
      .invalid [0xA0], .invalid [0xF0, 0x9F, 0x98], .scalar '!', .invalid [0xF4],
      .invalid [0x90]] := by decide +kernel

end Utf8
end CommandShell
