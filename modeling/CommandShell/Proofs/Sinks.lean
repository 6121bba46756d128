import CommandShell.Sink
import Mathlib.Tactic.Common

/-!
# What a sink makes of a text

A text that is written to a sink may be taken in many pieces, with interruptions between them. What
is taken of it in the end, whether that is all, and what room is left follow from the room alone
(`Sink.write_eq`); how a flush ends follows from its number (`Sink.flush`).
-/

namespace CommandShell
namespace Sink

/-! ## Writes -/

/-- The part of a text for which there is room. -/
def fitting (s : Sink) (bytes : List UInt8) : List UInt8 :=
  match s.room with
  | none => bytes
  | some room => bytes.take room

/-- The fault with which a text ends for which there is not enough room. -/
def shortage? (s : Sink) (bytes : List UInt8) : Option Fault :=
  match s.room with
  | none => none
  | some room => if bytes.length ≤ room then none else some s.refusal.toFault

@[simp] theorem write_nil (s : Sink) : s.write [] = ⟨[], none, s⟩ := by
  rw [write, dif_pos rfl]

/-- One write of at least a byte is interrupted, is refused for want of room, or takes a part of
what is offered. -/
theorem offer_cases {s : Sink} (h : s.pieceSize ≠ some 0) {offered : Nat} (hpos : 0 < offered) :
    s.offer offered = (.interrupted, { s with interruptNext := false }) ∨
    (s.room = some 0 ∧
      (s.offer offered = (.refused s.refusal.toFault, { s with interruptNext := true }) ∨
        s.refusal.toFault = .takesNothing ∧
          s.offer offered = (.took 0, { s with interruptNext := true }))) ∨
    ∃ count, count + 1 ≤ offered ∧ (∀ room, s.room = some room → count + 1 ≤ room) ∧
      s.offer offered = (.took (count + 1),
        { s with room := s.room.map (· - (count + 1)), interruptNext := true }) := by
  rw [offer]
  split
  · exact Or.inl rfl
  · right
    -- a piece of at least one byte is offered
    have hpiece : 0 < min offered (s.pieceSize.getD offered) := by
      cases hp : s.pieceSize with
      | none => rwa [Option.getD_none, Nat.min_self]
      | some size =>
        have hsize : 0 < size := Nat.pos_of_ne_zero fun h0 => h (by rw [hp, h0])
        rw [Option.getD_some]
        omega
    have hle : min offered (s.pieceSize.getD offered) ≤ offered := Nat.min_le_left _ _
    rw [accept]
    rcases hroom : s.room with _ | _ | room
    · right
      refine ⟨min offered (s.pieceSize.getD offered) - 1, by omega, by simp, ?_⟩
      simp only [Nat.sub_add_cancel hpiece, Option.map_none]
    · left
      refine ⟨rfl, ?_⟩
      cases hrefusal : s.refusal with
      | fault f lasting => exact Or.inl rfl
      | takesNothing => exact Or.inr ⟨rfl, rfl⟩
    · right
      have hcount : 0 < min (min offered (s.pieceSize.getD offered)) (room + 1) := by omega
      refine ⟨min (min offered (s.pieceSize.getD offered)) (room + 1) - 1, by omega, ?_, ?_⟩
      · intro room' heq
        cases heq
        omega
      · simp only [Nat.sub_add_cancel hcount, Option.map_some]

theorem fitting_nil (s : Sink) : s.fitting [] = [] := by
  cases hroom : s.room <;> simp [fitting, hroom]

theorem shortage?_nil (s : Sink) : s.shortage? [] = none := by
  cases hroom : s.room <;> simp [shortage?, hroom]

/-- Where there is no room, nothing fits. -/
theorem fitting_of_full {s : Sink} (h : s.room = some 0) (bytes : List UInt8) :
    s.fitting bytes = [] := by
  rw [fitting, h]
  rfl

theorem shortage?_of_full {s : Sink} (h : s.room = some 0) {bytes : List UInt8}
    (hne : bytes ≠ []) : s.shortage? bytes = some s.refusal.toFault := by
  have hpos := List.length_pos_iff.2 hne
  simp only [shortage?, h, if_neg (Nat.not_le.2 hpos)]

theorem room_of_full {s : Sink} (h : s.room = some 0) (count : Nat) :
    s.room.map (· - count) = s.room := by
  rw [h, Option.map_some, Nat.zero_sub]

/-- What was taken of a text, and what is taken of the rest of it. -/
theorem fitting_append {s : Sink} {first : List UInt8} (rest : List UInt8)
    (h : ∀ room, s.room = some room → first.length ≤ room) (next : Bool) :
    s.fitting (first ++ rest) = first ++ { s with
      room := s.room.map (· - first.length), interruptNext := next }.fitting rest := by
  cases hroom : s.room with
  | none => simp only [fitting, hroom, Option.map_none]
  | some room =>
    have hle := h room hroom
    simp only [fitting, hroom, Option.map_some, List.take_append, List.take_of_length_le hle]

theorem shortage?_append {s : Sink} {first : List UInt8} (rest : List UInt8)
    (h : ∀ room, s.room = some room → first.length ≤ room) (next : Bool) :
    s.shortage? (first ++ rest) = { s with
      room := s.room.map (· - first.length), interruptNext := next }.shortage? rest := by
  cases hroom : s.room with
  | none => simp only [shortage?, hroom, Option.map_none]
  | some room =>
    have hle := h room hroom
    have hiff : first.length + rest.length ≤ room ↔ rest.length ≤ room - first.length := by omega
    simp only [shortage?, hroom, Option.map_some, List.length_append, hiff]

/-- A write takes what there is room for, in however many pieces and after however many
interruptions. It fails exactly if that is not all, and uses up the room. -/
theorem write_eq {s : Sink} (h : s.pieceSize ≠ some 0) (bytes : List UInt8) :
    ∃ next, s.write bytes =
      ⟨s.fitting bytes, s.shortage? bytes,
        { s with room := s.room.map (· - bytes.length), interruptNext := next }⟩ := by
  fun_induction write s bytes with
  | case1 s =>
    have hleft : s.room.map (· - ([] : List UInt8).length) = s.room := by
      cases s.room <;> rfl
    refine ⟨s.interruptNext, ?_⟩
    rw [fitting_nil, shortage?_nil, hleft]
  | case2 s bytes hne after ho ih =>
    rcases offer_cases h (List.length_pos_iff.2 hne) with
      ho' | ⟨-, ho' | ⟨-, ho'⟩⟩ | ⟨count, -, -, ho'⟩ <;> rw [ho] at ho' <;> cases ho'
    exact ih h
  | case3 s bytes hne f after ho =>
    -- only a sink without room refuses a write
    rcases offer_cases h (List.length_pos_iff.2 hne) with
      ho' | ⟨hroom, ho' | ⟨-, ho'⟩⟩ | ⟨count, -, -, ho'⟩ <;> rw [ho] at ho' <;> cases ho'
    exact ⟨true, by rw [fitting_of_full hroom, shortage?_of_full hroom hne, room_of_full hroom]⟩
  | case4 s bytes hne after ho =>
    rcases offer_cases h (List.length_pos_iff.2 hne) with
      ho' | ⟨hroom, ho' | ⟨hnothing, ho'⟩⟩ | ⟨count, -, -, ho'⟩ <;> rw [ho] at ho' <;> cases ho'
    exact ⟨true, by
      rw [fitting_of_full hroom, shortage?_of_full hroom hne, room_of_full hroom, hnothing]⟩
  | case5 s bytes hne count after ho later ih =>
    rcases offer_cases h (List.length_pos_iff.2 hne) with
      ho' | ⟨-, ho' | ⟨-, ho'⟩⟩ | ⟨count', hle, hroom, ho'⟩
    case inr.inr =>
      rw [ho] at ho'
      cases ho'
      obtain ⟨next, hlater⟩ := ih h
      refine ⟨next, ?_⟩
      -- the write is that of a first part and of the rest
      have hlen : (bytes.take (count + 1)).length = count + 1 := List.length_take_of_le hle
      have hfits : ∀ room, s.room = some room → (bytes.take (count + 1)).length ≤ room := by
        rw [hlen]
        exact hroom
      have hbytes := fitting_append (bytes.drop (count + 1)) hfits true
      have hfault := shortage?_append (bytes.drop (count + 1)) hfits true
      rw [List.take_append_drop, hlen] at hbytes hfault
      have hleft : (s.room.map (· - (count + 1))).map (· - (bytes.drop (count + 1)).length)
          = s.room.map (· - bytes.length) := by
        rw [Option.map_map, List.length_drop]
        refine congrArg (s.room.map ·) (funext fun room => ?_)
        show room - (count + 1) - (bytes.length - (count + 1)) = room - bytes.length
        omega
      simp only [later, hlater, hbytes, hfault, hleft]
    all_goals
      rw [ho] at ho'
      cases ho'

/-- Where room is not limited, a text is taken as a whole. -/
theorem write_of_unlimited {s : Sink} (hroom : s.room = none) (h : s.pieceSize ≠ some 0)
    (bytes : List UInt8) :
    ∃ next, s.write bytes = ⟨bytes, none, { s with interruptNext := next }⟩ := by
  obtain ⟨next, hw⟩ := write_eq h bytes
  refine ⟨next, ?_⟩
  have hleft : s.room.map (· - bytes.length) = s.room := by
    rw [hroom, Option.map_none]
  have hfitting : s.fitting bytes = bytes := by
    simp only [fitting, hroom]
  have hshortage : s.shortage? bytes = none := by
    simp only [shortage?, hroom]
  rw [hw, hfitting, hshortage, hleft]

/-! ### Texts in parts -/

/-- What a text ends with that no write takes a part of. -/
def obstacle (s : Sink) : Fault := if s.room = some 0 then s.refusal.toFault else .takesNothing

/-- A write to a sink whose pieces are empty is interrupted, or it fails. -/
theorem offer_of_stuck {s : Sink} (h : s.pieceSize = some 0) (offered : Nat) :
    s.offer offered = (.interrupted, { s with interruptNext := false }) ∨
      ∃ after, s.offer offered = (.refused s.obstacle, after) ∨
        s.obstacle = .takesNothing ∧ s.offer offered = (.took 0, after) := by
  rw [offer]
  split
  · exact Or.inl rfl
  · right
    have hnothing : ∀ room, min (min offered (s.pieceSize.getD offered)) room = 0 := by
      intro room
      rw [h, Option.getD_some, Nat.min_zero, Nat.zero_min]
    rw [accept, obstacle]
    rcases hroom : s.room with _ | _ | room
    · refine ⟨{ s with interruptNext := true }, Or.inr ⟨rfl, ?_⟩⟩
      simp only [h, hroom, Option.getD_some, Nat.min_zero]
    · cases hrefusal : s.refusal with
      | fault f lasting => exact ⟨_, Or.inl rfl⟩
      | takesNothing => exact ⟨_, Or.inr ⟨rfl, rfl⟩⟩
    · refine ⟨{ s with interruptNext := true }, Or.inr ⟨rfl, ?_⟩⟩
      simp only [hnothing, hroom, Nat.sub_zero]

/-- All texts end with the same fault on a sink whose pieces are empty. -/
theorem fault?_write_of_stuck {s : Sink} (h : s.pieceSize = some 0) {bytes : List UInt8}
    (hne : bytes ≠ []) : (s.write bytes).fault? = some s.obstacle := by
  fun_induction write s bytes with
  | case1 => exact absurd rfl hne
  | case2 s bytes _ after ho ih =>
    rcases offer_of_stuck h bytes.length with ho' | ⟨_, ho' | ⟨-, ho'⟩⟩ <;> rw [ho] at ho' <;>
      cases ho'
    exact ih h hne
  | case3 s bytes _ f after ho =>
    rcases offer_of_stuck h bytes.length with ho' | ⟨_, ho' | ⟨-, ho'⟩⟩ <;> rw [ho] at ho' <;>
      cases ho'
    rfl
  | case4 s bytes _ after ho =>
    rcases offer_of_stuck h bytes.length with ho' | ⟨_, ho' | ⟨hnothing, ho'⟩⟩ <;>
      rw [ho] at ho' <;> cases ho'
    rw [hnothing]
  | case5 s bytes _ count after ho =>
    rcases offer_of_stuck h bytes.length with ho' | ⟨_, ho' | ⟨-, ho'⟩⟩ <;> rw [ho] at ho' <;>
      cases ho'

/-- Room that is short of a text is short of a longer one. -/
theorem shortage?_append_of_some {s : Sink} {first : List UInt8} {f : Fault}
    (h : s.shortage? first = some f) (rest : List UInt8) :
    s.shortage? (first ++ rest) = some f := by
  cases hroom : s.room with
  | none =>
    simp only [shortage?, hroom] at h
    cases h
  | some room =>
    simp only [shortage?, hroom] at h ⊢
    by_cases hle : first.length ≤ room
    · rw [if_pos hle] at h
      cases h
    · have hlonger : ¬(first ++ rest).length ≤ room := by
        rw [List.length_append]
        omega
      rw [if_neg hle] at h
      rw [if_neg hlonger, h]

theorem length_le_of_shortage?_eq_none {s : Sink} {bytes : List UInt8}
    (h : s.shortage? bytes = none) : ∀ room, s.room = some room → bytes.length ≤ room := by
  intro room hroom
  simp only [shortage?, hroom] at h
  by_contra hgt
  rw [if_neg hgt] at h
  cases h

/-- A text that is written in two parts fails as it fails in one: with the fault of the first part,
or with that of the second after the first. -/
theorem fault?_write_append (s : Sink) (first second : List UInt8) :
    (s.write (first ++ second)).fault? =
      (s.write first).fault?.or ((s.write first).sink.write second).fault? := by
  by_cases hnil : first = []
  · rw [hnil, write_nil]
    rfl
  · by_cases hstuck : s.pieceSize = some 0
    · have hwhole : first ++ second ≠ [] := fun h => hnil (List.append_eq_nil_iff.1 h).1
      rw [fault?_write_of_stuck hstuck hwhole, fault?_write_of_stuck hstuck hnil]
      rfl
    · obtain ⟨next, hfirst⟩ := write_eq hstuck first
      obtain ⟨last, hwhole⟩ := write_eq hstuck (first ++ second)
      rw [hfirst, hwhole]
      cases hshort : s.shortage? first with
      | some f =>
        rw [shortage?_append_of_some hshort]
        rfl
      | none =>
        -- the second part meets the room that the first one leaves
        have hleft : { s with
            room := s.room.map (· - first.length), interruptNext := next }.pieceSize ≠ some 0 := hstuck
        obtain ⟨last', hsecond⟩ := write_eq hleft second
        rw [shortage?_append second (length_le_of_shortage?_eq_none hshort) next, hsecond]
        rfl

/-! ## Flushes -/

/-- If all flushes that fail are over, the next one works. -/
theorem flush_of_past {s : Sink} (h : ∀ count, s.flushes < count → s.failingFlush count = none) :
    s.flush = (none, { s with flushes := s.flushes + 1 }) := by
  have hnext := h (s.flushes + 1) (Nat.lt_succ_self s.flushes)
  rw [flush, hnext]

end Sink
end CommandShell
