import CommandShell.Input
import Mathlib.Tactic.Common

/-!
# What a read takes

A read fails exactly if it takes a fault that is no interruption (`failure?_readLine`), and the
items that it takes say what it answers (`reading_readLine_taken`). An input that is empty or ends
in a newline is read as if nothing came after it (`readLine_append`).
-/

namespace CommandShell
namespace Input

/-! ## Faults among the items -/

/-- The fault that an item makes of a read, if it makes one. An interruption makes none. -/
def Item.failure? : Item → Option Fault
  | .fault f => if f.isInterruption then none else some f
  | _ => none

/-- The first fault that some items make of a read. -/
def failure? (items : List Item) : Option Fault := items.findSome? Item.failure?

/-- The fault of an answer. -/
def Reading.fault? {α : Type} : Reading α → Option Fault
  | .fault f => some f
  | _ => none

@[simp] theorem Reading.fault?_map {α β : Type} (f : α → β) (r : Reading α) :
    (r.map f).fault? = r.fault? := by
  cases r <;> rfl

theorem fault?_atEnd (seen : List UInt8) : (atEnd seen).fault? = none := by
  cases seen <;> rfl

theorem failure?_reverse_cons {item : Item} {taken : List Item}
    (h : failure? taken.reverse = none) :
    failure? (item :: taken).reverse = item.failure? := by
  rw [failure?, List.reverse_cons, List.findSome?_append, ← failure?, h]
  cases hi : item.failure? <;> simp [hi]

theorem failure?_cutFrom (seen : List UInt8) (taken items : List Item)
    (h : failure? taken.reverse = none) :
    failure? (cutFrom seen taken items).taken = (cutFrom seen taken items).reading.fault? := by
  -- so far no item has made a fault, and the read goes on as long as this stays so
  fun_induction cutFrom seen taken items with
  | case1 seen taken => rw [h, fault?_atEnd]
  | case2 seen taken rest => exact failure?_reverse_cons h
  | case3 seen taken b rest hb ih => exact ih (failure?_reverse_cons h)
  | case4 seen taken rest => rw [fault?_atEnd]; exact failure?_reverse_cons h
  | case5 seen taken f rest hf ih =>
    apply ih
    rw [failure?_reverse_cons h, Item.failure?, if_pos hf]
  | case6 seen taken f rest hf =>
    rw [failure?_reverse_cons h, Item.failure?, if_neg hf]
    rfl

/-- A read answers with a fault exactly if it took one that is no interruption. -/
theorem failure?_readLine (items : List Item) :
    failure? (readLine items).taken = (readLine items).reading.fault? := by
  rw [readLine, Reading.fault?_map]
  exact failure?_cutFrom [] [] items rfl

/-- Only from a stream that has no items left does a read take nothing. -/
theorem taken_ne_nil {items : List Item} (h : items ≠ []) : (readLine items).taken ≠ [] := by
  intro hnil
  have happ := taken_append_rest items
  have hlt := length_rest_lt h
  rw [hnil, List.nil_append] at happ
  rw [happ] at hlt
  exact Nat.lt_irrefl _ hlt

theorem exists_cutFrom_taken (seen : List UInt8) (taken taken' items : List Item) :
    ∃ used, (cutFrom seen taken items).taken = taken.reverse ++ used ∧
      (cutFrom seen taken' used).reading = (cutFrom seen taken items).reading := by
  fun_induction cutFrom seen taken items generalizing taken' with
  | case1 seen taken => exact ⟨[], (List.append_nil _).symm, rfl⟩
  | case2 seen taken rest => exact ⟨[.byte newline], by simp, by rw [cutFrom, if_pos rfl]⟩
  | case3 seen taken b rest hb ih =>
    obtain ⟨used, htaken, hreading⟩ := ih (.byte b :: taken')
    refine ⟨.byte b :: used, by rw [htaken]; simp, ?_⟩
    rw [cutFrom, if_neg hb, hreading]
  | case4 seen taken rest => exact ⟨[.endMark], by simp, by rw [cutFrom]⟩
  | case5 seen taken f rest hf ih =>
    obtain ⟨used, htaken, hreading⟩ := ih (.fault f :: taken')
    refine ⟨.fault f :: used, by rw [htaken]; simp, ?_⟩
    rw [cutFrom, if_pos hf, hreading]
  | case6 seen taken f rest hf => exact ⟨[.fault f], by simp, by rw [cutFrom, if_neg hf]⟩

/-- The items that a read took say what it answered. -/
theorem reading_readLine_taken (items : List Item) :
    (readLine (readLine items).taken).reading = (readLine items).reading := by
  obtain ⟨used, htaken, hreading⟩ := exists_cutFrom_taken [] [] [] items
  have hused : (readLine items).taken = used := htaken
  rw [hused]
  exact congrArg (Reading.map Utf8.decode) hreading

/-! ## Inputs of whole lines -/

/-- Nothing comes after the last newline: the input is empty, or its last item is a newline. -/
def Complete (items : List Item) : Prop := ∀ item ∈ items.getLast?, item = .byte newline

theorem complete_nil : Complete [] := by
  intro item h
  simp at h

theorem Complete.tail {item : Item} {items : List Item} (h : Complete (item :: items)) :
    Complete items := by
  cases items with
  | nil => exact complete_nil
  | cons next rest => intro last hlast; exact h last (by rwa [List.getLast?_cons_cons])

/-- After an item that is no newline, an input of whole lines goes on. -/
theorem Complete.tail_ne_nil {item : Item} {items : List Item} (h : Complete (item :: items))
    (hne : item ≠ .byte newline) : items ≠ [] := by
  rintro rfl
  exact hne (h item (by simp))

theorem cutFrom_append {items : List Item} (seen : List UInt8) (taken more : List Item)
    (hne : items ≠ []) (hc : Complete items) :
    cutFrom seen taken (items ++ more)
        = { cutFrom seen taken items with rest := (cutFrom seen taken items).rest ++ more } ∧
      Complete (cutFrom seen taken items).rest := by
  -- an item that does not end the read is no newline, so it is not the last one either
  fun_induction cutFrom seen taken items with
  | case1 => exact absurd rfl hne
  | case2 seen taken rest => exact ⟨by simp [cutFrom], hc.tail⟩
  | case3 seen taken b rest hb ih =>
    have hrest := hc.tail_ne_nil fun h => hb (Item.byte.inj h)
    rw [List.cons_append, cutFrom, if_neg hb]
    exact ih hrest hc.tail
  | case4 seen taken rest => exact ⟨by simp [cutFrom], hc.tail⟩
  | case5 seen taken f rest hf ih =>
    have hrest := hc.tail_ne_nil (by simp)
    rw [List.cons_append, cutFrom, if_pos hf]
    exact ih hrest hc.tail
  | case6 seen taken f rest hf => exact ⟨by simp [cutFrom, hf], hc.tail⟩

/-- A read takes the same from an input of whole lines, whatever comes after it. -/
theorem readLine_append {items : List Item} (more : List Item) (hne : items ≠ [])
    (hc : Complete items) :
    readLine (items ++ more)
      = { readLine items with rest := (readLine items).rest ++ more } := by
  have h := (cutFrom_append [] [] more hne hc).1
  rw [readLine, cutLine, h]
  rfl

/-- What a read leaves of an input of whole lines consists of whole lines. -/
theorem complete_rest {items : List Item} (hc : Complete items) :
    Complete (readLine items).rest := by
  by_cases hne : items = []
  · rw [hne]
    exact complete_nil
  · exact (cutFrom_append [] [] [] hne hc).2

end Input
end CommandShell
