import CommandShell.Proofs.SideBySide
import CommandShell.Proofs.Sinks
import CommandShell.Rehearsal

/-!
# How bytes travel

Bytes may come in groups of any size, reads may be interrupted, a stream may take few bytes at a
time and interrupt every other write. Nothing of this reaches the shell. A read depends only on the
items that are no interruptions (`Input.readLine_congr`), and what a write takes of a text, how it
ends and what room it leaves follow from the room alone (`Sink.write_eq`). So two worlds that
differ in such details stay so, whatever is done to them, and what is seen of two sessions is the
same (`Session.run_transport`).
-/

namespace CommandShell

/-! ## Reads -/

namespace Input

/-- The item only interrupts a read. -/
def Item.interrupts : Item → Bool
  | .fault f => f.isInterruption
  | _ => false

/-- The items that are no interruptions. -/
def undisturbed (items : List Item) : List Item := items.filter fun item => !item.interrupts

theorem undisturbed_cons {item : Item} (rest : List Item) (h : item.interrupts = false) :
    undisturbed (item :: rest) = item :: undisturbed rest :=
  List.filter_cons_of_pos (by rw [h]; rfl)

theorem undisturbed_cons_of_interrupts {item : Item} (rest : List Item)
    (h : item.interrupts = true) : undisturbed (item :: rest) = undisturbed rest :=
  List.filter_cons_of_neg (by rw [h]; exact Bool.false_ne_true)

/-- Interruptions hold no bytes. -/
theorem dataSize_undisturbed (items : List Item) :
    dataSize (undisturbed items) = dataSize items := by
  rw [dataSize, dataSize, undisturbed, List.countP_filter]
  refine List.countP_congr fun item _ => ?_
  cases item <;> simp [Item.isByte, Item.interrupts]

theorem cutFrom_undisturbed (seen : List UInt8) (taken taken' items : List Item) :
    (cutFrom seen taken' (undisturbed items)).reading = (cutFrom seen taken items).reading ∧
      (cutFrom seen taken' (undisturbed items)).rest
        = undisturbed (cutFrom seen taken items).rest := by
  fun_induction cutFrom seen taken items generalizing taken' with
  | case1 seen taken => exact ⟨rfl, rfl⟩
  | case2 seen taken rest =>
    rw [undisturbed_cons rest rfl, cutFrom, if_pos rfl]
    exact ⟨rfl, rfl⟩
  | case3 seen taken b rest hb ih =>
    rw [undisturbed_cons rest rfl, cutFrom, if_neg hb]
    exact ih _
  | case4 seen taken rest =>
    rw [undisturbed_cons rest rfl, cutFrom]
    exact ⟨rfl, rfl⟩
  | case5 seen taken f rest hf ih =>
    have hitem : (Item.fault f).interrupts = true := hf
    rw [undisturbed_cons_of_interrupts rest hitem]
    exact ih _
  | case6 seen taken f rest hf =>
    have hitem : (Item.fault f).interrupts = false := Bool.eq_false_iff.2 hf
    rw [undisturbed_cons rest hitem, cutFrom, if_neg hf]
    exact ⟨rfl, rfl⟩

/-- A read is that of the items without the interruptions. -/
theorem readLine_undisturbed (items : List Item) :
    (readLine (undisturbed items)).reading = (readLine items).reading ∧
      (readLine (undisturbed items)).rest = undisturbed (readLine items).rest := by
  obtain ⟨hreading, hrest⟩ := cutFrom_undisturbed [] [] [] items
  exact ⟨congrArg (Reading.map Utf8.decode) hreading, hrest⟩

/-- Inputs that differ only in interruptions are read alike, and what is left of them differs only
in interruptions. -/
theorem readLine_congr {items items' : List Item} (h : undisturbed items = undisturbed items') :
    (readLine items).reading = (readLine items').reading ∧
      undisturbed (readLine items).rest = undisturbed (readLine items').rest := by
  obtain ⟨hreading, hrest⟩ := readLine_undisturbed items
  obtain ⟨hreading', hrest'⟩ := readLine_undisturbed items'
  rw [h] at hreading hrest
  exact ⟨hreading.symm.trans hreading', hrest.symm.trans hrest'⟩

theorem congruent_undisturbed :
    Congruent fun input input' => undisturbed input = undisturbed input' where
  reading h := congrArg (Reading.map words) (readLine_congr h).1
  rest h := (readLine_congr h).2

end Input

/-! ## Sinks -/

namespace Sink

/-- Sinks with the same limits. They may differ in the size of the pieces that they take, as long
as that is not zero, and in whether they interrupt writes. -/
structure Alike (s t : Sink) : Prop where
  room : s.room = t.room
  refusal : s.refusal = t.refusal
  flushes : s.flushes = t.flushes
  failingFlush : s.failingFlush = t.failingFlush
  takes : s.pieceSize ≠ some 0
  takes' : t.pieceSize ≠ some 0

theorem Alike.write {s t : Sink} (h : s.Alike t) (bytes : List UInt8) :
    (s.write bytes).bytes = (t.write bytes).bytes ∧
      (s.write bytes).fault? = (t.write bytes).fault? ∧
      (s.write bytes).sink.Alike (t.write bytes).sink := by
  obtain ⟨next, hs⟩ := write_eq h.takes bytes
  obtain ⟨next', ht⟩ := write_eq h.takes' bytes
  rw [hs, ht]
  refine ⟨?_, ?_, ?_⟩
  · simp only [fitting, h.room]
  · simp only [shortage?, h.room, h.refusal]
  · exact ⟨congrArg (Option.map (· - bytes.length)) h.room, h.refusal, h.flushes,
      h.failingFlush, h.takes, h.takes'⟩

theorem Alike.flush {s t : Sink} (h : s.Alike t) :
    s.flush.1 = t.flush.1 ∧ s.flush.2.Alike t.flush.2 := by
  rw [Sink.flush, Sink.flush]
  refine ⟨?_, ?_⟩
  · simp only [h.failingFlush, h.flushes]
  · exact ⟨h.room, h.refusal, congrArg Nat.succ h.flushes, h.failingFlush, h.takes, h.takes'⟩

end Sink

variable {σ : Type}

/-! ## Worlds -/

namespace World

/-- Worlds with the same system, in which both streams have the same limits. -/
structure Alike (w w' : World σ) : Prop where
  out : w.out.Alike w'.out
  err : w.err.Alike w'.err
  system : w.system = w'.system

theorem Alike.sink {w w' : World σ} (h : w.Alike w') (stream : Stream) :
    (w.sink stream).Alike (w'.sink stream) := by
  cases stream with
  | out => exact h.out
  | err => exact h.err

theorem Alike.setSink {w w' : World σ} (h : w.Alike w') (stream : Stream) {s t : Sink}
    (hs : s.Alike t) : (w.setSink stream s).Alike (w'.setSink stream t) := by
  cases stream with
  | out => exact ⟨hs, h.err, h.system⟩
  | err => exact ⟨h.out, hs, h.system⟩

end World

/-! ## Actions -/

namespace Action

variable {ε α : Type}

/-- The action does the same in worlds that are alike, and leaves them alike. -/
def Indifferent (act : Action σ ε α) : Prop :=
  ∀ w w', w.Alike w' → (act w).trace = (act w').trace ∧ (act w).answer = (act w').answer ∧
    (act w).world.Alike (act w').world

theorem indifferent_note (e : Event) : Indifferent (note e : Action σ ε Unit) :=
  fun _ _ h => ⟨rfl, rfl, h⟩

theorem indifferent_writeBytes (stream : Stream) (bytes : List UInt8) :
    Indifferent (writeBytes stream bytes : Action σ Fault Unit) := by
  intro w w' h
  obtain ⟨hbytes, hfault, hsink⟩ := (h.sink stream).write bytes
  have hworld := h.setSink stream hsink
  rw [writeBytes, writeBytes]
  cases hf : ((w'.sink stream).write bytes).fault? with
  | none =>
    simp only [hfault, hf, hbytes]
    exact ⟨trivial, trivial, hworld⟩
  | some f =>
    simp only [hfault, hf, hbytes]
    exact ⟨trivial, trivial, hworld⟩

theorem indifferent_flush (stream : Stream) :
    Indifferent (flush stream : Action σ Fault Unit) := by
  intro w w' h
  obtain ⟨hfault, hsink⟩ := (h.sink stream).flush
  have hworld := h.setSink stream hsink
  simp only [flush, hfault]
  exact ⟨trivial, trivial, hworld⟩

theorem indifferent_changeDirectory (sys : System σ) (path : String) :
    Indifferent (changeDirectory sys path) := by
  intro w w' h
  rw [changeDirectory, changeDirectory, h.system]
  cases sys.changeDirectory path w'.system with
  | error f => exact ⟨rfl, rfl, h⟩
  | ok s => exact ⟨rfl, rfl, h.out, h.err, rfl⟩

theorem indifferent_launch (sys : System σ) (args : List String) :
    Indifferent (launch sys args) := by
  intro w w' h
  simp only [launch, h.system]
  exact ⟨trivial, trivial, h.out, h.err, rfl⟩

/-- No action of the shell tells worlds apart that are alike. -/
theorem compositional_indifferent (sys : System σ) :
    Compositional sys fun act => Indifferent act where
  pure _ _ _ h := ⟨rfl, rfl, h⟩
  fail _ _ _ h := ⟨rfl, rfl, h⟩
  follow hfirst hnext w w' h := by
    obtain ⟨htrace, hanswer, hworld⟩ := hfirst w w' h
    rw [follow, follow, hanswer]
    obtain ⟨htrace', hanswer', hworld'⟩ := hnext _ _ _ hworld
    exact ⟨congrArg₂ (· ++ ·) htrace htrace', hanswer', hworld'⟩
  prompting := indifferent_note _
  read _ := indifferent_note _
  entered _ := indifferent_note _
  writeBytes := indifferent_writeBytes
  flush := indifferent_flush
  changeDirectory := indifferent_changeDirectory sys
  launch := indifferent_launch sys

end Action

/-! ## Sessions -/

namespace Session

open Input (Item Arrival undisturbed)

variable {sys : System σ} {settings : Settings} {input input' : List Item} {w w' : World σ}

/-- Sessions that do the same, but for the interruptions of their reads. -/
structure Ending.Alike (ending ending' : Ending σ) : Prop where
  shows : ending.trace.seen = ending'.trace.seen
  answer : ending.answer = ending'.answer
  unread : undisturbed ending.unread = undisturbed ending'.unread
  world : ending.world.Alike ending'.world

theorem run_alike (sys : System σ) (settings : Settings) (input : List Item) (w : World σ)
    {input' : List Item} {w' : World σ} (hin : undisturbed input = undisturbed input')
    (hw : w.Alike w') : (run sys settings input w).Alike (run sys settings input' w') := by
  have hacts : Compositional sys fun act => Action.Respects World.Alike act :=
    Action.compositional_indifferent sys
  have h := run_related Input.congruent_undisturbed hacts settings hin hw
  refine ⟨?_, h.answer, h.unread, h.world⟩
  rw [← Trace.seen_withoutReads, h.does, Trace.seen_withoutReads]

/-- How the bytes of the input are grouped, where reads are interrupted, how many bytes a write
takes at most, as long as that is not zero, and whether every other write is interrupted: nothing
of this changes what is seen of a session, its answer, the state in which it leaves the system, or
the number of bytes that it leaves unread. -/
theorem run_transport (sys : System σ) (settings : Settings) (arrivals arrivals' : List Arrival)
    (w w' : World σ)
    (hin : undisturbed (Input.ofArrivals arrivals) = undisturbed (Input.ofArrivals arrivals'))
    (hout : w.out.Alike w'.out) (herr : w.err.Alike w'.err) (hsystem : w.system = w'.system) :
    let ending := run sys settings (Input.ofArrivals arrivals) w
    let ending' := run sys settings (Input.ofArrivals arrivals') w'
    ending.trace.seen = ending'.trace.seen ∧ ending.answer = ending'.answer ∧
      ending.world.system = ending'.world.system ∧
      Input.dataSize ending.unread = Input.dataSize ending'.unread := by
  intro ending ending'
  have h := run_alike sys settings _ w hin ⟨hout, herr, hsystem⟩
  have hunread : Input.dataSize ending.unread = Input.dataSize ending'.unread := by
    rw [← Input.dataSize_undisturbed, h.unread, Input.dataSize_undisturbed]
  exact ⟨h.shows, h.answer, h.world.system, hunread⟩

/-- Two commands in one group of bytes. -/
def inOneGroup : List Arrival := [.bytes (Utf8.encode "help\nls\n")]

/-- The same bytes in three groups, with reads interrupted between them. -/
def inThreeGroups : List Arrival :=
  [.bytes (Utf8.encode "he"), .fault (.numbered 4), .bytes (Utf8.encode "lp\nl"),
    .fault (.classified .interrupted), .fault (.numbered 4), .bytes (Utf8.encode "s\n")]

/-- A standard output with room for 40 bytes, that takes any number of them at a time, or three
and interrupts every other write. -/
def limitedWorld (halting : Bool) : World Rehearsal :=
  let out : Sink := { room := some 40, refusal := .fault .noSpace rfl }
  ⟨if halting then { out with pieceSize := some 3, interrupts := true } else out, {},
    (⟨⟨[]⟩, []⟩, [])⟩

theorem run_transport_limited :
    undisturbed (Input.ofArrivals inOneGroup) = undisturbed (Input.ofArrivals inThreeGroups) ∧
      (limitedWorld false).out.Alike (limitedWorld true).out ∧
      (limitedWorld false).err.Alike (limitedWorld true).err ∧
      (limitedWorld false).system = (limitedWorld true).system ∧
      (run Rehearsal.system {} (Input.ofArrivals inThreeGroups) (limitedWorld true)).answer
        = .error (.prompt .noSpace) ∧
      Input.dataSize (run Rehearsal.system {} (Input.ofArrivals inThreeGroups)
        (limitedWorld true)).unread = 3 := by
  have hin : undisturbed (Input.ofArrivals inOneGroup)
      = undisturbed (Input.ofArrivals inThreeGroups) := by decide
  have hout : (limitedWorld false).out.Alike (limitedWorld true).out :=
    ⟨rfl, rfl, rfl, rfl, by decide, by decide⟩
  have herr : (limitedWorld false).err.Alike (limitedWorld true).err :=
    ⟨rfl, rfl, rfl, rfl, by decide, by decide⟩
  obtain ⟨-, hanswer, -, hunread⟩ := run_transport Rehearsal.system {} inOneGroup inThreeGroups
    (limitedWorld false) (limitedWorld true) hin hout herr rfl
  refine ⟨hin, hout, herr, rfl, ?_, ?_⟩
  · rw [← hanswer]
    decide +kernel
  · rw [← hunread]
    decide +kernel

end Session
end CommandShell
