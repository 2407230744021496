import Flume.Core.Record
import Flume.Lib.Runs
import Flume.Lib.SortedSet

/-!
# The timer queue

Timers wait in sorted sets, one for event time and one for processing time. Firing splits a set at
the first timer past the watermark.

* `Timer`, with the order of its time and then of its key, byte by byte;
* `TimerQueue`: `registerEventTime`, `deleteEventTime`, `fireEventTimeUpTo`, and the same for
  processing time;
* `TimerServiceImpl`: the queue with the current key and watermark;
* **`fire_splitsExactly_iff`**: firing up to a time splits the queue there, unless it is the last
  time of all and the queue has a timer for it.
-/

namespace Flume

/-- A time, and the key for which the timer was registered. -/
structure Timer where
  time : EventTimestamp
  key : Bytes
  deriving DecidableEq

namespace Timer

theorem injective_toLex :
    Function.Injective fun t : Timer => toLex (t.time, t.key.map UInt8.toNat) := by
  rintro ⟨time, key⟩ ⟨time', key'⟩ h
  obtain ⟨htime, hkey⟩ := Prod.mk.inj (show (time, key.map UInt8.toNat) = (time', _) from h)
  have hbytes : key = key' :=
    List.map_injective_iff.mpr (fun _ _ hbyte => UInt8.toNat_inj.mp hbyte) hkey
  rw [htime, hbytes]

/-- The lexicographic order of the time and the bytes of the key. -/
instance : LinearOrder Timer :=
  LinearOrder.lift' (fun t => toLex (t.time, t.key.map UInt8.toNat)) injective_toLex

theorem lt_iff {a b : Timer} : a < b ↔ a.time < b.time ∨
    a.time = b.time ∧ a.key.map UInt8.toNat < b.key.map UInt8.toNat := Prod.Lex.lt_iff

theorem mk_nil_le {time : EventTimestamp} {t : Timer} : ⟨time, []⟩ ≤ t ↔ time ≤ t.time := by
  rw [← not_lt, lt_iff]
  simp

end Timer

/-- The timers that wait. -/
structure TimerQueue where
  eventTimeTimers : SortedSet Timer
  processingTimeTimers : SortedSet Timer

/-- The first place past the timers of `time` and before; there is none past the last time. -/
def splitPoint (time : EventTimestamp) : Timer := ⟨time.saturatingAdd 1, []⟩

namespace TimerQueue

/-- An empty queue. -/
def new : TimerQueue := ⟨.empty, .empty⟩

def registerEventTime (q : TimerQueue) (timestamp : EventTimestamp) (key : Bytes) : TimerQueue :=
  { q with eventTimeTimers := q.eventTimeTimers.insert ⟨timestamp, key⟩ }

def deleteEventTime (q : TimerQueue) (timestamp : EventTimestamp) (key : Bytes) : TimerQueue :=
  { q with eventTimeTimers := q.eventTimeTimers.remove ⟨timestamp, key⟩ }

/-- Takes the event-time timers up to the watermark out of the queue. -/
def fireEventTimeUpTo (q : TimerQueue) (watermark : EventTimestamp) : List Timer × TimerQueue :=
  let (fired, remaining) := q.eventTimeTimers.splitOff (splitPoint watermark)
  (fired.elems, { q with eventTimeTimers := remaining })

def registerProcessingTime (q : TimerQueue) (timestamp : EventTimestamp) (key : Bytes) :
    TimerQueue :=
  { q with processingTimeTimers := q.processingTimeTimers.insert ⟨timestamp, key⟩ }

def deleteProcessingTime (q : TimerQueue) (timestamp : EventTimestamp) (key : Bytes) :
    TimerQueue :=
  { q with processingTimeTimers := q.processingTimeTimers.remove ⟨timestamp, key⟩ }

/-- Takes the processing-time timers up to `time` out of the queue. -/
def fireProcessingTimeUpTo (q : TimerQueue) (time : EventTimestamp) : List Timer × TimerQueue :=
  let (fired, remaining) := q.processingTimeTimers.splitOff (splitPoint time)
  (fired.elems, { q with processingTimeTimers := remaining })

end TimerQueue

/-- The timer service of an operator: timers are registered for the current key. -/
structure TimerServiceImpl where
  queue : TimerQueue
  currentWatermark : EventTimestamp
  currentKey : Bytes

namespace TimerServiceImpl

def new : TimerServiceImpl := ⟨.new, .MIN, []⟩

def setCurrentKey (s : TimerServiceImpl) (key : Bytes) : TimerServiceImpl :=
  { s with currentKey := key }

def setWatermark (s : TimerServiceImpl) (watermark : EventTimestamp) : TimerServiceImpl :=
  { s with currentWatermark := watermark }

def registerEventTimeTimer (s : TimerServiceImpl) (time : EventTimestamp) : TimerServiceImpl :=
  { s with queue := s.queue.registerEventTime time s.currentKey }

def deleteEventTimeTimer (s : TimerServiceImpl) (time : EventTimestamp) : TimerServiceImpl :=
  { s with queue := s.queue.deleteEventTime time s.currentKey }

def registerProcessingTimeTimer (s : TimerServiceImpl) (time : EventTimestamp) :
    TimerServiceImpl :=
  { s with queue := s.queue.registerProcessingTime time s.currentKey }

def deleteProcessingTimeTimer (s : TimerServiceImpl) (time : EventTimestamp) : TimerServiceImpl :=
  { s with queue := s.queue.deleteProcessingTime time s.currentKey }

end TimerServiceImpl

/-! ## What firing takes out of the queue -/

theorem U64.val_saturatingAdd_one (a : U64) :
    (a.saturatingAdd 1).val = min (a.val + 1) (2 ^ 64 - 1) := by
  have hlt : min (a.val + 1) (2 ^ 64 - 1) < 2 ^ 64 := by omega
  exact Nat.mod_eq_of_lt hlt

theorem splitPoint_le_iff {time : EventTimestamp} {t : Timer} :
    splitPoint time ≤ t ↔ time < t.time ∨ time = .MAX ∧ t.time = .MAX := by
  have hval := U64.val_saturatingAdd_one time
  have htime := time.isLt
  have ht := t.time.isLt
  unfold splitPoint
  rw [Timer.mk_nil_le, Fin.le_def, Fin.lt_def, Fin.ext_iff, Fin.ext_iff, hval]
  change min (time.val + 1) (2 ^ 64 - 1) ≤ t.time.val ↔
    time.val < t.time.val ∨ time.val = 2 ^ 64 - 1 ∧ t.time.val = 2 ^ 64 - 1
  omega

theorem lt_splitPoint_iff {time : EventTimestamp} {t : Timer} :
    t < splitPoint time ↔ t.time ≤ time ∧ ¬ (time = .MAX ∧ t.time = .MAX) := by
  rw [← not_le, splitPoint_le_iff, not_or, not_lt]

/-- A call of the timer queue. -/
inductive QueueCall
  | registerEventTime (timestamp : EventTimestamp) (key : Bytes)
  | deleteEventTime (timestamp : EventTimestamp) (key : Bytes)
  | fireEventTimeUpTo (watermark : EventTimestamp)
  | registerProcessingTime (timestamp : EventTimestamp) (key : Bytes)
  | deleteProcessingTime (timestamp : EventTimestamp) (key : Bytes)
  | fireProcessingTimeUpTo (time : EventTimestamp)

namespace TimerQueue

/-- The queue after a call. -/
def step (q : TimerQueue) : QueueCall → TimerQueue
  | .registerEventTime timestamp key => q.registerEventTime timestamp key
  | .deleteEventTime timestamp key => q.deleteEventTime timestamp key
  | .fireEventTimeUpTo watermark => (q.fireEventTimeUpTo watermark).2
  | .registerProcessingTime timestamp key => q.registerProcessingTime timestamp key
  | .deleteProcessingTime timestamp key => q.deleteProcessingTime timestamp key
  | .fireProcessingTimeUpTo time => (q.fireProcessingTimeUpTo time).2

/-- The queue after a sequence of calls. -/
def run (calls : List QueueCall) : TimerQueue := Runs.exec step new calls

/-- The timers of `before` up to `time` are in `fired`, in ascending order and each once, and the
later ones are in `after`. -/
structure SplitsExactly (time : EventTimestamp) (before : SortedSet Timer) (fired : List Timer)
    (after : SortedSet Timer) : Prop where
  ascending : fired.Pairwise (· < ·)
  fired : ∀ t, t ∈ fired ↔ t ∈ before ∧ t.time ≤ time
  after : ∀ t, t ∈ after ↔ t ∈ before ∧ time < t.time

theorem splitOff_splitsExactly_iff {s : SortedSet Timer} {time : EventTimestamp} :
    SplitsExactly time s (s.splitOff (splitPoint time)).1.elems (s.splitOff (splitPoint time)).2 ↔
      (time = .MAX → ∀ t ∈ s, t.time ≠ .MAX) := by
  constructor
  · rintro ⟨-, hfired, -⟩ rfl t ht hmax
    have hmem := (hfired t).mpr ⟨ht, hmax.le⟩
    rw [SortedSet.mem_elems, SortedSet.mem_splitOff_fst, lt_splitPoint_iff] at hmem
    exact hmem.2.2 ⟨rfl, hmax⟩
  · intro h
    have hlast : ∀ t ∈ s, ¬ (time = .MAX ∧ t.time = .MAX) := fun t ht hmax => h hmax.1 t ht hmax.2
    refine ⟨SortedSet.sorted _, fun t => ?_, fun t => ?_⟩
    · rw [SortedSet.mem_elems, SortedSet.mem_splitOff_fst, lt_splitPoint_iff]
      exact and_congr_right fun ht => and_iff_left (hlast t ht)
    · rw [SortedSet.mem_splitOff_snd, splitPoint_le_iff]
      exact and_congr_right fun ht => or_iff_left (hlast t ht)

/-- **When firing splits the queue exactly**, after any calls: if `time` is not the end-of-stream
marker or no timer waits for it. -/
theorem fire_splitsExactly_iff (calls : List QueueCall) (time : EventTimestamp) :
    ((SplitsExactly time (run calls).eventTimeTimers ((run calls).fireEventTimeUpTo time).1
          ((run calls).fireEventTimeUpTo time).2.eventTimeTimers ∧
        ((run calls).fireEventTimeUpTo time).2.processingTimeTimers =
          (run calls).processingTimeTimers) ↔
      (time = .MAX → ∀ t ∈ (run calls).eventTimeTimers, t.time ≠ .MAX)) ∧
    ((SplitsExactly time (run calls).processingTimeTimers
          ((run calls).fireProcessingTimeUpTo time).1
          ((run calls).fireProcessingTimeUpTo time).2.processingTimeTimers ∧
        ((run calls).fireProcessingTimeUpTo time).2.eventTimeTimers =
          (run calls).eventTimeTimers) ↔
      (time = .MAX → ∀ t ∈ (run calls).processingTimeTimers, t.time ≠ .MAX)) :=
  ⟨(and_iff_left rfl).trans splitOff_splitsExactly_iff,
    (and_iff_left rfl).trans splitOff_splitsExactly_iff⟩

/-- A timer for the end of the stream is not fired at the end of the stream. -/
theorem lastTimer_not_splitsExactly :
    (run [.registerEventTime .MAX [1]]).eventTimeTimers.elems = [⟨.MAX, [1]⟩] ∧
      ((run [.registerEventTime .MAX [1]]).fireEventTimeUpTo .MAX).1 = [] ∧
      ¬ SplitsExactly .MAX (run [.registerEventTime .MAX [1]]).eventTimeTimers
        ((run [.registerEventTime .MAX [1]]).fireEventTimeUpTo .MAX).1
        ((run [.registerEventTime .MAX [1]]).fireEventTimeUpTo .MAX).2.eventTimeTimers := by
  have hfired : ((run [.registerEventTime .MAX [1]]).fireEventTimeUpTo .MAX).1 = [] := by
    decide +kernel
  refine ⟨by decide +kernel, hfired, fun h => ?_⟩
  have hmem := (h.fired ⟨.MAX, [1]⟩).mpr ⟨by decide +kernel, le_rfl⟩
  rw [hfired] at hmem
  cases hmem

end TimerQueue
end Flume
