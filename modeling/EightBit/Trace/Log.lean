import EightBit.Trace.Entry

/-!
# The trace log

An append-only record of executed instructions. A log with a limit keeps the entries that come
first and only counts the rest.

## Main definitions

* `TraceLog`, `TraceLog.create`, `TraceLog.record`: a log, an empty one, and one more entry.

## Main results

* `TraceLog.toList_record`, `TraceLog.dropped_record`: one entry is either kept at the end or
  counted, as the limit says.
-/

namespace EightBit

/-- A record of executed instructions. -/
structure TraceLog where
  /-- How many entries are kept at most; `none` keeps all. -/
  limit : Option Nat
  /-- The entries kept, the oldest first. -/
  entries : Array TraceEntry
  /-- How many entries came after the limit was reached. -/
  dropped : Nat
  deriving DecidableEq

namespace TraceLog

/-- The empty log that keeps at most `limit` entries. -/
def create (limit : Option Nat) : TraceLog where
  limit := limit
  entries := #[]
  dropped := 0

instance : Inhabited TraceLog := ⟨create none⟩

/-- Whether a log of `n` entries under `limit` has no room left. -/
@[inline] def isFull (limit : Option Nat) (n : Nat) : Bool :=
  match limit with
  | some limit => limit ≤ n
  | none => false

/-- Keeps an entry, or counts it when the log is full. -/
def record (log : TraceLog) (e : TraceEntry) : TraceLog :=
  if isFull log.limit log.entries.size then { log with dropped := log.dropped + 1 }
  else { log with entries := log.entries.push e }

/-- The number of entries kept. -/
def length (log : TraceLog) : Nat :=
  log.entries.size

/-- Whether no entry is kept. -/
def isEmpty (log : TraceLog) : Bool :=
  log.entries.isEmpty

/-- The entries kept, the oldest first. -/
def toList (log : TraceLog) : List TraceEntry :=
  log.entries.toList

/-- The newest entry kept. -/
def last? (log : TraceLog) : Option TraceEntry :=
  log.entries.back?

@[simp] theorem toList_create (limit : Option Nat) : (create limit).toList = [] := rfl

@[simp] theorem dropped_create (limit : Option Nat) : (create limit).dropped = 0 := rfl

@[simp] theorem limit_record (log : TraceLog) (e : TraceEntry) :
    (log.record e).limit = log.limit := by
  unfold record
  split <;> rfl

theorem toList_record (log : TraceLog) (e : TraceEntry) :
    (log.record e).toList =
      if isFull log.limit log.toList.length then log.toList else log.toList ++ [e] := by
  by_cases h : isFull log.limit log.entries.size <;> simp [record, toList, h]

theorem dropped_record (log : TraceLog) (e : TraceEntry) :
    (log.record e).dropped =
      if isFull log.limit log.toList.length then log.dropped + 1 else log.dropped := by
  by_cases h : isFull log.limit log.entries.size <;> simp [record, toList, h]

end TraceLog

end EightBit
