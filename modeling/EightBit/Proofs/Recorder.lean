import EightBit.Trace.Log
import Mathlib.Data.List.Induction
import Mathlib.Data.Nat.Count
import Mathlib.Logic.Function.Iterate

/-!
# Recording a run

A machine may record the instructions that its steps execute. If its steps add what they execute to
the log, and nothing that it does depends on the log, then runs with different logs, or with none,
are the same run but for the logs; these hold what was executed, as far as their limits allow. A log
without a limit holds all entries, and one with a limit holds the first ones and counts the others.

## Main definitions

* `TraceLog.recordAll`: several entries recorded.
* `Recorder`: a machine that may record what it executes.
* `Recorder.Faithful`, `Recorder.Bisimulation`: its steps record what they execute, and do not look
  at the log.
* `Recorder.Observes`: a run that is recorded is that which is not.

## Main results

* `TraceLog.toList_recordAll_none`, `TraceLog.toList_recordAll_some`,
  `TraceLog.dropped_recordAll_some`: logs of several entries.
* `Recorder.log_after`: what a run adds to the log.
* `Recorder.observes`: recording changes nothing else.
-/

namespace EightBit

namespace TraceLog

/-- Records several entries, the first one first. -/
def recordAll (log : TraceLog) (es : List TraceEntry) : TraceLog :=
  es.foldl record log

theorem recordAll_concat (log : TraceLog) (es : List TraceEntry) (e : TraceEntry) :
    log.recordAll (es ++ [e]) = (log.recordAll es).record e :=
  List.foldl_append

@[simp] theorem limit_recordAll (log : TraceLog) (es : List TraceEntry) :
    (log.recordAll es).limit = log.limit := by
  induction es using List.reverseRecOn with
  | nil => rfl
  | append_singleton es e ih => rw [recordAll_concat, limit_record, ih]

/-! ### Without a limit -/

theorem toList_recordAll_none (es : List TraceEntry) :
    ((create none).recordAll es).toList = es := by
  induction es using List.reverseRecOn with
  | nil => rfl
  | append_singleton es e ih =>
    rw [recordAll_concat, toList_record, limit_recordAll, ih]
    rfl

theorem dropped_recordAll_none (es : List TraceEntry) :
    ((create none).recordAll es).dropped = 0 := by
  induction es using List.reverseRecOn with
  | nil => rfl
  | append_singleton es e ih =>
    rw [recordAll_concat, dropped_record, limit_recordAll, ih]
    rfl

/-! ### With a limit -/

theorem isFull_iff (limit n : Nat) : isFull (some limit) n = true ↔ limit ≤ n :=
  decide_eq_true_iff

theorem toList_recordAll_some (limit : Nat) (es : List TraceEntry) :
    ((create (some limit)).recordAll es).toList = es.take limit := by
  induction es using List.reverseRecOn with
  | nil => exact List.take_nil.symm
  | append_singleton es e ih =>
    have hlimit : (create (some limit)).limit = some limit := rfl
    rw [recordAll_concat, toList_record, limit_recordAll, hlimit, ih, List.length_take]
    rcases Nat.lt_or_ge es.length limit with h | h
    · rw [if_neg (by rw [isFull_iff]; omega), List.take_of_length_le (Nat.le_of_lt h),
        List.take_of_length_le (by rw [List.length_append]; exact h)]
    · rw [if_pos ((isFull_iff _ _).2 (by omega)), List.take_append_of_le_length h]

theorem dropped_recordAll_some (limit : Nat) (es : List TraceEntry) :
    ((create (some limit)).recordAll es).dropped = es.length - min es.length limit := by
  induction es using List.reverseRecOn with
  | nil => rfl
  | append_singleton es e ih =>
    have hlimit : (create (some limit)).limit = some limit := rfl
    rw [recordAll_concat, dropped_record, limit_recordAll, hlimit, ih, toList_recordAll_some,
      List.length_take, List.length_append, List.length_singleton]
    rcases Nat.lt_or_ge es.length limit with h | h
    · rw [if_neg (by rw [isFull_iff]; omega)]
      omega
    · rw [if_pos ((isFull_iff _ _).2 (by omega))]
      omega

end TraceLog

/-- A machine that may record what it executes: its steps with the cycles they take, its log, and
the entry that its next step makes if it is recorded. -/
structure Recorder (σ : Type) where
  step : σ → Nat × σ
  log : σ → TraceLog
  /-- Whether what is executed is recorded. -/
  records : σ → Bool
  /-- The entry of the instruction that the next step executes, if it executes one. -/
  record? : σ → Option TraceEntry

namespace Recorder

variable {σ : Type} (R : Recorder σ) (m : σ) (n : Nat)

/-- The machine after `n` steps. -/
def after : σ :=
  (fun m => (R.step m).2)^[n] m

/-- The entries of the instructions that the next `n` steps execute. -/
def entries : List TraceEntry :=
  (List.range n).filterMap fun k => R.record? (R.after m k)

theorem after_succ : R.after m (n + 1) = (R.step (R.after m n)).2 :=
  Function.iterate_succ_apply' _ n m

theorem entries_succ : R.entries m (n + 1) = R.entries m n ++ (R.record? (R.after m n)).toList := by
  rw [entries, List.range_succ, List.filterMap_append, entries]
  rfl

/-- A run has as many entries as steps that execute an instruction. -/
theorem length_entries {fetches : σ → Prop} [DecidablePred fetches]
    (h : ∀ m, (R.record? m).isSome = true ↔ fetches m) :
    (R.entries m n).length = Nat.count (fun k => fetches (R.after m k)) n := by
  induction n with
  | zero => rfl
  | succ n ih =>
    rw [entries_succ, List.length_append, ih, Nat.count_succ, if_congr (h _).symm rfl rfl]
    cases R.record? (R.after m n) <;> rfl

/-! ### The log of a run -/

/-- A step adds what it executes to the log, if the machine records, and nothing else. -/
structure Faithful : Prop where
  records_step (m : σ) : R.records (R.step m).2 = R.records m
  log_step (m : σ) : R.log (R.step m).2 =
    if R.records m then (R.record? m).elim (R.log m) (R.log m).record else R.log m

section

variable {R} (h : R.Faithful)

include h

theorem records_after : R.records (R.after m n) = R.records m := by
  induction n with
  | zero => rfl
  | succ n ih => rw [after_succ, h.records_step, ih]

/-- What a run adds to the log. -/
theorem log_after (hm : R.records m = true) :
    R.log (R.after m n) = (R.log m).recordAll (R.entries m n) := by
  induction n with
  | zero => rfl
  | succ n ih =>
    rw [after_succ, h.log_step, records_after m n h, if_pos hm, ih, entries_succ]
    cases R.record? (R.after m n) with
    | none => rw [Option.toList_none, List.append_nil]; rfl
    | some e => exact (TraceLog.recordAll_concat _ _ _).symm

/-- A run that is not recorded adds nothing. -/
theorem log_after_of_not_records (hm : R.records m = false) : R.log (R.after m n) = R.log m := by
  induction n with
  | zero => rfl
  | succ n ih =>
    rw [after_succ, h.log_step, records_after m n h, hm, if_neg Bool.false_ne_true, ih]

end

/-! ### Runs that differ in what they record -/

/-- Machines related by `S` make the same step and are related after it. -/
structure Bisimulation (S : σ → σ → Prop) : Prop where
  cycles {m k : σ} (h : S m k) : (R.step m).1 = (R.step k).1
  next {m k : σ} (h : S m k) : S (R.step m).2 (R.step k).2
  record? {m k : σ} (h : S m k) : R.record? m = R.record? k

/-- The runs of three machines in the same state, of which `off` does not record, `all` keeps every
entry and `first` keeps `limit` of them. After every number of steps they are in the same state and
take as long for the next, and after `n` steps the full log has an entry for each instruction
executed. -/
structure Observes (S : σ → σ → Prop) (fetches : σ → Prop) [DecidablePred fetches]
    (off all first : σ) (n limit : Nat) : Prop where
  all_state (k : Nat) : S (R.after off k) (R.after all k)
  all_cycles (k : Nat) : (R.step (R.after off k)).1 = (R.step (R.after all k)).1
  first_state (k : Nat) : S (R.after off k) (R.after first k)
  first_cycles (k : Nat) : (R.step (R.after off k)).1 = (R.step (R.after first k)).1
  off_log : (R.log (R.after off n)).toList = [] ∧ (R.log (R.after off n)).dropped = 0
  all_toList : (R.log (R.after all n)).toList = R.entries off n
  all_length : (R.log (R.after all n)).length = Nat.count (fun k => fetches (R.after off k)) n
  all_dropped : (R.log (R.after all n)).dropped = 0
  first_toList : (R.log (R.after first n)).toList =
    (R.log (R.after all n)).toList.take (min (R.log (R.after all n)).length limit)
  first_dropped : (R.log (R.after first n)).dropped =
    (R.log (R.after all n)).length - min (R.log (R.after all n)).length limit

section

variable {R} {S : σ → σ → Prop} (hS : R.Bisimulation S) {m} {k : σ} (h : S m k)

include hS h

theorem Bisimulation.after (n : Nat) : S (R.after m n) (R.after k n) := by
  induction n with
  | zero => exact h
  | succ n ih =>
    rw [after_succ, after_succ]
    exact hS.next ih

theorem Bisimulation.entries (n : Nat) : R.entries m n = R.entries k n :=
  List.filterMap_congr fun i _ => hS.record? (hS.after h i)

end

/-- Recording changes nothing but the log. -/
theorem observes {R : Recorder σ} (hR : R.Faithful) {S : σ → σ → Prop} (hS : R.Bisimulation S)
    {fetches : σ → Prop} [DecidablePred fetches]
    (hfetches : ∀ m, (R.record? m).isSome = true ↔ fetches m) {off all first : σ} {limit : Nat}
    (hall : S off all) (hfirst : S off first)
    (hoff : R.records off = false ∧ R.log off = .create none)
    (hallLog : R.records all = true ∧ R.log all = .create none)
    (hfirstLog : R.records first = true ∧ R.log first = .create (some limit)) (n : Nat) :
    R.Observes S fetches off all first n limit := by
  have hlogOff : R.log (R.after off n) = .create none :=
    (log_after_of_not_records off n hR hoff.1).trans hoff.2
  have hlogAll : R.log (R.after all n) = (TraceLog.create none).recordAll (R.entries off n) := by
    rw [log_after all n hR hallLog.1, hallLog.2, hS.entries hall]
  have hlogFirst :
      R.log (R.after first n) = (TraceLog.create (some limit)).recordAll (R.entries off n) := by
    rw [log_after first n hR hfirstLog.1, hfirstLog.2, hS.entries hfirst]
  have hlist : (R.log (R.after all n)).toList = R.entries off n := by
    rw [hlogAll, TraceLog.toList_recordAll_none]
  have hlength : (R.log (R.after all n)).length = (R.entries off n).length :=
    congrArg List.length hlist
  refine {
    all_state := hS.after hall
    all_cycles := fun k => hS.cycles (hS.after hall k)
    first_state := hS.after hfirst
    first_cycles := fun k => hS.cycles (hS.after hfirst k)
    off_log := by rw [hlogOff]; exact ⟨rfl, rfl⟩
    all_toList := hlist
    all_length := hlength.trans (R.length_entries off n hfetches)
    all_dropped := by rw [hlogAll, TraceLog.dropped_recordAll_none]
    first_toList := ?_
    first_dropped := ?_ }
  · rw [hlogFirst, TraceLog.toList_recordAll_some, hlist, hlength, Nat.min_comm,
      List.take_eq_take_min]
  · rw [hlogFirst, TraceLog.dropped_recordAll_some, hlength]

end Recorder

end EightBit
