import EightBit.Proofs.GameBoy.Registers
import EightBit.Proofs.GameBoy.TimerCount

/-!
# The timer counter counts falling edges and nothing else

Time and the four registers act on the timer in any order. Each operation increments the timer
counter exactly if the line falls with it, whatever makes it fall, on top of what the operation
itself stores or reloads. An overflow makes a reload due for the fourth T-cycle after it, and starts
the four T-cycles again if one was due; nothing but a store in the counter cancels it.

When a reload is due is told from the history of the timer alone: from the overflows that could be
seen in it, the stores and the T-cycles since.

## Main definitions

* `Timer.Operation`, `Timer.after`: operations on the timer, and the timer after a history of them.
* `Timer.FallsWith`, `Timer.OverflowsWith`: what is seen of an operation after a history.
* `Timer.OverflowedAgo`: the T-cycles since the latest overflow of a history.
* `Timer.CountsFallingEdges`: what an operation does to the counter and to a reload.

## Main results

* `Timer.overflowedAgo_iff`: when a reload is due.
* `Timer.countsFallingEdges_after`: every operation after every history.
* `Bus.exists_timer_run_eq_after`: a bus takes its timer through such histories only.
-/

namespace EightBit.GameBoy

open Sm83 (InterruptSource)

namespace Timer

/-! ### Operations -/

/-- What is done to the timer: a T-cycle passes, or one of its registers is written. -/
inductive Operation
  | tick
  /-- Any value has the same effect. -/
  | writeDivider
  | writeCounter (v : UInt8)
  | writeModulo (v : UInt8)
  | writeControl (v : UInt8)
  deriving DecidableEq, Repr

/-- The value that an operation stores in the timer counter. -/
def Operation.stored? : Operation → Option UInt8
  | writeCounter v => some v
  | _ => none

variable (t : Timer)

/-- The timer after an operation. -/
def operate : Operation → Timer
  | .tick => t.tick
  | .writeDivider => t.writeDivider
  | .writeCounter v => t.writeCounter v
  | .writeModulo v => t.writeModulo v
  | .writeControl v => t.writeControl v

/-- The timer after an operation, before the edge that it may cause is counted. -/
def uncounted : Operation → Timer
  | .tick => { t.settle with counter := t.counter + 1 }
  | .writeDivider => { t with counter := 0 }
  | .writeCounter v => t.writeCounter v
  | .writeModulo v => t.writeModulo v
  | .writeControl v => { t with tac := v &&& 7, enabled := v &&& 4 != 0 }

theorem signal_countEdge (before : Bool) : (t.countEdge before).signal = t.signal := by
  unfold countEdge
  split <;> rfl

/-- Every operation counts an edge of the line, if there is one, and does nothing else to the
counter that is not seen before. -/
theorem operate_eq_countEdge (op : Operation) :
    t.operate op = (t.uncounted op).countEdge t.signal := by
  have hquiet {u : Timer} (hu : u.signal = t.signal) : u.countEdge t.signal = u := by
    rw [countEdge, hu, Bool.and_not_self]
    rfl
  cases op with
  | tick =>
    rw [operate, tick, signal_settle, counter_settle]
    rfl
  | writeDivider | writeControl => rfl
  | writeCounter v => exact (hquiet (u := t.writeCounter v) rfl).symm
  | writeModulo v => exact (hquiet (u := t.writeModulo v) rfl).symm

theorem signal_operate (op : Operation) : (t.operate op).signal = (t.uncounted op).signal := by
  rw [operate_eq_countEdge, signal_countEdge]

theorem operate_eq (op : Operation) :
    t.operate op =
      if t.signal = true ∧ (t.operate op).signal = false then (t.uncounted op).increment
      else t.uncounted op := by
  rw [signal_operate, operate_eq_countEdge, countEdge]
  exact if_congr (by rw [Bool.and_eq_true, Bool.not_eq_true']) rfl rfl

theorem WellFormed.operate {t : Timer} (h : t.WellFormed) (op : Operation) :
    (t.operate op).WellFormed := by
  cases op with
  | tick => exact h.tick
  | writeDivider => exact h.written 0 .divider
  | writeCounter v => exact h.written v .timerCounter
  | writeModulo v => exact h.written v .timerModulo
  | writeControl v => exact h.written v .timerControl

theorem tima_settle : t.settle.tima = if t.overflowDelay = 1 then t.tma else t.tima := by
  unfold settle
  split
  next h => rw [h, if_neg (by decide)]
  next h => rw [if_pos h]
  next h => rw [h, if_neg (by omega)]

theorem overflowDelay_settle : t.settle.overflowDelay = t.overflowDelay - 1 := by
  unfold settle
  split
  next h => rw [h]
  next h => rw [h]
  next h => rw [h]; rfl

theorem tima_uncounted_of_stored? {op : Operation} {v : UInt8} (hop : op.stored? = some v) :
    (t.uncounted op).tima = v := by
  cases op with
  | writeCounter w => exact Option.some.inj hop
  | tick | writeDivider | writeModulo | writeControl => exact absurd hop nofun

theorem tima_uncounted_of_ne_tick {op : Operation} (htick : op ≠ .tick) (hop : op.stored? = none) :
    (t.uncounted op).tima = t.tima := by
  cases op with
  | tick => exact absurd rfl htick
  | writeCounter v => exact absurd hop nofun
  | writeDivider | writeModulo | writeControl => rfl

/-- A T-cycle brings a reload one nearer, a store cancels it, and other operations leave
it alone. -/
theorem overflowDelay_uncounted (op : Operation) :
    (t.uncounted op).overflowDelay =
      if op.stored? = none then t.overflowDelay - (if op = .tick then 1 else 0) else 0 := by
  cases op with
  | tick => exact t.overflowDelay_settle
  | writeDivider | writeCounter | writeModulo | writeControl => rfl

/-! ### Histories -/

/-- The timer after a history from power-on, whose first operation comes first. -/
def after (ops : List Operation) : Timer :=
  ops.foldl operate powerOn

@[simp] theorem after_concat (ops : List Operation) (op : Operation) :
    after (ops ++ [op]) = (after ops).operate op :=
  List.foldl_concat ..

theorem wellFormed_after (ops : List Operation) : (after ops).WellFormed :=
  List.foldlRecOn ops _ wellFormed_powerOn fun _ h op _ => h.operate op

/-- The line falls with an operation after a history. -/
def FallsWith (ops : List Operation) (op : Operation) : Prop :=
  (after ops).signal = true ∧ (after (ops ++ [op])).signal = false

instance (ops : List Operation) (op : Operation) : Decidable (FallsWith ops op) :=
  inferInstanceAs (Decidable (_ ∧ _))

/-- The increment that an operation makes after a history leads to zero. -/
def OverflowsWith (ops : List Operation) (op : Operation) : Prop :=
  FallsWith ops op ∧ (after (ops ++ [op])).tima = 0

instance (ops : List Operation) (op : Operation) : Decidable (OverflowsWith ops op) :=
  inferInstanceAs (Decidable (_ ∧ _))

/-- The increment that an operation makes after a history. -/
def edge (ops : List Operation) (op : Operation) : UInt8 :=
  if FallsWith ops op then 1 else 0

/-- The latest overflow of a history was `k` T-cycles ago, and nothing has been stored in the timer
counter since. -/
def OverflowedAgo (k : Nat) (ops : List Operation) : Prop :=
  ∃ before op since, ops = before ++ op :: since ∧ OverflowsWith before op ∧
    (∀ between next rest, since = between ++ next :: rest →
      ¬OverflowsWith (before ++ op :: between) next ∧ next.stored? = none) ∧
    since.count .tick = k

/-- An operation after a history is the T-cycle that reloads the timer counter: the fourth since
the overflow. -/
def ReloadsWith (ops : List Operation) (op : Operation) : Prop :=
  op = .tick ∧ OverflowedAgo 3 ops

theorem after_concat_eq (ops : List Operation) (op : Operation) :
    after (ops ++ [op]) =
      if FallsWith ops op then ((after ops).uncounted op).increment
      else (after ops).uncounted op := by
  have hfalls : FallsWith ops op ↔
      (after ops).signal = true ∧ ((after ops).operate op).signal = false := by
    rw [FallsWith, after_concat]
  rw [after_concat, operate_eq, if_congr hfalls rfl rfl]

variable {ops : List Operation} {op : Operation}

theorem tima_after_concat (ops : List Operation) (op : Operation) :
    (after (ops ++ [op])).tima = ((after ops).uncounted op).tima + edge ops op := by
  rw [after_concat_eq, edge]
  split
  · rfl
  · rw [UInt8.add_zero]

theorem overflowsWith_iff :
    OverflowsWith ops op ↔ FallsWith ops op ∧ ((after ops).uncounted op).tima = 0xFF := by
  refine and_congr_right fun h => ?_
  rw [tima_after_concat, edge, if_pos h, ← UInt8.toNat_inj, ← UInt8.toNat_inj, UInt8.toNat_add]
  have hlt := ((after ops).uncounted op).tima.toNat_lt
  change (_ + 1) % 2 ^ 8 = 0 ↔ _ = 255
  omega

theorem overflowDelay_after_concat (ops : List Operation) (op : Operation) :
    (after (ops ++ [op])).overflowDelay =
      if OverflowsWith ops op then reloadDelay else ((after ops).uncounted op).overflowDelay := by
  rw [after_concat_eq]
  split
  next h =>
    have hiff : ((after ops).uncounted op).tima == 0xFF ↔ OverflowsWith ops op := by
      rw [beq_iff_eq, overflowsWith_iff, and_iff_right h]
    exact if_congr hiff rfl rfl
  next h => exact (if_neg fun hover => h hover.1).symm

/-! ### When a reload is due -/

/-- The latest overflow of a longer history is the last operation, or that of the shorter history
if the last operation leaves it to be the latest. -/
theorem overflowedAgo_concat (k : Nat) :
    OverflowedAgo k (ops ++ [op]) ↔
      OverflowsWith ops op ∧ k = 0 ∨
        (¬OverflowsWith ops op ∧ op.stored? = none) ∧
          ∃ j, OverflowedAgo j ops ∧ k = j + if op = .tick then 1 else 0 := by
  constructor
  · rintro ⟨before, first, since, heq, hover, hsince, rfl⟩
    induction since using List.reverseRecOn with
    | nil =>
      obtain ⟨rfl, hop⟩ := List.append_inj' heq rfl
      obtain rfl := List.singleton_inj.1 hop
      exact .inl ⟨hover, rfl⟩
    | append_singleton since last _ =>
      rw [← List.cons_append, ← List.append_assoc] at heq
      obtain ⟨rfl, hop⟩ := List.append_inj' heq rfl
      obtain rfl := List.singleton_inj.1 hop
      refine .inr ⟨hsince since op [] rfl, since.count .tick, ?_, ?_⟩
      · refine ⟨before, first, since, rfl, hover, fun between next rest h => ?_, rfl⟩
        refine hsince between next (rest ++ [op]) ?_
        rw [h, List.append_assoc, List.cons_append]
      · rw [List.count_append, List.count_singleton, if_congr beq_iff_eq rfl rfl]
  · rintro (⟨hover, rfl⟩ | ⟨hlast, _, ⟨before, first, since, rfl, hover, hsince, rfl⟩, rfl⟩)
    · refine ⟨ops, op, [], rfl, hover, fun between next rest h => ?_, rfl⟩
      exact absurd h.symm (List.append_ne_nil_of_right_ne_nil _ (List.cons_ne_nil _ _))
    · refine ⟨before, first, since ++ [op], ?_, hover, fun between next rest h => ?_, ?_⟩
      · rw [List.append_assoc, List.cons_append]
      · induction rest using List.reverseRecOn with
        | nil =>
          obtain ⟨rfl, hop⟩ := List.append_inj' h rfl
          obtain rfl := List.singleton_inj.1 hop
          exact hlast
        | append_singleton rest last _ =>
          rw [← List.cons_append, ← List.append_assoc] at h
          exact hsince between next rest (List.append_inj' h rfl).1
      · rw [List.count_append, List.count_singleton, if_congr beq_iff_eq rfl rfl]

/-- A reload is due within four T-cycles of an overflow, as many as have not passed. -/
theorem overflowedAgo_iff (ops : List Operation) {k : Nat} (hk : k < 4) :
    OverflowedAgo k ops ↔ (after ops).overflowDelay = 4 - k := by
  induction ops using List.reverseRecOn generalizing k with
  | nil =>
    refine ⟨fun ⟨before, op, since, h, _⟩ => ?_, fun h => ?_⟩
    · exact absurd h.symm (List.append_ne_nil_of_right_ne_nil _ (List.cons_ne_nil _ _))
    · have hzero : (after []).overflowDelay = 0 := rfl
      omega
  | append_singleton ops op ih =>
    have hle : (after ops).overflowDelay ≤ 4 := (wellFormed_after ops).overflowDelay_le
    rw [overflowedAgo_concat, overflowDelay_after_concat]
    by_cases hover : OverflowsWith ops op
    · rw [if_pos hover, reloadDelay]
      constructor
      · rintro (⟨-, rfl⟩ | ⟨⟨hnot, -⟩, -⟩)
        · rfl
        · exact absurd hover hnot
      · intro h
        exact .inl ⟨hover, by omega⟩
    rw [if_neg hover, and_iff_right hover, or_iff_right (fun h => hover h.1)]
    rw [overflowDelay_uncounted]
    by_cases hop : op.stored? = none
    · have htick : (if op = .tick then 1 else 0) ≤ 1 := by split <;> decide
      rw [if_pos hop, and_iff_right hop]
      constructor
      · rintro ⟨j, hj, rfl⟩
        have hdue := (ih (by omega)).1 hj
        omega
      · intro h
        exact ⟨k - if op = .tick then 1 else 0, (ih (by omega)).2 (by omega), by omega⟩
    · rw [if_neg hop]
      exact ⟨fun h => absurd h.1 hop, fun h => absurd h (by omega)⟩

theorem reloadsWith_iff : ReloadsWith ops op ↔ op = .tick ∧ (after ops).overflowDelay = 1 :=
  and_congr_right' (overflowedAgo_iff ops (by decide))

end Timer

/-- The clocked devices after an operation on the timer. Only a T-cycle reaches the request
register. -/
def Clockwork.operate (c : Clockwork) : Timer.Operation → Clockwork
  | .tick => c.timerCycle
  | op => { c with timer := c.timer.operate op }

namespace Timer

/-! ### Every operation after every history -/

/-- What an operation after a history does to the timer counter, to the request register and to a
reload that is due. -/
structure CountsFallingEdges (ops : List Operation) (op : Operation) : Prop where
  /-- A store is incremented, if the line falls with it. -/
  stored (v : UInt8) (hop : op.stored? = some v) :
    (after (ops ++ [op])).tima = v + edge ops op
  /-- A reload takes the modulo as it is then. -/
  reloaded (h : ReloadsWith ops op) :
    (after (ops ++ [op])).tima = (after ops).tma + edge ops op
  /-- Otherwise falling edges are all that changes the timer counter. -/
  kept (hop : op.stored? = none) (h : ¬ReloadsWith ops op) :
    (after (ops ++ [op])).tima = (after ops).tima + edge ops op
  /-- A reload requests the interrupt. -/
  requested (c : Clockwork) (hc : c.timer = after ops) (h : ReloadsWith ops op) :
    (c.operate op).requests = c.requests ||| InterruptSource.timer.mask
  /-- Nothing else requests it. -/
  silent (c : Clockwork) (hc : c.timer = after ops) (h : ¬ReloadsWith ops op) :
    (c.operate op).requests = c.requests
  /-- An overflow makes a reload due, whether one was due or not. -/
  armed (h : OverflowsWith ops op) : (after (ops ++ [op])).overflowDelay = reloadDelay
  /-- A store cancels a reload that is due. -/
  cancelled (hop : op.stored? ≠ none) : (after (ops ++ [op])).overflowDelay = 0
  /-- A reload is due after the operation if the operation overflows, or if one was due that it
  neither cancels by a store nor performs. -/
  pending : (after (ops ++ [op])).overflowDelay ≠ 0 ↔
    OverflowsWith ops op ∨
      (after ops).overflowDelay ≠ 0 ∧ op.stored? = none ∧ ¬ReloadsWith ops op
  /-- Between T-cycles only a store or an overflow changes when a reload is due. -/
  unchanged (htick : op ≠ .tick) (hop : op.stored? = none) (h : ¬OverflowsWith ops op) :
    (after (ops ++ [op])).overflowDelay = (after ops).overflowDelay

theorem tima_uncounted_of_reloadsWith (h : ReloadsWith ops op) :
    ((after ops).uncounted op).tima = (after ops).tma := by
  obtain ⟨rfl, hdue⟩ := reloadsWith_iff.1 h
  exact (tima_settle _).trans (if_pos hdue)

theorem tima_uncounted_of_not_reloadsWith (hop : op.stored? = none) (h : ¬ReloadsWith ops op) :
    ((after ops).uncounted op).tima = (after ops).tima := by
  by_cases htick : op = .tick
  · subst htick
    rw [reloadsWith_iff, and_iff_right rfl] at h
    exact (tima_settle _).trans (if_neg h)
  · exact tima_uncounted_of_ne_tick _ htick hop

theorem not_fallsWith_of_stored?_eq_some {v : UInt8} (hop : op.stored? = some v) :
    ¬FallsWith ops op := by
  cases op with
  | writeCounter w =>
    rw [FallsWith, after_concat]
    exact fun ⟨hbefore, hafter⟩ => Bool.false_ne_true (hafter.symm.trans hbefore)
  | tick | writeDivider | writeModulo | writeControl => exact absurd hop nofun

theorem overflowDelay_after_concat_of_stored? (hop : op.stored? ≠ none) :
    (after (ops ++ [op])).overflowDelay = 0 := by
  obtain ⟨v, hv⟩ := Option.ne_none_iff_exists'.1 hop
  rw [overflowDelay_after_concat, if_neg fun h => not_fallsWith_of_stored?_eq_some hv h.1,
    overflowDelay_uncounted, if_neg hop]

theorem requests_operate {c : Clockwork} (hc : c.timer = after ops) (op : Operation) :
    (ReloadsWith ops op → (c.operate op).requests = c.requests ||| InterruptSource.timer.mask) ∧
      (¬ReloadsWith ops op → (c.operate op).requests = c.requests) := by
  rw [reloadsWith_iff, ← hc]
  cases op with
  | tick =>
    have hdue : c.timer.requests = true ↔ c.timer.overflowDelay = 1 := beq_iff_eq
    rw [and_iff_right rfl, Clockwork.operate, Clockwork.timerCycle_eq, ← hdue]
    refine ⟨fun h => ?_, fun h => ?_⟩
    · rw [if_pos h]
    · rw [if_neg h, UInt8.or_zero]
  | _ => exact ⟨fun h => absurd h.1 nofun, fun _ => rfl⟩

theorem overflowDelay_after_concat_ne_zero_iff :
    (after (ops ++ [op])).overflowDelay ≠ 0 ↔
      OverflowsWith ops op ∨
        (after ops).overflowDelay ≠ 0 ∧ op.stored? = none ∧ ¬ReloadsWith ops op := by
  rw [overflowDelay_after_concat, reloadsWith_iff]
  by_cases hover : OverflowsWith ops op
  · rw [if_pos hover]
    exact ⟨fun _ => .inl hover, fun _ => by decide⟩
  rw [if_neg hover, or_iff_right hover]
  rw [overflowDelay_uncounted]
  by_cases hop : op.stored? = none
  · rw [if_pos hop, and_iff_right hop]
    by_cases htick : op = .tick
    · rw [if_pos htick, and_iff_right htick]
      omega
    · rw [if_neg htick, Nat.sub_zero]
      exact ⟨fun h => ⟨h, fun hdue => htick hdue.1⟩, fun h => h.1⟩
  · rw [if_neg hop]
    exact ⟨fun h => absurd rfl h, fun h => absurd h.2.1 hop⟩

/-- Whatever the timer has been through since power-on, the next operation increments the timer
counter exactly if the line falls with it; an overflow is followed by a reload and an interrupt
request in the fourth T-cycle, and only a store cancels them. -/
theorem countsFallingEdges_after (ops : List Operation) (op : Operation) :
    CountsFallingEdges ops op where
  stored v hop := by
    rw [tima_after_concat, tima_uncounted_of_stored? _ hop]
  reloaded h := by rw [tima_after_concat, tima_uncounted_of_reloadsWith h]
  kept hop h := by rw [tima_after_concat, tima_uncounted_of_not_reloadsWith hop h]
  requested _ hc := (requests_operate hc op).1
  silent _ hc := (requests_operate hc op).2
  armed h := by rw [overflowDelay_after_concat, if_pos h]
  cancelled := overflowDelay_after_concat_of_stored?
  pending := overflowDelay_after_concat_ne_zero_iff
  unchanged htick hop h := by
    rw [overflowDelay_after_concat, if_neg h, overflowDelay_uncounted, if_pos hop, if_neg htick,
      Nat.sub_zero]

/-- Switching the timer off makes the line fall; the overflow takes the modulo written later. -/
example : (after [.writeControl 5, .writeCounter 0xFF, .writeControl 0, .tick, .tick,
    .writeModulo 0x99, .tick, .tick]).tima = 0x99 := by
  decide

end Timer

/-! ### The timer of a bus -/

namespace Timer

theorem after_append_replicate_tick (ops : List Operation) (n : Nat) :
    after (ops ++ List.replicate n .tick) = Timer.tick^[n] (after ops) := by
  induction n with
  | zero => rw [List.replicate_zero, List.append_nil, Function.iterate_zero_apply]
  | succ n ih =>
    rw [List.replicate_succ', ← List.append_assoc, after_concat, ih, Function.iterate_succ_apply']
    rfl

/-- A write to the bus is at most one operation on the timer. -/
theorem exists_written_eq_after (ops : List Operation) (v : UInt8) (target : Target) :
    ∃ ops', (after ops).written v target = after ops' := by
  cases target with
  | divider => exact ⟨_, (after_concat ops .writeDivider).symm⟩
  | timerCounter => exact ⟨_, (after_concat ops (.writeCounter v)).symm⟩
  | timerModulo => exact ⟨_, (after_concat ops (.writeModulo v)).symm⟩
  | timerControl => exact ⟨_, (after_concat ops (.writeControl v)).symm⟩
  | _ => exact ⟨ops, rfl⟩

end Timer

/-- Whatever a driver does with a bus from power-on, its timer has been through a history of
operations. -/
theorem Bus.exists_timer_run_eq_after (ram : RamBytes) (journal : Journal) (cs : List Bus.Call) :
    ∃ ops, ((Bus.powerOn ram journal).run cs).timer = Timer.after ops := by
  refine Bus.run_induction (P := fun bus => ∃ ops, bus.timer = Timer.after ops) ⟨[], rfl⟩
    (fun bus c ⟨ops, hops⟩ => ?_) cs
  cases c with
  | write a v =>
    obtain ⟨ops', h⟩ := Timer.exists_written_eq_after ops v (.ofAddress a)
    refine ⟨ops', (bus.timer_writeByte a v).trans ?_⟩
    rw [hops, h]
  | tick n =>
    refine ⟨ops ++ List.replicate n .tick, (Bus.timer_passTime n bus).trans ?_⟩
    rw [hops, Timer.after_append_replicate_tick]
  | insert image =>
    refine ⟨ops, Eq.trans ?_ hops⟩
    rw [Bus.apply, Bus.insert_eq]
  | read | request | hook => exact ⟨ops, hops⟩

end EightBit.GameBoy
