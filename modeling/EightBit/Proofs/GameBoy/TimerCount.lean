import Mathlib.Data.Nat.Bitwise
import Mathlib.Data.Nat.Count
import EightBit.Proofs.Bits
import EightBit.Proofs.GameBoy.Clocks

/-!
# The timer counter in closed form

Left alone, an enabled timer counts the falling edges of one bit of its hidden counter. When they
come is known from the hidden counter, and their number tells the timer counter: it counts up from
where it stands, and from its first overflow on it runs through the values between the modulo and
the greatest byte, again and again. Two edges are at least sixteen T-cycles apart, so that the four
T-cycles for which an overflow reads zero are over long before the next edge.

## Main definitions

* `Timer.period`, `Timer.edges`, `Timer.edgeTime`: the falling edges of the selected bit.
* `Timer.counted`, `Timer.Overflows`: what the edges do to the timer counter.
* `Timer.Advanced`: the timer after a number of T-cycles, with the reload that is due.
* `Clockwork.CountsEdges`: the timer registers and the interrupt request in closed form.

## Main results

* `Timer.falls_iff`: when the line falls.
* `Timer.Advanced.tick`: one T-cycle.
* `Clockwork.countsEdges_iterate`: any number of T-cycles.
-/

namespace EightBit.GameBoy

open Sm83 (InterruptSource)

namespace Timer

/-! ### The falling edges -/

/-- T-cycles between two falling edges of the bit that a control value selects. -/
def period (tac : UInt8) : Nat :=
  match tac &&& 3 with
  | 0 => 1024
  | 1 => 16
  | 2 => 64
  | _ => 256

/-- The selected bit is set in the second half of each period. -/
theorem toNat_selectedBit (tac : UInt8) :
    ∃ j, 3 ≤ j ∧ j < 16 ∧ (selectedBit tac).toNat = 2 ^ j ∧ period tac = 2 ^ (j + 1) := by
  have hlow : tac &&& 3 = 0 ∨ tac &&& 3 = 1 ∨ tac &&& 3 = 2 ∨ tac &&& 3 = 3 :=
    forall_byte (P := fun v => v &&& 3 = 0 ∨ v &&& 3 = 1 ∨ v &&& 3 = 2 ∨ v &&& 3 = 3)
      (by decide) tac
  unfold selectedBit period
  rcases hlow with h | h | h | h <;> rw [h]
  · exact ⟨9, by decide⟩
  · exact ⟨3, by decide⟩
  · exact ⟨5, by decide⟩
  · exact ⟨7, by decide⟩

theorem sixteen_le_period (tac : UInt8) : 16 ≤ period tac := by
  obtain ⟨j, hj, -, -, hperiod⟩ := toNat_selectedBit tac
  rw [hperiod]
  exact Nat.pow_le_pow_right (by decide : 0 < 2) (by omega : 4 ≤ j + 1)

theorem period_dvd (tac : UInt8) : period tac ∣ 65536 := by
  obtain ⟨j, -, hj, -, hperiod⟩ := toNat_selectedBit tac
  rw [hperiod]
  exact Nat.pow_dvd_pow 2 hj

/-- A bit of a number is set in the second half of each of its periods. -/
theorem testBit_iff_le_mod (x j : Nat) : x.testBit j = true ↔ 2 ^ j ≤ x % 2 ^ (j + 1) := by
  have hlt : x % 2 ^ j < 2 ^ j := Nat.mod_lt _ (Nat.two_pow_pos j)
  rw [Nat.testBit_eq_decide_div_mod_eq, decide_eq_true_eq, Nat.mod_pow_succ]
  rcases Nat.mod_two_eq_zero_or_one (x / 2 ^ j) with h | h <;> rw [h] <;> omega

theorem and_bit_bne_zero (x m : UInt16) {j : Nat} (hm : m.toNat = 2 ^ j) :
    (x &&& m != 0) = true ↔ 2 ^ j ≤ x.toNat % 2 ^ (j + 1) := by
  rw [bne_iff_ne, Ne, ← UInt16.toNat_inj, UInt16.toNat_and, hm, Nat.and_two_pow,
    ← testBit_iff_le_mod]
  cases x.toNat.testBit j with
  | false => simp
  | true => simp

variable (t : Timer)

/-- Whether the line falls with the next T-cycle. -/
def falls : Bool :=
  t.signal && !{ t with counter := t.counter + 1 }.signal

theorem signal_iff (h : t.enabled = true) :
    t.signal = true ↔ period t.tac ≤ 2 * (t.counter.toNat % period t.tac) := by
  obtain ⟨j, -, -, hbit, hperiod⟩ := toNat_selectedBit t.tac
  rw [signal, h, Bool.true_and, and_bit_bne_zero _ _ hbit, hperiod]
  omega

/-- The successor of a remainder. -/
theorem succ_mod_eq_ite (x : Nat) {p : Nat} (hp : 1 < p) :
    (x + 1) % p = if x % p + 1 = p then 0 else x % p + 1 := by
  have hlt : x % p < p := Nat.mod_lt _ (by omega)
  rw [← Nat.mod_add_mod]
  split
  next h => rw [h, Nat.mod_self]
  next => exact Nat.mod_eq_of_lt (by omega)

theorem falls_iff (h : t.enabled = true) :
    t.falls = true ↔ t.counter.toNat % period t.tac + 1 = period t.tac := by
  have hperiod := sixteen_le_period t.tac
  have hlt : t.counter.toNat % period t.tac < period t.tac := Nat.mod_lt _ (by omega)
  have hnext : (t.counter + 1).toNat % period t.tac =
      if t.counter.toNat % period t.tac + 1 = period t.tac then 0
      else t.counter.toNat % period t.tac + 1 := by
    rw [UInt16.toNat_add, ← succ_mod_eq_ite _ (by omega)]
    exact Nat.mod_mod_of_dvd _ (period_dvd t.tac)
  have hafter : { t with counter := t.counter + 1 }.signal = true ↔
      period t.tac ≤ 2 * ((t.counter + 1).toNat % period t.tac) := signal_iff _ h
  rw [falls, Bool.and_eq_true, Bool.not_eq_true', ← Bool.not_eq_true, signal_iff t h, hafter, hnext]
  split <;> omega

/-- The falling edges within `n` T-cycles. -/
def edges (n : Nat) : Nat :=
  (t.counter.toNat + n) / period t.tac - t.counter.toNat / period t.tac

/-- The T-cycles after which the `k`-th edge has come. -/
def edgeTime (k : Nat) : Nat :=
  (t.counter.toNat / period t.tac + k) * period t.tac - t.counter.toNat

/-- The T-cycles that have passed since the selected bit fell. -/
def age (n : Nat) : Nat :=
  (t.counter.toNat + n) % period t.tac

theorem div_period_le (n : Nat) :
    t.counter.toNat / period t.tac ≤ (t.counter.toNat + n) / period t.tac :=
  Nat.div_le_div_right (Nat.le_add_right _ _)

@[simp] theorem edges_zero : t.edges 0 = 0 :=
  Nat.sub_self _

theorem age_succ (n : Nat) :
    t.age (n + 1) = if t.age n + 1 = period t.tac then 0 else t.age n + 1 :=
  succ_mod_eq_ite _ (Nat.lt_of_lt_of_le (by decide) (sixteen_le_period t.tac))

/-- One more edge comes at the end of each period. -/
theorem edges_succ (n : Nat) :
    t.edges (n + 1) = t.edges n + if t.age n + 1 = period t.tac then 1 else 0 := by
  have hdvd : period t.tac ∣ t.counter.toNat + n + 1 ↔ t.age n + 1 = period t.tac := by
    rw [Nat.dvd_iff_mod_eq_zero]
    change t.age (n + 1) = 0 ↔ _
    rw [age_succ]
    split <;> omega
  have hle := t.div_period_le n
  rw [edges, edges, ← Nat.add_assoc, Nat.succ_div, if_congr hdvd rfl rfl]
  split <;> omega

theorem edgeTime_le_iff (k n : Nat) : t.edgeTime k ≤ n ↔ k ≤ t.edges n := by
  have hpos : 0 < period t.tac := Nat.lt_of_lt_of_le (by decide) (sixteen_le_period t.tac)
  have hle := t.div_period_le n
  have hdiv := Nat.le_div_iff_mul_le (x := t.counter.toNat / period t.tac + k)
    (y := t.counter.toNat + n) hpos
  rw [edgeTime, edges]
  omega

/-- Edges after the first are one period apart. -/
theorem edgeTime_succ {k : Nat} (hk : 0 < k) :
    t.edgeTime (k + 1) = t.edgeTime k + period t.tac := by
  have hpos : ¬t.edgeTime k ≤ 0 := by
    rw [edgeTime_le_iff, edges_zero]
    omega
  rw [edgeTime] at hpos ⊢
  rw [edgeTime, ← Nat.add_assoc, Nat.succ_mul]
  omega

theorem edgeTime_add_age {n : Nat} (h : 0 < t.edges n) : t.edgeTime (t.edges n) + t.age n = n := by
  have hle := t.div_period_le n
  have hdiv := Nat.div_add_mod' (t.counter.toNat + n) (period t.tac)
  have hpos : ¬t.edgeTime (t.edges n) ≤ 0 := by
    rw [edgeTime_le_iff, edges_zero]
    omega
  have hsum : t.counter.toNat / period t.tac + t.edges n =
      (t.counter.toNat + n) / period t.tac := by
    rw [edges]
    omega
  rw [edgeTime, hsum] at hpos ⊢
  rw [age]
  omega

/-! ### Counting the edges -/

/-- The timer counter after `k` edges, if every overflow reloaded it at once. -/
def counted (k : Nat) : Nat :=
  if k < 256 - t.tima.toNat then t.tima.toNat + k
  else t.tma.toNat + (k - (256 - t.tima.toNat)) % (256 - t.tma.toNat)

/-- The `k`-th edge makes the timer counter overflow. -/
def Overflows (k : Nat) : Prop :=
  256 - t.tima.toNat ≤ k ∧ (k - (256 - t.tima.toNat)) % (256 - t.tma.toNat) = 0

instance (k : Nat) : Decidable (t.Overflows k) :=
  inferInstanceAs (Decidable (_ ∧ _))

theorem not_overflows_zero : ¬t.Overflows 0 := by
  have htima := t.tima.toNat_lt
  rintro ⟨h, -⟩
  omega

theorem overflows_first : t.Overflows (256 - t.tima.toNat) := by
  refine ⟨Nat.le_refl _, ?_⟩
  rw [Nat.sub_self, Nat.zero_mod]

theorem counted_of_overflows {k : Nat} (h : t.Overflows k) : t.counted k = t.tma.toNat := by
  rw [counted, if_neg (Nat.not_lt.2 h.1), h.2, Nat.add_zero]

theorem counted_zero : t.counted 0 = t.tima.toNat := by
  have htima := t.tima.toNat_lt
  rw [counted, if_pos (by omega), Nat.add_zero]

/-- Past the first overflow, the remainder of the edges grows by one until the next. -/
theorem succ_sub_mod {k : Nat} (h : 256 - t.tima.toNat ≤ k) :
    (k + 1 - (256 - t.tima.toNat)) % (256 - t.tma.toNat) =
      if t.counted k = 255 then 0 else (k - (256 - t.tima.toNat)) % (256 - t.tma.toNat) + 1 := by
  have htma := t.tma.toNat_lt
  rw [counted, if_neg (Nat.not_lt.2 h), Nat.sub_add_comm h]
  rcases Nat.lt_or_ge 1 (256 - t.tma.toNat) with hp | hp
  · rw [succ_mod_eq_ite _ hp]
    exact if_congr (by omega) rfl rfl
  · have hone : 256 - t.tma.toNat = 1 := by omega
    rw [hone, Nat.mod_one, Nat.mod_one, if_pos (by omega)]

/-- The edge after the greatest byte overflows, and no other. -/
theorem overflows_succ_iff (k : Nat) : t.Overflows (k + 1) ↔ t.counted k = 255 := by
  have htima := t.tima.toNat_lt
  rcases Nat.lt_or_ge k (256 - t.tima.toNat) with h | h
  · rw [counted, if_pos h]
    constructor
    · rintro ⟨hle, -⟩
      omega
    · intro hlast
      have hk : k + 1 = 256 - t.tima.toNat := by omega
      rw [hk]
      exact t.overflows_first
  · rw [Overflows, succ_sub_mod t h]
    split <;> omega

theorem counted_succ {k : Nat} (h : ¬t.Overflows (k + 1)) :
    t.counted (k + 1) = t.counted k + 1 := by
  have hlast := mt (t.overflows_succ_iff k).2 h
  rcases Nat.lt_or_ge k (256 - t.tima.toNat) with hk | hk
  · have hnext : k + 1 < 256 - t.tima.toNat := by
      rw [counted, if_pos hk] at hlast
      omega
    rw [counted, counted, if_pos hk, if_pos hnext, Nat.add_assoc]
  · rw [counted, if_neg (by omega), succ_sub_mod t hk, if_neg hlast, counted, if_neg (by omega),
      Nat.add_assoc]

/-! ### The timer after a number of T-cycles -/

/-- After `n` T-cycles the reload of the latest overflow is still due. -/
def Pending (n : Nat) : Prop :=
  t.Overflows (t.edges n) ∧ t.age n < 4

instance (n : Nat) : Decidable (t.Pending n) :=
  inferInstanceAs (Decidable (_ ∧ _))

theorem not_pending_zero : ¬t.Pending 0 := by
  rw [Pending, edges_zero]
  exact fun h => t.not_overflows_zero h.1

/-- The timer is what `n` T-cycles make of `t`. -/
structure Advanced (n : Nat) (u : Timer) : Prop where
  enabled : u.enabled = true
  tac : u.tac = t.tac
  tma : u.tma = t.tma
  counter : u.counter.toNat = (t.counter.toNat + n) % 65536
  tima : u.tima.toNat = if t.Pending n then 0 else t.counted (t.edges n)
  overflowDelay : u.overflowDelay = if t.Pending n then 4 - t.age n else 0

theorem advanced_zero (henabled : t.enabled = true) (hdelay : t.overflowDelay = 0) :
    t.Advanced 0 t where
  enabled := henabled
  tac := rfl
  tma := rfl
  counter := (Nat.mod_eq_of_lt t.counter.toNat_lt).symm
  tima := by rw [if_neg t.not_pending_zero, edges_zero, counted_zero]
  overflowDelay := by rw [if_neg t.not_pending_zero, hdelay]

theorem settle_of_zero {t : Timer} (h : t.overflowDelay = 0) : t.settle = t := by
  rw [settle, h]

theorem settle_of_one {t : Timer} (h : t.overflowDelay = 1) :
    t.settle = { t with tima := t.tma, overflowDelay := 0 } := by
  rw [settle, h]

theorem settle_of_add_two {t : Timer} {d : Nat} (h : t.overflowDelay = d + 2) :
    t.settle = { t with overflowDelay := d + 1 } := by
  rw [settle, h]

theorem signal_settle : t.settle.signal = t.signal := by
  unfold settle
  split <;> rfl

theorem tick_eq : t.tick =
    if t.falls then { t.settle with counter := t.counter + 1 }.increment
    else { t.settle with counter := t.counter + 1 } := by
  have hafter : { t.settle with counter := t.counter + 1 }.signal =
      { t with counter := t.counter + 1 }.signal := by
    unfold settle
    split <;> rfl
  rw [tick]
  dsimp only
  rw [counter_settle, signal_settle, countEdge, hafter]
  rfl

variable {t} {n : Nat} {u : Timer}

namespace Advanced

theorem age_eq (h : t.Advanced n u) : u.counter.toNat % period u.tac = t.age n := by
  rw [h.tac, h.counter, age]
  exact Nat.mod_mod_of_dvd _ (period_dvd t.tac)

theorem falls_iff (h : t.Advanced n u) : u.falls = true ↔ t.age n + 1 = period t.tac := by
  rw [Timer.falls_iff u h.enabled, h.age_eq, h.tac]

theorem toNat_succ_counter (h : t.Advanced n u) :
    (u.counter + 1).toNat = (t.counter.toNat + (n + 1)) % 65536 := by
  have hone : (u.counter + 1).toNat = (u.counter.toNat + 1) % 65536 := UInt16.toNat_add _ _
  rw [hone, h.counter, Nat.mod_add_mod, Nat.add_assoc]

/-- No reload is due when the line falls. -/
theorem not_pending (h : t.Advanced n u) (hfalls : u.falls = true) : ¬t.Pending n := by
  have hage := h.falls_iff.1 hfalls
  have hperiod := sixteen_le_period t.tac
  rintro ⟨-, hlt⟩
  omega

theorem requests_iff (h : t.Advanced n u) :
    u.requests = true ↔ t.Overflows (t.edges n) ∧ t.age n = 3 := by
  rw [requests, beq_iff_eq, h.overflowDelay]
  split
  next hpending =>
    have hage := hpending.2
    refine ⟨fun heq => ⟨hpending.1, by omega⟩, fun hthree => by omega⟩
  next hpending =>
    refine ⟨fun hzero => absurd hzero (by decide), fun hthree => ?_⟩
    exact absurd ⟨hthree.1, by omega⟩ hpending

/-- The line falls when no reload is due, and the timer counter is incremented. -/
theorem tick_of_falls (h : t.Advanced n u) (hfalls : u.falls = true) :
    t.Advanced (n + 1) u.tick := by
  have hpending := h.not_pending hfalls
  have hend := h.falls_iff.1 hfalls
  have hedges : t.edges (n + 1) = t.edges n + 1 := by rw [edges_succ, if_pos hend]
  have hage : t.age (n + 1) = 0 := by rw [age_succ, if_pos hend]
  have htima : u.tima.toNat = t.counted (t.edges n) := by rw [h.tima, if_neg hpending]
  have hdelay : u.overflowDelay = 0 := by rw [h.overflowDelay, if_neg hpending]
  have hiff : t.Pending (n + 1) ↔ u.tima.toNat = 255 := by
    rw [Pending, hedges, overflows_succ_iff, hage, htima]
    exact and_iff_left (by decide)
  have htick : u.tick = { u with counter := u.counter + 1 }.increment := by
    rw [tick_eq, if_pos hfalls, settle_of_zero hdelay]
  have hmax : (u.tima == 0xFF) = true ↔ u.tima.toNat = 255 := by
    rw [beq_iff_eq, ← UInt8.toNat_inj]
    rfl
  have hlt := u.tima.toNat_lt
  have hone : (u.tima + 1).toNat = (u.tima.toNat + 1) % 256 := UInt8.toNat_add _ _
  rw [htick]
  refine ⟨h.enabled, h.tac, h.tma, h.toNat_succ_counter, ?_, ?_⟩
  · change (u.tima + 1).toNat = _
    rw [hone]
    split
    next hdue => rw [hiff.1 hdue]
    next hdue =>
      rw [hiff] at hdue
      rw [hedges, counted_succ, ← htima, Nat.mod_eq_of_lt (by omega)]
      rwa [overflows_succ_iff, ← htima]
  · change (if (u.tima == 0xFF) = true then reloadDelay else u.overflowDelay) = _
    rw [if_congr (hmax.trans hiff.symm) rfl hdelay, hage]
    rfl

/-- Between edges only a reload that is due makes progress. -/
theorem tick_of_not_falls (h : t.Advanced n u) (hfalls : ¬u.falls = true) :
    t.Advanced (n + 1) u.tick := by
  have hend := mt h.falls_iff.2 hfalls
  have hedges : t.edges (n + 1) = t.edges n := by rw [edges_succ, if_neg hend, Nat.add_zero]
  have hage : t.age (n + 1) = t.age n + 1 := by rw [age_succ, if_neg hend]
  have hnext : t.Pending (n + 1) ↔ t.Overflows (t.edges n) ∧ t.age n + 1 < 4 := by
    rw [Pending, hedges, hage]
  rw [tick_eq, if_neg hfalls]
  by_cases hpending : t.Pending n
  · have hdelay : u.overflowDelay = 4 - t.age n := by rw [h.overflowDelay, if_pos hpending]
    have htima : u.tima.toNat = 0 := by rw [h.tima, if_pos hpending]
    rcases Nat.lt_or_ge (t.age n + 1) 4 with hlt | hge
    · obtain ⟨d, hd⟩ : ∃ d, u.overflowDelay = d + 2 := ⟨2 - t.age n, by omega⟩
      have hdue := hnext.2 ⟨hpending.1, hlt⟩
      rw [settle_of_add_two hd]
      refine ⟨h.enabled, h.tac, h.tma, h.toNat_succ_counter, ?_, ?_⟩
      · rw [if_pos hdue, htima]
      · rw [if_pos hdue, hage]
        change d + 1 = _
        omega
    · have hthree := hpending.2
      have hdone : ¬t.Pending (n + 1) := fun hdue => by
        have := (hnext.1 hdue).2
        omega
      rw [settle_of_one (by omega : u.overflowDelay = 1)]
      refine ⟨h.enabled, h.tac, h.tma, h.toNat_succ_counter, ?_, (if_neg hdone).symm⟩
      rw [if_neg hdone, hedges, counted_of_overflows t hpending.1, h.tma]
  · have hdelay : u.overflowDelay = 0 := by rw [h.overflowDelay, if_neg hpending]
    have hdone : ¬t.Pending (n + 1) := fun hdue => by
      have hnext := hnext.1 hdue
      exact hpending ⟨hnext.1, by omega⟩
    rw [settle_of_zero hdelay]
    refine ⟨h.enabled, h.tac, h.tma, h.toNat_succ_counter, ?_, ?_⟩
    · rw [if_neg hdone, hedges, h.tima, if_neg hpending]
    · rw [if_neg hdone, hdelay]

theorem tick (h : t.Advanced n u) : t.Advanced (n + 1) u.tick := by
  by_cases hfalls : u.falls = true
  · exact h.tick_of_falls hfalls
  · exact h.tick_of_not_falls hfalls

end Advanced

variable (t) in
theorem advanced_iterate_tick (henabled : t.enabled = true) (hdelay : t.overflowDelay = 0)
    (n : Nat) : t.Advanced n (Timer.tick^[n] t) := by
  induction n with
  | zero => exact t.advanced_zero henabled hdelay
  | succ n ih =>
    rw [Function.iterate_succ_apply']
    exact ih.tick

/-! ### What has happened within a number of T-cycles -/

variable (t) in
/-- The `k`-th edge comes with the `e`-th T-cycle. -/
structure FallsAt (k e : Nat) : Prop where
  pos : 0 < e
  falls : (Timer.tick^[e - 1] t).falls = true
  count : Nat.count (fun i => (Timer.tick^[i] t).falls = true) e = k

variable (henabled : t.enabled = true) (hdelay : t.overflowDelay = 0)

include henabled hdelay

theorem count_falls (n : Nat) :
    Nat.count (fun i => (Timer.tick^[i] t).falls = true) n = t.edges n := by
  induction n with
  | zero => exact t.edges_zero.symm
  | succ n ih =>
    have hfalls := (t.advanced_iterate_tick henabled hdelay n).falls_iff
    rw [Nat.count_succ, ih, edges_succ, if_congr hfalls rfl rfl]

theorem fallsAt_edgeTime {k : Nat} (hk : 0 < k) : t.FallsAt k (t.edgeTime k) := by
  have hperiod := sixteen_le_period t.tac
  have hpos : ¬t.edgeTime k ≤ 0 := by
    rw [edgeTime_le_iff, edges_zero]
    omega
  obtain ⟨e, he⟩ : ∃ e, t.edgeTime k = e + 1 := ⟨t.edgeTime k - 1, by omega⟩
  have hle := (t.edgeTime_le_iff k (e + 1)).1 (by omega)
  have hbefore := mt (t.edgeTime_le_iff k e).2 (by omega)
  have hafter := mt (t.edgeTime_le_iff (k + 1) (e + 1)).2 (by
    rw [edgeTime_succ t hk]
    omega)
  have hsucc := t.edges_succ e
  have hend : t.age e + 1 = period t.tac := by
    by_contra h
    rw [if_neg h] at hsucc
    omega
  rw [he]
  refine ⟨Nat.succ_pos e, ?_, ?_⟩
  · exact (t.advanced_iterate_tick henabled hdelay e).falls_iff.2 hend
  · rw [count_falls henabled hdelay]
    omega

/-- The reload of the first overflow is the first to request the interrupt. -/
theorem succ_requests_iff (n : Nat) :
    t.edgeTime (256 - t.tima.toNat) + 4 ≤ n + 1 ↔
      t.edgeTime (256 - t.tima.toNat) + 4 ≤ n ∨ (Timer.tick^[n] t).requests = true := by
  have htima := t.tima.toNat_lt
  have hperiod := sixteen_le_period t.tac
  rw [(t.advanced_iterate_tick henabled hdelay n).requests_iff]
  constructor
  · intro h
    refine (Nat.lt_or_eq_of_le h).imp Nat.le_of_lt_succ fun heq => ?_
    have hfirst := (t.edgeTime_le_iff (256 - t.tima.toNat) n).1 (by omega)
    have hsecond := mt (t.edgeTime_le_iff (256 - t.tima.toNat + 1) n).2 (by
      rw [edgeTime_succ t (by omega)]
      omega)
    have hedges : t.edges n = 256 - t.tima.toNat := by omega
    have hage := t.edgeTime_add_age (n := n) (by omega)
    rw [hedges] at hage ⊢
    exact ⟨t.overflows_first, by omega⟩
  · rintro (h | ⟨hover, hage⟩)
    · exact Nat.le_succ_of_le h
    · have hlatest := t.edgeTime_add_age (n := n) (Nat.lt_of_lt_of_le (by omega) hover.1)
      have hfirst : t.edgeTime (256 - t.tima.toNat) ≤ t.edgeTime (t.edges n) :=
        (t.edgeTime_le_iff _ _).2 (hover.1.trans ((t.edgeTime_le_iff _ _).1 (Nat.le_refl _)))
      omega

/-- Some T-cycle has requested the interrupt as soon as the first overflow has been reloaded. -/
theorem exists_requests_iff (n : Nat) :
    (∃ i < n, (Timer.tick^[i] t).requests = true) ↔ t.edgeTime (256 - t.tima.toNat) + 4 ≤ n := by
  induction n with
  | zero => exact ⟨fun ⟨_, hi, _⟩ => absurd hi (Nat.not_lt_zero _), fun h => absurd h (by omega)⟩
  | succ n ih => rw [Nat.exists_lt_succ_right, ih, succ_requests_iff henabled hdelay]

end Timer

namespace Clockwork

variable (c : Clockwork)

theorem timer_iterate_timerCycle (n : Nat) :
    (timerCycle^[n] c).timer = Timer.tick^[n] c.timer := by
  induction n with
  | zero => rfl
  | succ n ih =>
    rw [Function.iterate_succ_apply', Function.iterate_succ_apply', timerCycle_eq, ih]

/-- What the T-cycles request is collected in the request register. -/
theorem requests_iterate_timerCycle (n : Nat) :
    (timerCycle^[n] c).requests = c.requests |||
      if ∃ i < n, (Timer.tick^[i] c.timer).requests = true then InterruptSource.timer.mask
      else 0 := by
  induction n with
  | zero =>
    rw [if_neg (by simp)]
    exact UInt8.or_zero.symm
  | succ n ih =>
    rw [Function.iterate_succ_apply', timerCycle_eq, timer_iterate_timerCycle]
    dsimp only
    rw [ih, UInt8.or_assoc, if_congr Nat.exists_lt_succ_right rfl rfl]
    by_cases h : ∃ i < n, (Timer.tick^[i] c.timer).requests = true
    · have heither := Or.inl (b := (Timer.tick^[n] c.timer).requests = true) h
      rw [if_pos h, if_pos heither]
      split <;> rfl
    · rw [if_neg h, UInt8.zero_or, if_congr (or_iff_right h) rfl rfl]

/-- The timer and the request register after `n` T-cycles of the timer, in which it counts `k`
edges. -/
structure CountsEdges (n k : Nat) : Prop where
  count : k = Nat.count (fun i => (Timer.tick^[i] c.timer).falls = true) n
  edges : k = (c.timer.counter.toNat + n) / Timer.period c.timer.tac -
    c.timer.counter.toNat / Timer.period c.timer.tac
  latest : 0 < k → c.timer.FallsAt k (c.timer.edgeTime k)
  counter : (timerCycle^[n] c).timer.counter.toNat = (c.timer.counter.toNat + n) % 65536
  tima : (timerCycle^[n] c).timer.tima.toNat =
    if k < 256 - c.timer.tima.toNat then c.timer.tima.toNat + k
    else
      let q := k - (256 - c.timer.tima.toNat)
      if q % (256 - c.timer.tma.toNat) = 0 ∧ n < c.timer.edgeTime k + 4 then 0
      else c.timer.tma.toNat + q % (256 - c.timer.tma.toNat)
  raised : (∃ i < n, (Timer.tick^[i] c.timer).requests = true) ↔
    (c.timer.counter.toNat / Timer.period c.timer.tac + 256 - c.timer.tima.toNat) *
      Timer.period c.timer.tac - c.timer.counter.toNat + 4 ≤ n
  requests : (timerCycle^[n] c).requests = c.requests |||
    if (c.timer.counter.toNat / Timer.period c.timer.tac + 256 - c.timer.tima.toNat) *
        Timer.period c.timer.tac - c.timer.counter.toNat + 4 ≤ n then InterruptSource.timer.mask
    else 0

section LeftAlone

variable {c} (henabled : c.timer.enabled = true) (hdelay : c.timer.overflowDelay = 0)

include henabled hdelay

theorem toNat_tima_iterate_timerCycle (n : Nat) :
    (timerCycle^[n] c).timer.tima.toNat =
      if c.timer.edges n < 256 - c.timer.tima.toNat then c.timer.tima.toNat + c.timer.edges n
      else
        let q := c.timer.edges n - (256 - c.timer.tima.toNat)
        if q % (256 - c.timer.tma.toNat) = 0 ∧ n < c.timer.edgeTime (c.timer.edges n) + 4 then 0
        else c.timer.tma.toNat + q % (256 - c.timer.tma.toNat) := by
  have htima := c.timer.tima.toNat_lt
  rw [timer_iterate_timerCycle, (c.timer.advanced_iterate_tick henabled hdelay n).tima,
    Timer.counted]
  dsimp only
  rcases Nat.lt_or_ge (c.timer.edges n) (256 - c.timer.tima.toNat) with hbelow | habove
  · have hnever : ¬c.timer.Pending n := fun h => absurd h.1.1 (Nat.not_le.2 hbelow)
    rw [if_neg hnever, if_pos hbelow, if_pos hbelow]
  · have hlatest := c.timer.edgeTime_add_age (n := n) (by omega)
    have hage : n < c.timer.edgeTime (c.timer.edges n) + 4 ↔ c.timer.age n < 4 := by omega
    rw [if_neg (Nat.not_lt.2 habove), if_neg (Nat.not_lt.2 habove)]
    refine if_congr ?_ rfl rfl
    rw [hage]
    exact and_congr_left' (and_iff_right habove)

/-- An enabled timer that is left alone, with no reload due, counts the edges of the selected
bit. -/
theorem countsEdges_iterate (n : Nat) : c.CountsEdges n (c.timer.edges n) := by
  have htima := c.timer.tima.toNat_lt
  have hfirst : (c.timer.counter.toNat / Timer.period c.timer.tac + 256 - c.timer.tima.toNat) *
      Timer.period c.timer.tac - c.timer.counter.toNat =
        c.timer.edgeTime (256 - c.timer.tima.toNat) := by
    rw [Timer.edgeTime, Nat.add_sub_assoc (by omega)]
  have hraised := Timer.exists_requests_iff henabled hdelay n
  refine ⟨?_, rfl, ?_, ?_, ?_, ?_, ?_⟩
  · exact (Timer.count_falls henabled hdelay n).symm
  · exact Timer.fallsAt_edgeTime henabled hdelay
  · rw [timer_iterate_timerCycle, Timer.toNat_counter_iterate_tick]
  · exact toNat_tima_iterate_timerCycle henabled hdelay n
  · rw [hfirst]
    exact hraised
  · rw [hfirst, requests_iterate_timerCycle, if_congr hraised rfl rfl]

end LeftAlone

/-- The devices after power-on, but with the timer one T-cycle before an edge that makes it
overflow. -/
def aboutToOverflow : Clockwork :=
  { (Bus.powerOn .zeroed .silent).clockwork with
    timer := ⟨0x000F, 0xFF, 0xFE, 0x05, 0, true⟩ }

/-- Twenty T-cycles with two edges: an overflow and its reload, and one increment. -/
theorem countsEdges_aboutToOverflow :
    aboutToOverflow.timer.enabled = true ∧ aboutToOverflow.timer.overflowDelay = 0 ∧
      aboutToOverflow.CountsEdges 20 2 :=
  ⟨rfl, rfl, countsEdges_iterate (c := aboutToOverflow) rfl rfl 20⟩

end Clockwork

end EightBit.GameBoy
