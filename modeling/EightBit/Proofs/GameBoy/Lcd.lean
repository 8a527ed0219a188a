import EightBit.Proofs.GameBoy.Devices

/-!
# The position of the display and its status line

The line drawn is determined by the dots since the frame began, the read-only bits of the status
register show the mode and the coincidence, and the status line is high exactly if a selected
condition holds. Writes and dots preserve all this, so that what is requested in a write or a dot
is told by the conditions before and after it.

## Main definitions

* `Lcd.Placed`, `Lcd.WellFormed`: the position, and the whole display.
* `Lcd.UpToDate`: the read-only bits of the status register are as they should be.
* `Lcd.LineHigh`: the condition under which the status line is high.
* `Lcd.Clocked`: the display has been on for a number of dots.

## Main results

* `Lcd.WellFormed.written`, `Lcd.WellFormed.dot`: writes and dots preserve the display.
* `Lcd.WellFormed.hasBit_requestsOfDot_iff`: when a dot requests the status interrupt.
* `Lcd.Clocked.iterate_dot`: the position after a number of dots.
-/

namespace EightBit.GameBoy

open Sm83 (InterruptSource)

namespace Lcd

variable (d : Lcd)

/-! ### The bits of the registers -/

theorem isOn_eq : d.isOn = hasBit d.control 7 :=
  and_mask_bne_zero _ (by decide)

theorem mode_eq : d.mode = 0 ∨ d.mode = 1 ∨ d.mode = 2 ∨ d.mode = 3 := by
  unfold mode
  dsimp only
  split
  · exact .inl rfl
  split
  · exact .inr (.inl rfl)
  split
  · exact .inr (.inr (.inl rfl))
  split
  · exact .inr (.inr (.inr rfl))
  · exact .inl rfl

/-- The mode occupies two bits. -/
theorem hasBit_mode {k : Nat} (hk : 2 ≤ k) : hasBit d.mode k = false := by
  refine Bool.eq_false_iff.2 fun hset => ?_
  have hlt := lt_of_hasBit hset
  have hclear : ∀ k < 8, 2 ≤ k → hasBit 0 k = false ∧ hasBit 1 k = false ∧ hasBit 2 k = false ∧
      hasBit 3 k = false := by decide
  obtain ⟨h0, h1, h2, h3⟩ := hclear k hlt hk
  rcases d.mode_eq with h | h | h | h <;> rw [h] at hset
  · exact Bool.false_ne_true (h0.symm.trans hset)
  · exact Bool.false_ne_true (h1.symm.trans hset)
  · exact Bool.false_ne_true (h2.symm.trans hset)
  · exact Bool.false_ne_true (h3.symm.trans hset)

theorem hasBit_coincidence (k : Nat) :
    hasBit (if d.coincides then 0x04 else 0) k = (d.coincides && hasBit 0x04 k) := by
  cases d.coincides
  · exact hasBit_zero k
  · rfl

theorem hasBit_statusRead (k : Nat) :
    hasBit d.statusRead k =
      (((hasBit d.status k && hasBit 0x78 k) || hasBit 0x80 k || hasBit d.mode k) ||
        (d.coincides && hasBit 0x04 k)) := by
  rw [statusRead, hasBit_or, hasBit_or, hasBit_or, hasBit_and, hasBit_coincidence]

/-- The selections are kept. -/
theorem hasBit_statusRead_selection {k : Nat} (hlow : 3 ≤ k) (hhigh : k < 7) :
    hasBit d.statusRead k = hasBit d.status k := by
  have hbits : ∀ k < 7, 3 ≤ k →
      hasBit 0x78 k = true ∧ hasBit 0x80 k = false ∧ hasBit 0x04 k = false := by decide
  obtain ⟨hselection, htop, hcoincidence⟩ := hbits k hhigh hlow
  rw [hasBit_statusRead, hselection, htop, hcoincidence, d.hasBit_mode (by omega), Bool.and_true,
    Bool.or_false, Bool.or_false, Bool.and_false, Bool.or_false]

/-- Bit 2 shows whether the line drawn is the one to be reported. -/
theorem hasBit_statusRead_two : hasBit d.statusRead 2 = d.coincides := by
  have hbits : hasBit 0x78 2 = false ∧ hasBit 0x80 2 = false ∧ hasBit 0x04 2 = true := by decide
  rw [hasBit_statusRead, hbits.1, hbits.2.1, hbits.2.2, d.hasBit_mode (Nat.le_refl 2),
    Bool.and_false, Bool.or_false, Bool.or_false, Bool.false_or, Bool.and_true]

theorem hasBit_statusRead_seven : hasBit d.statusRead 7 = true := by
  have htop : hasBit 0x80 7 = true := by decide
  rw [hasBit_statusRead, htop, Bool.or_true, Bool.true_or, Bool.true_or]

/-- Bits 0 and 1 show the mode. -/
theorem statusRead_and_three : d.statusRead &&& 3 = d.mode := by
  refine ext_hasBit fun k => ?_
  rw [hasBit_and]
  by_cases hk : k < 2
  · have hbits : ∀ k < 2, hasBit 0x78 k = false ∧ hasBit 0x80 k = false ∧ hasBit 0x04 k = false ∧
        hasBit 3 k = true := by decide
    obtain ⟨hselection, htop, hcoincidence, hlow⟩ := hbits k hk
    rw [hasBit_statusRead, hselection, htop, hcoincidence, hlow, Bool.and_false, Bool.false_or,
      Bool.false_or, Bool.and_false, Bool.or_false, Bool.and_true]
  · rw [d.hasBit_mode (Nat.not_lt.1 hk), Bool.and_eq_false_iff]
    refine .inr (Bool.eq_false_iff.2 fun hset => ?_)
    have hlow : ∀ k < 8, hasBit 3 k = true → k < 2 := by decide
    exact hk (hlow k (lt_of_hasBit hset) hset)

/-! ### The status line -/

/-- The condition that drives the status line: the display is on, and it draws the line to be
reported or is in mode 2, 1 or 0, whichever of these is selected. -/
def LineHigh : Prop :=
  hasBit d.control 7 = true ∧
    ((hasBit d.status 6 = true ∧ d.line = d.compare) ∨ (hasBit d.status 5 = true ∧ d.mode = 2) ∨
      (hasBit d.status 4 = true ∧ d.mode = 1) ∨ (hasBit d.status 3 = true ∧ d.mode = 0))

theorem sourceActive_eq :
    d.sourceActive =
      (d.isOn && ((hasBit d.status 6 && d.coincides) || (hasBit d.status 5 && d.mode == 2) ||
        (hasBit d.status 4 && d.mode == 1) || (hasBit d.status 3 && d.mode == 0))) := by
  rw [sourceActive, and_mask_bne_zero (k := 6) _ (by decide),
    and_mask_bne_zero (k := 5) _ (by decide), and_mask_bne_zero (k := 4) _ (by decide),
    and_mask_bne_zero (k := 3) _ (by decide)]

theorem sourceActive_iff : d.sourceActive = true ↔ d.LineHigh := by
  rw [sourceActive_eq, isOn_eq, LineHigh, coincides]
  simp only [Bool.and_eq_true, Bool.or_eq_true, beq_iff_eq, or_assoc]

/-- What the display does about the status line depends on the selections only. -/
theorem sourceActive_congr {d e : Lcd} (hcontrol : d.control = e.control) (hline : d.line = e.line)
    (hcompare : d.compare = e.compare) (hdots : d.dots = e.dots)
    (hstatus : ∀ k, 3 ≤ k → k < 7 → hasBit d.status k = hasBit e.status k) :
    d.sourceActive = e.sourceActive := by
  have hmode : d.mode = e.mode := by rw [mode, mode, isOn, isOn, hcontrol, hline, hdots]
  have hon : d.isOn = e.isOn := by rw [isOn, isOn, hcontrol]
  have hcoincides : d.coincides = e.coincides := by rw [coincides, coincides, hline, hcompare]
  rw [sourceActive_eq, sourceActive_eq, hstatus 6 (by decide) (by decide),
    hstatus 5 (by decide) (by decide), hstatus 4 (by decide) (by decide),
    hstatus 3 (by decide) (by decide), hmode, hon, hcoincides]

@[simp] theorem sourceActive_refresh : d.refresh.sourceActive = d.sourceActive :=
  sourceActive_congr rfl rfl rfl rfl fun _ => d.hasBit_statusRead_selection

theorem sourceActive_of_off (h : d.isOn = false) : d.sourceActive = false := by
  rw [sourceActive, h, Bool.false_and]

/-- Switching off resets the position, which a display that is off does not look at. -/
theorem sourceActive_writeControl (v : UInt8) :
    (d.writeControl v).sourceActive = { d with control := v }.sourceActive := by
  unfold writeControl
  split
  next h =>
    have hoff : switchedOn v = false := by simpa using (Bool.and_eq_true_iff.1 h).2
    rw [sourceActive_refresh,
      sourceActive_of_off { d with control := v, dots := 0, line := 0 } hoff,
      sourceActive_of_off { d with control := v } hoff]
  next => exact sourceActive_refresh _

theorem sourceActive_writeStatus (v : UInt8) :
    (d.writeStatus v).sourceActive = { d with status := v }.sourceActive := by
  rw [writeStatus, sourceActive_refresh]
  refine sourceActive_congr rfl rfl rfl rfl fun k hlow hhigh => ?_
  have hbits : ∀ k < 7, 3 ≤ k →
      hasBit 0x07 k = false ∧ hasBit 0x78 k = true ∧ hasBit 0x80 k = false := by decide
  obtain ⟨hkept, hselection, htop⟩ := hbits k hhigh hlow
  rw [hasBit_or, hasBit_or, hasBit_and, hasBit_and, hkept, hselection, htop, Bool.and_false,
    Bool.false_or, Bool.and_true, Bool.or_false]

/-! ### What writes and dots preserve -/

/-- The line drawn is the one that the dots since the frame began lead to, and a display that is off
is at the start of a frame. -/
structure Placed : Prop where
  dots_lt : d.dots < dotsPerFrame
  line : d.line.toNat = d.dots / dotsPerLine
  off : d.isOn = false → d.dots = 0

/-- The read-only bits of the status register are as they should be. -/
def UpToDate : Prop :=
  d.status = d.statusRead

/-- What holds of a display from power-on. -/
structure WellFormed : Prop extends d.Placed where
  top : hasBit d.status 7 = true
  statLine : d.statLine = d.sourceActive
  upToDate : d.isOn = false → d.UpToDate

theorem upToDate_refresh : d.refresh.UpToDate := by
  have hselection : d.statusRead &&& 0x78 = d.status &&& 0x78 := by
    refine ext_hasBit fun k => ?_
    rw [hasBit_and, hasBit_and]
    rcases Bool.eq_false_or_eq_true (hasBit 0x78 k) with h | h
    · have hrange : ∀ k < 8, hasBit 0x78 k = true → 3 ≤ k ∧ k < 7 := by decide
      obtain ⟨hlow, hhigh⟩ := hrange k (lt_of_hasBit h) h
      rw [d.hasBit_statusRead_selection hlow hhigh]
    · rw [h, Bool.and_false, Bool.and_false]
  change d.statusRead = ((d.statusRead &&& 0x78) ||| 0x80 ||| d.mode) ||| _
  rw [hselection]
  rfl

variable {d}

/-- Bringing the status up to date makes a display whose position is right a well-formed one. -/
theorem Placed.refresh (h : d.Placed) : d.refresh.WellFormed where
  dots_lt := h.dots_lt
  line := h.line
  off := h.off
  top := d.hasBit_statusRead_seven
  statLine := d.sourceActive_refresh.symm
  upToDate _ := d.upToDate_refresh

theorem toNat_line_advance : d.advance.line.toNat = (d.dots + 1) % dotsPerFrame / dotsPerLine := by
  have hlt : (d.dots + 1) % 70224 / 456 < 256 := by omega
  exact UInt8.toNat_ofNat_of_lt' hlt

theorem Placed.advance (h : d.isOn = true) : d.advance.Placed where
  dots_lt := Nat.mod_lt _ (by decide)
  line := toNat_line_advance
  off hoff := absurd (hoff.symm.trans h) Bool.false_ne_true

theorem Placed.countBlank (h : d.Placed) (old : UInt8) : (d.countBlank old).Placed := by
  rw [countBlank_eq]
  exact ⟨h.dots_lt, h.line, h.off⟩

theorem dot_of_on (h : d.isOn = true) : d.dot = (d.advance.countBlank d.line).refresh := by
  rw [dot, h, Bool.not_true, if_neg Bool.false_ne_true]

namespace WellFormed

variable (h : d.WellFormed)

include h

/-- A display that is off is at rest. -/
theorem rest_eq_self (hoff : d.isOn = false) : d.rest = d := by
  have hline : d.line = 0 := by
    refine UInt8.toNat_inj.1 ?_
    rw [h.line, h.off hoff]
    rfl
  have hdots := h.off hoff
  have hstatLine := h.statLine.trans (d.sourceActive_of_off hoff)
  obtain ⟨control, status, line, compare, dots, statLine, frames⟩ := d
  simp only at hline hdots hstatLine
  rw [rest, hline, hdots, hstatLine]

theorem dot_of_off (hoff : d.isOn = false) : d.dot = d := by
  rw [dot, hoff, Bool.not_false, if_pos rfl, h.rest_eq_self hoff]

/-- A dot preserves the display. -/
theorem dot : d.dot.WellFormed := by
  rcases Bool.eq_false_or_eq_true d.isOn with hon | hoff
  · rw [dot_of_on hon]
    exact ((Placed.advance hon).countBlank _).refresh
  · rwa [h.dot_of_off hoff]

theorem iterate_dot (n : Nat) : (Lcd.dot^[n] d).WellFormed := by
  induction n generalizing d with
  | zero => exact h
  | succ n ih =>
    rw [Function.iterate_succ_apply]
    exact ih h.dot

theorem writeControl (v : UInt8) : (d.writeControl v).WellFormed := by
  unfold Lcd.writeControl
  split
  next => exact Placed.refresh ⟨Nat.zero_lt_of_lt h.dots_lt, (Nat.zero_div _).symm, fun _ => rfl⟩
  next hstays =>
    refine Placed.refresh ⟨h.dots_lt, h.line, fun hoff => h.off ?_⟩
    have hoff : switchedOn v = false := hoff
    simpa [hoff] using hstays

/-- A write preserves the display. -/
theorem written (v : UInt8) (target : Target) : (d.written v target).WellFormed := by
  cases target with
  | lcdControl => exact h.writeControl v
  | lcdStatus | lcdCompare => exact Placed.refresh ⟨h.dots_lt, h.line, h.off⟩
  | _ => exact h

end WellFormed

/-! ### The read-only bits of the status register -/

theorem upToDate_writeControl (d : Lcd) (v : UInt8) : (d.writeControl v).UpToDate := by
  unfold writeControl
  split <;> exact upToDate_refresh _

theorem upToDate_written (h : d.UpToDate) (v : UInt8) (target : Target) :
    (d.written v target).UpToDate := by
  cases target with
  | lcdControl => exact d.upToDate_writeControl v
  | lcdStatus | lcdCompare => exact upToDate_refresh _
  | _ => exact h

theorem WellFormed.upToDate_dot (h : d.WellFormed) : d.dot.UpToDate := by
  rcases Bool.eq_false_or_eq_true d.isOn with hon | hoff
  · rw [dot_of_on hon]
    exact upToDate_refresh _
  · rw [h.dot_of_off hoff]
    exact h.upToDate hoff

/-- Time brings the status register up to date, and no time leaves it as it was. -/
theorem WellFormed.upToDate_iterate_dot (h : d.WellFormed) {n : Nat} (hn : d.UpToDate ∨ 0 < n) :
    (Lcd.dot^[n] d).UpToDate := by
  cases n with
  | zero => exact hn.resolve_right (Nat.lt_irrefl 0)
  | succ n =>
    rw [Function.iterate_succ_apply']
    exact (h.iterate_dot n).upToDate_dot

/-! ### Requests -/

/-- The vertical blank begins when line 144 follows line 143. -/
theorem Placed.entersBlank_iff (h : d.Placed) :
    entersBlank d.line d.advance.line = true ↔ d.line = 143 ∧ d.advance.line = 144 := by
  have hdots : d.dots < 70224 := h.dots_lt
  have hline : d.line.toNat = d.dots / 456 := h.line
  have hnew : d.advance.line.toNat = (d.dots + 1) % 70224 / 456 := toNat_line_advance
  rw [entersBlank, Bool.and_eq_true, decide_eq_true_eq, decide_eq_true_eq, UInt8.lt_iff_toNat_lt,
    UInt8.le_iff_toNat_le, ← UInt8.toNat_inj, ← UInt8.toNat_inj]
  change d.line.toNat < 144 ∧ 144 ≤ d.advance.line.toNat ↔
    d.line.toNat = 143 ∧ d.advance.line.toNat = 144
  omega

theorem line_dot (h : d.isOn = true) : d.dot.line = d.advance.line := by
  rw [dot_of_on h, countBlank_eq]
  rfl

theorem sourceActive_dot (h : d.isOn = true) : d.dot.sourceActive = d.advance.sourceActive := by
  rw [dot_of_on h, sourceActive_refresh, countBlank_eq]
  rfl

/-- A dot requests the status interrupt when the status line rises, and when the vertical blank
begins while mode 2 is selected. -/
theorem WellFormed.hasBit_requestsOfDot_iff (h : d.WellFormed) :
    hasBit d.requestsOfDot InterruptSource.lcdStat.index = true ↔
      (¬d.LineHigh ∧ d.dot.LineHigh) ∨
        (d.line = 143 ∧ d.dot.line = 144 ∧ hasBit d.status 5 = true) := by
  rcases Bool.eq_false_or_eq_true d.isOn with hon | hoff
  · have hrises : d.advance.rises = (!d.sourceActive && d.dot.sourceActive) := by
      rw [sourceActive_dot hon, ← h.statLine]
      rfl
    rw [← sourceActive_iff, ← sourceActive_iff, requestsOfDot, hon, Bool.not_true,
      if_neg Bool.false_ne_true, hrises, and_mask_bne_zero (k := 5) _ (by decide), line_dot hon,
      ← and_assoc, ← h.entersBlank_iff]
    have hvblank : hasBit InterruptSource.vblank.mask InterruptSource.lcdStat.index = false := rfl
    have hstat : hasBit InterruptSource.lcdStat.mask InterruptSource.lcdStat.index = true := rfl
    rw [hasBit_or, apply_ite (hasBit · _), apply_ite (hasBit · _), hasBit_or,
      apply_ite (hasBit · _), hvblank, hstat, hasBit_zero]
    cases entersBlank d.line d.advance.line <;> cases hasBit d.status 5 <;>
      cases d.sourceActive <;> cases d.dot.sourceActive <;> decide
  · have hline : d.line ≠ 143 := by
      intro heq
      have := h.line
      rw [h.off hoff, heq] at this
      exact absurd this (by decide)
    rw [requestsOfDot, hoff, Bool.not_false, if_pos rfl, hasBit_zero, h.dot_of_off hoff]
    simp [hline]

/-! ### The time of a display that stays on -/

/-- The display has been on for `t` dots since the start of a frame. -/
structure Clocked (t : Nat) (d : Lcd) : Prop where
  on : d.isOn = true
  dots : d.dots = t % dotsPerFrame
  line : d.line.toNat = t % dotsPerFrame / dotsPerLine
  /-- The blanks begun: the first begins `144` lines after the start of the frame. -/
  frames : d.frames = (t + 10 * dotsPerLine) / dotsPerFrame

theorem Clocked.placed {t : Nat} (h : d.Clocked t) : d.Placed where
  dots_lt := by
    rw [h.dots]
    exact Nat.mod_lt _ (by decide)
  line := by rw [h.line, h.dots]
  off hoff := absurd (hoff.symm.trans h.on) Bool.false_ne_true

/-- One dot later. -/
theorem Clocked.dot {t : Nat} (h : d.Clocked t) : d.dot.Clocked (t + 1) := by
  have hdots : d.advance.dots = (t + 1) % dotsPerFrame := by
    change (d.dots + 1) % dotsPerFrame = _
    rw [h.dots, Nat.mod_add_mod]
  have hline : d.advance.line.toNat = (t + 1) % dotsPerFrame / dotsPerLine := by
    rw [(Placed.advance h.on).line, hdots]
  refine ⟨?_, ?_, ?_, ?_⟩
  · rw [isOn, control_dot]
    exact h.on
  · rw [dot_of_on h.on, countBlank_eq]
    exact hdots
  · rw [line_dot h.on, hline]
  · have hblank := h.placed.entersBlank_iff
    rw [← UInt8.toNat_inj, ← UInt8.toNat_inj, h.line, hline] at hblank
    change _ ↔ t % 70224 / 456 = 143 ∧ (t + 1) % 70224 / 456 = 144 at hblank
    have hframes : d.frames = (t + 4560) / 70224 := h.frames
    change d.dot.frames = (t + 1 + 4560) / 70224
    rw [dot_of_on h.on]
    change (d.advance.countBlank d.line).frames = _
    rw [countBlank]
    split
    next henters =>
      have := hblank.1 henters
      change d.frames + 1 = _
      omega
    next henters =>
      have := mt hblank.2 henters
      change d.frames = _
      omega

/-- A number of dots later. -/
theorem Clocked.iterate_dot {t : Nat} (h : d.Clocked t) (n : Nat) :
    (Lcd.dot^[n] d).Clocked (t + n) := by
  induction n generalizing d t with
  | zero => exact h
  | succ n ih =>
    rw [Function.iterate_succ_apply, Nat.add_comm n, ← Nat.add_assoc]
    exact ih h.dot

end Lcd

end EightBit.GameBoy
