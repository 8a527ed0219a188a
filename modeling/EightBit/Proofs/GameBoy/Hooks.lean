import EightBit.Proofs.GameBoy.Transfers

/-!
# What hooks are told

A driver may register hooks, which are told of the writes to the register page and to the interrupt
enable register. What each of them is told is determined by the calls alone: in order and once each,
the writes to these addresses since it was registered, with the byte as it was written, whatever the
register made of it. The effect of the write is complete by then. Time, requests, cartridges and the
copying to object memory tell them nothing, even where they change the same registers.

## Main definitions

* `Bus.Call.hooked?`, `Bus.Call.name?`: the write that hooks are told of, and the name of a new
  hook.
* `Bus.told`: all that hooks are told in the course of calls.
* `Bus.heard`: what hooks are told that are there all the time.
* `Bus.HooksHear`: the log of the hooks against the calls so far.

## Main results

* `Bus.hookCalls_apply`, `Bus.hooks_apply`: what one call tells the hooks, and which it registers.
* `Bus.hookCalls_run`: what any number of calls tell them.
* `Bus.filter_told`: the part of a log that belongs to one hook.
* `Bus.hooksHear_run`: the log of a bus from power-on.
-/

namespace EightBit.GameBoy

theorem isHooked_iff (a : UInt16) : isHooked a = true ↔ 0xFF00 ≤ a ∧ a ≤ 0xFF7F ∨ a = 0xFFFF := by
  have hpage : a < 0xFF80 ↔ a ≤ 0xFF7F := by
    rw [UInt16.lt_iff_toNat_lt, UInt16.le_iff_toNat_le]
    exact Nat.lt_succ_iff
  rw [isHooked, Bool.or_eq_true, Bool.and_eq_true, decide_eq_true_eq, decide_eq_true_eq,
    beq_iff_eq, hpage]

namespace Bus

/-! ### What calls say about hooks -/

/-- The address and the byte that hooks are told of: those of a write to the register page or to the
interrupt enable register. -/
def Call.hooked? : Call → Option (UInt16 × UInt8)
  | .write a v => if 0xFF00 ≤ a ∧ a ≤ 0xFF7F ∨ a = 0xFFFF then some (a, v) else none
  | _ => none

/-- The name of the hook that a call registers. -/
def Call.name? : Call → Option Nat
  | .hook name => some name
  | _ => none

/-- The names of the hooks that calls register. -/
def names (cs : List Call) : List Nat :=
  cs.filterMap Call.name?

/-- What the hooks under `names` are told by a call that leads to `bus`. -/
def tells (names : List Nat) (c : Call) (bus : Bus) : List HookCall :=
  match c.hooked? with
  | some (a, v) => names.map fun name => ⟨name, a, v, bus.peek a⟩
  | none => []

/-- What hooks are told in the course of calls, with hooks under `names` at first. -/
def told (bus : Bus) (names : List Nat) : List Call → List HookCall
  | [] => []
  | c :: cs => tells names c (bus.apply c) ++ told (bus.apply c) (names ++ c.name?.toList) cs

/-- What the hooks under `names` are told in the course of calls, whatever others there are. -/
def heard (bus : Bus) (names : List Nat) : List Call → List HookCall
  | [] => []
  | c :: cs => tells names c (bus.apply c) ++ heard (bus.apply c) names cs

theorem tells_of_hooked?_eq_none (ns : List Nat) {c : Call} (h : c.hooked? = none) (bus : Bus) :
    tells ns c bus = [] := by
  rw [tells, h]

theorem tells_write (ns : List Nat) (a : UInt16) (v : UInt8) (bus : Bus) :
    tells ns (.write a v) bus =
      if isHooked a then ns.map fun name => ⟨name, a, v, bus.peek a⟩ else [] := by
  rw [tells, Call.hooked?, ← if_congr (isHooked_iff a) rfl rfl]
  cases isHooked a <;> rfl

theorem tells_nil (c : Call) (bus : Bus) : tells [] c bus = [] := by
  unfold tells
  split <;> rfl

/-- The part of what a call tells that belongs to one hook. -/
theorem filter_tells (ns : List Nat) (c : Call) (bus : Bus) (k : Nat) :
    (tells ns c bus).filter (·.hook == k) = tells (ns.filter (· == k)) c bus := by
  unfold tells
  split
  · rw [List.filter_map]
    rfl
  · rfl

theorem told_append (bus : Bus) (ns : List Nat) (cs ds : List Call) :
    told bus ns (cs ++ ds) = told bus ns cs ++ told (bus.run cs) (ns ++ names cs) ds := by
  induction cs generalizing bus ns with
  | nil => rw [List.nil_append, names, List.filterMap_nil, List.append_nil]; rfl
  | cons c cs ih =>
    have hnames : c.name?.toList ++ names cs = names (c :: cs) := by
      cases h : c.name? <;> simp [names, h]
    rw [List.cons_append, told, told, ih, run_cons, List.append_assoc, List.append_assoc, hnames]

theorem heard_nil (bus : Bus) (cs : List Call) : heard bus [] cs = [] := by
  induction cs generalizing bus with
  | nil => rfl
  | cons c cs ih => rw [heard, tells_nil, ih, List.append_nil]

/-- The part of a log that belongs to a hook which is not registered again. -/
theorem filter_told (bus : Bus) (ns : List Nat) {cs : List Call} {k : Nat} (h : k ∉ names cs) :
    (told bus ns cs).filter (·.hook == k) = heard bus (ns.filter (· == k)) cs := by
  induction cs generalizing bus ns with
  | nil => rfl
  | cons c cs ih =>
    have hrest : k ∉ names cs := fun hk => h (by
      rw [names, List.filterMap_cons]
      split
      · exact hk
      · exact List.mem_cons_of_mem _ hk)
    have hother : (c.name?.toList).filter (· == k) = [] := by
      cases hc : c.name? with
      | none => rfl
      | some name =>
        have hne : name ≠ k := by
          rintro rfl
          exact h (List.mem_filterMap.2 ⟨c, List.mem_cons_self, hc⟩)
        simpa using hne
    rw [told, heard, List.filter_append, filter_tells, ih _ _ hrest, List.filter_append, hother,
      List.append_nil]

/-- What a hook is told are the writes, with their addresses and bytes. -/
theorem map_heard_singleton (bus : Bus) (k : Nat) (cs : List Call) :
    (heard bus [k] cs).map (fun c => (c.address, c.value)) = cs.filterMap Call.hooked? := by
  induction cs generalizing bus with
  | nil => rfl
  | cons c cs ih =>
    rw [heard, List.map_append, ih, tells]
    cases h : c.hooked? with
    | none => rw [List.filterMap_cons_none h]; rfl
    | some w => rw [List.filterMap_cons_some h]; rfl

/-! ### What a call tells the hooks -/

/-- No device tells the hooks anything, or registers one. -/
theorem hooks_writeTarget (bus : Bus) (target : Target) (a : UInt16) (v : UInt8) :
    (bus.writeTarget target a v).hooks = bus.hooks ∧
      (bus.writeTarget target a v).hookCalls = bus.hookCalls := by
  cases target with
  | serialControl =>
    rw [writeTarget, writeSerialControl_eq]
    exact ⟨rfl, rfl⟩
  | lcdControl =>
    rw [writeTarget, writeLcdControl_eq]
    exact ⟨rfl, rfl⟩
  | lcdStatus =>
    rw [writeTarget, writeLcdStatus, refreshLcd_eq]
    exact ⟨rfl, rfl⟩
  | lcdCompare =>
    rw [writeTarget, refreshLcd_eq]
    exact ⟨rfl, rfl⟩
  | oamDma =>
    rw [writeTarget, startDma_eq]
    exact ⟨rfl, rfl⟩
  | _ => exact ⟨rfl, rfl⟩

/-- A call registers the hook that it names and no other. -/
theorem hooks_apply (bus : Bus) (c : Call) :
    (bus.apply c).hooks.toList = bus.hooks.toList ++ c.name?.toList := by
  have hnothing : bus.hooks.toList = bus.hooks.toList ++ [] := (List.append_nil _).symm
  cases c with
  | write a v =>
    change (bus.writeByte a v).hooks.toList = _
    rw [writeByte, callHooks_eq, (bus.hooks_writeTarget _ a v).1]
    exact hnothing
  | insert image =>
    change (bus.insert image).hooks.toList = _
    rw [insert_eq]
    exact hnothing
  | hook name => exact Array.toList_push
  | read | tick | request => exact hnothing

/-- A call tells the hooks that there are of its write, and nothing else. -/
theorem hookCalls_apply (bus : Bus) (c : Call) :
    (bus.apply c).hookCalls.toList =
      bus.hookCalls.toList ++ tells bus.hooks.toList c (bus.apply c) := by
  have hnothing : bus.hookCalls.toList = bus.hookCalls.toList ++ [] := (List.append_nil _).symm
  cases c with
  | write a v =>
    obtain ⟨hhooks, hcalls⟩ := bus.hooks_writeTarget (.ofAddress a) a v
    have hpeek : (bus.apply (.write a v)).peek a = (bus.writeTarget (.ofAddress a) a v).peek a :=
      peek_callHooks _ _ _ _
    rw [tells_write, hpeek]
    change ((bus.writeTarget (.ofAddress a) a v).callHooks a v).hookCalls.toList = _
    rw [callHooks]
    split
    · rw [hhooks, hcalls, Array.toList_append, Array.toList_map]
    · rw [hcalls]
      exact hnothing
  | insert image =>
    change (bus.insert image).hookCalls.toList = _
    rw [insert_eq]
    exact hnothing
  | read | tick | request | hook => exact hnothing

/-- What calls tell the hooks, those that were there before and those that the calls register. -/
theorem hookCalls_run (bus : Bus) (cs : List Call) :
    (bus.run cs).hookCalls.toList = bus.hookCalls.toList ++ told bus bus.hooks.toList cs := by
  induction cs generalizing bus with
  | nil => exact (List.append_nil _).symm
  | cons c cs ih => rw [run_cons, ih, hookCalls_apply, hooks_apply, told, List.append_assoc]

/-! ### From power-on -/

/-- What the hook under a name has been told. -/
def callsOf (bus : Bus) (name : Nat) : List HookCall :=
  bus.hookCalls.toList.filter (·.hook == name)

/-- The part of the log that belongs to one hook: what it has been told since it was registered. -/
theorem callsOf_run (bus : Bus) (hnew : bus.hooks.toList = []) (hlog : bus.hookCalls.toList = [])
    {before after : List Call} {k : Nat} (hbefore : k ∉ names before) (hafter : k ∉ names after) :
    (bus.run (before ++ .hook k :: after)).callsOf k =
      heard (bus.run (before ++ [.hook k])) [k] after := by
  have hearlier : (names before).filter (· == k) = [] :=
    List.filter_eq_nil_iff.2 fun name hname => by
      rw [beq_iff_eq]
      rintro rfl
      exact hbefore hname
  have hlater : told (bus.run before) (names before) (.hook k :: after) =
      told (bus.run (before ++ [.hook k])) (names before ++ [k]) after := by
    rw [run_append]
    rfl
  rw [callsOf, hookCalls_run, hlog, hnew, List.nil_append, told_append, List.filter_append,
    filter_told _ _ hbefore, List.filter_nil, heard_nil, List.nil_append, List.nil_append, hlater,
    filter_told _ _ hafter, List.filter_append, hearlier]
  simp

/-- The log of the hooks against the calls so far. -/
structure HooksHear (start : Bus) (cs : List Call) : Prop where
  /-- All that hooks are told, in order: each write to a hooked address once for every hook that is
  registered by then. -/
  log : (start.run cs).hookCalls.toList = told start [] cs
  /-- Of this, a hook is told the writes made since it was registered, once each. -/
  hook (before : List Call) (k : Nat) (after : List Call) (hcs : cs = before ++ .hook k :: after)
    (hbefore : k ∉ names before) (hafter : k ∉ names after) :
    (start.run cs).callsOf k = heard (start.run (before ++ [.hook k])) [k] after ∧
      ((start.run cs).callsOf k).map (fun c => (c.address, c.value)) =
        after.filterMap Call.hooked?
  /-- The effect of a write on memory and on the devices is complete when the hooks are called, and
  they change none of it. -/
  complete (a : UInt16) (v : UInt8) :
    (start.run cs).apply (.write a v) =
      { (start.run cs).writeTarget (.ofAddress a) a v with
        hookCalls := ((start.run cs).apply (.write a v)).hookCalls }
  /-- Other calls tell the hooks nothing. -/
  silent (c : Call) (hc : c.hooked? = none) :
    ((start.run cs).apply c).hookCalls = (start.run cs).hookCalls

/-- **Hooks hear the writes to the registers.** Whatever is done with a bus from power-on, each hook
is told, in order and once each, the writes to the register page and to the interrupt enable
register that were made after its registration, with the byte as written and after their effect; no
other call tells it anything. -/
theorem hooksHear_run (ram : RamBytes) (journal : Journal) (cs : List Call) :
    (powerOn ram journal).HooksHear cs where
  log := (powerOn ram journal).hookCalls_run cs
  hook before k after hcs hbefore hafter := by
    have hcalls := (powerOn ram journal).callsOf_run rfl rfl hbefore hafter
    rw [hcs, hcalls]
    exact ⟨rfl, map_heard_singleton _ k after⟩
  complete a v := callHooks_eq _ a v
  silent c hc := by
    rw [← Array.toList_inj, hookCalls_apply, tells_of_hooked?_eq_none _ hc, List.append_nil]

/-- A byte written to the divider. A hook is told of it, although the divider reads zero by then. -/
theorem hooksHear_dividerWrite :
    let calls : List Call := [.hook 0, .write 0xFF04 0x55]
    let bus := (powerOn .zeroed .silent).run calls
    (powerOn .zeroed .silent).HooksHear calls ∧
      bus.callsOf 0 = [⟨0, 0xFF04, 0x55, 0x00⟩] ∧ bus.peek 0xFF04 = 0x00 := by
  intro calls bus
  have hhear : (powerOn .zeroed .silent).HooksHear calls := hooksHear_run .zeroed .silent calls
  have hread : bus.peek 0xFF04 = 0x00 := by
    change (Bus.writeByte _ 0xFF04 0x55).peek 0xFF04 = 0
    rw [writeByte, peek_callHooks]
    exact peek_syncTimer _ 0xFF04
  have hheard :=
    (hhear.hook [] 0 [.write 0xFF04 0x55] rfl List.not_mem_nil List.not_mem_nil).1
  refine ⟨hhear, ?_, hread⟩
  rw [hheard, ← hread]
  rfl

end Bus

end EightBit.GameBoy
