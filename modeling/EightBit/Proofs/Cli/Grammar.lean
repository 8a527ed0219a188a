import EightBit.Cli.Arguments
import EightBit.Proofs.Text.Numerals

/-!
# The grammar of the command line

A command line is the name of a system, a program file, and items: an option alone, or one with its
value. It is read from the left, so that the argument after an option with a value is that value,
whatever it looks like. Every list of arguments fits this grammar in one way, or has a leftmost
fault; the reader tells which. A configuration can be written in many ways, and is read back from
each of them.

## Main definitions

* `SystemKind.names`, `Item`, `Splits`: names, items, and lists of arguments that write items.
* `Accepts`, `Offends`, `Refuses`: what a command line says, or what is wrong with it.
* `RunConfig.Renders`, `RunConfig.render`: the ways to write a configuration, and one of them.
* `FollowsGrammar`: what the reader should make of a command line.

## Main results

* `parseOptions_append`: items are read one after the other.
* `parseOptions_of_offends`: an offending argument ends the reading.
* `accepts_or_refuses`: every command line has a meaning or a fault.
* `followsGrammar`: the reader of the command line.
-/

namespace EightBit.Cli

open Numeral (Denotes Faulty)

/-! ### Names and items -/

/-- The names of a system. -/
def SystemKind.names : SystemKind → List String
  | gameBoy => ["gb", "GB", "gameboy", "game-boy"]
  | z80 => ["z80", "Z80", "cpm"]

/-- An option, with its value if it takes one. -/
inductive Item
  | trace
  | value (opt : ValueOption) (n : Nat)
  deriving DecidableEq, Repr

/-- Arguments write items, one or two for each. -/
inductive Splits : List String → List Item → Prop
  | nil : Splits [] []
  | trace {rest : List String} {items : List Item} (h : Splits rest items) :
    Splits (traceText :: rest) (.trace :: items)
  | value (opt : ValueOption) {text : String} {n : Nat} {rest : List String} {items : List Item}
    (hn : Denotes opt.limit text n) (h : Splits rest items) :
    Splits (opt.text :: text :: rest) (.value opt n :: items)

/-- The value that an item gives to an option. -/
def Item.value? (opt : ValueOption) : Item → Option Nat
  | trace => none
  | value o n => if o = opt then some n else none

/-- The value of the last occurrence of an option. -/
def lastValue (opt : ValueOption) (items : List Item) : Option Nat :=
  (items.filterMap (·.value? opt)).getLast?

/-- What a command line says. -/
structure Says (items : List Item) (c : RunConfig) : Prop where
  maxSteps : c.maxSteps = lastValue .steps items
  frames : c.frames = (lastValue .frames items).getD defaultFrames
  trace : c.trace = true ↔ .trace ∈ items

/-- A command line that gives the configuration `c`. -/
inductive Accepts (c : RunConfig) : List String → Prop
  | mk {name : String} {rest : List String} {items : List Item} (hname : name ∈ c.system.names)
    (hrest : Splits rest items) (hmeaning : Says items c) : Accepts c (name :: c.romPath :: rest)

/-- The first of these arguments does not fit, and this is why. -/
inductive Offends : List String → ArgumentError → Prop
  /-- It is no option. -/
  | unexpected {arg : String} {rest : List String} (htrace : arg ≠ traceText)
    (hopt : ∀ opt : ValueOption, arg ≠ opt.text) : Offends (arg :: rest) (.unexpected arg)
  /-- It takes a value, and stands last. -/
  | missingValue (opt : ValueOption) : Offends [opt.text] (.missingValue opt)
  /-- It takes a value, and another text follows. -/
  | invalidValue (opt : ValueOption) {text : String} {fault : Numeral.Fault} {rest : List String}
    (h : Faulty opt.limit text fault) :
    Offends (opt.text :: text :: rest) (.invalidValue opt text fault)

/-- A command line that gives no configuration, with its leftmost fault. -/
inductive Refuses : List String → ArgumentError → Prop
  | noSystem : Refuses [] .usage
  | unknownSystem {name : String} {rest : List String}
    (h : ∀ system : SystemKind, name ∉ system.names) : Refuses (name :: rest) (.unknownSystem name)
  | noPath {name : String} {system : SystemKind} (h : name ∈ system.names) : Refuses [name] .usage
  /-- Items come first, and then an argument that does not fit. -/
  | option {name path : String} {system : SystemKind} {good bad : List String} {items : List Item}
    {e : ArgumentError} (hname : name ∈ system.names) (hgood : Splits good items)
    (hbad : Offends bad e) : Refuses (name :: path :: (good ++ bad)) e

/-! ### Reading names and options -/

theorem SystemKind.ofName_of_mem {name : String} {system : SystemKind}
    (h : name ∈ system.names) : ofName name = .ok system := by
  cases system with
  | gameBoy => exact if_pos h
  | z80 =>
    have hnot : name ∉ ["gb", "GB", "gameboy", "game-boy"] := by
      rcases List.mem_cons.1 h with rfl | h
      · decide
      rcases List.mem_cons.1 h with rfl | h
      · decide
      · rw [List.mem_singleton.1 h]
        decide
    rw [ofName, if_neg hnot]
    exact if_pos h

theorem SystemKind.ofName_of_forall_not_mem {name : String}
    (h : ∀ system : SystemKind, name ∉ system.names) :
    ofName name = .error (.unknownSystem name) := by
  have hgameBoy : name ∉ ["gb", "GB", "gameboy", "game-boy"] := h gameBoy
  have hz80 : name ∉ ["z80", "Z80", "cpm"] := h z80
  rw [ofName, if_neg hgameBoy, if_neg hz80]

namespace ValueOption

variable (opt : ValueOption)

theorem limit_pos : 0 < opt.limit := by
  cases opt <;> decide

theorem text_ne_traceText : opt.text ≠ traceText := by
  cases opt <;> decide

theorem ofText?_text : ofText? opt.text = some opt := by
  cases opt <;> rfl

theorem ofText?_eq_none {s : String} (h : ∀ opt : ValueOption, s ≠ opt.text) :
    ofText? s = none :=
  List.find?_eq_none.2 fun opt _ htext => h opt (beq_iff_eq.1 htext).symm

variable {opt} {text : String}

theorem parse_of_denotes {n : Nat} (h : Denotes opt.limit text n) : opt.parse text = .ok n := by
  rw [parse, Numeral.parse_of_denotes h]
  rfl

theorem parse_of_faulty {fault : Numeral.Fault} (h : Faulty opt.limit text fault) :
    opt.parse text = .error (.invalidValue opt text fault) := by
  rw [parse, Numeral.parse_of_faulty h]
  rfl

end ValueOption

/-! ### Reading items -/

/-- What an item adds to a configuration. -/
def RunConfig.apply (c : RunConfig) : Item → RunConfig
  | .trace => { c with trace := true }
  | .value opt n => c.setValue opt n

section

variable {args : List String} {items : List Item}

/-- Items are read one after the other. -/
theorem parseOptions_append (h : Splits args items) (c : RunConfig) (rest : List String) :
    parseOptions c (args ++ rest) = parseOptions (items.foldl RunConfig.apply c) rest := by
  induction h generalizing c with
  | nil => rfl
  | trace _ ih =>
    rw [List.cons_append, parseOptions, if_pos rfl]
    exact ih _
  | value opt hn _ ih =>
    rw [List.cons_append, List.cons_append, parseOptions, if_neg opt.text_ne_traceText,
      opt.ofText?_text]
    dsimp only
    rw [ValueOption.parse_of_denotes hn]
    exact ih _

/-- An argument that does not fit ends the reading. -/
theorem parseOptions_of_offends {e : ArgumentError} (h : Offends args e) (c : RunConfig) :
    parseOptions c args = .error e := by
  cases h with
  | unexpected htrace hopt =>
    rw [parseOptions, if_neg htrace, ValueOption.ofText?_eq_none hopt]
  | missingValue opt => rw [parseOptions, if_neg opt.text_ne_traceText, opt.ofText?_text]
  | invalidValue opt hfault =>
    rw [parseOptions, if_neg opt.text_ne_traceText, opt.ofText?_text]
    dsimp only
    rw [ValueOption.parse_of_faulty hfault]

theorem Splits.append {args' : List String} {items' : List Item} (h : Splits args items)
    (h' : Splits args' items') : Splits (args ++ args') (items ++ items') := by
  induction h with
  | nil => exact h'
  | trace _ ih => exact .trace ih
  | value opt hn _ ih => exact .value opt hn ih

/-- Arguments write items, all of them or up to one that does not fit. -/
inductive Parted : List String → Prop
  | all {args : List String} {items : List Item} (h : Splits args items) : Parted args
  | upTo {good bad : List String} {items : List Item} {e : ArgumentError}
    (hgood : Splits good items) (hbad : Offends bad e) : Parted (good ++ bad)

theorem Splits.parted {back : List String} (h : Splits args items) (hback : Parted back) :
    Parted (args ++ back) := by
  cases hback with
  | all h' => exact .all (h.append h')
  | upTo hgood hbad =>
    rw [← List.append_assoc]
    exact .upTo (h.append hgood) hbad

/-- Every list of arguments does, one or two arguments at a time. -/
theorem parted : ∀ args : List String, Parted args
  | [] => .all .nil
  | arg :: rest => by
    have hfirst {e : ArgumentError} (h : Offends (arg :: rest) e) : Parted (arg :: rest) :=
      .upTo .nil h
    by_cases htrace : arg = traceText
    · subst htrace
      exact (Splits.trace .nil).parted (parted rest)
    by_cases hopt : ∃ opt : ValueOption, arg = opt.text
    · obtain ⟨opt, rfl⟩ := hopt
      match rest with
      | [] => exact hfirst (.missingValue opt)
      | text :: rest =>
        obtain ⟨n, hn⟩ | ⟨fault, hfault⟩ := Numeral.denotes_or_faulty opt.limit_pos text
        · exact (Splits.value opt hn .nil).parted (parted rest)
        · exact hfirst (.invalidValue opt hfault)
    · exact hfirst (.unexpected htrace (not_exists.1 hopt))

end

/-! ### What the items say -/

theorem lastValue_cons (opt : ValueOption) (i : Item) (items : List Item) :
    lastValue opt (i :: items) = (lastValue opt items).or (i.value? opt) := by
  rw [lastValue, List.filterMap_cons, lastValue]
  cases i.value? opt with
  | none => rw [Option.or_none]
  | some n =>
    dsimp only
    rw [List.getLast?_cons]
    cases (items.filterMap (·.value? opt)).getLast? <;> rfl

namespace RunConfig

variable (c : RunConfig) (items : List Item)

theorem maxSteps_apply (i : Item) : (c.apply i).maxSteps = (i.value? .steps).or c.maxSteps := by
  cases i with
  | trace => rfl
  | value opt n => cases opt <;> rfl

theorem frames_apply (i : Item) : (c.apply i).frames = (i.value? .frames).getD c.frames := by
  cases i with
  | trace => rfl
  | value opt n => cases opt <;> rfl

theorem trace_apply (i : Item) : (c.apply i).trace = true ↔ i = .trace ∨ c.trace = true := by
  cases i with
  | trace => exact iff_of_true rfl (.inl rfl)
  | value opt n => cases opt <;> simp [apply, setValue]

theorem system_apply (i : Item) :
    (c.apply i).system = c.system ∧ (c.apply i).romPath = c.romPath := by
  cases i with
  | trace => exact ⟨rfl, rfl⟩
  | value opt n => cases opt <;> exact ⟨rfl, rfl⟩

/-- Of an option that is repeated the last one counts. -/
theorem maxSteps_foldl :
    (items.foldl apply c).maxSteps = (lastValue .steps items).or c.maxSteps := by
  induction items generalizing c with
  | nil => rfl
  | cons i items ih =>
    rw [List.foldl_cons, ih, maxSteps_apply, lastValue_cons, Option.or_assoc]

theorem frames_foldl :
    (items.foldl apply c).frames = (lastValue .frames items).getD c.frames := by
  induction items generalizing c with
  | nil => rfl
  | cons i items ih =>
    rw [List.foldl_cons, ih, frames_apply, lastValue_cons, Option.getD_or]

theorem trace_foldl :
    (items.foldl apply c).trace = true ↔ .trace ∈ items ∨ c.trace = true := by
  induction items generalizing c with
  | nil => simp
  | cons i items ih =>
    rw [List.foldl_cons, ih, trace_apply, List.mem_cons, or_assoc, or_left_comm,
      eq_comm (a := i)]

theorem system_foldl :
    (items.foldl apply c).system = c.system ∧ (items.foldl apply c).romPath = c.romPath := by
  induction items generalizing c with
  | nil => exact ⟨rfl, rfl⟩
  | cons i items ih =>
    obtain ⟨hsystem, hpath⟩ := c.system_apply i
    rw [List.foldl_cons, ← hsystem, ← hpath]
    exact ih _

end RunConfig

section

variable {c c' : RunConfig} {items : List Item}

/-- Applied to the defaults, items give what they say. -/
theorem says_foldl (system : SystemKind) (path : String) (items : List Item) :
    Says items (items.foldl RunConfig.apply { system, romPath := path }) where
  maxSteps := by rw [RunConfig.maxSteps_foldl, Option.or_none]
  frames := RunConfig.frames_foldl _ _
  trace := by
    rw [RunConfig.trace_foldl]
    exact or_iff_left Bool.false_ne_true

/-- Beside the system and the program file, items say all there is. -/
theorem Says.eq (h : Says items c) (h' : Says items c') (hsystem : c.system = c'.system)
    (hpath : c.romPath = c'.romPath) : c = c' := by
  have hsteps := h.maxSteps.trans h'.maxSteps.symm
  have hframes := h.frames.trans h'.frames.symm
  have htrace : c.trace = c'.trace := Bool.eq_iff_iff.2 (h.trace.trans h'.trace.symm)
  obtain ⟨_, _, _, _, _⟩ := c
  obtain ⟨_, _, _, _, _⟩ := c'
  subst hsystem hpath hsteps hframes htrace
  rfl

theorem Says.foldl_eq (h : Says items c) :
    items.foldl RunConfig.apply { system := c.system, romPath := c.romPath } = c := by
  obtain ⟨hsystem, hpath⟩ :=
    RunConfig.system_foldl { system := c.system, romPath := c.romPath } items
  exact (says_foldl _ _ _).eq h hsystem hpath

end

/-! ### Whole command lines -/

section

variable {args : List String} {c : RunConfig} {e : ArgumentError}

/-- Behind the name of a system and a program file come the options. -/
theorem parseArguments_of_mem {name : String} {system : SystemKind} (h : name ∈ system.names)
    (path : String) (options : List String) :
    parseArguments (name :: path :: options) =
      parseOptions { system, romPath := path } options := by
  unfold parseArguments
  dsimp only
  rw [SystemKind.ofName_of_mem h]

theorem parseArguments_of_accepts (h : Accepts c args) : parseArguments args = .ok c := by
  obtain ⟨hname, hrest, hmeaning⟩ := h
  have hread := parseOptions_append hrest { system := c.system, romPath := c.romPath } []
  rw [List.append_nil, hmeaning.foldl_eq] at hread
  rw [parseArguments_of_mem hname]
  exact hread

theorem parseArguments_of_refuses (h : Refuses args e) : parseArguments args = .error e := by
  cases h with
  | noSystem => rfl
  | unknownSystem hname =>
    unfold parseArguments
    dsimp only
    rw [SystemKind.ofName_of_forall_not_mem hname]
  | noPath hname =>
    unfold parseArguments
    dsimp only
    rw [SystemKind.ofName_of_mem hname]
  | option hname hgood hbad =>
    rw [parseArguments_of_mem hname, parseOptions_append hgood, parseOptions_of_offends hbad]

/-- A name, a program file and items make a command line. -/
theorem accepts_foldl {name : String} {system : SystemKind} {rest : List String} {items : List Item}
    (hname : name ∈ system.names) (path : String) (h : Splits rest items) :
    Accepts (items.foldl RunConfig.apply { system, romPath := path }) (name :: path :: rest) := by
  obtain ⟨hsystem, hpath⟩ := RunConfig.system_foldl { system, romPath := path } items
  have hmk := Accepts.mk (by rwa [hsystem]) h (says_foldl system path items)
  rwa [hpath] at hmk

/-- Every command line has a meaning or a fault. -/
theorem accepts_or_refuses (args : List String) :
    (∃ c, Accepts c args) ∨ ∃ e, Refuses args e := by
  match args with
  | [] => exact .inr ⟨_, .noSystem⟩
  | name :: rest =>
    by_cases hname : ∃ system : SystemKind, name ∈ system.names
    · obtain ⟨system, hname⟩ := hname
      match rest with
      | [] => exact .inr ⟨_, .noPath hname⟩
      | path :: options =>
        cases parted options with
        | all h => exact .inl ⟨_, accepts_foldl hname path h⟩
        | upTo hgood hbad => exact .inr ⟨_, .option hname hgood hbad⟩
    · exact .inr ⟨_, .unknownSystem (not_exists.1 hname)⟩

theorem parseArguments_eq_ok_iff : parseArguments args = .ok c ↔ Accepts c args := by
  refine ⟨fun h => ?_, parseArguments_of_accepts⟩
  obtain ⟨c', hc⟩ | ⟨e, he⟩ := accepts_or_refuses args
  · obtain rfl : c' = c := Except.ok.inj ((parseArguments_of_accepts hc).symm.trans h)
    exact hc
  · exact absurd ((parseArguments_of_refuses he).symm.trans h) nofun

theorem parseArguments_eq_error_iff : parseArguments args = .error e ↔ Refuses args e := by
  refine ⟨fun h => ?_, parseArguments_of_refuses⟩
  obtain ⟨c, hc⟩ | ⟨e', he⟩ := accepts_or_refuses args
  · exact absurd ((parseArguments_of_accepts hc).symm.trans h) nofun
  · obtain rfl : e' = e := Except.error.inj ((parseArguments_of_refuses he).symm.trans h)
    exact he

end

/-! ### Writing a configuration -/

/-- The items that say what a configuration does. -/
def RunConfig.items (c : RunConfig) : List Item :=
  c.maxSteps.toList.map (.value .steps) ++
    .value .frames c.frames :: if c.trace then [.trace] else []

/-- A command line that writes the configuration `c`: by any name of its system, with any numerals,
its items in any order, and the frames left out if they are the default. -/
inductive RunConfig.Renders (c : RunConfig) : List String → Prop
  | mk {name : String} {rest : List String} {items : List Item} (hname : name ∈ c.system.names)
    (hrest : Splits rest items)
    (hitems : items.Perm c.items ∨
      c.frames = defaultFrames ∧ (.value .frames c.frames :: items).Perm c.items) :
    Renders c (name :: c.romPath :: rest)

/-- The numbers of a configuration are ones that its options take. -/
structure RunConfig.InRange (c : RunConfig) : Prop where
  maxSteps : ∀ n ∈ c.maxSteps, n < ValueOption.steps.limit
  frames : c.frames < ValueOption.frames.limit

/-- The first name of a system. -/
def SystemKind.name : SystemKind → String
  | gameBoy => "gb"
  | z80 => "z80"

/-- The arguments of an item, with its value as it is printed. -/
def Item.render : Item → List String
  | trace => [traceText]
  | value opt n => [opt.text, toString n]

/-- One command line that writes the configuration. -/
def RunConfig.render (c : RunConfig) : List String :=
  c.system.name :: c.romPath :: c.items.flatMap Item.render

theorem SystemKind.name_mem_names (system : SystemKind) : system.name ∈ system.names := by
  cases system <;> exact List.mem_cons_self

section

variable {c : RunConfig} {items : List Item}

theorem filterMap_value?_items (opt : ValueOption) :
    c.items.filterMap (·.value? opt) =
      match opt with
      | .steps => c.maxSteps.toList
      | .frames => [c.frames] := by
  obtain ⟨_, _, maxSteps, trace, _⟩ := c
  cases opt <;> cases maxSteps <;> cases trace <;> rfl

theorem trace_mem_items : .trace ∈ c.items ↔ c.trace = true := by
  obtain ⟨_, _, maxSteps, trace, _⟩ := c
  cases maxSteps <;> cases trace <;> simp [RunConfig.items]

/-- Items in any order say the same, if no option is repeated. -/
theorem says_of_perm (h : items.Perm c.items) : Says items c where
  maxSteps := by
    have hvalues := h.filterMap (·.value? .steps)
    rw [filterMap_value?_items] at hvalues
    dsimp only at hvalues
    rw [lastValue]
    cases hsteps : c.maxSteps with
    | none =>
      rw [hsteps] at hvalues
      rw [List.perm_nil.1 hvalues]
      rfl
    | some n =>
      rw [hsteps] at hvalues
      rw [List.perm_singleton.1 hvalues]
      rfl
  frames := by
    have hvalues := h.filterMap (·.value? .frames)
    rw [filterMap_value?_items] at hvalues
    rw [lastValue, List.perm_singleton.1 hvalues]
    rfl
  trace := trace_mem_items.symm.trans h.mem_iff.symm

/-- The default frames need not be said. -/
theorem says_of_perm_cons (hframes : c.frames = defaultFrames)
    (h : (Item.value .frames c.frames :: items).Perm c.items) : Says items c where
  maxSteps := (says_of_perm h).maxSteps
  frames := by
    have hvalues := h.filterMap (·.value? .frames)
    rw [filterMap_value?_items] at hvalues
    have hnone : items.filterMap (·.value? .frames) = [] :=
      (List.cons.inj (List.perm_singleton.1 hvalues)).2
    rw [lastValue, hnone]
    exact hframes
  trace := by
    rw [(says_of_perm h).trace, List.mem_cons]
    exact or_iff_right nofun

/-- A configuration is what its renderings say. -/
theorem RunConfig.Renders.accepts {args : List String} (h : c.Renders args) : Accepts c args := by
  obtain ⟨hname, hrest, hitems | ⟨hframes, hitems⟩⟩ := h
  · exact .mk hname hrest (says_of_perm hitems)
  · exact .mk hname hrest (says_of_perm_cons hframes hitems)

theorem splits_flatMap_render (h : ∀ opt n, .value opt n ∈ items → n < opt.limit) :
    Splits (items.flatMap Item.render) items := by
  induction items with
  | nil => exact .nil
  | cons i items ih =>
    have hrest := ih fun opt n hmem => h opt n (List.mem_cons_of_mem i hmem)
    cases i with
    | trace => exact .trace hrest
    | value opt n =>
      exact .value opt (Numeral.denotes_toString (h opt n List.mem_cons_self)) hrest

/-- Every configuration in range can be written. -/
theorem RunConfig.renders_render (h : c.InRange) : c.Renders c.render := by
  refine .mk c.system.name_mem_names (splits_flatMap_render fun opt n hmem => ?_) (.inl (.refl _))
  have hvalue : n ∈ c.items.filterMap (·.value? opt) :=
    List.mem_filterMap.2 ⟨_, hmem, if_pos rfl⟩
  rw [filterMap_value?_items] at hvalue
  cases opt with
  | steps => exact h.maxSteps n (Option.mem_toList.1 hvalue)
  | frames =>
    rw [List.mem_singleton.1 hvalue]
    exact h.frames

end

/-! ### The reader -/

/-- What the reader should make of a command line. -/
structure FollowsGrammar (args : List String) : Prop where
  /-- It succeeds if a name, a program file and items are given. -/
  succeeds : (∃ c, parseArguments args = .ok c) ↔
    ∃ name path rest items, args = name :: path :: rest ∧
      (∃ system : SystemKind, name ∈ system.names) ∧ Splits rest items
  /-- The configuration is what the command line says. -/
  accepts : ∀ c, parseArguments args = .ok c ↔ Accepts c args
  /-- A refusal is about the leftmost fault. -/
  refuses : ∀ e, parseArguments args = .error e ↔ Refuses args e
  /-- What writes a configuration is read as that configuration. -/
  renders : ∀ c : RunConfig, c.Renders args → parseArguments args = .ok c

theorem exists_accepts_iff {args : List String} :
    (∃ c, Accepts c args) ↔
      ∃ name path rest items, args = name :: path :: rest ∧
        (∃ system : SystemKind, name ∈ system.names) ∧ Splits rest items := by
  constructor
  · rintro ⟨c, hname, hrest, -⟩
    exact ⟨_, _, _, _, rfl, ⟨_, hname⟩, hrest⟩
  · rintro ⟨name, path, rest, items, rfl, ⟨system, hname⟩, hrest⟩
    exact ⟨_, accepts_foldl hname path hrest⟩

/-- **The command line.** The reader follows the grammar on every list of arguments, and every
configuration in range can be written so that it is read back. -/
theorem followsGrammar (args : List String) (c : RunConfig) :
    FollowsGrammar args ∧ (c.InRange → c.Renders c.render) := by
  refine ⟨⟨?_, fun _ => parseArguments_eq_ok_iff, fun _ => parseArguments_eq_error_iff,
    fun _ h => parseArguments_of_accepts h.accepts⟩, RunConfig.renders_render⟩
  rw [← exists_accepts_iff]
  exact exists_congr fun _ => parseArguments_eq_ok_iff

/-- A program file may look like an option, and a value may have a sign and leading zeros. -/
example :
    parseArguments ["GB", "--trace", "--steps", "7", "--steps", "+08"] =
      .ok { system := .gameBoy, romPath := "--trace", maxSteps := some 8 } := by
  rfl

end EightBit.Cli
