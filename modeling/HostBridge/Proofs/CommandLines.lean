import HostBridge.CommandLine.Arguments
import Mathlib.Tactic.SplitIfs

/-!
# The grammar of command lines

Behind the word for its command a command line is a sequence of groups: a flag of the command, and
the argument after it if the flag takes a value. Any argument can be a value, also one that looks
like a flag, but the value of `--gas` must be a word. The groups are read from left to right, so
every list of arguments starts with as many groups as it can; reading succeeds exactly if nothing is
left behind them, and what is left tells which error is reported.

* `ArgumentGroup` — the groups, and `ArgumentGroup.Stuck`, what can be behind the last of them;
* `Arguments.parseFlags_groups`, `Arguments.parseFlags_stuck` — what is read from both;
* `Arguments.exists_groups` — every list of arguments consists of the one and the other;
* `Arguments.parse_groups` — what is accepted, what it means, and what is refused.
-/

set_option autoImplicit false

namespace HostBridge

/-! ## Groups -/

/-- A flag together with its value, if it takes one. -/
inductive ArgumentGroup where
  /-- The flag for help, which can be written in two ways. -/
  | help (long : Bool)
  | json
  | dumpIr
  | check (path : String)
  | env (path : String)
  | config (path : String)
  | gas (amount : String)
  deriving DecidableEq, Repr

namespace ArgumentGroup

/-- The flag of a group. -/
def flag : ArgumentGroup → Flag
  | help _ => .help
  | json => .json
  | dumpIr => .dumpIr
  | check _ => .check
  | env _ => .env
  | config _ => .config
  | gas _ => .gas

/-- How the flag of a group is written. -/
def text : ArgumentGroup → String
  | help false => "-h"
  | help true => "--help"
  | json => "--json"
  | dumpIr => "--dump-ir"
  | check _ => "--check"
  | env _ => "--env"
  | config _ => "--config"
  | gas _ => "--gas"

/-- The value of a group. -/
def value? : ArgumentGroup → Option String
  | check path | env path | config path => some path
  | gas amount => some amount
  | help _ | json | dumpIr => none

/-- The arguments that a group is written as. -/
def arguments (g : ArgumentGroup) : List String := g.text :: g.value?.toList

/-- The command has this flag. -/
def BelongsTo (command : Command) : ArgumentGroup → Prop
  | help _ | json => True
  | check _ => command = .layout
  | dumpIr | env _ | config _ | gas _ => command = .probe

/-- A group of the grammar: a flag of the command, and for gas a word. -/
structure Allowed (command : Command) (g : ArgumentGroup) : Prop where
  belongs : g.BelongsTo command
  word : ∀ amount, g = gas amount → ∃ w, Word.parse? amount = some w

/-- What stands behind the last group where it is not the end, and what is reported of it. -/
inductive Stuck (command : Command) : List String → UsageError → Prop
  /-- An argument that is no flag of the command. -/
  | unexpected {text : String} (rest : List String) :
    (∀ g : ArgumentGroup, g.BelongsTo command → g.text ≠ text) →
      Stuck command (text :: rest) (.unexpected text)
  /-- A flag that takes a value, and nothing behind it. -/
  | missingValue {g : ArgumentGroup} :
    g.BelongsTo command → g.value?.isSome → Stuck command [g.text] (.missingValue g.text)
  /-- A value for the gas that is no word. -/
  | invalidGas {amount : String} (rest : List String) :
    command = .probe → Word.parse? amount = none →
      Stuck command ("--gas" :: amount :: rest) (.invalidGas amount)

/-! ### Groups and flags -/

variable {command : Command} {g : ArgumentGroup}

theorem ofText?_text (belongs : g.BelongsTo command) :
    Flag.ofText? command g.text = some g.flag := by
  cases g with
  | help long => cases long <;> rfl
  | json => rfl
  | check | dumpIr | env | config | gas =>
    cases belongs
    rfl

theorem takesValue_flag (g : ArgumentGroup) : g.flag.takesValue = g.value?.isSome := by
  cases g <;> rfl

/-- A flag that is known is that of a group, whatever its value. -/
theorem exists_of_ofText? {text : String} {flag : Flag}
    (known : Flag.ofText? command text = some flag) (value : String) :
    ∃ g : ArgumentGroup, g.BelongsTo command ∧ g.text = text ∧ g.flag = flag ∧
      g.value? = if flag.takesValue then some value else none := by
  unfold Flag.ofText? at known
  split at known
  case isTrue help =>
    cases known
    rcases help with rfl | rfl
    · exact ⟨.help false, trivial, rfl, rfl, rfl⟩
    · exact ⟨.help true, trivial, rfl, rfl, rfl⟩
  split at known
  case isTrue json =>
    cases known
    exact ⟨.json, trivial, json.symm, rfl, rfl⟩
  cases command with
  | layout =>
    dsimp only at known
    split_ifs at known with check
    cases known
    exact ⟨.check value, rfl, check.symm, rfl, rfl⟩
  | probe =>
    dsimp only at known
    split_ifs at known with dumpIr env config gas <;> cases known
    · exact ⟨.dumpIr, rfl, dumpIr.symm, rfl, rfl⟩
    · exact ⟨.env value, rfl, env.symm, rfl, rfl⟩
    · exact ⟨.config value, rfl, config.symm, rfl, rfl⟩
    · exact ⟨.gas value, rfl, gas.symm, rfl, rfl⟩

/-- An argument is no flag of a command if no group starts with it. -/
theorem ofText?_eq_none {text : String}
    (unknown : ∀ g : ArgumentGroup, g.BelongsTo command → g.text ≠ text) :
    Flag.ofText? command text = none := by
  cases known : Flag.ofText? command text with
  | none => rfl
  | some flag =>
    obtain ⟨g, belongs, same, -⟩ := exists_of_ofText? known ""
    exact absurd same (unknown g belongs)

end ArgumentGroup

/-! ## Reading groups -/

namespace Arguments

open ArgumentGroup (Stuck)

/-- The arguments with one more group. -/
def withGroup (a : Arguments) : ArgumentGroup → Arguments
  | .help _ => { a with help := true }
  | .json => { a with json := true }
  | .dumpIr => { a with dumpIr := true }
  | .check path => { a with check := some path }
  | .env path => { a with env := some path }
  | .config path => { a with config := some path }
  | .gas amount => { a with gas := (Word.parse? amount).getD defaultGas }

theorem command_withGroup (a : Arguments) (g : ArgumentGroup) :
    (a.withGroup g).command = a.command := by
  cases g <;> rfl

/-- A group is read and taken in. -/
theorem parseFlags_group {a : Arguments} {g : ArgumentGroup} (allowed : g.Allowed a.command)
    (rest : List String) :
    a.parseFlags (g.arguments ++ rest) = (a.withGroup g).parseFlags rest := by
  have known := ArgumentGroup.ofText?_text allowed.belongs
  cases g with
  | help | json | dumpIr =>
    simp only [ArgumentGroup.arguments, List.cons_append, parseFlags, known]
    rfl
  | check | env | config =>
    simp only [ArgumentGroup.arguments, List.cons_append, parseFlags, known]
    rfl
  | gas amount =>
    obtain ⟨w, word⟩ := allowed.word amount rfl
    simp [ArgumentGroup.arguments, ArgumentGroup.flag, ArgumentGroup.value?, parseFlags, known,
      Flag.takesValue, withValue, withGroup, word]

/-- All groups are read and taken in, one after the other. -/
theorem parseFlags_groups {a : Arguments} {gs : List ArgumentGroup}
    (allowed : ∀ g ∈ gs, g.Allowed a.command) (rest : List String) :
    a.parseFlags (gs.flatMap ArgumentGroup.arguments ++ rest) =
      (gs.foldl withGroup a).parseFlags rest := by
  induction gs generalizing a with
  | nil => rfl
  | cons g gs ih =>
    rw [List.forall_mem_cons] at allowed
    rw [List.flatMap_cons, List.append_assoc, parseFlags_group allowed.1, List.foldl_cons, ih]
    rw [command_withGroup]
    exact allowed.2

theorem command_foldl (a : Arguments) (gs : List ArgumentGroup) :
    (gs.foldl withGroup a).command = a.command := by
  induction gs generalizing a with
  | nil => rfl
  | cons g gs ih => rw [List.foldl_cons, ih, command_withGroup]

/-- Nothing is read where no group stands. -/
theorem parseFlags_stuck {a : Arguments} {args : List String} {e : UsageError}
    (stuck : Stuck a.command args e) : a.parseFlags args = .error e := by
  generalize command : a.command = c at stuck
  cases stuck with
  | unexpected rest unknown =>
    simp only [parseFlags, command, ArgumentGroup.ofText?_eq_none unknown]
  | @missingValue g belongs value =>
    have takes : g.flag.takesValue = true := by rw [ArgumentGroup.takesValue_flag, value]
    simp only [parseFlags, command, ArgumentGroup.ofText?_text belongs, takes, if_true]
  | invalidGas rest probe word =>
    subst probe
    have known : Flag.ofText? .probe "--gas" = some .gas := rfl
    simp only [parseFlags, command, known, Flag.takesValue, if_true, withValue, word]

/-- Arguments that do not start with a group are none, or the reading is stuck. -/
theorem exists_group (command : Command) (args : List String) :
    args = [] ∨ (∃ e, Stuck command args e) ∨
      ∃ g : ArgumentGroup, ∃ rest, g.Allowed command ∧ args = g.arguments ++ rest := by
  cases args with
  | nil => exact .inl rfl
  | cons text rest =>
    refine .inr ?_
    cases known : Flag.ofText? command text with
    | none =>
      refine .inl ⟨_, .unexpected rest fun g belongs same => ?_⟩
      rw [← same, ArgumentGroup.ofText?_text belongs] at known
      cases known
    | some flag =>
      by_cases takes : flag.takesValue = true
      · cases rest with
        | nil =>
          obtain ⟨g, belongs, rfl, -, value⟩ := ArgumentGroup.exists_of_ofText? known ""
          rw [if_pos takes] at value
          exact .inl ⟨_, .missingValue belongs (by rw [value]; rfl)⟩
        | cons value rest =>
          obtain ⟨g, belongs, rfl, -, same⟩ := ArgumentGroup.exists_of_ofText? known value
          rw [if_pos takes] at same
          by_cases word : ∀ amount, g = .gas amount → ∃ w, Word.parse? amount = some w
          · exact .inr ⟨g, rest, ⟨belongs, word⟩, by rw [ArgumentGroup.arguments, same]; rfl⟩
          · simp only [Classical.not_forall, not_exists] at word
            obtain ⟨amount, rfl, unread⟩ := word
            cases same
            exact .inl ⟨_, .invalidGas rest belongs (Option.eq_none_iff_forall_ne_some.2 unread)⟩
      · obtain ⟨g, belongs, rfl, -, same⟩ := ArgumentGroup.exists_of_ofText? known ""
        rw [if_neg takes] at same
        refine .inr ⟨g, rest, ⟨belongs, ?_⟩, by rw [ArgumentGroup.arguments, same]; rfl⟩
        rintro amount rfl
        cases same

/-- **Every list of arguments starts with groups**, behind which is the end or the reading is
stuck. -/
theorem exists_groups (command : Command) (args : List String) :
    ∃ gs : List ArgumentGroup, ∃ rest, (∀ g ∈ gs, g.Allowed command) ∧
      args = gs.flatMap ArgumentGroup.arguments ++ rest ∧
      (rest = [] ∨ ∃ e, Stuck command rest e) := by
  induction size : args.length using Nat.strongRecOn generalizing args with
  | ind n ih =>
    rcases exists_group command args with none | stuck | ⟨g, rest, allowed, rfl⟩
    · exact ⟨[], args, List.forall_mem_nil _, rfl, .inl none⟩
    · exact ⟨[], args, List.forall_mem_nil _, rfl, .inr stuck⟩
    · have shorter : rest.length < n := by
        rw [← size, List.length_append, ArgumentGroup.arguments, List.length_cons]
        omega
      obtain ⟨gs, behind, others, rfl, ends⟩ := ih _ shorter rest rfl
      refine ⟨g :: gs, behind, List.forall_mem_cons.2 ⟨allowed, others⟩, ?_, ends⟩
      rw [List.flatMap_cons, List.append_assoc]

/-! ## What groups mean -/

/-- The values that groups give to a flag. -/
def values (flag : Flag) (gs : List ArgumentGroup) : List String :=
  (gs.filter (·.flag = flag)).filterMap ArgumentGroup.value?

theorem values_cons (flag : Flag) (g : ArgumentGroup) (gs : List ArgumentGroup) :
    values flag (g :: gs) = (if g.flag = flag then g.value?.toList else []) ++ values flag gs := by
  by_cases mine : g.flag = flag
  · cases value : g.value? <;> simp [values, mine, value]
  · simp [values, mine]

/-- A switch is on if it was, or if one of the groups is its own. -/
theorem foldl_switch (view : Arguments → Bool) (flag : Flag)
    (step : ∀ a g, view (withGroup a g) = (view a || g.flag = flag)) (a : Arguments)
    (gs : List ArgumentGroup) :
    view (gs.foldl withGroup a) = true ↔ view a = true ∨ ∃ g ∈ gs, g.flag = flag := by
  induction gs generalizing a with
  | nil => simp
  | cons g gs ih => simp [ih, step, or_assoc]

/-- Of the values that groups give to a flag the last one counts. -/
theorem foldl_value {α : Type} (view : Arguments → α) (flag : Flag) (put : String → α)
    (step : ∀ a g, view (withGroup a g) =
      if g.flag = flag then (g.value?.map put).getD (view a) else view a)
    (a : Arguments) (gs : List ArgumentGroup) :
    view (gs.foldl withGroup a) = ((values flag gs).getLast?.map put).getD (view a) := by
  induction gs generalizing a with
  | nil => rfl
  | cons g gs ih =>
    rw [List.foldl_cons, ih, step, values_cons]
    by_cases mine : g.flag = flag
    · rw [if_pos mine, if_pos mine, List.getLast?_append]
      cases (values flag gs).getLast? <;> cases g.value? <;> rfl
    · rw [if_neg mine, if_neg mine, List.nil_append]

/-- A command with groups, in the order in which they are given. -/
def ofGroups (command : Command) (gs : List ArgumentGroup) : Arguments :=
  gs.foldl withGroup (ofCommand command)

/-- What groups mean: a switch is on if it occurs, and a flag has the value that it is given
last. -/
structure Means (command : Command) (gs : List ArgumentGroup) (a : Arguments) : Prop where
  command : a.command = command
  help : a.help = true ↔ ∃ g ∈ gs, g.flag = .help
  json : a.json = true ↔ ∃ g ∈ gs, g.flag = .json
  dumpIr : a.dumpIr = true ↔ ∃ g ∈ gs, g.flag = .dumpIr
  check : a.check = (values .check gs).getLast?
  env : a.env = (values .env gs).getLast?
  config : a.config = (values .config gs).getLast?
  gas : a.gas = ((values .gas gs).getLast?.bind Word.parse?).getD 1000000

theorem means_ofGroups (command : Command) (gs : List ArgumentGroup) :
    Means command gs (ofGroups command gs) := by
  have switch (view : Arguments → Bool) (flag : Flag)
      (step : ∀ a g, view (withGroup a g) = (view a || g.flag = flag))
      (off : view (ofCommand command) = false) :
      view (ofGroups command gs) = true ↔ ∃ g ∈ gs, g.flag = flag := by
    have on := foldl_switch view flag step (ofCommand command) gs
    rwa [off, Bool.false_eq_true, false_or] at on
  have path (view : Arguments → Option String) (flag : Flag)
      (step : ∀ a g, view (withGroup a g) =
        if g.flag = flag then (g.value?.map some).getD (view a) else view a)
      (none : view (ofCommand command) = none) :
      view (ofGroups command gs) = (values flag gs).getLast? := by
    have last := foldl_value view flag some step (ofCommand command) gs
    rw [none] at last
    refine last.trans ?_
    cases (values flag gs).getLast? <;> rfl
  exact {
    command := command_foldl (ofCommand command) gs
    help := switch Arguments.help .help
      (fun a g => by cases g <;> simp [withGroup, ArgumentGroup.flag]) rfl
    json := switch Arguments.json .json
      (fun a g => by cases g <;> simp [withGroup, ArgumentGroup.flag]) rfl
    dumpIr := switch Arguments.dumpIr .dumpIr
      (fun a g => by cases g <;> simp [withGroup, ArgumentGroup.flag]) rfl
    check := path Arguments.check .check (fun a g => by cases g <;> rfl) rfl
    env := path Arguments.env .env (fun a g => by cases g <;> rfl) rfl
    config := path Arguments.config .config (fun a g => by cases g <;> rfl) rfl
    gas := by
      have last := foldl_value Arguments.gas .gas
        (fun amount => (Word.parse? amount).getD defaultGas) (fun a g => by cases g <;> rfl)
        (ofCommand command) gs
      refine last.trans ?_
      cases (values .gas gs).getLast? <;> rfl }

/-- Only the order among groups of one flag matters. -/
theorem Means.eq {command : Command} {gs hs : List ArgumentGroup} {a b : Arguments}
    (means : Means command gs a) (other : Means command hs b)
    (same : ∀ flag, gs.filter (·.flag = flag) = hs.filter (·.flag = flag)) : a = b := by
  have occurs (flag : Flag) : (∃ g ∈ gs, g.flag = flag) ↔ ∃ h ∈ hs, h.flag = flag := by
    have found (gs : List ArgumentGroup) :
        (∃ g ∈ gs, g.flag = flag) ↔ gs.filter (·.flag = flag) ≠ [] := by
      simp [List.filter_eq_nil_iff]
    rw [found gs, found hs, same]
  have given (flag : Flag) : values flag gs = values flag hs := by rw [values, same, values]
  have help := Bool.eq_iff_iff.2 (means.help.trans ((occurs .help).trans other.help.symm))
  have json := Bool.eq_iff_iff.2 (means.json.trans ((occurs .json).trans other.json.symm))
  have dumpIr := Bool.eq_iff_iff.2 (means.dumpIr.trans ((occurs .dumpIr).trans other.dumpIr.symm))
  have check := means.check.trans (given .check ▸ other.check.symm)
  have env := means.env.trans (given .env ▸ other.env.symm)
  have config := means.config.trans (given .config ▸ other.config.symm)
  have gas := means.gas.trans (given .gas ▸ other.gas.symm)
  have command := means.command.trans other.command.symm
  cases a
  cases b
  simp_all

/-! ## Command lines -/

/-- The command of a command line: `probe` if it starts with this word. -/
def leadingCommand (args : List String) : Command :=
  if args.head? = some "probe" then .probe else .layout

/-- What stands behind the word for the command, if there is one. -/
def behindCommand : List String → List String
  | [] => []
  | first :: rest => if first = "layout" ∨ first = "probe" then rest else first :: rest

/-- Behind the word for its command a command line starts with groups of that command. -/
structure StartsWith (args : List String) (gs : List ArgumentGroup) (rest : List String) :
    Prop where
  allowed : ∀ g ∈ gs, g.Allowed (leadingCommand args)
  written : behindCommand args = gs.flatMap ArgumentGroup.arguments ++ rest

theorem parse_eq (args : List String) :
    parse args = (ofCommand (leadingCommand args)).parseFlags (behindCommand args) := by
  have split : splitCommand args = (leadingCommand args, behindCommand args) := by
    cases args with
    | nil => rfl
    | cons first rest =>
      by_cases layout : first = "layout"
      · subst layout
        rfl
      · by_cases probe : first = "probe"
        · subst probe
          rfl
        · simp [splitCommand, leadingCommand, behindCommand, layout, probe]
  rw [parse, split]

namespace StartsWith

variable {args rest : List String} {gs : List ArgumentGroup}

theorem parse_eq (starts : StartsWith args gs rest) :
    parse args = (ofGroups (leadingCommand args) gs).parseFlags rest := by
  rw [Arguments.parse_eq, starts.written]
  exact parseFlags_groups (a := ofCommand _) starts.allowed rest

/-- Groups and nothing behind them are accepted, with what they mean. -/
theorem accepted (starts : StartsWith args gs []) :
    parse args = .ok (ofGroups (leadingCommand args) gs) :=
  starts.parse_eq

/-- What is stuck behind groups is reported. -/
theorem refused {e : UsageError} (starts : StartsWith args gs rest)
    (stuck : Stuck (leadingCommand args) rest e) : parse args = .error e := by
  rw [starts.parse_eq]
  refine parseFlags_stuck ?_
  rwa [(means_ofGroups _ gs).command]

end StartsWith

end Arguments

/-- What an error names: an argument that is out of place, or a flag with its value if it has
one. -/
def UsageError.named : UsageError → List String
  | unexpected argument => [argument]
  | missingValue flag => [flag]
  | invalidGas value => ["--gas", value]

/-- What an error names is part of its wording. -/
theorem UsageError.named_infix (e : UsageError) :
    ∀ name ∈ e.named, name.toList <:+: e.message.toList := by
  have within (before name after : String) :
      name.toList <:+: (before ++ name ++ after).toList := by
    rw [String.toList_append, String.toList_append]
    exact List.infix_append ..
  intro name mem
  cases e with
  | unexpected argument =>
    obtain rfl := List.mem_singleton.1 mem
    exact within "unexpected argument '" name "'"
  | missingValue flag =>
    obtain rfl := List.mem_singleton.1 mem
    have ending := within "missing value for " name ""
    rwa [String.append_empty] at ending
  | invalidGas value =>
    rcases List.mem_cons.1 mem with rfl | given
    · have opening : "invalid " ++ "--gas" ++ " value '" = "invalid --gas value '" := rfl
      have inside := within "invalid " "--gas" (" value '" ++ (value ++ "'"))
      simp only [← String.append_assoc] at inside
      rwa [opening] at inside
    · obtain rfl := List.mem_singleton.1 given
      exact within "invalid --gas value '" name "'"

namespace Arguments

open ArgumentGroup (Stuck)

/-- **The grammar of command lines.** A command line is accepted exactly if it consists of groups of
its command, and then it means what they mean, in whatever order groups of different flags stand. It
is refused exactly if something is stuck behind its groups, which is what the error names. -/
theorem parse_groups (args : List String) :
    ((∃ a, parse args = .ok a) ↔ ∃ gs, StartsWith args gs []) ∧
    (∀ gs, StartsWith args gs [] →
      ∃ a, parse args = .ok a ∧ Means (leadingCommand args) gs a) ∧
    (∀ other gs hs, StartsWith args gs [] → StartsWith other hs [] →
      leadingCommand args = leadingCommand other →
      (∀ flag, gs.filter (·.flag = flag) = hs.filter (·.flag = flag)) →
        parse args = parse other) ∧
    (∀ e, parse args = .error e ↔
      ∃ gs rest, StartsWith args gs rest ∧ Stuck (leadingCommand args) rest e) ∧
    ∀ e : UsageError, ∀ name ∈ e.named, name.toList <:+: e.message.toList := by
  obtain ⟨gs, rest, allowed, written, ends⟩ :=
    exists_groups (leadingCommand args) (behindCommand args)
  have starts : StartsWith args gs rest := ⟨allowed, written⟩
  refine ⟨⟨?_, fun ⟨gs, whole⟩ => ⟨_, whole.accepted⟩⟩,
    fun gs whole => ⟨_, whole.accepted, means_ofGroups _ gs⟩, ?_, fun e => ⟨?_, ?_⟩,
    UsageError.named_infix⟩
  · rintro ⟨a, accepted⟩
    rcases ends with rfl | ⟨e, stuck⟩
    · exact ⟨gs, starts⟩
    · rw [starts.refused stuck] at accepted
      cases accepted
  · intro other gs hs whole otherWhole command same
    rw [whole.accepted, otherWhole.accepted, ← command]
    exact congrArg Except.ok ((means_ofGroups _ gs).eq (means_ofGroups _ hs) same)
  · intro refused
    rcases ends with rfl | ⟨e', stuck⟩
    · rw [starts.accepted] at refused
      cases refused
    · have same : e' = e := Except.error.inj ((starts.refused stuck).symm.trans refused)
      exact ⟨gs, rest, starts, same ▸ stuck⟩
  · rintro ⟨gs, rest, starts, stuck⟩
    exact starts.refused stuck

/-- Groups in which a value looks like a flag and gas is given twice. -/
def mixedGroups : List ArgumentGroup := [.gas "7", .env "--json", .gas "0x5208", .help false]

/-- The same with the groups of different flags in another order. -/
def turnedGroups : List ArgumentGroup := [.help false, .gas "7", .gas "0x5208", .env "--json"]

theorem parse_groups_turned :
    let mixed := ["probe", "--gas", "7", "--env", "--json", "--gas", "0x5208", "-h"]
    let turned := ["probe", "-h", "--gas", "7", "--gas", "0x5208", "--env", "--json"]
    StartsWith mixed mixedGroups [] ∧ StartsWith turned turnedGroups [] ∧
    (∀ flag, mixedGroups.filter (·.flag = flag) = turnedGroups.filter (·.flag = flag)) ∧
    parse mixed = parse turned ∧
    (∃ a, parse mixed = .ok a ∧ a.gas = 21000 ∧ a.env = some "--json" ∧ a.json = false) ∧
    parse (mixed ++ ["--check"]) = .error (.unexpected "--check") := by
  intro mixed turned
  have seven : ∃ w, Word.parse? "7" = some w := ⟨7, by decide⟩
  have large : ∃ w, Word.parse? "0x5208" = some w := ⟨21000, by decide⟩
  have gas {amount : String} (word : ∃ w, Word.parse? amount = some w) :
      (ArgumentGroup.gas amount).Allowed .probe := ⟨rfl, by rintro _ ⟨⟩; exact word⟩
  have env : (ArgumentGroup.env "--json").Allowed .probe := ⟨rfl, nofun⟩
  have help : (ArgumentGroup.help false).Allowed .probe := ⟨trivial, nofun⟩
  have whole : StartsWith mixed mixedGroups [] :=
    ⟨by simp [mixedGroups, gas seven, gas large, env, help, leadingCommand, mixed], rfl⟩
  have otherWhole : StartsWith turned turnedGroups [] :=
    ⟨by simp [turnedGroups, gas seven, gas large, env, help, leadingCommand, turned], rfl⟩
  have same : ∀ flag, mixedGroups.filter (·.flag = flag) = turnedGroups.filter (·.flag = flag) := by
    intro flag
    cases flag <;> rfl
  have stuck : Stuck .probe ["--check"] (.unexpected "--check") := by
    refine .unexpected [] fun g belongs => ?_
    cases g with
    | help long => cases long <;> decide
    | check => cases belongs
    | json | dumpIr | env | config | gas => exact of_decide_eq_true rfl
  obtain ⟨-, meaning, order, -⟩ := parse_groups mixed
  obtain ⟨a, accepted, means⟩ := meaning mixedGroups whole
  have longer : StartsWith (mixed ++ ["--check"]) mixedGroups ["--check"] := ⟨whole.allowed, rfl⟩
  have refused := ((parse_groups (mixed ++ ["--check"])).2.2.2.1 _).2 ⟨_, _, longer, stuck⟩
  have off : ¬∃ g ∈ mixedGroups, g.flag = .json := by decide
  exact ⟨whole, otherWhole, same, order turned _ _ whole otherWhole rfl same,
    ⟨a, accepted, means.gas.trans (by decide), means.env.trans rfl,
      Bool.eq_false_iff.2 (mt means.json.1 off)⟩, refused⟩

end Arguments

end HostBridge
