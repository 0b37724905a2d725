import Mathlib
import LatencyGate.Proofs.Run.ExitStatus

namespace LatencyGate

def IsModulePath (target : String) : Prop :=
  target ≠ "" ∧ ∀ c ∈ target.toList, c.isAlphanum ∨ c = '_' ∨ c = ':'

inductive Setting where
  | unset
  | off
  | upTo (level : Level)
  | within (target : String) (path : IsModulePath target)

def Level.name : Level → String
  | .error => "error"
  | .warn => "warn"
  | .info => "info"
  | .debug => "debug"
  | .trace => "trace"

namespace Setting

def text? : Setting → Option String
  | .unset => none
  | .off => some "off"
  | .upTo level => some level.name
  | .within target _ => some (target ++ "=debug")

/-- The events that a setting enables. Levels are in their order, and the name of a module is the
beginning of the names of those inside it. -/
def Enables : Setting → Event → Prop
  | .unset, e => e.level.rank ≤ Level.warn.rank
  | .off, _ => False
  | .upTo level, e => e.level.rank ≤ level.rank
  | .within target _, e => e.level.rank ≤ Level.debug.rank ∧ ∃ rest, e.target = target ++ rest

end Setting

namespace Level

theorem named?_name (level : Level) : named? level.name = some level := by
  cases level <;> rfl

theorem name_ne_off (level : Level) : level.name ≠ "off" := by
  cases level <;> decide

theorem named?_eq_none {text : String} (equals : '=' ∈ text.toList) : named? text = none := by
  unfold named?
  split
  iterate 5 exact absurd equals (by decide)
  rfl

end Level

namespace Filter

theorem ofSetting?_within {target : String} (path : IsModulePath target) :
    ofSetting? (target ++ "=debug") = some ⟨target, some .debug⟩ := by
  have plain : ∀ c ∈ target.toList, decide (c ≠ '=') = true := by
    intro c mem
    rw [decide_eq_true_eq]
    rintro rfl
    exact absurd (path.2 '=' mem) (by decide)
  have chars : (target ++ "=debug").toList = target.toList ++ '=' :: "debug".toList := by
    rw [String.toList_append]
    rfl
  have equals : '=' ∈ (target ++ "=debug").toList := by simp [chars]
  have other : target ++ "=debug" ≠ "off" := by
    intro same
    rw [same] at equals
    exact absurd equals (by decide)
  have behind : String.ofList
      ((('=' :: "debug".toList).dropWhile fun c => decide (c ≠ '=')).drop 1) =
        Level.debug.name := by decide
  have front : (target.toList ++ '=' :: "debug".toList).takeWhile (fun c => decide (c ≠ '=')) =
      target.toList := by
    rw [List.takeWhile_append_of_pos plain, List.takeWhile_cons_of_neg (by decide), List.append_nil]
  simp only [ofSetting?, if_neg other, Level.named?_eq_none equals, chars, front,
    List.dropWhile_append_of_pos plain, behind, Level.named?_name, String.ofList_toList,
    Option.map_some]

theorem exists_eq_append_iff (target name : String) :
    target.toList.isPrefixOf name.toList = true ↔ ∃ rest, name = target ++ rest := by
  rw [List.isPrefixOf_iff_prefix]
  constructor
  · rintro ⟨rest, chars⟩
    refine ⟨.ofList rest, String.toList_injective ?_⟩
    rw [String.toList_append, String.toList_ofList, chars]
  · rintro ⟨rest, rfl⟩
    rw [String.toList_append]
    exact List.prefix_append ..

theorem shows_eq_true_iff (target : String) (level : Level) (e : Event) :
    (⟨target, some level⟩ : Filter).shows e = true ↔
      e.level.rank ≤ level.rank ∧ ∃ rest, e.target = target ++ rest := by
  rw [shows, Bool.and_eq_true, decide_eq_true_eq, exists_eq_append_iff]

theorem shows_everywhere_iff (level : Level) (e : Event) :
    (⟨"", some level⟩ : Filter).shows e = true ↔ e.level.rank ≤ level.rank := by
  rw [shows_eq_true_iff]
  exact and_iff_left ⟨e.target, rfl⟩

theorem shows_ofSetting_iff (setting : Setting) (e : Event) :
    (ofSetting setting.text?).shows e = true ↔ setting.Enables e := by
  cases setting with
  | unset => exact shows_everywhere_iff .warn e
  | off => exact iff_of_false nofun id
  | upTo level =>
      have filter : ofSetting (some level.name) = ⟨"", some level⟩ := by
        rw [ofSetting, Option.bind_some, ofSetting?, if_neg level.name_ne_off, Level.named?_name]
        rfl
      rw [Setting.text?, filter]
      exact shows_everywhere_iff level e
  | within target path =>
      rw [Setting.text?, ofSetting, Option.bind_some, ofSetting?_within path, Option.getD_some]
      exact shows_eq_true_iff target .debug e

end Filter

structure Account where
  exitCode : UInt32
  stdout : Bytes
  events : List Event
  error : Option String

namespace Account

def log (account : Account) (filter : Filter) : List Event := account.events.filter filter.shows

def seen (account : Account) (filter : Filter) : Completion where
  exitCode := account.exitCode
  stdout := account.stdout
  stderr := (account.log filter).map Event.line ++ account.error.toList.map ("error: " ++ ·)

theorem seen_of_no_events (exitCode : UInt32) (stdout : Bytes) (error : Option String)
    (filter : Filter) : (⟨exitCode, stdout, [], error⟩ : Account).seen filter =
      ⟨exitCode, stdout, error.toList.map ("error: " ++ ·)⟩ :=
  rfl

theorem log_sublist (account : Account) {filter filter' : Filter}
    (more : ∀ e, filter.shows e = true → filter'.shows e = true) :
    (account.log filter).Sublist (account.log filter') :=
  List.monotone_filter_right account.events more

theorem mem_log_iff (account : Account) (setting : Setting) (e : Event) :
    e ∈ account.log (.ofSetting setting.text?) ↔ e ∈ account.events ∧ setting.Enables e := by
  rw [log, List.mem_filter, Filter.shows_ofSetting_iff]

end Account

section
variable {α β : Type}

theorem exists_account_of_execution (run : Execution β) {exitCode : β → UInt32}
    (success : ∀ b, exitCode b ≠ 2) :
    ∃ account : Account, (account.exitCode = 2 ↔ account.error.isSome) ∧
      ∀ filter, run.complete filter exitCode = account.seen filter := by
  obtain ⟨events, result, sink⟩ := run
  cases result with
  | ok b =>
      refine ⟨⟨exitCode b, sink.written, events, none⟩,
        iff_of_false (success b) Bool.false_ne_true, fun filter => ?_⟩
      simp [Execution.complete, Account.seen, Account.log]
  | error e =>
      refine ⟨⟨2, sink.written, events, some e.message⟩, iff_of_true rfl rfl, fun filter => ?_⟩
      simp [Execution.complete, Account.seen, Account.log, errorLine]

theorem exists_account (tool : Tool) (args : List String)
    (asked : Except ArgumentError (Request α)) (run : α → Execution β) {exitCode : β → UInt32}
    (success : ∀ b, exitCode b ≠ 2) :
    ∃ account : Account, (account.exitCode = 2 ↔ account.error.isSome) ∧
      ∀ filter, tool.complete args asked (fun settings => (run settings).complete filter exitCode) =
        account.seen filter := by
  cases asked with
  | ok request =>
      cases request with
      | run settings => exact exists_account_of_execution (run settings) success
      | help =>
          refine ⟨_, ?_, fun filter => (Account.seen_of_no_events 0 _ none filter).symm⟩
          exact iff_of_false (by decide : (0 : UInt32) ≠ 2) Bool.false_ne_true
  | error e =>
      cases e with
      | missing =>
          refine ⟨_, ?_, fun filter => (Account.seen_of_no_events 1 _ none filter).symm⟩
          exact iff_of_false (by decide : (1 : UInt32) ≠ 2) Bool.false_ne_true
      | unknownFlag token | invalidThreshold token =>
          refine ⟨_, ?_, fun filter => (Account.seen_of_no_events 2 [] (some _) filter).symm⟩
          exact iff_of_true rfl rfl

end

theorem exists_account_run (tool : Tool) (files : Files) (args : List String) :
    ∃ account : Account, (account.exitCode = 2 ↔ account.error.isSome) ∧
      ∀ setting, tool.run files setting args = account.seen (.ofSetting setting) := by
  cases tool with
  | gate =>
      obtain ⟨account, fails, seen⟩ := exists_account .gate args (GateSettings.ofArguments args)
        (fun settings => runGate files settings .unlimited) exitCode_ne_two
      exact ⟨account, fails, fun setting => seen (.ofSetting setting)⟩
  | comparison =>
      have success : ∀ _ : Comparison, (0 : UInt32) ≠ 2 := fun _ => by decide
      obtain ⟨account, fails, seen⟩ := exists_account .comparison args
        (ComparisonSettings.ofArguments args)
        (fun settings => runComparison files settings .unlimited) success
      exact ⟨account, fails, fun setting => seen (.ofSetting setting)⟩

/-- There is one account of every run, whatever the setting for the diagnostics: the status, the
standard output and the error are the same. A setting logs the events that it enables, and one that
enables more logs more of them, in the same order. -/
theorem one_account (tool : Tool) (files : Files) (args : List String) :
    ∃ account : Account, (account.exitCode = 2 ↔ account.error.isSome) ∧
      (∀ setting, tool.run files setting args = account.seen (.ofSetting setting)) ∧
      (∀ (setting : Setting) (e : Event), e ∈ account.log (.ofSetting setting.text?) ↔
        e ∈ account.events ∧ setting.Enables e) ∧
      ∀ setting setting' : Setting, (∀ e, setting.Enables e → setting'.Enables e) →
        (account.log (.ofSetting setting.text?)).Sublist
          (account.log (.ofSetting setting'.text?)) := by
  obtain ⟨account, fails, seen⟩ := exists_account_run tool files args
  refine ⟨account, fails, seen, account.mem_log_iff, fun setting setting' more => ?_⟩
  refine account.log_sublist fun e shown => ?_
  rw [Filter.shows_ofSetting_iff] at shown ⊢
  exact more e shown

theorem one_account_second_missing :
    let files : Files := fun path =>
      if path = "old.json" then .ok (Utf8.ofString "\x7b\x7d") else .error .notFound
    let args := ["ci_regression", "old.json", "new.json", "10"]
    let error := "error: failed to read new.json: No such file or directory (os error 2)"
    let loaded := "DEBUG loaded benchmark report path=old.json platform=\"unknown\" p99_ns=0"
    (∀ e, Setting.unset.Enables e → (Setting.upTo .debug).Enables e) ∧
      Tool.gate.run files Setting.unset.text? args = ⟨2, [], [error]⟩ ∧
      Tool.gate.run files (Setting.upTo .debug).text? args = ⟨2, [], [loaded, error]⟩ ∧
      ∃ account : Account, account.seen (.ofSetting Setting.unset.text?) = ⟨2, [], [error]⟩ ∧
        account.seen (.ofSetting (Setting.upTo .debug).text?) = ⟨2, [], [loaded, error]⟩ ∧
        (account.log (.ofSetting Setting.unset.text?)).Sublist
          (account.log (.ofSetting (Setting.upTo .debug).text?)) := by
  intro files args error loaded
  have more : ∀ e, Setting.unset.Enables e → (Setting.upTo .debug).Enables e :=
    fun e enabled => Nat.le_trans enabled (by decide)
  have quiet : Tool.gate.run files Setting.unset.text? args = ⟨2, [], [error]⟩ := by
    decide +kernel
  have verbose : Tool.gate.run files (Setting.upTo .debug).text? args =
      ⟨2, [], [loaded, error]⟩ := by decide +kernel
  obtain ⟨account, -, seen, -, sublist⟩ := one_account .gate files args
  exact ⟨more, quiet, verbose, account, (seen _).symm.trans quiet, (seen _).symm.trans verbose,
    sublist _ _ more⟩

end LatencyGate
