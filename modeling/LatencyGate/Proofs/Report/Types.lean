import Mathlib
import LatencyGate.Proofs.Json.Decimals
import LatencyGate.Proofs.Json.Readable
import LatencyGate.Proofs.Report.Edits
import LatencyGate.Proofs.Run.ExitStatus

namespace LatencyGate

open Json Json.Spelling

namespace Json.Spelling

def IsObject (v : Spelling) : Prop := ∃ inside members, v = .object inside members

def IsArray (v : Spelling) : Prop := ∃ inside items, v = .array inside items

def IsString (v : Spelling) : Prop := ∃ l, v = .string l

def IsCount (v : Spelling) : Prop :=
  ∃ n : Numeral, v = .number n ∧ ∃ k : Nat, k < 2 ^ 64 ∧ n.integer? = some (k : Int)

def IsText (v : Spelling) : Prop := ∃ l, v = .string l ∧ (Literal.text? l).isSome

/-- An integer of 64 bits without a sign. A zero with a sign is no integer. -/
def IsUnsigned (v : Spelling) : Prop :=
  ∃ n : Numeral, v = .number n ∧ n.negative = false ∧
    ∃ k : Nat, k < 2 ^ 64 ∧ n.integer? = some (k : Int)

def IsLoose (levels : Nat) (v : Spelling) : Prop := v.depth ≤ levels ∧ v.Readable

def Admits (type : Spelling → Prop) (given : Option Spelling) : Prop :=
  ∀ v ∈ given, v = .null ∨ type v

variable {v w : Spelling}

theorem IsText.isString (text : IsText v) : IsString v := by
  obtain ⟨l, rfl, -⟩ := text
  exact ⟨l, rfl⟩

theorem IsUnsigned.isCount (unsigned : IsUnsigned v) : IsCount v := by
  obtain ⟨n, rfl, -, integer⟩ := unsigned
  exact ⟨n, rfl, integer⟩

theorem text?_isSome_iff (v : Spelling) : (text? v).isSome ↔ IsText v := by
  constructor
  · intro text
    cases v with
    | string l => exact ⟨l, rfl, text⟩
    | _ => cases text
  · rintro ⟨l, rfl, text⟩
    exact text

theorem natural?_eq_some_iff {u : UInt64} : natural? v = some u ↔
    ∃ n : Numeral, v = .number n ∧ n.negative = false ∧ n.integer? = some (u.toNat : Int) := by
  constructor
  · intro natural
    cases v with
    | number n =>
        obtain ⟨m, number, natural⟩ := Option.bind_eq_some_iff.1 natural
        split at natural
        · obtain rfl := Option.some.inj natural
          exact ⟨n, rfl, Numeral.number?_eq_natural_iff.1 number⟩
        · cases natural
    | _ => cases natural
  · rintro ⟨n, rfl, integer⟩
    rw [natural?, Numeral.number?_eq_natural_iff.2 integer, Option.bind_some]

theorem natural?_isSome_iff (v : Spelling) : (natural? v).isSome ↔ IsUnsigned v := by
  rw [Option.isSome_iff_exists]
  constructor
  · rintro ⟨u, natural⟩
    obtain ⟨n, rfl, positive, integer⟩ := natural?_eq_some_iff.1 natural
    exact ⟨n, rfl, positive, _, UInt64.toNat_lt _, integer⟩
  · rintro ⟨n, rfl, positive, k, bound, integer⟩
    have toNat : (UInt64.ofNat k).toNat = k := UInt64.toNat_ofNat_of_lt' bound
    exact ⟨.ofNat k, natural?_eq_some_iff.2 ⟨n, rfl, positive, by rw [integer, toNat]⟩⟩

theorem value?_isSome_iff_isLoose (levels : Nat) (v : Spelling) :
    (value? levels v).isSome ↔ IsLoose levels v :=
  value?_isSome_iff levels v

theorem optional?_isSome_iff_admits {α : Type} {meaning : Spelling → Option α}
    {type : Spelling → Prop} (typed : ∀ v, (meaning v).isSome ↔ type v) {given : Option Spelling} :
    (optional? meaning given).isSome ↔ Admits type given := by
  cases given with
  | none => exact iff_of_true rfl nofun
  | some v =>
      by_cases null : v = .null
      · rw [null]
        refine iff_of_true rfl fun v same => .inl ?_
        exact (Option.some.inj same).symm
      · rw [optional?_some _ null, Option.isSome_map, typed v]
        simp [Admits, null]

def Has (name : String) (w v : Spelling) : Prop :=
  ∃ inside members, ∃ m ∈ members,
    w = .object inside members ∧ Literal.text? m.key = some name ∧ m.value = v

theorem Has.isObject {name : String} (has : Has name w v) : IsObject w := by
  obtain ⟨inside, members, m, -, rfl, -⟩ := has
  exact ⟨inside, members, rfl⟩

inductive Gives (names : List String) (name : String) : Spelling → Spelling → Prop
  | member {w v : Spelling} (has : Has name w v) : Gives names name w v
  | item {v : Spelling} (inside : Gap) (before : List Item) (item : Item) (after : List Item)
    (place : names[before.length]? = some name) (value : item.value = v) :
      Gives names name (.array inside (before ++ item :: after)) v

theorem Gives.exists_replaces {names : List String} {name : String}
    (gives : Gives names name w v) : ∃ w', Replaces names name v v w w' := by
  cases gives with
  | member has =>
      obtain ⟨inside, members, m, mem, rfl, key, value⟩ := has
      obtain ⟨before, after, rfl⟩ := List.append_of_mem mem
      exact ⟨_, .member inside before m after key value⟩
  | item inside before item after place value =>
      exact ⟨_, .item inside before item after place value⟩

theorem Gives.given_eq {names : List String} {name : String} {given : String → Option Spelling}
    (gives : Gives names name w v) (member : name ∈ names) (distinct : names.Nodup)
    (read : fields? names w = some given) : given name = some v := by
  obtain ⟨w', replaces⟩ := gives.exists_replaces
  exact (fields?_replaces member distinct replaces read).1

theorem Has.given_eq {names : List String} {name : String} {given : String → Option Spelling}
    (has : Has name w v) (member : name ∈ names) (distinct : names.Nodup)
    (read : fields? names w = some given) : given name = some v :=
  (Gives.member has).given_eq member distinct read

theorem isArray_of_fields? {names : List String} {given : String → Option Spelling}
    (read : fields? names w = some given) (other : ¬IsObject w) : IsArray w := by
  cases w with
  | object inside members => exact absurd ⟨inside, members, rfl⟩ other
  | array inside items => exact ⟨inside, items, rfl⟩
  | _ => cases read

end Json.Spelling

/-! ## Documents that fit -/

def Latency.Fits (w : Spelling) : Prop :=
  ∃ given, fields? meaning.names w = some given ∧ Admits IsUnsigned (given "p99_ns") ∧
    Admits (IsLoose (maxOpenBrackets - 2)) (given "wcet_bound_ns")

def Report.Fits (w : Spelling) : Prop :=
  ∃ given, fields? meaning.names w = some given ∧ Admits IsText (given "platform") ∧
    Admits IsText (given "output_hash") ∧ Admits Latency.Fits (given "latency") ∧
      Admits (IsLoose (maxOpenBrackets - 1)) (given "throughput")

theorem isSome_meaning_iff {ρ : Type} (m : Reader.RecordMeaning ρ) {w : Spelling} :
    (m.value? w).isSome ↔ ∃ given, fields? m.names w = some given ∧ (m.assemble given).isSome := by
  rw [Reader.RecordMeaning.value?]
  cases fields? m.names w <;> simp

theorem Latency.value?_isSome_iff (w : Spelling) : (meaning.value? w).isSome ↔ Fits w := by
  rw [isSome_meaning_iff]
  refine exists_congr fun given => and_congr_right fun _ => ?_
  rw [← optional?_isSome_iff_admits natural?_isSome_iff,
    ← optional?_isSome_iff_admits (value?_isSome_iff_isLoose _)]
  change (assemble? given).isSome ↔ _
  rw [assemble?]
  cases optional? natural? (given "p99_ns") <;> simp

theorem Report.value?_isSome_iff (w : Spelling) : (meaning.value? w).isSome ↔ Fits w := by
  rw [isSome_meaning_iff]
  refine exists_congr fun given => and_congr_right fun _ => ?_
  rw [← optional?_isSome_iff_admits text?_isSome_iff, ← optional?_isSome_iff_admits text?_isSome_iff,
    ← optional?_isSome_iff_admits Latency.value?_isSome_iff,
    ← optional?_isSome_iff_admits (value?_isSome_iff_isLoose _)]
  change (assemble? given).isSome ↔ _
  rw [assemble?]
  cases optional? text? (given "platform") <;> cases optional? text? (given "output_hash") <;>
    cases optional? Latency.meaning.value? (given "latency") <;> simp

namespace Report

theorem parse_error_iff (d : Document) : (∃ e, parse d.bytes = .error e) ↔ ¬Fits d.value := by
  rw [← value?_isSome_iff, Option.isSome_iff_exists]
  simp only [← parse_eq_ok_iff]
  cases parse d.bytes <;> simp

/-! ## Documents that are refused -/

/-- No report is read from a document. Loading a file with it fails, and a command that is given
such a file in either place ends with status `2` and prints nothing. -/
structure Refused (document : Bytes) : Prop where
  parse_error : ∃ e, parse document = .error e
  load_error : ∀ (files : Files) (path : String), files path = .ok document →
    ∃ e, load files path = .error (.malformed path e)
  gate_fails : ∀ (files : Files) (settings : GateSettings) (filter : Filter),
    files settings.baseline = .ok document ∨ files settings.current = .ok document →
      let seen := (runGate files settings .unlimited).complete filter Outcome.exitCode
      seen.exitCode = 2 ∧ seen.stdout = []
  comparison_fails : ∀ (files : Files) (settings : ComparisonSettings) (filter : Filter),
    files settings.reference = .ok document ∨ files settings.target = .ok document →
      let seen := (runComparison files settings .unlimited).complete filter fun _ => 0
      seen.exitCode = 2 ∧ seen.stdout = []

theorem complete_of_error {α : Type} {files : Files} {first second : String} {e : Failure}
    {derive : Report → Report → α} {event : α → Event} {pieces : α → List String} (filter : Filter)
    (exitCode : α → UInt32)
    (failed : load files first = .error e ∨ load files second = .error e) :
    let seen := (execute files first second .unlimited derive event pieces).complete filter exitCode
    seen.exitCode = 2 ∧ seen.stdout = [] := by
  intro seen
  cases loaded : load files first with
  | error e' =>
      have ends : seen = _ := complete_of_first_error loaded
      rw [ends]
      exact ⟨rfl, rfl⟩
  | ok a =>
      have failed' : load files second = .error e := by
        rw [loaded] at failed
        exact failed.resolve_left nofun
      obtain ⟨log, ends, -⟩ : ∃ log, seen = ⟨2, [], log ++ _⟩ ∧ _ :=
        complete_of_second_error loaded failed'
      rw [ends]
      exact ⟨rfl, rfl⟩

theorem refused_iff_parse_error {document : Bytes} :
    Refused document ↔ ∃ e, parse document = .error e := by
  refine ⟨Refused.parse_error, ?_⟩
  rintro ⟨e, error⟩
  have load_error {files : Files} {path : String} (contents : files path = .ok document) :
      load files path = .error (.malformed path e) := by
    simp only [load, contents, error]
  refine ⟨⟨e, error⟩, fun files path contents => ⟨e, load_error contents⟩, ?_, ?_⟩
  · rintro files settings filter (first | second)
    · exact complete_of_error _ _ (.inl (load_error first))
    · exact complete_of_error _ _ (.inr (load_error second))
  · rintro files settings filter (first | second)
    · exact complete_of_error _ _ (.inl (load_error first))
    · exact complete_of_error _ _ (.inr (load_error second))

/-- A value of a wrong type stands for the report, for a field that it has to know, or for the
figure of its latency block. -/
inductive Misfit : Spelling → Prop
  | report {w : Spelling} (other : ¬IsObject w) : Misfit w
  | text {w v : Spelling} {name : String} (field : name = "platform" ∨ name = "output_hash")
    (has : Has name w v) (present : v ≠ .null) (other : ¬IsString v) : Misfit w
  | latency {w v : Spelling} (has : Has "latency" w v) (present : v ≠ .null)
    (other : ¬IsObject v) : Misfit w
  | p99 {w l v : Spelling} (block : Has "latency" w l) (has : Has "p99_ns" l v)
    (present : v ≠ .null) (other : ¬IsCount v) : Misfit w

def ListsFields (w : Spelling) : Prop := IsArray w ∨ ∃ l, Has "latency" w l ∧ IsArray l

theorem listsFields_of_misfit {w : Spelling} (misfit : Misfit w) (fits : Fits w) :
    ListsFields w := by
  obtain ⟨given, read, platform, hash, latency, -⟩ := fits
  cases misfit with
  | report other => exact .inl (isArray_of_fields? read other)
  | @text v name field has present other =>
      have admitted : Admits IsText (some v) := by
        rcases field with rfl | rfl
        · exact has.given_eq (by decide) meaning.names_nodup read ▸ platform
        · exact has.given_eq (by decide) meaning.names_nodup read ▸ hash
      exact absurd ((admitted v rfl).resolve_left present).isString other
  | @latency v has present other =>
      rw [has.given_eq (by decide) meaning.names_nodup read] at latency
      obtain ⟨given', read', -⟩ := (latency v rfl).resolve_left present
      exact .inr ⟨v, has, isArray_of_fields? read' other⟩
  | @p99 l v block has present other =>
      rw [block.given_eq (by decide) meaning.names_nodup read] at latency
      obtain ⟨inside, members, rfl⟩ := has.isObject
      obtain ⟨given', read', p99, -⟩ := (latency _ rfl).resolve_left nofun
      rw [has.given_eq (by decide) Latency.meaning.names_nodup read'] at p99
      exact absurd ((p99 v rfl).resolve_left present).isCount other

/-- A document with a value of a wrong type is refused, unless an array lists the fields of the
report or of its latency block and all of them fit. -/
theorem refused_iff_of_misfit {d : Document} (misfit : Misfit d.value) :
    Refused d.bytes ↔ ¬(ListsFields d.value ∧ Fits d.value) := by
  rw [refused_iff_parse_error, parse_error_iff, and_iff_right_of_imp (listsFields_of_misfit misfit)]

def beyondDigits : Digits :=
  [8, 4, 4, 6, 7, 4, 4, 0, 7, 3, 7, 0, 9, 5, 5, 1, 6, 1, 6].map digit

theorem leading_beyondDigits : digit 1 = 0 → beyondDigits = [] := by
  decide

def beyondCounts : Numeral := ⟨false, digit 1, beyondDigits, leading_beyondDigits, none, none⟩

theorem not_isCount_beyondCounts : ¬IsCount (.number beyondCounts) := by
  rintro ⟨n, eq, k, bound, integer⟩
  cases eq
  have value : beyondCounts.integer? = some ((2 ^ 64 : Nat) : Int) := by decide +kernel
  rw [value, Option.some.injEq, Nat.cast_inj] at integer
  omega

theorem has_plain (name : String) (v : Spelling)
    (key : Literal.text? (.plain name) = some name) :
    Has name (.object [] [plainMember name v]) v :=
  ⟨[], _, _, List.mem_singleton_self _, rfl, key, rfl⟩

theorem refused_beyondCounts : ∃ d : Document,
    d.bytes = Utf8.ofString "\x7b\"latency\":\x7b\"p99_ns\":18446744073709551616\x7d\x7d" ∧
      Misfit d.value ∧ Refused d.bytes := by
  let latency : Spelling := .object [] [plainMember "p99_ns" (.number beyondCounts)]
  let w : Spelling := .object [] [plainMember "latency" latency]
  have misfit : Misfit w := .p99 (has_plain "latency" latency (by decide +kernel))
    (has_plain "p99_ns" _ (by decide +kernel)) (by simp) not_isCount_beyondCounts
  refine ⟨.plain w, by decide, misfit, (refused_iff_of_misfit misfit).2 ?_⟩
  rintro ⟨-, fits⟩
  have refused : (meaning.value? w).isSome = false := by decide +kernel
  rw [(value?_isSome_iff w).2 fits] at refused
  cases refused

theorem empty_array_not_refused : ∃ d : Document,
    d.bytes = Utf8.ofString "\x7b\"latency\":[]\x7d" ∧ Misfit d.value ∧
      parse d.bytes = .ok { latency := some {} } ∧ ¬Refused d.bytes ∧
        ∀ threshold current, (Outcome.ofReports threshold { latency := some {} } current).passed := by
  let w : Spelling := .object [] [plainMember "latency" (.array [] [])]
  have ok : parse (Document.plain w).bytes = .ok { latency := some {} } := by
    rw [parse_eq_ok_iff]
    cbv
  refine ⟨.plain w, by decide, ?_, ok, ?_, fun threshold current => ?_⟩
  · refine .latency (has_plain "latency" (.array [] []) (by decide +kernel)) (by simp) ?_
    rintro ⟨inside, members, eq⟩
    cases eq
  · rintro ⟨⟨e, error⟩, -⟩
    rw [ok] at error
    cases error
  · rw [(ofReports_eq_noBaseline_iff threshold _ current).2 rfl]
    rfl

end Report

end LatencyGate
