import Mathlib
import LatencyGate.Proofs.Json.Members
import LatencyGate.Proofs.Json.Reading.Repeated
import LatencyGate.Proofs.Report.LooseFields
import LatencyGate.Proofs.Report.Types

namespace LatencyGate

open Json Json.Reader Json.Spelling

namespace Json.Spelling

/-- An object up to the key of a member, where a member before has the same key, and anything
behind it. -/
inductive RepeatsName (names : List String) : Bytes → Prop
  | intro {k : String} (known : k ∈ names) (inside gap : Gap) (members : List Member)
    (key : Literal) (rest : Bytes) (given : ∃ m ∈ members, Literal.text? m.key = some k)
    (again : Literal.text? key = some k) :
      RepeatsName names (byte '\x7b' :: (Gap.bytes inside ++ untilKey gap key rest members))

theorem RepeatsName.exists_brace {names : List String} {s : Bytes}
    (repeats : RepeatsName names s) : ∃ t, s = byte '\x7b' :: t := by
  cases repeats
  exact ⟨_, rfl⟩

section
variable (inside : Gap) (before : List Member) (m : Member) (after : List Member) (rest : Bytes)

def behindKey : Bytes :=
  Gap.bytes m.beforeColon ++ byte ':' :: (Gap.bytes m.afterColon ++
    (m.value.bytes ++ (Gap.bytes m.after ++ (memberBytes after ++ rest))))

theorem memberBytes_split :
    memberBytes (before ++ m :: after) ++ rest =
      byte ',' :: untilKey m.before m.key (behindKey m after rest) before := by
  induction before with
  | nil => exact memberBytes_cons m after rest
  | cons first before ih => rw [List.cons_append, memberBytes_cons, ih, untilKey]

theorem objectBytes_split :
    (object inside (before ++ m :: after)).bytes ++ rest =
      byte '\x7b' :: (Gap.bytes inside ++
        untilKey m.before m.key (behindKey m after rest) before) := by
  cases before with
  | nil =>
      rw [List.nil_append, objectBytes_cons, gap_append, List.append_assoc]
      rfl
  | cons first before =>
      rw [List.cons_append, objectBytes_cons, memberBytes_split, gap_append, List.append_assoc,
        untilKey]

end

section
variable (inside : Gap) (before : List Item) (item : Item) (after : List Item) (rest : Bytes)

theorem itemBytes_split :
    itemBytes (before ++ item :: after) ++ rest =
      byte ',' :: untilItem (Gap.bytes item.before ++ (item.value.bytes ++
        (Gap.bytes item.after ++ (itemBytes after ++ rest)))) before := by
  induction before with
  | nil => exact itemBytes_cons item.before item.value item.after after rest
  | cons first before ih => rw [List.cons_append, itemBytes_cons, ih, untilItem]

theorem arrayBytes_split :
    (array inside (before ++ item :: after)).bytes ++ rest =
      byte '[' :: (Gap.bytes inside ++ untilItem (Gap.bytes item.before ++ (item.value.bytes ++
        (Gap.bytes item.after ++ (itemBytes after ++ rest)))) before) := by
  cases before with
  | nil => rw [List.nil_append, arrayBytes_cons, gap_append, List.append_assoc, untilItem]
  | cons first before =>
      rw [List.cons_append, arrayBytes_cons, itemBytes_split, gap_append, List.append_assoc,
        untilItem]

end

theorem repeatsName_of_named {names : List String} {k : String} (known : k ∈ names) (inside : Gap)
    {members : List Member} (twice : 2 ≤ (named k members).length) (rest : Bytes) :
    RepeatsName names ((object inside members).bytes ++ rest) := by
  obtain ⟨before, m, after, rfl, key, given⟩ := exists_split_of_named twice
  rw [objectBytes_split]
  exact .intro known inside m.before before m.key _ given key

end Json.Spelling

theorem Json.Reader.readAll_error_of_result? {α : Type} {reader : Reader α} {document : Bytes}
    (refused : reader.result? document = none) : ∃ e, readAll reader document = .error e := by
  unfold readAll
  simp only [run_bind]
  cases run : reader.run document with
  | error fault => exact ⟨_, rfl⟩
  | ok result =>
      rw [result?, run] at refused
      cases refused

theorem result?_record_of_repeatsName {ρ : Type} (m : RecordMeaning ρ) (expected : String)
    (gap : Gap) {s : Bytes} (repeats : RepeatsName m.names s) :
    (record expected m.readers m.empty).result? (Gap.bytes gap ++ s) = none := by
  obtain ⟨known, inside, gap', members, key, rest, given, again⟩ := repeats
  rw [record, result?_token rfl, if_pos rfl]
  exact RecordMeaning.result?_recordObject_again known again given

theorem result?_optional_of_repeatsName {α : Type} {inner : Reader α} {names : List String}
    (gap : Gap) {s : Bytes} (repeats : RepeatsName names s) (refused : inner.result? s = none) :
    (Reader.optional inner).result? (Gap.bytes gap ++ s) = none := by
  obtain ⟨t, rfl⟩ := repeats.exists_brace
  have other : ¬some (byte '\x7b') = some (byte 'n') := by decide
  rw [Reader.optional, result?_bind_some (result?_blanks rfl gap t), result?_peek?_bind,
    List.head?_cons, if_neg other, result?_bind, refused]
  rfl

namespace Report

/-! ## Reports -/

/-- The input names a field of the report, or of its latency block, for the second time. What
follows the name is arbitrary. The block is a member of the report or stands in its place among the
listed fields. -/
inductive Repeats : Bytes → Prop
  | field (before : Gap) {s : Bytes}
    (again : RepeatsName ["platform", "output_hash", "latency", "throughput"] s) :
      Repeats (Gap.bytes before ++ s)
  | figure (before inside gap : Gap) (members : List Member) {key : Literal}
    (latency : Literal.text? key = some "latency") (beforeColon afterColon : Gap) {s : Bytes}
    (again : RepeatsName ["p99_ns", "wcet_bound_ns"] s) :
      Repeats (Gap.bytes before ++ byte '\x7b' :: (Gap.bytes inside ++
        untilKey gap key (Gap.bytes beforeColon ++ byte ':' :: (Gap.bytes afterColon ++ s)) members))
  | listed (before inside gap : Gap) {items : List Item}
    (place : meaning.names[items.length]? = some "latency") {s : Bytes}
    (again : RepeatsName ["p99_ns", "wcet_bound_ns"] s) :
      Repeats (Gap.bytes before ++ byte '[' :: (Gap.bytes inside ++
        untilItem (Gap.bytes gap ++ s) items))

inductive NamesTwice : Spelling → Prop
  | field {k : String} (known : k ∈ ["platform", "output_hash", "latency", "throughput"])
    (inside : Gap) {members : List Member} (twice : 2 ≤ (named k members).length) :
      NamesTwice (.object inside members)
  | figure {k : String} (known : k ∈ ["p99_ns", "wcet_bound_ns"]) {w : Spelling} (inside : Gap)
    {members : List Member} (block : Gives meaning.names "latency" w (.object inside members))
    (twice : 2 ≤ (named k members).length) : NamesTwice w

theorem result?_latency_of_repeatsName (report : Report) (gap : Gap) {s : Bytes}
    (again : RepeatsName ["p99_ns", "wcet_bound_ns"] s) :
    (Reader.optional Latency.reader >>= fun latency => pure { report with latency } :
      Reader Report).result? (Gap.bytes gap ++ s) = none := by
  have block : Latency.reader.result? s = none :=
    result?_record_of_repeatsName Latency.meaning "struct LatencyStats" [] again
  rw [result?_bind, result?_optional_of_repeatsName gap again block]
  rfl

theorem parse_error_of_repeats {input : Bytes} (repeats : Repeats input) :
    ∃ e, parse input = .error e := by
  refine readAll_error_of_result? ?_
  change (record _ meaning.readers meaning.empty).result? _ = none
  cases repeats with
  | field before again => exact result?_record_of_repeatsName meaning _ before again
  | figure before inside gap members latency beforeColon afterColon again =>
      rw [record, result?_token rfl, if_pos rfl]
      exact RecordMeaning.result?_recordObject_untilKey fun _ _ =>
        RecordMeaning.result?_recordMember_refused rfl latency
          (result?_latency_of_repeatsName · afterColon again) beforeColon
  | @listed before inside gap items place s again =>
      obtain ⟨t, rfl⟩ := again.exists_brace
      have same : meaning.names[2]? = meaning.names[items.length]? := place.symm
      -- The latency block has the third place.
      have third : 2 = items.length :=
        (List.getElem?_inj (by decide) meaning.names_nodup).1 same
      have here : meaning.fields[items.length]? = meaning.fields[2]? := by rw [third]
      have array : byte '[' ≠ byte '\x7b' := by decide
      rw [record, result?_token rfl, if_neg array, if_pos rfl]
      exact RecordMeaning.result?_recordArray_untilItem here rfl (by decide)
        (result?_latency_of_repeatsName · [] again) inside gap

theorem repeats_of_namesTwice {d : Document} (twice : NamesTwice d.value) : Repeats d.bytes := by
  obtain ⟨before, w, after⟩ := d
  cases twice with
  | field known inside twice =>
      exact .field before (repeatsName_of_named known inside twice (Gap.bytes after))
  | figure known inside' block twice =>
      have again := repeatsName_of_named known inside' twice
      cases block with
      | member has =>
          obtain ⟨inside, members, m, mem, rfl, key, value⟩ := has
          obtain ⟨first, last, rfl⟩ := List.append_of_mem mem
          rw [Document.bytes, objectBytes_split, behindKey, value]
          exact .figure before inside m.before first key m.beforeColon m.afterColon (again _)
      | item inside first item last place value =>
          rw [Document.bytes, arrayBytes_split, value]
          exact .listed before inside item.before place (again _)

/-! ## The figure that decides -/

/-- The figure that members for it stand for: there is one at most, and without a number it is
zero. -/
def SoleFigure (figure : UInt64) : List Member → Prop
  | [] => figure = 0
  | [m] => m.value = .null ∧ figure = 0 ∨ natural? m.value = some figure
  | _ => False

theorem length_named_le {d : Document} {r : Report} (ok : parse d.bytes = .ok r) {k : String}
    (known : k ∈ ["p99_ns", "wcet_bound_ns"]) {inside : Gap} {members : List Member}
    (block : Gives meaning.names "latency" d.value (.object inside members)) :
    (named k members).length ≤ 1 := by
  by_contra! twice
  obtain ⟨e, refused⟩ :=
    parse_error_of_repeats (repeats_of_namesTwice (.figure known inside block twice))
  rw [ok] at refused
  cases refused

theorem latency_of_gives {w v : Spelling} {r : Report} (read : meaning.value? w = some r)
    (block : Gives meaning.names "latency" w v) :
    optional? Latency.meaning.value? (some v) = some r.latency := by
  obtain ⟨given, fields, assembled⟩ := Option.bind_eq_some_iff.1 read
  rw [← block.given_eq (by decide) (by decide) fields]
  exact (assemble?_eq_some_iff.1 assembled).2.2.1

theorem soleFigure_p99 {d : Document} {r : Report} (ok : parse d.bytes = .ok r) {inside : Gap}
    {members : List Member} (block : Gives meaning.names "latency" d.value (.object inside members)) :
    SoleFigure r.p99 (named "p99_ns" members) := by
  have one := length_named_le ok (by decide : "p99_ns" ∈ ["p99_ns", "wcet_bound_ns"]) block
  have latency := latency_of_gives ((parse_eq_ok_iff d).1 ok) block
  obtain ⟨l, read, here⟩ := Option.map_eq_some_iff.1 latency
  obtain ⟨given, fields, assembled⟩ := Option.bind_eq_some_iff.1 read
  have figure := (Latency.assemble?_eq_some_iff.1 assembled).1
  have p99_eq : r.p99 = l.p99.getD 0 := by rw [Report.p99, ← here, Option.bind_some]
  rw [p99_eq]
  match only : named "p99_ns" members, one with
  | [], _ =>
      rw [given_eq_none_of_named fields only] at figure
      rw [← Option.some.inj figure]
      rfl
  | [m], _ =>
      obtain ⟨mem, key⟩ := mem_named.1 (only ▸ List.mem_singleton_self m)
      have here : Has "p99_ns" (.object inside members) m.value :=
        ⟨inside, members, m, mem, rfl, key, rfl⟩
      rw [here.given_eq (by decide) (by decide) fields] at figure
      by_cases null : m.value = .null
      · rw [null] at figure
        rw [← Option.some.inj figure]
        exact .inl ⟨null, rfl⟩
      · rw [optional?_some _ null] at figure
        obtain ⟨n, natural, figure⟩ := Option.map_eq_some_iff.1 figure
        rw [← figure]
        exact .inr natural

/-- A field that is named twice is refused, in whatever text and with whatever values, so the figure
that decides is that of the only member for it. -/
theorem repeated_fields_refused :
    (∀ input, Repeats input → ∃ e, parse input = .error e) ∧
    (∀ input, (∀ d : Document, d.bytes ≠ input) → ∃ e, parse input = .error e) ∧
    (∀ d : Document, NamesTwice d.value → ∃ e, parse d.bytes = .error e) ∧
    ∀ (d : Document) (r : Report) (inside : Gap) (members : List Member), parse d.bytes = .ok r →
      Gives meaning.names "latency" d.value (.object inside members) →
        SoleFigure r.p99 (named "p99_ns" members) := by
  refine ⟨fun _ => parse_error_of_repeats, fun input none => ?_,
    fun _ twice => parse_error_of_repeats (repeats_of_namesTwice twice),
    fun _ _ _ _ ok block => soleFigure_p99 ok block⟩
  cases read : parse input with
  | error e => exact ⟨e, rfl⟩
  | ok r =>
      obtain ⟨d, eq⟩ := exists_document read
      exact absurd eq (none d)

theorem repeated_fields_refused_escaped :
    let input := Utf8.ofString "\x7b\"latency\":\x7b\"p99_ns\":null,\"p\\u00399_ns\" and so on"
    let block : Spelling := .object [] [plainMember "p99_ns" .null, plainMember "p99_ns" .null]
    let twice : Document := .plain (.array [] (List.map plainItem [.null, .null, block]))
    (Repeats input ∧ ∃ e, parse input = .error e) ∧
    (NamesTwice twice.value ∧ ∃ e, parse twice.bytes = .error e) ∧
    ((∀ d : Document, d.bytes ≠ []) ∧ ∃ e, parse [] = .error e) ∧
    ∃ r members, parse (latencyDocument []).bytes = .ok r ∧
      Gives meaning.names "latency" (latencyDocument []).value (.object [] members) ∧
      (named "p99_ns" members).length = 1 ∧ SoleFigure r.p99 (named "p99_ns" members) := by
  intro input block twice
  obtain ⟨reached, noDocument, document, sole⟩ := repeated_fields_refused
  let escaped : Literal := Literal.plain "p" ++
    .unit (.ofNat 0 false) (.ofNat 0 false) (.ofNat 3 false) (.ofNat 9 false) :: Literal.plain "9_ns"
  have key : Literal.text? (.plain "latency") = some "latency" := by decide +kernel
  have repeats : Repeats input := by
    have again : RepeatsName ["p99_ns", "wcet_bound_ns"] _ :=
      .intro (k := "p99_ns") (by decide) [] [] [plainMember "p99_ns" .null] escaped
        (Utf8.ofString " and so on") ⟨_, List.mem_singleton_self _, by decide +kernel⟩
        (by decide +kernel)
    have opened := Repeats.figure [] [] [] [] key [] [] again
    convert opened using 1
    decide +kernel
  have third : Gives meaning.names "latency" twice.value block :=
    .item [] [plainItem .null, plainItem .null] (plainItem block) [] rfl rfl
  have names : NamesTwice twice.value :=
    .figure (k := "p99_ns") (by decide) [] third (by decide +kernel)
  have latency : Gives meaning.names "latency" (latencyDocument []).value
      (.object [] [plainMember "p99_ns" (.number (.single 7))]) :=
    .member ⟨[], _, _, List.mem_singleton_self _, rfl, key, rfl⟩
  have none (d : Document) : d.bytes ≠ [] := by
    obtain ⟨s, eq⟩ := exists_bytes_eq_cons d.value
    simp [Document.bytes, eq]
  exact ⟨⟨repeats, reached _ repeats⟩, ⟨names, document _ names⟩, ⟨none, noDocument _ none⟩, _, _,
    parse_latencyDocument, latency, by decide +kernel,
    sole _ _ _ _ parse_latencyDocument latency⟩

end Report

end LatencyGate
