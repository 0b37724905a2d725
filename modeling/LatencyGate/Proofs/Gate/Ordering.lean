import Mathlib
import LatencyGate.Proofs.Arguments.Reading
import LatencyGate.Proofs.Gate.Monotonicity

namespace LatencyGate

open Binary64

def DecidesInOrder (threshold : Binary64) (baseline current : Report) : Prop :=
  ∀ m, (Outcome.ofReports threshold baseline current = .pass m → m.change.le threshold = true) ∧
    (Outcome.ofReports threshold baseline current = .fail m → threshold.lt m.change = true)

/-- A token spells a NaN: the word, in any letter case, behind at most one sign. -/
def SpellsNan (token : String) : Prop :=
  ∃ sign word : List Char, sign ∈ [[], ['-'], ['+']] ∧ word.map Char.toLower = ['n', 'a', 'n'] ∧
    token.toList = sign ++ word

namespace Binary64

theorem round_ne_nan (negative : Bool) (x : Rat) : round negative x ≠ .nan := by
  unfold round
  split <;> nofun

theorem toBinary64_ne_nan (negative : Bool) (d : Decimal) : d.toBinary64 negative ≠ .nan := by
  unfold Decimal.toBinary64
  split
  · exact round_ne_nan _ _
  split
  · nofun
  split <;> exact round_ne_nan _ _

theorem ofUnsignedNumeral?_eq_nan_iff (negative : Bool) (text : List Char) :
    ofUnsignedNumeral? negative text = some .nan ↔ text.map Char.toLower = ['n', 'a', 'n'] := by
  have spelled : String.ofList (text.map Char.toLower) = "nan" ↔
      text.map Char.toLower = ['n', 'a', 'n'] := String.ofList_eq
  rw [← spelled, ofUnsignedNumeral?]
  by_cases nan : String.ofList (text.map Char.toLower) = "nan"
  · rw [if_pos nan]
    exact iff_of_true rfl nan
  rw [if_neg nan]
  refine iff_of_false ?_ nan
  split
  · nofun
  · intro decimal
    obtain ⟨d, -, rounded⟩ := Option.map_eq_some_iff.1 decimal
    exact toBinary64_ne_nan negative d rounded

theorem ofNumeral?_of_unsigned {token : String} (minus : token.toList.head? ≠ some '-')
    (plus : token.toList.head? ≠ some '+') :
    ofNumeral? token = ofUnsignedNumeral? false token.toList := by
  unfold ofNumeral?
  split
  · rename_i chars
    exact absurd (congrArg List.head? chars) minus
  · rename_i chars
    exact absurd (congrArg List.head? chars) plus
  · rfl

theorem ofNumeral?_eq_nan_iff (token : String) : ofNumeral? token = some .nan ↔ SpellsNan token := by
  constructor
  · intro reads
    unfold ofNumeral? at reads
    split at reads
    · rename_i rest chars
      exact ⟨['-'], rest, by decide, (ofUnsignedNumeral?_eq_nan_iff true rest).1 reads, chars⟩
    · rename_i rest chars
      exact ⟨['+'], rest, by decide, (ofUnsignedNumeral?_eq_nan_iff false rest).1 reads, chars⟩
    · exact ⟨[], _, by decide, (ofUnsignedNumeral?_eq_nan_iff false _).1 reads, rfl⟩
  · rintro ⟨sign, word, signed, spelled, chars⟩
    simp only [List.mem_cons, List.not_mem_nil, or_false] at signed
    rcases signed with rfl | rfl | rfl
    · -- The word starts with a letter, so the token has no sign.
      have starts {c : Char} (head : token.toList.head? = some c) : c.toLower = 'n' := by
        rw [chars] at head
        have := congrArg List.head? spelled
        rw [List.nil_append] at head
        rw [List.head?_map, head] at this
        exact Option.some.inj this
      rw [ofNumeral?_of_unsigned (fun head => absurd (starts head) (by decide))
        (fun head => absurd (starts head) (by decide)), chars, ofUnsignedNumeral?_eq_nan_iff]
      exact spelled
    · rw [ofNumeral?, chars]
      exact (ofUnsignedNumeral?_eq_nan_iff true word).2 spelled
    · rw [ofNumeral?, chars]
      exact (ofUnsignedNumeral?_eq_nan_iff false word).2 spelled

end Binary64

instance (token : String) : Decidable (SpellsNan token) :=
  decidable_of_iff _ (ofNumeral?_eq_nan_iff token)

theorem exists_place {x : Binary64} (number : x ≠ .nan) : ∃ place, x.place? = some place := by
  cases x with
  | nan => exact absurd rfl number
  | infinity negative => exact ⟨_, rfl⟩
  | finite negative rank => exact ⟨_, rfl⟩

theorem le_of_lt_eq_false {x y : Binary64} (first : x ≠ .nan) (second : y ≠ .nan)
    (notLess : x.lt y = false) : y.le x = true := by
  obtain ⟨a, ha⟩ := exists_place first
  obtain ⟨b, hb⟩ := exists_place second
  refine le_eq_true.2 ⟨b, a, hb, ha, not_lt.1 fun less => ?_⟩
  rw [lt_eq_true.2 ⟨a, b, ha, hb, less⟩] at notLess
  nomatch notLess

theorem decidesInOrder_iff_ne_nan {threshold : Binary64} {baseline : Report}
    (nonzero : baseline.p99 ≠ 0) (current : Report) :
    DecidesInOrder threshold baseline current ↔ threshold ≠ .nan := by
  obtain ⟨change, computed, value⟩ := changePercent_eq_some nonzero current.p99
  obtain ⟨negative, rank, rfl, -⟩ := toRat?_eq_some.1 value
  unfold DecidesInOrder Outcome.ofReports
  rw [decideGate_eq computed]
  constructor
  · rintro ordered rfl
    have passes := (ordered _).1 rfl
    nomatch passes
  · intro number m
    cases exceeds : threshold.lt (.finite negative rank) with
    | true =>
        rw [if_pos rfl]
        refine ⟨nofun, fun fails => ?_⟩
        cases fails
        exact exceeds
    | false =>
        rw [if_neg nofun]
        refine ⟨fun passes => ?_, nofun⟩
        cases passes
        exact le_of_lt_eq_false number nofun exceeds

/-- With the threshold of an accepted command line the gate decides in order, unless the command
line spells a NaN for it. -/
theorem decidesInOrder_iff {args : List String} {settings : GateSettings} {baseline : Report}
    (asked : GateSettings.ofArguments args = .ok (.run settings)) (nonzero : baseline.p99 ≠ 0)
    (current : Report) :
    DecidesInOrder settings.threshold baseline current ↔
      ∀ token, (Arguments.positionalTokens args.tail)[2]? = some token → ¬SpellsNan token := by
  obtain ⟨token, rest, positionals, number⟩ := GateSettings.positionalTokens_of_run asked
  have third : (Arguments.positionalTokens args.tail)[2]? = some token := by
    rw [positionals]
    rfl
  rw [decidesInOrder_iff_ne_nan nonzero]
  simp only [third, Option.some.injEq, forall_eq', ← ofNumeral?_eq_nan_iff, number, ne_eq]

theorem decidesInOrder_negative_infinity :
    let baseline : Report := { latency := some { p99 := some 1000 } }
    let current : Report := { latency := some { p99 := some 500 } }
    GateSettings.ofArguments ["gate", "a.json", "b.json", "-INFINITY", "nan"] =
        .ok (.run ⟨"a.json", "b.json", .infinity true, false⟩) ∧
      baseline.p99 ≠ 0 ∧ DecidesInOrder (.infinity true) baseline current := by
  intro baseline current
  have asked : GateSettings.ofArguments ["gate", "a.json", "b.json", "-INFINITY", "nan"] =
      .ok (.run ⟨"a.json", "b.json", .infinity true, false⟩) := by decide +kernel
  have nonzero : baseline.p99 ≠ 0 := by decide
  refine ⟨asked, nonzero, (decidesInOrder_iff asked nonzero current).2 fun token third => ?_⟩
  cases third
  decide +kernel

theorem not_decidesInOrder_nan :
    let baseline : Report := { latency := some { p99 := some 1000 } }
    let current : Report := { latency := some { p99 := some 1000000 } }
    GateSettings.ofArguments ["gate", "a.json", "b.json", "nan"] =
        .ok (.run ⟨"a.json", "b.json", .nan, false⟩) ∧
      (Outcome.ofReports .nan baseline current).Passes ∧
      ¬DecidesInOrder .nan baseline current := by
  intro baseline current
  have nonzero : baseline.p99 ≠ 0 := by decide
  refine ⟨by decide +kernel, by decide +kernel, fun ordered => ?_⟩
  exact (decidesInOrder_iff_ne_nan nonzero current).1 ordered rfl

end LatencyGate
