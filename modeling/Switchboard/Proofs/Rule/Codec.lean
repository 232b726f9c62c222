import Switchboard.Rule
import Switchboard.Proofs.Condition.Codec
import Switchboard.Proofs.Precondition
/-!
# Rules and their values

What a rule holds are values of a store, with the keys of their objects in order
(`Rule.HasOrderedValues`). Such a rule is read back from its JSON value exactly if the thresholds of
its tests are finite and its delays are counts of milliseconds, as they are in every rule that was
read. Any other delay comes back as the count that was written for it (`Rule.delay_cut_to_count`).
So whatever JSON value a rule is read from, the value it is written as is its normal form: it is
read as the same rule, and written again without a change (`Rule.written_rule_read_back`).
-/

namespace Switchboard

/-! ## Spans of time -/

namespace Duration

/-- Whole milliseconds, and no more of them than a count can hold. -/
def IsCounted (d : Duration) : Prop :=
  d.nanoseconds.val % 1000000 = 0 ∧ d.milliseconds < 2 ^ 64

theorem seconds_ofMilliseconds (n : UInt64) :
    (ofMilliseconds n).seconds.toNat = n.toNat / 1000 :=
  UInt64.toNat_div n 1000

theorem nanoseconds_ofMilliseconds (n : UInt64) :
    (ofMilliseconds n).nanoseconds.val = n.toNat % 1000 * 1000000 :=
  Nat.mod_eq_of_lt (by omega)

theorem milliseconds_ofMilliseconds (n : UInt64) : (ofMilliseconds n).milliseconds = n.toNat := by
  rw [milliseconds, seconds_ofMilliseconds, nanoseconds_ofMilliseconds]
  omega

/-- A count is what it stands for. -/
theorem count_ofMilliseconds (n : UInt64) : (ofMilliseconds n).count = n := by
  rw [count, milliseconds_ofMilliseconds, UInt64.ofNat_toNat]

theorem isCounted_ofMilliseconds (n : UInt64) : (ofMilliseconds n).IsCounted := by
  rw [IsCounted, nanoseconds_ofMilliseconds, milliseconds_ofMilliseconds]
  exact ⟨Nat.mul_mod_left _ _, n.toNat_lt⟩

/-- A span of time is what its count stands for exactly if it is counted. -/
theorem ofMilliseconds_count {d : Duration} : ofMilliseconds d.count = d ↔ d.IsCounted := by
  refine ⟨fun h => h ▸ isCounted_ofMilliseconds d.count, fun ⟨hwhole, hlt⟩ => ?_⟩
  have hcount : d.count.toNat = d.milliseconds := UInt64.toNat_ofNat_of_lt' hlt
  have hseconds := seconds_ofMilliseconds d.count
  have hnanoseconds := nanoseconds_ofMilliseconds d.count
  rw [hcount] at hseconds hnanoseconds
  have hsecond := d.nanoseconds.isLt
  rw [milliseconds] at hseconds hnanoseconds
  refine Duration.ext (UInt64.toNat_inj.1 ?_) (Fin.ext ?_)
  · rw [hseconds]
    omega
  · rw [hnanoseconds]
    omega

end Duration

/-! ## Actions -/

namespace Action

variable {a : Action} {actions : List Action} {d : Document}

/-- The value to write has its keys in order. -/
def HasOrderedValue : Action → Prop
  | set _ value _ => value.Ordered
  | _ => True

/-- The action that is read back. -/
def counted : Action → Action
  | delay duration => delay (.ofMilliseconds duration.count)
  | a => a

/-- A delay is a count of milliseconds. -/
def HasCountedDelay : Action → Prop
  | delay duration => duration.IsCounted
  | _ => True

theorem counted_eq : a.counted = a ↔ a.HasCountedDelay := by
  cases a with
  | delay duration => exact (delay.injEq _ _).to_iff.trans Duration.ofMilliseconds_count
  | set | remove => exact iff_of_true rfl trivial

/-- A precondition is read back from the field that holds it. -/
theorem expected?_toJson (p : Precondition) : expected? (some (.ofJson p.toJson)) = some p := by
  have hordered : p.toJson.Ordered := by cases p <;> trivial
  rw [expected?, Document.toJson?_ofJson hordered, Option.bind_some, Precondition.ofJson?_toJson]

/-- An action is read back, with its delay cut to the count that was written. -/
theorem ofDocument?_toJson (h : a.HasOrderedValue) :
    ofDocument? (.ofJson a.toJson) = some a.counted := by
  rw [ofDocument?, if_pos (Document.isPlain_ofJson _)]
  cases a with
  | set url value expected =>
    have hvalue : (Document.ofJson value).toJson? = some value := Document.toJson?_ofJson h
    change ((Document.ofJson value).toJson?.bind fun v =>
      (expected? (some (.ofJson expected.toJson))).bind fun p => some (set url v p)) = _
    rw [hvalue, expected?_toJson]
    rfl
  | remove url expected =>
    change ((expected? (some (.ofJson expected.toJson))).bind fun p => some (remove url p)) = _
    rw [expected?_toJson]
    rfl
  | delay duration =>
    change ((Document.ofJson (.ofCount duration.count)).count?.bind fun n =>
      some (delay (.ofMilliseconds n))) = _
    rw [Document.count?_ofCount]
    rfl

/-- The value that an action writes is ordered and its delay is counted if the action was read, from
whatever document. -/
theorem canRead_of_ofDocument? (h : ofDocument? d = some a) :
    a.HasOrderedValue ∧ a.HasCountedDelay := by
  rw [ofDocument?] at h
  split at h
  · obtain ⟨parts, -, h⟩ := Option.bind_eq_some_iff.1 h
    obtain ⟨⟨kind, fields⟩, -, h⟩ := Option.bind_eq_some_iff.1 h
    obtain ⟨which, -, h⟩ := Option.bind_eq_some_iff.1 h
    cases which with
    | set =>
      obtain ⟨values, -, h⟩ := Option.bind_eq_some_iff.1 h
      split at h
      · obtain ⟨url, -, h⟩ := Option.bind_eq_some_iff.1 h
        obtain ⟨value, hvalue, h⟩ := Option.bind_eq_some_iff.1 h
        obtain ⟨expected, -, h⟩ := Option.bind_eq_some_iff.1 h
        cases h
        exact ⟨Document.ordered_of_toJson? hvalue, trivial⟩
      · cases h
    | remove =>
      obtain ⟨values, -, h⟩ := Option.bind_eq_some_iff.1 h
      split at h
      · obtain ⟨url, -, h⟩ := Option.bind_eq_some_iff.1 h
        obtain ⟨expected, -, h⟩ := Option.bind_eq_some_iff.1 h
        cases h
        exact ⟨trivial, trivial⟩
      · cases h
    | delay =>
      obtain ⟨field, -, h⟩ := Option.bind_eq_some_iff.1 h
      obtain ⟨n, -, h⟩ := Option.bind_eq_some_iff.1 h
      cases h
      exact ⟨trivial, Duration.isCounted_ofMilliseconds n⟩
  · cases h

/-- Actions are read back, one after the other. -/
theorem mapM_ofDocument?_toJson (h : ∀ a ∈ actions, a.HasOrderedValue) :
    (Document.ofJsonItems (actions.map toJson)).mapM ofDocument? = some (actions.map counted) := by
  induction actions with
  | nil => rfl
  | cons a rest ih =>
    obtain ⟨hfirst, hrest⟩ := List.forall_mem_cons.1 h
    rw [List.map_cons, Document.ofJsonItems, List.mapM_cons, ofDocument?_toJson hfirst, ih hrest]
    rfl

end Action

/-! ## Rules -/

namespace Rule

variable {r : Rule} {j : Json}

/-- The values that the rule compares with or writes have their keys in order. -/
def HasOrderedValues (r : Rule) : Prop :=
  (∀ l ∈ r.condition.leaves, l.test.HasOrderedValue) ∧ ∀ a ∈ r.actions, a.HasOrderedValue

/-- The thresholds in the condition are numbers, and not infinite. -/
def HasFiniteThresholds (r : Rule) : Prop :=
  ∀ l ∈ r.condition.leaves, l.test.HasFiniteThreshold

/-- The delays are counts of milliseconds. -/
def HasCountedDelays (r : Rule) : Prop :=
  ∀ a ∈ r.actions, a.HasCountedDelay

/-- The rule that is read back. -/
def counted (r : Rule) : Rule :=
  { r with actions := r.actions.map Action.counted }

theorem counted_of_hasCountedDelays (h : r.HasCountedDelays) : r.counted = r := by
  have hactions : r.actions.map Action.counted = r.actions.map id :=
    List.map_congr_left fun a ha => Action.counted_eq.2 (h a ha)
  rw [counted, hactions, List.map_id]

/-- A rule is read back, with its delays cut to the counts that were written. -/
theorem ofJson?_toJson (hvalues : r.HasOrderedValues) (hfinite : r.HasFiniteThresholds) :
    ofJson? r.toJson = some r.counted := by
  have hcondition : Condition.ofDocument? (.ofJson r.condition.toJson) = some r.condition :=
    Condition.ofDocument?_toJson fun l hl => ⟨hvalues.1 l hl, hfinite l hl⟩
  have hactions := Action.mapM_ofDocument?_toJson hvalues.2
  have hread : ofJson? r.toJson =
      ((Document.ofJsonItems (r.actions.map Action.toJson)).mapM Action.ofDocument?).bind
        fun actions => (Condition.ofDocument? (.ofJson r.condition.toJson)).bind
          fun condition => some ⟨r.name, condition, actions⟩ := by
    rfl
  rw [hread, hactions, hcondition]
  rfl

/-- The values that actions write are ordered and their delays are counted if the actions were
read. -/
theorem canRead_of_actions? {d : Document} {actions : List Action}
    (h : actions? d = some actions) : ∀ a ∈ actions, a.HasOrderedValue ∧ a.HasCountedDelay := by
  cases d with
  | sequence items =>
    rw [actions?] at h
    induction items generalizing actions with
    | nil =>
      cases h
      nofun
    | cons d rest ih =>
      rw [List.mapM_cons] at h
      obtain ⟨a, hfirst, h⟩ := Option.bind_eq_some_iff.1 h
      obtain ⟨others, hrest, h⟩ := Option.bind_eq_some_iff.1 h
      cases h
      exact List.forall_mem_cons.2 ⟨Action.canRead_of_ofDocument? hfirst, ih hrest⟩
  | null | bool _ | whole _ _ | real _ | string _ | mapping _ | tagged _ _ => cases h

/-- A rule that was read has ordered values, finite thresholds and counted delays. -/
theorem canRead_of_ofJson? (h : ofJson? j = some r) :
    r.HasOrderedValues ∧ r.HasFiniteThresholds ∧ r.HasCountedDelays := by
  rw [ofJson?] at h
  obtain ⟨parts, hparts, h⟩ := Option.bind_eq_some_iff.1 h
  obtain ⟨values, hrecord, h⟩ := Option.bind_eq_some_iff.1 h
  have hjson : parts.All Document.IsJson := Document.IsJson.parts? ⟨j, rfl⟩ hparts
  split at h
  · next name condition field =>
    have hcondition : condition.IsJson := hjson.record? hrecord (by simp)
    -- A rule without a field for its actions has none.
    obtain ⟨actions, hactions, h⟩ : ∃ actions : List Action,
        (∀ a ∈ actions, a.HasOrderedValue ∧ a.HasCountedDelay) ∧
        (name.string?.bind fun text => (Condition.ofDocument? condition).bind fun c =>
          some (Rule.mk text c actions)) = some r := by
      cases field with
      | none => exact ⟨[], nofun, h⟩
      | some d =>
        obtain ⟨actions, hread, h⟩ := Option.bind_eq_some_iff.1 h
        exact ⟨actions, canRead_of_actions? hread, h⟩
    obtain ⟨text, -, h⟩ := Option.bind_eq_some_iff.1 h
    obtain ⟨c, hc, h⟩ := Option.bind_eq_some_iff.1 h
    cases h
    have hwrite := Condition.canWrite_of_ofDocument? hcondition hc
    exact ⟨⟨fun l hl => (hwrite l hl).value, fun a ha => (hactions a ha).1⟩,
      fun l hl => (hwrite l hl).threshold, fun a ha => (hactions a ha).2⟩
  · cases h

/-- **What a rule is written as is its normal form.** A rule with ordered values and finite
thresholds is read back from its JSON value, with each delay cut to whole milliseconds in 64 bits.
So it is the same rule exactly if its thresholds are finite and its delays are such counts. Every
rule that was read is so, and the value it is written as is read as the same rule and written as the
same value again. -/
theorem written_rule_read_back :
    (∀ r : Rule, r.HasOrderedValues →
      (r.HasFiniteThresholds → ofJson? r.toJson = some r.counted) ∧
      (ofJson? r.toJson = some r ↔ r.HasFiniteThresholds ∧ r.HasCountedDelays)) ∧
    (∀ j r, ofJson? j = some r →
      r.HasOrderedValues ∧ r.HasFiniteThresholds ∧ r.HasCountedDelays ∧
      ofJson? r.toJson = some r ∧ (ofJson? r.toJson).map toJson = some r.toJson) := by
  have hsame : ∀ {r : Rule}, r.HasOrderedValues → r.HasFiniteThresholds → r.HasCountedDelays →
      ofJson? r.toJson = some r := fun hvalues hfinite hcounted => by
    rw [ofJson?_toJson hvalues hfinite, counted_of_hasCountedDelays hcounted]
  constructor
  · intro r hvalues
    exact ⟨ofJson?_toJson hvalues, fun h => (canRead_of_ofJson? h).2,
      fun ⟨hfinite, hcounted⟩ => hsame hvalues hfinite hcounted⟩
  · intro j r h
    obtain ⟨hvalues, hfinite, hcounted⟩ := canRead_of_ofJson? h
    have hread := hsame hvalues hfinite hcounted
    exact ⟨hvalues, hfinite, hcounted, hread, by rw [hread, Option.map_some]⟩

/-- A rule in the short forms: a nested condition with a test, an action that expects a revision
spelled out, and one that waits for as long as there is a count. -/
theorem lamp_rule_read_back :
    let short : Json := .array [.string "lamp",
      .array [.string "not", .array [
        .array [.ofCount 1, .array [.array [.ofCount 0, .string "hall://door"]]],
        .object [("condition", .string "watch"), ("note", .null),
          ("test", .array [.ofCount 2, .ofCount 20]), ("url", .string "hall://light")]]],
      .array [
        .array [.string "set", .string "hall://lamp", .bool true, .string "+007"],
        .array [.string "delay", .ofCount 0xffffffffffffffff]]]
    let lamp : Rule := ⟨"lamp",
      .combine .no [.combine .all [.leaf ⟨"hall://door", .present⟩],
        .leaf ⟨"hall://light", .above (.ofInt 20)⟩],
      [.set "hall://lamp" (.bool true) (.exact 7), .delay (.ofMilliseconds 0xffffffffffffffff)]⟩
    lamp.HasOrderedValues ∧ lamp.HasFiniteThresholds ∧ lamp.HasCountedDelays ∧
      ofJson? lamp.toJson = some lamp ∧ ofJson? short = some lamp ∧
      (ofJson? lamp.toJson).map toJson = some lamp.toJson := by
  intro short lamp
  have hvalues : lamp.HasOrderedValues :=
    ⟨by simp [lamp, Condition.leaves, Condition.leavesOf, ValueTest.HasOrderedValue],
      by simp [lamp, Action.HasOrderedValue, Json.Ordered]⟩
  have hshort : ofJson? short = some lamp := by rfl
  obtain ⟨-, -, -, hread, hwritten⟩ := written_rule_read_back.2 short lamp hshort
  obtain ⟨hfinite, hcounted⟩ := (written_rule_read_back.1 lamp hvalues).2.1 hread
  exact ⟨hvalues, hfinite, hcounted, hread, hshort, hwritten⟩

/-- A rule waits for one and a half milliseconds, and another one for five milliseconds more than
there are counts. When they are read back, they wait for one and for five milliseconds. -/
theorem delay_cut_to_count :
    let pause (duration : Duration) : Rule :=
      ⟨"pause", .leaf ⟨"hall://door", .present⟩, [.delay duration]⟩
    let short : Duration := ⟨0, 1500000⟩
    let long : Duration := ⟨18446744073709551, 621000000⟩
    long.milliseconds = 2 ^ 64 + 5 ∧
    (∀ duration, (pause duration).HasOrderedValues ∧ (pause duration).HasFiniteThresholds) ∧
    ofJson? (pause short).toJson = some (pause ⟨0, 1000000⟩) ∧
    ofJson? (pause long).toJson = some (pause ⟨0, 5000000⟩) ∧
    ofJson? (pause short).toJson ≠ some (pause short) ∧
    ofJson? (pause long).toJson ≠ some (pause long) := by
  intro pause short long
  have hvalues : ∀ duration, (pause duration).HasOrderedValues := fun duration =>
    ⟨by simp [pause, Condition.leaves, ValueTest.HasOrderedValue],
      by simp [pause, Action.HasOrderedValue]⟩
  have hfinite : ∀ duration, (pause duration).HasFiniteThresholds := fun duration => by
    simp [HasFiniteThresholds, pause, Condition.leaves, ValueTest.HasFiniteThreshold]
  have hread : ∀ duration,
      ofJson? (pause duration).toJson = some (pause (.ofMilliseconds duration.count)) :=
    fun duration => ofJson?_toJson (hvalues duration) (hfinite duration)
  have hshort : Duration.ofMilliseconds short.count = ⟨0, 1000000⟩ := by decide
  have hlong : Duration.ofMilliseconds long.count = ⟨0, 5000000⟩ := by decide
  have hother : ∀ d d' : Duration, d ≠ d' → some (pause d) ≠ some (pause d') := by
    rintro d d' hne h
    cases h
    exact hne rfl
  refine ⟨by decide, fun duration => ⟨hvalues duration, hfinite duration⟩, hshort ▸ hread short,
    hlong ▸ hread long, ?_, ?_⟩
  · rw [hread, hshort]
    exact hother _ _ (by decide)
  · rw [hread, hlong]
    exact hother _ _ (by decide)

end Rule

end Switchboard
