import Mathlib
import Switchboard.Proofs.Condition.Opening
import Switchboard.Proofs.Hub.Resting
/-!
# Rules are added or refused

A rule that is added is registered under its name, and there is one watch for each leaf of its
condition (`Hub.Enters`). A rule that is refused leaves everything as it was, however far the
registration of its watches had come (`Hub.Untouched`). So the names that are registered are those
of the rules that were added and not removed since (`Hub.Chronicle.added_or_untouched`).
-/

namespace Switchboard

namespace Hub

variable {h h' : Hub} {rule : Rule} {id : TaskId} {e : Event} {s : Store}

/-- From `h` to `h'` the rule was registered, and its task is about to start. There is one watch for
each leaf of its condition, and nothing has happened to what was there before. -/
structure Enters (h : Hub) (rule : Rule) (h' : Hub) : Prop where
  rules : h'.rules = h.rules ++ [(rule.name, ⟨h.started + 1⟩)]
  task : ∃ w, h'.tasks.lookup ⟨h.started + 1⟩ = some (.rule (.start rule w)) ∧
    h.store.Gains h'.store w.watches (rule.condition.leaves.map LeafCondition.url)
  fired : ∀ id, h'.firedOf id = h.firedOf id
  rests : h.Rests h'

/-- From `h` to `h'` nothing has happened to the rules, the tree and the watches. -/
structure Untouched (h h' : Hub) : Prop where
  rules : h'.rules = h.rules
  store : h.store.Gains h'.store [] []
  fired : ∀ id, h'.firedOf id = h.firedOf id
  rests : h.Rests h'

/-- Whatever happens to the store, no count changes. -/
theorem firedOf_withStore (h : Hub) (s : Store) (id : TaskId) :
    (h.withStore s).firedOf id = h.firedOf id := by
  have hlookup : (h.withStore s).tasks.lookup id = (h.tasks.lookup id).map (·.rouse s) :=
    Keyed.lookup_map h.tasks (fun _ t => t.rouse s) id
  rw [firedOf, firedOf, hlookup]
  rcases h.tasks.lookup id with _ | t | t <;> rfl

/-- A rule is added if its name is new and its condition can be followed. -/
theorem addRule_eq_ok (hadd : (h.addRule rule).1 = .ok ()) :
    ∃ w s, h.rules.lookup rule.name = none ∧
      ConditionWatch.start h.store rule.condition = (.ok w, s) ∧
      (h.addRule rule).2 = { ((h.withStore s).spawn (.rule (.start rule w))).2 with
        rules := h.rules ++ [(rule.name, ⟨h.started + 1⟩)] } := by
  cases hlookup : h.rules.lookup rule.name with
  | some id =>
    rw [addRule, hlookup] at hadd
    cases hadd
  | none =>
    rcases hstart : ConditionWatch.start h.store rule.condition with ⟨e | w, s⟩
    · rw [addRule, hlookup, hstart] at hadd
      cases hadd
    · refine ⟨w, s, rfl, rfl, ?_⟩
      simp only [addRule, hlookup, hstart]
      rfl

/-- A rule is refused if its name is registered, and else for the first offence of its condition. -/
theorem refusal?_addRule (h : Hub) (rule : Rule) :
    refusal? (h.addRule rule).1 =
      if rule.name ∈ h.rules.map Prod.fst then some (.duplicateRule rule.name)
      else (rule.condition.offences h.store.scheme).head? := by
  rw [addRule]
  cases hlookup : h.rules.lookup rule.name with
  | some id => rw [if_pos (Keyed.mem_keys_iff.2 ⟨id, hlookup⟩)]; rfl
  | none =>
    have hnew : rule.name ∉ h.rules.map Prod.fst := fun hmem => by
      obtain ⟨id, hid⟩ := Keyed.mem_keys_iff.1 hmem
      rw [hlookup] at hid
      cases hid
    rw [if_neg hnew, ← ConditionWatch.refusal?_start]
    dsimp only
    rcases ConditionWatch.start h.store rule.condition with ⟨e | w, s⟩ <;> rfl

/-- It is for its name that a rule is refused if, and only if, the name is registered. -/
theorem duplicateRule_iff {name : String} :
    (h.addRule rule).1 = .error (.duplicateRule name) ↔
      name = rule.name ∧ rule.name ∈ h.rules.map Prod.fst := by
  rw [← refusal?_eq_some_iff, refusal?_addRule]
  split
  · next hmem => simp [hmem, eq_comm]
  · next hmem =>
    refine iff_of_false (fun hhead => ?_) fun h' => hmem h'.2
    exact Condition.ne_duplicateRule (List.mem_of_head? hhead) name rfl

/-- No task has the number of the next one. -/
theorem lookup_next (hnew : ∀ entry ∈ h.tasks, entry.1.number ≤ h.started) :
    h.tasks.lookup ⟨h.started + 1⟩ = none := by
  refine Keyed.lookup_eq_none_iff.2 fun hmem => ?_
  obtain ⟨entry, hentry, hid⟩ := List.mem_map.1 hmem
  have hle := hnew entry hentry
  rw [hid] at hle
  exact absurd hle (Nat.not_succ_le_self _)

theorem lookup_spawn_self {t : Task} (hnew : ∀ entry ∈ h.tasks, entry.1.number ≤ h.started) :
    (h.spawn t).2.tasks.lookup ⟨h.started + 1⟩ = some t := by
  refine (List.lookup_append ..).trans ?_
  rw [lookup_next hnew, Option.none_or]
  exact List.lookup_cons_self

theorem lookup_spawn_of_ne {t : Task} (hid : id ≠ ⟨h.started + 1⟩) :
    (h.spawn t).2.tasks.lookup id = h.tasks.lookup id := by
  refine (List.lookup_append ..).trans ?_
  rw [List.lookup_cons, beq_false_of_ne hid, List.lookup_nil, Option.or_none]

/-- A task that starts has not fired. -/
theorem firedOf_spawn {w : ConditionWatch}
    (hnew : ∀ entry ∈ h.tasks, entry.1.number ≤ h.started) (id : TaskId) :
    (h.spawn (.rule (.start rule w))).2.firedOf id = h.firedOf id := by
  rw [firedOf, firedOf]
  by_cases hid : id = ⟨h.started + 1⟩
  · subst hid
    rw [lookup_spawn_self hnew, lookup_next hnew]
    rfl
  · rw [lookup_spawn_of_ne hid]

/-- A rule that is added is there with all its watches. -/
theorem enters_of_addRule (hnumbered : h.store.registry.Numbered)
    (hnew : ∀ entry ∈ h.tasks, entry.1.number ≤ h.started) (hadd : (h.addRule rule).1 = .ok ()) :
    h.Enters rule (h.addRule rule).2 := by
  obtain ⟨w, s, -, hstart, heq⟩ := addRule_eq_ok hadd
  have hstored : ∀ entry ∈ (h.withStore s).tasks, entry.1.number ≤ (h.withStore s).started := by
    intro entry hentry
    obtain ⟨⟨id, t⟩, ht, rfl⟩ := List.mem_map.1 hentry
    exact hnew (id, t) ht
  rw [heq]
  refine ⟨rfl, ⟨w, lookup_spawn_self hstored,
    (ConditionWatch.start_gains hnumbered rule.condition).1 w s hstart⟩, fun id => ?_, ?_⟩
  · exact (firedOf_spawn hstored id).trans (firedOf_withStore h s id)
  · refine (Rests.withStore h _ _ s).trans (.spawn ⟨rfl, rfl, rfl⟩ fun entry hentry => ?_)
    refine (List.mem_append.1 hentry).imp id fun hlast => ?_
    cases List.mem_singleton.1 hlast
    exact ⟨rfl, _, rfl⟩

/-- A rule that is refused leaves everything as it was. -/
theorem untouched_of_addRule {e : AutomationError} (hnumbered : h.store.registry.Numbered)
    (hadd : (h.addRule rule).1 = .error e) : h.Untouched (h.addRule rule).2 := by
  rw [addRule] at hadd ⊢
  cases hlookup : h.rules.lookup rule.name with
  | some id => exact ⟨rfl, .refl hnumbered, fun _ => rfl, .refl h⟩
  | none =>
    rw [hlookup] at hadd
    rcases hstart : ConditionWatch.start h.store rule.condition with ⟨e | w, s⟩
    · exact ⟨rfl, (ConditionWatch.start_gains hnumbered rule.condition).2 e s hstart,
        firedOf_withStore h s, .withStore h _ _ s⟩
    · rw [hstart] at hadd
      cases hadd

/-! ## Registered names -/

/-- The rules that are registered after an event. -/
def rulesAfter (h : Hub) : Event → List (String × TaskId)
  | .addRule rule =>
    if (refusal? (h.addRule rule).1).isNone then h.rules ++ [(rule.name, ⟨h.started + 1⟩)]
    else h.rules
  | .removeRule name => h.rules.filter fun entry => entry.1 ≠ name
  | .dropRules => []
  | _ => h.rules

theorem rules_addRule (h : Hub) (rule : Rule) :
    (h.addRule rule).2.rules = h.rulesAfter (.addRule rule) := by
  rw [rulesAfter]
  cases hrefused : refusal? (h.addRule rule).1 with
  | none =>
    obtain ⟨⟨⟩, hadd⟩ := refusal?_eq_none_iff.1 hrefused
    obtain ⟨w, s, -, -, heq⟩ := addRule_eq_ok hadd
    rw [heq]
    rfl
  | some e =>
    rw [refusal?_eq_some_iff, addRule] at hrefused
    rw [addRule]
    cases hlookup : h.rules.lookup rule.name with
    | some id => rfl
    | none =>
      rw [hlookup] at hrefused
      rcases hstart : ConditionWatch.start h.store rule.condition with ⟨e | w, s⟩
      · rfl
      · rw [hstart] at hrefused
        cases hrefused

theorem rules_turned (h : Hub) (id : TaskId) (rest : List TaskId) (turn : Progress × Task × Store) :
    (h.turned id rest turn).rules = h.rules := by
  obtain ⟨progress, t, s⟩ := turn
  rw [turned_eq]
  rfl

theorem rules_step (h : Hub) : (h.step.getD h).rules = h.rules := by
  cases hline : h.line with
  | nil => simp only [step, hline, Option.getD_none]
  | cons id rest =>
    cases hlookup : h.tasks.lookup id with
    | none => rw [step_of_lookup_none hline hlookup]; rfl
    | some t => rw [step_of_lookup hline hlookup, Option.getD_some, rules_turned]

theorem rules_overlook (h : Hub) : h.overlook.rules = h.rules := by
  unfold overlook
  split
  · rfl
  · split
    · split
      · dsimp only
        split
        · exact rules_turned ..
        · rfl
      · rfl
    · rfl

/-- Rules are registered and removed in no other way. -/
theorem rules_after (he : e.isAtOnce = true) : (h.after e).rules = h.rulesAfter e := by
  have helim : ∀ {α : Type} {found : Option α} {f : α → Hub},
      (∀ a, found = some a → (f a).rules = h.rules) → (found.elim h f).rules = h.rules := by
    intro α found f hf
    cases found with
    | none => rfl
    | some a => exact hf a rfl
  cases e with
  | write | startRequest | preferTask | preferFeed | preferLeaf | pass => rfl
  | watch name pattern =>
    rw [after, watch]
    split <;> rfl
  | take name => exact helim fun id _ => rfl
  | receive name =>
    refine helim fun id _ => ?_
    rw [receive]
    split <;> rfl
  | release name => exact helim fun id _ => rfl
  | dropWatch name => exact helim fun id _ => rfl
  | follow name c =>
    rw [after, follow]
    split <;> rfl
  | changed name => exact helim fun w _ => rfl
  | dropCondition name => exact helim fun w _ => rfl
  | act action =>
    cases action with
    | delay => cases he
    | set | remove => rfl
  | addRule rule => exact h.rules_addRule rule
  | removeRule name =>
    rw [after, removeRule, rulesAfter]
    cases hlookup : h.rules.lookup name with
    | none => exact (Keyed.filter_of_lookup_eq_none hlookup).symm
    | some id =>
      dsimp only
      rw [cancelRules_eq]
      rfl
  | dropRules =>
    rw [after, dropRules, cancelRules_eq]
    rfl
  | stopRules =>
    rw [after, stopRules_eq]
    rfl
  | request | advance => cases he
  | response name =>
    refine helim fun id _ => helim fun answered hanswered => ?_
    unfold response? at hanswered
    split at hanswered
    · cases hanswered
      rfl
    · cases hanswered
  | dropRequest name =>
    refine helim fun id _ => ?_
    rw [dropRequest_eq]
    rfl
  | step => exact h.rules_step
  | overlook => exact h.rules_overlook

namespace Chronicle

variable {c : Chronicle} {m : Move} {name : String}

/-- The names of the rules that are registered. -/
def names (c : Chronicle) : List String :=
  c.hub.rules.map Prod.fst

/-- The move removes the rule with this name, if there is one. -/
def Removes (name : String) (m : Move) : Prop :=
  m = .event (.removeRule name) ∨ m = .event .dropRules

/-- In these moves, from `c` on, a rule with this name was added, and it was not removed since. -/
def Adds (c : Chronicle) (moves : List Move) (name : String) : Prop :=
  ∃ earlier rule later, moves = earlier ++ .event (.addRule rule) :: later ∧ rule.name = name ∧
    ((c.after earlier).hub.addRule rule).1 = .ok () ∧ ∀ m ∈ later, ¬ Removes name m

/-- After the move a rule with this name is registered: one is added, or it was registered and is
not removed. -/
def NamedAfter (c : Chronicle) (m : Move) (name : String) : Prop :=
  (∃ rule, m = .event (.addRule rule) ∧ rule.name = name ∧ (c.hub.addRule rule).1 = .ok ()) ∨
    name ∈ c.names ∧ ¬ Removes name m

/-- A move that neither adds nor removes a rule. -/
theorem namedAfter_of_same (hadds : ∀ rule, m ≠ .event (.addRule rule))
    (hremoves : ¬ Removes name m) : c.NamedAfter m name ↔ name ∈ c.names := by
  constructor
  · rintro (⟨rule, hm, -⟩ | ⟨hmem, -⟩)
    · exact absurd hm (hadds rule)
    · exact hmem
  · exact fun hmem => .inr ⟨hmem, hremoves⟩

theorem mem_rulesAfter_addRule {rule : Rule} :
    name ∈ (c.hub.rulesAfter (.addRule rule)).map Prod.fst ↔
      c.NamedAfter (.event (.addRule rule)) name := by
  have hstays : ¬ Removes name (.event (.addRule rule)) := by simp [Removes]
  rw [rulesAfter]
  cases hrefused : refusal? (c.hub.addRule rule).1 with
  | none =>
    obtain ⟨⟨⟩, hadd⟩ := refusal?_eq_none_iff.1 hrefused
    rw [Option.isNone_none, if_pos rfl, List.map_append, List.mem_append, or_comm,
      List.map_singleton, List.mem_singleton]
    refine or_congr ⟨fun hname => ⟨rule, rfl, hname.symm, hadd⟩, ?_⟩ (by simp [hstays, names])
    rintro ⟨_, ⟨⟩, hname, -⟩
    exact hname.symm
  | some e =>
    rw [refusal?_eq_some_iff] at hrefused
    refine ⟨fun hmem => .inr ⟨hmem, hstays⟩, Or.rec ?_ And.left⟩
    rintro ⟨_, ⟨⟩, -, hadd⟩
    rw [hrefused] at hadd
    cases hadd

theorem mem_rulesAfter_removeRule {removed : String} :
    name ∈ (c.hub.rulesAfter (.removeRule removed)).map Prod.fst ↔
      c.NamedAfter (.event (.removeRule removed)) name := by
  have hremoves : Removes name (.event (.removeRule removed)) ↔ removed = name := by
    simp [Removes]
  rw [rulesAfter, NamedAfter, hremoves]
  constructor
  · intro hmem
    obtain ⟨entry, hentry, rfl⟩ := List.mem_map.1 hmem
    obtain ⟨hold, hne⟩ := List.mem_filter.1 hentry
    exact .inr ⟨List.mem_map_of_mem hold, fun heq => by simp [heq] at hne⟩
  · rintro (⟨_, ⟨⟩, -⟩ | ⟨hmem, hne⟩)
    obtain ⟨entry, hentry, rfl⟩ := List.mem_map.1 hmem
    exact List.mem_map_of_mem (List.mem_filter.2 ⟨hentry, by simpa using Ne.symm hne⟩)

theorem mem_names_next : name ∈ (c.next m).names ↔ c.NamedAfter m name := by
  have hsame : (c.next m).hub.rules = c.hub.rules → (∀ rule, m ≠ .event (.addRule rule)) →
      ¬ Removes name m → (name ∈ (c.next m).names ↔ c.NamedAfter m name) := by
    intro hrules hadds hremoves
    rw [names, hrules, namedAfter_of_same hadds hremoves, names]
  cases m with
  | arrive r => exact hsame rfl (by simp) (by simp [Removes])
  | look place =>
    refine hsame ?_ (by simp) (by simp [Removes])
    rw [next]
    split <;> rfl
  | event e =>
    by_cases he : e.isAtOnce = true
    · have hrules : (c.next (.event e)).hub.rules = c.hub.rulesAfter e := by
        rw [next, if_pos he]
        exact rules_after he
      have hnames : (c.next (.event e)).names = (c.hub.rulesAfter e).map Prod.fst :=
        congrArg _ hrules
      cases e with
      | addRule rule => exact hnames ▸ mem_rulesAfter_addRule
      | removeRule removed => exact hnames ▸ mem_rulesAfter_removeRule
      | dropRules => simp [hnames, rulesAfter, NamedAfter, Removes]
      | _ => exact hsame hrules (by simp) (by simp [Removes])
    · have hrules : (c.next (.event e)).hub.rules = c.hub.rules := by rw [next, if_neg he]
      cases e with
      | addRule | removeRule | dropRules => exact absurd rfl he
      | _ => exact hsame hrules (by simp) (by simp [Removes])

/-- The names that are registered are those of the rules that were added and not removed since. -/
theorem mem_names_iff (scheme : String) (timeout : Nat) (moves : List Move) (name : String) :
    name ∈ ((start scheme timeout).after moves).names ↔
      (start scheme timeout).Adds moves name := by
  induction moves using List.reverseRecOn with
  | nil =>
    refine ⟨fun hmem => absurd hmem List.not_mem_nil, ?_⟩
    rintro ⟨earlier, rule, later, hmoves, -⟩
    simp at hmoves
  | append_singleton moves m ih =>
    rw [after_append]
    refine mem_names_next.trans ?_
    rw [NamedAfter, ih]
    constructor
    · rintro (⟨rule, rfl, hname, hadd⟩ | ⟨⟨earlier, rule, later, rfl, hname, hadd, hlater⟩, hm⟩)
      · exact ⟨moves, rule, [], rfl, hname, hadd, nofun⟩
      · refine ⟨earlier, rule, later ++ [m], by simp, hname, hadd, fun m' hm' => ?_⟩
        rcases List.mem_append.1 hm' with hm' | hm'
        · exact hlater m' hm'
        · rwa [List.mem_singleton.1 hm']
    · rintro ⟨earlier, rule, later, hmoves, hname, hadd, hlater⟩
      -- The rule was added last, or some move came after that.
      rcases List.eq_nil_or_concat later with rfl | ⟨rest, last, rfl⟩
      · obtain ⟨rfl, rfl⟩ := List.append_singleton_inj.1 hmoves
        exact .inl ⟨rule, rfl, hname, hadd⟩
      · rw [List.concat_eq_append, ← List.cons_append, ← List.append_assoc] at hmoves
        obtain ⟨rfl, rfl⟩ := List.append_singleton_inj.1 hmoves
        rw [List.concat_eq_append] at hlater
        refine .inr ⟨⟨earlier, rule, rest, rfl, hname, hadd, fun m' hm' => ?_⟩, ?_⟩
        · exact hlater m' (List.mem_append_left _ hm')
        · exact hlater m (List.mem_append_right _ (List.mem_singleton_self m))

/-- **Adding a rule is all or nothing.** In any state of a run a rule is added. Either it is
registered then, with exactly one watch for each leaf of its condition, or it is refused and nothing
has happened to the rules, to how often they have fired, to the tree and to the watches, whichever
leaf it was refused for. It is refused for its name if, and only if, a rule with this name is
registered. The names of registered rules are different, and they are those of the rules that were
added and not removed since. -/
theorem added_or_untouched (scheme : String) (timeout : Nat) (moves : List Move) (rule : Rule) :
    let c := (start scheme timeout).after moves
    let added := c.hub.addRule rule
    (added.1 = .ok () → c.hub.Enters rule added.2) ∧
    (∀ e, added.1 = .error e → c.hub.Untouched added.2) ∧
    (∀ name, added.1 = .error (.duplicateRule name) ↔ name = rule.name ∧ rule.name ∈ c.names) ∧
    c.names.Nodup ∧
    ∀ name, name ∈ c.names ↔ (start scheme timeout).Adds moves name := by
  intro c added
  have H : c.Accounted := accounted scheme timeout moves
  refine ⟨fun hadd => ?_, fun e hadd => untouched_of_addRule H.numbered hadd,
    fun name => duplicateRule_iff, H.ruleNames, mem_names_iff scheme timeout moves⟩
  exact enters_of_addRule H.numbered (fun entry hentry => (H.tasks entry hentry).started) hadd

/-- A rule with two leaves is added, and cannot be added again. Another one is refused for its
second leaf, when the watch of the first one is registered. -/
theorem entered_then_refused :
    let both : Rule := ⟨"both", .combine .all [.leaf ⟨"status://a", .present⟩,
      .leaf ⟨"status://b", .present⟩], []⟩
    let broken : Rule := ⟨"broken", .combine .any [.leaf ⟨"status://a", .present⟩,
      .leaf ⟨"status://b", .matching "["⟩], []⟩
    let before := start "status" 200
    let c := before.after [.event (.addRule both)]
    before.hub.Enters both c.hub ∧ (c.hub.addRule both).1 = .error (.duplicateRule "both") ∧
      (c.hub.addRule broken).1 = .error (.invalidRegex "[") ∧
      c.hub.Untouched (c.hub.addRule broken).2 := by
  intro both broken before c
  have hadd : (before.hub.addRule both).1 = .ok () := by cbv
  have hrefused : (c.hub.addRule broken).1 = .error (.invalidRegex "[") := by
    subst c before both broken
    cbv
  have hregistered : c.names = ["both"] := by
    subst c before both
    cbv
  obtain ⟨hentered, -⟩ := added_or_untouched "status" 200 [] both
  obtain ⟨-, -, hduplicate, -⟩ := added_or_untouched "status" 200 [.event (.addRule both)] both
  obtain ⟨-, huntouched, -⟩ := added_or_untouched "status" 200 [.event (.addRule both)] broken
  have hmem : both.name ∈ c.names := by
    rw [hregistered]
    exact List.mem_singleton_self _
  exact ⟨hentered hadd, (hduplicate "both").2 ⟨rfl, hmem⟩, hrefused, huntouched _ hrefused⟩

end Chronicle

end Hub

end Switchboard
