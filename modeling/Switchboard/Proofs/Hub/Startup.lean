import Mathlib
import Switchboard.Hub.Startup
import Switchboard.Proofs.Config.Accepted
import Switchboard.Proofs.Condition.Offences
import Switchboard.Proofs.Hub.Ledger
/-!
# What becomes of a configuration

A hub is set up from a configuration if nothing stands against what it is to hold and against its
rules (`Config.CanStart`). `Config.offences` lists all that does: first what is to be written, then
the rules in their order. If there is something, setting up is refused for the first of it, and if
not, the hub is as the configuration says (`Hub.IsSetUp`): `Hub.set_up_or_refused` says so of every
configuration that was accepted.

`Hub.Holds` is what is kept from rule to rule: the tree is as it was written, and the rules that
were started have their names, their watches and no firing.
-/

namespace Switchboard

namespace Rule

/-- What stands against a rule in a store with the given scheme. -/
def offences (scheme : String) (rule : Rule) : List StartupError :=
  (rule.condition.offences scheme).map (.rule rule.name)

end Rule

namespace Config

/-- What stands against setting up a hub, in the order in which it is met. -/
def offences (c : Config) : List StartupError :=
  (c.initial.elim [] (Json.offences (.root c.scheme))).map .initial ++
    c.rules.flatMap (Rule.offences c.scheme)

/-- A hub can be set up. -/
structure CanStart (c : Config) : Prop where
  /-- What is to be written, if anything is, can be stored. -/
  initial : ∀ v, c.initial = some v → v.IsStorable
  /-- The conditions of all rules can be followed. -/
  rules : ∀ rule ∈ c.rules, rule.condition.CanFollow c.scheme

/-- A hub can be set up if nothing stands against it. -/
theorem offences_eq_nil_iff {c : Config} : c.offences = [] ↔ c.CanStart := by
  have hinitial : c.initial.elim [] (Json.offences (.root c.scheme)) = [] ↔
      ∀ v, c.initial = some v → v.IsStorable := by
    cases c.initial with
    | none => simp
    | some v => simp [Json.offences_eq_nil_iff]
  rw [offences, List.append_eq_nil_iff, List.map_eq_nil_iff, hinitial, List.flatMap_eq_nil_iff]
  simp only [Rule.offences, List.map_eq_nil_iff, Condition.offences_eq_nil_iff]
  exact ⟨fun ⟨hinitial, hrules⟩ => ⟨hinitial, hrules⟩, fun h => ⟨h.initial, h.rules⟩⟩

/-- What a hub is refused for is neither an address at which nothing can be written nor a name that
two rules have. -/
theorem mem_offences {c : Config} {e : StartupError} (h : e ∈ c.offences) :
    (∀ cause, e = .initial cause → ∃ url offence, cause = .unsupportedValue url offence) ∧
      ∀ name other, e ≠ .rule name (.duplicateRule other) := by
  rcases List.mem_append.1 h with h | h
  · obtain ⟨cause, hcause, rfl⟩ := List.mem_map.1 h
    refine ⟨?_, nofun⟩
    rintro _ ⟨⟩
    cases hinitial : c.initial with
    | none =>
      rw [hinitial] at hcause
      cases hcause
    | some v =>
      rw [hinitial] at hcause
      exact Json.exists_of_mem_offences hcause
  · obtain ⟨rule, -, hrule⟩ := List.mem_flatMap.1 h
    obtain ⟨cause, hcause, rfl⟩ := List.mem_map.1 hrule
    refine ⟨nofun, ?_⟩
    rintro name other ⟨⟩
    exact Condition.ne_duplicateRule hcause other rfl

/-- What the root holds at the start, and its revision: what is written there is the first write. -/
def atStart (c : Config) : Entry :=
  c.initial.elim ⟨0, .object []⟩ fun v => ⟨1, v⟩

end Config

namespace Hub

variable {c : Config} {h h' : Hub} {rule : Rule} {rules more : List Rule}

/-- The hub is as the configuration says. -/
structure IsSetUp (c : Config) (h : Hub) : Prop where
  scheme : h.store.scheme = c.scheme
  root : h.store.get h.store.rootAddress.text = .ok c.atStart
  /-- The rules are registered in the order of the configuration. -/
  names : h.rules.map Prod.fst = c.rules.map Rule.name
  /-- Every leaf of a condition is watched, and nothing else is. -/
  watches : h.store.watchCount = (c.rules.map fun rule => rule.condition.leaves.length).sum
  fired : ∀ rule ∈ c.rules, h.fired? rule.name = some 0

/-- The root is as it was written, and the given rules were started and have not fired. -/
structure Holds (c : Config) (rules : List Rule) (h : Hub) : Prop where
  scheme : h.store.scheme = c.scheme
  root : h.store.tree.get (.root c.scheme) = .ok c.atStart
  numbered : h.store.registry.Numbered
  names : h.rules.map Prod.fst = rules.map Rule.name
  watched : h.store.watched.card = (rules.map fun rule => rule.condition.leaves.length).sum
  unfired : ∀ id t, (id, Task.rule t) ∈ h.tasks → t.fired = 0

/-! ## What is written -/

/-- The address of the root is read back from its text. -/
theorem parseConcrete_root {s : Store} (hc : c.IsValid) (hs : s.scheme = c.scheme) :
    s.parseConcrete (Address.root c.scheme).text = .ok (.root c.scheme) := by
  refine Store.parseConcrete_eq_ok_iff.2 ⟨Address.parse_text ?_, hs.symm, rfl⟩
  exact {
    scheme_ne := fun hnil => hc.scheme_ne (String.toList_eq_nil_iff.1 hnil)
    scheme_slash := hc.scheme_slash
    segment_ne := nofun
    segment_slash := nofun }

/-- The root of a store that was never written becomes the node made of a value, or the value is
refused. -/
theorem set_root_new (hc : c.IsValid) (v : Json) :
    (Store.new c.scheme).set (Address.root c.scheme).text v .unchecked =
      match Node.ofJson 1 (.root c.scheme) v with
      | .error e => (.error e, .new c.scheme)
      | .ok node => (.ok 1, ⟨c.scheme, ⟨node⟩, .new⟩) := by
  have hset : Tree.new.set (.root c.scheme) v .unchecked =
      match Node.ofJson 1 (.root c.scheme) v with
      | .error e => (.error e, .new)
      | .ok node => (.ok 1, ⟨node⟩) := by
    rw [Tree.set]
    rfl
  rw [Store.set, parseConcrete_root hc rfl]
  dsimp only
  rw [show (Store.new c.scheme).tree = .new from rfl, hset]
  cases Node.ofJson 1 (.root c.scheme) v <;> rfl

/-- What is to be written is refused for its first offence. -/
theorem refusal?_seed (hc : c.IsValid) :
    refusal? ((new c.scheme c.timeout).seed c.initial) =
      ((c.initial.elim [] (Json.offences (.root c.scheme))).map StartupError.initial).head? := by
  cases c.initial with
  | none => rfl
  | some v =>
    have hset := set_root_new hc v
    rw [Option.elim_some, List.head?_map, ← Node.refusal?_ofJson 1, seed,
      show (new c.scheme c.timeout).store.rootAddress.text = (Address.root c.scheme).text from rfl,
      show (new c.scheme c.timeout).store = .new c.scheme from rfl, hset]
    cases Node.ofJson 1 (.root c.scheme) v <;> rfl

/-- The root holds what was to be written, and there are no rules yet. -/
theorem holds_seed (hc : c.IsValid) (h : (new c.scheme c.timeout).seed c.initial = .ok h') :
    h'.Holds c [] := by
  cases hinitial : c.initial with
  | none =>
    rw [hinitial] at h
    cases h
    exact ⟨rfl, by rw [Config.atStart, hinitial]; rfl, .new, rfl, rfl, nofun⟩
  | some v =>
    have hset := set_root_new hc v
    rw [hinitial, seed,
      show (new c.scheme c.timeout).store.rootAddress.text = (Address.root c.scheme).text from rfl,
      show (new c.scheme c.timeout).store = .new c.scheme from rfl, hset] at h
    cases hnode : Node.ofJson 1 (.root c.scheme) v with
    | error e =>
      rw [hnode] at h
      cases h
    | ok node =>
      rw [hnode] at h
      cases h
      have hmade : Node.Holds 1 v node := ⟨_, hnode⟩
      refine ⟨rfl, ?_, .new, rfl, rfl, nofun⟩
      show Except.ok (Entry.mk node.revision node.toJson) = _
      rw [Config.atStart, hinitial, hmade.revision_eq, hmade.toJson_eq (hc.initial v hinitial)]
      rfl

/-! ## Rules -/

/-- A rule with a new name is refused for the first offence of its condition. -/
theorem Holds.refusal?_addRule (H : h.Holds c rules) (hname : rule.name ∉ rules.map Rule.name) :
    refusal? (h.addRule rule).1 = (rule.condition.offences c.scheme).head? := by
  cases hlookup : h.rules.lookup rule.name with
  | some id =>
    rw [← H.names, Keyed.mem_keys_iff] at hname
    exact absurd ⟨id, hlookup⟩ hname
  | none =>
    rw [Hub.addRule, hlookup, ← H.scheme, ← ConditionWatch.refusal?_start]
    dsimp only
    rcases ConditionWatch.start h.store rule.condition with ⟨e | w, s⟩ <;> rfl

/-- A rule that was started is one more. -/
theorem Holds.addRule (H : h.Holds c rules) (hadd : h.addRule rule = (.ok (), h')) :
    h'.Holds c (rules ++ [rule]) := by
  have hstart := ConditionWatch.start_trades H.numbered rule.condition
  have hkeeps := ConditionWatch.start_keepsTo h.store rule.condition
  rw [Hub.addRule] at hadd
  split at hadd
  · cases hadd
  · rcases hstarted : ConditionWatch.start h.store rule.condition with ⟨e | w, s⟩ <;>
      rw [hstarted] at hadd hstart hkeeps <;> cases hadd
    refine ⟨hkeeps.scheme.trans H.scheme, ?_, hstart.numbered, ?_, ?_, fun id t ht => ?_⟩
    · show s.tree.get (.root c.scheme) = .ok c.atStart
      rw [hkeeps.tree, H.root]
    · rw [List.map_append, List.map_append, ← H.names]
      rfl
    · show s.watched.card = _
      rw [hstart.balance h.store.watched (zero_add _).symm, Multiset.card_add, H.watched]
      show w.owned.card + _ = _
      rw [(ConditionWatch.fits_start hstarted).card_owned, List.map_append, List.sum_append,
        add_comm, List.map_singleton, List.sum_singleton]
    · rcases List.mem_append.1 ht with ht | ht
      · -- The tasks that were there are as before, but for the bells that they are told of.
        obtain ⟨⟨id', t'⟩, hmem, heq⟩ := List.mem_map.1 ht
        cases t' with
        | rule t' =>
          cases heq
          exact H.unfired _ t' hmem
        | request t' => cases heq
      · cases List.mem_singleton.1 ht
        rfl

/-- Rules with new names are refused for the first offence of all their conditions. -/
theorem Holds.refusal?_addRules (H : h.Holds c rules)
    (hnodup : ((rules ++ more).map Rule.name).Nodup) :
    refusal? (h.addRules more) = (more.flatMap (Rule.offences c.scheme)).head? := by
  induction more generalizing h rules with
  | nil => rfl
  | cons rule more ih =>
    have hnames : (rules.map Rule.name).Disjoint ((rule :: more).map Rule.name) := by
      rw [List.map_append] at hnodup
      exact List.disjoint_of_nodup_append hnodup
    have hname : rule.name ∉ rules.map Rule.name := fun hmem =>
      hnames hmem List.mem_cons_self
    rw [List.flatMap_cons, List.head?_append, Rule.offences, List.head?_map,
      ← H.refusal?_addRule hname, Hub.addRules]
    rcases hadded : h.addRule rule with ⟨e | _, h₁⟩
    · rfl
    · rw [← ih (H.addRule hadded) (by rwa [List.append_assoc])]
      rfl

/-- Rules that were started are so many more. -/
theorem Holds.addRules (H : h.Holds c rules) (hadd : h.addRules more = .ok h') :
    h'.Holds c (rules ++ more) := by
  induction more generalizing h rules with
  | nil =>
    cases hadd
    rwa [List.append_nil]
  | cons rule more ih =>
    rw [Hub.addRules] at hadd
    split at hadd
    · next h₁ hadded =>
      rw [← List.singleton_append, ← List.append_assoc]
      exact ih (H.addRule hadded) hadd
    · cases hadd

/-- A hub that holds all rules of a configuration is as the configuration says. -/
theorem Holds.isSetUp (hc : c.IsValid) (H : h.Holds c c.rules) : h.IsSetUp c where
  scheme := H.scheme
  root := by
    rw [Store.rootAddress, H.scheme]
    exact Store.get_eq_ok_iff.2 ⟨_, parseConcrete_root hc H.scheme, H.root⟩
  names := H.names
  watches := by
    rw [← H.watched, Store.watched, Multiset.coe_card, Registry.ids, List.length_map]
    rfl
  fired := fun rule hrule => by
    have hname : rule.name ∈ h.rules.map Prod.fst := H.names ▸ List.mem_map_of_mem hrule
    obtain ⟨id, hid⟩ := Keyed.mem_keys_iff.1 hname
    rw [fired?, hid, Option.map_some, firedOf]
    split
    · next t ht => rw [H.unfired id t (Keyed.mem_of_lookup ht)]
    · rfl

/-! ## Setting up -/

/-- Setting up is refused for the first offence of the configuration. -/
theorem refusal?_ofConfig (hc : c.IsValid) : refusal? (ofConfig c) = c.offences.head? := by
  rw [Config.offences, List.head?_append, ← refusal?_seed hc, ofConfig]
  cases hseed : (new c.scheme c.timeout).seed c.initial with
  | error e => rfl
  | ok h =>
    rw [← (holds_seed hc hseed).refusal?_addRules hc.names]
    rfl

/-- A hub that was set up is as the configuration says. -/
theorem isSetUp_ofConfig (hc : c.IsValid) (h : ofConfig c = .ok h') : h'.IsSetUp c := by
  obtain ⟨h₀, hseed, hadd⟩ := Json.bind_eq_ok h
  exact ((holds_seed hc hseed).addRules hadd).isSetUp hc

/-- **Setting up a hub.** A configuration that was accepted has a scheme that can stand in an address
and rules with different names. A hub is set up from it if, and only if, what is to be written can
be stored and all conditions can be followed; it is then as the configuration says. If not, it is
refused for the first offence: in what is to be written, then in the rules, one after the other. -/
theorem set_up_or_refused (d : Document) (c : Config) (h : Config.ofDocument d = .ok c) :
    c.IsValid ∧
    ((∃ hub, ofConfig c = .ok hub) ↔ c.CanStart) ∧
    (∀ hub, ofConfig c = .ok hub → hub.IsSetUp c) ∧
    (∀ e, ofConfig c = .error e ↔ c.offences.head? = some e) ∧
    ∀ e, ofConfig c = .error e →
      (∀ cause, e = .initial cause → ∃ url offence, cause = .unsupportedValue url offence) ∧
      ∀ name other, e ≠ .rule name (.duplicateRule other) := by
  have hc := Config.isValid_of_document h
  have hrefused : ∀ e, ofConfig c = .error e ↔ c.offences.head? = some e := fun e => by
    rw [← refusal?_ofConfig hc, refusal?_eq_some_iff]
  refine ⟨hc, ?_, fun hub hhub => isSetUp_ofConfig hc hhub, hrefused, fun e he => ?_⟩
  · rw [← refusal?_eq_none_iff, refusal?_ofConfig hc, List.head?_eq_none_iff,
      Config.offences_eq_nil_iff]
  · exact Config.mem_offences (List.mem_of_head? ((hrefused e).1 he))

/-- With two rules that can be followed the hub is set up; if the second one begins with an address
of another store, this is what it is refused for, whatever comes after. -/
theorem set_up_with_two_rules :
    let seed : Json := .object
      [("door", .string "shut"), ("modes", .array [.string "away", .string "night"])]
    let both : Condition := .combine .all
      [.leaf ⟨"home://door", .matching "^open"⟩, .leaf ⟨"home://lamps/*", .present⟩]
    let good : Condition := .leaf ⟨"home://door", .equals (.string "shut")⟩
    let bad : Condition := .combine .any
      [.leaf ⟨"status://door", .present⟩, .leaf ⟨"home://door", .matching "("⟩]
    let rule (name : String) (condition : Condition) : Document := .mapping
      [(.string "name", .string name), (.string "condition", .ofJson condition.toJson)]
    let document (last : Condition) : Document := .mapping
      [(.string "status", .mapping
        [(.string "scheme", .string "home"), (.string "initial", .ofJson seed)]),
        (.string "rules", .sequence [rule "both" both, rule "last" last])]
    let config (last : Condition) : Config :=
      { Config.standard with
        scheme := "home", initial := some seed, rules := [⟨"both", both, []⟩, ⟨"last", last, []⟩] }
    (Config.ofDocument (document good) = .ok (config good) ∧
      ∃ hub, ofConfig (config good) = .ok hub ∧ hub.IsSetUp (config good)) ∧
    Config.ofDocument (document bad) = .ok (config bad) ∧
      ofConfig (config bad) =
        .error (.rule "last" (.store (.schemeMismatch "status://door" "home"))) := by
  intro seed both good bad rule document config
  have hgood : Config.ofDocument (document good) = .ok (config good) := by
    subst config document rule bad good both seed
    cbv
  have hbad : Config.ofDocument (document bad) = .ok (config bad) := by
    subst config document rule bad good both seed
    cbv
  have hnone : (config good).offences = [] := by
    subst config document rule bad good both seed
    cbv
  have hfirst : (config bad).offences.head? =
      some (.rule "last" (.store (.schemeMismatch "status://door" "home"))) := by
    subst config document rule bad good both seed
    cbv
  obtain ⟨-, hstarts, hset, -⟩ := set_up_or_refused (document good) (config good) hgood
  obtain ⟨-, -, -, hrefused, -⟩ := set_up_or_refused (document bad) (config bad) hbad
  obtain ⟨hub, hhub⟩ := hstarts.2 (Config.offences_eq_nil_iff.1 hnone)
  exact ⟨⟨hgood, hub, hhub, hset hub hhub⟩, hbad, (hrefused _).2 hfirst⟩

end Hub

end Switchboard
