import Switchboard.Proofs.Tree.Storable
import Switchboard.Proofs.Condition.Following
import Switchboard.Proofs.Store.Keeping
/-!
# Conditions that can be followed

A condition can be followed in a store if every combinator has a part, and if every leaf has a
pattern that compiles and an address of the store (`Condition.CanFollow`). All that stands against
it is listed by `Condition.offences`, in the order in which it is met; a condition is followed if
there is nothing, and else it is refused for the first offence (`ConditionWatch.refusal?_start`).
Whatever comes of it, nothing happens to the tree (`ConditionWatch.start_keepsTo`).
-/

namespace Switchboard

/-! ## Offences -/

/-- What stands against an address in a store with the given scheme. -/
def Address.offences (scheme url : String) : List StoreError :=
  match parse url with
  | .error e => [e]
  | .ok a => if a.scheme = scheme then [] else [.schemeMismatch url scheme]

/-- What stands against a test: a pattern that is no regular expression. -/
def ValueTest.offences : ValueTest → List AutomationError
  | matching pattern =>
    if (Regex.compile? pattern).isSome then [] else [.invalidRegex pattern]
  | present | equals _ | above _ | below _ => []

/-- What stands against a leaf: its test comes before its address. -/
def LeafCondition.offences (scheme : String) (leaf : LeafCondition) : List AutomationError :=
  leaf.test.offences ++ (Address.offences scheme leaf.url).map .store

/-- What stands against a condition: that a combinator has no parts, and then what stands against
each leaf, depth first. -/
def Condition.offences (scheme : String) (c : Condition) : List AutomationError :=
  (if c.isComplete then [] else [.invalidCondition]) ++
    c.leaves.flatMap (LeafCondition.offences scheme)

/-- The pattern of a test, if it has one, is a regular expression. -/
def ValueTest.Compiles (test : ValueTest) : Prop :=
  ∀ pattern, test = .matching pattern → (Regex.compile? pattern).isSome

/-- The condition can be followed in a store with the given scheme. -/
structure Condition.CanFollow (scheme : String) (c : Condition) : Prop where
  /-- Every combinator has a part. -/
  complete : c.isComplete = true
  /-- The pattern of every leaf is a regular expression. -/
  compiles : ∀ leaf ∈ c.leaves, leaf.test.Compiles
  /-- The address of every leaf is one of the store. -/
  address : ∀ leaf ∈ c.leaves, ∃ a, Address.parse leaf.url = .ok a ∧ a.scheme = scheme

section

variable {scheme url : String} {test : ValueTest} {leaf : LeafCondition} {c : Condition}
  {e : AutomationError}

theorem Address.offences_eq_nil_iff :
    offences scheme url = [] ↔ ∃ a, parse url = .ok a ∧ a.scheme = scheme := by
  unfold offences
  cases parse url with
  | error e => simp
  | ok a => simp

theorem ValueTest.offences_eq_nil_iff : test.offences = [] ↔ test.Compiles := by
  cases test with
  | matching pattern => simp [offences, Compiles, Option.isSome_iff_ne_none]
  | present | equals | above | below => simp [offences, Compiles]

/-- A condition can be followed if nothing stands against it. -/
theorem Condition.offences_eq_nil_iff : c.offences scheme = [] ↔ c.CanFollow scheme := by
  have hcomplete : (if c.isComplete then [] else [AutomationError.invalidCondition]) = [] ↔
      c.isComplete = true := by
    by_cases h : c.isComplete <;> simp [h]
  simp only [offences, LeafCondition.offences, List.append_eq_nil_iff, hcomplete,
    List.flatMap_eq_nil_iff, ValueTest.offences_eq_nil_iff, List.map_eq_nil_iff,
    Address.offences_eq_nil_iff]
  constructor
  · rintro ⟨hcomplete, hleaves⟩
    exact ⟨hcomplete, fun leaf hleaf => (hleaves leaf hleaf).1,
      fun leaf hleaf => (hleaves leaf hleaf).2⟩
  · exact fun h => ⟨h.complete, fun leaf hleaf => ⟨h.compiles leaf hleaf, h.address leaf hleaf⟩⟩

/-- No condition is refused for the name of a rule. -/
theorem Condition.ne_duplicateRule (h : e ∈ c.offences scheme) (name : String) :
    e ≠ .duplicateRule name := by
  rintro rfl
  rcases List.mem_append.1 h with h | h
  · split at h <;> simp at h
  · obtain ⟨leaf, -, hleaf⟩ := List.mem_flatMap.1 h
    rcases List.mem_append.1 hleaf with hleaf | hleaf
    · cases htest : leaf.test <;> simp [htest, ValueTest.offences] at hleaf
    · simp at hleaf

end

/-! ## Following -/

/-- A store refuses an address for its offence. -/
theorem Store.refusal?_parse (s : Store) (url : String) :
    refusal? (s.parse url) = (Address.offences s.scheme url).head? := by
  rw [parse, Address.offences]
  cases Address.parse url with
  | error e => rfl
  | ok a =>
    dsimp only
    split <;> rfl

/-- A pattern that is refused is refused for its address. -/
theorem Store.refusal?_watch (s : Store) (url : String) :
    refusal? (s.watch url) = (Address.offences s.scheme url).head? := by
  rw [← refusal?_parse, watch]
  cases s.parse url <;> rfl

theorem ValueTest.refusal?_prepare (test : ValueTest) :
    refusal? test.prepare = test.offences.head? := by
  cases test with
  | matching pattern =>
    rw [prepare, offences]
    cases Regex.compile? pattern <;> rfl
  | present | equals | above | below => rfl

namespace ConditionWatch

/-- Nothing happens to the tree when feeds are opened, whether they all are or not. -/
theorem openFeeds_keepsTo (s : Store) (leaves : List LeafCondition) :
    s.KeepsTo (fun _ => True) (openFeeds s leaves).2 := by
  induction leaves generalizing s with
  | nil => exact .refl _ s
  | cons leaf rest ih =>
    rw [openFeeds]
    cases leaf.test.prepare with
    | error e => exact .refl _ s
    | ok test =>
      cases hwatch : s.watch leaf.url with
      | error e => exact .refl _ s
      | ok registered =>
        obtain ⟨id, s₁⟩ := registered
        have hopened : s.KeepsTo (fun _ => True) (s₁.take id).2 :=
          ((Store.watch_keepsTo hwatch).trans (Store.take_keepsTo s₁ id)).mono fun _ _ => trivial
        have hrest := hopened.trans (ih (s₁.take id).2)
        dsimp only
        generalize openFeeds (s₁.take id).2 rest = outcome at hrest
        obtain ⟨_ | feeds, s₂⟩ := outcome
        · exact hrest.trans ((Store.drop_keepsTo s₂ id).mono fun _ _ => trivial)
        · exact hrest

/-- Nothing happens to the tree when a condition is to be followed, whether it is or not. -/
theorem start_keepsTo (s : Store) (c : Condition) :
    s.KeepsTo (fun _ => True) (start s c).2 := by
  unfold start
  split
  · have hopened := openFeeds_keepsTo s c.leaves
    generalize openFeeds s c.leaves = opened at hopened
    obtain ⟨_ | feeds, s₁⟩ := opened <;> exact hopened
  · exact .refl _ s

/-- Feeds are refused for the first offence of their leaves. -/
theorem refusal?_openFeeds (s : Store) (leaves : List LeafCondition) :
    refusal? (openFeeds s leaves).1 =
      (leaves.flatMap (LeafCondition.offences s.scheme)).head? := by
  induction leaves generalizing s with
  | nil => rfl
  | cons leaf rest ih =>
    rw [List.flatMap_cons, LeafCondition.offences, List.head?_append, List.head?_append,
      ← ValueTest.refusal?_prepare, List.head?_map, ← Store.refusal?_watch, openFeeds]
    cases leaf.test.prepare with
    | error e => rfl
    | ok test =>
      cases hwatch : s.watch leaf.url with
      | error e => rfl
      | ok registered =>
        obtain ⟨id, s₁⟩ := registered
        have hscheme : (s₁.take id).2.scheme = s.scheme :=
          ((Store.watch_keepsTo hwatch).trans (Store.take_keepsTo s₁ id)).scheme
        have hrest := ih (s₁.take id).2
        rw [hscheme] at hrest
        dsimp only
        generalize openFeeds (s₁.take id).2 rest = outcome at hrest
        obtain ⟨_ | feeds, s₂⟩ := outcome <;> exact hrest

/-- A condition that cannot be followed is refused for its first offence. -/
theorem refusal?_start (s : Store) (c : Condition) :
    refusal? (start s c).1 = (c.offences s.scheme).head? := by
  rw [Condition.offences, start]
  split
  · rw [List.nil_append, ← refusal?_openFeeds]
    generalize openFeeds s c.leaves = opened
    obtain ⟨_ | feeds, s₁⟩ := opened <;> rfl
  · rfl

end ConditionWatch

end Switchboard
