import Switchboard.Proofs.Rule.Steps
import Switchboard.Proofs.Store.Keeping
/-!
# What the task of a rule does

Others notice two things about the task of a rule: that it fires, and that it carries out an action.
These are its deeds (`Deed`), and each turn of the task is at most one of them (`RuleTask.Does`): a
turn without a deed changes nothing but the watches of the rule.

The deeds of a task are in order (`RuleTask.Recorded`): each firing is followed by actions from the
list of the rule, in their order and from the first one on. A firing that is cut off has carried out
only some of them.

A task that was cancelled while it waited has no deeds any more, and one that was cancelled while it
was at work has none behind a delay.
-/

namespace Switchboard

/-- What the task of a rule does that others notice. -/
inductive Deed where
  | fires
  | acts (action : Action)

/-- The deeds of firings, each with the actions that were carried out in it. -/
def Deed.ofFirings (firings : List (List Action)) : List Deed :=
  firings.flatMap fun done => .fires :: done.map .acts

theorem Deed.ofFirings_append (earlier : List (List Action)) (done : List Action) :
    Deed.ofFirings (earlier ++ [done]) = Deed.ofFirings earlier ++ .fires :: done.map .acts := by
  simp [ofFirings]

/-- For how many milliseconds the task of a rule waits that carries out the action. -/
def Action.ticks : Action → Nat
  | delay duration => duration.ticks
  | set .. | remove .. => 0

/-- For how many milliseconds a deed keeps its task waiting. -/
def Deed.ticks : Deed → Nat
  | fires => 0
  | acts action => action.ticks

/-- The actions that are left of a firing. -/
def Phase.remaining? : Phase → Option (List Action)
  | acting remaining | sleeping _ remaining => some remaining
  | starting | following _ | ended => none

/-- What a task still does that was cancelled while it was at work, with the actions `left` before
it: it gets on with them, and may come back to its condition and fire again, but not beyond a
delay. -/
structure LastDeeds (left : List Action) (deeds : List Deed) : Prop where
  atOnce : ∀ deed ∈ deeds, deed.ticks = 0
  inOrder : ∃ acted again, deeds = acted.map .acts ++ again ∧ acted <+: left ∧
    (again = [] ∨ ∃ others, again = .fires :: others)

namespace RuleTask

variable {t t' : RuleTask} {s s' : Store} {clock : Nat}

/-- The deed of a turn that leads to `t'`. -/
def deed? (t t' : RuleTask) : Option Deed :=
  if t.fired < t'.fired then some .fires
  else
    match t.phase with
    | .acting (action :: _) => if t'.isAlive then some (.acts action) else none
    | _ => none

/-- What a turn of the task `t` can do. -/
inductive Does (t : RuleTask) (s : Store) : Option Deed → RuleTask → Store → Prop
  /-- It does nothing that others notice. -/
  | rests {t' : RuleTask} {s' : Store} (hrule : t'.rule = t.rule) (hfired : t'.fired = t.fired)
      (hcancelled : t'.cancelled = t.cancelled) (haborted : t.isAborted = true → t'.working = false)
      (hremaining : ∀ remaining, t'.phase.remaining? = some remaining →
        t.phase.remaining? = some remaining)
      (hkeeps : s.KeepsTo (· ∈ t.watch.watches) s') : Does t s none t' s'
  /-- It fires; all actions are left then. -/
  | fires {t' : RuleTask} {s' : Store} (haborted : t.isAborted = false)
      (hrule : t'.rule = t.rule) (hfired : t'.fired = t.fired + 1)
      (hcancelled : t'.cancelled = t.cancelled) (hphase : t'.phase = .acting t.rule.actions)
      (hkeeps : s.KeepsTo (· ∈ t.watch.watches) s') : Does t s (some .fires) t' s'
  /-- It carries out the next action, and goes on with the others or gives them up. A task that was
  cancelled carries out no delay. -/
  | acts {t' : RuleTask} {action : Action} {rest : List Action} (haborted : t.isAborted = false)
      (hphase : t.phase = .acting (action :: rest)) (hrule : t'.rule = t.rule)
      (hfired : t'.fired = t.fired) (hcancelled : t'.cancelled = t.cancelled)
      (hatOnce : t.cancelled = true → action.ticks = 0)
      (hremaining : ∀ remaining, t'.phase.remaining? = some remaining → remaining = rest) :
      Does t s (some (.acts action)) t' (action.run s).2

/-- A turn without a deed keeps to the watches of the rule, and so does a firing. -/
theorem Does.keepsTo {deed : Option Deed} (h : t.Does s deed t' s')
    (hacts : ∀ action, deed ≠ some (.acts action)) : s.KeepsTo (· ∈ t.watch.watches) s' := by
  cases h with
  | rests _ _ _ _ _ hkeeps => exact hkeeps
  | fires _ _ _ _ _ hkeeps => exact hkeeps
  | acts => exact absurd rfl (hacts _)

/-- Nobody cancels a task in its turn. -/
theorem Does.cancelled_eq {deed : Option Deed} (h : t.Does s deed t' s') :
    t'.cancelled = t.cancelled := by
  cases h <;> assumption

/-- A task that was cancelled and is not resumed has no deed. -/
theorem Does.of_aborted {deed : Option Deed} (h : t.Does s deed t' s')
    (haborted : t.isAborted = true) :
    deed = none ∧ t'.isAborted = true ∧ t'.fired = t.fired := by
  cases h with
  | rests _ hfired hsame hidle =>
    obtain ⟨hcancelled, -⟩ := Bool.and_eq_true_iff.1 haborted
    exact ⟨rfl, by rw [isAborted, hsame, hcancelled, hidle haborted]; rfl, hfired⟩
  | fires hnot | acts hnot =>
    rw [hnot] at haborted
    cases haborted

theorem Does.rule_eq {deed : Option Deed} (h : t.Does s deed t' s') : t'.rule = t.rule := by
  cases h <;> assumption

/-- A task that was cancelled has no deed that keeps it waiting. -/
theorem Does.ticks_of_cancelled {deed : Deed} (h : t.Does s (some deed) t' s')
    (hcancelled : t.cancelled = true) : deed.ticks = 0 := by
  cases h with
  | fires => rfl
  | acts _ _ _ _ _ hatOnce => exact hatOnce hcancelled

/-- A task that does something may be at work then or wait. -/
theorem Does.working {deed : Option Deed} (h : t.Does s deed t' s') (haborted : t.isAborted = false)
    (working : Bool) : t.Does s deed { t' with working } s' := by
  cases h with
  | rests hrule hfired hcancelled _ hremaining hkeeps =>
    exact .rests hrule hfired hcancelled (absurd · (Bool.eq_false_iff.1 haborted))
      hremaining hkeeps
  | fires _ hrule hfired hcancelled hphase hkeeps =>
    exact .fires haborted hrule hfired hcancelled hphase hkeeps
  | acts _ hphase hrule hfired hcancelled hatOnce hremaining =>
    exact .acts haborted hphase hrule hfired hcancelled hatOnce hremaining

theorem deed?_eq_none (hfired : t'.fired = t.fired)
    (hidle : ∀ action rest, t.phase = .acting (action :: rest) → t'.isAlive = false) :
    t.deed? t' = none := by
  rw [deed?, if_neg (by rw [hfired]; exact Nat.lt_irrefl _)]
  split
  · next action rest hphase =>
    exact if_neg (by rw [hidle action rest hphase]; exact Bool.false_ne_true)
  · rfl

theorem deed?_eq_fires (hfired : t'.fired = t.fired + 1) : t.deed? t' = some .fires :=
  if_pos (hfired ▸ Nat.lt_succ_self t.fired)

theorem deed?_eq_acts {action : Action} {rest : List Action} (hfired : t'.fired = t.fired)
    (hphase : t.phase = .acting (action :: rest)) (halive : t'.isAlive = true) :
    t.deed? t' = some (.acts action) := by
  rw [deed?, if_neg (by rw [hfired]; exact Nat.lt_irrefl _), hphase]
  exact if_pos halive

/-- Nothing is done if the task does not get on with a firing. -/
theorem does_rests (hrule : t'.rule = t.rule) (hfired : t'.fired = t.fired)
    (hcancelled : t'.cancelled = t.cancelled) (haborted : t.isAborted = true → t'.working = false)
    (hidle : ∀ action rest, t.phase = .acting (action :: rest) → t'.isAlive = false)
    (hremaining : ∀ remaining, t'.phase.remaining? = some remaining →
      t.phase.remaining? = some remaining)
    (hkeeps : s.KeepsTo (· ∈ t.watch.watches) s') : t.Does s (t.deed? t') t' s' := by
  rw [deed?_eq_none hfired hidle]
  exact .rests hrule hfired hcancelled haborted hremaining hkeeps

/-- Only the watches of the rule end with its task. -/
theorem finish_does (t : RuleTask) (s : Store) :
    t.Does s (t.deed? (t.finish s).2.1) (t.finish s).2.1 (t.finish s).2.2 :=
  does_rests rfl rfl rfl (fun _ => rfl) (fun _ _ _ => rfl) nofun (s.dropAll_keepsTo t.watch.watches)

theorem serve_keepsTo {w w' : ConditionWatch} {news : Option Bool}
    (h : w.serve s = some (news, w', s')) : s.KeepsTo (· ∈ w.watches) s' := by
  unfold ConditionWatch.serve at h
  split at h
  · cases h
  · next i rest _ =>
    split at h
    · cases h
      exact .refl _ s
    · next feed hfeed =>
      have hmem : feed.watch ∈ w.watches := List.mem_map_of_mem (List.mem_of_getElem? hfeed)
      have hpoll : s.KeepsTo (· ∈ w.watches) (s.poll feed.watch).2 :=
        (s.poll_keepsTo feed.watch).mono fun _ hid => hid ▸ hmem
      split at h <;> next hpolled =>
        cases h
        rw [hpolled] at hpoll
        exact hpoll

theorem follow_does {armed : Bool} (hphase : t.phase = .following armed)
    (haborted : t.isAborted = false) (s : Store) :
    t.Does s (t.deed? (t.follow armed s).2.1) (t.follow armed s).2.1 (t.follow armed s).2.2 := by
  have hrests : ∀ t' s', t'.rule = t.rule → t'.fired = t.fired → t'.cancelled = t.cancelled →
      (∀ remaining, t'.phase.remaining? = some remaining → t.phase.remaining? = some remaining) →
      s.KeepsTo (· ∈ t.watch.watches) s' → t.Does s (t.deed? t') t' s' :=
    fun t' s' hrule hfired hcancelled hremaining hkeeps =>
      does_rests hrule hfired hcancelled (absurd · (Bool.eq_false_iff.1 haborted))
        (by rw [hphase]; exact nofun) hremaining hkeeps
  unfold follow
  cases hserve : t.watch.serve s with
  | none =>
    dsimp only
    split
    · exact finish_does t s
    · exact hrests _ _ rfl rfl rfl (fun _ h => h) (.refl _ s)
  | some served =>
    obtain ⟨news, w, s₁⟩ := served
    have hkeeps := serve_keepsTo hserve
    cases news with
    | none => exact hrests _ _ rfl rfl rfl (fun _ h => h) hkeeps
    | some value =>
      cases value <;> cases armed
      · exact hrests _ _ rfl rfl rfl nofun hkeeps
      · exact hrests _ _ rfl rfl rfl nofun hkeeps
      · exact hrests _ _ rfl rfl rfl nofun hkeeps
      · have hdeed : t.deed? (react { t with watch := w } true true) = some .fires :=
          deed?_eq_fires rfl
        dsimp only
        rw [hdeed]
        exact .fires haborted rfl rfl rfl rfl hkeeps

/-- It is the same for a task that does not look whether it was told to stop. -/
theorem yield_follow_does {armed : Bool} (hphase : t.phase = .following armed)
    (haborted : t.isAborted = false) (hruns : (yield (t.follow armed s)).1 = .runs) :
    t.Does s (t.deed? (yield (t.follow armed s)).2.1) (yield (t.follow armed s)).2.1
      (yield (t.follow armed s)).2.2 := by
  obtain ⟨t', s', hfollow, hyields⟩ := yield_eq_runs hruns
  have hdoes := follow_does hphase haborted s
  rw [hfollow] at hdoes
  rw [hyields]
  exact hdoes.working haborted true

theorem act_does {actions : List Action} (hphase : t.phase = .acting actions)
    (haborted : t.isAborted = false) (clock : Nat) (s : Store)
    (hwaits : (t.act clock s actions).1 = .waits → t.cancelled = false) :
    t.Does s (t.deed? (t.act clock s actions).2.1) (t.act clock s actions).2.1
      (t.act clock s actions).2.2 := by
  cases actions with
  | nil =>
    refine does_rests rfl rfl rfl (absurd · (Bool.eq_false_iff.1 haborted)) ?_ nofun
      (.refl _ s)
    rw [hphase]
    exact nofun
  | cons action rest =>
    have hacts : ∀ t' : RuleTask, t'.isAlive = true → t'.rule = t.rule → t'.fired = t.fired →
        t'.cancelled = t.cancelled → (t.cancelled = true → action.ticks = 0) →
        (∀ remaining, t'.phase.remaining? = some remaining → remaining = rest) →
        t.Does s (t.deed? t') t' (action.run s).2 := by
      intro t' halive hrule hfired hcancelled hatOnce hremaining
      rw [deed?_eq_acts hfired hphase halive]
      exact .acts haborted hphase hrule hfired hcancelled hatOnce hremaining
    have hgoesOn : ∀ remaining : List Action, some rest = some remaining → remaining = rest :=
      fun _ h => (Option.some.inj h).symm
    -- A delay is an action as well, which changes nothing.
    cases action with
    | delay duration =>
      rw [act] at hwaits ⊢
      split at hwaits
      · next hzero =>
        rw [if_pos hzero]
        exact hacts { t with phase := .acting rest } rfl rfl rfl rfl (fun _ => hzero) hgoesOn
      · next htakes =>
        rw [if_neg htakes]
        exact hacts { t with phase := .sleeping _ rest } rfl rfl rfl rfl
          (absurd · (Bool.eq_false_iff.1 (hwaits rfl))) hgoesOn
    | set | remove =>
      rw [act]
      · generalize hrun : Action.run s _ = outcome at hacts ⊢
        obtain ⟨e | n, s₁⟩ := outcome
        · dsimp only
          split
          · exact hacts { t with phase := .acting rest } rfl rfl rfl rfl (fun _ => rfl) hgoesOn
          · exact hacts { t with phase := .following false } rfl rfl rfl rfl (fun _ => rfl) nofun
        · exact hacts { t with phase := .acting rest } rfl rfl rfl rfl (fun _ => rfl) hgoesOn
      · exact nofun

theorem advance_does (haborted : t.isAborted = false) (clock : Nat) (s : Store)
    (hwaits : (t.advance clock s).1 = .waits → t.cancelled = false) :
    t.Does s (t.deed? (t.advance clock s).2.1) (t.advance clock s).2.1 (t.advance clock s).2.2 := by
  have hrests : ∀ t' : RuleTask, (∀ actions, t.phase ≠ .acting actions) → t'.rule = t.rule →
      t'.fired = t.fired → t'.cancelled = t.cancelled →
      (∀ remaining, t'.phase.remaining? = some remaining → t.phase.remaining? = some remaining) →
      t.Does s (t.deed? t') t' s :=
    fun t' hphase hrule hfired hcancelled hremaining =>
      does_rests hrule hfired hcancelled (absurd · (Bool.eq_false_iff.1 haborted))
        (fun _ _ hacts => absurd hacts (hphase _)) hremaining (.refl _ s)
  unfold advance at hwaits ⊢
  cases hphase : t.phase with
  | ended => exact hrests _ (by rw [hphase]; exact nofun) rfl rfl rfl fun _ h => h
  | starting => exact hrests _ (by rw [hphase]; exact nofun) rfl rfl rfl nofun
  | following armed =>
    dsimp only
    split
    · exact finish_does t s
    · exact follow_does hphase haborted s
  | acting remaining =>
    rw [hphase] at hwaits
    exact act_does hphase haborted clock s hwaits
  | sleeping wakeUp remaining =>
    dsimp only
    split
    · exact hrests _ (by rw [hphase]; exact nofun) rfl rfl rfl (by rw [hphase]; exact fun _ h => h)
    · exact hrests _ (by rw [hphase]; exact nofun) rfl rfl rfl fun _ h => h

/-- Every step of a task is one of these. -/
theorem step_does (t : RuleTask) (clock : Nat) (s : Store) :
    t.Does s (t.deed? (t.step clock s).2.1) (t.step clock s).2.1 (t.step clock s).2.2 := by
  have htaken := step_taken t clock s
  generalize t.step clock s = stepped at htaken
  cases htaken with
  | stays hended =>
    refine does_rests rfl rfl rfl (fun haborted => ?_) (fun _ _ _ => hended) (fun _ h => h)
      (.refl _ s)
    simpa using (Bool.and_eq_true_iff.1 haborted).2
  | dropped => exact finish_does t s
  | advanced _ haborted hadvance hwaits =>
    have hdoes := advance_does haborted clock s (by rw [hadvance]; exact hwaits)
    rw [hadvance] at hdoes
    exact hdoes.working haborted _

/-- The deeds of a task up to now are those of its firings. Each of them has carried out the first
actions of the rule, and the last one the actions that are not left. -/
structure Recorded (t : RuleTask) (firings : List (List Action)) (deeds : List Deed) : Prop where
  deeds : deeds = Deed.ofFirings firings
  fired : firings.length = t.fired
  inOrder : ∀ done ∈ firings, done <+: t.rule.actions
  remaining : ∀ remaining, t.phase.remaining? = some remaining →
    ∃ earlier done, firings = earlier ++ [done] ∧ done ++ remaining = t.rule.actions

variable {firings : List (List Action)} {deeds : List Deed}

/-- Nothing was done before a task starts. -/
theorem Recorded.start (rule : Rule) (w : ConditionWatch) : (start rule w).Recorded [] [] :=
  ⟨rfl, rfl, nofun, nofun⟩

/-- A turn keeps the deeds in order. -/
theorem Recorded.turn {deed : Option Deed} (h : t.Recorded firings deeds)
    (hdoes : t.Does s deed t' s') : ∃ firings', t'.Recorded firings' (deeds ++ deed.toList) := by
  cases hdoes with
  | rests hrule hfired _ _ hremaining =>
    refine ⟨firings, ?_, ?_, ?_, ?_⟩
    · rw [Option.toList_none, List.append_nil, h.deeds]
    · rw [hfired, h.fired]
    · rw [hrule]
      exact h.inOrder
    · rw [hrule]
      exact fun remaining hleft => h.remaining remaining (hremaining remaining hleft)
  | fires _ hrule hfired _ hphase =>
    refine ⟨firings ++ [[]], ?_, ?_, ?_, ?_⟩
    · rw [h.deeds, Deed.ofFirings_append]
      rfl
    · rw [List.length_append, h.fired, hfired]
      rfl
    · rw [hrule]
      intro done hdone
      rcases List.mem_append.1 hdone with hdone | hdone
      · exact h.inOrder done hdone
      · cases List.mem_singleton.1 hdone
        exact List.nil_prefix
    · rw [hrule, hphase]
      rintro remaining ⟨⟩
      exact ⟨firings, [], rfl, rfl⟩
  | @acts _ action rest _ hphase hrule hfired _ _ hremaining =>
    obtain ⟨earlier, done, rfl, hactions⟩ := h.remaining (action :: rest) (by rw [hphase]; rfl)
    have hdone : (done ++ [action]) ++ rest = t.rule.actions := by
      rw [List.append_assoc]
      exact hactions
    refine ⟨earlier ++ [done ++ [action]], ?_, ?_, ?_, ?_⟩
    · rw [h.deeds, Deed.ofFirings_append, Deed.ofFirings_append, List.append_assoc]
      simp
    · rw [hfired, ← h.fired, List.length_append, List.length_append]
      rfl
    · rw [hrule]
      intro done' hdone'
      rcases List.mem_append.1 hdone' with hdone' | hdone'
      · exact h.inOrder done' (List.mem_append_left _ hdone')
      · cases List.mem_singleton.1 hdone'
        exact ⟨rest, hdone⟩
    · rw [hrule]
      intro remaining hleft
      rw [hremaining remaining hleft]
      exact ⟨earlier, done ++ [action], rfl, hdone⟩

/-- A task that rests keeps its deeds. -/
theorem Recorded.of_eq (h : t.Recorded firings deeds) (hrule : t'.rule = t.rule)
    (hfired : t'.fired = t.fired) (hphase : t'.phase = t.phase) : t'.Recorded firings deeds :=
  ⟨h.deeds, hfired ▸ h.fired, hrule ▸ h.inOrder, by rw [hphase, hrule]; exact h.remaining⟩

/-! ## The last deeds -/

/-- The task was cancelled, and has done `deeds` since, with the actions `left` before it then. -/
structure Winds (t : RuleTask) (left : List Action) (deeds : List Deed) : Prop where
  cancelled : t.cancelled = true
  atOnce : ∀ deed ∈ deeds, deed.ticks = 0
  inOrder : ∃ acted again, deeds = acted.map .acts ++ again ∧ acted <+: left ∧
    (again = [] ∧ (∀ remaining, t.phase.remaining? = some remaining → acted ++ remaining = left) ∨
      ∃ others, again = .fires :: others)

variable {left : List Action}

theorem Winds.lastDeeds (h : t.Winds left deeds) : LastDeeds left deeds := by
  obtain ⟨acted, again, hdeeds, hacted, hagain⟩ := h.inOrder
  exact ⟨h.atOnce, acted, again, hdeeds, hacted, hagain.imp_left And.left⟩

/-- A task that is cancelled has done nothing since. -/
theorem Winds.start (hcancelled : t.cancelled = true) :
    t.Winds (t.phase.remaining?.getD []) [] := by
  refine ⟨hcancelled, nofun, [], [], rfl, List.nil_prefix, .inl ⟨rfl, fun remaining h => ?_⟩⟩
  rw [h]
  rfl

theorem Winds.of_eq (h : t.Winds left deeds) (hcancelled : t'.cancelled = true)
    (hphase : t'.phase = t.phase) : t'.Winds left deeds :=
  ⟨hcancelled, h.atOnce, by rw [hphase]; exact h.inOrder⟩

theorem Winds.turn {deed : Option Deed} (h : t.Winds left deeds) (hdoes : t.Does s deed t' s') :
    t'.Winds left (deeds ++ deed.toList) := by
  have hcancelled : t'.cancelled = true := hdoes.cancelled_eq.trans h.cancelled
  have hatOnce : ∀ d ∈ deeds ++ deed.toList, d.ticks = 0 := by
    intro d hd
    rcases List.mem_append.1 hd with hd | hd
    · exact h.atOnce d hd
    · cases Option.mem_toList.1 hd
      exact hdoes.ticks_of_cancelled h.cancelled
  obtain ⟨acted, again, rfl, hacted, hagain⟩ := h.inOrder
  refine ⟨hcancelled, hatOnce, ?_⟩
  rcases hagain with ⟨rfl, hleft⟩ | ⟨others, rfl⟩
  · cases hdoes with
    | rests _ _ _ _ hremaining =>
      exact ⟨acted, [], by simp, hacted, .inl ⟨rfl, fun remaining h' =>
        hleft remaining (hremaining remaining h')⟩⟩
    | fires => exact ⟨acted, [.fires], by simp, hacted, .inr ⟨[], rfl⟩⟩
    | @acts _ action rest _ hphase _ _ _ _ hremaining =>
      have hall : (acted ++ [action]) ++ rest = left := by
        rw [List.append_assoc]
        exact hleft (action :: rest) (by rw [hphase]; rfl)
      refine ⟨acted ++ [action], [], by simp, ⟨rest, hall⟩, .inl ⟨rfl, fun remaining h' => ?_⟩⟩
      rw [hremaining remaining h']
      exact hall
  · exact ⟨acted, .fires :: (others ++ deed.toList), by simp, hacted, .inr ⟨_, rfl⟩⟩

end RuleTask

end Switchboard
