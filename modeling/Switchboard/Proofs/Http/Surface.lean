import Switchboard.Proofs.Http.Exchange
import Switchboard.Proofs.Store.Keeping
/-!
# What requests do to the store

A request that writes asks for a write of the store (`Request.Asks`), or it is refused before the
store is asked. What is answered with success is that write and nothing else (`Request.Written`).
All other requests keep to the watch that they wait for, at their arrival and whenever they look
into their mailbox or give up (`Handling.Keeps`). So the interface refines the store
(`Exchange.refines_store`): all that is done through it are writes that a caller of the store could
have made.
-/

namespace Switchboard

variable {s s' : Store} {r : Request} {url : String} {clock timeout : Nat} {response : Response}

/-! ## Requests that wait -/

/-- A request that waits, or that was answered after a wait, has kept to its own watch. No watch is
left of one that is answered. -/
structure Handling.Keeps (own : WatchId) (s : Store) (handled : Handling × Store) : Prop where
  keepsTo : s.KeepsTo (· = own) handled.2
  waits : ∀ p, handled.1 = .waiting p → p.watch = own
  answered : ∀ response, handled.1 = .answered response →
    handled.2.registry.find? own = none ∧ handled.2.registry.bell own = .silent

theorem Handling.Keeps.of_keepsTo {own : WatchId} {handled : Handling × Store}
    (h : s.KeepsTo (· = own) s') (hkeeps : Handling.Keeps own s' handled) :
    Handling.Keeps own s handled :=
  ⟨h.trans hkeeps.keepsTo, hkeeps.waits, hkeeps.answered⟩

namespace LongPoll

theorem finish_keeps (p : LongPoll) (s : Store) (r : Except StoreError Entry) :
    Handling.Keeps p.watch s (p.finish s r) :=
  ⟨s.drop_keepsTo p.watch, nofun, fun _ _ =>
    ⟨s.registry.find?_drop_self p.watch, s.registry.bell_drop_self p.watch⟩⟩

theorem waits_keeps {p : LongPoll} (h : s.KeepsTo (· = p.watch) s') :
    Handling.Keeps p.watch s (.waiting p, s') :=
  ⟨h, fun _ hp => Handling.waiting.inj hp ▸ rfl, nofun⟩

/-- A look into the mailbox and at the clock. -/
theorem poll_keeps (p : LongPoll) (clock : Nat) (s : Store) (looks : Nat) :
    Handling.Keeps p.watch s (p.poll clock s looks) := by
  induction looks generalizing s with
  | zero => exact waits_keeps (.refl _ s)
  | succ looks ih =>
    have hpoll := s.poll_keepsTo p.watch
    rw [poll]
    rcases hserved : s.poll p.watch with ⟨found | _ | _, s₁⟩ <;> rw [hserved] at hpoll
    · dsimp only
      cases p.answer? found with
      | some r => exact (p.finish_keeps s₁ r).of_keepsTo hpoll
      | none => exact (ih s₁).of_keepsTo hpoll
    · dsimp only
      split
      · exact (p.finish_keeps s₁ _).of_keepsTo hpoll
      · exact waits_keeps hpoll
    · exact (p.finish_keeps s₁ _).of_keepsTo hpoll

/-- The start of a wait: the address is refused and nothing happens, or a watch is registered. -/
theorem start_keeps (s : Store) (clock timeout : Nat) (headOnly : Bool) (url : String)
    (since : Option Nat) :
    (∃ response, start s clock timeout headOnly url since = (.answered response, s)) ∨
      Handling.Keeps ⟨s.registry.issued + 1⟩ s (start s clock timeout headOnly url since) := by
  unfold start
  cases s.parseConcrete url with
  | error e => exact .inl ⟨_, rfl⟩
  | ok a =>
    cases hwatch : s.watch url with
    | error e => exact .inl ⟨_, rfl⟩
    | ok registered =>
      obtain ⟨id, s₁⟩ := registered
      obtain ⟨-, -, rfl, -⟩ := Store.watch_eq_ok hwatch
      have hpolled := poll_keeps
        ⟨url, since, ⟨s.registry.issued + 1⟩, clock + timeout, headOnly⟩ clock s₁ 2
      exact .inr (hpolled.of_keepsTo (Store.watch_keepsTo hwatch))

end LongPoll

/-! ## Requests that write -/

namespace Request

/-- The request writes, if it is carried out. -/
def Writes (r : Request) : Prop :=
  (r.method = .put ∨ r.method = .delete) ∧ ∃ tail, r.route = .status tail

/-- The request names the address `url` of the store, by its decoded path, and the precondition
`expected`, by the revision in its query; without a revision nothing is expected. -/
structure Names (r : Request) (s : Store) (url : String) (expected : Precondition) : Prop where
  address : ∃ tail path, r.route = .status tail ∧
    Octets.text? (Octets.unescape tail) = some path ∧ url = s.scheme ++ "://" ++ path
  expects : (r.revision? = some none ∧ expected = .unchecked) ∨
    ∃ text, r.revision? = some (some text) ∧ Precondition.parse text = .ok expected

/-- The request asks for a write. -/
inductive Asks (r : Request) (s : Store) : Write → Prop
  | set {url : String} {value : Json} {expected : Precondition} (hmethod : r.method = .put)
      (hnames : r.Names s url expected)
      (htype : ∃ type, r.contentType = some type ∧ MediaType.isJson type = true)
      (hbody : Json.parseFront r.body = .ok value) : Asks r s (.set url value expected)
  | remove {url : String} {expected : Precondition} (hmethod : r.method = .delete)
      (hnames : r.Names s url expected) : Asks r s (.remove url expected)

/-- The revision in the query is no precondition, or it is the one that the request names. -/
theorem precondition_cases {tail : List UInt8} {path : String} {revision : Option String}
    (hroute : r.route = .status tail) (hpath : Octets.text? (Octets.unescape tail) = some path)
    (hrevision : r.revision? = some revision) :
    (∃ e, precondition revision = .error e) ∨ ∃ expected, precondition revision = .ok expected ∧
      r.Names s (addressOf s path) (expected.getD .unchecked) := by
  cases revision with
  | none => exact .inr ⟨none, rfl, ⟨tail, path, hroute, hpath, rfl⟩, .inl ⟨hrevision, rfl⟩⟩
  | some text =>
    cases hparse : Precondition.parse text with
    | error e => exact .inl ⟨e, by rw [precondition, hparse]; rfl⟩
    | ok expected =>
      refine .inr ⟨some expected, by rw [precondition, hparse]; rfl,
        ⟨tail, path, hroute, hpath, rfl⟩, .inr ⟨text, hrevision, hparse⟩⟩

/-- No refusal of the store is answered with success. -/
theorem status_ofError_ne (e : StoreError) : (Response.ofError e).status ≠ 200 := by
  cases e <;> exact nofun

/-- What a request that writes comes to: it is refused before the store is asked, the write that it
asks for fails, or that write is carried out. -/
inductive Written (r : Request) (s : Store) : Handling × Store → Prop
  | refused {response : Response} (hstatus : response.status ≠ 200) :
      Written r s (.answered response, s)
  | failed {w : Write} {e : StoreError} (hasks : r.Asks s w) (hwrite : s.write w = (.error e, s)) :
      Written r s (.answered (.ofError e), s)
  | done {w : Write} {n : Nat} {s' : Store} (hasks : r.Asks s w) (hwrite : s.write w = (.ok n, s'))
      (hrevision : s'.revision = n) : Written r s (.answered (.ofRevision n), s')

theorem Asks.written {w : Write} (h : r.Asks s w) : r.Written s (now (ofWrite (s.write w))) := by
  rcases hw : s.write w with ⟨e | n, s'⟩
  · cases Store.write_eq_error hw
    exact .failed h hw
  · obtain ⟨a, hwrote⟩ := Store.write_wrote hw
    obtain ⟨left, hwritten⟩ := hwrote.written
    exact .done h hw hwritten.revision_root

namespace Written

variable {handled : Handling × Store}

/-- It is answered with success only if it asks for a write that succeeds. -/
theorem answer (h : r.Written s handled) :
    ∃ response, handled.1 = .answered response ∧ (response.status = 200 →
      ∃ w n, r.Asks s w ∧ s.write w = (.ok n, handled.2) ∧ response = .ofRevision n ∧
        handled.2.revision = n) := by
  cases h with
  | refused hstatus => exact ⟨_, rfl, fun hsuccess => absurd hsuccess hstatus⟩
  | failed => exact ⟨_, rfl, fun hsuccess => absurd hsuccess (status_ofError_ne _)⟩
  | done hasks hwrite hrevision => exact ⟨_, rfl, fun _ => ⟨_, _, hasks, hwrite, rfl, hrevision⟩⟩

end Written

theorem handleWrite_written {tail : List UInt8} {path : String} {revision : Option String}
    (hmethod : r.method = .put) (hroute : r.route = .status tail)
    (hpath : Octets.text? (Octets.unescape tail) = some path)
    (hrevision : r.revision? = some revision) :
    r.Written s (now (r.handleWrite s (addressOf s path) revision)) := by
  unfold handleWrite
  split
  · next htype =>
    cases hbody : Json.parseFront r.body with
    | error fault => exact .refused nofun
    | ok value =>
      rcases precondition_cases hroute hpath hrevision with ⟨e, he⟩ | ⟨expected, hexpected, hnames⟩
      · rw [he]
        exact .refused (status_ofError_ne e)
      · rw [hexpected]
        refine (Asks.set hmethod hnames ?_ hbody).written
        cases htext : r.contentType with
        | none =>
          rw [htext] at htype
          cases htype
        | some type =>
          rw [htext] at htype
          exact ⟨type, rfl, htype⟩
  · exact .refused nofun

theorem handleRemove_written {tail : List UInt8} {path : String} {revision : Option String}
    (hmethod : r.method = .delete) (hroute : r.route = .status tail)
    (hpath : Octets.text? (Octets.unescape tail) = some path)
    (hrevision : r.revision? = some revision) :
    r.Written s (now (handleRemove s (addressOf s path) revision)) := by
  unfold handleRemove
  rcases precondition_cases hroute hpath hrevision with ⟨e, he⟩ | ⟨expected, hexpected, hnames⟩
  · rw [he]
    exact .refused (status_ofError_ne e)
  · rw [hexpected]
    exact (Asks.remove hmethod hnames).written

/-- What becomes of a request that writes. -/
theorem handle_written (h : r.Writes) (s : Store) (clock timeout : Nat) :
    r.Written s (r.handle s clock timeout) := by
  obtain ⟨hmethod, tail, hroute⟩ := h
  have hoptions : r.method ≠ .options := by
    rcases hmethod with hmethod | hmethod <;> rw [hmethod] <;> decide
  have hbad : (Response.bare 400).status ≠ 200 := by decide
  rw [handle, if_neg hoptions, hroute]
  dsimp only
  unfold handleNode
  cases hpath : Octets.text? (Octets.unescape tail) with
  | none => rcases hmethod with hmethod | hmethod <;> rw [hmethod] <;> exact .refused hbad
  | some path =>
    cases hrevision : r.revision? with
    | none => rcases hmethod with hmethod | hmethod <;> rw [hmethod] <;> exact .refused hbad
    | some revision =>
      rcases hmethod with hmethod | hmethod <;> rw [hmethod]
      · exact handleWrite_written hmethod hroute hpath hrevision
      · exact handleRemove_written hmethod hroute hpath hrevision

/-- A write that the request asks for is the one that is carried out. -/
theorem Asks.handle {w : Write} (h : r.Asks s w) :
    r.handle s clock timeout = now (ofWrite (s.write w)) := by
  cases h with
  | @set url value expected hmethod hnames htype hbody =>
    obtain ⟨⟨tail, path, hroute, hpath, rfl⟩, hexpects⟩ := hnames
    obtain ⟨type, htype, hjson⟩ := htype
    rcases hexpects with ⟨hrevision, rfl⟩ | ⟨text, hrevision, hparse⟩
    · simp only [Request.handle, hmethod, hroute, handleNode, hpath, hrevision, handleWrite, htype,
        Option.map_some, hjson, Option.getD_some, hbody, precondition, reduceCtorEq, if_false,
        if_true]
      rfl
    · simp only [Request.handle, hmethod, hroute, handleNode, hpath, hrevision, handleWrite, htype,
        Option.map_some, hjson, Option.getD_some, hbody, precondition, hparse, Except.map,
        reduceCtorEq, if_false, if_true]
      rfl
  | @remove url expected hmethod hnames =>
    obtain ⟨⟨tail, path, hroute, hpath, rfl⟩, hexpects⟩ := hnames
    rcases hexpects with ⟨hrevision, rfl⟩ | ⟨text, hrevision, hparse⟩
    · simp only [Request.handle, hmethod, hroute, handleNode, hpath, hrevision, handleRemove,
        precondition, reduceCtorEq, if_false]
      rfl
    · simp only [Request.handle, hmethod, hroute, handleNode, hpath, hrevision, handleRemove,
        precondition, hparse, Except.map, reduceCtorEq, if_false]
      rfl

/-- What becomes of a request that does not write: nothing happens, or it waits for a watch of its
own. -/
theorem handle_of_not_writes (h : ¬ r.Writes) (s : Store) (clock timeout : Nat) :
    (∃ response, r.handle s clock timeout = (.answered response, s)) ∨
      Handling.Keeps ⟨s.registry.issued + 1⟩ s (r.handle s clock timeout) := by
  unfold handle
  split
  · exact .inl ⟨_, rfl⟩
  · split
    · exact .inl ⟨_, rfl⟩
    · split <;> exact .inl ⟨_, rfl⟩
    · exact .inl ⟨_, rfl⟩
    · next tail hroute =>
      have hread : ∀ headOnly url revision,
          (∃ response, handleRead s clock timeout headOnly url revision =
            (.answered response, s)) ∨ Handling.Keeps ⟨s.registry.issued + 1⟩ s
              (handleRead s clock timeout headOnly url revision) := by
        intro headOnly url revision
        unfold handleRead
        split
        iterate 3 exact .inl ⟨_, rfl⟩
        all_goals exact LongPoll.start_keeps s clock timeout headOnly url _
      unfold handleNode
      split
      iterate 2 exact .inl ⟨_, rfl⟩
      all_goals
        split
        · split
          · next hmethod => exact absurd ⟨.inl hmethod, tail, hroute⟩ h
          · next hmethod => exact absurd ⟨.inr hmethod, tail, hroute⟩ h
          · exact hread _ _ _
        · exact .inl ⟨_, rfl⟩

end Request

/-! ## Exchanges -/

namespace Exchange

variable {e : Exchange} {own : WatchId}

/-- The event is one of the request itself: a look, or its time is over. -/
def Event.IsOwn (event : Event) : Prop :=
  event = .look ∨ event = .expire

/-- The request waits for the watch `own`, if it waits. -/
def WaitsFor (own : WatchId) (e : Exchange) : Prop :=
  ∀ p, e.handling = .waiting p → p.watch = own

/-- What a request does of its own while it waits. -/
theorem WaitsFor.step_own {event : Event} (h : WaitsFor own e) (hown : event.IsOwn) :
    WaitsFor own (e.step event) ∧ e.store.KeepsTo (· = own) (e.step event).store ∧
      (∀ p response, e.handling = .waiting p → (e.step event).handling = .answered response →
        (e.step event).store.registry.find? own = none) := by
  cases hhandling : e.handling with
  | answered response =>
    have hstep : e.step event = e := by rw [step, hhandling]
    rw [hstep]
    exact ⟨h, .refl _ e.store, fun _ _ hwaiting => by cases hwaiting⟩
  | waiting p =>
    have hp : p.watch = own := h p hhandling
    have hstep : ∀ handled : Handling × Store, Handling.Keeps p.watch e.store handled →
        e.step event = ⟨handled.1, e.clock, handled.2⟩ →
        WaitsFor own (e.step event) ∧ e.store.KeepsTo (· = own) (e.step event).store ∧
          (∀ q response, Handling.waiting p = .waiting q →
            (e.step event).handling = .answered response →
            (e.step event).store.registry.find? own = none) := by
      intro handled hkeeps hstep
      rw [hstep]
      rw [hp] at hkeeps
      exact ⟨hkeeps.waits, hkeeps.keepsTo, fun _ response _ hanswered =>
        (hkeeps.answered response hanswered).1⟩
    rcases hown with rfl | rfl
    · exact hstep _ (p.poll_keeps e.clock e.store 2) (by rw [step, hhandling])
    · by_cases hlate : p.deadline ≤ e.clock
      · refine hstep _ (p.finish_keeps e.store (e.store.get p.url)) ?_
        rw [step, hhandling]
        exact if_pos hlate
      · have hwaits := LongPoll.waits_keeps (p := p) (.refl _ e.store)
        refine hstep _ hwaits ?_
        rw [step, hhandling]
        refine (if_neg hlate).trans ?_
        rw [← hhandling]

/-- Whatever happens, a request waits for no other watch than before. -/
theorem WaitsFor.step (h : WaitsFor own e) (event : Event) : WaitsFor own (e.step event) := by
  cases event with
  | look => exact (h.step_own (.inl rfl)).1
  | expire => exact (h.step_own (.inr rfl)).1
  | call | pass =>
    intro p hp
    refine h p ?_
    rw [Exchange.step] at hp
    split at hp
    · exact hp
    · exact hp

theorem WaitsFor.after (h : WaitsFor own e) (events : List Event) :
    WaitsFor own (e.after events) := by
  induction events generalizing e with
  | nil => exact h
  | cons event events ih => exact ih (h.step event)

end Exchange

end Switchboard
