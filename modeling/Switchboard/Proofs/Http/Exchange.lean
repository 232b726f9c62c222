import Switchboard.Http.Handler
import Switchboard.Proofs.Store.Attention
import Switchboard.Proofs.Store.Expansion
/-!
# Reads that wait

A read that names a known revision, or that the node is to appear, may have to wait
(`Request.LongPolls`). While it waits it keeps up with the watch of its node (`LongPoll.Watches`),
and when it looks into its mailbox and at the clock, it is answered or it goes on waiting, asleep
(`LongPoll.Watches.poll`). What it can be answered is said by `LongPoll.Reply`.

An exchange (`Exchange`) is such a request with the clock and the store. It ends with the answer:
from then on nothing is recorded any more, so that the store of an exchange that is answered is the
one at the moment of answering.
-/

namespace Switchboard

/-- What a reader knows already: no node, or one with a revision. An unchecked read knows
nothing. -/
def Precondition.known? : Precondition → Option (Option Nat)
  | unchecked => none
  | mustNotExist => some none
  | exact revision => some (some revision.toNat)

/-- A read of the node at `url` that is to be answered when it differs from what is known. -/
structure Request.LongPolls (r : Request) (s : Store) (url : String) (since : Option Nat) :
    Prop where
  method : r.method = .get
  address : ∃ tail path, r.route = .status tail ∧ Octets.text? (Octets.unescape tail) = some path ∧
    url = addressOf s path
  known : ∃ text expected, r.revision? = some (some text) ∧
    Precondition.parse text = .ok expected ∧ expected.known? = some since

/-- A read of the node at `url`, to be answered at once. -/
structure Request.Reads (r : Request) (s : Store) (url : String) : Prop where
  method : r.method = .get
  address : ∃ tail path, r.route = .status tail ∧ Octets.text? (Octets.unescape tail) = some path ∧
    url = addressOf s path
  known : r.revision? = some none ∨
    ∃ text, r.revision? = some (some text) ∧ Precondition.parse text = .ok .unchecked

section

variable {r : Request} {s : Store} {url : String} {since : Option Nat} {clock timeout : Nat}

/-- A read that may wait is handled as such. -/
theorem Request.LongPolls.handle (h : r.LongPolls s url since) :
    r.handle s clock timeout = LongPoll.start s clock timeout false url since := by
  obtain ⟨tail, path, hroute, hpath, rfl⟩ := h.address
  obtain ⟨text, expected, hrevision, hparse, hknown⟩ := h.known
  simp only [Request.handle, h.method, hroute, handleNode, hpath, hrevision, handleRead,
    precondition, hparse, Except.map, reduceCtorEq, if_false, decide_false]
  cases expected with
  | unchecked => cases hknown
  | mustNotExist =>
    cases hknown
    rfl
  | exact revision =>
    cases hknown
    rfl

/-- A plain read is answered with what is read. -/
theorem Request.Reads.handle (h : r.Reads s url) :
    r.handle s clock timeout = (.answered (.ofRead (s.get url)), s) := by
  obtain ⟨tail, path, hroute, hpath, rfl⟩ := h.address
  rcases h.known with hrevision | ⟨text, hrevision, hparse⟩
  · simp only [Request.handle, h.method, hroute, handleNode, hpath, hrevision, handleRead,
      precondition, reduceCtorEq, if_false, decide_false]
    rfl
  · simp only [Request.handle, h.method, hroute, handleNode, hpath, hrevision, handleRead,
      precondition, hparse, Except.map, reduceCtorEq, if_false, decide_false]
    rfl

end

/-- Only what was read is answered with success. -/
theorem Response.eq_ok_of_status {r : Except StoreError Entry} (h : (ofRead r).status = 200) :
    ∃ entry, r = .ok entry := by
  cases r with
  | ok entry => exact ⟨entry, rfl⟩
  | error e => cases e <;> cases h

namespace LongPoll

variable {p : LongPoll} {s : Store} {clock : Nat} {id : WatchId}

/-! ## Answers -/

/-- What a read that waits for something new at `url` can be answered when the store is `s`. -/
inductive Reply (url : String) (since : Option Nat) (deadline clock : Nat) (s : Store) :
    Except StoreError Entry → Prop
  /-- There is a node, with another revision than is known. -/
  | news (entry : Entry) (hget : s.get url = .ok entry) (hnew : since ≠ some entry.revision) :
      Reply url since deadline clock s (.ok entry)
  /-- The node with the known revision is not there any more. -/
  | gone (n : Nat) (e : StoreError) (hsince : since = some n)
      (hconcrete : ∃ a, s.parseConcrete url = .ok a) (hget : s.get url = .error e) :
      Reply url since deadline clock s (.error (.notFound url))
  /-- The address names no node of the store, or the time is over: what a plain read gives. -/
  | plain (h : (∃ e, s.parseConcrete url = .error e) ∨ deadline ≤ clock) :
      Reply url since deadline clock s (s.get url)

/-- Watches and bells do not matter for an answer. -/
theorem Reply.withRegistry {url : String} {since : Option Nat} {deadline : Nat}
    {r : Except StoreError Entry} (registry : Registry) (h : Reply url since deadline clock s r) :
    Reply url since deadline clock { s with registry } r := by
  cases h with
  | news entry hget hnew => exact .news entry hget hnew
  | gone n e hsince hconcrete hget => exact .gone n e hsince hconcrete hget
  | plain h => exact .plain (s := { s with registry }) h

/-- An entry in an answer is the one that is read, and something new unless the time is over. -/
theorem Reply.of_ok {url : String} {since : Option Nat} {deadline : Nat} {entry : Entry}
    {r : Except StoreError Entry} (h : Reply url since deadline clock s r) (hr : r = .ok entry) :
    s.get url = .ok entry ∧ (since ≠ some entry.revision ∨ deadline ≤ clock) := by
  cases h with
  | news entry' hget hnew =>
    cases hr
    exact ⟨hget, .inl hnew⟩
  | gone => cases hr
  | plain hplain =>
    refine ⟨hr, ?_⟩
    rcases hplain with ⟨e, he⟩ | hlate
    · rw [Store.get, he] at hr
      cases hr
    · exact .inr hlate

/-- What there is while there is nothing new: the node with the known revision, or none. -/
def Known (url : String) (since : Option Nat) (s : Store) : Prop :=
  match since with
  | some n => ∃ entry, s.get url = .ok entry ∧ entry.revision = n
  | none => ∃ e, s.get url = .error e

theorem answer?_present (p : LongPoll) (key : String) (entry : Entry) :
    p.answer? [(key, entry)] =
      if p.since = some entry.revision then none else some (.ok entry) := by
  unfold answer?
  cases p.since with
  | none => rfl
  | some n =>
    rw [List.head?_cons]
    by_cases hn : entry.revision = n
    · simp [hn]
    · simp [hn, Ne.symm hn]

theorem answer?_absent (p : LongPoll) :
    p.answer? [] = p.since.map fun _ => .error (.notFound p.url) := by
  unfold answer?
  cases p.since <;> rfl

/-! ## Keeping up -/

/-- The read keeps up with the watch of its node: while the mailbox is empty, nothing is new. -/
structure Watches (p : LongPoll) (s : Store) : Prop where
  store : s.InOrder
  address : ∃ a, Address.parse p.url = .ok a ∧ a.hasWildcard = false
  attends : ∃ w, s.Attends p.watch w (fun found => p.answer? found = none) ∧ w.key = p.url

namespace Watches

/-- What the watch finds now is the node that is read at the address. -/
theorem result_cases {w : Watch} (h : p.Watches s) (clock : Nat)
    (hw : s.registry.find? p.watch = some w) (hkey : w.key = p.url) :
    (∃ r, p.answer? (w.result s.tree) = some r ∧ Reply p.url p.since p.deadline clock s r) ∨
      (p.answer? (w.result s.tree) = none ∧ Known p.url p.since s) := by
  obtain ⟨a, ha, hconcrete⟩ := h.address
  have hfresh := h.store.fresh hw
  have hpattern : w.pattern = a := Except.ok.inj (hfresh.key.symm.trans (hkey ▸ ha))
  have hparse : s.parse p.url = .ok w.pattern := by
    rw [Store.parse, ha, hpattern]
    exact if_pos (hpattern ▸ hfresh.scheme)
  obtain ⟨hpresent, habsent⟩ :=
    Store.expand_of_concrete hparse (hpattern ▸ hconcrete) w.key
  rw [Watch.result]
  cases hget : s.get p.url with
  | ok entry =>
    rw [hpresent entry hget, answer?_present]
    split
    · next hsince =>
      rw [hsince]
      exact .inr ⟨rfl, entry, hget, rfl⟩
    · next hsince => exact .inl ⟨_, rfl, .news entry hget hsince⟩
  | error e =>
    rw [habsent e hget, answer?_absent]
    cases hsince : p.since with
    | none => exact .inr ⟨rfl, e, hget⟩
    | some n =>
      have hnamed : s.parseConcrete p.url = .ok a :=
        Store.parseConcrete_eq_ok_iff.2 ⟨ha, hpattern ▸ hfresh.scheme, hconcrete⟩
      exact .inl ⟨_, rfl, .gone n e rfl ⟨a, hnamed⟩ hget⟩

/-- Calls of others leave a read keeping up. -/
theorem call {c : Call} (h : p.Watches s) (hc : c.consumer? ≠ some p.watch) :
    p.Watches (s.call c).2 ∧ ((s.registry.bell p.watch).waiter ≠ .away →
      ((s.call c).2.registry.bell p.watch).waiter ≠ .away) := by
  obtain ⟨w, hw, hkey⟩ := h.attends
  obtain ⟨w', hw', hkey', -, hbell⟩ := hw.call h.store hc
  exact ⟨⟨h.store.call c, h.address, w', hw', hkey'.trans hkey⟩, hbell⟩

/-- A read that is asleep knows what there is. -/
theorem known (h : p.Watches s) (hasleep : (s.registry.bell p.watch).waiter = .parked) :
    Known p.url p.since s := by
  obtain ⟨w, hw, hkey⟩ := h.attends
  have hnone := hw.told (hw.heeds hasleep)
  rcases h.result_cases 0 hw.registered hkey with ⟨r, hr, -⟩ | ⟨-, hknown⟩
  · rw [hnone] at hr
    cases hr
  · exact hknown

end Watches

/-- What comes of a look into the mailbox and at the clock: the read is answered, or it goes on
waiting, asleep. -/
inductive Looked (p : LongPoll) (clock : Nat) (s : Store) : Handling × Store → Prop
  | answered {r : Except StoreError Entry} (registry : Registry)
      (hreply : Reply p.url p.since p.deadline clock s r) :
      Looked p clock s (.answered (trim p.headOnly (.ofRead r)), { s with registry })
  | waits (registry : Registry) (hwatches : p.Watches { s with registry })
      (hasleep : (registry.bell p.watch).waiter = .parked) :
      Looked p clock s (.waiting p, { s with registry })

/-- What a look does does not depend on a look before. -/
theorem Looked.of_withRegistry {looked : Handling × Store} {registry : Registry}
    (h : p.Looked clock { s with registry } looked) : p.Looked clock s looked := by
  cases h with
  | answered after hreply => exact .answered after (hreply.withRegistry s.registry)
  | waits after hwatches hasleep => exact .waits after hwatches hasleep

/-- A look into an empty mailbox. -/
theorem Watches.looked_of_empty {w : Watch} (h : p.Watches s) (looks : Nat)
    (hw : s.Attends p.watch w (fun found => p.answer? found = none)) (hkey : w.key = p.url)
    (hempty : w.pending = none) : p.Looked clock s (p.poll clock s (looks + 1)) := by
  obtain ⟨hpoll, hattends, hasleep⟩ := hw.poll_empty h.store hempty
  rw [poll, hpoll]
  dsimp only
  split
  · next hlate => exact .answered _ (.plain (.inr hlate))
  · exact .waits _ ⟨h.store.call (.poll p.watch), h.address, w, hattends, hkey⟩ hasleep

/-- A look into the mailbox. If what is in it is nothing new, a second look follows. -/
theorem Watches.looked (h : p.Watches s) (clock : Nat) : p.Looked clock s (p.poll clock s 2) := by
  obtain ⟨w, hw, hkey⟩ := h.attends
  cases hpending : w.pending with
  | none => exact h.looked_of_empty 1 hw hkey hpending
  | some found =>
    obtain ⟨hpoll, hattends⟩ := hw.poll_filled h.store hpending
    rw [poll, hpoll]
    dsimp only
    rcases h.result_cases clock hw.registered hkey with ⟨r, hr, hreply⟩ | ⟨hnone, -⟩
    · rw [hr]
      exact .answered _ hreply
    · rw [hnone]
      have hnothing : ∀ found, found = w.result s.tree → p.answer? found = none :=
        fun found hfound => hfound ▸ hnone
      have hattends' := hattends.imp hnothing
      have hwatches : p.Watches (s.call (.poll p.watch)).2 :=
        ⟨h.store.call _, h.address, _, hattends', hkey⟩
      exact (hwatches.looked_of_empty 0 hattends' hkey rfl).of_withRegistry

/-- The start of a read that may wait: its address is refused, or it looks for the first time at the
watch that it has registered. -/
theorem start_cases (hs : s.InOrder) (clock timeout : Nat) (url : String) (since : Option Nat) :
    (∃ e, s.parseConcrete url = .error e ∧
      start s clock timeout false url since = (.answered (.ofRead (.error e)), s)) ∨
    ∃ watched, (LongPoll.mk url since ⟨s.registry.issued + 1⟩ (clock + timeout) false).Watches
        { s with registry := watched } ∧
      start s clock timeout false url since =
        (LongPoll.mk url since ⟨s.registry.issued + 1⟩ (clock + timeout) false).poll clock
          { s with registry := watched } 2 := by
  unfold start
  cases hconcrete : s.parseConcrete url with
  | error e => exact .inl ⟨e, rfl, rfl⟩
  | ok a =>
    obtain ⟨hparse, hscheme, hwild⟩ := Store.parseConcrete_eq_ok_iff.1 hconcrete
    have hwatch : s.watch url = .ok (⟨s.registry.issued + 1⟩,
        { s with registry := (s.registry.register a url s.tree).2 }) := by
      rw [Store.watch, Store.parse, hparse]
      dsimp only
      rw [if_pos hscheme]
      rfl
    obtain ⟨w, hw, hkey, -⟩ := Store.watch_attends hs hwatch
    refine .inr ⟨(s.registry.register a url s.tree).2, ⟨?_, ⟨a, hparse, hwild⟩, w, ?_, hkey⟩, ?_⟩
    · have hcall : { s with registry := (s.registry.register a url s.tree).2 } =
          (s.call (.watch url)).2 := by
        simp only [Store.call, hwatch]
      exact hcall ▸ hs.call _
    · exact hw.imp fun _ hfalse => hfalse.elim
    · rw [hwatch]

end LongPoll

/-! ## Exchanges -/

/-- A request with the clock and the store. -/
structure Exchange where
  handling : Handling
  clock : Nat
  store : Store

/-- What can happen while a request waits. -/
inductive Exchange.Event where
  /-- Somebody else makes a call. -/
  | call (c : Call)
  /-- Time passes. -/
  | pass (milliseconds : Nat)
  /-- The request looks into its mailbox and at the clock. -/
  | look
  /-- The request looks at the clock, but not into its mailbox. -/
  | expire

namespace Exchange

/-- The exchange after an event; one that is answered is over. -/
def step (e : Exchange) (event : Event) : Exchange :=
  match e.handling with
  | .answered _ => e
  | .waiting p =>
    match event with
    | .call c => { e with store := (e.store.call c).2 }
    | .pass milliseconds => { e with clock := e.clock + milliseconds }
    | .look =>
      let (handling, store) := p.poll e.clock e.store 2
      { e with handling, store }
    | .expire =>
      if p.deadline ≤ e.clock then
        let (handling, store) := p.finish e.store (e.store.get p.url)
        { e with handling, store }
      else e

/-- The exchange after a run. -/
def after (e : Exchange) (events : List Event) : Exchange :=
  events.foldl step e

/-- An exchange that is answered is over. -/
theorem after_answered {e : Exchange} {response : Response} (h : e.handling = .answered response)
    (events : List Event) : e.after events = e := by
  induction events with
  | nil => rfl
  | cons event events ih =>
    have hstep : e.step event = e := by rw [step, h]
    show (e.step event).after events = e
    rw [hstep, ih]

end Exchange

/-- The exchange that starts with a request. -/
def Request.exchange (r : Request) (s : Store) (clock timeout : Nat) : Exchange :=
  ⟨(r.handle s clock timeout).1, clock, (r.handle s clock timeout).2⟩

namespace Exchange

variable {e : Exchange} {s : Store} {url : String} {since : Option Nat} {id : WatchId}
  {deadline clock timeout : Nat}

/-- The exchange of a read for something new at `url` that watches under the number `id`: it waits
and keeps up, or it is answered what can be answered. -/
inductive Polls (url : String) (since : Option Nat) (id : WatchId) (deadline : Nat) :
    Exchange → Prop
  | waiting {clock : Nat} {s : Store}
      (hwatches : (LongPoll.mk url since id deadline false).Watches s)
      (hthere : (s.registry.bell id).waiter ≠ .away) :
      Polls url since id deadline ⟨.waiting (.mk url since id deadline false), clock, s⟩
  | answered {r : Except StoreError Entry} {clock : Nat} {s : Store}
      (hreply : LongPoll.Reply url since deadline clock s r) :
      Polls url since id deadline ⟨.answered (.ofRead r), clock, s⟩

/-- A look leads from waiting to waiting or to an answer. -/
theorem polls_of_looked {looked : Handling × Store}
    (h : (LongPoll.mk url since id deadline false).Looked clock s looked) :
    Polls url since id deadline ⟨looked.1, clock, looked.2⟩ := by
  cases h with
  | answered registry hreply => exact .answered (hreply.withRegistry registry)
  | waits registry hwatches hasleep =>
    refine .waiting hwatches ?_
    show (registry.bell id).waiter ≠ .away
    rw [show (registry.bell id).waiter = .parked from hasleep]
    exact nofun

/-- An event leads from waiting to waiting or to an answer, if it is not a call that takes part in
the watch. -/
theorem Polls.step {event : Event} (h : Polls url since id deadline e)
    (hothers : ∀ c, event = .call c → c.consumer? ≠ some id) :
    Polls url since id deadline (e.step event) := by
  cases h with
  | answered hreply => exact .answered hreply
  | @waiting clock s hwatches hthere =>
    cases event with
    | call c =>
      obtain ⟨hcalled, hbell⟩ := hwatches.call (hothers c rfl)
      exact .waiting hcalled (hbell hthere)
    | pass milliseconds => exact .waiting hwatches hthere
    | look => exact polls_of_looked (hwatches.looked clock)
    | expire =>
      rw [Exchange.step]
      dsimp only
      split
      · next hlate =>
        have hreply : LongPoll.Reply url since deadline clock s (s.get url) := .plain (.inr hlate)
        exact .answered (hreply.withRegistry _)
      · exact .waiting hwatches hthere

/-- A run leads from waiting to waiting or to an answer. -/
theorem Polls.after {events : List Event} (h : Polls url since id deadline e)
    (hothers : ∀ c, .call c ∈ events → c.consumer? ≠ some id) :
    Polls url since id deadline (e.after events) := by
  induction events generalizing e with
  | nil => exact h
  | cons event events ih =>
    exact ih (h.step fun c hc => hothers c (hc ▸ List.mem_cons_self))
      fun c hc => hothers c (List.mem_cons_of_mem event hc)

/-- A read for something new starts by waiting or with an answer. -/
theorem polls_exchange {r : Request} (hs : s.InOrder) (h : r.LongPolls s url since) :
    Polls url since ⟨s.registry.issued + 1⟩ (clock + timeout) (r.exchange s clock timeout) := by
  rw [Request.exchange, h.handle]
  rcases LongPoll.start_cases hs clock timeout url since with
    ⟨e, hrefused, hstart⟩ | ⟨watched, hwatches, hstart⟩
  · have hget : s.get url = .error e := by rw [Store.get, hrefused]
    rw [hstart, ← hget]
    exact .answered (.plain (.inl ⟨e, hrefused⟩))
  · rw [hstart]
    exact polls_of_looked (hwatches.looked clock)

/-- A read that arrives when there is something new is answered at once. -/
theorem reply_at_start {r : Request} (clock timeout : Nat) (hs : s.InOrder)
    (h : r.LongPolls s url since) (hnew : ¬ LongPoll.Known url since s) :
    ∃ result registry, r.exchange s clock timeout =
        ⟨.answered (.ofRead result), clock, { s with registry }⟩ ∧
      LongPoll.Reply url since (clock + timeout) clock s result := by
  rw [Request.exchange, h.handle]
  rcases LongPoll.start_cases hs clock timeout url since with
    ⟨e, hrefused, hstart⟩ | ⟨watched, hwatches, hstart⟩
  · have hget : s.get url = .error e := by rw [Store.get, hrefused]
    rw [hstart, ← hget]
    exact ⟨_, s.registry, rfl, .plain (.inl ⟨e, hrefused⟩)⟩
  · rw [hstart]
    have hlooked := hwatches.looked clock
    generalize LongPoll.poll _ clock { s with registry := watched } 2 = looked at hlooked
    cases hlooked with
    | answered registry hreply => exact ⟨_, registry, rfl, hreply.withRegistry s.registry⟩
    | waits registry hwaiting hasleep => exact absurd (hwaiting.known hasleep) hnew

end Exchange

end Switchboard
