import Mathlib
import Switchboard.Proofs.Http.Exchange
import Switchboard.Proofs.Tree.Obstacles
/-!
# How reads fail

The status of a plain read says what is wrong (`Response.status_ofRead`): the address names no node
of the store, a child on the way is missing, or a leaf is in the way. A read that waits fails with
the status that a plain read would have, with one exception (`Exchange.fails_like_plain_read`): if
the node with the known revision is not there any more, it says so, although it may be that a leaf
is in the way by now (`Exchange.missing_instead_of_blocked`).
-/

namespace Switchboard

variable {s : Store} {url : String}

namespace Response

theorem statusOf_of_isInvalidUrl {e : StoreError} (h : e.isInvalidUrl = true) :
    statusOf e = 400 := by
  cases e with
  | invalidUrl | emptySegment | schemeMismatch | wildcardNotAllowed => rfl
  | notFound | notContainer | revisionMismatch | alreadyExists | unsupportedValue
  | invalidRevision | json => cases h

/-- At an address that names one node, the status says where the walk to it has ended. -/
theorem status_ofRead_of_parseConcrete {a : Address} (h : s.parseConcrete url = .ok a) :
    (ofRead (s.get url)).status = match s.tree.root.find a.segments with
      | .ok _ => 200
      | .error (.notContainer _) => 409
      | .error (.missing _) => 404 := by
  rw [Store.get, h]
  simp only [Tree.get, Tree.find]
  rcases s.tree.root.find a.segments with (_ | _) | _ <;> rfl

/-- What the status of a plain read says. -/
theorem status_ofRead (s : Store) (url : String) :
    ((ofRead (s.get url)).status = 400 ↔ ∃ e, s.parseConcrete url = .error e) ∧
    ((ofRead (s.get url)).status = 404 ↔
      ∃ a steps, s.parseConcrete url = .ok a ∧ s.tree.root.EndsAt a.segments steps) ∧
    ((ofRead (s.get url)).status = 409 ↔
      ∃ a steps, s.parseConcrete url = .ok a ∧ s.tree.root.BlockedAt a.segments steps) := by
  cases hparse : s.parseConcrete url with
  | error e =>
    have hstatus : (ofRead (s.get url)).status = 400 := by
      rw [Store.get, hparse]
      exact statusOf_of_isInvalidUrl (Store.isInvalidUrl_of_parseConcrete hparse)
    rw [hstatus]
    simp
  | ok a =>
    have haddress : ∀ P : Address → Nat → Prop,
        (∃ a' steps, (.ok a : Except StoreError Address) = .ok a' ∧ P a' steps) ↔
          ∃ steps, P a steps := by
      intro P
      constructor
      · rintro ⟨a', steps, ha, h⟩
        cases ha
        exact ⟨steps, h⟩
      · rintro ⟨steps, h⟩
        exact ⟨a, steps, rfl, h⟩
    simp only [haddress, Node.exists_blockedAt_iff, Node.exists_endsAt_iff]
    rw [status_ofRead_of_parseConcrete hparse]
    rcases s.tree.root.find a.segments with (_ | _) | _ <;> simp

end Response

/-- What a read that waits is answered when it fails: it is what a plain read would be answered, or
it says that the node with the known revision is not there any more. -/
theorem LongPoll.Reply.eq_or_gone {since : Option Nat} {deadline clock : Nat}
    {r : Except StoreError Entry} (h : Reply url since deadline clock s r)
    (hfailed : (Response.ofRead r).status ≠ 200) :
    r = s.get url ∨ (∃ n, since = some n) ∧ (Response.ofRead r).status = 404 ∧
      ((Response.ofRead (s.get url)).status = 404 ∨
        (Response.ofRead (s.get url)).status = 409) := by
  cases h with
  | news => exact absurd rfl hfailed
  | plain => exact .inl rfl
  | gone n e hsince hconcrete hget =>
    refine .inr ⟨⟨n, hsince⟩, rfl, ?_⟩
    obtain ⟨a, ha⟩ := hconcrete
    have hstatus := Response.status_ofRead_of_parseConcrete ha
    cases hfind : s.tree.root.find a.segments with
    | ok node =>
      rw [hfind] at hstatus
      obtain ⟨entry, hentry⟩ := Response.eq_ok_of_status hstatus
      cases hget.symm.trans hentry
    | error obstacle =>
      rw [hfind] at hstatus
      cases obstacle with
      | missing => exact .inl hstatus
      | notContainer => exact .inr hstatus

namespace Exchange

/-- A read that knows a revision of a node that is not there is told so at once, whatever a plain
read is told. -/
theorem gone_at_start {r plain : Request} {n : Nat} {a : Address} {error : StoreError}
    (clock timeout : Nat) (hs : s.InOrder) (h : r.LongPolls s url (some n))
    (ha : s.parseConcrete url = .ok a) (hget : s.get url = .error error) (htime : 0 < timeout)
    (hplain : plain.Reads s url) :
    let e := r.exchange s clock timeout
    e.handling = .answered (.ofRead (.error (.notFound url))) ∧ plain.Reads e.store url ∧
      (plain.handle e.store e.clock timeout).1 = .answered (.ofRead (.error error)) := by
  intro e
  have hnews : ¬ LongPoll.Known url (some n) s := by
    rintro ⟨entry, hentry, -⟩
    cases hentry.symm.trans hget
  obtain ⟨result, registry, he, hreply⟩ :=
    reply_at_start clock timeout hs h hnews
  have hafter : plain.Reads { s with registry } url := ⟨hplain.method, hplain.address, hplain.known⟩
  have hsame : Store.get { s with registry } url = .error error := hget
  simp only [e, he]
  refine ⟨?_, hafter, by rw [hafter.handle, hsame]⟩
  cases hreply with
  | news _ hgot => cases hgot.symm.trans hget
  | gone => rfl
  | plain hplain =>
    rcases hplain with ⟨e, he⟩ | hlate
    · cases he.symm.trans ha
    · omega

/-- **A long poll fails like a plain read, but for one case.** In any state of a run a read arrives,
with a revision in its query or without; then anybody makes calls, time passes, and the request
looks into its mailbox and at the clock. If it is answered with a failure, then a plain read of the
same node, sent at that moment, fails as well: with 400 exactly if the address names no node of the
store, with 404 exactly if a child is missing on the way, and with 409 exactly if a leaf is in the
way. The read was answered with that status too, or else it knew a revision and was answered with
404 although a leaf is in the way. -/
theorem fails_like_plain_read (scheme : String) (calls : List Call) (r plain : Request)
    (url : String) (clock timeout : Nat) (events : List Event) (response : Response) :
    let s := (Store.new scheme).after calls
    let e := (r.exchange s clock timeout).after events
    (r.Reads s url ∨ ∃ since, r.LongPolls s url since) →
    (∀ c, .call c ∈ events → c.consumer? ≠ some ⟨s.registry.issued + 1⟩) →
    e.handling = .answered response → response.status ≠ 200 →
    plain.Reads e.store url →
    ∃ expected, (plain.handle e.store e.clock timeout).1 = .answered expected ∧
      (expected.status = 400 ↔ ∃ error, e.store.parseConcrete url = .error error) ∧
      (expected.status = 404 ↔ ∃ a steps, e.store.parseConcrete url = .ok a ∧
        e.store.tree.root.EndsAt a.segments steps) ∧
      (expected.status = 409 ↔ ∃ a steps, e.store.parseConcrete url = .ok a ∧
        e.store.tree.root.BlockedAt a.segments steps) ∧
      expected.status ≠ 200 ∧
      (response.status = expected.status ∨
        (∃ n, r.LongPolls s url (some n)) ∧ response.status = 404 ∧ expected.status = 409) := by
  intro s e hreads hothers hresponse hfailed hplain
  obtain ⟨hmalformed, hmissing, hblocked⟩ := Response.status_ofRead e.store url
  refine ⟨.ofRead (e.store.get url), by rw [hplain.handle], hmalformed, hmissing, hblocked, ?_⟩
  rcases hreads with hreads | ⟨since, hpolls⟩
  · -- A plain read is answered when it arrives.
    have he : e = ⟨.answered (.ofRead (s.get url)), clock, s⟩ := by
      show (r.exchange s clock timeout).after events = _
      rw [Request.exchange, hreads.handle]
      exact after_answered rfl events
    rw [he] at hresponse ⊢
    cases hresponse
    exact ⟨hfailed, .inl rfl⟩
  · have hs : s.InOrder := (Store.InOrder.new scheme).after calls
    have he : Polls url since ⟨s.registry.issued + 1⟩ (clock + timeout) e :=
      (polls_exchange hs hpolls).after hothers
    generalize e = e at he hresponse
    cases he with
    | waiting => cases hresponse
    | @answered result clock' s' hreply =>
      cases hresponse
      rcases hreply.eq_or_gone hfailed with rfl | ⟨⟨n, rfl⟩, hgone, hstatus | hstatus⟩
      · exact ⟨hfailed, .inl rfl⟩
      · exact ⟨hstatus ▸ by decide, .inl (hgone.trans hstatus.symm)⟩
      · exact ⟨hstatus ▸ by decide, .inr ⟨⟨n, hpolls⟩, hgone, hstatus⟩⟩

/-- A read that knows a first revision of *a*, which is not there: it fails like a plain read. -/
theorem missing_like_plain_read :
    let s := (Store.new "status").after []
    let r : Request := ⟨.get, "/api/status/a?revision=1", none, ""⟩
    let plain : Request := ⟨.get, "/api/status/a", none, ""⟩
    let e := (r.exchange s 0 30000).after []
    ∃ response expected, e.handling = .answered response ∧ response.status = 404 ∧
      (plain.handle e.store e.clock 30000).1 = .answered expected ∧ expected.status = 404 := by
  intro s r plain e
  have hpolls : r.LongPolls s "status://a" (some 1) :=
    ⟨rfl, ⟨[97], "a", by subst e plain r s; cbv, by cbv, by subst e plain r s; cbv⟩,
      "1", .exact 1, by subst e plain r s; cbv, by cbv, by cbv⟩
  have hplain : plain.Reads s "status://a" :=
    ⟨rfl, ⟨[97], "a", by subst e plain r s; cbv, by cbv, by subst e plain r s; cbv⟩,
      .inl (by subst e plain r s; cbv)⟩
  have hget : s.get "status://a" = .error (.notFound "status://a") := by
    subst e plain r s
    cbv
  obtain ⟨hanswered, hafter, hmissing⟩ :=
    gone_at_start 0 30000 (a := ⟨"status", ["a"]⟩) (.new "status") hpolls
      (by subst e plain r s; cbv) hget (by decide) hplain
  -- What was found has to be about the run as it stands, so that nothing is evaluated again.
  subst e s
  obtain ⟨expected, hexpected, -, -, -, -, hsame | ⟨-, -, hblocked⟩⟩ :=
    fails_like_plain_read "status" [] r plain "status://a" 0 30000 [] _ (.inr ⟨_, hpolls⟩)
      (fun c hc => absurd hc List.not_mem_nil) hanswered (by decide) hafter
  · exact ⟨_, expected, hanswered, rfl, hexpected, hsame.symm⟩
  · cases hexpected.symm.trans hmissing
    cases hblocked

/-- A leaf is where a container was expected, but the read that knows a revision is told that there
is no node. -/
theorem missing_instead_of_blocked :
    let s := (Store.new "status").after [.write (.set "status://a" (.bool true) .unchecked)]
    let r : Request := ⟨.get, "/api/status/a/b?revision=1", none, ""⟩
    let plain : Request := ⟨.get, "/api/status/a/b", none, ""⟩
    let e := (r.exchange s 0 30000).after []
    ∃ response expected, e.handling = .answered response ∧ response.status = 404 ∧
      (plain.handle e.store e.clock 30000).1 = .answered expected ∧ expected.status = 409 := by
  intro s r plain e
  have hpolls : r.LongPolls s "status://a/b" (some 1) :=
    ⟨rfl, ⟨[97, 47, 98], "a/b", by subst e plain r s; cbv, by cbv, by subst e plain r s; cbv⟩,
      "1", .exact 1, by subst e plain r s; cbv, by cbv, by cbv⟩
  have hplain : plain.Reads s "status://a/b" :=
    ⟨rfl, ⟨[97, 47, 98], "a/b", by subst e plain r s; cbv, by cbv, by subst e plain r s; cbv⟩,
      .inl (by subst e plain r s; cbv)⟩
  have hget : s.get "status://a/b" = .error (.notContainer "status://a") := by
    subst e plain r s
    cbv
  obtain ⟨hgone, -, hblocked⟩ :=
    gone_at_start 0 30000 (a := ⟨"status", ["a", "b"]⟩)
      ((Store.InOrder.new "status").after _) hpolls (by subst e plain r s; cbv) hget (by decide)
      hplain
  exact ⟨_, _, hgone, rfl, hblocked, rfl⟩

end Exchange

end Switchboard
