import Mathlib
import Switchboard.Proofs.Store.Acceptance
/-!
# What is in the way of a read

A read that fails names the address at which its walk has stopped. Either that node is the first one
on the way that is missing, so that a container stands above it (`Store.MissesAt`), or it is a leaf
where the walk wanted to go on (`Store.BlockedBy`). As the address named is one of the store, it can
be read in turn.

A write looks for its target on a walk of its own, for which a missing node is no obstacle. It comes
to the same end as the walk of a read (`Tree.probe_eq_find`), so that reads, writes and removals
name the same leaf (`Store.get_reports_obstacle`).
-/

namespace Switchboard

/-- On the way to an address the parent of every address is the one before it. -/
theorem Address.parent?_ancestor {a : Address} {depth : Nat} (h : depth < a.segments.length) :
    (a.ancestor (depth + 1)).parent? = some (a.ancestor depth) := by
  have hlength : (a.segments.take (depth + 1)).length = depth + 1 := List.length_take_of_le h
  have hne : a.segments.take (depth + 1) ≠ [] := List.ne_nil_of_length_eq_add_one hlength
  rw [ancestor, parent?, if_neg hne, List.dropLast_eq_take, hlength, List.take_take]
  rw [Nat.add_sub_cancel, Nat.min_eq_left (Nat.le_succ depth)]
  rfl

/-- The addresses on the way to `a` are those of its scheme whose path is the begin of its path. -/
theorem Address.eq_ancestor {a b : Address} (hscheme : b.scheme = a.scheme)
    (h : b.segments <+: a.segments) : b = a.ancestor b.segments.length := by
  rw [ancestor, ← List.prefix_iff_eq_take.1 h, ← hscheme]

/-! ## Where a walk stops -/

namespace Node

variable {node : Node} {path : List String} {depth : Nat}

/-- A walk that misses a child has come to a container. -/
theorem EndsAt.container_above (h : node.EndsAt path depth) :
    ∃ n cs, node.get? (path.take depth) = some (container n cs) := by
  obtain ⟨parents, name, rest, _, rfl, rfl, hlast, n, cs, rfl, -⟩ := h
  exact ⟨n, cs, by rwa [List.take_left]⟩

/-- A walk that misses a child also misses it if it goes no further. -/
theorem EndsAt.take (h : node.EndsAt path depth) : node.EndsAt (path.take (depth + 1)) depth := by
  obtain ⟨parents, name, rest, last, rfl, rfl, hlast, hstop⟩ := h
  refine ⟨parents, name, [], last, ?_, rfl, hlast, hstop⟩
  rw [List.take_length_add_append]
  rfl

/-- A walk stops before the end of its path. -/
theorem StopsAt.lt_length {stop : Node → String → Prop} (h : StopsAt stop path depth node) :
    depth < path.length := by
  obtain ⟨parents, name, rest, _, rfl, rfl, -⟩ := h
  simp

/-- A walk that is blocked has come to a leaf. -/
theorem BlockedAt.leaf_above (h : node.BlockedAt path depth) :
    ∃ n held, node.get? (path.take depth) = some (leaf n held) := by
  obtain ⟨parents, name, rest, _, rfl, rfl, hlast, n, held, rfl⟩ := h
  exact ⟨n, held, by rwa [List.take_left]⟩

end Node

/-! ## Reads and writes of a tree -/

namespace Tree

variable {t : Tree} {a : Address} {expected : Precondition} {url : String}

/-- A search names a missing node exactly if its walk misses it. -/
theorem find_eq_notFound_iff : t.find a = .error (.notFound url) ↔
    ∃ depth, t.root.EndsAt a.segments depth ∧ (a.ancestor (depth + 1)).text = url := by
  rw [find, Node.mapError_eq_error_iff]
  constructor
  · rintro ⟨o, ho, hreport⟩
    cases o with
    | notContainer => cases hreport
    | missing below =>
      obtain ⟨depth, rfl, hends⟩ := Node.find_eq_missing_iff.1 ho
      exact ⟨depth, hends, StoreError.notFound.inj hreport⟩
  · rintro ⟨depth, hends, rfl⟩
    exact ⟨.missing (depth + 1), Node.find_eq_missing_iff.2 ⟨depth, rfl, hends⟩, rfl⟩

/-- A search names a leaf exactly if its walk is blocked by it. -/
theorem find_eq_notContainer_iff : t.find a = .error (.notContainer url) ↔
    ∃ depth, t.root.BlockedAt a.segments depth ∧ (a.ancestor depth).text = url := by
  rw [find, Node.mapError_eq_error_iff]
  constructor
  · rintro ⟨o, ho, hreport⟩
    cases o with
    | missing => cases hreport
    | notContainer depth =>
      exact ⟨depth, Node.find_eq_notContainer_iff.1 ho, StoreError.notContainer.inj hreport⟩
  · rintro ⟨depth, hblocked, rfl⟩
    exact ⟨.notContainer depth, Node.find_eq_notContainer_iff.2 hblocked, rfl⟩

/-- A search that fails names a missing node or a leaf. -/
theorem exists_of_find_eq_error {e : StoreError} (h : t.find a = .error e) :
    ∃ url, e = .notFound url ∨ e = .notContainer url := by
  rw [find, Node.mapError_eq_error_iff] at h
  obtain ⟨o, -, rfl⟩ := h
  cases o with
  | notContainer depth => exact ⟨_, .inr rfl⟩
  | missing depth => exact ⟨_, .inl rfl⟩

/-- The walk of a write comes to the same end as the walk of a read. -/
theorem probe_eq_find (t : Tree) (a : Address) : t.probe a =
    match t.find a with
    | .ok node => .ok (some node.revision)
    | .error (.notFound _) => .ok none
    | .error e => .error e := by
  rw [probe, find, Node.probe_eq_find]
  rcases t.root.find a.segments with (_ | _) | _ <;> rfl

/-- What is refused for its precondition names no leaf. -/
theorem ne_notContainer_of_check {current : Option Nat} :
    expected.check a current ≠ .error (.notContainer url) := by
  intro h
  cases expected with
  | unchecked => cases h
  | mustNotExist => cases current <;> cases h
  | exact revision =>
    rw [Precondition.check] at h
    split at h <;> cases h

/-- Writing a value names the leaf that its search for the target has met, and no other one. -/
theorem set_eq_notContainer_iff (t : Tree) (v : Json) (expected : Precondition) :
    (t.set a v expected).1 = .error (.notContainer url) ↔
      t.probe a = .error (.notContainer url) := by
  rw [← refusal?_eq_some_iff, ← refusal?_eq_some_iff, refusal?_set, offences, List.head?_append,
    ← refusal?_probe, Option.or_eq_some_iff]
  refine or_iff_left ?_
  rintro ⟨-, hlater⟩
  rw [List.head?_append, Option.or_eq_some_iff, ← Precondition.refusal?_check,
    refusal?_eq_some_iff] at hlater
  rcases hlater with hcheck | ⟨-, hvalue⟩
  · exact ne_notContainer_of_check hcheck
  · obtain ⟨_, _, hunsupported⟩ := Json.exists_of_mem_offences (List.mem_of_mem_head? hvalue)
    cases hunsupported

/-- Removing a node names the leaf that its search for the target has met, and no other one. -/
theorem remove_eq_notContainer_iff (t : Tree) (expected : Precondition) :
    (t.remove a expected).1 = .error (.notContainer url) ↔
      t.find a = .error (.notContainer url) := by
  rw [remove]
  cases hfind : t.find a with
  | error e => simp
  | ok node =>
    refine iff_of_false (fun h => ?_) nofun
    dsimp only at h
    split at h
    · next hcheck =>
      cases h
      exact ne_notContainer_of_check hcheck
    · -- Once the checks have passed nothing is in the way.
      rw [commit_ok fun parents name hsegments =>
        Node.stamp_ok_of_find (hsegments ▸ mapError_eq_ok_iff.1 hfind)] at h
      cases h

end Tree

/-! ## Reads of a store -/

namespace Store

variable {s : Store} {url text : String} {a b : Address}

/-- On the way to `a` the node at `b` is the first one that is missing. -/
structure MissesAt (s : Store) (a b : Address) : Prop where
  scheme : b.scheme = a.scheme
  onTheWay : b.segments <+: a.segments
  /-- A read of that node names it as well. -/
  missing : s.get b.text = .error (.notFound b.text)
  /-- There is a node above it, a container, which can be read. -/
  container : ∃ parent n cs, b.parent? = some parent ∧
    s.tree.root.get? parent.segments = some (.container n cs) ∧
    s.get parent.text = .ok ⟨n, (Node.container n cs).toJson⟩

/-- On the way to `a` the node at `b` is a leaf, though the way goes on. -/
structure BlockedBy (s : Store) (a b : Address) : Prop where
  scheme : b.scheme = a.scheme
  onTheWay : b.segments <+: a.segments
  above : b.segments ≠ a.segments
  /-- The leaf can be read. -/
  leaf : ∃ n held, s.tree.root.get? b.segments = some (.leaf n held) ∧
    s.get b.text = .ok ⟨n, held.toJson⟩

/-- An address on the way to one that names a node of the store names one, too. -/
theorem parseConcrete_ancestor (h : s.parseConcrete url = .ok a) (depth : Nat) :
    s.parseConcrete (a.ancestor depth).text = .ok (a.ancestor depth) := by
  obtain ⟨hparse, hscheme, hwild⟩ := parseConcrete_eq_ok_iff.1 h
  have hwf := Address.wellFormed_of_parse hparse
  have habove : ∀ name ∈ (a.ancestor depth).segments, name ∈ a.segments :=
    fun _ hname => List.mem_of_mem_take hname
  refine parseConcrete_eq_ok_iff.2 ⟨Address.parse_text ⟨hwf.scheme_ne, hwf.scheme_slash,
    fun name hname => hwf.segment_ne name (habove name hname),
    fun name hname => hwf.segment_slash name (habove name hname)⟩, hscheme, ?_⟩
  rw [Address.hasWildcard_eq_false_iff] at hwild ⊢
  exact fun hmem => hwild (habove _ hmem)

/-- At an address that names one node, a read of the store fails as a search of the tree does. -/
theorem get_eq_error_iff (h : s.parseConcrete url = .ok a) {e : StoreError} :
    s.get url = .error e ↔ s.tree.find a = .error e := by
  rw [get, h]
  dsimp only
  rw [Tree.get]
  cases s.tree.find a <;> simp [Except.map]

/-- A node that is seen is read at its address. -/
theorem get_of_get? {node : Node} (h : s.parseConcrete url = .ok a)
    (hnode : s.tree.root.get? a.segments = some node) :
    s.get url = .ok ⟨node.revision, node.toJson⟩ :=
  get_eq_ok_iff.2 ⟨a, h, Tree.get_eq_ok_iff.2 ⟨node, hnode, rfl⟩⟩

/-- A walk to `a` that misses a child has come to the first node that is missing. -/
theorem missesAt_iff (h : s.parseConcrete url = .ok a) :
    s.MissesAt a b ↔ ∃ depth, s.tree.root.EndsAt a.segments depth ∧ a.ancestor (depth + 1) = b := by
  constructor
  · rintro ⟨hscheme, hway, hmissing, parent, n, cs, hparent, hcontainer, -⟩
    have hb := parseConcrete_ancestor h b.segments.length
    rw [← Address.eq_ancestor hscheme hway] at hb
    rw [Address.parent?] at hparent
    split at hparent
    · cases hparent
    · next hne =>
      cases hparent
      obtain ⟨parents, name, hsegments⟩ := List.eq_nil_or_concat b.segments |>.resolve_left hne
      rw [List.concat_eq_append] at hsegments
      obtain ⟨rest, hrest⟩ := hway
      rw [hsegments, List.dropLast_concat] at hcontainer
      refine ⟨parents.length, ⟨parents, name, rest, _, ?_, rfl, hcontainer, n, cs, rfl, ?_⟩, ?_⟩
      · rw [← hrest, hsegments, List.append_assoc]
        rfl
      · -- A child of that name could be read at `b`.
        cases hchild : cs.lookup name with
        | none => rfl
        | some child =>
          have hread : s.tree.root.get? b.segments = some child := by
            rw [hsegments, Node.get?_append, hcontainer]
            exact Node.get?_singleton.trans hchild
          cases hmissing.symm.trans (get_of_get? hb hread)
      · have hlength : b.segments.length = parents.length + 1 := by simp [hsegments]
        rw [← hlength, ← Address.eq_ancestor hscheme ⟨rest, hrest⟩]
  · rintro ⟨depth, hends, rfl⟩
    have hb := parseConcrete_ancestor h (depth + 1)
    refine ⟨rfl, List.take_prefix _ _, ?_, a.ancestor depth, ?_⟩
    · rw [get_eq_error_iff hb, Tree.find_eq_notFound_iff]
      refine ⟨depth, hends.take, ?_⟩
      rw [Address.ancestor, Address.ancestor, List.take_take, Nat.min_self]
    · obtain ⟨n, cs, hcontainer⟩ := hends.container_above
      exact ⟨n, cs, Address.parent?_ancestor (Node.StopsAt.lt_length hends), hcontainer,
        get_of_get? (parseConcrete_ancestor h depth) hcontainer⟩

/-- A walk to `a` that is blocked has come to a leaf above it. -/
theorem blockedBy_iff (h : s.parseConcrete url = .ok a) :
    s.BlockedBy a b ↔ ∃ depth, s.tree.root.BlockedAt a.segments depth ∧ a.ancestor depth = b := by
  constructor
  · rintro ⟨hscheme, hway, habove, n, held, hleaf, -⟩
    have hlt : b.segments.length < a.segments.length :=
      Nat.lt_of_le_of_ne hway.length_le fun hlength => habove (hway.eq_of_length hlength)
    have hb := Address.eq_ancestor hscheme hway
    refine ⟨b.segments.length, Node.blockedAt_iff.2 ⟨hlt, ?_⟩, hb.symm⟩
    rw [← List.prefix_iff_eq_take.1 hway, hleaf]
    rfl
  · rintro ⟨depth, hblocked, rfl⟩
    obtain ⟨n, held, hleaf⟩ := hblocked.leaf_above
    refine ⟨rfl, List.take_prefix _ _, fun heq => ?_, n, held, hleaf,
      get_of_get? (parseConcrete_ancestor h depth) hleaf⟩
    have hlength := congrArg List.length heq
    have hlt := Node.StopsAt.lt_length hblocked
    rw [Address.ancestor, List.length_take] at hlength
    omega

/-- The walk of a write misses the target, meets a leaf or finds a revision where a read does. -/
theorem probe_agrees (h : s.parseConcrete url = .ok a) :
    (∀ text, s.tree.probe a = .error (.notContainer text) ↔
      s.get url = .error (.notContainer text)) ∧
    (s.tree.probe a = .ok none ↔ ∃ text, s.get url = .error (.notFound text)) ∧
    ∀ n, s.tree.probe a = .ok (some n) ↔ ∃ v, s.get url = .ok ⟨n, v⟩ := by
  simp only [get_eq_error_iff h, Tree.probe_eq_find]
  cases hfind : s.tree.find a with
  | ok node =>
    rw [get_of_get? h (Tree.find_eq_ok_iff.1 hfind)]
    simp
  | error e =>
    have hget : ∀ entry, s.get url ≠ .ok entry := fun entry hentry => by
      cases hentry.symm.trans ((get_eq_error_iff h).2 hfind)
    obtain ⟨text, rfl | rfl⟩ := Tree.exists_of_find_eq_error hfind <;> simp [hget]

/-- **A read names what is in its way, and the walk of a write meets the same.** Whatever the store,
at an address that names one node: a read reports a missing node exactly if that is the first one
missing on the way, which cannot be read either while a container is read at its parent. It reports
a node that is no container exactly if that is a leaf above the end of the way, which can be read.
The walk of a write meets a leaf exactly where a read reports it, misses its target exactly if a
read reports a missing node, and finds the revision that is read. So no leaf is reported by writing
a value or removing a node but the one that a read reports. -/
theorem get_reports_obstacle (s : Store) (url : String) (a : Address)
    (h : s.parseConcrete url = .ok a) :
    (∀ text, s.get url = .error (.notFound text) ↔ ∃ b, b.text = text ∧ s.MissesAt a b) ∧
    (∀ text, s.get url = .error (.notContainer text) ↔ ∃ b, b.text = text ∧ s.BlockedBy a b) ∧
    (∀ text, s.tree.probe a = .error (.notContainer text) ↔
      s.get url = .error (.notContainer text)) ∧
    (s.tree.probe a = .ok none ↔ ∃ text, s.get url = .error (.notFound text)) ∧
    (∀ n, s.tree.probe a = .ok (some n) ↔ ∃ v, s.get url = .ok ⟨n, v⟩) ∧
    ∀ text expected,
      (∀ v, (s.set url v expected).1 = .error (.notContainer text) ↔
        s.get url = .error (.notContainer text)) ∧
      ((s.remove url expected).1 = .error (.notContainer text) ↔
        s.get url = .error (.notContainer text)) := by
  obtain ⟨hblocked, hmissing, hfound⟩ := probe_agrees h
  refine ⟨fun text => ?_, fun text => ?_, hblocked, hmissing, hfound, fun text expected =>
    ⟨fun v => ?_, ?_⟩⟩
  · rw [get_eq_error_iff h, Tree.find_eq_notFound_iff]
    simp only [missesAt_iff h]
    exact ⟨fun ⟨depth, hends, htext⟩ => ⟨_, htext, depth, hends, rfl⟩,
      fun ⟨_, htext, depth, hends, hb⟩ => ⟨depth, hends, hb ▸ htext⟩⟩
  · rw [get_eq_error_iff h, Tree.find_eq_notContainer_iff]
    simp only [blockedBy_iff h]
    exact ⟨fun ⟨depth, hends, htext⟩ => ⟨_, htext, depth, hends, rfl⟩,
      fun ⟨_, htext, depth, hends, hb⟩ => ⟨depth, hends, hb ▸ htext⟩⟩
  · rw [← hblocked, ← Tree.set_eq_notContainer_iff s.tree v expected]
    rw [← fst_write_set h]
    rfl
  · rw [get_eq_error_iff h, ← Tree.remove_eq_notContainer_iff s.tree expected]
    rw [← fst_write_remove h]
    rfl

/-- A list of levels where a lamp has its parts: below it nothing can be read or written, and beside
it the first node on the way is missing. -/
theorem levels_in_the_way :
    let s := (new "status").after
      [.write (.set "status://lamp/levels" (.array [.bool true]) .unchecked)]
    s.get "status://lamp/levels/hall/dim" = .error (.notContainer "status://lamp/levels") ∧
    (∃ b, b.text = "status://lamp/levels" ∧
      s.BlockedBy ⟨"status", ["lamp", "levels", "hall", "dim"]⟩ b) ∧
    (s.remove "status://lamp/levels/hall/dim" .mustNotExist).1 =
      .error (.notContainer "status://lamp/levels") ∧
    s.tree.probe ⟨"status", ["lamp", "door", "bell"]⟩ = .ok none ∧
    ∃ text, s.get "status://lamp/door/bell/" = .error (.notFound text) := by
  have hlevels : ((new "status").after
      [.write (.set "status://lamp/levels" (.array [.bool true]) .unchecked)]).parseConcrete
        "status://lamp/levels/hall/dim" =
      .ok ⟨"status", ["lamp", "levels", "hall", "dim"]⟩ := by cbv
  have hbell : ((new "status").after
      [.write (.set "status://lamp/levels" (.array [.bool true]) .unchecked)]).parseConcrete
        "status://lamp/door/bell/" = .ok ⟨"status", ["lamp", "door", "bell"]⟩ := by cbv
  have hget : ((new "status").after
      [.write (.set "status://lamp/levels" (.array [.bool true]) .unchecked)]).get
        "status://lamp/levels/hall/dim" = .error (.notContainer "status://lamp/levels") := by cbv
  have hprobe : ((new "status").after
      [.write (.set "status://lamp/levels" (.array [.bool true]) .unchecked)]).tree.probe
        ⟨"status", ["lamp", "door", "bell"]⟩ = .ok none := by cbv
  obtain ⟨-, hblocked, -, -, -, hwrites⟩ := get_reports_obstacle _ _ _ hlevels
  obtain ⟨-, -, -, hmissing, -⟩ := get_reports_obstacle _ _ _ hbell
  exact ⟨hget, (hblocked _).1 hget, (hwrites _ _).2.2 hget, hprobe, hmissing.1 hprobe⟩

end Store

end Switchboard
