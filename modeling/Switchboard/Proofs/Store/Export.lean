import Switchboard.Proofs.Store.Sound
import Switchboard.Proofs.Tree.Rewriting
/-!
# Export and import

The text of a node is imported again at the revision at which it was exported, unless too many
containers are nested in the node (`Store.import_exported`). The value is then the one that was
exported, but for doubles with many digits, which may come back as their neighbour. A value at an
address with more segments than the reader allows makes a tree that is exported and not imported
again (`Store.deep_value_not_imported`).
-/

namespace Switchboard.Store

variable {s s' : Store} {url text : String} {v : Json} {part : Node} {n : Nat} {rev : UInt64}
  {history : List (List String)}

/-- A text that was exported is the text of the value that can be read. -/
theorem getText_eq_ok (h : s.getText url = .ok (text, n)) :
    ∃ v, s.get url = .ok ⟨n, v⟩ ∧ text = v.text := by
  unfold getText at h
  cases hget : s.get url with
  | error e =>
    rw [hget] at h
    cases h
  | ok entry =>
    rw [hget] at h
    cases h
    exact ⟨entry.value, rfl, rfl⟩

/-- A value that was written is read back. -/
theorem get_of_set {expected : Precondition} (hv : v.Ordered)
    (h : s.set url v expected = (.ok n, s')) : s'.get url = .ok ⟨n, v⟩ := by
  obtain ⟨a, tree, ha, htree, rfl⟩ := set_eq_ok h
  obtain ⟨-, -, node, hnode, hwritten⟩ := Tree.set_eq_ok htree
  have hbelow := hwritten.below []
  rw [List.append_nil] at hbelow
  refine get_eq_ok_iff.2 ⟨a, ha, Tree.get_eq_ok_iff.2 ⟨node, hbelow, ?_⟩⟩
  rw [hnode.revision_eq, hnode.toJson_eq hv]

/-- A value that can be stored is written where something can be read, if the revision that was read
is expected. -/
theorem fst_set_exact {w : Json} (hget : s.get url = .ok ⟨n, v⟩) (hw : w.IsStorable)
    (hrev : rev.toNat = n) : (s.set url w (.exact rev)).1 = .ok (s.revision + 1) := by
  obtain ⟨a, ha, hread⟩ := get_eq_ok_iff.1 hget
  obtain ⟨part, hpart, hentry⟩ := Tree.get_eq_ok_iff.1 hread
  obtain ⟨rfl, rfl⟩ := Entry.mk.inj hentry
  rw [set, ha]
  dsimp only
  rw [fst_written]
  exact Tree.fst_set_exact hpart hw hrev

/-- What can be read is an ordered value that can be stored. -/
theorem Sound.ordered_and_isStorable (h : s.Sound history) (hget : s.get url = .ok ⟨n, v⟩) :
    v.Ordered ∧ v.IsStorable := by
  obtain ⟨a, -, hread⟩ := get_eq_ok_iff.1 hget
  obtain ⟨part, hpart, hentry⟩ := Tree.get_eq_ok_iff.1 hread
  obtain ⟨rfl, rfl⟩ := Entry.mk.inj hentry
  exact (h.wellFormed.of_get? hpart).ordered_and_isStorable

/-- A text that nests too many arrays and objects is refused, and nothing is written. -/
theorem setText_of_lt_depth (hv : v.Ordered) (hdepth : Json.depthLimit < v.depth)
    (expected : Precondition) : s.setText url v.text expected = (.error (.json .grammar), s) := by
  rw [setText, Json.parse_text hv, if_neg (Nat.not_le.2 hdepth)]

/-- **Export and import.** In every state of a run: a text that was exported is the text of a value
`v`. Writing the text back at the revision at which it was exported succeeds exactly if `v` nests
at most 127 arrays and objects, and else nothing is written. What is read then is `v` again, but for
its doubles, each of which is the one that its text stands for; if the doubles have few digits and
small powers of ten, it is `v`. -/
theorem import_exported (scheme : String) (calls : List Call) (url text : String) (n : Nat)
    (rev : UInt64) :
    let s := (new scheme).after calls
    s.getText url = .ok (text, n) → rev.toNat = n →
    ∃ v, s.get url = .ok ⟨n, v⟩ ∧ text = v.text ∧
      (v.depth ≤ Json.depthLimit → ∃ s', s.setText url text (.exact rev) =
        (.ok (s.revision + 1), s') ∧ s'.get url = .ok ⟨s.revision + 1, v.reread⟩) ∧
      (Json.depthLimit < v.depth →
        s.setText url text (.exact rev) = (.error (.json .grammar), s)) ∧
      (v.IsShort → v.reread = v) := by
  intro s hexport hrev
  obtain ⟨v, hget, rfl⟩ := getText_eq_ok hexport
  have hsound : s.Sound _ := (Sound.new scheme).after calls
  obtain ⟨hordered, hstorable⟩ := hsound.ordered_and_isStorable hget
  refine ⟨v, hget, rfl, fun hdepth => ?_, fun hdepth => setText_of_lt_depth hordered hdepth _,
    Json.reread_eq⟩
  have hparse : Json.parse v.text = .ok v.reread := by
    rw [Json.parse_text hordered, if_pos hdepth]
  have hset := eq_mk_of_fst_eq (fst_set_exact hget (Json.isStorable_reread hstorable) hrev)
  refine ⟨_, ?_, get_of_set (Json.ordered_of_parse hparse) hset⟩
  rw [setText, hparse]
  exact hset

/-- A lamp with its colour and level, exported and imported again. -/
theorem lamp_imported :
    let half : Double := ⟨false, 2 ^ 1073, by decide +kernel⟩
    let lamp : Json := .object [("colour", .array [.ofNat 255, .ofNat 128]),
      ("level", .number (.double half)), ("on", .bool true)]
    let s := (new "status").after [.write (.set "status://lamp/hall" lamp .unchecked)]
    let text := "\x7b\"colour\":[255,128],\"level\":0.5,\"on\":true\x7d"
    s.getText "status://lamp/hall" = .ok (text, 1) ∧ (1 : UInt64).toNat = 1 ∧
      ∃ s', s.setText "status://lamp/hall" text (.exact 1) = (.ok 2, s') ∧
        s'.get "status://lamp/hall" = .ok ⟨2, lamp⟩ := by
  intro half lamp s text
  have hget : s.get "status://lamp/hall" = .ok ⟨1, lamp⟩ := by
    subst s lamp
    cbv
  have hrevision : s.revision = 1 := by
    subst s lamp
    cbv
  have htext : lamp.text = text := by decide +kernel
  have hexport : s.getText "status://lamp/hall" = .ok (text, 1) := by
    rw [getText, hget, ← htext]
    rfl
  have hshort : lamp.IsShort :=
    ⟨⟨trivial, trivial, trivial⟩, show half.IsShort by decide +kernel, trivial, trivial⟩
  obtain ⟨v, hv, -, himport, -, hsame⟩ := import_exported "status" _ _ _ 1 1 hexport rfl
  cases hget.symm.trans hv
  obtain ⟨s', hset, hread⟩ := himport (by decide)
  rw [show Store.revision _ = 1 from hrevision] at hset hread
  rw [hsame hshort] at hread
  exact ⟨hexport, rfl, s', hset, hread⟩

/-! ## Trees that are too deep -/

/-- A tree with a node more than 127 steps below its root is not imported again, although it can be
exported. -/
theorem Sound.refused_of_deep {q : List String} (h : s.Sound history)
    (hpart : s.tree.root.get? q = some part) (hq : Json.depthLimit < q.length)
    (hroot : s.parseConcrete url = .ok s.rootAddress) (expected : Precondition) :
    ∃ v, s.get url = .ok ⟨s.revision, v⟩ ∧ s.getText url = .ok (v.text, s.revision) ∧
      s.setText url v.text expected = (.error (.json .grammar), s) := by
  have hget : s.get url = .ok ⟨s.revision, s.tree.root.toJson⟩ :=
    get_eq_ok_iff.2 ⟨s.rootAddress, hroot, Tree.get_eq_ok_iff.2 ⟨s.tree.root, rfl, rfl⟩⟩
  refine ⟨_, hget, by rw [getText, hget]; rfl, ?_⟩
  exact setText_of_lt_depth (h.ordered_and_isStorable hget).1
    (hq.trans_le (Node.length_le_depth hpart)) expected

/-- A value at an address with more than 127 segments makes such a tree. -/
theorem deep_value_not_imported {a : Address} (ha : a.WellFormed)
    (hconcrete : a.hasWildcard = false) (hdeep : Json.depthLimit < a.segments.length)
    (hv : v.Ordered) (hstorable : v.IsStorable) (expected : Precondition) :
    let s := (new a.scheme).after [.write (.set a.text v .unchecked)]
    let root := (Address.root a.scheme).text
    s.get a.text = .ok ⟨1, v⟩ ∧ ∃ text, s.getText root = .ok (text, 1) ∧
      s.setText root text expected = (.error (.json .grammar), s) := by
  intro s root
  have hparse : (new a.scheme).parseConcrete a.text = .ok a :=
    parseConcrete_eq_ok_iff.2 ⟨Address.parse_text ha, rfl, hconcrete⟩
  have hsound : s.Sound _ := (Sound.new a.scheme).after _
  have hscheme : s.scheme = a.scheme := scheme_after _ _
  have hstate : s = ((new a.scheme).write (.set a.text v .unchecked)).2 := snd_call_write _ _
  clear_value s
  -- The write succeeds, as nothing is in its way.
  have hset : ((new a.scheme).write (.set a.text v .unchecked)).1 = .ok 1 := by
    rw [fst_write_set hparse]
    exact Tree.fst_set_new a hstorable
  have hwritten := eq_mk_of_fst_eq hset
  rw [← hstate] at hwritten
  have hread : s.get a.text = .ok ⟨1, v⟩ := get_of_set hv hwritten
  obtain ⟨_, hwrote⟩ := set_wrote hwritten
  obtain ⟨left, hleft⟩ := hwrote.written
  have hrevision : s.revision = 1 := hleft.revision_root
  -- So its target stands too deep below the root.
  obtain ⟨b, hb, hfound⟩ := get_eq_ok_iff.1 hread
  obtain ⟨part, hpart, -⟩ := Tree.get_eq_ok_iff.1 hfound
  rw [parseConcrete_eq_ok_iff, Address.parse_text ha] at hb
  cases hb.1
  have hroot : s.parseConcrete root = .ok s.rootAddress := by
    rw [parseConcrete_eq_ok_iff, rootAddress, hscheme]
    exact ⟨Address.parse_text ha.root, rfl, rfl⟩
  obtain ⟨w, -, hexport, hrefused⟩ := hsound.refused_of_deep hpart hdeep hroot expected
  rw [hrevision] at hexport
  exact ⟨hread, w.text, hexport, hrefused⟩

/-- For one, `true` at an address with 128 segments. -/
theorem deep_tree_not_imported :
    let deep : Address := ⟨"status", List.replicate 128 "a"⟩
    let s := (new "status").after [.write (.set deep.text (.bool true) .unchecked)]
    s.get deep.text = .ok ⟨1, .bool true⟩ ∧
      ∃ text, s.getText "status://" = .ok (text, 1) ∧
        s.setText "status://" text (.exact 1) = (.error (.json .grammar), s) := by
  intro deep s
  have hsegment : ∀ name ∈ deep.segments, name = "a" := fun name => List.eq_of_mem_replicate
  have hwf : deep.WellFormed := {
    scheme_ne := by decide
    scheme_slash := by decide
    segment_ne := fun name hname => by
      rw [hsegment name hname]
      decide
    segment_slash := fun name hname => by
      rw [hsegment name hname]
      decide }
  have hconcrete : deep.hasWildcard = false :=
    Address.hasWildcard_eq_false_iff.2 fun hmem => absurd (hsegment _ hmem) (by decide)
  have hdeep : Json.depthLimit < deep.segments.length := by
    rw [List.length_replicate]
    decide
  have hroot : (Address.root deep.scheme).text = "status://" := by cbv
  have hrefused := deep_value_not_imported hwf hconcrete hdeep (v := .bool true) trivial trivial
    (.exact 1)
  rw [hroot] at hrefused
  exact hrefused

end Switchboard.Store
