import Switchboard.Keyed
/-!
# Laws of keyed lists

A keyed list is seen through `List.lookup`. `Keyed.insert` and `Keyed.erase` change what is found
under their own key and nothing else, whatever the list; on an ascending list, which holds each key
once, the pairs of the list are exactly what is found (`mem_iff_lookup`). Both keep the order.
-/

namespace Switchboard.Keyed

universe u v

variable {α : Type u} {m : List (String × α)} {key k : String} {value : α}

/-! ## Looking up -/

/-- What was inserted is found. -/
@[simp] theorem lookup_insert_self : (insert key value m).lookup key = some value := by
  induction m with
  | nil => simp [insert]
  | cons entry rest ih =>
    obtain ⟨k, v⟩ := entry
    simp only [insert]
    split
    · simp
    · split
      · simp
      · next hne => rw [List.lookup_cons, beq_false_of_ne hne, ih]

/-- An insertion changes nothing under another key. -/
theorem lookup_insert_of_ne (h : k ≠ key) : (insert key value m).lookup k = m.lookup k := by
  induction m with
  | nil => simp [insert, h]
  | cons entry rest ih =>
    obtain ⟨l, w⟩ := entry
    simp only [insert]
    split
    · rw [List.lookup_cons, beq_false_of_ne h]
    · split
      · next heq =>
        subst heq
        rw [List.lookup_cons, List.lookup_cons, beq_false_of_ne h]
      · rw [List.lookup_cons, List.lookup_cons, ih]

/-- What was erased is not found. -/
@[simp] theorem lookup_erase_self : (erase key m).lookup key = none := by
  rw [List.lookup_eq_none_iff]
  intro entry hentry
  have hne : entry.1 ≠ key := by simpa using (List.mem_filter.1 hentry).2
  exact bne_iff_ne.2 hne.symm

/-- Erasing changes nothing under another key. -/
theorem lookup_erase_of_ne (h : k ≠ key) : (erase key m).lookup k = m.lookup k := by
  induction m with
  | nil => rfl
  | cons entry rest ih =>
    obtain ⟨l, w⟩ := entry
    by_cases hl : l = key
    · subst hl
      rw [erase, List.filter_cons_of_neg (by simp), List.lookup_cons, beq_false_of_ne h]
      exact ih
    · rw [erase, List.filter_cons_of_pos (by simpa using hl), List.lookup_cons, List.lookup_cons]
      rw [show List.lookup k (List.filter _ rest) = _ from ih]

/-- What is found under a key is paired with it. -/
theorem mem_of_lookup {κ : Type u} [BEq κ] [LawfulBEq κ] {m : List (κ × α)} {k : κ}
    (h : m.lookup k = some value) : (k, value) ∈ m := by
  obtain ⟨before, after, rfl, -⟩ := List.lookup_eq_some_iff.1 h
  simp

/-- What is found after the values were changed. -/
theorem lookup_map {κ : Type u} [BEq κ] [LawfulBEq κ] (m : List (κ × α))
    (f : κ → α → α) (k : κ) :
    (m.map fun entry => (entry.1, f entry.1 entry.2)).lookup k = (m.lookup k).map (f k) := by
  induction m with
  | nil => rfl
  | cons entry rest ih =>
    rw [List.map_cons, List.lookup_cons, List.lookup_cons]
    by_cases hk : k = entry.1
    · subst hk
      simp
    · rw [beq_false_of_ne hk]
      exact ih

/-- The keys of a keyed list are those under which something is found. -/
theorem mem_keys_iff {κ : Type v} [BEq κ] [LawfulBEq κ] {m : List (κ × α)} {k : κ} :
    k ∈ m.map Prod.fst ↔ ∃ v, m.lookup k = some v := by
  rw [← Option.isSome_iff_exists, List.lookup_isSome_iff, List.mem_map]
  constructor
  · rintro ⟨entry, hentry, rfl⟩
    exact ⟨entry, hentry, beq_self_eq_true _⟩
  · rintro ⟨entry, hentry, heq⟩
    exact ⟨entry, hentry, (eq_of_beq heq).symm⟩

theorem lookup_eq_none_iff {κ : Type v} [BEq κ] [LawfulBEq κ] {m : List (κ × α)} {k : κ} :
    m.lookup k = none ↔ k ∉ m.map Prod.fst := by
  rw [mem_keys_iff, not_exists, Option.eq_none_iff_forall_ne_some]

/-- Where nothing is found, there is nothing to leave out. -/
theorem filter_of_lookup_eq_none {κ : Type v} [BEq κ] [LawfulBEq κ] [DecidableEq κ]
    {m : List (κ × α)} {k : κ} (h : m.lookup k = none) :
    (m.filter fun entry => entry.1 ≠ k) = m := by
  refine List.filter_eq_self.2 fun entry hentry => ?_
  have hne : entry.1 ≠ k := fun heq =>
    lookup_eq_none_iff.1 h (heq ▸ List.mem_map_of_mem hentry)
  simpa using hne

/-- The keys after an insertion. -/
theorem mem_keys_insert :
    k ∈ (insert key value m).map Prod.fst ↔ k = key ∨ k ∈ m.map Prod.fst := by
  rw [mem_keys_iff, mem_keys_iff]
  by_cases h : k = key
  · subst h; simp
  · simp [lookup_insert_of_ne h, h]

/-- A pair of the list after an insertion is the inserted one or was there before. -/
theorem mem_insert {entry : String × α} (h : entry ∈ insert key value m) :
    entry = (key, value) ∨ entry ∈ m := by
  induction m with
  | nil => exact .inl (List.mem_singleton.1 h)
  | cons head rest ih =>
    obtain ⟨l, w⟩ := head
    simp only [insert] at h
    split at h
    · exact List.mem_cons.1 h
    · split at h
      · rcases List.mem_cons.1 h with h | h
        · exact .inl h
        · exact .inr (List.mem_cons_of_mem _ h)
      · rcases List.mem_cons.1 h with h | h
        · exact .inr (h ▸ List.mem_cons_self)
        · exact (ih h).imp_right (List.mem_cons_of_mem _)

/-- A pair of the map of a list of pairs is one of them. -/
theorem mem_ofList {entry : String × α} {pairs : List (String × α)} (h : entry ∈ ofList pairs) :
    entry ∈ pairs := by
  suffices hm : ∀ m : List (String × α),
      entry ∈ pairs.foldl (fun m e => insert e.1 e.2 m) m → entry ∈ m ∨ entry ∈ pairs from
    (hm [] h).resolve_left List.not_mem_nil
  clear h
  induction pairs with
  | nil => exact fun m h => .inl h
  | cons pair rest ih =>
    intro m h
    rcases ih _ h with h | h
    · rcases mem_insert h with rfl | h
      · exact .inr List.mem_cons_self
      · exact .inl h
    · exact .inr (List.mem_cons_of_mem _ h)

/-- The keys of the map of a list of pairs are the keys of the pairs. -/
theorem mem_keys_ofList {pairs : List (String × α)} :
    k ∈ (ofList pairs).map Prod.fst ↔ k ∈ pairs.map Prod.fst := by
  suffices hm : ∀ m : List (String × α),
      k ∈ (pairs.foldl (fun m e => insert e.1 e.2 m) m).map Prod.fst ↔
        k ∈ m.map Prod.fst ∨ k ∈ pairs.map Prod.fst from
    (hm []).trans (or_iff_right List.not_mem_nil)
  induction pairs with
  | nil => exact fun m => (or_iff_left List.not_mem_nil).symm
  | cons pair rest ih =>
    intro m
    rw [List.foldl_cons, ih, mem_keys_insert, List.map_cons, List.mem_cons, or_comm (a := k = _),
      or_assoc]

/-- If no key is paired with two values, the pairs of the map are those of the list. -/
theorem mem_ofList_iff {entry : String × α} {pairs : List (String × α)}
    (h : ∀ k v w, (k, v) ∈ pairs → (k, w) ∈ pairs → v = w) :
    entry ∈ ofList pairs ↔ entry ∈ pairs := by
  refine ⟨mem_ofList, fun hentry => ?_⟩
  have hkey : entry.1 ∈ (ofList pairs).map Prod.fst :=
    mem_keys_ofList.2 (List.mem_map_of_mem hentry)
  obtain ⟨other, hother, hfst⟩ := List.mem_map.1 hkey
  have hsnd : entry.2 = other.2 := h _ _ _ hentry (hfst ▸ mem_ofList hother)
  rwa [Prod.ext hfst.symm hsnd]

/-! ## Order -/

/-- The order of a longer list. -/
theorem ascending_cons {rest : List (String × α)} :
    Ascending ((key, value) :: rest) ↔ (∀ k ∈ rest.map Prod.fst, key < k) ∧ Ascending rest :=
  List.pairwise_cons

/-- An insertion keeps the order. -/
theorem Ascending.insert (h : Ascending m) : Ascending (insert key value m) := by
  induction m with
  | nil => exact List.pairwise_singleton _ _
  | cons head rest ih =>
    obtain ⟨l, w⟩ := head
    obtain ⟨hl, hrest⟩ := ascending_cons.1 h
    simp only [Keyed.insert]
    split
    · next hlt =>
      refine ascending_cons.2 ⟨fun k hk => ?_, h⟩
      rcases List.mem_cons.1 hk with rfl | hk
      · exact hlt
      · exact String.lt_trans hlt (hl k hk)
    · split
      · next heq => exact ascending_cons.2 ⟨heq ▸ hl, hrest⟩
      · next hnlt hne =>
        refine ascending_cons.2 ⟨fun k hk => ?_, ih hrest⟩
        rcases mem_keys_insert.1 hk with rfl | hk
        · exact Std.lt_of_le_of_ne (Std.not_lt.1 hnlt) (Ne.symm hne)
        · exact hl k hk

/-- The map of a list of pairs is in order. -/
theorem ascending_ofList {pairs : List (String × α)} : Ascending (ofList pairs) := by
  suffices hm : ∀ m : List (String × α), Ascending m →
      Ascending (pairs.foldl (fun m e => insert e.1 e.2 m) m) from hm [] .nil
  induction pairs with
  | nil => exact fun m h => h
  | cons pair rest ih => exact fun m h => ih _ h.insert

/-- Erasing keeps the order. -/
theorem Ascending.erase (h : Ascending m) : Ascending (erase key m) := by
  unfold Ascending Keyed.erase at *
  rw [List.pairwise_map] at *
  exact h.filter _

/-- A list in order has no key twice. -/
theorem Ascending.nodup_keys (h : Ascending m) : (m.map Prod.fst).Nodup := by
  refine List.Pairwise.imp (fun {k l} hlt heq => ?_) h
  exact String.lt_irrefl l (heq ▸ hlt)

/-- A list in order has no pair twice. -/
theorem Ascending.nodup (h : Ascending m) : m.Nodup :=
  (List.pairwise_map.1 h.nodup_keys).imp fun hne heq => hne (congrArg Prod.fst heq)

/-- Two lists in order that have the same pairs are the same. -/
theorem Ascending.ext {m' : List (String × α)} (h : Ascending m) (h' : Ascending m')
    (hmem : ∀ entry, entry ∈ m ↔ entry ∈ m') : m = m' := by
  have hperm : m.Perm m' := (List.perm_ext_iff_of_nodup h.nodup h'.nodup).2 hmem
  refine hperm.eq_of_pairwise (fun a b _ _ hab hba => ?_) (List.pairwise_map.1 h)
    (List.pairwise_map.1 h')
  exact absurd (String.lt_trans hab hba) (String.lt_irrefl _)

/-- A key that is below all others is inserted in front. -/
theorem insert_of_lt (h : ∀ k ∈ m.map Prod.fst, key < k) :
    insert key value m = (key, value) :: m := by
  cases m with
  | nil => rfl
  | cons head rest => exact if_pos (h _ List.mem_cons_self)

/-- The pairs of an ascending list are what is found in it. -/
theorem mem_iff_lookup (h : Ascending m) : (k, value) ∈ m ↔ m.lookup k = some value := by
  induction m with
  | nil => simp
  | cons head rest ih =>
    obtain ⟨l, w⟩ := head
    obtain ⟨hl, hrest⟩ := ascending_cons.1 h
    rw [List.mem_cons, ih hrest, List.lookup_cons]
    by_cases hk : k = l
    · subst hk
      have hnone : rest.lookup k = none :=
        lookup_eq_none_iff.2 fun hmem => String.lt_irrefl _ (hl k hmem)
      simp [hnone, eq_comm]
    · rw [beq_false_of_ne hk]
      simp [hk]

/-- The map of a list that is in order is the list. -/
theorem ofList_eq (h : Ascending m) : ofList m = m := by
  refine ascending_ofList.ext h fun entry => mem_ofList_iff fun k v w hv hw => ?_
  rw [mem_iff_lookup h] at hv hw
  exact Option.some.inj (hv.symm.trans hw)

end Switchboard.Keyed
