import Mathlib
import Switchboard.Proofs.Address.Grammar
import Switchboard.Proofs.Tree.Names
import Switchboard.Proofs.Tree.Rewriting
/-!
# The first offence of a value

`Json.Offends` says where a value cannot be stored, and why, for one key or item at a time: the keys
lead to an object, which has a key that no address can name, or to an array, which has an item with
parts. A value may have any number of offences. They are met in the order of their turns
(`Offence.turn`): the keys of an object in ascending order, each key before what is under it, the
items of an array by their positions.

A node is made of a value exactly if there is no offence, and else the offence whose turn comes
first is reported (`Json.FirstOffence`), at the address of the object or the array that it is in
(`Node.refused_for_first_offence`). That address can be read, since no key on the way to the first
offence is one itself.
-/

namespace Switchboard

/-! ## Addresses below an address -/

namespace Address

variable {a : Address} {name : String} {names : List String}

/-- The address at the end of a path of names below this one. -/
def below (a : Address) (names : List String) : Address :=
  ⟨a.scheme, a.segments ++ names⟩

@[simp] theorem below_nil : a.below [] = a := by
  rw [below, List.append_nil]

@[simp] theorem below_child : (a.child name).below names = a.below (name :: names) := by
  rw [below, child, below, List.append_assoc, List.singleton_append]

/-- The text of an address, extended by a name. Nothing is put behind the mark of a root, and a
slash behind any other address. -/
def extended (text name : String) : String :=
  if "://".toList <:+ text.toList then text ++ name else text ++ "/" ++ name

/-- The text of the address of the root ends in the mark, and that of no other one does. -/
theorem mark_suffix_text_iff (h : a.WellFormed) :
    "://".toList <:+ a.text.toList ↔ a.segments = [] := by
  have hsegments : ∀ s ∈ a.segments.map String.toList, s ≠ [] ∧ '/' ∉ s := by
    intro s hs
    obtain ⟨segment, hsegment, rfl⟩ := List.mem_map.1 hs
    exact ⟨h.segment_ne segment hsegment, h.segment_slash segment hsegment⟩
  rw [toList_text]
  constructor
  · rintro ⟨front, hfront⟩
    cases hnames : a.segments with
    | nil => rfl
    | cons first rest =>
      -- The text ends as its last segment does, which holds no slash.
      have hne : ['/'].intercalate (a.segments.map String.toList) ≠ [] := by
        rw [hnames, List.map_cons]
        exact intercalate_ne_nil (h.segment_ne first (hnames ▸ List.mem_cons_self))
      refine absurd ?_ (getLast?_intercalate_ne hsegments)
      have hlast := congrArg List.getLast? hfront
      rw [List.getLast?_append, List.getLast?_append, List.getLast?_cons_cons,
        List.getLast?_cons_cons, List.getLast?_cons] at hlast
      rw [List.getLast?_eq_some_getLast hne] at hlast ⊢
      simpa using hlast.symm
  · intro hnames
    rw [hnames]
    exact ⟨a.scheme.toList, rfl⟩

/-- The text of a child is that of its parent, extended by its name. -/
theorem text_child (h : a.WellFormed) : (a.child name).text = extended a.text name := by
  rw [extended]
  by_cases hroot : a.segments = []
  · rw [if_pos ((mark_suffix_text_iff h).2 hroot)]
    simp [text, child, hroot]
  · rw [if_neg fun hmark => hroot ((mark_suffix_text_iff h).1 hmark), text, child,
      String.intercalate_append_of_ne_nil hroot (List.cons_ne_nil name []),
      String.intercalate_singleton, text]
    simp only [String.append_assoc]

/-- The text of an address below this one is that of this one, extended by one name after the
other. -/
theorem text_below (h : a.WellFormed) (hnames : ∀ k ∈ names, Node.isAddressable k = true) :
    (a.below names).WellFormed ∧ (a.below names).text = names.foldl extended a.text := by
  induction names generalizing a with
  | nil =>
    rw [below_nil]
    exact ⟨h, rfl⟩
  | cons name names ih =>
    obtain ⟨hne, hslash, -⟩ := Node.isAddressable_iff.1 (hnames name List.mem_cons_self)
    have hchild : (a.child name).WellFormed := h.child (mt String.toList_eq_nil_iff.2 hne) hslash
    have hrest := ih hchild fun k hk => hnames k (List.mem_cons_of_mem name hk)
    rwa [below_child, text_child h] at hrest

end Address

/-! ## Where an offence is, and when it is met -/

namespace Json

/-- The value has this offence, in the object or the array that the keys lead to. -/
inductive Offends : Json → List String → Offence → Prop
  /-- An item of the array has parts. -/
  | element {items : List Json} {item : Json} {index : Nat} (hitem : items[index]? = some item)
      (hparts : item.isScalar = false) : Offends (.array items) [] (.listElement index)
  /-- No address can name a key of the object. -/
  | name {fields : List (String × Json)} {key : String} (hkey : key ∈ fields.map Prod.fst)
      (hname : Node.isAddressable key = false) : Offends (.object fields) [] (.childName key)
  /-- The offence is in the value of a field. -/
  | field {fields : List (String × Json)} {key : String} {value : Json} {keys : List String}
      {offence : Offence} (hfield : (key, value) ∈ fields) (h : Offends value keys offence) :
      Offends (.object fields) (key :: keys) offence

/-- The value is a part of the other one, at any depth, or that one itself. -/
inductive Within (part : Json) : Json → Prop
  | self : Within part part
  | item {items : List Json} {item : Json} (hitem : item ∈ items) (h : Within part item) :
      Within part (.array items)
  | field {fields : List (String × Json)} {key : String} {value : Json}
      (hfield : (key, value) ∈ fields) (h : Within part value) : Within part (.object fields)

/-- The value is an object with a key that no address can name, or an array with an item that has
parts. -/
inductive AtFault : Json → Prop
  | name {fields : List (String × Json)} {key : String} (hkey : key ∈ fields.map Prod.fst)
      (hname : Node.isAddressable key = false) : AtFault (.object fields)
  | element {items : List Json} {item : Json} (hitem : item ∈ items)
      (hparts : item.isScalar = false) : AtFault (.array items)

end Json

/-- When an offence is met, as the keys that are visited by then and a position behind them: an
address is visited before what is below it, and what is below a lesser key before a greater key. In
the place that the keys lead to, the place itself comes first and the items of an array follow. -/
def Offence.turn (keys : List String) : Offence → List String ×ₗ Nat
  | .childName key => toLex (keys ++ [key], 0)
  | .listElement index => toLex (keys, index + 1)

/-- The offence is the one that is met first. -/
structure Json.FirstOffence (v : Json) (keys : List String) (offence : Offence) : Prop where
  offends : v.Offends keys offence
  first : ∀ keys' offence', v.Offends keys' offence' → offence.turn keys ≤ offence'.turn keys'

/-! ## The order of turns -/

section

variable {key key' : String} {keys keys' : List String} {n n' : Nat}

/-- Under one key it is decided by what is below. -/
theorem turn_cons_le_cons_iff :
    toLex (key :: keys, n) ≤ toLex (key :: keys', n') ↔ toLex (keys, n) ≤ toLex (keys', n') := by
  simp [Prod.Lex.toLex_le_toLex]

/-- All that is below a lesser key comes before what is below a greater one. -/
theorem turn_cons_le_of_lt (h : key < key') : toLex (key :: keys, n) ≤ toLex (key' :: keys', n') :=
  Prod.Lex.toLex_le_toLex.2 (.inl (List.cons_lt_cons_iff.2 (.inl h)))

/-- Nothing comes before the place itself. -/
theorem turn_nil_le : toLex (([] : List String), 0) ≤ toLex (keys, n) := by
  rw [Prod.Lex.toLex_le_toLex]
  cases keys with
  | nil => exact .inr ⟨rfl, Nat.zero_le n⟩
  | cons key keys => exact .inl (List.nil_lt_cons key keys)

namespace Offence

variable {offence offence' : Offence}

theorem turn_cons (offence : Offence) (key : String) (keys : List String) :
    offence.turn (key :: keys) =
      toLex (key :: (ofLex (offence.turn keys)).1, (ofLex (offence.turn keys)).2) := by
  cases offence <;> rfl

theorem turn_cons_le_iff :
    offence.turn (key :: keys) ≤ offence'.turn (key :: keys') ↔
      offence.turn keys ≤ offence'.turn keys' := by
  rw [turn_cons, turn_cons, turn_cons_le_cons_iff]
  rfl

/-- No two offences have their turn at once. -/
theorem eq_of_turn_eq (h : offence.turn keys = offence'.turn keys') :
    keys = keys' ∧ offence = offence' := by
  have hpair := Prod.mk.inj (toLex.injective h)
  cases offence with
  | childName key =>
    cases offence' with
    | childName key' =>
      obtain ⟨rfl, hkey⟩ := List.append_inj' hpair.1 rfl
      exact ⟨rfl, congrArg childName (List.singleton_inj.1 hkey)⟩
    | listElement index => exact absurd hpair.2 (Nat.succ_ne_zero index).symm
  | listElement index =>
    cases offence' with
    | childName key => exact absurd hpair.2 (Nat.succ_ne_zero index)
    | listElement index' => exact ⟨hpair.1, congrArg listElement (Nat.succ.inj hpair.2)⟩

end Offence

end

namespace Json

variable {here : Address} {v w part : Json} {key : String} {keys keys' : List String}
  {offence offence' : Offence} {items : List Json} {rest fields : List (String × Json)}
  {e : StoreError} {n : Nat}

/-- There is only one first offence. -/
theorem FirstOffence.unique (h : v.FirstOffence keys offence) (h' : v.FirstOffence keys' offence') :
    keys = keys' ∧ offence = offence' :=
  Offence.eq_of_turn_eq <|
    le_antisymm (h.first keys' offence' h'.offends) (h'.first keys offence h.offends)

/-! ## Which values have offences -/

/-- An offence is an object or an array at fault, somewhere in the value. -/
theorem Offends.exists_within (h : v.Offends keys offence) :
    ∃ part, Within part v ∧ part.AtFault := by
  induction h with
  | element hitem hparts => exact ⟨_, .self, .element (List.mem_of_getElem? hitem) hparts⟩
  | name hkey hname => exact ⟨_, .self, .name hkey hname⟩
  | field hfield _ ih =>
    obtain ⟨part, hpart, hfault⟩ := ih
    exact ⟨part, .field hfield hpart, hfault⟩

/-- All parts of a value that can be stored can be stored. -/
theorem Within.isStorable (h : Within part v) (hv : v.IsStorable) : part.IsStorable := by
  induction h with
  | self => exact hv
  | @item items item hitem _ ih =>
    -- An item of an array that can be stored has no parts.
    refine ih ?_
    have hscalar : item.isScalar = true := hv item hitem
    cases item with
    | array | object => cases hscalar
    | null | bool | number | string => trivial
  | field hfield _ ih => exact ih (areStorable_iff.1 hv _ hfield).2

/-- What can be stored is not at fault. -/
theorem AtFault.not_isStorable (h : v.AtFault) : ¬ v.IsStorable := by
  intro hv
  cases h with
  | name hkey hname =>
    obtain ⟨field, hfield, rfl⟩ := List.mem_map.1 hkey
    exact Bool.false_ne_true (hname.symm.trans (areStorable_iff.1 hv field hfield).1)
  | element hitem hparts => exact Bool.false_ne_true (hparts.symm.trans (hv _ hitem))

theorem Offends.not_isStorable (h : v.Offends keys offence) : ¬ v.IsStorable := by
  obtain ⟨part, hpart, hfault⟩ := h.exists_within
  exact fun hv => hfault.not_isStorable (hpart.isStorable hv)

/-! ## The first one -/

/-- The offences of an object are that of its first key, those of the value under it, and those of
the other fields. -/
theorem offends_cons_iff : (object ((key, v) :: rest)).Offends keys offence ↔
    (keys = [] ∧ offence = .childName key ∧ Node.isAddressable key = false) ∨
    (∃ below, keys = key :: below ∧ v.Offends below offence) ∨
    (object rest).Offends keys offence := by
  constructor
  · intro h
    cases h with
    | name hkey hname =>
      rcases List.mem_cons.1 hkey with rfl | hkey
      · exact .inl ⟨rfl, rfl, hname⟩
      · exact .inr (.inr (.name hkey hname))
    | field hfield h =>
      rcases List.mem_cons.1 hfield with hfield | hfield
      · cases hfield
        exact .inr (.inl ⟨_, rfl, h⟩)
      · exact .inr (.inr (.field hfield h))
  · rintro (⟨rfl, rfl, hname⟩ | ⟨below, rfl, h⟩ | h)
    · exact .name List.mem_cons_self hname
    · exact .field List.mem_cons_self h
    · cases h with
      | name hkey hname => exact .name (List.mem_cons_of_mem _ hkey) hname
      | field hfield h => exact .field (List.mem_cons_of_mem _ hfield) h

/-- An offence of an object has its turn below one of the keys. -/
theorem Offends.exists_key (h : (object fields).Offends keys offence) :
    ∃ k ∈ fields.map Prod.fst, ∃ below count, offence.turn keys = toLex (k :: below, count) := by
  cases h with
  | name hkey => exact ⟨_, hkey, [], 0, rfl⟩
  | field hfield => exact ⟨_, List.mem_map_of_mem hfield, _, _, Offence.turn_cons _ _ _⟩

/-- If the first key is not at fault, what is below it comes before all other fields. -/
theorem FirstOffence.of_value (hkey : ∀ k ∈ rest.map Prod.fst, key < k)
    (hname : Node.isAddressable key = true) (h : v.FirstOffence keys offence) :
    (object ((key, v) :: rest)).FirstOffence (key :: keys) offence where
  offends := offends_cons_iff.2 (.inr (.inl ⟨keys, rfl, h.offends⟩))
  first := by
    intro keys' offence' h'
    rcases offends_cons_iff.1 h' with ⟨-, -, hother⟩ | ⟨below, rfl, hbelow⟩ | hrest
    · exact absurd (hother.symm.trans hname) Bool.false_ne_true
    · exact Offence.turn_cons_le_iff.2 (h.first below offence' hbelow)
    · obtain ⟨k, hk, below, count, hturn⟩ := hrest.exists_key
      rw [Offence.turn_cons, hturn]
      exact turn_cons_le_of_lt (hkey k hk)

/-- If there is no offence in the first field, the first one is in the others. -/
theorem FirstOffence.of_rest (hname : Node.isAddressable key = true) (hv : v.IsStorable)
    (h : (object rest).FirstOffence keys offence) :
    (object ((key, v) :: rest)).FirstOffence keys offence where
  offends := offends_cons_iff.2 (.inr (.inr h.offends))
  first := by
    intro keys' offence' h'
    rcases offends_cons_iff.1 h' with ⟨-, -, hother⟩ | ⟨below, -, hbelow⟩ | hrest
    · exact absurd (hother.symm.trans hname) Bool.false_ne_true
    · exact absurd hv hbelow.not_isStorable
    · exact h.first keys' offence' hrest

/-- A first key that is at fault comes before all else. -/
theorem firstOffence_of_name (hkey : ∀ k ∈ rest.map Prod.fst, key < k)
    (hname : Node.isAddressable key = false) :
    (object ((key, v) :: rest)).FirstOffence [] (.childName key) where
  offends := offends_cons_iff.2 (.inl ⟨rfl, rfl, hname⟩)
  first := by
    intro keys' offence' h'
    rcases offends_cons_iff.1 h' with ⟨rfl, rfl, -⟩ | ⟨below, rfl, -⟩ | hrest
    · exact le_refl _
    · rw [Offence.turn_cons]
      exact turn_cons_le_cons_iff.2 turn_nil_le
    · obtain ⟨k, hk, below, count, hturn⟩ := hrest.exists_key
      rw [hturn]
      exact turn_cons_le_of_lt (hkey k hk)

/-- The first report on the items of an array is about the first item that has parts. -/
theorem head?_itemOffences {index : Nat} (h : (itemOffences here index items).head? = some e) :
    ∃ i item, items[i]? = some item ∧ item.isScalar = false ∧
      (∀ j item', items[j]? = some item' → item'.isScalar = false → i ≤ j) ∧
      e = .unsupportedValue here.text (.listElement (index + i)) := by
  induction items generalizing index with
  | nil => cases h
  | cons item rest ih =>
    rw [itemOffences] at h
    cases hitem : item.isScalar with
    | false =>
      rw [hitem] at h
      exact ⟨0, item, rfl, hitem, fun j _ _ _ => Nat.zero_le j, (Option.some.inj h).symm⟩
    | true =>
      rw [hitem, if_pos rfl, List.nil_append] at h
      obtain ⟨i, other, hother, hparts, hfirst, rfl⟩ := ih h
      refine ⟨i + 1, other, hother, hparts, fun j item' hitem' hparts' => ?_, ?_⟩
      · cases j with
        | zero =>
          cases hitem'
          exact absurd (hparts'.symm.trans hitem) Bool.false_ne_true
        | succ j => exact Nat.succ_le_succ (hfirst j item' hitem' hparts')
      · rw [Nat.add_right_comm, Nat.add_assoc]

/-- What is reported: the first offence, with the address of the object or the array that it is in,
to which an address can go. -/
structure Reported (v : Json) (here : Address) (e : StoreError) (keys : List String)
    (offence : Offence) : Prop where
  first : v.FirstOffence keys offence
  names : ∀ k ∈ keys, Node.isAddressable k = true
  report : e = .unsupportedValue (here.below keys).text offence

mutual
/-- What stands first in the walk through a value is its first offence. -/
theorem exists_reported : ∀ {v : Json} {here : Address}, v.Ordered →
    (v.offences here).head? = some e → ∃ keys offence, v.Reported here e keys offence
  | .null, _, _, h | .bool _, _, _, h | .number _, _, _, h | .string _, _, _, h => by cases h
  | .array items, here, _, h => by
    obtain ⟨i, item, hitem, hparts, hfirst, rfl⟩ := head?_itemOffences h
    refine ⟨[], .listElement i, ⟨.element hitem hparts, fun keys' offence' h' => ?_⟩, nofun, ?_⟩
    · cases h' with
      | element hitem' hparts' =>
        refine Prod.Lex.toLex_le_toLex.2 (.inr ⟨rfl, ?_⟩)
        exact Nat.succ_le_succ (hfirst _ _ hitem' hparts')
    · rw [Address.below_nil, Nat.zero_add]
  | .object _, _, hv, h => exists_reported_fields hv.1 hv.2 h

/-- `exists_reported` for the fields of an object. -/
theorem exists_reported_fields : ∀ {fields : List (String × Json)} {here : Address},
    Keyed.Ascending fields → OrderedFields fields → (fieldOffences here fields).head? = some e →
    ∃ keys offence, (object fields).Reported here e keys offence
  | [], _, _, _, h => by cases h
  | (key, v) :: rest, here, hasc, hv, h => by
    obtain ⟨hkey, hrest⟩ := Keyed.ascending_cons.1 hasc
    rw [fieldOffences] at h
    cases hname : Node.isAddressable key with
    | false =>
      rw [hname] at h
      refine ⟨[], _, firstOffence_of_name hkey hname, nofun, ?_⟩
      rw [Address.below_nil]
      exact (Option.some.inj h).symm
    | true =>
      rw [hname, if_pos rfl, List.nil_append, List.head?_append] at h
      cases hhead : (v.offences (here.child key)).head? with
      | some first =>
        rw [hhead] at h
        cases h
        obtain ⟨keys, offence, hfirst, hnames, rfl⟩ := exists_reported hv.1 hhead
        refine ⟨key :: keys, offence, hfirst.of_value hkey hname, fun k hk => ?_, ?_⟩
        · rcases List.mem_cons.1 hk with rfl | hk
          · exact hname
          · exact hnames k hk
        · rw [Address.below_child]
      | none =>
        rw [hhead] at h
        have hstorable : v.IsStorable :=
          (offences_eq_nil_iff _ v).1 (List.head?_eq_none_iff.1 hhead)
        obtain ⟨keys, offence, hfirst, hnames, hreport⟩ := exists_reported_fields hrest hv.2 h
        exact ⟨keys, offence, hfirst.of_rest hname hstorable, hnames, hreport⟩
end

end Json

/-! ## The report -/

namespace Node

variable {n : Nat} {url : String} {here : Address} {v : Json} {node : Node} {e : StoreError}
  {keys : List String} {offence : Offence}

/-- What a node is made of can be stored. -/
theorem isStorable_of_ofJson (h : ofJson n here v = .ok node) : v.IsStorable := by
  have hnone : refusal? (ofJson n here v) = none := refusal?_eq_none_iff.2 ⟨node, h⟩
  rwa [refusal?_ofJson, List.head?_eq_none_iff, Json.offences_eq_nil_iff] at hnone

/-- A node is refused for the first offence of its value. -/
theorem reported_of_ofJson (hv : v.Ordered) (h : ofJson n here v = .error e) :
    ∃ keys offence, v.Reported here e keys offence := by
  rw [← refusal?_eq_some_iff, refusal?_ofJson] at h
  exact Json.exists_reported hv h

/-- If a value has a first offence, it is reported. -/
theorem ofJson_of_firstOffence (n : Nat) (here : Address) (hv : v.Ordered)
    (h : v.FirstOffence keys offence) :
    ∃ e, ofJson n here v = .error e ∧ v.Reported here e keys offence := by
  cases hnode : ofJson n here v with
  | ok node => exact absurd (isStorable_of_ofJson hnode) h.offends.not_isStorable
  | error e =>
    obtain ⟨keys', offence', hreported⟩ := reported_of_ofJson hv hnode
    obtain ⟨rfl, rfl⟩ := hreported.first.unique h
    exact ⟨e, rfl, hreported⟩

/-- **A value is refused for its first offence.** At an address that names one node, no node is made
of a value exactly if somewhere in it an object has a key that no address can name, or an array has
an item with parts. The error is that of the offence which is met first when the keys of objects are
visited in ascending order, each before what is under it, and it names the key or the position of
the item, and the address of the object or the array that it is in. That address names one node, and
its text is that of the address of the value, extended by the keys that lead there. A node that is
made is read back as the value, and all nodes in it have the revision that was given. -/
theorem refused_for_first_offence (n : Nat) (hread : Address.parse url = .ok here)
    (hconcrete : here.hasWildcard = false) (hv : v.Ordered) :
    ((∃ e, ofJson n here v = .error e) ↔ ∃ part, Json.Within part v ∧ part.AtFault) ∧
    (∀ e, ofJson n here v = .error e ↔ ∃ keys offence, v.FirstOffence keys offence ∧
      e = .unsupportedValue (here.below keys).text offence) ∧
    (∀ keys offence, v.FirstOffence keys offence →
      Address.parse (here.below keys).text = .ok (here.below keys) ∧
      (here.below keys).hasWildcard = false ∧
      (here.below keys).text = keys.foldl Address.extended here.text) ∧
    (∀ node, ofJson n here v = .ok node →
      node.toJson = v ∧ ∀ path part, node.get? path = some part → part.revision = n) := by
  have hwf : here.WellFormed := Address.wellFormed_of_parse hread
  refine ⟨⟨?_, ?_⟩, fun e => ⟨?_, ?_⟩, fun keys offence hfirst => ?_, fun node hnode => ?_⟩
  · rintro ⟨e, he⟩
    obtain ⟨keys, offence, hreported⟩ := reported_of_ofJson hv he
    exact hreported.first.offends.exists_within
  · rintro ⟨part, hpart, hfault⟩
    cases hnode : ofJson n here v with
    | ok node =>
      exact absurd (hpart.isStorable (isStorable_of_ofJson hnode)) hfault.not_isStorable
    | error e => exact ⟨e, rfl⟩
  · intro he
    obtain ⟨keys, offence, hreported⟩ := reported_of_ofJson hv he
    exact ⟨keys, offence, hreported.first, hreported.report⟩
  · rintro ⟨keys, offence, hfirst, rfl⟩
    obtain ⟨e, he, hreported⟩ := ofJson_of_firstOffence n here hv hfirst
    rw [he, hreported.report]
  · obtain ⟨e, -, hreported⟩ := ofJson_of_firstOffence n here hv hfirst
    obtain ⟨hbelow, htext⟩ := Address.text_below hwf hreported.names
    refine ⟨Address.parse_text hbelow, Address.hasWildcard_eq_false_iff.2 fun hmem => ?_, htext⟩
    rcases List.mem_append.1 hmem with hmem | hmem
    · exact Address.hasWildcard_eq_false_iff.1 hconcrete hmem
    · exact (isAddressable_iff.1 (hreported.names _ hmem)).2.2 rfl
  · have hholds : Holds n v node := ⟨here, hnode⟩
    refine ⟨hholds.toJson_eq hv, fun path part hpart => ?_⟩
    obtain ⟨w, -, hpart⟩ := hholds.of_get? hpart
    exact hpart.revision_eq

/-- Of a list with a list and an object in it, a key with a slash and another list, the list comes
first, since the way to it does; and of its items, the list. -/
theorem levels_reported_first :
    let v : Json := .object [("hall", .object [("lamp", .object [("levels",
      .array [.null, .array [], .object []])]), ("x/y", .null)]), ("~", .array [.array []])]
    Address.parse "status://" = .ok ⟨"status", []⟩ ∧ v.Ordered ∧
    ofJson 7 ⟨"status", []⟩ v =
      .error (.unsupportedValue "status://hall/lamp/levels" (.listElement 1)) ∧
    v.FirstOffence ["hall", "lamp", "levels"] (.listElement 1) := by
  intro v
  have hread : Address.parse "status://" = .ok ⟨"status", []⟩ := by cbv
  have hlevels : Address.parse "status://hall/lamp/levels" =
      .ok ⟨"status", ["hall", "lamp", "levels"]⟩ := by cbv
  have hv : v.Ordered := by
    simp only [v, Json.Ordered, Json.OrderedFields, Json.OrderedItems, and_true, true_and]
    decide
  have herror : ofJson 7 ⟨"status", []⟩ v =
      .error (.unsupportedValue "status://hall/lamp/levels" (.listElement 1)) := by
    subst v
    cbv
  obtain ⟨-, herrors, haddress, -⟩ := refused_for_first_offence 7 hread rfl hv
  obtain ⟨keys, offence, hfirst, heq⟩ := (herrors _).1 herror
  obtain ⟨htext, rfl⟩ := StoreError.unsupportedValue.inj heq
  obtain ⟨hparse, -⟩ := haddress keys _ hfirst
  rw [← htext, hlevels] at hparse
  obtain ⟨-, rfl⟩ := Address.mk.inj (Except.ok.inj hparse)
  exact ⟨hread, hv, herror, hfirst⟩

end Node

end Switchboard
