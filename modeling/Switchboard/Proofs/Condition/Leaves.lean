import Switchboard.Condition.Basic
/-!
# The numbers of the leaves

A leaf of a condition has a place, given by the positions of the parts on the way to it, and two
leaves at different places may well ask the same. The traversal that lists the leaves meets them in
the order of their places (`Condition.leafPlaces`), and the number of a leaf is its position there.

What a condition means is said for the truth at each place (`Condition.holdsAt`): *and* holds if
every part does, *or* if some part does, *not* if no part does. Reading the truth of each leaf from
a list, by a number that is counted up on the way, gives what the condition means when each place
has the truth at its number (`Condition.evaluate_number`). In particular the truths of the leaves in
their order give what the condition means when each leaf has its truth at hand
(`Condition.evaluate_leaves`).
-/

namespace Switchboard.Condition

/-! ## Places -/

/-- The parts of a combination. -/
def parts : Condition → List Condition
  | leaf _ => []
  | combine _ parts => parts

/-- The condition at a place. -/
def part? : List Nat → Condition → Option Condition
  | [], c => some c
  | i :: place, c => c.parts[i]?.bind (part? place)

mutual
/-- The places of the leaves, depth first. -/
def leafPlaces : Condition → List (List Nat)
  | leaf _ => [[]]
  | combine _ parts => leafPlacesFrom 0 parts

/-- The places of the leaves of several conditions, the first of which has the position `i`. -/
def leafPlacesFrom (i : Nat) : List Condition → List (List Nat)
  | [] => []
  | c :: cs => (leafPlaces c).map (i :: ·) ++ leafPlacesFrom (i + 1) cs
end

mutual
/-- The meaning of the condition, given the truth at the place of each leaf. -/
def holdsAt (truth : List Nat → Bool) : Condition → Bool
  | leaf _ => truth []
  | combine .all parts => allHoldAt truth 0 parts
  | combine .any parts => anyHoldsAt truth 0 parts
  | combine .no parts => !anyHoldsAt truth 0 parts

/-- All of the conditions hold, the first of which has the position `i`. -/
def allHoldAt (truth : List Nat → Bool) (i : Nat) : List Condition → Bool
  | [] => true
  | c :: cs => holdsAt (fun place => truth (i :: place)) c && allHoldAt truth (i + 1) cs

/-- Some of the conditions holds, the first of which has the position `i`. -/
def anyHoldsAt (truth : List Nat → Bool) (i : Nat) : List Condition → Bool
  | [] => false
  | c :: cs => holdsAt (fun place => truth (i :: place)) c || anyHoldsAt truth (i + 1) cs
end

/-- The meaning of each of several conditions, the first of which has the position `i`. -/
def holdEachAt (truth : List Nat → Bool) (i : Nat) : List Condition → List Bool
  | [] => []
  | c :: cs => holdsAt (fun place => truth (i :: place)) c :: holdEachAt truth (i + 1) cs

variable {c : Condition} {cs : List Condition} {l : LeafCondition} {place : List Nat}
  {results : List Bool} {truth : List Nat → Bool}

/-! ## The meaning of combinations -/

theorem allHoldAt_iff (i : Nat) : allHoldAt truth i cs = true ↔
    ∀ (j : Nat) c, cs[j]? = some c → c.holdsAt (fun place => truth ((i + j) :: place)) = true := by
  induction cs generalizing i with
  | nil => exact ⟨fun _ _ _ hc => (nomatch hc), fun _ => rfl⟩
  | cons first rest ih =>
    rw [allHoldAt, Bool.and_eq_true, ih]
    constructor
    · rintro ⟨hfirst, hrest⟩ (_ | j) c hc
      · cases hc
        exact hfirst
      · rw [← Nat.add_assoc, Nat.add_right_comm]
        exact hrest j c hc
    · refine fun h => ⟨h 0 first rfl, fun j c hc => ?_⟩
      rw [Nat.add_right_comm, Nat.add_assoc]
      exact h (j + 1) c hc

theorem anyHoldsAt_iff (i : Nat) : anyHoldsAt truth i cs = true ↔
    ∃ (j : Nat) (c : Condition), cs[j]? = some c ∧
      c.holdsAt (fun place => truth ((i + j) :: place)) = true := by
  induction cs generalizing i with
  | nil => exact ⟨fun h => (nomatch h), fun ⟨_, _, hc, _⟩ => (nomatch hc)⟩
  | cons first rest ih =>
    rw [anyHoldsAt, Bool.or_eq_true, ih]
    constructor
    · rintro (hfirst | ⟨j, c, hc, hholds⟩)
      · exact ⟨0, first, rfl, hfirst⟩
      · rw [Nat.add_right_comm, Nat.add_assoc] at hholds
        exact ⟨j + 1, c, hc, hholds⟩
    · rintro ⟨_ | j, c, hc, hholds⟩
      · cases hc
        exact .inl hholds
      · rw [← Nat.add_assoc, Nat.add_right_comm] at hholds
        exact .inr ⟨j, c, hc, hholds⟩

/-- *And* holds if every part does. -/
theorem holdsAt_all : (combine .all cs).holdsAt truth = true ↔
    ∀ (i : Nat) c, cs[i]? = some c → c.holdsAt (fun place => truth (i :: place)) = true := by
  rw [holdsAt, allHoldAt_iff]
  simp only [Nat.zero_add]

/-- *Or* holds if some part does. -/
theorem holdsAt_any : (combine .any cs).holdsAt truth = true ↔
    ∃ (i : Nat) (c : Condition), cs[i]? = some c ∧
      c.holdsAt (fun place => truth (i :: place)) = true := by
  rw [holdsAt, anyHoldsAt_iff]
  simp only [Nat.zero_add]

/-- *Not* holds if no part does. -/
theorem holdsAt_no : (combine .no cs).holdsAt truth = true ↔
    ¬ ∃ (i : Nat) (c : Condition), cs[i]? = some c ∧
      c.holdsAt (fun place => truth (i :: place)) = true := by
  rw [← holdsAt_any, holdsAt, holdsAt, Bool.not_eq_true', Bool.not_eq_true]

theorem all_holdEachAt (i : Nat) : (holdEachAt truth i cs).all id = allHoldAt truth i cs := by
  induction cs generalizing i with
  | nil => rfl
  | cons c cs ih => rw [holdEachAt, List.all_cons, ih, allHoldAt, id]

theorem any_holdEachAt (i : Nat) : (holdEachAt truth i cs).any id = anyHoldsAt truth i cs := by
  induction cs generalizing i with
  | nil => rfl
  | cons c cs ih => rw [holdEachAt, List.any_cons, ih, anyHoldsAt, id]

/-- A combination computes what it means. -/
theorem fold_holdEachAt (how : Combinator) (truth : List Nat → Bool) (cs : List Condition) :
    how.fold (holdEachAt truth 0 cs) = (combine how cs).holdsAt truth := by
  cases how with
  | all => exact all_holdEachAt 0
  | any => exact any_holdEachAt 0
  | no => exact congrArg not (any_holdEachAt 0)

/-! ## The places of the leaves -/

mutual
/-- The leaves are listed in the order of their places. -/
theorem map_part?_leafPlaces : ∀ c : Condition,
    (leafPlaces c).map (c.part? ·) = c.leaves.map (some <| leaf ·)
  | leaf _ => rfl
  | combine how parts => by
    rw [leafPlaces, leaves]
    exact map_part?_leafPlacesFrom how [] parts

/-- `map_part?_leafPlaces` for the last parts of a combination. -/
theorem map_part?_leafPlacesFrom (how : Combinator) (front : List Condition) :
    ∀ cs : List Condition,
      (leafPlacesFrom front.length cs).map ((combine how (front ++ cs)).part? ·) =
        (leavesOf cs).map (some <| leaf ·)
  | [] => rfl
  | c :: cs => by
    have hrest := map_part?_leafPlacesFrom how (front ++ [c]) cs
    rw [List.length_append, List.length_singleton, List.append_assoc,
      List.singleton_append] at hrest
    rw [leafPlacesFrom, leavesOf, List.map_append, List.map_append, hrest, ← map_part?_leafPlaces c,
      List.map_map]
    congr 1
    refine List.map_congr_left fun place _ => ?_
    show (front ++ c :: cs)[front.length]?.bind (part? place) = c.part? place
    rw [List.getElem?_append_right (Nat.le_refl _), Nat.sub_self]
    rfl
end

theorem length_leafPlaces (c : Condition) : c.leafPlaces.length = c.leaves.length := by
  have hlength := congrArg List.length (map_part?_leafPlaces c)
  rwa [List.length_map, List.length_map] at hlength

theorem mem_leafPlacesFrom {i : Nat} (hc : cs[i]? = some c) (hplace : place ∈ c.leafPlaces)
    (j : Nat) : (j + i) :: place ∈ leafPlacesFrom j cs := by
  induction cs generalizing i j with
  | nil => cases hc
  | cons first rest ih =>
    rw [leafPlacesFrom, List.mem_append]
    cases i with
    | zero =>
      cases hc
      exact .inl (List.mem_map_of_mem hplace)
    | succ i =>
      have hrest := ih hc (j + 1)
      rw [Nat.add_right_comm] at hrest
      exact .inr hrest

/-- Every leaf has its place among those of the leaves. -/
theorem mem_leafPlaces (h : c.part? place = some (leaf l)) : place ∈ c.leafPlaces := by
  induction place generalizing c with
  | nil =>
    cases h
    exact List.mem_singleton_self _
  | cons i place ih =>
    obtain ⟨part, hpart, hbelow⟩ := Option.bind_eq_some_iff.1 h
    cases c with
    | leaf => cases hpart
    | combine how parts =>
      have hmem := mem_leafPlacesFrom hpart (ih hbelow) 0
      rwa [Nat.zero_add] at hmem

theorem exists_of_mem_leafPlacesFrom {j : Nat} (h : place ∈ leafPlacesFrom j cs) :
    ∃ i below, j ≤ i ∧ place = i :: below := by
  induction cs generalizing j with
  | nil => cases h
  | cons first rest ih =>
    rw [leafPlacesFrom, List.mem_append] at h
    rcases h with h | h
    · obtain ⟨below, -, rfl⟩ := List.mem_map.1 h
      exact ⟨j, below, Nat.le_refl j, rfl⟩
    · obtain ⟨i, below, hle, rfl⟩ := ih h
      exact ⟨i, below, Nat.le_of_succ_le hle, rfl⟩

mutual
/-- The places of the leaves ascend. -/
theorem pairwise_leafPlaces : ∀ c : Condition, (leafPlaces c).Pairwise (· < ·)
  | leaf _ => List.pairwise_singleton _ _
  | combine _ parts => pairwise_leafPlacesFrom 0 parts

/-- `pairwise_leafPlaces` for several conditions. -/
theorem pairwise_leafPlacesFrom (i : Nat) :
    ∀ cs : List Condition, (leafPlacesFrom i cs).Pairwise (· < ·)
  | [] => .nil
  | c :: cs => by
    rw [leafPlacesFrom, List.pairwise_append, List.pairwise_map]
    refine ⟨(pairwise_leafPlaces c).imp fun h => List.cons_lt_cons_iff.2 (.inr ⟨rfl, h⟩),
      pairwise_leafPlacesFrom (i + 1) cs, fun place hplace other hother => ?_⟩
    obtain ⟨below, -, rfl⟩ := List.mem_map.1 hplace
    obtain ⟨j, below', hle, rfl⟩ := exists_of_mem_leafPlacesFrom hother
    exact List.cons_lt_cons_iff.2 (.inl hle)
end

/-! ## Evaluation -/

mutual
/-- The truth of a condition, if the place of each leaf has the truth that is read at its number. -/
theorem evaluate_eq (results : List Bool) : ∀ (c : Condition) (k : Nat) (truth : List Nat → Bool),
    (∀ (i : Nat) place, c.leafPlaces[i]? = some place → truth place = results.getD (k + i) false) →
    c.evaluate results k = (c.holdsAt truth, k + c.leaves.length)
  | leaf _, k, truth, h => by
    rw [evaluate, holdsAt, h 0 [] rfl]
    rfl
  | combine how parts, k, truth, h => by
    rw [evaluate, evaluateEach_eq results parts k 0 truth h, leaves, ← fold_holdEachAt]

/-- `evaluate_eq` for several conditions, the first of which has the position `j`. -/
theorem evaluateEach_eq (results : List Bool) :
    ∀ (cs : List Condition) (k j : Nat) (truth : List Nat → Bool),
      (∀ (i : Nat) place, (leafPlacesFrom j cs)[i]? = some place →
        truth place = results.getD (k + i) false) →
      evaluateEach results k cs = (holdEachAt truth j cs, k + (leavesOf cs).length)
  | [], _, _, _, _ => rfl
  | c :: cs, k, j, truth, h => by
    have hlength : ((leafPlaces c).map (j :: ·)).length = c.leaves.length := by
      rw [List.length_map, length_leafPlaces]
    have hfirst := evaluate_eq results c k (truth <| j :: ·) fun i place hplace => by
      refine h i (j :: place) ?_
      obtain ⟨hi, -⟩ := List.getElem?_eq_some_iff.1 hplace
      rw [leafPlacesFrom, List.getElem?_append_left (by rwa [List.length_map]), List.getElem?_map,
        hplace]
      rfl
    have hrest := evaluateEach_eq results cs (k + c.leaves.length) (j + 1) truth
      fun i place hplace => by
        rw [Nat.add_assoc]
        refine h (c.leaves.length + i) place ?_
        rw [leafPlacesFrom, List.getElem?_append_right (hlength ▸ Nat.le_add_right _ _), hlength,
          Nat.add_sub_cancel_left, hplace]
    rw [evaluateEach, hfirst]
    dsimp only
    rw [hrest, holdEachAt, leavesOf, List.length_append, Nat.add_assoc]
end

/-- The number of the leaf at a place. -/
def number (c : Condition) (place : List Nat) : Nat :=
  c.leafPlaces.idxOf place

/-- **Every leaf reads the truth at its number**, counted from where the evaluation starts, which
ends behind the number of the last leaf. -/
theorem evaluate_number (results : List Bool) (c : Condition) (k : Nat) :
    c.evaluate results k =
      (c.holdsAt fun place => results.getD (k + c.number place) false, k + c.leaves.length) := by
  refine evaluate_eq results c k _ fun i place hplace => ?_
  obtain ⟨hi, rfl⟩ := List.getElem?_eq_some_iff.1 hplace
  have hnodup : c.leafPlaces.Nodup := (pairwise_leafPlaces c).imp fun hlt => by
    rintro rfl
    exact List.lt_irrefl _ hlt
  rw [number, hnodup.idxOf_getElem i hi]

/-! ## Truths of leaves -/

/-- The leaf at a place of a condition is true. -/
def leafTruth (truth : LeafCondition → Bool) (c : Condition) (place : List Nat) : Bool :=
  match c.part? place with
  | some (leaf l) => truth l
  | _ => false

/-- What the leaves of a part are in the whole. -/
theorem leafTruth_part (truth : LeafCondition → Bool) (how : Combinator) (front : List Condition)
    (c : Condition) (cs : List Condition) :
    (fun place => leafTruth truth (combine how (front ++ c :: cs)) (front.length :: place)) =
      leafTruth truth c := by
  funext place
  have hpart : (combine how (front ++ c :: cs)).part? (front.length :: place) = c.part? place := by
    show (front ++ c :: cs)[front.length]?.bind (part? place) = c.part? place
    rw [List.getElem?_append_right (Nat.le_refl _), Nat.sub_self]
    rfl
  rw [leafTruth, hpart, leafTruth]

mutual
/-- A condition in which the truth at each place is that of the leaf. -/
theorem holdsAt_leafTruth (truth : LeafCondition → Bool) :
    ∀ c : Condition, c.holdsAt (leafTruth truth c) = c.holds truth
  | leaf _ => rfl
  | combine .all parts => (eachAt_leafTruth truth .all [] parts).1
  | combine .any parts => (eachAt_leafTruth truth .any [] parts).2
  | combine .no parts => congrArg not (eachAt_leafTruth truth .no [] parts).2

/-- `holdsAt_leafTruth` for the last parts of a combination. -/
theorem eachAt_leafTruth (truth : LeafCondition → Bool) (how : Combinator)
    (front : List Condition) : ∀ cs : List Condition,
      allHoldAt (leafTruth truth (combine how (front ++ cs))) front.length cs = allHold truth cs ∧
      anyHoldsAt (leafTruth truth (combine how (front ++ cs))) front.length cs = anyHolds truth cs
  | [] => ⟨rfl, rfl⟩
  | c :: cs => by
    have hfirst := leafTruth_part truth how front c cs
    have hrest := eachAt_leafTruth truth how (front ++ [c]) cs
    rw [List.length_append, List.length_singleton, List.append_assoc,
      List.singleton_append] at hrest
    rw [allHoldAt, anyHoldsAt, hfirst, holdsAt_leafTruth truth c, hrest.1, hrest.2, allHold,
      anyHolds]
    exact ⟨rfl, rfl⟩
end

/-- The truths of the leaves in their order give what the condition means. -/
theorem evaluate_leaves (truth : LeafCondition → Bool) (c : Condition) :
    c.evaluate (c.leaves.map truth) 0 = (c.holds truth, c.leaves.length) := by
  rw [← holdsAt_leafTruth, evaluate_eq _ c 0 (leafTruth truth c), Nat.zero_add]
  intro i place hplace
  have hpart := congrArg (·[i]?) (map_part?_leafPlaces c)
  simp only [List.getElem?_map, hplace, Option.map_some] at hpart
  obtain ⟨l, hl, hpart⟩ := Option.map_eq_some_iff.1 hpart.symm
  rw [leafTruth, ← hpart, Nat.zero_add, List.getD_eq_getElem?_getD, List.getElem?_map, hl]
  rfl

end Switchboard.Condition
