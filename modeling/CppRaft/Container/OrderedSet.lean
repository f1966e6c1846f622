import Mathlib.Data.List.Basic

/-!
# Ordered sets with a comparator

A set is the list of its elements in ascending order.  The comparator has to be
a strict weak order, and two elements are the same for the set when neither
comes before the other.
-/

namespace CppRaft.Container

universe u

variable {α : Type u} {before later : α → α → Bool} {x y : α} {l : List α}

/-- A strict weak order: what is between two comparable elements is comparable
with one of them. -/
structure StrictWeak (before : α → α → Bool) : Prop where
  irrefl : ∀ x, before x x = false
  trans : ∀ {x y z}, before x y = true → before y z = true → before x z = true
  weak : ∀ {x z}, before x z = true → ∀ y, before x y = true ∨ before y z = true

/-- The list holds its elements in ascending order. -/
def Sorted (before : α → α → Bool) (l : List α) : Prop :=
  l.Pairwise fun x y => before x y = true

/-- Insert an element, unless the set has one that is the same for it. -/
def insert (before : α → α → Bool) (x : α) : List α → List α
  | [] => [x]
  | y :: l =>
      if before y x then y :: insert before x l
      else if before x y then x :: y :: l
      else y :: l

/-- The element that is the same as `x` for the set. -/
def find (before : α → α → Bool) (x : α) : List α → Option α
  | [] => none
  | y :: l => if before y x then find before x l else if before x y then none else some y

/-- The set split at the first element that is not below a key. -/
def lowerBound (below : α → Bool) (l : List α) : List α × List α :=
  (l.takeWhile below, l.dropWhile below)

/-- An element that is in the set is found. -/
theorem find_of_mem (weak : StrictWeak before) (sorted : Sorted before l) (member : x ∈ l) :
    find before x l = some x := by
  induction l with
  | nil => cases member
  | cons y l ih =>
      rw [Sorted, List.pairwise_cons] at sorted
      rw [find]
      rcases List.mem_cons.mp member with rfl | inside
      · rw [weak.irrefl]
        rfl
      · rw [sorted.1 x inside, if_pos rfl]
        exact ih sorted.2 inside

theorem mem_of_mem_insert {z : α} (member : z ∈ insert before x l) : z = x ∨ z ∈ l := by
  induction l with
  | nil => exact Or.inl (List.mem_singleton.mp member)
  | cons y l ih =>
      rw [insert] at member
      split_ifs at member with after front
      · rcases List.mem_cons.mp member with rfl | inside
        · exact Or.inr List.mem_cons_self
        · exact (ih inside).imp_right (List.mem_cons_of_mem y)
      · exact List.mem_cons.mp member
      · exact Or.inr member

/-- Insertion adds an element that is comparable with all others. -/
theorem mem_insert (comparable : ∀ y ∈ l, before x y = true ∨ before y x = true) {z : α} :
    z ∈ insert before x l ↔ z = x ∨ z ∈ l := by
  refine ⟨mem_of_mem_insert, ?_⟩
  induction l with
  | nil => simp [insert]
  | cons y l ih =>
      intro member
      rw [insert]
      split_ifs with after front
      · rcases member with rfl | inside
        · exact List.mem_cons_of_mem _
            (ih (fun y' old => comparable y' (List.mem_cons_of_mem _ old)) (Or.inl rfl))
        · rcases List.mem_cons.mp inside with rfl | old
          · exact List.mem_cons_self
          · exact List.mem_cons_of_mem _
              (ih (fun y' old => comparable y' (List.mem_cons_of_mem _ old)) (Or.inr old))
      · exact List.mem_cons.mpr member
      · rcases comparable y List.mem_cons_self with first | first
        · exact absurd first front
        · exact absurd first after

/-- Insertion keeps the order. -/
theorem Sorted.insert (sorted : Sorted before l) (weak : StrictWeak before) :
    Sorted before (insert before x l) := by
  induction l with
  | nil => exact List.pairwise_singleton _ _
  | cons y l ih =>
      obtain ⟨least, rest⟩ := List.pairwise_cons.mp sorted
      rw [Container.insert]
      split_ifs with after front
      · refine List.pairwise_cons.mpr ⟨?_, ih rest⟩
        intro z member
        rcases mem_of_mem_insert member with rfl | old
        · exact after
        · exact least z old
      · refine List.pairwise_cons.mpr ⟨?_, sorted⟩
        intro z member
        rcases List.mem_cons.mp member with rfl | old
        · exact front
        · exact weak.trans front (least z old)
      · exact sorted

theorem Sorted.sublist {l' : List α} (sorted : Sorted before l) (sub : l'.Sublist l) :
    Sorted before l' :=
  List.Pairwise.sublist sub sorted

theorem Sorted.nodup (sorted : Sorted before l) (weak : StrictWeak before) : l.Nodup := by
  refine List.Pairwise.imp ?_ sorted
  rintro x y first rfl
  rw [weak.irrefl] at first
  cases first

/-- The order of a set only depends on how its own elements compare. -/
theorem Sorted.congr (sorted : Sorted before l)
    (agrees : ∀ x ∈ l, ∀ y ∈ l, later x y = before x y) : Sorted later l := by
  refine List.Pairwise.imp_of_mem ?_ sorted
  intro x y here there first
  rw [agrees x here y there]
  exact first

/-- The first elements of a set up to a bound are those below it. -/
theorem Sorted.mem_takeWhile (sorted : Sorted before l) {below : α → Bool}
    (closed : ∀ x ∈ l, ∀ y ∈ l, before x y = true → below y = true → below x = true) :
    x ∈ l.takeWhile below ↔ x ∈ l ∧ below x = true := by
  induction l with
  | nil => simp
  | cons y l ih =>
      obtain ⟨least, rest⟩ := List.pairwise_cons.mp sorted
      have tail := ih rest fun x here y there =>
        closed x (List.mem_cons_of_mem _ here) y (List.mem_cons_of_mem _ there)
      by_cases first : below y = true
      · rw [List.takeWhile_cons_of_pos first, List.mem_cons, List.mem_cons, tail]
        constructor
        · rintro (rfl | found)
          · exact ⟨Or.inl rfl, first⟩
          · exact ⟨Or.inr found.1, found.2⟩
        · rintro ⟨rfl | inside, found⟩
          · exact Or.inl rfl
          · exact Or.inr ⟨inside, found⟩
      · rw [List.takeWhile_cons_of_neg first]
        constructor
        · intro member
          cases member
        · rintro ⟨member, found⟩
          rcases List.mem_cons.mp member with rfl | inside
          · exact absurd found first
          · exact absurd (closed y List.mem_cons_self x (List.mem_cons_of_mem _ inside)
              (least x inside) found) first

/-- The elements behind the bound are the others. -/
theorem Sorted.mem_dropWhile (sorted : Sorted before l) (weak : StrictWeak before)
    {below : α → Bool}
    (closed : ∀ x ∈ l, ∀ y ∈ l, before x y = true → below y = true → below x = true) :
    x ∈ l.dropWhile below ↔ x ∈ l ∧ below x = false := by
  have nodup := sorted.nodup weak
  have parts : l.takeWhile below ++ l.dropWhile below = l := List.takeWhile_append_dropWhile
  rw [← parts, List.nodup_append] at nodup
  constructor
  · intro behind
    have member := (List.dropWhile_sublist below).subset behind
    refine ⟨member, ?_⟩
    by_contra front
    rw [Bool.not_eq_false] at front
    exact nodup.2.2 x ((sorted.mem_takeWhile closed).mpr ⟨member, front⟩) x behind rfl
  · rintro ⟨member, behind⟩
    rw [← parts, List.mem_append] at member
    refine member.resolve_left ?_
    intro front
    rw [((sorted.mem_takeWhile closed).mp front).2] at behind
    cases behind

end CppRaft.Container
