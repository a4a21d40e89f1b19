/-
This file is about the order in which a search with a queue finds items.

What is found by a walk of some length is visited before everything that needs a longer walk.
`Layered` is the invariant: the queue holds the rest of one level and then a part of the next.
`Leads` follows a single item to its turn. So the first item that is found with a property is one
with the shortest walk, and of these the one that was queued first.
-/

import EbpfStudio.Library.Worklist

namespace Worklist

open List

variable {Item : Type}

inductive Walk (step : Item → Item → Prop) (start : Item) : Nat → Item → Prop
  | refl : Walk step start 0 start
  | tail {steps : Nat} {item next : Item} (walk : Walk step start steps item)
      (linked : step item next) : Walk step start (steps + 1) next

section Walk

variable {step : Item → Item → Prop} {start item : Item}

theorem reflTransGen_iff_walk :
    Relation.ReflTransGen step start item ↔ ∃ steps, Walk step start steps item := by
  constructor
  · intro reached
    induction reached with
    | refl => exact ⟨0, .refl⟩
    | tail _ linked hypothesis =>
      obtain ⟨steps, walk⟩ := hypothesis
      exact ⟨steps + 1, walk.tail linked⟩
  · rintro ⟨steps, walk⟩
    induction walk with
    | refl => exact .refl
    | tail _ linked hypothesis => exact hypothesis.tail linked

end Walk

/-- A search at some level: the queue has the rest of the level, and of the next one what was
appended. -/
structure Layered (step : Item → Item → Prop) (start : Item) (seen now next : List Item)
    (level : Nat) : Prop where
  explores : Explores step start seen (now ++ next)
  near : ∀ item ∈ now, Walk step start level item
  far : ∀ item ∈ next, Walk step start (level + 1) item
  earlier : ∀ steps < level, ∀ item, Walk step start steps item → item ∈ seen
  current : ∀ item, Walk step start level item → item ∈ seen ∨ item ∈ now

section Layered

variable {step : Item → Item → Prop} {start item : Item} {seen queue now next : List Item}
  {level : Nat}

theorem layered_start : Layered step start [] [start] [] 0 where
  explores := explores_start
  near item member := by
    rw [mem_singleton.mp member]
    exact .refl
  far item member := by cases member
  earlier steps below := by cases below
  current item walk := by
    cases walk
    exact .inr mem_cons_self

theorem Layered.advance (layered : Layered step start seen [] next level) :
    Layered step start seen next [] (level + 1) where
  explores := by
    rw [append_nil]
    exact layered.explores
  near := layered.far
  far item member := by cases member
  earlier steps below item walk := by
    rcases Nat.lt_succ_iff_lt_or_eq.mp below with before | rfl
    · exact layered.earlier steps before item walk
    · exact (layered.current item walk).resolve_right not_mem_nil
  current item walk := by
    cases walk with
    | tail walk linked =>
      have marked := (layered.current _ walk).resolve_right not_mem_nil
      exact layered.explores.closed _ marked item linked

theorem Layered.nearest (layered : Layered step start seen now next level) (fresh : item ∉ seen)
    {steps : Nat} (walk : Walk step start steps item) : level ≤ steps := by
  by_contra below
  exact fresh (layered.earlier steps (not_le.mp below) item walk)

theorem Layered.skip (layered : Layered step start seen (item :: now) next level)
    (marked : item ∈ seen) : Layered step start seen now next level where
  explores := layered.explores.skip marked
  near other member := layered.near other (mem_cons_of_mem _ member)
  far := layered.far
  earlier := layered.earlier
  current other walk := mem_or_mem_of_cons marked (layered.current other walk)

theorem Layered.mark (layered : Layered step start seen (item :: now) next level)
    {appended : List Item} (listed : ∀ other, other ∈ appended ↔ step item other) :
    Layered step start (item :: seen) now (next ++ appended) level where
  explores := by
    rw [← append_assoc]
    exact layered.explores.mark listed
  near other member := layered.near other (mem_cons_of_mem _ member)
  far other member := by
    rcases mem_append.mp member with old | new
    · exact layered.far other old
    · exact (layered.near item mem_cons_self).tail ((listed other).mp new)
  earlier steps below other walk :=
    mem_cons_of_mem _ (layered.earlier steps below other walk)
  current other walk :=
    mem_or_mem_of_cons mem_cons_self ((layered.current other walk).imp_left (mem_cons_of_mem _))

def AtLevel (step : Item → Item → Prop) (start : Item) (seen queue : List Item) (level : Nat) :
    Prop :=
  ∃ now next, queue = now ++ next ∧ Layered step start seen now next level

theorem AtLevel.front (at_ : AtLevel step start seen (item :: queue) level) :
    ∃ reached ≥ level, ∃ now next, queue = now ++ next ∧
      Layered step start seen (item :: now) next reached := by
  obtain ⟨now, next, parts, layered⟩ := at_
  cases now with
  | nil =>
    rw [nil_append] at parts
    subst parts
    exact ⟨level + 1, Nat.le_succ _, queue, [], (append_nil _).symm, layered.advance⟩
  | cons first rest =>
    obtain ⟨rfl, rfl⟩ := cons.inj parts
    exact ⟨level, le_rfl, rest, next, rfl, layered⟩

end Layered

/-- An item waits for its turn, and everything before it is nearer to the start. -/
def Leads (step : Item → Item → Prop) (start : Item) (seen queue : List Item) (item : Item)
    (steps : Nat) : Prop :=
  ∃ ahead behind, queue = ahead ++ item :: behind ∧
    (∀ other, other ∈ seen ∨ other ∈ ahead → ∃ fewer < steps, Walk step start fewer other) ∧
    ∀ other ∈ behind, ∃ most ≤ steps, Walk step start most other

section Leads

variable {step : Item → Item → Prop} {start item head : Item} {seen queue : List Item}
  {steps : Nat}

theorem leads_start : Leads step start [] [start] start 0 := by
  refine ⟨[], [], rfl, fun other known => ?_, fun other member => by cases member⟩
  rcases known with absent | absent <;> cases absent

theorem Leads.not_mem_seen (leads : Leads step start seen queue item steps)
    (shortest : ∀ {fewer}, Walk step start fewer item → steps ≤ fewer) : item ∉ seen := by
  obtain ⟨ahead, behind, -, nearer, -⟩ := leads
  intro marked
  obtain ⟨fewer, below, walk⟩ := nearer item (.inl marked)
  exact absurd (shortest walk) (not_le.mpr below)

theorem Leads.skip (leads : Leads step start seen (head :: queue) item steps)
    (shortest : ∀ {fewer}, Walk step start fewer item → steps ≤ fewer) (marked : head ∈ seen) :
    Leads step start seen queue item steps := by
  have fresh := leads.not_mem_seen shortest
  obtain ⟨ahead, behind, parts, nearer, farther⟩ := leads
  cases ahead with
  | nil =>
    obtain ⟨rfl, -⟩ := cons.inj parts
    exact absurd marked fresh
  | cons first rest =>
    obtain ⟨rfl, rfl⟩ := cons.inj parts
    exact ⟨rest, behind, rfl,
      fun other known => nearer other (known.imp_right (mem_cons_of_mem _)), farther⟩

theorem Leads.mark (leads : Leads step start seen (head :: queue) item steps)
    (other : head ≠ item) {appended : List Item}
    (listed : ∀ next ∈ appended, step head next) :
    Leads step start (head :: seen) (queue ++ appended) item steps := by
  obtain ⟨ahead, behind, parts, nearer, farther⟩ := leads
  cases ahead with
  | nil => exact absurd (cons.inj parts).1 other
  | cons first rest =>
    rw [cons_append] at parts
    obtain ⟨rfl, rfl⟩ := cons.inj parts
    obtain ⟨fewer, below, walk⟩ := nearer head (.inr mem_cons_self)
    refine ⟨rest, behind ++ appended, by rw [append_assoc, cons_append],
      fun known place => ?_, fun known member => ?_⟩
    · rcases place with marked | waiting
      · rcases mem_cons.mp marked with rfl | old
        · exact ⟨fewer, below, walk⟩
        · exact nearer known (.inl old)
      · exact nearer known (.inr (mem_cons_of_mem _ waiting))
    · rcases mem_append.mp member with old | new
      · exact farther known old
      · exact ⟨fewer + 1, below, walk.tail (listed known new)⟩

theorem Leads.pass (leads : Leads step start seen (item :: queue) item steps)
    (shortest : ∀ {fewer}, Walk step start fewer item → steps ≤ fewer)
    (walk : Walk step start steps item) {next : Item} {others : List Item}
    (listed : ∀ other ∈ next :: others, step item other) :
    Leads step start (item :: seen) (queue ++ next :: others) next (steps + 1) := by
  obtain ⟨ahead, behind, parts, nearer, farther⟩ := leads
  have front : ahead = [] := by
    cases ahead with
    | nil => rfl
    | cons first rest =>
      obtain ⟨rfl, -⟩ := cons.inj parts
      obtain ⟨fewer, below, short⟩ := nearer item (.inr mem_cons_self)
      exact absurd (shortest short) (not_le.mpr below)
  subst front
  obtain ⟨-, rfl⟩ := cons.inj parts
  refine ⟨queue, others, rfl, fun other known => ?_, fun other member => ?_⟩
  · rcases known with marked | waiting
    · rcases mem_cons.mp marked with rfl | old
      · exact ⟨steps, Nat.lt_succ_self _, walk⟩
      · obtain ⟨fewer, below, found⟩ := nearer other (Or.inl old)
        exact ⟨fewer, below.trans (Nat.lt_succ_self _), found⟩
    · obtain ⟨most, atMost, found⟩ := farther other waiting
      exact ⟨most, Nat.lt_succ_of_le atMost, found⟩
  · exact ⟨steps + 1, le_rfl, walk.tail (listed other (mem_cons_of_mem _ member))⟩

end Leads

end Worklist
