/-
This file collects what a directed graph needs to stay free of cycles while arcs are added one at a
time.

A new arc makes a new path only through itself. So an acyclic relation stays acyclic exactly if the
target of the arc does not lead back to its source. A finite acyclic relation has an element that
nothing leads to.
-/

import Mathlib

namespace Arcs

open Relation

variable {Node : Type}

def Acyclic (links : Node → Node → Prop) : Prop := ∀ node, ¬ TransGen links node node

def withArc (links : Node → Node → Prop) (tail head : Node) (first second : Node) : Prop :=
  links first second ∨ (first = tail ∧ second = head)

section

variable {links : Node → Node → Prop}

theorem transGen_withArc {tail head first last : Node}
    (walk : TransGen (withArc links tail head) first last) :
    TransGen links first last ∨ (ReflTransGen links first tail ∧ ReflTransGen links head last) := by
  induction walk with
  | single step =>
    rcases step with old | ⟨rfl, rfl⟩
    · exact .inl (.single old)
    · exact .inr ⟨.refl, .refl⟩
  | tail _ step hypothesis =>
    rcases step with old | ⟨rfl, rfl⟩
    · rcases hypothesis with avoids | ⟨before, after⟩
      · exact .inl (avoids.tail old)
      · exact .inr ⟨before, after.tail old⟩
    · rcases hypothesis with avoids | ⟨before, _⟩
      · exact .inr ⟨avoids.to_reflTransGen, .refl⟩
      · exact .inr ⟨before, .refl⟩

theorem acyclic_withArc {tail head : Node} (acyclic : Acyclic links)
    (unreached : ¬ ReflTransGen links head tail) : Acyclic (withArc links tail head) := by
  intro node cycle
  rcases transGen_withArc cycle with old | ⟨before, after⟩
  · exact acyclic node old
  · exact unreached (after.trans before)

theorem cycle_withArc {tail head : Node} (reached : ReflTransGen links head tail) :
    TransGen (withArc links tail head) tail tail := by
  have step : ∀ first second, links first second → withArc links tail head first second :=
    fun _ _ old => .inl old
  exact TransGen.head' (.inr ⟨rfl, rfl⟩) (ReflTransGen.mono step _ _ reached)

theorem exists_source (acyclic : Acyclic links) {nodes : Set Node} (finite : nodes.Finite)
    (nonempty : nodes.Nonempty) : ∃ node ∈ nodes, ∀ other ∈ nodes, ¬ links other node := by
  have strict : IsStrictOrder Node (TransGen links) :=
    { irrefl := acyclic, trans := fun _ _ _ => TransGen.trans }
  have founded : nodes.WellFoundedOn (TransGen links) := finite.wellFoundedOn
  obtain ⟨some, listed⟩ := nonempty
  obtain ⟨⟨node, member⟩, -, minimal⟩ :=
    WellFounded.has_min founded Set.univ ⟨⟨some, listed⟩, trivial⟩
  exact ⟨node, member, fun other otherMember link =>
    minimal ⟨other, otherMember⟩ trivial (.single link)⟩

theorem pairwise_of_isChain {path : List Node} (walk : path.IsChain links) :
    path.Pairwise (TransGen links) :=
  (walk.imp fun _ _ link => TransGen.single link).pairwise

end

end Arcs
