/-
This file proves that the pipeline view of a request does not depend on the order of the
observations.

Selecting and preferring keep or drop an observation for what it is and for what set it belongs to,
so a permutation of the observations permutes the spans. The bounds are a minimum and a maximum, and
the accounted time is the length of a union, and neither depends on the order.
-/

import EbpfStudio.Protocol.Pipeline

namespace EbpfStudio

open Coverage

section Contents

variable {values others : List U64}

theorem min?_eq_of_perm (order : values.Perm others) : values.min? = others.min? := by
  ext value
  rw [List.min?_eq_some_iff, List.min?_eq_some_iff, order.mem_iff]
  simp only [order.mem_iff]

theorem max?_eq_of_perm (order : values.Perm others) : values.max? = others.max? := by
  ext value
  rw [List.max?_eq_some_iff, List.max?_eq_some_iff, order.mem_iff]
  simp only [order.mem_iff]

theorem unionDuration_eq_of_perm {intervals reordered : List (U64 × U64)}
    (order : intervals.Perm reordered) : unionDuration intervals = unionDuration reordered := by
  refine Fin.ext ?_
  rw [unionDuration_val, unionDuration_val]
  refine congrArg Finset.card (Finset.ext fun instant => ?_)
  rw [mem_covered_instants, mem_covered_instants]
  simp only [order.mem_iff]

end Contents

variable {candidates others : List PipelineObservation}

theorem preferCorrelated_perm (requestId : U64) (order : candidates.Perm others) :
    (preferCorrelated requestId candidates).Perm (preferCorrelated requestId others) := by
  have layers : ∀ layer,
      layer ∈ (candidates.filter (·.correlatedWith requestId)).map (·.layer) ↔
        layer ∈ (others.filter (·.correlatedWith requestId)).map (·.layer) := by
    intro layer
    exact ((order.filter _).map _).mem_iff
  unfold preferCorrelated
  simp only [layers]
  exact order.filter _

variable (io : CompletedIo)

theorem requestSpans_perm (order : candidates.Perm others) :
    (requestSpans io candidates).Perm (requestSpans io others) :=
  (((preferCorrelated_perm io.issue.requestId order).filterMap _).append_right _).append_right _

structure IoPipeline.SameView (first second : IoPipeline) : Prop where
  spans : first.spans.Perm second.spans
  startTsNs : first.startTsNs = second.startTsNs
  endTsNs : first.endTsNs = second.endTsNs
  accountedNs : first.accountedNs = second.accountedNs
  unaccountedNs : first.unaccountedNs = second.unaccountedNs

theorem pipelineOfSelected_sameView (order : candidates.Perm others) :
    (pipelineOfSelected io candidates).SameView (pipelineOfSelected io others) := by
  have spans := requestSpans_perm io order
  have sorted :
      (pipelineOfSelected io candidates).spans.Perm (pipelineOfSelected io others).spans :=
    (List.perm_insertionSort _ _).trans (spans.trans (List.perm_insertionSort _ _).symm)
  have starts : (pipelineOfSelected io candidates).startTsNs =
      (pipelineOfSelected io others).startTsNs :=
    congrArg (fun least : Option U64 => min (least.getD io.blockStart) io.blockStart)
      (min?_eq_of_perm ((spans.filter _).map _))
  have ends : (pipelineOfSelected io candidates).endTsNs =
      (pipelineOfSelected io others).endTsNs :=
    congrArg
      (fun greatest : Option U64 => max (greatest.getD io.completion.tsNs) io.completion.tsNs)
      (max?_eq_of_perm ((spans.filter _).map _))
  -- the accounted time is a function of the bounds and of the spans as a collection
  have accounted (view : List PipelineObservation) : (pipelineOfSelected io view).accountedNs =
      min (unionDuration (((pipelineOfSelected io view).spans.filter (·.additive)).filterMap
        (clipSpan (pipelineOfSelected io view).startTsNs (pipelineOfSelected io view).endTsNs)))
        ((pipelineOfSelected io view).endTsNs.saturatingSub
          (pipelineOfSelected io view).startTsNs) := rfl
  have same : (pipelineOfSelected io candidates).accountedNs =
      (pipelineOfSelected io others).accountedNs := by
    rw [accounted, accounted, starts, ends,
      unionDuration_eq_of_perm ((sorted.filter _).filterMap _)]
  refine ⟨sorted, starts, ends, same, ?_⟩
  have rest (view : List PipelineObservation) : (pipelineOfSelected io view).unaccountedNs =
      ((pipelineOfSelected io view).endTsNs.saturatingSub
        (pipelineOfSelected io view).startTsNs).saturatingSub
          (pipelineOfSelected io view).accountedNs := rfl
  rw [rest, rest, starts, ends, same]

theorem accounted_add_unaccounted (candidates : List PipelineObservation) :
    (pipelineOfSelected io candidates).accountedNs.val +
        (pipelineOfSelected io candidates).unaccountedNs.val =
      (pipelineOfSelected io candidates).endTsNs.val -
        (pipelineOfSelected io candidates).startTsNs.val := by
  set view := pipelineOfSelected io candidates
  have within : view.accountedNs ≤ view.endTsNs.saturatingSub view.startTsNs := min_le_right _ _
  have rest : view.unaccountedNs =
      (view.endTsNs.saturatingSub view.startTsNs).saturatingSub view.accountedNs := rfl
  rw [rest, Word.saturatingSub_val, Word.saturatingSub_val]
  rw [Fin.le_def, Word.saturatingSub_val] at within
  omega

def PipelineObservation.ofAnother (requestId : U64) (value : PipelineObservation) : Bool :=
  value.correlationId.any (· ≠ requestId)

theorem not_selectedFor_of_ofAnother {io : CompletedIo} {value : PipelineObservation}
    (foreign : value.ofAnother io.issue.requestId = true) : value.selectedFor io = false := by
  unfold PipelineObservation.selectedFor
  rw [show value.correlationId.any (· ≠ io.issue.requestId) = true from foreign, Bool.or_true]
  simp

theorem filter_selectedFor_eq (observations : List PipelineObservation) :
    observations.filter (·.selectedFor io) =
      (observations.filter fun value => !value.ofAnother io.issue.requestId).filter
        (·.selectedFor io) := by
  rw [List.filter_filter]
  refine List.filter_congr fun value _ => ?_
  cases foreign : value.ofAnother io.issue.requestId with
  | true => rw [not_selectedFor_of_ofAnother foreign]; rfl
  | false => rw [Bool.not_false, Bool.and_true]

/-- The view of a request is the same for every order of the observations, up to the order of
its spans; its accounted and unaccounted times add up to its length, which is not cut off at
zero unless the request itself ends before it starts; and observations that are correlated with
other requests change nothing, wherever they are added. -/
theorem pipeline_view_is_canonical (io : CompletedIo) (observations : List PipelineObservation) :
    let view := buildIoPipeline io observations
    (∀ reordered : List PipelineObservation, reordered.Perm observations →
      (buildIoPipeline io reordered).SameView view) ∧
      view.accountedNs.val + view.unaccountedNs.val = view.endTsNs.val - view.startTsNs.val ∧
      (io.blockStart ≤ io.completion.tsNs → view.startTsNs ≤ view.endTsNs) ∧
      ∀ extended : List PipelineObservation,
        (extended.filter fun value => !value.ofAnother io.issue.requestId) =
          (observations.filter fun value => !value.ofAnother io.issue.requestId) →
        buildIoPipeline io extended = view := by
  intro view
  refine ⟨fun reordered order => ?_, accounted_add_unaccounted io _, fun forward => ?_,
    fun extended same => ?_⟩
  · exact pipelineOfSelected_sameView io (order.filter _)
  · calc view.startTsNs ≤ io.blockStart := min_le_right _ _
      _ ≤ io.completion.tsNs := forward
      _ ≤ view.endTsNs := le_max_right _ _
  · show pipelineOfSelected io _ = pipelineOfSelected io _
    rw [filter_selectedFor_eq, filter_selectedFor_eq io observations, same]

end EbpfStudio
