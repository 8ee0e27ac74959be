import Wireframe.Proofs.CompleteCrop
/-!
# What a failed crop leaves behind

A crop that fails while it selects has written nothing. One that has selected
resizes the destination and moves the vertices before it looks at the arrays,
so where an array has no fitting namesake the destination has already lost
what it held.
-/

namespace Wireframe

variable {κ : Type} [Coordinate κ] {src dst : EdgeGeometry κ} {bounds : Box κ} {policy : BoundaryPolicy}
  {schedule : Schedule}

/-- A crop that failed either selected nothing and wrote nothing, or it wrote
what it selected and came upon an array that does not fit. -/
theorem crop_failed {e : CropError κ} (h : (crop src dst bounds policy schedule).result = .error e) :
    (Selection.of src bounds policy = .error e ∧ (crop src dst bounds policy schedule).destination = dst) ∨
      ∃ s, Selection.of src bounds policy = .ok s ∧
        s.Written src dst (crop src dst bounds policy schedule).destination ∧
        ¬(src.SameLayout dst ∧ src.InStep) := by
  have hends := crop_ends src dst bounds policy schedule
  generalize crop src dst bounds policy schedule = run at h hends ⊢
  cases hends with
  | cancelled | complete => cases h
  | unselected hs =>
    cases h
    exact .inl ⟨hs, rfl⟩
  | refused hs hc hw => exact .inr ⟨_, hs, hw, fun hfit => hc ((Selection.copyable_iff hs).2 hfit)⟩

/-- With the flag down a crop fails unless everything fits. -/
theorem crop_never_fails (src dst : EdgeGeometry κ) (bounds : Box κ) (policy : BoundaryPolicy)
    (hfit : ¬(src.SameLayout dst ∧ src.InStep)) :
    ∃ e, (crop src dst bounds policy .never).result = .error e := by
  have hends := crop_ends src dst bounds policy .never
  generalize crop src dst bounds policy .never = run at hends ⊢
  cases hends with
  | unselected | refused => exact ⟨_, rfl⟩
  | cancelled _ hr => exact absurd hr Schedule.not_rises_never
  | complete hs hl hc => exact absurd ((Selection.copyable_iff hs).1 hc) hfit

/-- Failed crops into destinations of one layout leave all of them alone
exactly when a crop of the source fails while it selects or not at all. -/
theorem failed_crop_unchanged_iff (src dst : EdgeGeometry κ) (bounds : Box κ) (policy : BoundaryPolicy) :
    (∀ d : EdgeGeometry κ, d.SameLayout dst → ∀ schedule e,
      (crop src d bounds policy schedule).result = .error e →
        (crop src d bounds policy schedule).destination = d) ↔
      (∃ e, Selection.of src bounds policy = .error e) ∨ src.SameLayout dst ∧ src.InStep := by
  constructor
  · intro h
    cases hs : Selection.of src bounds policy with
    | error e => exact .inl ⟨e, rfl⟩
    | ok s =>
      refine .inr (Classical.byContradiction fun hfit => ?_)
      -- one vertex more than the selection keeps, so the resize shows
      have hd := dst.sameLayout_resizedVertices (s.keepVertex.kept + 1)
      obtain ⟨e, he⟩ := crop_never_fails src (dst.resizedVertices (s.keepVertex.kept + 1)) bounds policy
        fun hf => hfit ⟨hf.1.trans hd, hf.2⟩
      obtain ⟨hs', -⟩ | ⟨s', hs', hw, -⟩ := crop_failed he
      · rw [hs] at hs'
        cases hs'
      · rw [hs, Except.ok.injEq] at hs'
        have hcount : (dst.resizedVertices (s.keepVertex.kept + 1)).vertexCount = s.keepVertex.kept := by
          rw [h _ hd _ e he] at hw
          rw [EdgeGeometry.vertexCount, hw.vertices, EdgeGeometry.size_vertexList, Selection.length_positions, hs']
        rw [EdgeGeometry.vertexCount_resizedVertices] at hcount
        omega
  · intro h d hd schedule e he
    obtain ⟨-, hkeep⟩ | ⟨s, hs, -, hfit⟩ := crop_failed he
    · exact hkeep
    · rcases h with ⟨e', he'⟩ | h
      · rw [hs] at he'
        cases he'
      · exact absurd ⟨h.1.trans hd.symm, h.2⟩ hfit

/-- The sample with one vertex more than its array has values. -/
def outOfStep : EdgeGeometry Float32 := onAxis.setPoints (onAxis.points ++ [⟨0, 0, 0⟩])

theorem failed_crop_writes :
    (crop outOfStep outOfStep.emptyLike upToMiddle .interpolate .never).result =
        .error (.refused (.tupleCountMismatch "copy mask" "Ids" 5 4)) ∧
      (crop outOfStep outOfStep.emptyLike upToMiddle .interpolate .never).destination ≠ outOfStep.emptyLike := by
  refine ⟨by with_unfolding_all rfl, fun h => ?_⟩
  have hcount := congrArg EdgeGeometry.vertexCount h
  revert hcount
  decide +kernel

end Wireframe
