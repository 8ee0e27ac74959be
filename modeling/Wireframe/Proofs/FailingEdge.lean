import Wireframe.Proofs.CompleteCrop
/-!
# The edge that fails a crop

Edges are judged one after the other, and the first that cannot be judged says
how the crop fails. `FailsAt` says of one edge, whatever the others are, that
it fails and why: an endpoint does not exist, the first of the two being
reported, or the edge leaves the box where that is a failure, the endpoint in
the box being reported first.

`validate` passes the edges on its own and looks at the endpoints alone. Where
an edge may leave the box, it reports what the crop reports.
-/

namespace Wireframe

variable {κ : Type}

/-- `v` is the first endpoint of an edge that is not among `n` vertices. -/
def FirstMissing (n : Nat) (l : Link) (v : UInt64) : Prop :=
  n ≤ v.toNat ∧ (v = l.1 ∨ l.1.toNat < n ∧ v = l.2)

theorem exists_firstMissing_iff {n : Nat} {l : Link} :
    (∃ v, FirstMissing n l v) ↔ n ≤ l.1.toNat ∨ n ≤ l.2.toNat := by
  constructor
  · rintro ⟨v, hv, rfl | ⟨-, rfl⟩⟩
    · exact .inl hv
    · exact .inr hv
  · intro h
    by_cases h₁ : n ≤ l.1.toNat
    · exact ⟨l.1, h₁, .inl rfl⟩
    · exact ⟨l.2, h.resolve_left h₁, .inr ⟨not_le.1 h₁, rfl⟩⟩

namespace EdgeGeometry

/-! ## The check of the endpoints -/

/-- What the check finds at one edge. -/
theorem ite_firstMissing {n e d : Nat} {l : Link} {v : UInt64} :
    (if n ≤ l.1.toNat then some (e, l.1) else if n ≤ l.2.toNat then some (e, l.2) else none) = some (d, v) ↔
      e = d ∧ FirstMissing n l v := by
  unfold FirstMissing
  by_cases h₁ : n ≤ l.1.toNat
  · rw [if_pos h₁, Option.some.injEq, Prod.mk.injEq]
    refine and_congr_right fun _ => ⟨?_, ?_⟩
    · rintro rfl
      exact ⟨h₁, .inl rfl⟩
    · rintro ⟨-, rfl | ⟨h, -⟩⟩
      · rfl
      · omega
  by_cases h₂ : n ≤ l.2.toNat
  · rw [if_neg h₁, if_pos h₂, Option.some.injEq, Prod.mk.injEq]
    refine and_congr_right fun _ => ⟨?_, ?_⟩
    · rintro rfl
      exact ⟨h₂, .inr ⟨not_le.1 h₁, rfl⟩⟩
    · rintro ⟨h, rfl | ⟨-, rfl⟩⟩
      · omega
      · rfl
  · rw [if_neg h₁, if_neg h₂]
    simp only [reduceCtorEq, false_iff]
    rintro ⟨-, h, rfl | ⟨-, rfl⟩⟩ <;> contradiction

/-- The check reports the first edge with an endpoint that does not exist. -/
theorem badEndpoint?_eq_some {g : EdgeGeometry κ} {e : Nat} {v : UInt64} :
    g.badEndpoint? = some (e, v) ↔ ∃ l, g.edge? e = some l ∧ FirstMissing g.vertexCount l v ∧
      ∀ d < e, ∀ k, g.edge? d = some k → ∀ w, ¬FirstMissing g.vertexCount k w := by
  rw [badEndpoint?, List.findSome?_eq_some_iff]
  refine (exists₃_congr fun _ _ _ => and_congr_right fun _ => and_comm).trans (zipIdx_split_iff.trans ?_)
  simp only [getElem?_links]
  constructor
  · rintro ⟨i, l, hl, hx, hbefore⟩
    obtain ⟨rfl, hv⟩ := ite_firstMissing.1 hx
    refine ⟨l, hl, hv, fun d hd k hk w hw => ?_⟩
    cases (hbefore d hd k hk).symm.trans (ite_firstMissing.2 ⟨rfl, hw⟩)
  · rintro ⟨l, hl, hv, hbefore⟩
    refine ⟨e, l, hl, ite_firstMissing.2 ⟨rfl, hv⟩, fun d hd k hk => ?_⟩
    refine Option.eq_none_iff_forall_ne_some.2 fun x hx => ?_
    exact hbefore d hd k hk x.2 (ite_firstMissing.1 hx).2

/-- With both matrices in step nothing but an endpoint is reported. -/
theorem validate_eq_error {g : EdgeGeometry κ} (hv : checkMatrix g.vertexData g.vertexCount = .ok ())
    (he : checkMatrix g.edgeData g.edgeCount = .ok ()) {c : Error} : g.validate = .error c ↔
      ∃ e l v, g.edge? e = some l ∧ FirstMissing g.vertexCount l v ∧
        (∀ d < e, ∀ k, g.edge? d = some k → ∀ w, ¬FirstMissing g.vertexCount k w) ∧
        c = .invalidVertexIndex e v g.vertexCount := by
  unfold validate
  constructor
  · intro h
    cases hb : g.badEndpoint? with
    | none => simp [hb, hv, he, bind, Except.bind] at h
    | some x =>
      rw [hb] at h
      cases h
      obtain ⟨l, hl, hx, hbefore⟩ := badEndpoint?_eq_some.1 hb
      exact ⟨x.1, l, x.2, hl, hx, hbefore, rfl⟩
  · rintro ⟨e, l, v, hl, hx, hbefore, rfl⟩
    rw [badEndpoint?_eq_some.2 ⟨l, hl, hx, hbefore⟩]

/-! ## Edges that cannot be judged -/

variable [Coordinate κ]

/-- An edge joins a vertex at `p` in the box and one at `q` outside, in either
direction. -/
def Across (g : EdgeGeometry κ) (bounds : Box κ) (l : Link) (p q : Point κ) : Prop :=
  (g.vertex? l.1.toNat = some p ∧ g.vertex? l.2.toNat = some q ∨
      g.vertex? l.2.toNat = some p ∧ g.vertex? l.1.toNat = some q) ∧
    bounds.contains p = true ∧ bounds.contains q = false

/-- Why an edge cannot be judged. -/
inductive FailsAt (g : EdgeGeometry κ) (bounds : Box κ) (policy : BoundaryPolicy) (edge : Nat) (l : Link) :
    CropError κ → Prop
  | missing {v : UInt64} (h : FirstMissing g.vertexCount l v) :
    FailsAt g bounds policy edge l (.refused (.invalidVertexIndex edge v g.vertexCount))
  | across {p q : Point κ} (hf : policy = .fail) (h : g.Across bounds l p q) :
    FailsAt g bounds policy edge l (.outsideVertex edge p q bounds)

variable {g : EdgeGeometry κ} {bounds : Box κ} {policy : BoundaryPolicy}

theorem judgeAcross_eq_error {e : Nat} {p q : Point κ} {w : UInt64} {err : CropError κ} :
    judgeAcross bounds policy e p q w = .error err ↔ policy = .fail ∧ err = .outsideVertex e p q bounds := by
  cases policy <;> simp [judgeAcross, eq_comm]

theorem judge_eq_error {l : Link} {e : Nat} {err : CropError κ} :
    judge g.points bounds policy l e = .error err ↔ g.FailsAt bounds policy e l err := by
  unfold judge
  rw [getElem?_points, getElem?_points, length_points]
  cases hp : g.vertex? l.1.toNat with
  | none =>
    have h₁ := vertex?_eq_none.1 hp
    dsimp only
    constructor
    · intro h
      cases h
      exact .missing ⟨h₁, .inl rfl⟩
    · rintro (⟨-, rfl | ⟨h, -⟩⟩ | ⟨-, ⟨h, -⟩ | ⟨-, h⟩, -⟩)
      · rfl
      · omega
      · cases hp.symm.trans h
      · cases hp.symm.trans h
  | some p =>
    have h₁ := lt_vertexCount hp
    cases hq : g.vertex? l.2.toNat with
    | none =>
      have h₂ := vertex?_eq_none.1 hq
      dsimp only
      constructor
      · intro h
        cases h
        exact .missing ⟨h₂, .inr ⟨h₁, rfl⟩⟩
      · rintro (⟨h, rfl | ⟨-, rfl⟩⟩ | ⟨-, ⟨-, h⟩ | ⟨h, -⟩, -⟩)
        · omega
        · rfl
        · cases hq.symm.trans h
        · cases hq.symm.trans h
    | some q =>
      have h₂ := lt_vertexCount hq
      dsimp only
      constructor
      · intro h
        split at h
        next => cases h
        next => cases h
        next cp cq =>
          obtain ⟨hf, rfl⟩ := judgeAcross_eq_error.1 h
          exact .across hf ⟨.inl ⟨hp, hq⟩, cp, cq⟩
        next cp cq =>
          obtain ⟨hf, rfl⟩ := judgeAcross_eq_error.1 h
          exact .across hf ⟨.inr ⟨hq, hp⟩, cq, cp⟩
      · rintro (⟨h, rfl | ⟨-, rfl⟩⟩ | ⟨hf, ⟨hp', hq'⟩ | ⟨hp', hq'⟩, hin, hout⟩)
        · omega
        · omega
        · cases hp.symm.trans hp'
          cases hq.symm.trans hq'
          rw [hin, hout]
          exact judgeAcross_eq_error.2 ⟨hf, rfl⟩
        · cases hp.symm.trans hq'
          cases hq.symm.trans hp'
          rw [hin, hout]
          exact judgeAcross_eq_error.2 ⟨hf, rfl⟩

/-- The first edge that cannot be judged says how a selection fails. -/
def FirstFailure (g : EdgeGeometry κ) (bounds : Box κ) (policy : BoundaryPolicy) (err : CropError κ) : Prop :=
  ∃ e l, g.edge? e = some l ∧ g.FailsAt bounds policy e l err ∧
    ∀ d < e, ∀ k, g.edge? d = some k → ∀ c, ¬g.FailsAt bounds policy d k c

theorem of_eq_error {err : CropError κ} :
    Selection.of g bounds policy = .error err ↔ g.FirstFailure bounds policy err := by
  have hj : Selection.of g bounds policy = .error err ↔ judgeAll g bounds policy = .error err := by
    unfold Selection.of
    cases judgeAll g bounds policy <;> simp [Except.map]
  rw [hj, judgeAll, mapM_eq_error, zipIdx_split_iff]
  simp only [getElem?_links, judge_eq_error]
  refine exists₂_congr fun e l => and_congr_right fun _ => and_congr_right fun _ => ?_
  -- an edge that fails for no cause is judged
  have hok : ∀ d k, (∃ v, judge g.points bounds policy k d = .ok v) ↔ ∀ c, ¬g.FailsAt bounds policy d k c := by
    intro d k
    simp only [← judge_eq_error]
    cases judge g.points bounds policy k d <;> simp
  simp only [hok]

/-- An edge fails for an endpoint that does not exist, or between existing ones
for leading out of the box. -/
theorem exists_failsAt_iff {e : Nat} {l : Link} : (∃ c, g.FailsAt bounds policy e l c) ↔
    (g.vertexCount ≤ l.1.toNat ∨ g.vertexCount ≤ l.2.toNat) ∨ policy = .fail ∧ l.1.toNat < g.vertexCount ∧
      l.2.toNat < g.vertexCount ∧ g.inside bounds l.1.toNat ≠ g.inside bounds l.2.toNat := by
  constructor
  · rintro ⟨c, h | ⟨hf, ⟨hp, hq⟩ | ⟨hp, hq⟩, hin, hout⟩⟩
    · exact .inl (exists_firstMissing_iff.1 ⟨_, h⟩)
    · exact .inr ⟨hf, lt_vertexCount hp, lt_vertexCount hq, by simp [inside, hp, hq, hin, hout]⟩
    · exact .inr ⟨hf, lt_vertexCount hq, lt_vertexCount hp, by simp [inside, hp, hq, hin, hout]⟩
  · rintro (h | ⟨hf, h₁, h₂, hne⟩)
    · obtain ⟨v, hv⟩ := exists_firstMissing_iff.2 h
      exact ⟨_, .missing hv⟩
    · obtain ⟨p, hp⟩ := exists_vertex? h₁
      obtain ⟨q, hq⟩ := exists_vertex? h₂
      simp only [inside, hp, hq, Option.any_some] at hne
      cases cp : bounds.contains p with
      | true => exact ⟨_, .across hf ⟨.inl ⟨hp, hq⟩, cp, by simpa [cp] using hne⟩⟩
      | false => exact ⟨_, .across hf ⟨.inr ⟨hq, hp⟩, by simpa [cp] using hne, cp⟩⟩

/-- Where some edge fails, a first one does. -/
theorem exists_firstFailure_iff : (∃ err, g.FirstFailure bounds policy err) ↔
    ∃ e l, g.edge? e = some l ∧ ∃ c, g.FailsAt bounds policy e l c := by
  classical
  constructor
  · rintro ⟨err, e, l, hl, hf, -⟩
    exact ⟨e, l, hl, err, hf⟩
  · intro h
    obtain ⟨l, hl, c, hc⟩ := Nat.find_spec h
    refine ⟨c, Nat.find h, l, hl, hc, fun d hd k hk c' hc' => ?_⟩
    exact Nat.find_min h hd ⟨k, hk, c', hc'⟩

/-- Where an edge may leave the box, the first failure is what the check finds. -/
theorem firstFailure_iff_validate (hpolicy : policy ≠ .fail)
    (hv : checkMatrix g.vertexData g.vertexCount = .ok ()) (he : checkMatrix g.edgeData g.edgeCount = .ok ())
    {err : CropError κ} : g.FirstFailure bounds policy err ↔ ∃ c, g.validate = .error c ∧ err = .refused c := by
  have hone : ∀ e l c, g.FailsAt bounds policy e l c ↔
      ∃ v, FirstMissing g.vertexCount l v ∧ c = .refused (.invalidVertexIndex e v g.vertexCount) := by
    intro e l c
    constructor
    · rintro (h | ⟨hf, -⟩)
      · exact ⟨_, h, rfl⟩
      · exact absurd hf hpolicy
    · rintro ⟨v, h, rfl⟩
      exact .missing h
  have hno : ∀ e l, (∀ c, ¬g.FailsAt bounds policy e l c) ↔ ∀ w, ¬FirstMissing g.vertexCount l w := by
    intro e l
    constructor
    · exact fun h w hw => h _ (.missing hw)
    · rintro h c hc
      obtain ⟨v, hv, -⟩ := (hone e l c).1 hc
      exact h v hv
  simp only [FirstFailure, hno]
  simp only [hone, validate_eq_error hv he]
  constructor
  · rintro ⟨e, l, hl, ⟨v, hm, rfl⟩, hbefore⟩
    exact ⟨_, ⟨e, l, v, hl, hm, hbefore, rfl⟩, rfl⟩
  · rintro ⟨_, ⟨e, l, v, hl, hm, hbefore, rfl⟩, rfl⟩
    exact ⟨e, l, hl, ⟨v, hm, rfl⟩, hbefore⟩

end EdgeGeometry

/-! ## Crops -/

variable [Coordinate κ] {src : EdgeGeometry κ}

/-- A source in step with itself, cropped into an empty copy, fails as its
first edge does that cannot be judged. There is one if an endpoint does not
exist or, where that is a failure, an edge leaves the box; otherwise the crop
fails as the check of the source does. -/
theorem crop_fails_iff (hv : EdgeGeometry.checkMatrix src.vertexData src.vertexCount = .ok ())
    (he : EdgeGeometry.checkMatrix src.edgeData src.edgeCount = .ok ()) (bounds : Box κ) (policy : BoundaryPolicy)
    (schedule : Schedule) :
    ((∃ err, (crop src src.emptyLike bounds policy schedule).result = .error err) ↔
        (∃ l ∈ src.links, src.vertexCount ≤ l.1.toNat ∨ src.vertexCount ≤ l.2.toNat) ∨
          policy = .fail ∧ ∃ l ∈ src.links, l.1.toNat < src.vertexCount ∧ l.2.toNat < src.vertexCount ∧
            src.inside bounds l.1.toNat ≠ src.inside bounds l.2.toNat) ∧
      (∀ err, (crop src src.emptyLike bounds policy schedule).result = .error err ↔
        src.FirstFailure bounds policy err) ∧
      (policy ≠ .fail → ∀ err, (crop src src.emptyLike bounds policy schedule).result = .error err ↔
        ∃ c, src.validate = .error c ∧ err = .refused c) := by
  have hin : src.InStep := ⟨(EdgeGeometry.checkMatrix_eq_ok.1 hv).2, (EdgeGeometry.checkMatrix_eq_ok.1 he).2⟩
  have hfirst : ∀ err, (crop src src.emptyLike bounds policy schedule).result = .error err ↔
      src.FirstFailure bounds policy err := fun err => (crop_eq_error_iff hin).trans EdgeGeometry.of_eq_error
  refine ⟨?_, hfirst, fun hpolicy err => (hfirst err).trans (EdgeGeometry.firstFailure_iff_validate hpolicy hv he)⟩
  simp only [hfirst, EdgeGeometry.exists_firstFailure_iff, EdgeGeometry.exists_failsAt_iff, EdgeGeometry.mem_links]
  constructor
  · rintro ⟨e, l, hl, h | ⟨hf, h⟩⟩
    · exact .inl ⟨l, ⟨e, hl⟩, h⟩
    · exact .inr ⟨hf, l, ⟨e, hl⟩, h⟩
  · rintro (⟨l, ⟨e, hl⟩, h⟩ | ⟨hf, l, ⟨e, hl⟩, h⟩)
    · exact ⟨e, l, hl, .inl h⟩
    · exact ⟨e, l, hl, .inr ⟨hf, h⟩⟩

/-- The vertices on the axis with one edge more, between vertices that do not exist. -/
def tangled : EdgeGeometry Float32 :=
  { EdgeGeometry.ofLists onAxis.points (onAxis.links ++ [(7, 9)]) with vertexData := onAxis.vertexData }

/-- The edge that leaves the box comes before the one between missing vertices. -/
theorem crop_fails_tangled :
    EdgeGeometry.checkMatrix tangled.vertexData tangled.vertexCount = .ok () ∧
      EdgeGeometry.checkMatrix tangled.edgeData tangled.edgeCount = .ok () ∧
      tangled.FirstFailure upToMiddle .fail (.outsideVertex 2 ⟨1, 0, 0⟩ ⟨2, 0, 0⟩ upToMiddle) ∧
      (crop tangled tangled.emptyLike upToMiddle .interpolate .never).result =
        .error (.refused (.invalidVertexIndex 3 7 4)) := by
  have hv : EdgeGeometry.checkMatrix tangled.vertexData tangled.vertexCount = .ok () := by with_unfolding_all rfl
  have he : EdgeGeometry.checkMatrix tangled.edgeData tangled.edgeCount = .ok () := by with_unfolding_all rfl
  have hr : (crop tangled tangled.emptyLike upToMiddle .fail .never).result =
      .error (.outsideVertex 2 ⟨1, 0, 0⟩ ⟨2, 0, 0⟩ upToMiddle) := by with_unfolding_all rfl
  have hc : tangled.validate = .error (.invalidVertexIndex 3 7 4) := by with_unfolding_all rfl
  refine ⟨hv, he, ((crop_fails_iff hv he upToMiddle .fail .never).2.1 _).1 hr, ?_⟩
  exact ((crop_fails_iff hv he upToMiddle .interpolate .never).2.2 (by decide) _).2 ⟨_, hc, rfl⟩

end Wireframe
