import Wireframe.Proofs.FixedPoint
/-!
# Infinite coordinates

A box without bounds holds points with infinite coordinates too, but a segment
that has an infinite coordinate at one end is not made for arithmetic. If it
starts there, none of its points is a number, for equal infinities have no
difference. If it ends there, its points are infinite but for the first, where
the infinite length is taken zero times. And a clip, which divides by the
length, puts the exit just there if the infinite end is beyond a bound.

So a crop of vertices that are numbers leaves one that is not if it moves a
vertex along such a segment. With finite coordinates it never does.
-/

namespace Wireframe

open Coordinate
open Exact (rat)

/-- No coordinate is undefined; infinities are numbers. -/
def Point.IsNumber {κ : Type} [Coordinate κ] (p : Point κ) : Prop := ∀ a, isNaN (p.coord a) = false

/-! ## One axis -/

section Between

variable {κ : Type} [Coordinate κ] [OrderedCoordinate κ] {p q lo hi : κ}

/-- An end cannot be beyond both bounds if something is between them. -/
theorem Beyond.unique (hlo : le lo p = true) (hhi : le p hi = true) {b b' : κ} (h : Beyond q lo hi b)
    (h' : Beyond q lo hi b') : b = b' := by
  have hboth : ¬(lt q lo = true ∧ lt hi q = true) := by
    rintro ⟨hbelow, habove⟩
    have hup := le_lt_trans (OrderedCoordinate.trans hlo hhi) habove
    rw [lt_eq_false_of_le (lt_iff.1 hbelow).1] at hup
    cases hup
  rcases h with ⟨h, rfl⟩ | ⟨h, rfl⟩ <;> rcases h' with ⟨h', rfl⟩ | ⟨h', rfl⟩
  · rfl
  · exact absurd ⟨h, h'⟩ hboth
  · exact absurd ⟨h', h⟩ hboth
  · rfl

/-- From between two bounds a clip moves the exit if the end is beyond one of
them, and does nothing else. -/
theorem Span.clip_cases (s : Span κ) (hlo : le lo p = true) (hhi : le p hi = true) :
    (s.clip p q lo hi = s ∧ ∀ b, ¬Beyond q lo hi b) ∨
      ∃ b, Beyond q lo hi b ∧ s.clip p q lo hi = ⟨s.enter, least s.exit ((b - p) / (q - p))⟩ := by
  rw [Span.clip_between hlo hhi]
  by_cases habove : lt hi q = true
  · exact .inr ⟨hi, .inr ⟨habove, rfl⟩, by rw [if_pos habove]⟩
  · by_cases hbelow : lt q lo = true
    · exact .inr ⟨lo, .inl ⟨hbelow, rfl⟩, by rw [if_neg habove, if_pos hbelow]⟩
    · refine .inl ⟨by rw [if_neg habove, if_neg hbelow], ?_⟩
      rintro b (⟨h, -⟩ | ⟨h, -⟩)
      · exact hbelow h
      · exact habove h

end Between

namespace Exact

/-- Either infinity. -/
def IsInfinite (a : Exact) : Prop := a = negInf ∨ a = posInf

theorem rat_or_infinite {a : Exact} (h : isNaN a = false) : (∃ q, a = rat q) ∨ a.IsInfinite := by
  cases a <;> simp_all [isNaN, Coordinate.le, le, IsInfinite]

theorem IsInfinite.isFinite {a : Exact} (h : a.IsInfinite) : Coordinate.isFinite a = false := by
  rcases h with rfl | rfl <;> rfl

theorem IsInfinite.neg {a : Exact} (h : a.IsInfinite) : a.neg.IsInfinite := by
  rcases h with rfl | rfl
  · exact .inr rfl
  · exact .inl rfl

theorem IsInfinite.sub_rat {a : Exact} (h : a.IsInfinite) (p : ℚ) : a - rat p = a := by
  rcases h with rfl | rfl <;> rfl

theorem IsInfinite.sub {a : Exact} (h : a.IsInfinite) (b : Exact) : b - a = nan ∨ b - a = a.neg := by
  rcases h with rfl | rfl <;> cases b <;> first | exact .inl rfl | exact .inr rfl

theorem IsInfinite.rat_mul {a : Exact} (h : a.IsInfinite) {t : ℚ} (ht : 0 ≤ t) :
    rat t * a = if t = 0 then nan else a := by
  rcases ht.eq_or_lt with rfl | hpos
  · rcases h with rfl | rfl <;> rfl
  · have hsign : SignType.sign t = 1 := sign_pos hpos
    rw [if_neg hpos.ne']
    rcases h with rfl | rfl
    · change infinite (SignType.sign t * -1) = negInf
      rw [hsign]
      rfl
    · change infinite (SignType.sign t * 1) = posInf
      rw [hsign]
      rfl

/-- There is no way from an infinite coordinate. -/
theorem IsInfinite.along {p : Exact} (hp : p.IsInfinite) (q : Exact) {t : ℚ} (ht : 0 ≤ t) :
    p + rat t * (q - p) = nan := by
  have hnan : p + nan = nan := by rcases hp with rfl | rfl <;> rfl
  have hneg : p + p.neg = nan := by rcases hp with rfl | rfl <;> rfl
  rcases hp.sub q with h | h
  · rw [h]
    exact hnan
  · rw [h, hp.neg.rat_mul ht]
    split
    · exact hnan
    · exact hneg

/-- Lengths from an infinite coordinate have no quotient. -/
theorem IsInfinite.div {p : Exact} (hp : p.IsInfinite) (b q : Exact) : (b - p) / (q - p) = nan := by
  rcases hp.sub b with hb | hb <;> rcases hp.sub q with hq | hq <;> rw [hb, hq] <;> rcases hp with rfl | rfl <;> rfl

/-- The way from a finite coordinate to an infinite one has no start. -/
theorem isNaN_along (p : ℚ) {q : Exact} {t : ℚ} (hq : isNaN q = false) (ht : 0 ≤ t) :
    isNaN (rat p + rat t * (q - rat p)) = false ↔ Coordinate.isFinite q = true ∨ t ≠ 0 := by
  rcases rat_or_infinite hq with ⟨q, rfl⟩ | hinf
  · rw [rat_sub_rat, rat_mul_rat, rat_add_rat, isNaN_rat]
    exact iff_of_true rfl (.inl (isFinite_iff.2 ⟨q, rfl⟩))
  · rw [hinf.sub_rat, hinf.rat_mul ht, hinf.isFinite]
    by_cases hzero : t = 0
    · rw [if_pos hzero]
      exact iff_of_false Bool.noConfusion (by simp [hzero])
    · rw [if_neg hzero]
      refine iff_of_true ?_ (.inr hzero)
      rcases hinf with rfl | rfl <;> rfl

end Exact

/-- The end of a segment is beyond a bound that its start is on, or it is
infinite and beyond any. -/
def Halts (p q lo hi : Exact) : Prop := ∃ b, Beyond q lo hi b ∧ (p = b ∨ isFinite q = false)

section Clip

variable {lo hi q : Exact} {p t : ℚ}

/-- A bound that the end is beyond is met at a parameter that is not negative. -/
theorem Beyond.met {b : Exact} (hlo : le lo (rat p) = true) (hhi : le (rat p) hi = true) (hb : Beyond q lo hi b) :
    ∃ c : ℚ, 0 ≤ c ∧ (b - rat p) / (q - rat p) = rat c ∧ (c = 0 ↔ rat p = b ∨ isFinite q = false) := by
  obtain ⟨hq, r, rfl, hr⟩ := hb.between hlo hhi
  rcases Exact.rat_or_infinite hq with ⟨q', rfl⟩ | hinf
  · obtain ⟨-, -, hqp⟩ := hb.rational hlo hhi
    have hne : q' - p ≠ 0 := sub_ne_zero.2 hqp
    have hnonneg : 0 ≤ (r - p) / (q' - p) := by
      rcases hr q' rfl with ⟨h, h'⟩ | ⟨h, h'⟩
      · exact div_nonneg_of_nonpos (sub_nonpos.2 h') (sub_neg.2 (h.trans_le h')).le
      · exact div_nonneg (sub_nonneg.2 h) (sub_pos.2 (lt_of_le_of_lt h h')).le
    refine ⟨_, hnonneg, ?_, ?_⟩
    · rw [Exact.rat_sub_rat, Exact.rat_sub_rat, Exact.rat_div_rat _ hne]
    · have hfin : isFinite (rat q') = true := Exact.isFinite_iff.2 ⟨q', rfl⟩
      rw [div_eq_zero_iff, or_iff_left hne, sub_eq_zero, hfin, Exact.rat.injEq, eq_comm]
      simp
  · refine ⟨0, le_rfl, ?_, iff_of_true rfl (.inr hinf.isFinite)⟩
    rw [hinf.sub_rat, Exact.rat_sub_rat]
    rcases hinf with rfl | rfl <;> rfl

/-- A clip brings the exit to the start where the segment halts. -/
theorem clip_rat (hlo : le lo (rat p) = true) (hhi : le (rat p) hi = true) (h₀ : 0 ≤ t) :
    ∃ t', 0 ≤ t' ∧ Span.clip ⟨rat 0, rat t⟩ (rat p) q lo hi = ⟨rat 0, rat t'⟩ ∧
      (t' = 0 ↔ t = 0 ∨ Halts (rat p) q lo hi) := by
  rcases Span.clip_cases (q := q) ⟨rat 0, rat t⟩ hlo hhi with ⟨hclip, hnone⟩ | ⟨b, hb, hclip⟩
  · have hhalts : ¬Halts (rat p) q lo hi := fun ⟨b, hb, _⟩ => hnone b hb
    exact ⟨t, h₀, hclip, by rw [or_iff_left hhalts]⟩
  · obtain ⟨c, hc, hquot, hzero⟩ := hb.met hlo hhi
    have hhalts : Halts (rat p) q lo hi ↔ c = 0 := by
      rw [hzero]
      constructor
      · rintro ⟨b', hb', h⟩
        rwa [hb.unique hlo hhi hb']
      · exact fun h => ⟨b, hb, h⟩
    refine ⟨min t c, le_min h₀ hc, by rw [hclip, hquot, Exact.least_rat], ?_⟩
    rw [hhalts]
    rcases le_total t c with h | h
    · rw [min_eq_left h]
      exact ⟨.inl, fun hor => hor.elim id fun hc => le_antisymm (hc ▸ h) h₀⟩
    · rw [min_eq_right h]
      exact ⟨.inr, fun hor => hor.elim (fun ht => le_antisymm (ht ▸ h) hc) id⟩

/-- From an infinite coordinate no clip does anything. -/
theorem clip_infinite {a : Exact} (ha : a.IsInfinite) (hlo : le lo a = true) (hhi : le a hi = true) :
    Span.clip ⟨rat 0, rat t⟩ a q lo hi = ⟨rat 0, rat t⟩ := by
  have hleast : least (rat t) .nan = rat t := by simp [least, le, Exact.le]
  rcases Span.clip_cases (q := q) ⟨rat 0, rat t⟩ hlo hhi with ⟨hclip, -⟩ | ⟨b, -, hclip⟩
  · exact hclip
  · rw [hclip, ha.div, hleast]

end Clip

/-! ## All axes -/

namespace Box

variable {bounds : Box Exact} {p q : Point Exact}

/-- The segment does not start at infinity, and if it ends there it halts on no
axis. -/
structure Reaches (bounds : Box Exact) (p q : Point Exact) : Prop where
  start : p.IsFinite
  finish : q.IsFinite ∨ ∀ i, ¬Halts (p.coord i) (q.coord i) (bounds.lo.coord i) (bounds.hi.coord i)

/-- Every axis on which the segment halts brings the exit to the start, and no
other does. -/
theorem foldl_clip_halts (axes : List Axis) (hin : bounds.contains p = true) {t : ℚ} (h₀ : 0 ≤ t) :
    ∃ t', 0 ≤ t' ∧ axes.foldl (fun (s : Span Exact) i =>
        s.clip (p.coord i) (q.coord i) (bounds.lo.coord i) (bounds.hi.coord i)) ⟨rat 0, rat t⟩ = ⟨rat 0, rat t'⟩ ∧
      (p.IsFinite → (t' = 0 ↔ t = 0 ∨
        ∃ i ∈ axes, Halts (p.coord i) (q.coord i) (bounds.lo.coord i) (bounds.hi.coord i))) := by
  -- an axis on which the start is infinite leaves the exit as it is
  induction axes generalizing t with
  | nil => exact ⟨t, h₀, rfl, fun _ => by simp⟩
  | cons i axes ih =>
    obtain ⟨hlo, hhi⟩ := contains_iff.1 hin i i.mem_all
    rw [List.foldl_cons]
    rcases Exact.rat_or_infinite (OrderedCoordinate.number_of_le hhi).1 with ⟨r, hr⟩ | hinf
    · rw [hr] at hlo hhi ⊢
      obtain ⟨t₁, h₁, hclip, hzero⟩ := clip_rat (q := q.coord i) hlo hhi h₀
      obtain ⟨t₂, h₂, hfold, hrest⟩ := ih h₁
      refine ⟨t₂, h₂, by rw [hclip, hfold], fun hp => ?_⟩
      rw [hrest hp, hzero, ← hr, or_assoc, List.exists_mem_cons_iff]
    · obtain ⟨t₂, h₂, hfold, -⟩ := ih h₀
      refine ⟨t₂, h₂, by rw [clip_infinite hinf hlo hhi, hfold], fun hp => ?_⟩
      have hfin := hp i
      rw [hinf.isFinite] at hfin
      cases hfin

/-- From inside a box a segment leaves it at a parameter that is not negative,
and is zero where the segment halts on some axis. -/
theorem exitPoint_halts (hin : bounds.contains p = true) (q : Point Exact) :
    ∃ t : ℚ, 0 ≤ t ∧ bounds.exitPoint p q = along p q (rat t) ∧
      (p.IsFinite → (t = 0 ↔ ∃ i, Halts (p.coord i) (q.coord i) (bounds.lo.coord i) (bounds.hi.coord i))) := by
  obtain ⟨t, h₀, hspan, hzero⟩ := foldl_clip_halts (q := q) Axis.all hin zero_le_one
  refine ⟨t, h₀, (exitPoint_eq_along hspan h₀).2, fun hp => ?_⟩
  rw [hzero hp, or_iff_right one_ne_zero]
  exact ⟨fun ⟨i, _, hi⟩ => ⟨i, hi⟩, fun ⟨i, hi⟩ => ⟨i, i.mem_all, hi⟩⟩

/-- Just then it leaves the box at a point that is a number. -/
theorem isNumber_exitPoint (hin : bounds.contains p = true) (hq : q.IsNumber) :
    (bounds.exitPoint p q).IsNumber ↔ bounds.Reaches p q := by
  obtain ⟨t, h₀, hexit, hzero⟩ := exitPoint_halts hin q
  rw [hexit]
  by_cases hp : p.IsFinite
  · have hcoord : ∀ i, isNaN ((along p q (rat t)).coord i) = false ↔ isFinite (q.coord i) = true ∨ t ≠ 0 := by
      intro i
      obtain ⟨r, hr⟩ := Exact.isFinite_iff.1 (hp i)
      rw [along, Point.coord_ofCoords, hr]
      exact Exact.isNaN_along r (hq i) h₀
    calc (along p q (rat t)).IsNumber
      _ ↔ ∀ i, isFinite (q.coord i) = true ∨ t ≠ 0 := forall_congr' hcoord
      _ ↔ q.IsFinite ∨ t ≠ 0 := forall_or_right
      _ ↔ bounds.Reaches p q := by
        rw [Ne, hzero hp, not_exists]
        exact ⟨fun h => ⟨hp, h⟩, Reaches.finish⟩
  · refine iff_of_false (fun hnumber => hp fun i => ?_) fun h => hp h.start
    obtain ⟨hlo, -⟩ := contains_iff.1 hin i i.mem_all
    rcases Exact.rat_or_infinite (OrderedCoordinate.number_of_le hlo).2 with hr | hinf
    · exact Exact.isFinite_iff.2 hr
    · have hnan := hnumber i
      rw [along, Point.coord_ofCoords, hinf.along _ h₀] at hnan
      cases hnan

/-- Between finite points everything is finite. -/
theorem isFinite_exitPoint (hin : bounds.contains p = true) (hp : p.IsFinite) (hq : q.IsFinite) :
    (bounds.exitPoint p q).IsFinite := by
  obtain ⟨t, -, hexit, -⟩ := exitPoint_halts hin q
  intro i
  obtain ⟨r, hr⟩ := Exact.isFinite_iff.1 (hp i)
  obtain ⟨r', hr'⟩ := Exact.isFinite_iff.1 (hq i)
  rw [hexit, coord_along hr hr']
  exact Exact.isFinite_iff.2 ⟨_, rfl⟩

end Box

/-! ## Crops -/

/-- The last edge that ties a vertex to the inside ties it to one vertex. -/
theorem EdgeGeometry.LastTie.unique {κ : Type} [Coordinate κ] {g : EdgeGeometry κ} {bounds : Box κ}
    {e e' u u' w : Nat} (h : g.LastTie bounds e u w) (h' : g.LastTie bounds e' u' w) (hw : g.inside bounds w = false) : u = u' := by
  obtain rfl : e = e' := le_antisymm (h'.2 e u h.1) (h.2 e' u' h'.1)
  obtain ⟨⟨l, hl, hends, hu⟩, -⟩ := h
  obtain ⟨⟨l', hl', hends', hu'⟩, -⟩ := h'
  obtain rfl := Option.some.inj (hl.symm.trans hl')
  -- an edge from `w` to itself has no end inside
  have hne : ∀ x, g.inside bounds x = true → x ≠ w := by
    rintro x hx rfl
    rw [hw] at hx
    cases hx
  have := hne u hu
  have := hne u' hu'
  omega

variable {src dst : EdgeGeometry Exact} {bounds : Box Exact} {policy : BoundaryPolicy} {schedule : Schedule}
  {stats : CropStats} {s : Selection Exact} {links : List Link}

namespace Selection

/-- A vertex that was outside is a number in the result where the edge that
moved it last reaches one. -/
theorem isNumber_compact (hs : Selection.of src bounds policy = .ok s)
    (hsrc : ∀ v p, src.vertex? v = some p → p.IsNumber) {i v : Nat}
    (hv : (src.keptVertices bounds policy)[i]? = some v) :
    (∀ x, (s.compact src dst links).vertex? i = some x → x.IsNumber) ↔
      (src.inside bounds v = false → ∀ e u p q, src.LastTie bounds e u v → src.vertex? u = some p →
        src.vertex? v = some q → bounds.Reaches p q) := by
  have hmem := List.mem_of_getElem? hv
  obtain ⟨q, hq⟩ := EdgeGeometry.exists_vertex? (EdgeGeometry.mem_keptVertices.1 hmem).1
  simp only [vertex?_compact hs links hv hq, Option.some.injEq, forall_eq']
  cases hin : src.inside bounds v with
  | true =>
    rw [moved_eq_none hs hin]
    exact iff_of_true (hsrc v q hq) Bool.noConfusion
  | false =>
    obtain ⟨x, hx⟩ := exists_moved hs hmem hin
    obtain ⟨e, u, p, q', hlast, hp, hq', hcontains, -, rfl⟩ := moved_spec hs hx
    obtain rfl := Option.some.inj (hq.symm.trans hq')
    rw [hx, Option.getD_some, Box.isNumber_exitPoint hcontains (hsrc v q hq)]
    constructor
    · intro hreach _ e' u' p' q' hlast' hp' hq'
      obtain rfl := hlast.unique hlast' hin
      rwa [← Option.some.inj (hp.symm.trans hp'), ← Option.some.inj (hq.symm.trans hq')]
    · exact fun h => h rfl e u p q hlast hp hq

theorem isFinite_compact (hs : Selection.of src bounds policy = .ok s)
    (hsrc : ∀ v p, src.vertex? v = some p → p.IsFinite) {i v : Nat}
    (hv : (src.keptVertices bounds policy)[i]? = some v) {x : Point Exact}
    (hx : (s.compact src dst links).vertex? i = some x) : x.IsFinite := by
  obtain ⟨q, hq⟩ := EdgeGeometry.exists_vertex? (EdgeGeometry.mem_keptVertices.1 (List.mem_of_getElem? hv)).1
  rw [vertex?_compact hs links hv hq, Option.some.injEq] at hx
  cases hm : s.moved.find? v with
  | none =>
    rw [hm, Option.getD_none] at hx
    exact hx ▸ hsrc v q hq
  | some y =>
    obtain ⟨e, u, p, q', -, hp, hq', hcontains, -, rfl⟩ := moved_spec hs hm
    rw [hm, Option.getD_some] at hx
    exact hx ▸ Box.isFinite_exitPoint hcontains (hsrc u p hp) (hsrc v q' hq')

end Selection

/-- A complete crop of vertices that are numbers leaves only numbers if and only
if each vertex that it moves was tied last by a segment that leaves the box at
one: its start is finite, and it does not halt if its end is infinite. Where
all coordinates are finite they stay so. -/
theorem crop_numbers_iff (h : (crop src dst bounds policy schedule).result = .ok (.complete stats))
    (hsrc : ∀ v p, src.vertex? v = some p → p.IsNumber) :
    ((∀ i x, (crop src dst bounds policy schedule).destination.vertex? i = some x → x.IsNumber) ↔
        ∀ v ∈ src.keptVertices bounds policy, src.inside bounds v = false → ∀ e u p q,
          src.LastTie bounds e u v → src.vertex? u = some p → src.vertex? v = some q → bounds.Reaches p q) ∧
      ((∀ v p, src.vertex? v = some p → p.IsFinite) →
        ∀ i x, (crop src dst bounds policy schedule).destination.vertex? i = some x → x.IsFinite) := by
  obtain ⟨s, links, hs, -, -, hd, -⟩ := crop_complete h
  rw [hd]
  have hkept : ∀ i x, (s.compact src dst links).vertex? i = some x →
      ∃ v, (src.keptVertices bounds policy)[i]? = some v := fun i x hx =>
    Selection.exists_kept hs (EdgeGeometry.lt_vertexCount hx)
  refine ⟨⟨fun hall v hv => ?_, fun hreach i x hx => ?_⟩, fun hfin i x hx => ?_⟩
  · obtain ⟨i, hi⟩ := List.mem_iff_getElem?.1 hv
    exact (Selection.isNumber_compact hs hsrc hi).1 (hall i)
  · obtain ⟨v, hv⟩ := hkept i x hx
    exact (Selection.isNumber_compact hs hsrc hv).2 (hreach v (List.mem_of_getElem? hv)) x hx
  · obtain ⟨v, hv⟩ := hkept i x hx
    exact Selection.isFinite_compact hs hfin hv hx

theorem isNumber_of_points {g : EdgeGeometry Exact}
    (h : ∀ p ∈ g.points, ∀ d ∈ Axis.all, isNaN (p.coord d) = false) {v : Nat} {p : Point Exact}
    (hp : g.vertex? v = some p) : p.IsNumber := by
  intro d
  exact h p (EdgeGeometry.mem_points.2 ⟨v, hp⟩) d d.mem_all

/-- An edge that ends at infinity on an axis without bounds. -/
def beam : EdgeGeometry Exact := .ofLists [⟨.rat 0, .rat 0, .rat 0⟩, ⟨.rat 2, .rat 0, .posInf⟩] [(0, 1)]

theorem reaches_beam : (between (-1) 1).Reaches ⟨.rat 0, .rat 0, .rat 0⟩ ⟨.rat 2, .rat 0, .posInf⟩ where
  start i := by cases i <;> rfl
  finish := by
    right
    rintro i ⟨b, ⟨h, rfl⟩ | ⟨h, rfl⟩, hb | hb⟩ <;> cases i <;> revert h hb <;> decide +kernel

/-- The moved vertex is still at infinity. -/
theorem crop_numbers_beam :
    (crop beam beam.emptyLike (between (-1) 1) .interpolate .never).result = .ok (.complete ⟨2, 1, 1⟩) ∧
      (crop beam beam.emptyLike (between (-1) 1) .interpolate .never).destination.vertex? 1 =
        some ⟨.rat 1, .rat 0, .posInf⟩ ∧
      ∀ i x, (crop beam beam.emptyLike (between (-1) 1) .interpolate .never).destination.vertex? i = some x →
        x.IsNumber := by
  have hr : (crop beam beam.emptyLike (between (-1) 1) .interpolate .never).result =
      .ok (.complete ⟨2, 1, 1⟩) := by with_unfolding_all rfl
  have hstart : ∀ p ∈ beam.points, (between (-1) 1).contains p = true → p = ⟨.rat 0, .rat 0, .rat 0⟩ := by
    decide +kernel
  have hend : ∀ q ∈ beam.points, (between (-1) 1).contains q = false → q = ⟨.rat 2, .rat 0, .posInf⟩ := by
    decide +kernel
  refine ⟨hr, by decide +kernel, (crop_numbers_iff hr fun _ _ => isNumber_of_points (by decide +kernel)).1.2 ?_⟩
  rintro v - hout e u p q ⟨⟨l, -, -, hin⟩, -⟩ hp hq
  rw [EdgeGeometry.inside, hp, Option.any_some] at hin
  rw [EdgeGeometry.inside, hq, Option.any_some] at hout
  rw [hstart p (EdgeGeometry.mem_points.2 ⟨u, hp⟩) hin, hend q (EdgeGeometry.mem_points.2 ⟨v, hq⟩) hout]
  exact reaches_beam

/-- An edge that ends at infinity beyond a bound. -/
def ray : EdgeGeometry Exact := .ofLists [⟨.rat 0, .rat 0, .rat 0⟩, ⟨.posInf, .rat 0, .rat 0⟩] [(0, 1)]

/-- The far end of the ray is not moved to the bound. -/
theorem crop_undefined_ray :
    (∀ v p, ray.vertex? v = some p → p.IsNumber) ∧ (between (-1) 1).lo.IsNumber ∧ (between (-1) 1).hi.IsNumber ∧
      (crop ray ray.emptyLike (between (-1) 1) .interpolate .never).result = .ok (.complete ⟨2, 1, 1⟩) ∧
      (crop ray ray.emptyLike (between (-1) 1) .interpolate .never).destination.vertex? 1 =
        some ⟨.nan, .rat 0, .rat 0⟩ ∧
      ¬∀ i x, (crop ray ray.emptyLike (between (-1) 1) .interpolate .never).destination.vertex? i = some x →
        x.IsNumber := by
  have hmoved : (crop ray ray.emptyLike (between (-1) 1) .interpolate .never).destination.vertex? 1 =
      some ⟨.nan, .rat 0, .rat 0⟩ := by decide +kernel
  refine ⟨fun _ _ => isNumber_of_points (by decide +kernel), ?_, ?_, by with_unfolding_all rfl, hmoved, ?_⟩
  · intro i
    cases i <;> rfl
  · intro i
    cases i <;> rfl
  · intro h
    exact Bool.noConfusion (h 1 _ hmoved .x)

end Wireframe
