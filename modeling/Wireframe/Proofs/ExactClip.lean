import Wireframe.Proofs.Clip
import Mathlib.Algebra.Order.Field.Basic
import Mathlib.Tactic.Linarith
/-!
# Clipping without rounding

Over exact coordinates a clip does what it is meant to do. The parameters at
which a segment from inside a box is inside are those up to one parameter, the
exit: each axis cuts the span down to the parameters at which the segment lies
between the bounds there, and none moves the entry.

The exit starts at the end of the segment and is only ever moved to where the
segment meets a bound that its end is beyond. So a segment that ends outside
leaves the box through such a bound.
-/

namespace Wireframe

open Coordinate
open Exact (rat le_rat lt_rat le_rat_iff rat_le_iff)

/-- All coordinates are numbers other than the infinities. -/
def Point.IsFinite {κ : Type} [Coordinate κ] (p : Point κ) : Prop :=
  ∀ a, isFinite (p.coord a) = true

/-! ## Cuts -/

/-- Of the parameters from 0 to `t` those up to `t'` have a property. -/
structure Cut (P : ℚ → Prop) (t t' : ℚ) : Prop where
  nonneg : 0 ≤ t'
  le : t' ≤ t
  iff : ∀ u, 0 ≤ u → u ≤ t → (P u ↔ u ≤ t')

theorem Cut.whole {P : ℚ → Prop} {t : ℚ} (ht : 0 ≤ t) (h : ∀ u, 0 ≤ u → u ≤ t → P u) : Cut P t t where
  nonneg := ht
  le := le_rfl
  iff u hu hut := iff_of_true (h u hu hut) hut

theorem Cut.min {P : ℚ → Prop} {t c : ℚ} (ht : 0 ≤ t) (hc : 0 ≤ c) (h : ∀ u, P u ↔ u ≤ c) : Cut P t (min t c) where
  nonneg := le_min ht hc
  le := min_le_left t c
  iff u _ hut := by rw [h, le_min_iff, and_iff_right hut]

/-- Two cuts, one after the other, leave the parameters with both properties. -/
theorem Cut.and {P Q : ℚ → Prop} {t t₁ t₂ : ℚ} (h₁ : Cut P t t₁) (h₂ : Cut Q t₁ t₂) :
    Cut (fun u => P u ∧ Q u) t t₂ where
  nonneg := h₂.nonneg
  le := h₂.le.trans h₁.le
  iff u hu hut := by
    constructor
    · rintro ⟨hP, hQ⟩
      exact (h₂.iff u hu ((h₁.iff u hu hut).1 hP)).1 hQ
    · intro hle
      have hu₁ := hle.trans h₂.le
      exact ⟨(h₁.iff u hu hut).2 hu₁, (h₂.iff u hu hu₁).2 hle⟩

/-! ## One axis -/

variable {lo hi : Exact} {p q t : ℚ}

/-- A segment that goes up leaves through the upper bound, if at all. -/
theorem cut_up (hp : le (rat p) hi = true) (hpq : p < q) (h₀ : 0 ≤ t) (h₁ : t ≤ 1) :
    ∃ t', (if lt hi (rat q) then least (rat t) ((hi - rat p) / (rat q - rat p)) else rat t) = rat t' ∧
      Cut (fun u => le (rat (p + u * (q - p))) hi = true) t t' := by
  have hd : 0 < q - p := sub_pos.2 hpq
  rcases rat_le_iff.1 hp with rfl | ⟨h, hh, rfl⟩
  · exact ⟨t, rfl, .whole h₀ fun _ _ _ => rfl⟩
  · simp only [lt_rat, le_rat, decide_eq_true_eq]
    by_cases hq : h < q
    · rw [if_pos hq, Exact.rat_sub_rat, Exact.rat_sub_rat, Exact.rat_div_rat _ hd.ne', Exact.least_rat]
      refine ⟨_, rfl, .min h₀ (div_nonneg (sub_nonneg.2 hh) hd.le) fun u => ?_⟩
      rw [le_div_iff₀ hd, le_sub_iff_add_le']
    · rw [if_neg hq]
      refine ⟨t, rfl, .whole h₀ fun u _ hut => ?_⟩
      have hu := mul_le_mul_of_nonneg_right (hut.trans h₁) hd.le
      linarith

/-- Any other segment leaves through the lower bound, if at all. -/
theorem cut_down (hp : le lo (rat p) = true) (hqp : q ≤ p) (h₀ : 0 ≤ t) (h₁ : t ≤ 1) :
    ∃ t', (if lt (rat q) lo then least (rat t) ((lo - rat p) / (rat q - rat p)) else rat t) = rat t' ∧
      Cut (fun u => le lo (rat (p + u * (q - p))) = true) t t' := by
  rcases le_rat_iff.1 hp with rfl | ⟨l, hl, rfl⟩
  · exact ⟨t, rfl, .whole h₀ fun _ _ _ => rfl⟩
  · simp only [lt_rat, le_rat, decide_eq_true_eq]
    by_cases hq : q < l
    · have hd : q - p < 0 := sub_neg.2 (hq.trans_le hl)
      rw [if_pos hq, Exact.rat_sub_rat, Exact.rat_sub_rat, Exact.rat_div_rat _ hd.ne, Exact.least_rat]
      refine ⟨_, rfl, .min h₀ (div_nonneg_of_nonpos (sub_nonpos.2 hl) hd.le) fun u => ?_⟩
      rw [le_div_iff_of_neg hd, sub_le_iff_le_add']
    · rw [if_neg hq]
      refine ⟨t, rfl, .whole h₀ fun u _ hut => ?_⟩
      have hu := mul_le_mul_of_nonneg_right (hut.trans h₁) (sub_nonneg.2 hqp)
      linarith

/-- From between two bounds a clip cuts to the parameters at which the segment
is between them. -/
theorem clip_cuts (hlo : le lo (rat p) = true) (hhi : le (rat p) hi = true) (h₀ : 0 ≤ t) (h₁ : t ≤ 1) :
    ∃ t', Span.clip ⟨rat 0, rat t⟩ (rat p) (rat q) lo hi = ⟨rat 0, rat t'⟩ ∧
      Cut (fun u => le lo (rat (p + u * (q - p))) = true ∧ le (rat (p + u * (q - p))) hi = true) t t' := by
  unfold Span.clip
  by_cases hpq : p < q
  · -- the start lies above the lower bound and the end above the start
    have henter : lt (rat q) lo = false := by
      rcases le_rat_iff.1 hlo with rfl | ⟨l, hl, rfl⟩
      · rfl
      · rw [lt_rat]
        exact decide_eq_false (by linarith)
    have habove : ∀ u, 0 ≤ u → le lo (rat (p + u * (q - p))) = true := by
      intro u hu
      have := mul_nonneg hu (sub_nonneg.2 hpq.le)
      exact le_rat_iff.2 ((le_rat_iff.1 hlo).imp_right fun ⟨l, hl, he⟩ => ⟨l, by linarith, he⟩)
    obtain ⟨t', ht', hcut⟩ := cut_up hhi hpq h₀ h₁
    refine ⟨t', ?_, (Cut.whole h₀ fun u hu _ => habove u hu).and hcut⟩
    rw [lt_rat, if_pos (decide_eq_true hpq), henter, ht']
    rfl
  · have hqp := not_lt.1 hpq
    have henter : lt hi (rat q) = false := by
      rcases rat_le_iff.1 hhi with rfl | ⟨h, hh, rfl⟩
      · rfl
      · rw [lt_rat]
        exact decide_eq_false (by linarith)
    have hbelow : ∀ u, 0 ≤ u → le (rat (p + u * (q - p))) hi = true := by
      intro u hu
      have := mul_nonneg hu (sub_nonneg.2 hqp)
      exact rat_le_iff.2 ((rat_le_iff.1 hhi).imp_right fun ⟨h, hh, he⟩ => ⟨h, by linarith, he⟩)
    obtain ⟨t', ht', hcut⟩ := cut_down hlo hqp h₀ h₁
    refine ⟨t', ?_, hcut.and (Cut.whole hcut.nonneg fun u hu _ => hbelow u hu)⟩
    rw [lt_rat, if_neg (by simpa using hqp), henter, ht']
    rfl

/-- A bound that the end is beyond is rational, and between the start and a
rational end. -/
theorem Beyond.between {v bound : Exact} (hlo : le lo (rat p) = true) (hhi : le (rat p) hi = true)
    (h : Beyond v lo hi bound) :
    isNaN v = false ∧ ∃ b, bound = rat b ∧ ∀ q, v = rat q → q < b ∧ b ≤ p ∨ p ≤ b ∧ b < q := by
  rcases h with ⟨h, rfl⟩ | ⟨h, rfl⟩
  · have hv := (OrderedCoordinate.number_of_le (lt_iff.1 h).1).1
    rcases le_rat_iff.1 hlo with rfl | ⟨l, hl, rfl⟩
    · exact Bool.noConfusion (h.symm.trans (lt_eq_false_of_le (BoundedCoordinate.negInf_le hv)))
    · refine ⟨hv, l, rfl, ?_⟩
      rintro q rfl
      rw [lt_rat, decide_eq_true_eq] at h
      exact .inl ⟨h, hl⟩
  · have hv := (OrderedCoordinate.number_of_le (lt_iff.1 h).1).2
    rcases rat_le_iff.1 hhi with rfl | ⟨u, hu, rfl⟩
    · exact Bool.noConfusion (h.symm.trans (lt_eq_false_of_le (BoundedCoordinate.le_posInf hv)))
    · refine ⟨hv, u, rfl, ?_⟩
      rintro q rfl
      rw [lt_rat, decide_eq_true_eq] at h
      exact .inr ⟨hu, h⟩

/-- So the ends of a rational segment differ. -/
theorem Beyond.rational {bound : Exact} (hlo : le lo (rat p) = true) (hhi : le (rat p) hi = true)
    (h : Beyond (rat q) lo hi bound) : ∃ b, bound = rat b ∧ q ≠ p := by
  obtain ⟨-, b, hb, hq⟩ := h.between hlo hhi
  refine ⟨b, hb, ?_⟩
  rcases hq q rfl with ⟨hqb, hbp⟩ | ⟨hpb, hbq⟩
  · exact (hqb.trans_le hbp).ne
  · exact (hpb.trans_lt hbq).ne'

/-- Where a clip has moved the exit, the segment is on a bound that its end is
beyond. -/
theorem clip_meets {t' : ℚ} (hlo : le lo (rat p) = true) (hhi : le (rat p) hi = true)
    (h : (Span.clip ⟨rat 0, rat t⟩ (rat p) (rat q) lo hi).exit = rat t') :
    t' = t ∨ Beyond (rat q) lo hi (rat (p + t' * (q - p))) := by
  rcases exit_clip ⟨rat 0, rat t⟩ (rat p) (rat q) lo hi with he | ⟨bound, hb, he⟩
  · rw [h] at he
    exact .inl (Exact.rat.inj he)
  · obtain ⟨b, rfl, hqp⟩ := hb.rational hlo hhi
    have hd : q - p ≠ 0 := sub_ne_zero.2 hqp
    rw [h, Exact.rat_sub_rat, Exact.rat_sub_rat, Exact.rat_div_rat _ hd, Exact.least_rat] at he
    rcases min_choice t ((b - p) / (q - p)) with hm | hm
    · exact .inl (Exact.rat.inj (he.trans (congrArg rat hm)))
    · have ht' : t' = (b - p) / (q - p) := Exact.rat.inj (he.trans (congrArg rat hm))
      right
      rwa [ht', div_mul_cancel₀ _ hd, add_sub_cancel]

/-! ## All axes -/

namespace Box

variable {bounds : Box Exact} {a b : Point Exact}

theorem coord_along {i : Axis} {u : ℚ} (hp : a.coord i = rat p) (hq : b.coord i = rat q) :
    (along a b (rat u)).coord i = rat (p + u * (q - p)) := by
  rw [along, Point.coord_ofCoords, hp, hq, Exact.rat_sub_rat, Exact.rat_mul_rat, Exact.rat_add_rat]

theorem along_one (ha : a.IsFinite) (hb : b.IsFinite) : along a b (rat 1) = b := by
  have hcoord : ∀ i, (along a b (rat 1)).coord i = b.coord i := by
    intro i
    obtain ⟨p, hp⟩ := Exact.isFinite_iff.1 (ha i)
    obtain ⟨q, hq⟩ := Exact.isFinite_iff.1 (hb i)
    rw [coord_along hp hq, hq, one_mul, add_sub_cancel]
  exact Point.ext (hcoord .x) (hcoord .y) (hcoord .z)

/-- The clips over any axes cut to the parameters at which the segment is
between the bounds of all of them; where they move the exit, the segment is on
a bound of one of them. -/
theorem foldl_clip_cuts (axes : List Axis) (ha : a.IsFinite) (hb : b.IsFinite) (hin : bounds.contains a = true)
    {t : ℚ} (h₀ : 0 ≤ t) (h₁ : t ≤ 1) :
    ∃ t', axes.foldl (fun (s : Span Exact) i => s.clip (a.coord i) (b.coord i) (bounds.lo.coord i) (bounds.hi.coord i))
        ⟨rat 0, rat t⟩ = ⟨rat 0, rat t'⟩ ∧
      Cut (fun u => ∀ i ∈ axes, le (bounds.lo.coord i) ((along a b (rat u)).coord i) = true ∧
        le ((along a b (rat u)).coord i) (bounds.hi.coord i) = true) t t' ∧
      (t' = t ∨ ∃ i ∈ axes, Beyond (b.coord i) (bounds.lo.coord i) (bounds.hi.coord i)
        ((along a b (rat t')).coord i)) := by
  -- each axis goes on with the parameters that the axes before it have left
  induction axes generalizing t with
  | nil => exact ⟨t, rfl, .whole h₀ fun _ _ _ => by simp, .inl rfl⟩
  | cons i axes ih =>
    obtain ⟨p, hp⟩ := Exact.isFinite_iff.1 (ha i)
    obtain ⟨q, hq⟩ := Exact.isFinite_iff.1 (hb i)
    obtain ⟨hlo, hhi⟩ := contains_iff.1 hin i i.mem_all
    rw [hp] at hlo hhi
    obtain ⟨t₁, ht₁, hcut⟩ := clip_cuts (q := q) hlo hhi h₀ h₁
    obtain ⟨t₂, ht₂, hrest, hmeets⟩ := ih hcut.nonneg (hcut.le.trans h₁)
    refine ⟨t₂, by rw [List.foldl_cons, hp, hq, ht₁, ht₂], ?_, ?_⟩
    · simp only [List.forall_mem_cons, coord_along hp hq]
      exact hcut.and hrest
    · rcases hmeets with rfl | ⟨j, hj, hmeet⟩
      · -- no later axis has moved the exit that this one left
        rcases clip_meets hlo hhi (congrArg Span.exit ht₁) with rfl | hmeet
        · exact .inl rfl
        · rw [← coord_along hp hq, ← hq] at hmeet
          exact .inr ⟨i, List.mem_cons_self, hmeet⟩
      · exact .inr ⟨j, List.mem_cons_of_mem _ hj, hmeet⟩

/-- A segment from inside a box is inside up to its exit, which is its end or
on a bound that the end is beyond. -/
theorem span_cuts (ha : a.IsFinite) (hb : b.IsFinite) (hin : bounds.contains a = true) :
    ∃ t, bounds.span a b = ⟨rat 0, rat t⟩ ∧ Cut (fun u => bounds.contains (along a b (rat u)) = true) 1 t ∧
      (t = 1 ∨ ∃ i, Beyond (b.coord i) (bounds.lo.coord i) (bounds.hi.coord i) ((along a b (rat t)).coord i)) := by
  obtain ⟨t, hs, hcut, hmeets⟩ := foldl_clip_cuts Axis.all ha hb hin zero_le_one le_rfl
  simp only [contains_iff]
  exact ⟨t, hs, hcut, hmeets.imp_right fun ⟨i, _, hi⟩ => ⟨i, hi⟩⟩

/-- The exit of a segment from inside a box never comes before its entry. -/
theorem exitPoint_eq_along {t : ℚ} (hs : bounds.span a b = ⟨rat 0, rat t⟩) (ht : 0 ≤ t) :
    lt (bounds.span a b).exit (bounds.span a b).enter = false ∧ bounds.exitPoint a b = along a b (rat t) := by
  have henter : lt (rat t) (rat 0) = false := by
    rw [lt_rat]
    exact decide_eq_false (not_lt.2 ht)
  rw [exitPoint, hs]
  simp only [henter, Bool.false_eq_true, if_false, and_self]

/-- The point where a segment leaves a box is in the box. -/
theorem contains_exitPoint (ha : a.IsFinite) (hb : b.IsFinite) (hin : bounds.contains a = true) :
    bounds.contains (bounds.exitPoint a b) = true := by
  obtain ⟨t, hs, hcut, -⟩ := span_cuts ha hb hin
  rw [(exitPoint_eq_along hs hcut.nonneg).2]
  exact (hcut.iff t hcut.nonneg hcut.le).2 le_rfl

/-- A segment from inside a box to a point outside leaves it before its end,
through a bound that the end is beyond, and is not inside afterwards. -/
theorem exitPoint_last (ha : a.IsFinite) (hb : b.IsFinite) (hin : bounds.contains a = true)
    (hout : bounds.contains b = false) :
    lt (bounds.span a b).exit (bounds.span a b).enter = false ∧
      ∃ t : ℚ, 0 ≤ t ∧ t < 1 ∧ bounds.exitPoint a b = along a b (rat t) ∧
        bounds.contains (bounds.exitPoint a b) = true ∧
        (∃ i, Beyond (b.coord i) (bounds.lo.coord i) (bounds.hi.coord i) ((bounds.exitPoint a b).coord i)) ∧
        ∀ t' : ℚ, t < t' → t' ≤ 1 → bounds.contains (along a b (rat t')) = false := by
  obtain ⟨t, hs, hcut, hmeets⟩ := span_cuts ha hb hin
  obtain ⟨henter, hexit⟩ := exitPoint_eq_along hs hcut.nonneg
  have hlt : t < 1 := by
    refine hcut.le.lt_of_ne fun he => ?_
    have hend := (hcut.iff 1 zero_le_one le_rfl).2 he.ge
    rw [along_one ha hb, hout] at hend
    cases hend
  refine ⟨henter, t, hcut.nonneg, hlt, hexit, contains_exitPoint ha hb hin, ?_, fun t' ht h₁ => ?_⟩
  · rw [hexit]
    exact hmeets.resolve_left hlt.ne
  · rw [← Bool.not_eq_true, hcut.iff t' (hcut.nonneg.trans ht.le) h₁]
    exact not_le.2 ht

/-- A box without bounds on the third axis. -/
def column : Box Exact :=
  .ofAxes (· ≠ .z) ⟨.rat (-1 / 2), .rat (-1 / 2), .rat 0⟩ ⟨.rat (3 / 2), .rat (5 / 2), .rat 0⟩

/-- Of the two bounds that the end is beyond the segment meets the nearer one. -/
theorem exitPoint_last_column :
    Point.IsFinite (κ := Exact) ⟨.rat 0, .rat 0, .rat 7⟩ ∧ Point.IsFinite (κ := Exact) ⟨.rat 2, .rat (-1), .rat 7⟩ ∧
      column.contains ⟨.rat 0, .rat 0, .rat 7⟩ = true ∧ column.contains ⟨.rat 2, .rat (-1), .rat 7⟩ = false ∧
      column.exitPoint ⟨.rat 0, .rat 0, .rat 7⟩ ⟨.rat 2, .rat (-1), .rat 7⟩ = ⟨.rat 1, .rat (-1 / 2), .rat 7⟩ ∧
      ∃ t : ℚ, 0 ≤ t ∧ t < 1 ∧ ∀ t' : ℚ, t < t' → t' ≤ 1 →
        column.contains (along ⟨.rat 0, .rat 0, .rat 7⟩ ⟨.rat 2, .rat (-1), .rat 7⟩ (rat t')) = false := by
  have ha : Point.IsFinite (κ := Exact) ⟨.rat 0, .rat 0, .rat 7⟩ := fun i => by cases i <;> rfl
  have hb : Point.IsFinite (κ := Exact) ⟨.rat 2, .rat (-1), .rat 7⟩ := fun i => by cases i <;> rfl
  have hin : column.contains ⟨.rat 0, .rat 0, .rat 7⟩ = true := by decide +kernel
  have hout : column.contains ⟨.rat 2, .rat (-1), .rat 7⟩ = false := by decide +kernel
  obtain ⟨-, t, h₀, h₁, -, -, -, hlast⟩ := exitPoint_last ha hb hin hout
  exact ⟨ha, hb, hin, hout, by decide +kernel, t, h₀, h₁, hlast⟩

end Box

end Wireframe
