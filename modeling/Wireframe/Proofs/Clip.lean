import Wireframe.Proofs.Comparison
import Wireframe.Space.Box
/-!
# Clipping, whatever the arithmetic

A clip keeps the ends of a span, or takes the greater of the entry and a
quotient and the lesser of the exit and a quotient. So ends that are numbers
stay numbers, the entry is never lowered and the exit never raised, whatever
the quotients are and whether they are numbers at all. Nothing is asked of the
bounds either: they may be inverted, infinite or no numbers.

Three clips of a whole segment therefore leave an exit between 0 and 1, or one
before the entry, and then the point outside is not moved. From a point inside
the box no clip moves the entry.
-/

namespace Wireframe

open Coordinate

variable {κ : Type} [Coordinate κ]

/-- One of two bounds, which a coordinate is beyond. -/
def Beyond (v lo hi bound : κ) : Prop :=
  lt v lo = true ∧ bound = lo ∨ lt hi v = true ∧ bound = hi

/-! ## One clip -/

namespace Span

/-- Both ends are numbers. -/
structure IsNumeric (s : Span κ) : Prop where
  enter : isNaN s.enter = false
  exit : isNaN s.exit = false

/-- From one span to another the ends stay numbers and come no further apart. -/
structure Narrows (s s' : Span κ) : Prop where
  numeric : s'.IsNumeric
  le_enter : le s.enter s'.enter = true
  exit_le : le s'.exit s.exit = true

theorem Narrows.refl {s : Span κ} (h : s.IsNumeric) : s.Narrows s := ⟨h, le_self h.enter, le_self h.exit⟩

/-- A clip leaves the entry or takes the greater of it and some quotient. -/
theorem enter_clip (s : Span κ) (v₁ v₂ lo hi : κ) :
    (s.clip v₁ v₂ lo hi).enter = s.enter ∨ ∃ c, (s.clip v₁ v₂ lo hi).enter = greatest s.enter c := by
  unfold clip
  split <;> dsimp only
  · by_cases h : lt v₂ lo = true
    · exact .inr ⟨_, if_pos h⟩
    · exact .inl (if_neg h)
  · by_cases h : lt hi v₂ = true
    · exact .inr ⟨_, if_pos h⟩
    · exact .inl (if_neg h)

end Span

/-- A clip leaves the exit or moves it to where the segment meets a bound that
its end is beyond. -/
theorem exit_clip (s : Span κ) (v₁ v₂ lo hi : κ) :
    (s.clip v₁ v₂ lo hi).exit = s.exit ∨ ∃ bound, Beyond v₂ lo hi bound ∧
      (s.clip v₁ v₂ lo hi).exit = least s.exit ((bound - v₁) / (v₂ - v₁)) := by
  unfold Span.clip
  split <;> dsimp only
  · by_cases h : lt hi v₂ = true
    · exact .inr ⟨hi, .inr ⟨h, rfl⟩, if_pos h⟩
    · exact .inl (if_neg h)
  · by_cases h : lt v₂ lo = true
    · exact .inr ⟨lo, .inl ⟨h, rfl⟩, if_pos h⟩
    · exact .inl (if_neg h)

theorem Box.contains_iff {bounds : Box κ} {p : Point κ} :
    bounds.contains p = true ↔ ∀ i ∈ Axis.all, le (bounds.lo.coord i) (p.coord i) = true ∧
      le (p.coord i) (bounds.hi.coord i) = true := by
  rw [contains, List.all_eq_true]
  simp only [Bool.and_eq_true]

variable [OrderedCoordinate κ]

namespace Span

variable {s s₁ s₂ : Span κ} {v₁ v₂ lo hi : κ}

theorem Narrows.trans (h₁ : s.Narrows s₁) (h₂ : s₁.Narrows s₂) : s.Narrows s₂ where
  numeric := h₂.numeric
  le_enter := OrderedCoordinate.trans h₁.le_enter h₂.le_enter
  exit_le := OrderedCoordinate.trans h₂.exit_le h₁.exit_le

theorem clip_narrows (h : s.IsNumeric) (v₁ v₂ lo hi : κ) : s.Narrows (s.clip v₁ v₂ lo hi) := by
  have henter : isNaN (s.clip v₁ v₂ lo hi).enter = false ∧ le s.enter (s.clip v₁ v₂ lo hi).enter = true := by
    rcases s.enter_clip v₁ v₂ lo hi with he | ⟨c, he⟩
    · rw [he]
      exact ⟨h.enter, le_self h.enter⟩
    · rw [he]
      exact ⟨isNaN_greatest h.enter, le_greatest h.enter⟩
  have hexit : isNaN (s.clip v₁ v₂ lo hi).exit = false ∧ le (s.clip v₁ v₂ lo hi).exit s.exit = true := by
    rcases exit_clip s v₁ v₂ lo hi with he | ⟨bound, -, he⟩
    · rw [he]
      exact ⟨h.exit, le_self h.exit⟩
    · rw [he]
      exact ⟨isNaN_least h.exit, least_le h.exit⟩
  exact ⟨⟨henter.1, hexit.1⟩, henter.2, hexit.2⟩

/-- From between two bounds a clip moves the exit only, and only where the end
is beyond one of them. -/
theorem clip_between (hlo : le lo v₁ = true) (hhi : le v₁ hi = true) : s.clip v₁ v₂ lo hi =
    ⟨s.enter,
      if lt hi v₂ then least s.exit ((hi - v₁) / (v₂ - v₁))
      else if lt v₂ lo then least s.exit ((lo - v₁) / (v₂ - v₁))
      else s.exit⟩ := by
  unfold clip
  by_cases hup : lt v₁ v₂ = true
  · have habove : lt v₂ lo = false := lt_eq_false_of_le (lt_iff.1 (le_lt_trans hlo hup)).1
    simp only [hup, habove, Bool.false_eq_true, if_true, if_false]
  · have hbelow : lt hi v₂ = false := by
      rw [← Bool.not_eq_true]
      exact fun h => hup (le_lt_trans hhi h)
    simp only [hup, hbelow, Bool.false_eq_true, if_false]

end Span

/-! ## All axes -/

namespace Box

variable {bounds : Box κ} {p q : Point κ}

theorem foldl_clip_narrows (axes : List Axis) {s : Span κ} (h : s.IsNumeric) : s.Narrows
    (axes.foldl (fun s i => s.clip (p.coord i) (q.coord i) (bounds.lo.coord i) (bounds.hi.coord i)) s) := by
  induction axes generalizing s with
  | nil => exact .refl h
  | cons i axes ih =>
    have hclip := Span.clip_narrows h (p.coord i) (q.coord i) (bounds.lo.coord i) (bounds.hi.coord i)
    exact hclip.trans (ih hclip.numeric)

theorem span_narrows (bounds : Box κ) (p q : Point κ) : Span.whole.Narrows (bounds.span p q) :=
  foldl_clip_narrows Axis.all ⟨OrderedCoordinate.isNaN_zero, OrderedCoordinate.isNaN_one⟩

theorem enter_foldl_clip (axes : List Axis) (hin : bounds.contains p = true) (s : Span κ) : (axes.foldl
    (fun s i => s.clip (p.coord i) (q.coord i) (bounds.lo.coord i) (bounds.hi.coord i)) s).enter = s.enter := by
  induction axes generalizing s with
  | nil => rfl
  | cons i axes ih =>
    obtain ⟨hlo, hhi⟩ := contains_iff.1 hin i i.mem_all
    rw [List.foldl_cons, ih, Span.clip_between hlo hhi]

/-- A segment from inside a box enters it at its start. -/
theorem enter_span (hin : bounds.contains p = true) (q : Point κ) : (bounds.span p q).enter = zero :=
  enter_foldl_clip Axis.all hin Span.whole

/-- A clip keeps the ends of a span numbers and only narrows it. So a point is
moved to a parameter between 0 and 1 of its segment, or not at all, and from
inside the box the entry stays at 0. -/
theorem exitPoint_parameter (bounds : Box κ) (p q : Point κ) :
    (∀ (s : Span κ) (v₁ v₂ lo hi : κ), s.IsNumeric → s.Narrows (s.clip v₁ v₂ lo hi)) ∧
      (lt (bounds.span p q).exit (bounds.span p q).enter = true ∧ bounds.exitPoint p q = q ∨
        lt (bounds.span p q).exit (bounds.span p q).enter = false ∧
          bounds.exitPoint p q = along p q (bounds.span p q).exit ∧ isNaN (bounds.span p q).exit = false ∧
          le zero (bounds.span p q).exit = true ∧ le (bounds.span p q).exit one = true) ∧
      (bounds.contains p = true → (bounds.span p q).enter = zero) := by
  refine ⟨fun s v₁ v₂ lo hi h => Span.clip_narrows h v₁ v₂ lo hi, ?_, fun hin => enter_span hin q⟩
  have hspan := bounds.span_narrows p q
  unfold exitPoint
  cases hlt : lt (bounds.span p q).exit (bounds.span p q).enter with
  | true => exact .inl ⟨rfl, if_pos hlt⟩
  | false =>
    have hle := le_of_lt_eq_false hspan.numeric.enter hspan.numeric.exit hlt
    refine .inr ⟨rfl, if_neg (by simp [hlt]), hspan.numeric.exit, ?_, hspan.exit_le⟩
    exact OrderedCoordinate.trans hspan.le_enter hle

/-- A box that is inverted on one axis and has a bound on another that is not a
number. -/
def crooked : Box Float32 := ⟨⟨0, 2, 0 / 0⟩, ⟨1, -2, 5⟩⟩

/-- The quotients on the three axes are no number, two infinities and none. -/
theorem exitPoint_parameter_crooked :
    isNaN ((crooked.hi.x - negInf) / (5 - negInf)) = true ∧
      lt (crooked.span ⟨negInf, 0, 0⟩ ⟨5, 0, 0⟩).exit (crooked.span ⟨negInf, 0, 0⟩ ⟨5, 0, 0⟩).enter = false ∧
      isNaN (crooked.span ⟨negInf, 0, 0⟩ ⟨5, 0, 0⟩).exit = false ∧
      le zero (crooked.span ⟨negInf, 0, 0⟩ ⟨5, 0, 0⟩).exit = true ∧
      le (crooked.span ⟨negInf, 0, 0⟩ ⟨5, 0, 0⟩).exit one = true := by
  obtain ⟨-, ⟨hlt, -⟩ | ⟨hlt, -, hnumber, hzero, hone⟩, -⟩ :=
    exitPoint_parameter crooked ⟨negInf, 0, 0⟩ ⟨5, 0, 0⟩
  · have hmoved : lt (crooked.span ⟨negInf, 0, 0⟩ ⟨5, 0, 0⟩).exit (crooked.span ⟨negInf, 0, 0⟩ ⟨5, 0, 0⟩).enter =
        false := by decide +kernel
    rw [hlt] at hmoved
    cases hmoved
  · exact ⟨by decide +kernel, hlt, hnumber, hzero, hone⟩

end Box

end Wireframe
