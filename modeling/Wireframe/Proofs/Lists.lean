import Mathlib.Data.List.Forall2
import Mathlib.Data.List.Sort
/-!
# Lists under functions that may fail

What a list operation with a partial function yields is described by places:
where the function has a value everywhere, the results stand where their
arguments stood.
-/

namespace Wireframe

variable {α β ε : Type}

theorem getElem?_of_map_some {f : α → Option β} {l : List α} {r : List β}
    (h : r.map some = l.map f) (i : Nat) : r[i]? = l[i]?.bind f := by
  have hi := congrArg (·[i]?) h
  simp only [List.getElem?_map] at hi
  cases hl : l[i]? with
  | none =>
    rw [hl] at hi
    simpa using hi
  | some x =>
    rw [hl] at hi
    cases hr : r[i]? with
    | none => rw [hr] at hi; simp at hi
    | some y =>
      rw [hr] at hi
      simpa using hi

theorem exists_of_map_some {f : α → Option β} {l : List α} {r : List β} (h : r.map some = l.map f) {i : Nat} {x : α}
    (hi : l[i]? = some x) : ∃ y, f x = some y ∧ r[i]? = some y := by
  have hx : (r.map some)[i]? = some (f x) := by rw [h, List.getElem?_map, hi, Option.map_some]
  rw [List.getElem?_map, Option.map_eq_some_iff] at hx
  obtain ⟨y, hy, hf⟩ := hx
  exact ⟨y, hf.symm, hy⟩

theorem length_of_map_some {f : α → Option β} {l : List α} {r : List β} (h : r.map some = l.map f) :
    r.length = l.length := by
  have hlen := congrArg List.length h
  rwa [List.length_map, List.length_map] at hlen

/-- What stands in a list once stands at one place. -/
theorem eq_of_getElem?_eq_some {l : List α} (hl : l.Nodup) {i j : Nat} {x : α} (hi : l[i]? = some x)
    (hj : l[j]? = some x) : i = j :=
  (List.getElem?_inj (List.getElem?_eq_some_iff.1 hi).1 hl).1 (hi.trans hj.symm)

/-- A function that can be undone has its arguments read off its values. -/
theorem eq_map_of_map_some {f : α → Option β} {g : β → α} {l : List α} {r : List β} (h : r.map some = l.map f)
    (hg : ∀ x y, f x = some y → x = g y) : l = r.map g := by
  induction l generalizing r with
  | nil =>
    obtain rfl : r = [] := by simpa using h
    rfl
  | cons x l ih =>
    cases r with
    | nil => simp at h
    | cons y r =>
      simp only [List.map_cons, List.cons.injEq] at h
      rw [List.map_cons, ← hg x y h.1.symm, ← ih h.2]

/-- Where every element has a value, `filterMap` keeps the places. -/
theorem map_some_filterMap {f : α → Option β} {l : List α} (h : ∀ x ∈ l, (f x).isSome) :
    (l.filterMap f).map some = l.map f := by
  induction l with
  | nil => rfl
  | cons x l ih =>
    obtain ⟨y, hy⟩ := Option.isSome_iff_exists.1 (h x List.mem_cons_self)
    rw [List.filterMap_cons_some hy, List.map_cons, List.map_cons, hy,
      ih fun z hz => h z (List.mem_cons_of_mem _ hz)]

/-- Places in an ascending list, in ascending order, hold the elements that
they lead to in ascending order. -/
theorem pairwise_filterMap_getElem? {js vs : List Nat} (hj : js.Pairwise (· < ·)) (hv : vs.Pairwise (· < ·)) :
    (js.filterMap (vs[·]?)).Pairwise (· < ·) := by
  rw [List.pairwise_filterMap]
  refine hj.imp fun {i j} hij v hi w hw => ?_
  obtain ⟨hi', rfl⟩ := List.getElem?_eq_some_iff.1 hi
  obtain ⟨hj', rfl⟩ := List.getElem?_eq_some_iff.1 hw
  exact List.pairwise_iff_getElem.1 hv i j hi' hj' hij

/-- An ascending list is read off another through ascending places, if these
lead to its elements and to no others. -/
theorem map_some_of_mem {js vs ws : List Nat} (hj : js.Pairwise (· < ·)) (hv : vs.Pairwise (· < ·))
    (hw : ws.Pairwise (· < ·)) (hlt : ∀ j ∈ js, j < vs.length)
    (hmem : ∀ w, w ∈ ws ↔ ∃ j ∈ js, vs[j]? = some w) : ws.map some = js.map (vs[·]?) := by
  have hsome : ∀ j ∈ js, (vs[j]?).isSome := fun j h => by
    rw [List.getElem?_eq_getElem (hlt j h)]
    rfl
  -- both lists ascend, so they are equal if they have the same members
  have he : ws = js.filterMap (vs[·]?) :=
    hw.eq_of_mem_iff (pairwise_filterMap_getElem? hj hv) fun w => by rw [hmem, List.mem_filterMap]
  rw [he, map_some_filterMap hsome]

/-- The places at which a list has the elements of another. -/
def places (vs ws : List Nat) : List Nat := (List.range vs.length).filter fun i => (vs[i]?).any (· ∈ ws)

section Places
variable {vs ws : List Nat}

theorem mem_places {i : Nat} : i ∈ places vs ws ↔ ∃ w ∈ ws, vs[i]? = some w := by
  rw [places, List.mem_filter, List.mem_range, Option.any_eq_true]
  constructor
  · rintro ⟨-, w, hi, hw⟩
    exact ⟨w, of_decide_eq_true hw, hi⟩
  · rintro ⟨w, hw, hi⟩
    exact ⟨(List.getElem?_eq_some_iff.1 hi).1, w, hi, decide_eq_true hw⟩

theorem places_sorted : (places vs ws).Pairwise (· < ·) :=
  List.pairwise_lt_range.filter _

/-- An ascending list is read off another that has its elements, at their
places. -/
theorem map_some_places (hv : vs.Pairwise (· < ·)) (hw : ws.Pairwise (· < ·)) (hsub : ∀ w ∈ ws, w ∈ vs) :
    ws.map some = (places vs ws).map (vs[·]?) := by
  refine map_some_of_mem places_sorted hv hw (fun i hi => ?_) fun w => ?_
  · obtain ⟨w, -, hw⟩ := mem_places.1 hi
    exact (List.getElem?_eq_some_iff.1 hw).1
  · constructor
    · intro h
      obtain ⟨i, hi⟩ := List.mem_iff_getElem?.1 (hsub w h)
      exact ⟨i, mem_places.2 ⟨w, h, hi⟩, hi⟩
    · rintro ⟨i, hi, hw⟩
      obtain ⟨w', hw', hi'⟩ := mem_places.1 hi
      rw [hw, Option.some.injEq] at hi'
      exact hi' ▸ hw'

end Places

/-- A pass over a list succeeds exactly when it succeeds on every element. -/
theorem mapM_eq_ok {f : α → Except ε β} {l : List α} {r : List β} :
    l.mapM f = .ok r ↔ List.Forall₂ (fun x y => f x = .ok y) l r := by
  induction l generalizing r with
  | nil =>
    rw [List.mapM_nil, List.forall₂_nil_left_iff]
    exact ⟨fun h => by cases h; rfl, fun h => by rw [h]; rfl⟩
  | cons x l ih =>
    rw [List.mapM_cons, List.forall₂_cons_left_iff]
    constructor
    · intro h
      cases hx : f x with
      | error e => rw [hx] at h; cases h
      | ok y =>
        cases hl : l.mapM f with
        | error e => simp only [hx, hl, bind, Except.bind] at h; cases h
        | ok ys =>
          simp only [hx, hl, bind, Except.bind] at h
          cases h
          exact ⟨y, ys, rfl, ih.1 hl, rfl⟩
    · rintro ⟨y, ys, hx, hl, rfl⟩
      rw [hx, ih.2 hl]
      rfl

/-- A pass over a list fails as it does on the first element on which it fails. -/
theorem mapM_eq_error {f : α → Except ε β} {l : List α} {e : ε} :
    l.mapM f = .error e ↔
      ∃ front x back, l = front ++ x :: back ∧ (∀ y ∈ front, ∃ z, f y = .ok z) ∧ f x = .error e := by
  constructor
  · intro h
    induction l with
    | nil => cases h
    | cons x l ih =>
      rw [List.mapM_cons] at h
      cases hx : f x with
      | error e' =>
        rw [hx] at h
        cases h
        exact ⟨[], x, l, rfl, by simp, hx⟩
      | ok y =>
        cases hl : l.mapM f with
        | error e' =>
          simp only [hx, hl, bind, Except.bind] at h
          cases h
          obtain ⟨front, z, back, rfl, hfront, hz⟩ := ih hl
          exact ⟨x :: front, z, back, rfl, List.forall_mem_cons.2 ⟨⟨y, hx⟩, hfront⟩, hz⟩
        | ok ys =>
          simp only [hx, hl, bind, Except.bind] at h
          cases h
  · rintro ⟨front, x, back, rfl, hfront, hx⟩
    induction front with
    | nil =>
      rw [List.nil_append, List.mapM_cons, hx]
      rfl
    | cons y front ih =>
      obtain ⟨⟨z, hz⟩, hfront⟩ := List.forall_mem_cons.1 hfront
      rw [List.cons_append, List.mapM_cons, hz]
      simp only [bind, Except.bind, ih hfront]

/-- The first element of its kind in a numbered list, said by its number. -/
theorem zipIdx_split_iff {P Q : α × Nat → Prop} {l : List α} :
    (∃ front x back, l.zipIdx = front ++ x :: back ∧ (∀ y ∈ front, P y) ∧ Q x) ↔
      ∃ i x, l[i]? = some x ∧ Q (x, i) ∧ ∀ j < i, ∀ y, l[j]? = some y → P (y, j) := by
  have hat : ∀ (i : Nat) x, l[i]? = some x → l.zipIdx[i]? = some (x, i) := fun i x h => by
    rw [List.getElem?_zipIdx, h, Option.map_some, Nat.zero_add]
  constructor
  · rintro ⟨front, x, back, hl, hfront, hx⟩
    have hi : l.zipIdx[front.length]? = some x := by
      rw [hl, List.getElem?_append_right (Nat.le_refl _), Nat.sub_self, List.getElem?_cons_zero]
    rw [List.getElem?_zipIdx, Option.map_eq_some_iff, Nat.zero_add] at hi
    obtain ⟨a, ha, rfl⟩ := hi
    refine ⟨front.length, a, ha, hx, fun j hj y hy => hfront _ (List.mem_of_getElem? (i := j) ?_)⟩
    have hy := hat j y hy
    rwa [hl, List.getElem?_append_left hj] at hy
  · rintro ⟨i, x, hi, hx, hbefore⟩
    obtain ⟨hlt, he⟩ := List.getElem?_eq_some_iff.1 (hat i x hi)
    refine ⟨l.zipIdx.take i, (x, i), l.zipIdx.drop (i + 1), ?_, fun y hy => ?_, hx⟩
    · rw [← he, List.getElem_cons_drop, List.take_append_drop]
    · obtain ⟨j, hj⟩ := List.mem_iff_getElem?.1 hy
      rw [List.getElem?_take] at hj
      split at hj
      next hji =>
        rw [List.getElem?_zipIdx, Option.map_eq_some_iff, Nat.zero_add] at hj
        obtain ⟨a, ha, rfl⟩ := hj
        exact hbefore j hji a ha
      next => cases hj

theorem mapM_eq_some {f : α → Option β} {l : List α} {r : List β} : l.mapM f = some r ↔ r.map some = l.map f := by
  induction l generalizing r with
  | nil => rw [List.mapM_nil, List.map_nil, List.map_eq_nil_iff, Option.pure_def, Option.some.injEq, eq_comm]
  | cons x l ih =>
    rw [List.mapM_cons, List.map_cons, List.map_eq_cons_iff]
    simp only [← ih, Option.bind_eq_bind, Option.bind_eq_some_iff, Option.pure_def, Option.some.injEq]
    constructor
    · rintro ⟨y, hy, ys, hys, rfl⟩
      exact ⟨y, ys, rfl, hy.symm, hys⟩
    · rintro ⟨y, ys, rfl, hy, hys⟩
      exact ⟨y, hy.symm, ys, hys, rfl⟩

theorem exists_mapM_ok {f : α → Except ε β} {l : List α} (h : ∀ x ∈ l, ∃ y, f x = .ok y) :
    ∃ r, l.mapM f = .ok r := by
  induction l with
  | nil => exact ⟨[], rfl⟩
  | cons x l ih =>
    obtain ⟨y, hy⟩ := h x List.mem_cons_self
    obtain ⟨r, hr⟩ := ih fun z hz => h z (List.mem_cons_of_mem _ hz)
    exact ⟨y :: r, mapM_eq_ok.2 (.cons hy (mapM_eq_ok.1 hr))⟩

theorem getElem?_of_forall₂ {R : α → β → Prop} {l : List α} {r : List β} (h : List.Forall₂ R l r) {i : Nat}
    {x : α} (hx : l[i]? = some x) : ∃ y, r[i]? = some y ∧ R x y := by
  induction h generalizing i with
  | nil => simp at hx
  | cons hxy _ ih =>
    cases i with
    | zero =>
      rw [List.getElem?_cons_zero, Option.some.injEq] at hx
      exact ⟨_, rfl, hx ▸ hxy⟩
    | succ i => exact ih hx

theorem exists_right_of_forall₂ {R : α → β → Prop} {l : List α} {r : List β} (h : List.Forall₂ R l r) {x : α}
    (hx : x ∈ l) : ∃ y ∈ r, R x y := by
  obtain ⟨i, hi⟩ := List.mem_iff_getElem?.1 hx
  obtain ⟨y, hy, hxy⟩ := getElem?_of_forall₂ h hi
  exact ⟨y, List.mem_of_getElem? hy, hxy⟩

theorem exists_left_of_forall₂ {R : α → β → Prop} {l : List α} {r : List β} (h : List.Forall₂ R l r) {y : β}
    (hy : y ∈ r) : ∃ x ∈ l, R x y :=
  exists_right_of_forall₂ (R := flip R) (.flip h) hy

/-- What both sides of a relation agree on is the same for related lists. -/
theorem map_eq_of_forall₂ {γ : Type} {R : α → β → Prop} {f : α → γ} {g : β → γ} {l : List α} {r : List β}
    (h : List.Forall₂ R l r) (hR : ∀ x y, R x y → f x = g y) : l.map f = r.map g := by
  induction h with
  | nil => rfl
  | cons hxy _ ih => rw [List.map_cons, List.map_cons, hR _ _ hxy, ih]

end Wireframe
