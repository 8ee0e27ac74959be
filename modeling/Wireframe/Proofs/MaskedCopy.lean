import Wireframe.MaskedCopy
import Wireframe.Proofs.AttributeMatrix
/-!
# What masked copies leave behind

A masked copy that succeeds leaves the kept tuples of its source and nothing
of its destination, and it succeeds exactly when the two arrays and the mask
fit (`TypedArray.Fits`). A batch of copies that is neither cancelled nor fails
leaves every array of the source compacted by the mask, so the destination
only has its name and its size left from before.
-/

namespace Wireframe

variable {κ : Type}

/-- At some moment the flag is up. -/
def Schedule.Rises (s : Schedule) : Prop := ∃ reads delivered, s.raised reads delivered = true

theorem Schedule.not_rises_never : ¬Schedule.never.Rises := by
  rintro ⟨_, _, h⟩
  cases h

/-! ## One array -/

theorem TupleArray.copyMasked_eq_ok {α : Type} {name : String} {mask : Mask} {src dst r : TupleArray α} :
    src.copyMasked name mask dst = .ok r ↔
      (src.width = dst.width ∧ mask.length = src.size ∧ mask.kept = dst.size) ∧ r = src.select mask := by
  unfold copyMasked
  by_cases hw : src.width = dst.width
  case neg => simp [hw]
  by_cases hm : mask.length = src.size
  case neg => simp [hw, hm]
  by_cases hk : mask.kept = dst.size
  case neg => simp [hw, hm, hk]
  have hsel : mask.indices.map src.tuple? = (mask.select src.tuples).map some := by
    rw [Mask.map_some_select (by rw [length_tuples, hm])]
    simp only [getElem?_tuples]
  obtain ⟨d, hd, hdw, hdt⟩ := foldlM_copyTuple mask.indices _ hsel [] dst.tuples dst hw rfl
    (by rw [length_tuples, Mask.length_indices, hk])
  have hr : d = src.select mask := ext_tuples (hdw.trans hw.symm) (hdt.trans (tuples_select mask src).symm)
  rw [List.length_nil] at hd
  rw [if_neg (not_not.2 hw), if_neg (not_not.2 hm), if_neg (not_not.2 hk), hd, hr]
  simp [hw, hm, hk, eq_comm]

namespace TypedArray

/-- The kept tuples of `a` can take the place of the tuples of `b`. -/
structure Fits (mask : Mask) (a b : TypedArray κ) : Prop where
  type : a.type = b.type
  width : a.width = b.width
  length : mask.length = a.size
  kept : mask.kept = b.size

/-- The tuples that a mask keeps, in order. -/
def select (mask : Mask) (a : TypedArray κ) : TypedArray κ := ⟨a.type, a.array.select mask⟩

theorem fits_select {mask : Mask} {a : TypedArray κ} (h : mask.length = a.size) :
    a.Fits mask (a.select mask) where
  type := rfl
  width := rfl
  length := h
  kept := (TupleArray.size_select h).symm

theorem copyMasked_eq_ok {name : String} {mask : Mask} {src dst r : TypedArray κ} :
    src.copyMasked name mask dst = .ok r ↔ src.Fits mask dst ∧ r = src.select mask := by
  obtain ⟨t, x⟩ := src
  obtain ⟨u, y⟩ := dst
  unfold copyMasked as?
  by_cases h : t = u
  · subst h
    simp only [dite_true]
    constructor
    · intro hr
      cases hc : x.copyMasked name mask y with
      | error e => rw [hc] at hr; cases hr
      | ok z =>
        rw [hc] at hr
        cases hr
        obtain ⟨⟨hw, hm, hk⟩, rfl⟩ := TupleArray.copyMasked_eq_ok.1 hc
        exact ⟨⟨rfl, hw, hm, hk⟩, rfl⟩
    · rintro ⟨⟨-, hw, hm, hk⟩, rfl⟩
      rw [TupleArray.copyMasked_eq_ok.2 ⟨⟨hw, hm, hk⟩, rfl⟩]
      rfl
  · simp only [h, dite_false, reduceCtorEq, false_iff, not_and]
    intro hf
    exact absurd hf.type h

end TypedArray

namespace AttributeMatrix

/-! ## One array of a matrix -/

theorem get_eq_ok {m : AttributeMatrix κ} {name : String} {a : TypedArray κ} :
    m.get name = .ok a ↔ m.arrays.find? name = some a := by
  unfold get
  split <;> simp_all

theorem copyArray_eq_ok {mask : Mask} {src dst m : AttributeMatrix κ} {name : String} :
    copyArray mask src dst name = .ok m ↔ ∃ a b, src.arrays.find? name = some a ∧
      dst.arrays.find? name = some b ∧ a.Fits mask b ∧ m = dst.put name (a.select mask) := by
  constructor
  · intro h
    unfold copyArray at h
    cases ha : src.get name with
    | error e => rw [ha] at h; cases h
    | ok a =>
      cases hb : dst.get name with
      | error e => rw [ha, hb] at h; cases h
      | ok b =>
        cases hc : a.copyMasked name mask b with
        | error e => simp only [ha, hb, hc, bind, Except.bind] at h; cases h
        | ok c =>
          simp only [ha, hb, hc, bind, Except.bind] at h
          cases h
          obtain ⟨hf, rfl⟩ := TypedArray.copyMasked_eq_ok.1 hc
          exact ⟨a, b, get_eq_ok.1 ha, get_eq_ok.1 hb, hf, rfl⟩
  · rintro ⟨a, b, ha, hb, hf, rfl⟩
    simp only [copyArray, get_eq_ok.2 ha, get_eq_ok.2 hb,
      TypedArray.copyMasked_eq_ok.2 ⟨hf, rfl⟩, bind, Except.bind, pure, Except.pure]

/-! ## Batches -/

/-- Every named array of one matrix fits its namesake in another. -/
def Ready (mask : Mask) (src dst : AttributeMatrix κ) (names : List String) : Prop :=
  ∀ n ∈ names, ∃ a b, src.arrays.find? n = some a ∧ dst.arrays.find? n = some b ∧ a.Fits mask b

/-- A copy leaves the arrays that still wait for theirs ready. -/
theorem Ready.put {mask : Mask} {src dst : AttributeMatrix κ} {names : List String} {name : String}
    {a b : TypedArray κ} (h : Ready mask src dst names) (ha : src.arrays.find? name = some a)
    (hb : dst.arrays.find? name = some b) (hf : a.Fits mask b) :
    Ready mask src (dst.put name (a.select mask)) names := by
  intro n hn
  by_cases he : n = name
  · subst he
    exact ⟨a, _, ha, find?_put_self dst _ hb, TypedArray.fits_select hf.length⟩
  · rw [find?_put_of_ne dst _ he]
    exact h n hn

theorem Ready.tail {mask : Mask} {src dst : AttributeMatrix κ} {name : String} {names : List String}
    (h : Ready mask src dst (name :: names)) : Ready mask src dst names := fun n hn => h n (List.mem_cons_of_mem _ hn)

/-- The first copy of a batch whose arrays are ready succeeds and leaves the
others ready. -/
theorem Ready.copy_head {mask : Mask} {src dst : AttributeMatrix κ} {name : String} {names : List String}
    (h : Ready mask src dst (name :: names)) :
    ∃ m, copyArray mask src dst name = .ok m ∧ Ready mask src m names := by
  obtain ⟨a, b, ha, hb, hf⟩ := h name List.mem_cons_self
  exact ⟨_, copyArray_eq_ok.2 ⟨a, b, ha, hb, hf, rfl⟩, h.tail.put ha hb hf⟩

/-- Whatever becomes of a batch, the matrix keeps its name, its size and the
names of its arrays. -/
theorem copyArrays_frame (schedule : Schedule) (mask : Mask) (src : AttributeMatrix κ) (names : List String)
    (dst : AttributeMatrix κ) (p : Progress) :
    (copyArrays schedule mask src names dst p).2.1.name = dst.name ∧
      (copyArrays schedule mask src names dst p).2.1.size = dst.size ∧
      (copyArrays schedule mask src names dst p).2.1.names = dst.names := by
  induction names generalizing dst p with
  | nil => exact ⟨rfl, rfl, rfl⟩
  | cons n names ih =>
    rw [copyArrays]
    split
    · exact ih dst p.read
    · split
      next => exact ⟨rfl, rfl, rfl⟩
      next m hm =>
        obtain ⟨a, b, -, -, -, rfl⟩ := copyArray_eq_ok.1 hm
        obtain ⟨h₁, h₂, h₃⟩ := ih (dst.put n (a.select mask)) p.read
        exact ⟨h₁, h₂, h₃.trans (SortedMap.keys_modify _ _ _)⟩

/-- A batch whose arrays are ready does not fail, whenever the flag is up. -/
theorem copyArrays_of_ready {schedule : Schedule} {mask : Mask} {src : AttributeMatrix κ}
    (names : List String) (dst : AttributeMatrix κ) (p : Progress) (h : Ready mask src dst names) :
    ∃ b, (copyArrays schedule mask src names dst p).1 = .ok b := by
  induction names generalizing dst p with
  | nil => exact ⟨true, rfl⟩
  | cons n names ih =>
    rw [copyArrays]
    split
    · obtain ⟨b, hb⟩ := ih dst p.read h.tail
      exact ⟨false, by simp only [hb]; rfl⟩
    · obtain ⟨m, hm, hrest⟩ := h.copy_head
      rw [hm]
      exact ih m p.read hrest

/-- A batch that copies every array found all of them ready and compacts them. -/
theorem copyArrays_complete {schedule : Schedule} {mask : Mask} {src : AttributeMatrix κ}
    (names : List String) (dst : AttributeMatrix κ) (p : Progress)
    (h : (copyArrays schedule mask src names dst p).1 = .ok true) :
    Ready mask src dst names ∧ ∀ n,
      (copyArrays schedule mask src names dst p).2.1.arrays.find? n =
        if n ∈ names then (src.arrays.find? n).map (·.select mask) else dst.arrays.find? n := by
  induction names generalizing dst p with
  | nil => exact ⟨fun n hn => (List.not_mem_nil hn).elim, fun n => rfl⟩
  | cons n names ih =>
    rw [copyArrays] at h ⊢
    split at h
    next =>
      -- a skipped copy never makes a complete batch
      cases hr : (copyArrays schedule mask src names dst p.read).1 <;> simp [hr, Except.map] at h
    next hflag =>
      rw [if_neg hflag]
      cases hc : copyArray mask src dst n with
      | error e => rw [hc] at h; cases h
      | ok m =>
        rw [hc] at h
        obtain ⟨a, b, ha, hb, hf, rfl⟩ := copyArray_eq_ok.1 hc
        obtain ⟨hready, hfind⟩ := ih _ p.read h
        refine ⟨?_, fun k => ?_⟩
        · intro k hk
          by_cases he : k = n
          · subst he
            exact ⟨a, b, ha, hb, hf⟩
          · rw [← find?_put_of_ne dst (a.select mask) he]
            exact hready k ((List.mem_cons.1 hk).resolve_left he)
        · simp only [hfind k, List.mem_cons]
          by_cases he : k = n
          · subst he
            simp [ha, find?_put_self dst _ hb]
          · simp [he, find?_put_of_ne dst _ he]

/-- A batch is only cut short where the flag goes up. -/
theorem copyArrays_cancelled {schedule : Schedule} {mask : Mask} {src : AttributeMatrix κ} (names : List String)
    (dst : AttributeMatrix κ) (p : Progress) (h : (copyArrays schedule mask src names dst p).1 = .ok false) :
    schedule.Rises := by
  induction names generalizing dst p with
  | nil => cases h
  | cons n names ih =>
    rw [copyArrays] at h
    split at h
    next hflag => exact ⟨_, _, hflag⟩
    next =>
      split at h
      next => cases h
      next => exact ih _ _ h

/-! ## The names to copy -/

theorem contains_eq_true {m : AttributeMatrix κ} {n : String} :
    m.arrays.contains n = true ↔ n ∈ m.names := SortedMap.contains_iff

/-- The first of some names that a matrix does not have. -/
theorem find?_missing {m : AttributeMatrix κ} {names : List String} {k : String}
    (h : (names.find? fun n => !m.arrays.contains n) = some k) :
    ∃ before after, names = before ++ k :: after ∧ (∀ n ∈ before, n ∈ m.names) ∧ k ∉ m.names := by
  obtain ⟨hk, before, after, hnames, hbefore⟩ := List.find?_eq_some_iff_append.1 h
  refine ⟨before, after, hnames, fun n hn => ?_, fun hmem => ?_⟩
  · rw [← contains_eq_true]
    simpa using hbefore n hn
  · rw [contains_eq_true.2 hmem] at hk
    cases hk

theorem find?_missing_eq_none {m : AttributeMatrix κ} {names : List String} :
    (names.find? fun n => !m.arrays.contains n) = none ↔ ∀ n ∈ names, n ∈ m.names := by
  simp [List.find?_eq_none, contains_eq_true]

/-- The names are settled exactly when both matrices have the same. -/
theorem copyNames_eq_ok {src dst : AttributeMatrix κ} {names : List String} :
    src.copyNames dst = .ok names ↔ src.names = dst.names ∧ names = dst.names := by
  unfold copyNames
  split
  next k hk =>
    obtain ⟨before, after, hnames, -, hno⟩ := find?_missing hk
    simp only [reduceCtorEq, false_iff, not_and]
    intro he
    exact absurd (he ▸ hnames ▸ List.mem_append_right before List.mem_cons_self) hno
  next hsub =>
    split
    next k hk =>
      obtain ⟨before, after, hnames, -, hno⟩ := find?_missing hk
      simp only [reduceCtorEq, false_iff, not_and]
      intro he
      exact absurd (he ▸ hnames ▸ List.mem_append_right before List.mem_cons_self) hno
    next hsup =>
      have heq : src.names = dst.names := SortedMap.keys_eq_iff.2 fun n =>
        ⟨find?_missing_eq_none.1 hsub n, find?_missing_eq_none.1 hsup n⟩
      simp [heq, eq_comm]

/-! ## Whole matrices -/

/-- Both matrices hold the same names and every array fits its namesake. -/
structure Copyable (mask : Mask) (src dst : AttributeMatrix κ) : Prop where
  names : src.names = dst.names
  ready : Ready mask src dst dst.names

theorem mem_names {m : AttributeMatrix κ} {n : String} : n ∈ m.names ↔ ∃ a, m.arrays.find? n = some a :=
  SortedMap.mem_keys

/-- A matrix resized to the kept elements can take the arrays of another
exactly when it has the same layout and the mask is as long as those arrays. -/
theorem copyable_resized_iff [Coordinate κ] {mask : Mask} {src dst : AttributeMatrix κ} :
    Copyable mask src (dst.resized mask.kept) ↔ src.layout = dst.layout ∧ src.InStep mask.length := by
  constructor
  · rintro ⟨hn, hr⟩
    rw [names_resized] at hn hr
    refine ⟨layout_eq_iff.2 fun k => ?_, fun k a ha => ?_⟩
    · by_cases hk : k ∈ dst.names
      · obtain ⟨a, b, ha, hb, hf⟩ := hr k hk
        obtain ⟨c, hc, rfl⟩ := Option.map_eq_some_iff.1 (find?_resized dst _ k ▸ hb)
        rw [ha, hc]
        exact congrArg some (Prod.ext hf.type hf.width)
      · have hks : k ∉ src.names := hn ▸ hk
        rw [SortedMap.find?_eq_none.2 hk, SortedMap.find?_eq_none.2 hks]
    · obtain ⟨a', b, ha', -, hf⟩ := hr k (hn ▸ mem_names.2 ⟨a, ha⟩)
      rw [ha, Option.some.injEq] at ha'
      rw [ha', hf.length]
  · rintro ⟨hl, hs⟩
    have hn := names_of_layout hl
    refine ⟨by rw [names_resized, hn], fun k hk => ?_⟩
    rw [names_resized, ← hn] at hk
    obtain ⟨a, ha⟩ := mem_names.1 hk
    have hshape := layout_eq_iff.1 hl k
    rw [ha, Option.map_some] at hshape
    obtain ⟨b, hb, hab⟩ := Option.map_eq_some_iff.1 hshape.symm
    refine ⟨a, b.resized mask.kept, ha, by rw [find?_resized, hb, Option.map_some], ?_⟩
    exact ⟨(congrArg Prod.fst hab).symm, (congrArg Prod.snd hab).symm, (hs k a ha).symm,
      (size_resized b _).symm⟩

/-- The arrays that a mask leaves of a matrix, under another name. -/
def compact (mask : Mask) (name : String) (m : AttributeMatrix κ) : AttributeMatrix κ :=
  ⟨name, mask.kept, m.arrays.mapValues (·.select mask)⟩

theorem find?_compact (mask : Mask) (name : String) (m : AttributeMatrix κ) (k : String) :
    (m.compact mask name).arrays.find? k = (m.arrays.find? k).map (·.select mask) :=
  SortedMap.find?_mapValues _ _ k

@[simp]
theorem names_compact (mask : Mask) (name : String) (m : AttributeMatrix κ) :
    (m.compact mask name).names = m.names :=
  SortedMap.keys_mapValues _ _

theorem inStep_compact {mask : Mask} {name : String} {m n : AttributeMatrix κ} (h : Copyable mask m n) :
    (m.compact mask name).InStep mask.kept := by
  intro k b hb
  rw [find?_compact] at hb
  obtain ⟨a, ha, rfl⟩ := Option.map_eq_some_iff.1 hb
  obtain ⟨a', c, ha', -, hf⟩ := h.ready k (h.names ▸ mem_names.2 ⟨a, ha⟩)
  rw [ha, Option.some.injEq] at ha'
  exact (TypedArray.fits_select (ha' ▸ hf.length)).kept.symm

/-- A batch over all names of a matrix that copies every array leaves nothing
else there. -/
theorem copyArrays_names {schedule : Schedule} {mask : Mask} {src dst : AttributeMatrix κ} {p : Progress}
    (hn : src.names = dst.names) (hsize : dst.size = mask.kept)
    (h : (copyArrays schedule mask src dst.names dst p).1 = .ok true) :
    Copyable mask src dst ∧
      (copyArrays schedule mask src dst.names dst p).2.1 = src.compact mask dst.name := by
  obtain ⟨hr, hfind⟩ := copyArrays_complete _ _ _ h
  obtain ⟨hname, hs, -⟩ := copyArrays_frame schedule mask src dst.names dst p
  refine ⟨⟨hn, hr⟩, AttributeMatrix.ext hname (hs.trans hsize) (SortedMap.ext_find? fun k => ?_)⟩
  rw [hfind, find?_compact]
  split
  next => rfl
  next hk =>
    have hks : k ∉ src.names := hn ▸ hk
    rw [SortedMap.find?_eq_none.2 hk, SortedMap.find?_eq_none.2 hks, Option.map_none]

/-- How the copies of a whole matrix may end. -/
inductive CopyEnds (schedule : Schedule) (mask : Mask) (src dst : AttributeMatrix κ) :
    Except Error Bool × AttributeMatrix κ × Progress → Prop
  | refused {e : Error} {m : AttributeMatrix κ} {p : Progress} (hc : ¬Copyable mask src dst)
      (hm : m.name = dst.name ∧ m.size = dst.size) : CopyEnds schedule mask src dst (.error e, m, p)
  | cancelled {m : AttributeMatrix κ} {p : Progress} (hr : schedule.Rises)
      (hm : m.name = dst.name ∧ m.size = dst.size) : CopyEnds schedule mask src dst (.ok false, m, p)
  | complete {p : Progress} (hc : Copyable mask src dst) :
      CopyEnds schedule mask src dst (.ok true, src.compact mask dst.name, p)

theorem copyArrays_ends {mask : Mask} {src dst : AttributeMatrix κ} (schedule : Schedule) (p : Progress)
    (hn : src.names = dst.names) (hsize : dst.size = mask.kept) :
    CopyEnds schedule mask src dst (copyArrays schedule mask src dst.names dst p) := by
  obtain ⟨hname, hs, -⟩ := copyArrays_frame schedule mask src dst.names dst p
  rcases hr : copyArrays schedule mask src dst.names dst p with ⟨result, m, q⟩
  have hfst := congrArg Prod.fst hr
  rw [hr] at hname hs
  cases result with
  | error e =>
    refine .refused (fun hc => ?_) ⟨hname, hs⟩
    obtain ⟨b, hb⟩ := copyArrays_of_ready dst.names dst p hc.ready
    cases hfst.symm.trans hb
  | ok b =>
    cases b with
    | false => exact .cancelled (copyArrays_cancelled _ _ _ hfst) ⟨hname, hs⟩
    | true =>
      obtain ⟨hc, hm⟩ := copyArrays_names hn hsize hfst
      rw [hr] at hm
      dsimp only at hm
      exact hm ▸ .complete hc

end AttributeMatrix

end Wireframe
