import Wireframe.Crop.Parameters
import Wireframe.Proofs.PathText
import Wireframe.Proofs.SpaceJson
/-!
# Parameters that are read back

`CropParameters.Holds` says which JSON values hold which parameters, field by
field: two lists of names that make paths, two lists of three numbers, flags
and the number of a policy, of which flags and number may be missing. No field
may be there twice. Reading finds what a value holds and refuses every other
value.

What is written for parameters holds them again, as long as their coordinates
are finite. So nothing is lost on the way, and nothing that is no path or no
policy comes in.
-/

namespace Wireframe

variable {κ : Type}

/-! ## Records -/

namespace Json

/-- What a record has under one of its names: an object has it there, a list in
the place of the name. -/
def field? (names : List String) (name : String) : Json κ → Option (Json κ)
  | object fields => (fields.find? fun f => f.1 == name).map (·.2)
  | list items => items[names.idxOf name]?
  | _ => none

/-- An object that repeats none of the names, or a list with no more items than
there are names. -/
def IsRecord (names : List String) : Json κ → Prop
  | object fields => NoneTwice names fields
  | list items => items.length ≤ names.length
  | _ => False

theorem record?_eq_some {names : List String} (hn : names.Nodup) {j : Json κ} {row : List (Option (Json κ))} :
    j.record? names = some row ↔ j.IsRecord names ∧ names.map (fun name => j.field? names name) = row := by
  cases j with
  | object fields =>
    simp only [record?, IsRecord, field?, Option.ite_none_right_eq_some, Option.some.injEq]
  | list items =>
    have hread : (list items).record? names =
        if items.length ≤ names.length then some (names.map fun name => items[names.idxOf name]?) else none := by
      refine congrArg (fun row => if items.length ≤ names.length then some row else none) ?_
      apply List.ext_getElem (by simp)
      intro i _ hi
      rw [List.length_map] at hi
      simp [List.getElem_zipIdx, hn.idxOf_getElem i hi]
    rw [hread, Option.ite_none_right_eq_some, Option.some.injEq]
    rfl
  | _ => simp [record?, IsRecord]

/-- In an object that repeats none of the names, whatever stands under one of
them is what the record has there. -/
theorem field?_of_mem {names : List String} {fields : List (String × Json κ)} (h : NoneTwice names fields)
    {name : String} (hname : name ∈ names) {j : Json κ} (hj : (name, j) ∈ fields) :
    (object fields).field? names name = some j := by
  have hone : (fields.map (·.1)).count name ≤ 1 := h name hname
  clear h
  show (fields.find? fun f => f.1 == name).map (·.2) = some j
  induction fields with
  | nil => cases hj
  | cons f rest ih =>
    rw [List.map_cons, List.count_cons] at hone
    by_cases hf : f.1 = name
    · -- a second field of the name would be one too many
      have hrest : (name, j) ∉ rest := fun hmem => by
        have hpos : 0 < (rest.map (·.1)).count name := List.count_pos_iff.2 (List.mem_map_of_mem hmem)
        rw [if_pos (beq_iff_eq.2 hf)] at hone
        omega
      obtain rfl : (name, j) = f := (List.mem_cons.1 hj).resolve_right hrest
      rw [List.find?_cons_of_pos (by simp), Option.map_some]
    · have hmem : (name, j) ∈ rest := (List.mem_cons.1 hj).resolve_left fun he => hf (he ▸ rfl)
      rw [List.find?_cons_of_neg (by simpa using hf)]
      exact ih hmem (Nat.le_of_add_right_le hone)

end Json

/-! ## Policies and their numbers -/

namespace BoundaryPolicy

theorem getElem?_all_index (policy : BoundaryPolicy) : all[policy.index]? = some policy := by
  cases policy <;> rfl

theorem toOption_ofIndex {i : Nat} {policy : BoundaryPolicy} :
    (ofIndex i).toOption = some policy ↔ all[i]? = some policy := by
  unfold ofIndex all
  rcases i with _ | _ | _ | i <;> simp [Except.toOption]

end BoundaryPolicy

namespace CropParameters

/-! ## What a value holds -/

/-- The field of a name in a value that holds parameters. -/
def field? (j : Json κ) (name : String) : Option (Json κ) := j.field? fieldNames name

/-- A flag, which is down if it is missing. -/
def IsFlag (field : Option (Json κ)) (b : Bool) : Prop := field = some (.bool b) ∨ field = none ∧ b = false

/-- The number of a policy, which is the first if it is missing. -/
def IsPolicy (field : Option (Json κ)) (policy : BoundaryPolicy) : Prop :=
  (∃ i : UInt64, field = some (.unsigned i) ∧ BoundaryPolicy.all[i.toNat]? = some policy) ∨
    field = none ∧ policy = .interpolate

theorem optional_bool? {field : Option (Json κ)} {b : Bool} :
    optional Json.bool? false field = some b ↔ IsFlag field b := by
  cases field with
  | none => simp [optional, IsFlag, eq_comm]
  | some j => simp [optional, IsFlag, Json.bool?_eq_some]

theorem optional_policyOfJson? {field : Option (Json κ)} {policy : BoundaryPolicy} :
    optional policyOfJson? default field = some policy ↔ IsPolicy field policy := by
  cases field with
  | none => simp [optional, IsPolicy, eq_comm, default]
  | some j =>
    simp [optional, policyOfJson?, IsPolicy, Option.bind_eq_some_iff, Json.nat?_eq_some,
      BoundaryPolicy.toOption_ofIndex]

theorem isFlag_bool {b c : Bool} : IsFlag (some (.bool b : Json κ)) c ↔ b = c := by
  simp [IsFlag]

theorem isPolicy_index {policy other : BoundaryPolicy} :
    IsPolicy (some (.unsigned (.ofNat policy.index) : Json κ)) other ↔ policy = other := by
  have hindex : (UInt64.ofNat policy.index).toNat = policy.index := by cases policy <;> rfl
  simp [IsPolicy, hindex, policy.getElem?_all_index]

variable [Coordinate κ]

/-- The three coordinates of a point. -/
def IsPoint (field : Option (Json κ)) (p : Point κ) : Prop :=
  ∃ x y z, field = some (.list [x, y, z]) ∧ x.coordinate? = some p.x ∧ y.coordinate? = some p.y ∧
    z.coordinate? = some p.z

theorem isPoint_iff {field : Option (Json κ)} {p : Point κ} :
    IsPoint field p ↔ ∃ j, field = some j ∧ Point.ofJson? j = some p := by
  simp only [IsPoint, Point.ofJson?_eq_some]
  constructor
  · rintro ⟨x, y, z, rfl, h⟩
    exact ⟨_, rfl, x, y, z, rfl, h⟩
  · rintro ⟨_, rfl, x, y, z, rfl, h⟩
    exact ⟨x, y, z, rfl, h⟩

theorem isPoint_toJson {p q : Point κ} : IsPoint (some p.toJson) q ↔ p = q ∧ p.IsFinite := by
  rw [isPoint_iff, ← Point.ofJson?_toJson]
  simp

/-- The value holds these parameters. -/
structure Holds (j : Json κ) (v : CropParameters κ) : Prop where
  record : j.IsRecord fieldNames
  source : field? j "source_geometry_path" = some v.source.toJson
  created : field? j "created_geometry_path" = some v.created.toJson
  lo : IsPoint (field? j "min_coords") v.lo
  hi : IsPoint (field? j "max_coords") v.hi
  inPlace : IsFlag (field? j "remove_original_geometry") v.inPlace
  cropX : IsFlag (field? j "crop_x_dim") v.cropX
  cropY : IsFlag (field? j "crop_y_dim") v.cropY
  cropZ : IsFlag (field? j "crop_z_dim") v.cropZ
  policy : IsPolicy (field? j "boundary_intersection_behavior") v.policy

/-! ## Reading -/

omit [Coordinate κ] in
theorem record?_eq_some {j : Json κ} {row : List (Option (Json κ))} :
    j.record? fieldNames = some row ↔ j.IsRecord fieldNames ∧
      [field? j "source_geometry_path", field? j "created_geometry_path", field? j "min_coords",
        field? j "max_coords", field? j "remove_original_geometry", field? j "crop_x_dim", field? j "crop_y_dim",
        field? j "crop_z_dim", field? j "boundary_intersection_behavior"] = row :=
  Json.record?_eq_some (by decide)

/-- Reading finds the parameters that a value holds. -/
theorem ofJson?_eq_some {j : Json κ} {v : CropParameters κ} : ofJson? j = some v ↔ Holds j v := by
  unfold ofJson?
  constructor
  · intro h
    obtain ⟨row, hrow, h⟩ := Option.bind_eq_some_iff.1 h
    obtain ⟨hrec, rfl⟩ := record?_eq_some.1 hrow
    split at h
    next source created lo hi _ _ _ _ _ hfields =>
      simp only [List.cons.injEq, and_true] at hfields
      obtain ⟨hsource, hcreated, hlo, hhi, rfl, rfl, rfl, rfl, rfl⟩ := hfields
      simp only [Option.bind_eq_bind, Option.bind_eq_some_iff, Option.pure_def, Option.some.injEq,
        Path.ofJson?_eq_some, optional_bool?, optional_policyOfJson?] at h
      obtain ⟨_, rfl, _, rfl, p, hp, q, hq, _, hinPlace, _, hx, _, hy, _, hz, _, hpolicy, rfl⟩ := h
      exact {
        record := hrec
        source := hsource
        created := hcreated
        lo := isPoint_iff.2 ⟨lo, hlo, hp⟩
        hi := isPoint_iff.2 ⟨hi, hhi, hq⟩
        inPlace := hinPlace
        cropX := hx
        cropY := hy
        cropZ := hz
        policy := hpolicy }
    next => cases h
  · intro h
    obtain ⟨lo, hlo, hp⟩ := isPoint_iff.1 h.lo
    obtain ⟨hi, hhi, hq⟩ := isPoint_iff.1 h.hi
    have hread : ∀ p : Path, Path.ofJson? (p.toJson : Json κ) = some p := fun p => Path.ofJson?_eq_some.2 rfl
    rw [record?_eq_some.2 ⟨h.record, rfl⟩, h.source, h.created, hlo, hhi]
    simp only [Option.bind_eq_bind, Option.bind_some, hread, hp, hq, optional_bool?.2 h.inPlace,
      optional_bool?.2 h.cropX, optional_bool?.2 h.cropY, optional_bool?.2 h.cropZ,
      optional_policyOfJson?.2 h.policy]
    rfl

/-- What is written for parameters holds them and no others. -/
theorem holds_toJson {v w : CropParameters κ} : Holds v.toJson w ↔ v = w ∧ v.lo.IsFinite ∧ v.hi.IsFinite := by
  constructor
  · intro h
    obtain ⟨hlo, hflo⟩ := isPoint_toJson.1 h.lo
    obtain ⟨hhi, hfhi⟩ := isPoint_toJson.1 h.hi
    have hsource := Path.toJson_inj.1 (Option.some.inj h.source)
    have hcreated := Path.toJson_inj.1 (Option.some.inj h.created)
    have hinPlace := isFlag_bool.1 h.inPlace
    have hx := isFlag_bool.1 h.cropX
    have hy := isFlag_bool.1 h.cropY
    have hz := isFlag_bool.1 h.cropZ
    have hpolicy := isPolicy_index.1 h.policy
    refine ⟨?_, hflo, hfhi⟩
    cases v
    cases w
    simp_all
  · rintro ⟨rfl, hlo, hhi⟩
    have hrecord : ∀ name ∈ fieldNames, fieldNames.count name ≤ 1 := by decide
    exact {
      record := hrecord
      source := rfl
      created := rfl
      lo := isPoint_toJson.2 ⟨rfl, hlo⟩
      hi := isPoint_toJson.2 ⟨rfl, hhi⟩
      inPlace := isFlag_bool.2 rfl
      cropX := isFlag_bool.2 rfl
      cropY := isFlag_bool.2 rfl
      cropZ := isFlag_bool.2 rfl
      policy := isPolicy_index.2 rfl }

/-! ## What comes in -/

/-- Names that make a path. -/
def PathNames (names : List String) : Prop := names ≠ [] ∧ ∀ name ∈ names, name ≠ "" ∧ '/' ∉ name.toList

instance : DecidablePred PathNames := fun names =>
  inferInstanceAs (Decidable (names ≠ [] ∧ ∀ name ∈ names, name ≠ "" ∧ '/' ∉ name.toList))

/-- The field lists the names of a path. -/
def ListsNames (field : Option (Json κ)) (p : Path) : Prop :=
  ∃ names, field = some (.list (names.map .text)) ∧ PathNames names ∧ p.names = names

omit [Coordinate κ] in
theorem listsNames_of_path {field : Option (Json κ)} {p : Path} (h : field = some p.toJson) : ListsNames field p :=
  ⟨p.names, h, ⟨p.nonempty, p.valid⟩, rfl⟩

theorem le_two_of_policy {i : UInt64} {policy : BoundaryPolicy} (h : BoundaryPolicy.all[i.toNat]? = some policy) :
    i ≤ 2 := by
  have hlt : i.toNat < BoundaryPolicy.all.length := (List.getElem?_eq_some_iff.1 h).1
  exact UInt64.le_iff_toNat_le.2 (Nat.le_of_lt_succ hlt)

/-- Parameters are read back as they were written if and only if their
coordinates are finite. What is read is what the value holds: its paths are
lists of names that make a path, and its policy has one of the numbers from
nought to two or none at all. An object in which anything else stands under one
of these names is refused, and so is one that has a name twice. -/
theorem parameters_read_back :
    (∀ v w : CropParameters κ, ofJson? v.toJson = some w ↔ v = w ∧ v.lo.IsFinite ∧ v.hi.IsFinite) ∧
      (∀ (j : Json κ) (v : CropParameters κ), ofJson? j = some v ↔ Holds j v) ∧
      (∀ (j : Json κ) (v : CropParameters κ), ofJson? j = some v →
        ListsNames (field? j "source_geometry_path") v.source ∧
          ListsNames (field? j "created_geometry_path") v.created ∧
          ((∃ i : UInt64, i ≤ 2 ∧ field? j "boundary_intersection_behavior" = some (.unsigned i) ∧
              BoundaryPolicy.all[i.toNat]? = some v.policy) ∨
            field? j "boundary_intersection_behavior" = none ∧ v.policy = .interpolate)) ∧
      (∀ (fields : List (String × Json κ)) (j : Json κ), (∀ names, PathNames names → j ≠ .list (names.map .text)) →
        ("source_geometry_path", j) ∈ fields ∨ ("created_geometry_path", j) ∈ fields →
        ofJson? (.object fields) = none) ∧
      (∀ (fields : List (String × Json κ)) (j : Json κ), (∀ i : UInt64, i ≤ 2 → j ≠ .unsigned i) →
        ("boundary_intersection_behavior", j) ∈ fields → ofJson? (.object fields) = none) ∧
      ∀ (fields : List (String × Json κ)) (name : String), name ∈ fieldNames →
        2 ≤ (fields.map (·.1)).count name → ofJson? (.object fields) = none := by
  refine ⟨fun v w => ofJson?_eq_some.trans holds_toJson, fun j v => ofJson?_eq_some, fun j v h => ?_,
    fun fields j hj hmem => ?_, fun fields j hj hmem => ?_, fun fields name hname htwice => ?_⟩
  · have hholds := ofJson?_eq_some.1 h
    refine ⟨listsNames_of_path hholds.source, listsNames_of_path hholds.created, ?_⟩
    rcases hholds.policy with ⟨i, hi, hpolicy⟩ | hmissing
    · exact .inl ⟨i, le_two_of_policy hpolicy, hi, hpolicy⟩
    · exact .inr hmissing
  all_goals
    rw [Option.eq_none_iff_forall_ne_some]
    intro v h
    have hholds := ofJson?_eq_some.1 h
    have honce : Json.NoneTwice fieldNames fields := hholds.record
  · rcases hmem with hmem | hmem
    · have hfield := Json.field?_of_mem honce (by decide) hmem
      obtain ⟨names, hlist, hnames, -⟩ := listsNames_of_path hholds.source
      exact hj names hnames (Option.some.inj (hfield.symm.trans hlist))
    · have hfield := Json.field?_of_mem honce (by decide) hmem
      obtain ⟨names, hlist, hnames, -⟩ := listsNames_of_path hholds.created
      exact hj names hnames (Option.some.inj (hfield.symm.trans hlist))
  · have hfield : field? (.object fields) "boundary_intersection_behavior" = some j :=
      Json.field?_of_mem honce (by decide) hmem
    rcases hholds.policy with ⟨i, hi, hpolicy⟩ | ⟨hmissing, -⟩
    · exact hj i (le_two_of_policy hpolicy) (Option.some.inj (hfield.symm.trans hi))
    · rw [hfield] at hmissing
      cases hmissing
  · exact absurd (honce name hname) (Nat.not_le.2 htwice)

/-- Parameters of a crop along two axes. -/
def sample : CropParameters Float32 where
  source := ⟨["Group", "Whole"], by decide, by decide⟩
  created := ⟨["Group", "Cropped"], by decide, by decide⟩
  lo := Box.sampleLo
  hi := Box.sampleHi
  inPlace := false
  cropX := true
  cropY := true
  cropZ := false
  policy := .ignoreEdge

/-- The sample is read back, and three objects that differ from it in a name, in
the number or by a second number are refused. -/
theorem parameters_read_back_sample :
    ofJson? sample.toJson = some sample ∧
      ¬PathNames ["Group/Cropped"] ∧
      ofJson? (.object [("source_geometry_path", sample.source.toJson), ("min_coords", sample.lo.toJson),
        ("max_coords", sample.hi.toJson), ("created_geometry_path", .list [.text "Group/Cropped"])]) =
          (none : Option (CropParameters Float32)) ∧
      ofJson? (.object [("source_geometry_path", sample.source.toJson), ("min_coords", sample.lo.toJson),
        ("max_coords", sample.hi.toJson), ("created_geometry_path", sample.created.toJson),
        ("boundary_intersection_behavior", .unsigned 5)]) = (none : Option (CropParameters Float32)) ∧
      ofJson? (.object [("source_geometry_path", sample.source.toJson), ("min_coords", sample.lo.toJson),
        ("max_coords", sample.hi.toJson), ("created_geometry_path", sample.created.toJson),
        ("boundary_intersection_behavior", .unsigned 1), ("boundary_intersection_behavior", .unsigned 7)]) =
          (none : Option (CropParameters Float32)) := by
  obtain ⟨hback, -, -, hnames, hindex, htwice⟩ := parameters_read_back (κ := Float32)
  have hlo : sample.lo.IsFinite := Point.isFinite_iff.2 (by decide +kernel)
  have hhi : sample.hi.IsFinite := Point.isFinite_iff.2 (by decide +kernel)
  have hslash : ¬PathNames ["Group/Cropped"] := by decide
  have hlist : ∀ names, PathNames names →
      Json.list (κ := Float32) [.text "Group/Cropped"] ≠ .list (names.map .text) := by
    rintro names hpath hlist
    have htexts : ["Group/Cropped"].map Json.text = names.map (Json.text (κ := Float32)) := Json.list.inj hlist
    have hsame : ["Group/Cropped"] = names := List.map_injective_iff.2 (fun _ _ => Json.text.inj) htexts
    exact hslash (hsame ▸ hpath)
  have hfive : ∀ i : UInt64, i ≤ 2 → Json.unsigned (κ := Float32) 5 ≠ .unsigned i := by
    rintro i hi hfive
    exact absurd (Json.unsigned.inj hfive ▸ hi) (by decide)
  exact ⟨(hback _ _).2 ⟨rfl, hlo, hhi⟩, hslash, hnames _ _ hlist (.inr (by simp)), hindex _ _ hfive (by simp),
    htwice _ "boundary_intersection_behavior" (by decide) (by simp [sample, List.count])⟩

end CropParameters

end Wireframe
