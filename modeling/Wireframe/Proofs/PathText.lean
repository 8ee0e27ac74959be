import Wireframe.Path.Names
import Wireframe.Proofs.Lists
/-!
# The text of a path

A text is cut at its slashes, and the names of a path are joined by slashes.
Either undoes the other: joining the pieces of a text gives the text, and a
name, which holds no slash, is never cut. So a text stands for a path exactly
when none of its pieces is empty, and then for one path only.

The lists of names that come about without being checked as a whole are the
names of paths all the same, for what an operation keeps of a list satisfied
the rules before.
-/

namespace Wireframe

/-! ## Cutting at slashes -/

theorem splitSlash_slash (cs : List Char) : splitSlash ('/' :: cs) = [] :: splitSlash cs := by
  rw [splitSlash, if_pos rfl]

/-- Any other character goes to the first piece, of which there always is one. -/
theorem splitSlash_cons {c : Char} (hc : c ≠ '/') (cs : List Char) :
    ∃ piece pieces, splitSlash cs = piece :: pieces ∧ splitSlash (c :: cs) = (c :: piece) :: pieces := by
  induction cs generalizing c with
  | nil => exact ⟨[], [], rfl, by rw [splitSlash, if_neg hc, splitSlash]⟩
  | cons d cs ih =>
    have hne : ∃ piece pieces, splitSlash (d :: cs) = piece :: pieces := by
      by_cases hd : d = '/'
      · exact ⟨[], splitSlash cs, hd ▸ splitSlash_slash cs⟩
      · obtain ⟨piece, pieces, -, h⟩ := ih hd
        exact ⟨d :: piece, pieces, h⟩
    obtain ⟨piece, pieces, h⟩ := hne
    exact ⟨piece, pieces, h, by rw [splitSlash, if_neg hc, h]⟩

theorem splitSlash_eq (cs : List Char) : splitSlash cs = cs.splitOn '/' := by
  induction cs with
  | nil => rfl
  | cons c cs ih =>
    rw [List.splitOn_cons_eq_if_modifyHead, ← ih]
    by_cases hc : c = '/'
    · rw [hc, if_pos (beq_self_eq_true _), splitSlash_slash]
    · obtain ⟨piece, pieces, h, hcons⟩ := splitSlash_cons hc cs
      rw [hcons, if_neg (by simpa using hc), h, List.modifyHead_cons]

theorem slash_not_mem {cs piece : List Char} (h : piece ∈ splitSlash cs) : '/' ∉ piece := by
  induction cs generalizing piece with
  | nil => simp_all [splitSlash]
  | cons c cs ih =>
    by_cases hc : c = '/'
    · rw [hc, splitSlash_slash] at h
      rcases List.mem_cons.1 h with rfl | h
      · exact List.not_mem_nil
      · exact ih h
    · obtain ⟨first, pieces, hcs, hcons⟩ := splitSlash_cons hc cs
      rw [hcs] at ih
      rw [hcons] at h
      rcases List.mem_cons.1 h with rfl | h
      · have hfirst := ih List.mem_cons_self
        simp [hfirst, Ne.symm hc]
      · exact ih (List.mem_cons_of_mem _ h)

/-- The first piece is empty if the text is empty or begins with a slash. -/
theorem nil_mem_splitSlash (cs : List Char) :
    [] ∈ splitSlash cs ↔ cs = [] ∨ ['/'] <+: cs ∨ [] ∈ (splitSlash cs).tail := by
  cases cs with
  | nil => simp [splitSlash]
  | cons c cs =>
    by_cases hc : c = '/'
    · simp [hc, splitSlash_slash]
    · obtain ⟨piece, pieces, -, hcons⟩ := splitSlash_cons hc cs
      simp [hcons, Ne.symm hc]

/-- Another piece is empty if a slash ends the text or comes after a slash. -/
theorem nil_mem_tail_splitSlash (cs : List Char) :
    [] ∈ (splitSlash cs).tail ↔ ['/'] <:+ cs ∨ ['/', '/'] <:+: cs := by
  induction cs with
  | nil => simp [splitSlash]
  | cons c cs ih =>
    rw [List.suffix_cons_iff, List.infix_cons_iff, List.prefix_cons_iff]
    by_cases hc : c = '/'
    · subst hc
      have hlast : ['/'] = '/' :: cs ↔ cs = [] := by simp [eq_comm]
      have hnext : (∃ t, ['/', '/'] = '/' :: t ∧ t <+: cs) ↔ ['/'] <+: cs := by simp
      rw [splitSlash_slash, List.tail_cons, nil_mem_splitSlash, ih, hlast, hnext]
      grind
    · obtain ⟨piece, pieces, hcs, hcons⟩ := splitSlash_cons hc cs
      rw [hcs] at ih
      simpa [hcons, Ne.symm hc] using ih

/-! ## Texts of paths -/

/-- One slash between any two names and none at the ends. -/
def IsPathText (s : String) : Prop :=
  s ≠ "" ∧ ¬['/'] <+: s.toList ∧ ¬['/'] <:+ s.toList ∧ ¬['/', '/'] <:+: s.toList

instance : DecidablePred IsPathText := fun s =>
  inferInstanceAs (Decidable (s ≠ "" ∧ ¬['/'] <+: s.toList ∧ ¬['/'] <:+ s.toList ∧ ¬['/', '/'] <:+: s.toList))

theorem isPathText_iff {s : String} : IsPathText s ↔ [] ∉ splitSlash s.toList := by
  rw [nil_mem_splitSlash, nil_mem_tail_splitSlash, String.toList_eq_nil_iff, IsPathText]
  simp only [not_or, ne_eq]

/-- A piece of a text is a name unless it is empty. -/
theorem validName_of_piece {s : String} {piece : List Char} (h : piece ∈ splitSlash s.toList) :
    ValidName (String.ofList piece) ↔ piece ≠ [] := by
  rw [ValidName, String.toList_ofList, ne_eq, String.ofList_eq_empty_iff]
  exact and_iff_left (slash_not_mem h)

namespace Path

variable {p : Path} {s : String}

theorem ofNames_eq_ok {names : List String} : ofNames names = .ok p ↔ p.names = names := by
  constructor
  · intro h
    unfold ofNames at h
    split at h
    next => cases h
    next =>
      split at h
      next =>
        cases h
        rfl
      next => cases h
  · rintro rfl
    rw [ofNames, dif_neg p.nonempty, dif_pos p.valid]

theorem exists_ofNames {names : List String} :
    (∃ p, ofNames names = .ok p) ↔ names ≠ [] ∧ ∀ name ∈ names, ValidName name := by
  simp only [ofNames_eq_ok]
  constructor
  · rintro ⟨p, rfl⟩
    exact ⟨p.nonempty, p.valid⟩
  · rintro ⟨hne, hv⟩
    exact ⟨⟨names, hne, hv⟩, rfl⟩

theorem ofText_eq_ofNames : ofText s = .ok p ↔ ofNames ((splitSlash s.toList).map String.ofList) = .ok p := by
  unfold ofText
  cases ofNames ((splitSlash s.toList).map String.ofList) <;> simp [Except.mapError]

theorem toList_text (p : Path) : p.text.toList = ['/'].intercalate (p.names.map String.toList) :=
  String.toList_intercalate

/-- The text of a path is cut into its names. -/
theorem splitSlash_text (p : Path) : splitSlash p.text.toList = p.names.map String.toList := by
  have hnames : ∀ l ∈ p.names.map String.toList, '/' ∉ l := by
    intro l hl
    obtain ⟨name, hn, rfl⟩ := List.mem_map.1 hl
    exact (p.valid name hn).2
  rw [toList_text, splitSlash_eq, List.splitOn_intercalate '/' hnames (by simpa using p.nonempty)]

/-- A text is read as the path that it is the text of. -/
theorem ofText_eq_ok : ofText s = .ok p ↔ p.text = s := by
  rw [ofText_eq_ofNames, ofNames_eq_ok]
  constructor
  · intro h
    have hpieces : (splitSlash s.toList).map (String.toList ∘ String.ofList) = splitSlash s.toList :=
      List.map_id'' (fun _ => String.toList_ofList) _
    rw [← String.toList_inj, toList_text, h, List.map_map, hpieces, splitSlash_eq, List.intercalate_splitOn]
  · rintro rfl
    have hback : p.names.map (String.ofList ∘ String.toList) = p.names :=
      List.map_id'' (fun _ => String.ofList_toList) _
    rw [splitSlash_text, List.map_map, hback]

theorem exists_ofText : (∃ p, ofText s = .ok p) ↔ IsPathText s := by
  simp only [ofText_eq_ofNames, exists_ofNames, isPathText_iff, List.forall_mem_map]
  have hne : splitSlash s.toList ≠ [] := splitSlash_eq s.toList ▸ List.splitOn_ne_nil _ _
  constructor
  · rintro ⟨-, hv⟩ hnil
    exact (validName_of_piece hnil).1 (hv [] hnil) rfl
  · intro hnil
    refine ⟨by simpa using hne, fun piece hp => (validName_of_piece hp).2 ?_⟩
    rintro rfl
    exact hnil hp

theorem text_inj {q : Path} : p.text = q.text ↔ p = q := by
  constructor
  · intro h
    exact Except.ok.inj ((ofText_eq_ok.2 h).symm.trans (ofText_eq_ok.2 rfl))
  · rintro rfl
    rfl

/-! ## Paths as JSON -/

variable {κ : Type}

theorem text?_eq_some {j : Json κ} {name : String} : j.text? = some name ↔ j = .text name := by
  cases j <;> simp [Json.text?]

/-- A path is read from the list of its names and from nothing else. -/
theorem ofJson?_eq_some {j : Json κ} : ofJson? j = some p ↔ j = p.toJson := by
  constructor
  · intro h
    obtain ⟨items, hitems, names, hnames, hp⟩ : ∃ items, j.list? = some items ∧
        ∃ names, items.mapM Json.text? = some names ∧ (ofNames names).toOption = some p := by
      simpa [ofJson?, Option.bind_eq_some_iff] using h
    have htexts : items = names.map .text :=
      eq_map_of_map_some (mapM_eq_some.1 hnames) fun _ _ => text?_eq_some.1
    have hpath : ofNames names = .ok p := by
      cases hr : ofNames names <;> simp_all [Except.toOption]
    rw [Json.list?_eq_some.1 hitems, htexts, ← ofNames_eq_ok.1 hpath]
    rfl
  · rintro rfl
    have hnames : (p.names.map Json.text).mapM (Json.text? (κ := κ)) = some p.names := by
      rw [mapM_eq_some, List.map_map]
      rfl
    simp [ofJson?, toJson, Json.list?, hnames, ofNames_eq_ok.2 rfl, Except.toOption]

theorem toJson_inj {q : Path} : (p.toJson : Json κ) = q.toJson ↔ p = q := by
  rw [← ofJson?_eq_some, ofJson?_eq_some.2 rfl, Option.some.injEq]

end Path

/-! ## Bare lists of names -/

namespace NameList

variable {names : List String} {name : String}

theorem names_of_map {r : Except Error Path} (h : r.map Path.names = .ok names) : ∃ p : Path, p.names = names := by
  cases r with
  | error e => cases h
  | ok p => exact ⟨p, Except.ok.inj h⟩

theorem forM_checkName (names : List String) : forM names checkName =
    match names.find? fun name => ¬ValidName name with
    | none => .ok ()
    | some name => .error (.invalidPath name) := by
  induction names with
  | nil => rfl
  | cons name names ih =>
    rw [List.forM_cons, List.find?_cons, checkName]
    by_cases h : ValidName name
    · simp [h, ih, bind, Except.bind]
    · simp [h, bind, Except.bind]

/-- The bare list fails where the path does and lists its names otherwise. -/
theorem ofNames_eq (names : List String) : ofNames names = (Path.ofNames names).map Path.names := by
  unfold ofNames Path.ofNames
  rw [forM_checkName]
  by_cases hne : names = []
  · rw [if_pos hne, dif_pos hne]
    rfl
  rw [if_neg hne, dif_neg hne]
  cases hf : names.find? fun name => ¬ValidName name with
  | none =>
    have hv : ∀ name ∈ names, ValidName name := by simpa using hf
    rw [dif_pos hv]
    rfl
  | some name =>
    have hbad : ¬ValidName name := by simpa using List.find?_some hf
    rw [dif_neg fun hv => hbad (hv name (List.mem_of_find?_eq_some hf))]
    rfl

theorem ofText_eq (s : String) : ofText s = (Path.ofText s).map Path.names := by
  unfold ofText Path.ofText
  rw [ofNames_eq]
  cases Path.ofNames ((splitSlash s.toList).map String.ofList) <;> rfl

theorem child_eq (p : Path) (name : String) : child p.names name = (p.child name).map Path.names := by
  unfold child Path.child checkName
  by_cases h : ValidName name
  · rw [if_pos h, dif_pos h]
    rfl
  · rw [if_neg h, dif_neg h]
    rfl

theorem parent?_eq (p : Path) : parent? p.names = p.parent?.map Path.names := by
  unfold parent? Path.parent?
  split <;> rfl

theorem withTarget_eq (p : Path) (name : String) :
    withTarget p.names name = (p.withTarget name).map Path.names := by
  unfold withTarget Path.withTarget checkName
  by_cases h : ValidName name
  · rw [if_pos h, dif_pos h, if_neg p.nonempty]
    rfl
  · rw [if_neg h, dif_neg h]
    rfl

theorem ofJson?_eq {κ : Type} (j : Json κ) : ofJson? j = (Path.ofJson? j).map Path.names := by
  unfold ofJson? Path.ofJson?
  cases j.list? with
  | none => rfl
  | some items =>
    dsimp only [bind, Option.bind]
    cases items.mapM Json.text? with
    | none => rfl
    | some names =>
      dsimp only
      rw [ofNames_eq]
      cases Path.ofNames names <;> rfl

/-- A bare list that is made is the list of the names of a path. -/
theorem Made.exists_path {κ : Type} (h : Made κ names) : ∃ p : Path, p.names = names := by
  induction h with
  | ofNames h =>
    rw [ofNames_eq] at h
    exact names_of_map h
  | ofText h =>
    rw [ofText_eq] at h
    exact names_of_map h
  | ofJson h =>
    rw [ofJson?_eq, Option.map_eq_some_iff] at h
    obtain ⟨p, -, hp⟩ := h
    exact ⟨p, hp⟩
  | child _ h ih =>
    obtain ⟨p, rfl⟩ := ih
    rw [child_eq] at h
    exact names_of_map h
  | parent _ h ih =>
    obtain ⟨p, rfl⟩ := ih
    rw [parent?_eq, Option.map_eq_some_iff] at h
    obtain ⟨q, -, hq⟩ := h
    exact ⟨q, hq⟩
  | withTarget _ h ih =>
    obtain ⟨p, rfl⟩ := ih
    rw [withTarget_eq] at h
    exact names_of_map h

theorem made_iff {κ : Type} : Made κ names ↔ names ≠ [] ∧ ∀ name ∈ names, ValidName name := by
  constructor
  · intro h
    obtain ⟨p, rfl⟩ := h.exists_path
    exact ⟨p.nonempty, p.valid⟩
  · rintro ⟨hne, hv⟩
    obtain ⟨p, hp⟩ := Path.exists_ofNames.2 ⟨hne, hv⟩
    refine .ofNames (l := names) ?_
    rw [ofNames_eq, hp]
    exact congrArg Except.ok (Path.ofNames_eq_ok.1 hp)

end NameList

/-! ## Two faces of one value -/

/-- A text stands for a path when one slash stands between any two of its names
and none at the ends, and for the path whose text it is. However a list of
names was made, it is a list of names that are not empty and hold no slash, its
text is read as the same list, and so is its JSON value. -/
theorem Path.text_and_names (κ : Type) :
    (∀ s, (∃ p, ofText s = .ok p) ↔ IsPathText s) ∧
      (∀ s p, ofText s = .ok p ↔ p.text = s) ∧
      (∀ names, NameList.Made κ names ↔ names ≠ [] ∧ ∀ name ∈ names, name ≠ "" ∧ '/' ∉ name.toList) ∧
      (∀ names, NameList.Made κ names → NameList.ofText (NameList.text names) = .ok names) ∧
      text.Injective ∧
      ∀ (j : Json κ) p, ofJson? j = some p ↔ j = p.toJson := by
  refine ⟨fun s => exists_ofText, fun s p => ofText_eq_ok, fun names => NameList.made_iff, fun names h => ?_,
    fun p q => text_inj.1, fun j p => ofJson?_eq_some⟩
  obtain ⟨p, rfl⟩ := h.exists_path
  have hp : Path.ofText (NameList.text p.names) = .ok p := ofText_eq_ok.2 rfl
  rw [NameList.ofText_eq, hp]
  rfl

theorem Path.text_and_names_ids :
    NameList.Made Float32 ["Line", "Vertex Data", "Ids"] ∧ IsPathText "Line/Vertex Data/Ids" ∧
      (∃ p, ofText "Line/Vertex Data/Ids" = .ok p) ∧ (¬∃ p, ofText "Line//Ids" = .ok p) ∧
      NameList.ofText "Line/Vertex Data/Ids" = .ok ["Line", "Vertex Data", "Ids"] := by
  have hmade : NameList.Made Float32 ["Line", "Vertex Data", "Ids"] := NameList.made_iff.2 ⟨by decide, by decide⟩
  have htext : IsPathText "Line/Vertex Data/Ids" := by decide +kernel
  have hdouble : ¬IsPathText "Line//Ids" := by decide +kernel
  obtain ⟨hread, -, -, hmade_text, -⟩ := text_and_names Float32
  exact ⟨hmade, htext, (hread _).2 htext, (hread _).not.2 hdouble, hmade_text _ hmade⟩

end Wireframe
