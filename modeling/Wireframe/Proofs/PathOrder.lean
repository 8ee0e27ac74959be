import Wireframe.Proofs.PathText
import Mathlib.Data.List.Induction
import Mathlib.Logic.Relation
/-!
# Above and below

A path lies below another if it continues the names of the other. This can be
seen in three ways: going up from it comes to the other, its names begin with
those of the other, and its text begins with the text of the other and a slash.
The slash matters, for `A/BC` is not below `A/B`.

In the order of paths whatever lies below a path comes right after it, before
anything else does. So a list of paths in order keeps together what belongs
together, whatever bytes the names are made of.
-/

namespace Wireframe

/-! ## Lists in dictionary order -/

section Dictionary

variable {α : Type} {cmp : α → α → Ordering}

/-- A list comes no later than what continues it. -/
theorem isLE_compareLex_append [Std.ReflCmp cmp] (l r : List α) : (List.compareLex cmp l (l ++ r)).isLE = true := by
  induction l with
  | nil => exact List.isLE_compareLex_nil_left
  | cons a l ih =>
    have ha : cmp a a = .eq := Std.ReflCmp.compare_self
    rw [List.cons_append, List.compareLex_cons_cons, ha, Ordering.eq_then, ih]

/-- What comes between two lists with one beginning begins with it too. -/
theorem prefix_of_between [Std.OrientedCmp cmp] [Std.LawfulEqCmp cmp] {front l₁ l₂ l₃ : List α}
    (h₁ : front <+: l₁) (h₃ : front <+: l₃) (h₁₂ : (List.compareLex cmp l₁ l₂).isLE = true)
    (h₂₃ : (List.compareLex cmp l₂ l₃).isLE = true) : front <+: l₂ := by
  induction front generalizing l₁ l₂ l₃ with
  | nil => exact List.nil_prefix
  | cons a front ih =>
    obtain ⟨l₁, rfl, hl₁⟩ := List.cons_prefix_iff.1 h₁
    obtain ⟨l₃, rfl, hl₃⟩ := List.cons_prefix_iff.1 h₃
    cases l₂ with
    | nil => cases List.isLE_compareLex_nil_right.1 h₁₂
    | cons b l₂ =>
      rw [List.compareLex_cons_cons] at h₁₂ h₂₃
      -- the first element comes between `a` and `a`
      have hge : (cmp a b).isGE = true := Std.OrientedCmp.isGE_of_isLE (Ordering.isLE_left_of_isLE_then h₂₃)
      have hab : cmp a b = .eq := Ordering.eq_eq_of_isLE_of_isGE (Ordering.isLE_left_of_isLE_then h₁₂) hge
      obtain rfl : a = b := Std.LawfulEqCmp.eq_of_compare hab
      rw [hab, Ordering.eq_then] at h₁₂ h₂₃
      exact List.cons_prefix_cons.2 ⟨rfl, ih hl₁ hl₃ h₁₂ h₂₃⟩

end Dictionary

namespace Path

variable {p q : Path} {name : String}

/-! ## One name further down -/

theorem valid_target (q : Path) : ValidName q.target := q.valid _ (List.getLast_mem q.nonempty)

theorem parent?_eq_some : q.parent? = some p ↔ ∃ name, q.names = p.names ++ [name] := by
  unfold parent?
  constructor
  · intro h
    split at h
    next =>
      cases h
      exact ⟨q.target, (List.dropLast_append_getLast q.nonempty).symm⟩
    next => cases h
  · rintro ⟨name, h⟩
    have hlen : 1 < q.names.length := by simp [h, List.length_pos_iff.2 p.nonempty]
    rw [dif_pos hlen]
    exact congrArg some (Path.ext (by simp [h]))

theorem ne_of_parent? (h : q.parent? = some p) : q ≠ p := by
  rintro rfl
  obtain ⟨name, hn⟩ := parent?_eq_some.1 h
  simp at hn

theorem child_eq_ok : p.child name = .ok q ↔ q.parent? = some p ∧ q.target = name := by
  unfold child
  constructor
  · intro h
    split at h
    next =>
      cases h
      exact ⟨parent?_eq_some.2 ⟨name, rfl⟩, List.getLast_concat⟩
    next => cases h
  · rintro ⟨h, rfl⟩
    obtain ⟨name, hn⟩ := parent?_eq_some.1 h
    have htarget : q.target = name := by simp [target, hn]
    rw [← htarget] at hn
    rw [dif_pos q.valid_target]
    exact congrArg Except.ok (Path.ext hn.symm)

theorem exists_child (p : Path) (h : ValidName name) : ∃ q, p.child name = .ok q := ⟨_, dif_pos h⟩

/-! ## Below a path -/

theorem startsWith_iff : p.startsWith q = true ↔ q.names <+: p.names := List.isPrefixOf_iff_prefix

/-- The paths at or below `q` are those from which going up leads to `q`. -/
theorem startsWith_iff_up :
    p.startsWith q = true ↔ Relation.ReflTransGen (fun a b : Path => a.parent? = some b) p q := by
  rw [startsWith_iff]
  constructor
  · rintro ⟨rest, h⟩
    induction rest using List.reverseRecOn generalizing p with
    | nil =>
      obtain rfl : q = p := Path.ext (by simpa using h)
      exact .refl
    | append_singleton rest name ih =>
      rw [← List.append_assoc] at h
      let up : Path := ⟨q.names ++ rest, by simp [q.nonempty], fun n hn => p.valid n (h ▸ List.mem_append_left _ hn)⟩
      have hstep : p.parent? = some up := parent?_eq_some.2 ⟨name, h.symm⟩
      exact .head hstep (ih rfl)
  · intro h
    induction h with
    | refl => exact List.prefix_rfl
    | tail _ hstep ih =>
      obtain ⟨name, hn⟩ := parent?_eq_some.1 hstep
      exact (List.prefix_append _ _).trans (hn ▸ ih)

/-- The text of a path below another is that of the other, a slash and a rest.
No other texts begin so, for a slash in a text is never part of a name. -/
theorem startsWith_iff_text : p.startsWith q = true ↔ p.text = q.text ∨ ∃ rest, p.text = q.text ++ "/" ++ rest := by
  rw [startsWith_iff]
  constructor
  · rintro ⟨rest, h⟩
    by_cases hrest : rest = []
    · left
      rw [text, text, ← h, hrest, List.append_nil]
    · right
      exact ⟨"/".intercalate rest, by rw [text, ← h, String.intercalate_append_of_ne_nil q.nonempty hrest, text]⟩
  · rintro (h | ⟨rest, h⟩)
    · obtain rfl := text_inj.1 h
      exact List.prefix_rfl
    · have hslash : p.text.toList = q.text.toList ++ '/' :: rest.toList := by simp [h]
      have hnames : p.names.map String.toList = q.names.map String.toList ++ splitSlash rest.toList := by
        rw [← splitSlash_text, ← splitSlash_text, hslash, splitSlash_eq, splitSlash_eq, splitSlash_eq,
          List.splitOn_append_cons_self]
      rw [← List.prefix_map_iff_of_injective fun _ _ => String.toList_inj.1]
      exact ⟨_, hnames.symm⟩

/-! ## The order of paths -/

theorem order_eq_lt : order p q = .lt ↔ p.names.map utf8Bytes < q.names.map utf8Bytes := by
  unfold order
  refine compareLex_eq_lt ?_ ?_
  · intro a b
    exact byteOrder_eq_lt
  · intro a b
    exact byteOrder_eq_eq

theorem order_eq_eq : order p q = .eq ↔ p = q := Std.LawfulEqCmp.compare_eq_iff_eq

theorem isLE_order_of_startsWith (h : p.startsWith q = true) : (order q p).isLE = true := by
  obtain ⟨rest, hrest⟩ := startsWith_iff.1 h
  rw [order, ← hrest]
  exact isLE_compareLex_append q.names rest

theorem startsWith_of_between {a b c : Path} (ha : a.startsWith q = true) (hc : c.startsWith q = true)
    (hab : (order a b).isLE = true) (hbc : (order b c).isLE = true) : b.startsWith q = true :=
  startsWith_iff.2 (prefix_of_between (startsWith_iff.1 ha) (startsWith_iff.1 hc) hab hbc)

/-- To begin with the names of another path is to come to it by going up, and
is seen from the texts. A child has its parent above it. Paths are ordered by
their names from left to right, each by its bytes, a path before what is below
it. That is a total order, and in it the paths at and below any path stand
together, that path first. -/
theorem ordered_tree :
    (∀ p q : Path,
      (p.startsWith q = true ↔ Relation.ReflTransGen (fun a b : Path => a.parent? = some b) p q) ∧
        (p.startsWith q = true ↔ p.text = q.text ∨ ∃ rest, p.text = q.text ++ "/" ++ rest)) ∧
      (∀ (p : Path) (name : String), ValidName name → ∃ c, p.child name = .ok c ∧ c.parent? = some p) ∧
      (∀ p q : Path, (order p q = .lt ↔ p.names.map utf8Bytes < q.names.map utf8Bytes) ∧
        (order p q = .eq ↔ p = q) ∧ order q p = (order p q).swap) ∧
      (∀ p q r : Path, (order p q).isLE = true → (order q r).isLE = true → (order p r).isLE = true) ∧
      ∀ q : Path, q.startsWith q = true ∧ (∀ p : Path, p.startsWith q = true → (order q p).isLE = true) ∧
        ∀ a b c : Path, (order a b).isLE = true → (order b c).isLE = true →
          a.startsWith q = true → c.startsWith q = true → b.startsWith q = true := by
  refine ⟨fun p q => ⟨startsWith_iff_up, startsWith_iff_text⟩, fun p name hv => ?_,
    fun p q => ⟨order_eq_lt, order_eq_eq, Std.OrientedCmp.eq_swap⟩, fun p q r => Std.TransCmp.isLE_trans,
    fun q => ⟨startsWith_iff.2 List.prefix_rfl, fun p => isLE_order_of_startsWith,
      fun a b c hab hbc ha hc => startsWith_of_between ha hc hab hbc⟩⟩
  obtain ⟨c, hc⟩ := p.exists_child hv
  exact ⟨c, hc, (child_eq_ok.1 hc).1⟩

/-- The first of four paths in order, `A`, `A/B`, `A/BC` and `A!`. As a text
the last would come before the two below `A`. -/
def sampleTop : Path := ⟨["A"], by decide, by decide⟩

/-- See `sampleTop`. -/
def sampleB : Path := ⟨["A", "B"], by decide, by decide⟩

/-- See `sampleTop`. -/
def sampleBC : Path := ⟨["A", "BC"], by decide, by decide⟩

/-- See `sampleTop`. -/
def sampleNext : Path := ⟨["A!"], by decide, by decide⟩

theorem ordered_tree_samples :
    (order sampleTop sampleBC).isLE = true ∧ sampleB.startsWith sampleTop = true ∧
      ¬Relation.ReflTransGen (fun a b : Path => a.parent? = some b) sampleBC sampleB ∧
      order sampleBC sampleNext = .lt ∧ utf8Bytes sampleNext.text < utf8Bytes sampleBC.text ∧
      ¬(∃ rest, sampleNext.text = sampleTop.text ++ "/" ++ rest) ∧
      ∃ c, sampleBC.child "Ids" = .ok c ∧ c.parent? = some sampleBC := by
  obtain ⟨hbelow, hchild, horder, htrans, htogether⟩ := ordered_tree
  have htopB : (order sampleTop sampleB).isLE = true := by decide +kernel
  have hBBC : (order sampleB sampleBC).isLE = true := by decide +kernel
  have hBC : sampleBC.startsWith sampleTop = true := by decide +kernel
  have hsplit : sampleBC.startsWith sampleB ≠ true := by decide +kernel
  have hnext : sampleNext.startsWith sampleTop ≠ true := by decide +kernel
  obtain ⟨htop, -, hbetween⟩ := htogether sampleTop
  refine ⟨htrans _ _ _ htopB hBBC, hbetween _ _ _ htopB hBBC htop hBC, (hbelow _ _).1.not.1 hsplit,
    (horder _ _).1.2 (by decide +kernel), by decide +kernel, fun h => hnext ((hbelow _ _).2.2 (.inr h)),
    hchild _ _ (by decide)⟩

end Path

end Wireframe
