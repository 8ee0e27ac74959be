import Wireframe.Proofs.CompleteCrop
/-!
# Crops that are stopped

The messages of a crop are settled before it starts: one for each vertex array
and then one for each edge array, in the order of their names. A host that
raises the flag after some number of messages hears exactly that many, and
stops the crop unless it waits for more messages than there are.

The flag is read before every announcement and before every copy, so a
matrix without arrays is passed by without a look at it.
-/

namespace Wireframe

variable {κ : Type}

/-- The messages of a crop, in the order of their delivery. -/
def EdgeGeometry.announcements (g : EdgeGeometry κ) : List String :=
  g.vertexData.names.map (vertexLabel ++ ·) ++ g.edgeData.names.map (edgeLabel ++ ·)

/-! ## One matrix -/

theorem Progress.cancelled_afterMessages (k : Nat) (p : Progress) :
    p.cancelled (.afterMessages k) = decide (k ≤ p.messages.length) := rfl

/-- The announcements go on until `k` messages are delivered, and all are made
if the flag is not up before the last of them. -/
theorem announce_afterMessages (k : Nat) (label : String) (names : List String) (p : Progress) :
    (announce (.afterMessages k) label names p).1 =
        decide (names = [] ∨ p.messages.length + names.length ≤ k) ∧
      (announce (.afterMessages k) label names p).2.messages =
        p.messages ++ (names.map (label ++ ·)).take (k - p.messages.length) := by
  induction names generalizing p with
  | nil => simp [announce]
  | cons n names ih =>
    rw [announce, Progress.cancelled_afterMessages]
    by_cases hk : k ≤ p.messages.length
    · rw [if_pos (by simpa using hk), Nat.sub_eq_zero_of_le hk]
      constructor
      · simp only [← List.length_eq_zero_iff, List.length_cons, Bool.false_eq, decide_eq_false_iff_not]
        omega
      · simp [Progress.read]
    · rw [if_neg (by simpa using hk)]
      obtain ⟨h₁, h₂⟩ := ih (p.read.tell (label ++ n))
      have hlen : (p.read.tell (label ++ n)).messages.length = p.messages.length + 1 := by
        simp [Progress.tell, Progress.read]
      rw [hlen] at h₁ h₂
      constructor
      · rw [h₁, decide_eq_decide]
        simp only [← List.length_eq_zero_iff, List.length_cons]
        omega
      · rw [h₂, show k - p.messages.length = k - (p.messages.length + 1) + 1 by omega]
        simp [Progress.tell, Progress.read]

namespace AttributeMatrix

/-- Copies say nothing. -/
theorem messages_copyArrays (schedule : Schedule) (mask : Mask) (src : AttributeMatrix κ) (names : List String)
    (dst : AttributeMatrix κ) (p : Progress) :
    (copyArrays schedule mask src names dst p).2.2.messages = p.messages := by
  induction names generalizing dst p with
  | nil => rfl
  | cons n names ih =>
    rw [copyArrays]
    split
    · exact ih dst p.read
    · split
      next => rfl
      next m _ => exact ih m p.read

/-- The flag does not move while arrays are copied: all of them are skipped or
none is. -/
theorem copyArrays_afterMessages {mask : Mask} {src : AttributeMatrix κ} (k : Nat) (names : List String)
    (dst : AttributeMatrix κ) (p : Progress) (h : Ready mask src dst names) :
    (copyArrays (.afterMessages k) mask src names dst p).1 =
      .ok (decide (names = [] ∨ p.messages.length < k)) := by
  induction names generalizing dst p with
  | nil => simp [copyArrays]
  | cons n names ih =>
    rw [copyArrays, Progress.cancelled_afterMessages]
    by_cases hk : k ≤ p.messages.length
    · have hrun : ∃ b, (copyArrays (.afterMessages k) mask src names dst p.read).1 = .ok b :=
        copyArrays_of_ready names dst p.read h.tail
      obtain ⟨b, hb⟩ := hrun
      rw [if_pos (by simpa using hk)]
      simp only [hb, Except.map, reduceCtorEq, false_or, not_lt.2 hk, decide_false]
    · obtain ⟨m, hm, hrest⟩ := h.copy_head
      have hlt : p.read.messages.length < k := not_le.1 hk
      rw [if_neg (by simpa using hk), hm]
      dsimp only
      rw [ih m p.read hrest]
      simp [hlt, not_le.1 hk]

end AttributeMatrix

open AttributeMatrix in
/-- A matrix whose arrays fit is copied unless it has arrays and the flag goes
up with the last of their announcements or earlier. -/
theorem copyAttributes_afterMessages {mask : Mask} {src dst : AttributeMatrix κ} (k : Nat) (label : String)
    (p : Progress) (hc : Copyable mask src dst) :
    (copyAttributes (.afterMessages k) label mask src dst p).1 =
        .ok (decide (src.names = [] ∨ p.messages.length + src.names.length < k)) ∧
      (copyAttributes (.afterMessages k) label mask src dst p).2.2.messages =
        p.messages ++ (src.names.map (label ++ ·)).take (k - p.messages.length) := by
  obtain ⟨hall, htold⟩ := announce_afterMessages k label dst.names p
  unfold copyAttributes
  rw [copyNames_eq_ok.2 ⟨hc.names, rfl⟩, hc.names]
  rcases hrun : announce (.afterMessages k) label dst.names p with ⟨b, q⟩
  rw [hrun] at hall htold
  simp only [hrun]
  cases b with
  | false =>
    refine ⟨?_, htold⟩
    have hno := of_decide_eq_false hall.symm
    rw [decide_eq_false]
    exact fun h => hno (h.imp_right Nat.le_of_lt)
  | true =>
    refine ⟨?_, (messages_copyArrays _ _ _ _ _ q).trans htold⟩
    have hyes := of_decide_eq_true hall.symm
    -- every announcement was made, so the flag is judged by their number
    have hlen : dst.names = [] ∨ q.messages.length = p.messages.length + dst.names.length := by
      refine hyes.imp_right fun hle => ?_
      rw [htold, List.length_append, List.length_take, List.length_map]
      omega
    dsimp only
    rw [copyArrays_afterMessages k _ dst q hc.ready]
    rcases hlen with hnil | hlen
    · simp [hnil]
    · rw [hlen]

/-! ## The whole crop -/

namespace EdgeGeometry

theorem length_announcements (g : EdgeGeometry κ) :
    g.announcements.length = g.vertexData.names.length + g.edgeData.names.length := by
  rw [announcements, List.length_append, List.length_map, List.length_map]

theorem take_announcements (g : EdgeGeometry κ) (k : Nat) :
    g.announcements.take k = (g.vertexData.names.map (vertexLabel ++ ·)).take k ++
      (g.edgeData.names.map (edgeLabel ++ ·)).take (k - g.vertexData.names.length) := by
  rw [announcements, List.take_append, List.length_map]

end EdgeGeometry

variable [Coordinate κ] {s : Selection κ} {src dst : EdgeGeometry κ} {bounds : Box κ} {policy : BoundaryPolicy}

namespace Selection

theorem write_afterMessages {links : List Link} (hl : s.newLinks src = .ok links) (hc : s.Copyable src dst)
    (k : Nat) :
    (s.write (.afterMessages k) src dst).progress.messages = src.announcements.take k ∧
      ((s.write (.afterMessages k) src dst).result = .ok .cancelled ↔
        src.announcements ≠ [] ∧ k ≤ src.announcements.length) := by
  have hcv : AttributeMatrix.Copyable s.keepVertex src.vertexData (s.prepare src dst).vertexData := hc.vertexData
  have hce : AttributeMatrix.Copyable s.keepEdge src.edgeData (s.prepare src dst).edgeData := hc.edgeData
  obtain ⟨hr, hm⟩ := copyAttributes_afterMessages k vertexLabel .start hcv
  unfold write
  rcases hrun : copyAttributes (.afterMessages k) vertexLabel s.keepVertex src.vertexData
    (s.prepare src dst).vertexData .start with ⟨r, m, q⟩
  rw [hrun] at hr hm
  simp only [Progress.start, List.length_nil, Nat.zero_add, Nat.sub_zero, List.nil_append,
    ← List.length_eq_zero_iff (l := src.vertexData.names)] at hr hm
  simp only [hrun, hl, ne_eq, ← List.length_eq_zero_iff (l := src.announcements), src.length_announcements,
    src.take_announcements]
  subst hr
  by_cases hv : src.vertexData.names.length = 0 ∨ src.vertexData.names.length < k
  · -- all vertex arrays were announced, so the edge arrays start from their number
    have hq : q.messages.length = src.vertexData.names.length := by
      rw [hm, List.length_take, List.length_map]
      omega
    obtain ⟨hr, hme⟩ := copyAttributes_afterMessages k edgeLabel q hce
    rw [hq] at hme
    rw [decide_eq_true hv]
    dsimp only
    rw [progress_finish, finish_cancelled_iff]
    refine ⟨hme.trans (by rw [hm]), (Eq.congr_left hr).trans ?_⟩
    rw [Except.ok.injEq, decide_eq_false_iff_not, ← List.length_eq_zero_iff, hq]
    omega
  · rw [decide_eq_false hv]
    dsimp only
    refine ⟨?_, iff_of_true rfl (by omega)⟩
    rw [hm, Nat.sub_eq_zero_of_le (by omega), List.take_zero, List.append_nil]

end Selection

/-- A crop into an empty copy of its source, stopped after `k` messages, says
the first `k` things that it has to say. It is cancelled if it has something
to say and the flag does not come too late for that; otherwise it ends like a
crop that nobody stops. -/
theorem crop_afterMessages {s : Selection κ} (hs : Selection.of src bounds policy = .ok s) (hin : src.InStep)
    (k : Nat) :
    let stopped := crop src src.emptyLike bounds policy (.afterMessages k)
    let free := crop src src.emptyLike bounds policy .never
    stopped.progress.messages = src.announcements.take k ∧
      (stopped.result = .ok .cancelled ↔ src.announcements ≠ [] ∧ k ≤ src.announcements.length) ∧
      (stopped.result ≠ .ok .cancelled → ∃ stats, stopped.result = .ok (.complete stats) ∧
        free.result = .ok (.complete stats) ∧ stopped.destination = free.destination) := by
  intro stopped free
  obtain ⟨links, hl⟩ := Selection.exists_newLinks hs
  have hc := (Selection.copyable_iff hs).2 ⟨src.sameLayout_emptyLike, hin⟩
  have hstopped : stopped = s.write (.afterMessages k) src src.emptyLike := by
    simp only [stopped, crop, hs]
  obtain ⟨hm, hr⟩ := Selection.write_afterMessages hl hc k
  rw [← hstopped] at hm hr
  refine ⟨hm, hr, fun hgo => ⟨s.stats, ?_⟩⟩
  obtain ⟨hr, hd⟩ := (crop_of_copyable hs hl hc (.afterMessages k)).resolve_right fun h => hgo h.1
  obtain ⟨hfr, hfd⟩ := (crop_of_copyable hs hl hc .never).resolve_right fun h => Schedule.not_rises_never h.2
  exact ⟨hr, hfr, hd.trans hfd.symm⟩

/-- The vertices on the axis, with an array of the edges as well. -/
def weighted : EdgeGeometry Float32 :=
  { onAxis with
    edgeData := ⟨"Edge Data", 3, SortedMap.empty.insert "Weights" ⟨.i32, ⟨1, [1, 2, 3], Nat.one_pos, by decide⟩⟩⟩ }

/-- With two things to say, a flag after the second still stops the crop, and
one after the third does not. -/
theorem crop_afterMessages_weighted : weighted.InStep ∧
    weighted.announcements = [vertexLabel ++ "Ids", edgeLabel ++ "Weights"] ∧
    (crop weighted weighted.emptyLike upToMiddle .interpolate (.afterMessages 2)).result = .ok .cancelled ∧
    (crop weighted weighted.emptyLike upToMiddle .interpolate (.afterMessages 2)).progress.messages =
      [vertexLabel ++ "Ids", edgeLabel ++ "Weights"] ∧
    (crop weighted weighted.emptyLike upToMiddle .interpolate (.afterMessages 3)).result ≠ .ok .cancelled := by
  have hin : weighted.InStep := EdgeGeometry.inStep_of_validate (by with_unfolding_all rfl)
  have ha : weighted.announcements = [vertexLabel ++ "Ids", edgeLabel ++ "Weights"] := by with_unfolding_all rfl
  have hs : ∃ s, Selection.of weighted upToMiddle .interpolate = .ok s := ⟨_, by with_unfolding_all rfl⟩
  obtain ⟨s, hs⟩ := hs
  obtain ⟨hm, hr, -⟩ := crop_afterMessages hs hin 2
  obtain ⟨-, hr', -⟩ := crop_afterMessages hs hin 3
  rw [ha] at hm hr hr'
  exact ⟨hin, ha, hr.2 ⟨nofun, by decide⟩, hm, fun h => absurd (hr'.1 h).2 (by decide)⟩

end Wireframe
