import Mathlib.Data.List.Perm.Subperm

/-!
# The attachment sweep

`prune.py` deletes the expired attachments a batch at a time and stops at a
batch of which nothing could be deleted. The batches are not ordered, so
enough files that refuse to be unlinked hide the others.
-/
namespace CommPlatform.Server

/-- `BATCH`. mirrors prune.py:24 -/
def batchSize : Nat := 1000

structure AttachmentRow where
  id : Nat
  createdDate : Nat
deriving DecidableEq

structure AttachmentStore where
  rows : List AttachmentRow
  files : List Nat

variable (stuck : Nat → Bool)

/-- The rows deleted, the files removed and what is left, if `stuck` files refuse to be unlinked.
mirrors attachments/services.py:65-98 -/
def purge (attachments : List AttachmentRow) (s : AttachmentStore) : Nat × Nat × AttachmentStore :=
  let doomed := (attachments.filter fun a => a.id ∉ s.files ∨ !stuck a.id).map (·.id)
  let rows := s.rows.filter (·.id ∉ doomed)
  (s.rows.length - rows.length, (doomed.filter (· ∈ s.files)).length,
    { rows, files := s.files.filter (· ∉ doomed) })

def AttachmentStore.expired (cutoff : Nat) (s : AttachmentStore) : List AttachmentRow :=
  s.rows.filter (·.createdDate < cutoff)

/-- `pick` is what the query answers at each round. mirrors prune.py:162-182 -/
def pruneAttachments (cutoff : Nat) (pick : Nat → List AttachmentRow → List AttachmentRow)
    (round : Nat) (s : AttachmentStore) : Nat × Nat × AttachmentStore :=
  let batch := pick round (s.expired cutoff)
  if batch = [] then (0, 0, s)
  else
    let purged := purge stuck batch s
    if purged.1 = 0 then purged
    else
      let rest := pruneAttachments cutoff pick (round + 1) purged.2.2
      (purged.1 + rest.1, purged.2.1 + rest.2.1, rest.2.2)
termination_by s.rows.length
decreasing_by
  rename_i h
  simp only [purged, batch, purge] at h ⊢
  omega

/-- A batch of the rows, or all of them if there are fewer, in any order. -/
def Picks (pick : Nat → List AttachmentRow → List AttachmentRow) : Prop :=
  ∀ round rows, (pick round rows).Subperm rows ∧
    (pick round rows).length = min batchSize rows.length

/-- The row has a file, and the file refuses to be unlinked. -/
def AttachmentStore.refuses (s : AttachmentStore) (a : AttachmentRow) : Bool :=
  a.id ∈ s.files ∧ stuck a.id

variable {stuck} {cutoff : Nat} {pick : Nat → List AttachmentRow → List AttachmentRow}

theorem purge_spec (batch : List AttachmentRow) (s : AttachmentStore) :
    let s' := (purge stuck batch s).2.2
    s'.rows.Sublist s.rows ∧ s'.files ⊆ s.files ∧
      (∀ a ∈ s.rows, a ∉ s'.rows → a.id ∉ s'.files) ∧ s'.refuses stuck = s.refuses stuck := by
  refine ⟨List.filter_sublist, List.filter_sublist.subset, fun a ha hno => ?_, funext fun a => ?_⟩
  · simp only [purge] at hno ⊢
    grind
  · simp only [purge, AttachmentStore.refuses]
    grind

variable {s : AttachmentStore}

theorem refuses_of_purge_eq_zero {batch : List AttachmentRow}
    (hbatch : batch ⊆ s.rows) (h : (purge stuck batch s).1 = 0) {a : AttachmentRow}
    (ha : a ∈ batch) : s.refuses stuck a = true := by
  by_contra hs
  have hlt : (s.rows.filter
      (·.id ∉ (batch.filter fun a => a.id ∉ s.files ∨ !stuck a.id).map (·.id))).length <
        s.rows.length :=
    List.length_filter_lt_length_iff_exists.2
      ⟨a, hbatch ha, by grind [AttachmentStore.refuses]⟩
  simp only [purge] at h
  omega

variable (stuck cutoff s) in
/-- Of the expired files too few refuse to fill a batch, or all do. -/
def AttachmentStore.Sweepable : Prop :=
  ((s.expired cutoff).filter (s.refuses stuck)).length < batchSize ∨
    ∀ a ∈ s.expired cutoff, s.refuses stuck a = true

theorem refuses_of_last {round : Nat} (hpick : Picks pick) (h : s.Sweepable stuck cutoff)
    (hall : ∀ a ∈ pick round (s.expired cutoff), s.refuses stuck a = true) :
    ∀ a ∈ s.expired cutoff, s.refuses stuck a = true := by
  obtain hfew | h := h
  · obtain ⟨hsub, hlen⟩ := hpick round (s.expired cutoff)
    have hle := (hsub.filter (s.refuses stuck)).length_le
    rw [List.filter_eq_self.2 hall] at hle
    have hperm := hsub.perm_of_length_le (by omega)
    exact fun a ha => hall a (hperm.mem_iff.2 ha)
  · exact h

/-- The sweep ends, no row goes without its file, and what can be cleared is cleared. -/
theorem prune_spec (hpick : Picks pick) (round : Nat) (s : AttachmentStore) :
    let s' := (pruneAttachments stuck cutoff pick round s).2.2
    s'.rows ⊆ s.rows ∧ s'.files ⊆ s.files ∧ (∀ a ∈ s.rows, a ∉ s'.rows → a.id ∉ s'.files) ∧
      (s.Sweepable stuck cutoff →
        ∀ a ∈ s.expired cutoff, s.refuses stuck a = false → a ∉ s'.rows) := by
  fun_induction pruneAttachments stuck cutoff pick round s with
  | case1 round s batch hnil =>
    refine ⟨fun _ => id, fun _ => id, fun a ha hno => absurd ha hno, fun hclear a ha hs => ?_⟩
    have hall := refuses_of_last hpick hclear (fun b (hb : b ∈ batch) => by simp [hnil] at hb) a ha
    exact absurd (hs.symm.trans hall) (by decide)
  | case2 round s batch hne purged hzero =>
    have hbatch : batch ⊆ s.rows := fun _ h =>
      List.filter_sublist.subset ((hpick round _).1.subset h)
    obtain ⟨hrows, hfiles, hgone, -⟩ := @purge_spec stuck batch s
    refine ⟨hrows.subset, hfiles, hgone, fun hclear a ha hs => ?_⟩
    have hall := refuses_of_last hpick hclear (fun _ => refuses_of_purge_eq_zero hbatch hzero) a ha
    exact absurd (hs.symm.trans hall) (by decide)
  | case3 round s batch hne purged hzero rest ih =>
    obtain ⟨hrows, hfiles, hgone, hrefuses⟩ := @purge_spec stuck batch s
    obtain ⟨irows, ifiles, igone, ih⟩ := ih
    refine ⟨fun _ h => hrows.subset (irows h), fun _ h => hfiles (ifiles h), fun a ha hno => ?_,
      fun hclear a ha hs h => ?_⟩
    · by_cases hmid : a ∈ purged.2.2.rows
      · exact igone a hmid hno
      · exact fun h => hgone a ha hmid (ifiles h)
    · have hexpired : (purged.2.2.expired cutoff).Sublist (s.expired cutoff) :=
        hrows.filter _
      have hstill : purged.2.2.Sweepable stuck cutoff := by
        rw [AttachmentStore.Sweepable, hrefuses]
        exact hclear.imp (Nat.lt_of_le_of_lt (hexpired.filter _).length_le)
          fun hall a ha => hall a (hexpired.subset ha)
      exact ih hstill a (List.mem_filter.2 ⟨irows h, (List.mem_filter.1 ha).2⟩) (hrefuses ▸ hs) h

theorem prune_blocked {round : Nat}
    (h : ∀ a ∈ pick round (s.expired cutoff), s.refuses stuck a = true) :
    (pruneAttachments stuck cutoff pick round s).2.2 = s := by
  have hdoomed : ((pick round (s.expired cutoff)).filter
      fun a => a.id ∉ s.files ∨ !stuck a.id) = [] :=
    List.filter_eq_nil_iff.2 fun a ha => by simpa [AttachmentStore.refuses] using h a ha
  have hpurge : purge stuck (pick round (s.expired cutoff)) s = (0, 0, s) := by
    simp only [purge, hdoomed]
    simp
  rw [pruneAttachments, hpurge]
  split_ifs <;> rfl

theorem picks_first (first : AttachmentRow → Bool) :
    Picks fun _ rows => (rows.filter first ++ rows.filter (!first ·)).take batchSize :=
  fun _ rows => ⟨(List.take_sublist _ _).subperm.trans (List.filter_append_perm first rows).subperm,
    by rw [List.length_take, (List.filter_append_perm first rows).length_eq]⟩

/-- However the batches are picked, the sweep ends and no row goes without its file. Every expired
row whose file does not refuse is gone, and its file with it, for every way to pick the batches
exactly if fewer of the expired rows refuse than fill a batch, or all do. -/
theorem sweep_finishes (stuck : Nat → Bool) (cutoff : Nat) (s : AttachmentStore) :
    (∀ pick, Picks pick →
      let s' := (pruneAttachments stuck cutoff pick 0 s).2.2
      s'.rows ⊆ s.rows ∧ s'.files ⊆ s.files ∧ ∀ a ∈ s.rows, a ∉ s'.rows → a.id ∉ s'.files) ∧
    ((∀ pick, Picks pick →
        let s' := (pruneAttachments stuck cutoff pick 0 s).2.2
        ∀ a ∈ s.expired cutoff, s.refuses stuck a = false → a ∉ s'.rows ∧ a.id ∉ s'.files) ↔
      ((s.expired cutoff).filter (s.refuses stuck)).length < batchSize ∨
        ∀ a ∈ s.expired cutoff, s.refuses stuck a = true) := by
  refine ⟨fun pick hpick => ?_, fun h => ?_, fun hclear pick hpick a ha hs => ?_⟩
  · obtain ⟨hrows, hfiles, hgone, -⟩ := @prune_spec stuck cutoff pick hpick 0 s
    exact ⟨hrows, hfiles, hgone⟩
  · by_contra hno
    obtain ⟨hmany, hsome⟩ := not_or.mp hno
    rw [Nat.not_lt] at hmany
    push Not at hsome
    obtain ⟨a, ha, hs⟩ := hsome
    -- a batch of refusing rows hides `a`
    have hgone := (h _ (picks_first (s.refuses stuck)) a ha (by simpa using hs)).1
    rw [prune_blocked] at hgone
    swap
    · intro b hb
      rw [List.take_append_of_le_length hmany] at hb
      exact (List.mem_filter.1 (List.take_subset _ _ hb)).2
    exact hgone (List.mem_filter.1 ha).1
  · obtain ⟨-, -, hgone, hclears⟩ := @prune_spec stuck cutoff pick hpick 0 s
    have hno := hclears hclear a ha hs
    exact ⟨hno, hgone a (List.mem_filter.1 ha).1 hno⟩

theorem picks_take : Picks fun _ rows => rows.take batchSize := fun _ rows =>
  ⟨(List.take_sublist _ rows).subperm, List.length_take⟩

/-- Row 0 refuses, row 2 has lost its file, and row 3 is not expired. -/
theorem sweep_finishes_stuck_one :
    let s' := (pruneAttachments (· ≠ 1) 9 (fun _ rows => rows.take batchSize) 0
      ⟨[⟨0, 1⟩, ⟨1, 1⟩, ⟨2, 1⟩, ⟨3, 9⟩], [0, 1, 3]⟩).2.2
    ∀ a ∈ [⟨1, 1⟩, ⟨2, 1⟩], a ∉ s'.rows ∧ a.id ∉ s'.files := by
  have h := (sweep_finishes (· ≠ 1) 9 ⟨[⟨0, 1⟩, ⟨1, 1⟩, ⟨2, 1⟩, ⟨3, 9⟩], [0, 1, 3]⟩).2.2
    (.inl (by decide)) _ picks_take
  intro s' a ha
  exact h a (by revert a; decide) (by revert a; decide)

def stuckStore : AttachmentStore :=
  ⟨(List.range (batchSize + 1)).map (⟨·, 0⟩), List.range (batchSize + 1)⟩

/-- The files of the first batch are stuck, and the row behind them is never seen. -/
theorem sweep_hides_row :
    (pruneAttachments (· < batchSize) 9 (fun _ rows => rows.take batchSize) 0 stuckStore).2.2 =
      stuckStore := by
  unfold stuckStore
  generalize batchSize = b
  refine prune_blocked fun a ha => ?_
  have hexpired (files) : AttachmentStore.expired 9 ⟨(List.range (b + 1)).map (⟨·, 0⟩), files⟩ =
      (List.range (b + 1)).map (⟨·, 0⟩) := by
    simp [AttachmentStore.expired, List.filter_map, Function.comp_def]
  rw [hexpired, ← List.map_take, List.take_range] at ha
  obtain ⟨n, hn, rfl⟩ := List.mem_map.1 ha
  simp only [AttachmentStore.refuses, List.mem_range, decide_eq_true_eq] at hn ⊢
  omega

end CommPlatform.Server
