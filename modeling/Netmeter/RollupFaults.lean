import Netmeter.RollupRuns
set_option autoImplicit false

/-!
Every way in which the statements of one rollup call can fail, and when the
rollup tables survive it.
-/

namespace Netmeter
open Keyed Transaction

/-- Tables and watermark are as before the call, or hold the incremental fold of
every sample newer than the old watermark `m`. -/
def HistoryIntact (bucket : Level → ℤ → ℤ) (m : ℤ) (db db' : Db) : Prop :=
  ((∀ L, db'.level L = db.level L) ∧ db'.lastRollupTs = some m) ∨
    (newerThan (some m) db.samples.rows ≠ [] ∧
      (∀ L, db'.level L =
        (db.level L).addAll (bucketed (bucket L) (newerThan (some m) db.samples.rows))) ∧
      db'.lastRollupTs = some (maxTs (newerThan (some m) db.samples.rows)))

/-- The watermark was read, and the rows that could not be fetched change neither
a bucket's sums nor the newest timestamp. -/
def SkipsNothing (bucket : Level → ℤ → ℤ) (m : ℤ) (f : Faults) (db : Db) : Prop :=
  f .readMarker = false ∧
    maxTs (rollupRows f db) = maxTs (newerThan (some m) db.samples.rows) ∧
    ∀ L k, (db.level L).cell k + total (inBucket (bucket L) k) (rollupRows f db) =
      (db.level L).cell k + total (inBucket (bucket L) k) (newerThan (some m) db.samples.rows)

/-- The watermark could not be read, but the surviving samples alone still add up
to the tables as they were, or as they should become. -/
def NothingPruned (bucket : Level → ℤ → ℤ) (m : ℤ) (f : Faults) (db : Db) : Prop :=
  f .readMarker = true ∧
    ((maxTs (rollupRows f db) = m ∧
        ∀ L k, total (inBucket (bucket L) k) (rollupRows f db) = (db.level L).cell k) ∨
      (newerThan (some m) db.samples.rows ≠ [] ∧
        maxTs (rollupRows f db) = maxTs (newerThan (some m) db.samples.rows) ∧
        ∀ L k, total (inBucket (bucket L) k) (rollupRows f db) =
          (db.level L).cell k +
            total (inBucket (bucket L) k) (newerThan (some m) db.samples.rows)))

variable {bucket : Level → ℤ → ℤ} {f : Faults} {db : Db} {m : ℤ}

theorem rollupMarker_eq_some (hm : db.lastRollupTs = some m) (hr : f .readMarker = false) :
    rollupMarker f db = some m := by
  simp [rollupMarker, hr, hm]

theorem rollupMarker_eq_none (hr : f .readMarker = true) : rollupMarker f db = none := by
  simp [rollupMarker, hr]

theorem addAll_bucketed_eq_iff (t t' : Table Key Counts) (g : ℤ → ℤ) (l l' : List Sample) :
    t.addAll (bucketed g l) = t'.addAll (bucketed g l') ↔
      ∀ k, t.cell k + total (inBucket g k) l = t'.cell k + total (inBucket g k) l' := by
  rw [Table.addAll_eq_iff]
  simp only [total_bucketed]
  rfl

theorem empty_addAll_eq_iff (t : Table Key Counts) (g : ℤ → ℤ) (l : List Sample) :
    (∅ : Table Key Counts).addAll (bucketed g l) = t ↔
      ∀ k, total (inBucket g k) l = t.cell k := by
  have h := addAll_bucketed_eq_iff ∅ t g l []
  simpa [bucketed] using h

theorem intact_of_marker (hm : db.lastRollupTs = some m) (hr : f .readMarker = false)
    (hne : rollupRows f db ≠ []) :
    HistoryIntact bucket m db (db.folded bucket false (rollupRows f db)) ↔
      SkipsNothing bucket m f db := by
  have hsub : ∀ r ∈ rollupRows f db, r ∈ newerThan (some m) db.samples.rows := by
    intro r h
    have h' := (fetch_sublist f 0 _).subset h
    rwa [rollupMarker_eq_some hm hr] at h'
  obtain ⟨⟨r, hrow, he⟩, -⟩ := maxTs_spec hne
  have hgt : m < maxTs (rollupRows f db) :=
    he ▸ (mem_newerThan.mp (hsub r hrow)).2 m rfl
  have hnew : newerThan (some m) db.samples.rows ≠ [] := List.ne_nil_of_mem (hsub r hrow)
  unfold HistoryIntact SkipsNothing
  constructor
  · rintro (⟨-, hts⟩ | ⟨-, hlev, hts⟩)
    · have hts' : maxTs (rollupRows f db) = m := Option.some.inj hts
      omega
    · refine ⟨hr, Option.some.inj hts, fun L => ?_⟩
      have hL := hlev L
      rwa [Db.level_folded, if_neg (by simp), addAll_bucketed_eq_iff] at hL
  · rintro ⟨-, hts, hcell⟩
    refine .inr ⟨hnew, fun L => ?_, congrArg some hts⟩
    rw [Db.level_folded, if_neg (by simp), addAll_bucketed_eq_iff]
    exact hcell L

theorem intact_of_rebuild (hr : f .readMarker = true) :
    HistoryIntact bucket m db (db.folded bucket true (rollupRows f db)) ↔
      NothingPruned bucket m f db := by
  have hlev : ∀ L, (db.folded bucket true (rollupRows f db)).level L =
      (∅ : Table Key Counts).addAll (bucketed (bucket L) (rollupRows f db)) := fun L => by
    rw [Db.level_folded, if_pos rfl]
  have hts : (db.folded bucket true (rollupRows f db)).lastRollupTs =
      some (maxTs (rollupRows f db)) := rfl
  unfold HistoryIntact NothingPruned
  simp only [hlev, hts, hr, true_and, Option.some.injEq, empty_addAll_eq_iff, Table.cell_addAll,
    total_bucketed]
  constructor
  · rintro (⟨hc, he⟩ | ⟨hne, hc, he⟩)
    · exact .inl ⟨he, hc⟩
    · exact .inr ⟨hne, he, hc⟩
  · rintro (⟨he, hc⟩ | ⟨hne, he, hc⟩)
    · exact .inl ⟨hc, he⟩
    · exact .inr ⟨hne, hc, he⟩

/-- Exactly when a rollup call with failing statements leaves the history intact:
it commits nothing, or loses no row and no watermark that matters. -/
theorem history_intact_iff (bucket : Level → ℤ → ℤ) (f : Faults) (db : Db) (m : ℤ)
    (hm : db.lastRollupTs = some m) :
    HistoryIntact bucket m db (rollupCall bucket f db) ↔
      ¬ Commits bucket f db ∨ SkipsNothing bucket m f db ∨ NothingPruned bucket m f db := by
  rcases rollupCall_cases bucket f db with ⟨hc, he⟩ | ⟨hc, he⟩
  · rw [he, or_iff_right (not_not_intro hc)]
    cases hr : f .readMarker with
    | false =>
      rw [rollupMarker_eq_some hm hr, Option.isNone_some, intact_of_marker hm hr hc.2.1]
      exact (or_iff_left (fun h => by simp [NothingPruned, hr] at h)).symm
    | true =>
      rw [rollupMarker_eq_none hr, Option.isNone_none, intact_of_rebuild hr]
      exact (or_iff_right (fun h => by simp [SkipsNothing, hr] at h)).symm
  · rw [he]
    exact iff_of_true (.inl ⟨fun _ => rfl, hm⟩) (.inl hc)

/-- A database whose folded raw sample is pruned, with one newer sample. -/
def prunedDb : Db :=
  { Db.init with
    samples := Table.group [(⟨1800000000, "eth0"⟩, ⟨1, 1, 0, 0⟩)]
    daily := Table.group [(⟨1700006400, "eth0"⟩, ⟨4096, 0, 0, 0⟩)]
    lastRollupTs := some 1700010000 }

/-- The failed read of the watermark passes for a missing one: the rebuild drops
the bucket of the pruned sample. -/
theorem not_history_intact :
    ¬ ∀ (bucket : Level → ℤ → ℤ) (f : Faults) (db : Db) (m : ℤ), db.lastRollupTs = some m →
      HistoryIntact bucket m db (rollupCall bucket f db) := by
  intro h
  have hd := h (Level.floor .utc) (fun s => s = .readMarker) prunedDb 1700010000 rfl
  rcases hd with ⟨-, hts⟩ | ⟨-, hlev, -⟩
  · exact absurd hts (by decide)
  · exact absurd (hlev .daily) (by decide)

/-- The same two samples with nothing pruned yet. -/
def keptDb : Db :=
  { rollupCall (Level.floor .utc) noFaults
      { Db.init with samples := Table.group [(⟨1700010000, "eth0"⟩, ⟨4096, 0, 0, 0⟩)] } with
    samples := Table.group
      [(⟨1700010000, "eth0"⟩, ⟨4096, 0, 0, 0⟩), (⟨1800000000, "eth0"⟩, ⟨1, 1, 0, 0⟩)] }

/-- There the failed read of the watermark is harmless: the rebuild has every row. -/
theorem history_intact_iff_kept :
    HistoryIntact (Level.floor .utc) 1700010000 keptDb
      (rollupCall (Level.floor .utc) (fun s => s = .readMarker) keptDb) := by
  refine (history_intact_iff (Level.floor .utc) (fun s => s = .readMarker) keptDb 1700010000
    (by decide +kernel)).mpr (.inr (.inr ⟨by decide, .inr ⟨by decide +kernel, by decide +kernel,
      fun L k => ?_⟩⟩))
  have htables : ∀ L : Level,
      (∅ : Table Key Counts).addAll (bucketed (Level.floor .utc L)
        (rollupRows (fun s => s = .readMarker) keptDb)) =
      (keptDb.level L).addAll (bucketed (Level.floor .utc L)
        (newerThan (some 1700010000) keptDb.samples.rows)) := fun L => by
    cases L <;> decide +kernel
  simpa using (addAll_bucketed_eq_iff _ _ _ _ _).mp (htables L) k

end Netmeter
