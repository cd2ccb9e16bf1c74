import Netmeter.Db
set_option autoImplicit false

/-!
Runs of sample inserts, rollups and pruning, with the history of every sample
ever inserted as ghost state.
-/

namespace Netmeter
open Keyed Transaction

def upTo (last : Option ℤ) (rows : List Sample) : List Sample :=
  match last with
  | none => []
  | some m => rows.filter (fun r => r.1.ts ≤ m)

theorem mem_newerThan {last : Option ℤ} {rows : List Sample} {r : Sample} :
    r ∈ newerThan last rows ↔ r ∈ rows ∧ ∀ m, last = some m → m < r.1.ts := by
  cases last <;> simp [newerThan]

theorem mem_upTo {last : Option ℤ} {rows : List Sample} {r : Sample} :
    r ∈ upTo last rows ↔ r ∈ rows ∧ ∃ m, last = some m ∧ r.1.ts ≤ m := by
  cases last <;> simp [upTo]

theorem newerThan_append (last : Option ℤ) (l l' : List Sample) :
    newerThan last (l ++ l') = newerThan last l ++ newerThan last l' := by
  cases last <;> simp [newerThan]

theorem upTo_append (last : Option ℤ) (l l' : List Sample) :
    upTo last (l ++ l') = upTo last l ++ upTo last l' := by
  cases last <;> simp [upTo]

theorem newerThan_perm {last : Option ℤ} {l l' : List Sample} (h : l.Perm l') :
    (newerThan last l).Perm (newerThan last l') := by
  cases last
  · exact h
  · exact h.filter _

theorem maxTs_perm {l l' : List Sample} (h : l.Perm l') (hne : l ≠ []) : maxTs l = maxTs l' := by
  have hne' : l' ≠ [] := fun e => hne (by rw [e] at h; exact h.eq_nil)
  obtain ⟨⟨r, hr, he⟩, hmax⟩ := maxTs_spec hne'
  exact maxTs_eq ⟨r, h.mem_iff.mpr hr, he⟩ (fun s hs => hmax s (h.mem_iff.mp hs))

theorem le_maxTs_newerThan {last : Option ℤ} {rows : List Sample} (hne : newerThan last rows ≠ []) :
    ∀ r ∈ rows, r.1.ts ≤ maxTs (newerThan last rows) := by
  intro r hr
  obtain ⟨⟨t, ht, hte⟩, hmax⟩ := maxTs_spec hne
  by_cases hnew : r ∈ newerThan last rows
  · exact hmax r hnew
  · -- an older row is below the watermark, hence below every newer one
    rw [mem_newerThan] at hnew
    push Not at hnew
    obtain ⟨m, hm, hle⟩ := hnew hr
    have hlt := (mem_newerThan.mp ht).2 m hm
    omega

theorem total_upTo_add (last : Option ℤ) (p : Key → Bool) (rows : List Sample) :
    total p (upTo last rows) + total p (newerThan last rows) = total p rows := by
  cases last with
  | none => simp [upTo, newerThan]
  | some m =>
    simp only [upTo, newerThan]
    rw [total_filter p (fun k : Key => decide (k.ts ≤ m)),
      total_filter p (fun k : Key => decide (m < k.ts)),
      total_split p (fun k => decide (k.ts ≤ m)) rows]
    congr 1
    · exact total_congr (fun r _ => Bool.and_comm _ _)
    · refine total_congr (fun r _ => ?_)
      rw [Bool.and_comm, ← decide_not]
      simp only [not_le]

theorem upTo_eq_self {m : ℤ} {rows : List Sample} (h : ∀ r ∈ rows, r.1.ts ≤ m) :
    upTo (some m) rows = rows := by
  simpa [upTo] using h

theorem upTo_caughtUp {db : Db}
    (h : db.samples.rows ≠ [] → db.lastRollupTs = some (maxTs db.samples.rows)) :
    upTo db.lastRollupTs db.samples.rows = db.samples.rows := by
  by_cases hne : db.samples.rows = []
  · rw [hne]
    cases db.lastRollupTs <;> rfl
  · rw [h hne]
    exact upTo_eq_self (maxTs_spec hne).2

theorem newerThan_eq_nil {m : ℤ} {rows : List Sample} (h : ∀ r ∈ rows, r.1.ts ≤ m) :
    newerThan (some m) rows = [] := by
  simpa [newerThan] using h

instance (bucket : Level → ℤ → ℤ) (f : Faults) (db : Db) : Decidable (Commits bucket f db) :=
  inferInstanceAs (Decidable (_ ∧ _ ∧ ∀ a ∈ _, _ = _))

/-- The call read the watermark and every row above it. -/
def Complete (f : Faults) (db : Db) : Prop :=
  rollupMarker f db = db.lastRollupTs ∧
    rollupRows f db = newerThan db.lastRollupTs db.samples.rows

def notAfter (last : Option ℤ) (t : ℤ) : Bool :=
  match last with
  | none => false
  | some m => t ≤ m

theorem total_upTo (last : Option ℤ) (p : Key → Bool) (rows : List Sample) :
    total p (upTo last rows) = total (fun k => notAfter last k.ts && p k) rows := by
  cases last with
  | none => simp [upTo, notAfter, total_false]
  | some m => exact total_filter p (fun k : Key => decide (k.ts ≤ m)) rows

/-- The database with every sample ever inserted, in order. -/
structure Ledger where
  db : Db
  hist : List Sample

inductive RollupEvent where
  | insert (ts : ℤ) (rows : List (String × Counts))
  | rollup (f : Faults)
  | prune (del : Key → Bool)

def Ledger.step (bucket : Level → ℤ → ℤ) (s : Ledger) : RollupEvent → Ledger
  | .insert ts rows => ⟨s.db.insertSamples ts rows, s.hist ++ tickRows ts rows⟩
  | .rollup f => ⟨rollupCall bucket f s.db, s.hist⟩
  | .prune del => ⟨{ s.db with samples := s.db.samples.filter (fun k => !del k) }, s.hist⟩

/-- Ticks move forward in time and name an interface once, a rollup fails in its
write transaction if it fails, and only folded samples are deleted. -/
def Ledger.Admissible (s : Ledger) : RollupEvent → Prop
  | .insert ts rows => (∀ r ∈ s.hist, r.1.ts < ts) ∧ (rows.map (·.1)).Nodup
  | .rollup f => ReadsOk f
  | .prune del => ∀ k, del k = true → ∃ m, s.db.lastRollupTs = some m ∧ k.ts ≤ m

def Ledger.init : Ledger := ⟨Db.init, []⟩

def inBucket (bucket : ℤ → ℤ) (k : Key) : Key → Bool :=
  fun k' => k'.name = k.name && bucket k'.ts = k.ts

theorem inBucket_iff {bucket : ℤ → ℤ} {k k' : Key} :
    inBucket bucket k k' = true ↔ k'.name = k.name ∧ bucket k'.ts = k.ts := by
  simp [inBucket]

/-- Each table holds the sums over the history up to the watermark, and what is
newer is still in `samples`. -/
structure Booked (bucket : Level → ℤ → ℤ) (s : Ledger) : Prop where
  cells : ∀ L k, (s.db.level L).cell k =
    total (inBucket (bucket L) k) (upTo s.db.lastRollupTs s.hist)
  pending : (newerThan s.db.lastRollupTs s.db.samples.rows).Perm
    (newerThan s.db.lastRollupTs s.hist)
  kept : ∀ r ∈ s.db.samples.rows, r ∈ s.hist
  marker : ∀ m, s.db.lastRollupTs = some m → ∃ r ∈ s.hist, r.1.ts = m
  keys : (s.hist.map (·.1)).Nodup

variable {bucket : Level → ℤ → ℤ}

theorem booked_init : Booked bucket Ledger.init where
  cells L k := by cases L <;> rfl
  pending := List.Perm.refl _
  kept r hr := by simp [Ledger.init, Db.init] at hr
  marker m hm := by simp [Ledger.init, Db.init] at hm
  keys := List.nodup_nil

theorem booked_insert {s : Ledger} {ts : ℤ} {rows : List (String × Counts)}
    (h : Booked bucket s) (hts : ∀ r ∈ s.hist, r.1.ts < ts) (hnodup : (rows.map (·.1)).Nodup) :
    Booked bucket (s.step bucket (.insert ts rows)) := by
  have hperm := insertSamples_perm
    (fun r hr => (hts r (h.kept r hr)).ne) hnodup
  have hmem : ∀ r ∈ tickRows ts rows, r.1.ts = ts := fun r hr => ts_of_mem_tickRows hr
  have hold : upTo s.db.lastRollupTs (tickRows ts rows) = [] := by
    rw [List.eq_nil_iff_forall_not_mem]
    intro r hr
    obtain ⟨hr, m, hm, hle⟩ := mem_upTo.mp hr
    obtain ⟨r', hr', he⟩ := h.marker m hm
    have := hts r' hr'
    have := hmem r hr
    omega
  constructor
  · intro L k
    show (s.db.level L).cell k = total _ (upTo s.db.lastRollupTs (s.hist ++ tickRows ts rows))
    rw [upTo_append, hold, List.append_nil]
    exact h.cells L k
  · show (newerThan s.db.lastRollupTs (s.db.insertSamples ts rows).samples.rows).Perm
      (newerThan s.db.lastRollupTs (s.hist ++ tickRows ts rows))
    refine (newerThan_perm hperm).trans ?_
    rw [newerThan_append, newerThan_append]
    exact h.pending.append_right _
  · intro r hr
    rcases List.mem_append.mp (hperm.mem_iff.mp hr) with hr | hr
    · exact List.mem_append_left _ (h.kept r hr)
    · exact List.mem_append_right _ hr
  · intro m hm
    obtain ⟨r, hr, he⟩ := h.marker m hm
    exact ⟨r, List.mem_append_left _ hr, he⟩
  · show ((s.hist ++ tickRows ts rows).map (·.1)).Nodup
    rw [List.map_append, List.nodup_append]
    refine ⟨h.keys, ?_, ?_⟩
    · exact tickRows_nodup hnodup ts
    · intro a ha b hb e
      obtain ⟨r, hr, rfl⟩ := List.mem_map.mp ha
      obtain ⟨r', hr', rfl⟩ := List.mem_map.mp hb
      have h1 := hts r hr
      have h2 := hmem r' hr'
      rw [e] at h1
      omega

theorem booked_folded {s : Ledger} (h : Booked bucket s) {rows : List Sample}
    (hrows : rows = newerThan s.db.lastRollupTs s.db.samples.rows) (hne : rows ≠ []) :
    (∀ r ∈ s.hist, r.1.ts ≤ maxTs rows) ∧
      Booked bucket ⟨s.db.folded bucket s.db.lastRollupTs.isNone rows, s.hist⟩ := by
  have hperm : rows.Perm (newerThan s.db.lastRollupTs s.hist) := hrows ▸ h.pending
  obtain ⟨⟨t, ht, hte⟩, -⟩ := maxTs_spec hne
  have hall : ∀ r ∈ s.hist, r.1.ts ≤ maxTs rows := by
    rw [maxTs_perm hperm hne]
    exact le_maxTs_newerThan (List.ne_nil_of_mem (hperm.mem_iff.mp ht))
  refine ⟨hall, ?_⟩
  constructor
  · intro L k
    show ((s.db.folded bucket s.db.lastRollupTs.isNone rows).level L).cell k =
      total _ (upTo (some (maxTs rows)) s.hist)
    rw [Db.level_folded, Table.cell_addAll, total_bucketed, upTo_eq_self hall,
      ← total_upTo_add s.db.lastRollupTs _ s.hist]
    show _ + total (inBucket (bucket L) k) rows = _
    rw [total_perm _ hperm]
    congr 1
    cases hl : s.db.lastRollupTs with
    | none => simp [upTo]
    | some m =>
      have hc := h.cells L k
      rw [hl] at hc
      simpa using hc
  · show (newerThan (some (maxTs rows)) s.db.samples.rows).Perm
      (newerThan (some (maxTs rows)) s.hist)
    rw [newerThan_eq_nil hall, newerThan_eq_nil (fun r hr => hall r (h.kept r hr))]
  · exact h.kept
  · intro m hm
    have hm' : maxTs rows = m := by simpa [Db.folded] using hm
    exact ⟨t, (mem_newerThan.mp (hperm.mem_iff.mp ht)).1, hm' ▸ hte⟩
  · exact h.keys

theorem rollupRows_of_readsOk {f : Faults} (hf : ReadsOk f) (db : Db) :
    rollupRows f db = newerThan db.lastRollupTs db.samples.rows := by
  rw [rollupRows, rollupMarker_of_readsOk hf, fetch_of_readsOk hf]

theorem booked_rollup {s : Ledger} {f : Faults} (h : Booked bucket s) (hf : ReadsOk f) :
    Booked bucket (s.step bucket (.rollup f)) := by
  rcases rollupCall_cases bucket f s.db with ⟨⟨-, hne, -⟩, he⟩ | ⟨-, he⟩
  · show Booked bucket ⟨rollupCall bucket f s.db, s.hist⟩
    rw [he, rollupMarker_of_readsOk hf]
    exact (booked_folded h (rollupRows_of_readsOk hf s.db) hne).2
  · show Booked bucket ⟨rollupCall bucket f s.db, s.hist⟩
    rw [he]
    exact h

theorem booked_prune {s : Ledger} {del : Key → Bool} (h : Booked bucket s)
    (hdel : ∀ k, del k = true → ∃ m, s.db.lastRollupTs = some m ∧ k.ts ≤ m) :
    Booked bucket (s.step bucket (.prune del)) := by
  have hsame : newerThan s.db.lastRollupTs (s.db.samples.filter (fun k => !del k)).rows =
      newerThan s.db.lastRollupTs s.db.samples.rows := by
    rw [Table.rows_filter]
    cases hl : s.db.lastRollupTs with
    | none =>
      refine List.filter_eq_self.mpr (fun r _ => ?_)
      by_contra hd
      obtain ⟨m, hm, -⟩ := hdel r.1 (by simpa using hd)
      simp [hl] at hm
    | some m =>
      simp only [newerThan, List.filter_filter]
      refine List.filter_congr (fun r _ => ?_)
      by_cases hd : del r.1
      · obtain ⟨m', hm', hle⟩ := hdel r.1 hd
        obtain rfl : m = m' := by simpa [hl] using hm'
        simp [hd, hle]
      · simp [hd]
  constructor
  · exact h.cells
  · show (newerThan s.db.lastRollupTs (s.db.samples.filter (fun k => !del k)).rows).Perm _
    rw [hsame]
    exact h.pending
  · intro r hr
    exact h.kept r (List.mem_of_mem_filter hr)
  · exact h.marker
  · exact h.keys

theorem booked_step (s : Ledger) (e : RollupEvent) (h : Booked bucket s)
    (he : s.Admissible e) : Booked bucket (s.step bucket e) := by
  cases e with
  | insert ts rows => exact booked_insert h he.1 he.2
  | rollup f => exact booked_rollup h he
  | prune del => exact booked_prune h he

theorem booked_run {es : List RollupEvent}
    (h : Along (Ledger.step bucket) Ledger.Admissible Ledger.init es) :
    Booked bucket (es.foldl (Ledger.step bucket) Ledger.init) :=
  along_invariant (Booked bucket) booked_step booked_init h

theorem readsOk_noFaults : ReadsOk noFaults := ⟨rfl, fun _ => ⟨rfl, rfl⟩⟩

theorem rollupCall_noFaults (db : Db) : rollupCall bucket noFaults db =
    if newerThan db.lastRollupTs db.samples.rows = [] then db
    else db.folded bucket db.lastRollupTs.isNone (newerThan db.lastRollupTs db.samples.rows) := by
  have hrows := rollupRows_of_readsOk readsOk_noFaults db
  rcases rollupCall_cases bucket noFaults db with ⟨hc, he⟩ | ⟨hc, he⟩
  · rw [if_neg (hrows ▸ hc.2.1), he, hrows, rollupMarker_of_readsOk readsOk_noFaults]
  · rw [he]
    by_cases hnil : newerThan db.lastRollupTs db.samples.rows = []
    · rw [if_pos hnil]
    · exact absurd ⟨rfl, hrows ▸ hnil, fun _ _ => rfl⟩ hc

theorem level_firstRollup {db : Db} (hmarker : db.lastRollupTs = none)
    (hempty : ∀ L, db.level L = ∅) (L : Level) :
    (rollupCall bucket noFaults db).level L =
      Table.group (bucketed (bucket L) db.samples.rows) := by
  rw [rollupCall_noFaults, hmarker]
  change (if db.samples.rows = [] then db else _).level L = _
  split
  · next hnil =>
    rw [hempty, hnil]
    rfl
  · rw [Db.level_folded]
    rfl

theorem lastRollupTs_caught_up {s : Ledger} (h : Booked bucket s) :
    (rollupCall bucket noFaults s.db).lastRollupTs =
      (if s.hist = [] then none else some (maxTs s.hist)) := by
  rw [rollupCall_noFaults]
  by_cases hnil : newerThan s.db.lastRollupTs s.db.samples.rows = []
  · -- nothing newer: the watermark already covers the history
    rw [if_pos hnil]
    have hnew : newerThan s.db.lastRollupTs s.hist = [] :=
      (hnil ▸ h.pending).symm.eq_nil
    cases hl : s.db.lastRollupTs with
    | none =>
      rw [hl] at hnew
      rw [if_pos (show s.hist = [] from hnew)]
    | some m =>
      obtain ⟨r, hr, he⟩ := h.marker m hl
      rw [if_neg (List.ne_nil_of_mem hr)]
      refine congrArg some (maxTs_eq ⟨r, hr, he⟩ (fun t ht => ?_)).symm
      by_contra hlt
      have hmem : t ∈ newerThan s.db.lastRollupTs s.hist := by
        rw [mem_newerThan, hl]
        exact ⟨ht, fun m' hm' => by obtain rfl := Option.some.inj hm'; omega⟩
      simp [hnew] at hmem
  · rw [if_neg hnil]
    obtain ⟨hall, -⟩ := booked_folded h rfl hnil
    obtain ⟨⟨t, ht, he⟩, -⟩ := maxTs_spec hnil
    have hth : t ∈ s.hist := (mem_newerThan.mp (h.pending.mem_iff.mp ht)).1
    rw [if_neg (List.ne_nil_of_mem hth)]
    exact congrArg some (maxTs_eq ⟨t, hth, he⟩ hall).symm

theorem caught_up {s : Ledger} (h : Booked bucket s) :
    (rollupCall bucket noFaults s.db).lastRollupTs =
        (if s.hist = [] then none else some (maxTs s.hist)) ∧
      ∀ L k, ((rollupCall bucket noFaults s.db).level L).cell k =
        total (inBucket (bucket L) k) s.hist := by
  have hmarker := lastRollupTs_caught_up h
  refine ⟨hmarker, fun L k => ?_⟩
  have hcell := (booked_rollup (f := noFaults) h readsOk_noFaults).cells L k
  change ((rollupCall bucket noFaults s.db).level L).cell k =
    total _ (upTo (rollupCall bucket noFaults s.db).lastRollupTs s.hist) at hcell
  rw [hcell, hmarker]
  by_cases hnil : s.hist = []
  · simp [hnil, upTo]
  · rw [if_neg hnil, upTo_eq_self (maxTs_spec hnil).2]

def fullDb (hist : List Sample) : Db :=
  { Db.init with samples := Table.setAll ∅ hist }

theorem booked_fullDb {hist : List Sample} (hkeys : (hist.map (·.1)).Nodup) :
    Booked bucket ⟨fullDb hist, hist⟩ := by
  have hperm : (fullDb hist).samples.rows.Perm hist := by
    simpa [fullDb] using Table.setAll_perm (t := ∅) hkeys (by simp)
  constructor
  · intro L k
    cases L <;> rfl
  · exact hperm
  · exact fun r hr => hperm.mem_iff.mp hr
  · intro m hm
    simp [fullDb, Db.init] at hm
  · exact hkeys

theorem rows_of_cells {t : Table Key Counts} {g : ℤ → ℤ} {l : List Sample}
    (h : ∀ k, t.cell k = total (inBucket g k) l) (b : ℤ) (i : String) :
    ((∃ c, (⟨b,i⟩, c) ∈ t.rows) ↔ ∃ r ∈ l, g r.1.ts = b ∧ r.1.name = i) ∧
    ∀ c, (⟨b,i⟩, c) ∈ t.rows →
      c = ((l.filter (fun r => r.1.name = i && g r.1.ts = b)).map (·.2)).sum := by
  have hcell := h ⟨b,i⟩
  constructor
  · constructor
    · rintro ⟨c, hrow⟩
      rw [Table.cell_eq_coe.mpr hrow] at hcell
      obtain ⟨r, hr, hp⟩ := total_ne_zero.mp (hcell ▸ WithZero.coe_ne_zero)
      obtain ⟨hi, hb⟩ := inBucket_iff.mp hp
      exact ⟨r, hr, hb, hi⟩
    · rintro ⟨r, hr, hb, hi⟩
      have hne : total (inBucket g ⟨b,i⟩) l ≠ 0 :=
        total_ne_zero.mpr ⟨r, hr, inBucket_iff.mpr ⟨hi, hb⟩⟩
      obtain ⟨c, hc⟩ := WithZero.ne_zero_iff_exists.mp (hcell ▸ hne)
      exact ⟨c, Table.cell_eq_coe.mp hc.symm⟩
  · intro c hrow
    rw [Table.cell_eq_coe.mpr hrow] at hcell
    have hval := congrArg value hcell
    rwa [value_coe, value_total] at hval

/-- In every run, the rollup tables hold exactly the sums over all samples ever
inserted up to the watermark, pruned or not; after a final rollup they hold those of
the whole history, as after one full rollup of it, and a second one changes nothing. -/
theorem rollup_counts_every_sample_once (bucket : Level → ℤ → ℤ) (es : List RollupEvent)
    (h : Along (Ledger.step bucket) Ledger.Admissible Ledger.init es) :
    let s := es.foldl (Ledger.step bucket) Ledger.init
    let final := rollupCall bucket noFaults s.db
    (∀ L b i, (∃ c, (⟨b,i⟩, c) ∈ (s.db.level L).rows) ↔
      ∃ r ∈ s.hist, (∃ m, s.db.lastRollupTs = some m ∧ r.1.ts ≤ m) ∧
        bucket L r.1.ts = b ∧ r.1.name = i) ∧
    (∀ L b i c, (⟨b,i⟩, c) ∈ (s.db.level L).rows →
      c = (((upTo s.db.lastRollupTs s.hist).filter
        (fun r => r.1.name = i && bucket L r.1.ts = b)).map (·.2)).sum) ∧
    (∀ L b i, (∃ c, (⟨b,i⟩, c) ∈ (final.level L).rows) ↔
      ∃ r ∈ s.hist, bucket L r.1.ts = b ∧ r.1.name = i) ∧
    (∀ L b i c, (⟨b,i⟩, c) ∈ (final.level L).rows →
      c = ((s.hist.filter
        (fun r => r.1.name = i && bucket L r.1.ts = b)).map (·.2)).sum) ∧
    final.lastRollupTs = (if s.hist = [] then none else some (maxTs s.hist)) ∧
    (∀ L, final.level L = (rollupCall bucket noFaults (fullDb s.hist)).level L) ∧
    final.lastRollupTs = (rollupCall bucket noFaults (fullDb s.hist)).lastRollupTs ∧
    rollupCall bucket noFaults final = final := by
  intro s final
  have hs : Booked bucket s := booked_run h
  obtain ⟨hm, hc⟩ := caught_up hs
  obtain ⟨hm', hc'⟩ := caught_up (booked_fullDb hs.keys)
  refine ⟨fun L b i => ?_, fun L b i => (rows_of_cells (hs.cells L) b i).2,
    fun L b i => (rows_of_cells (hc L) b i).1, fun L b i => (rows_of_cells (hc L) b i).2,
    hm, fun L => ?_, hm.trans hm'.symm, ?_⟩
  · rw [(rows_of_cells (hs.cells L) b i).1]
    simp only [mem_upTo, and_assoc]
  · exact Table.ext_cell (fun k => (hc L k).trans (hc' L k).symm)
  · rw [rollupCall_noFaults final, if_pos]
    rw [hm]
    by_cases hnil : s.hist = []
    · have hsamples : s.db.samples.rows = [] :=
        List.eq_nil_iff_forall_not_mem.mpr (fun r hr => by simpa [hnil] using hs.kept r hr)
      simp [final, hnil, hsamples, newerThan]
    · rw [if_neg hnil, samples_rollupCall]
      exact newerThan_eq_nil (fun r hr => (maxTs_spec hnil).2 r (hs.kept r hr))

def prunedRun : List RollupEvent :=
  [.insert 1800000000 [("eth0", ⟨100, 10, 0, 0⟩)], .rollup noFaults,
    .prune (fun k => k.ts ≤ 1800000000),
    .insert 1800000060 [("eth0", ⟨50, 5, 1, 0⟩), ("wlan0", ⟨7, 1, 0, 0⟩)],
    .rollup (fun s => s = .commit), .rollup noFaults]

/-- The final rollup's tables still hold the sample that was pruned. -/
theorem rollup_counts_every_sample_once_pruned :
    let s := prunedRun.foldl (Ledger.step (Level.floor .utc)) Ledger.init
    let final := rollupCall (Level.floor .utc) noFaults s.db
    (∀ L b i c, (⟨b,i⟩, c) ∈ (final.level L).rows →
      c = ((s.hist.filter
        (fun r => r.1.name = i && Level.floor .utc L r.1.ts = b)).map (·.2)).sum) ∧
    rollupCall (Level.floor .utc) noFaults final = final :=
  have h := rollup_counts_every_sample_once (Level.floor .utc) prunedRun
    ⟨⟨by simp [Ledger.init], by decide⟩, readsOk_noFaults,
      fun k hk => ⟨1800000000, by decide, by simpa using hk⟩,
      ⟨by decide, by decide⟩, ⟨by decide, fun _ => ⟨by simp, by simp⟩⟩, readsOk_noFaults,
      trivial⟩
  ⟨h.2.2.2.1, h.2.2.2.2.2.2.2⟩

end Netmeter
