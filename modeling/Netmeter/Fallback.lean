import Netmeter.Provenance
import Netmeter.RollupRuns
set_option autoImplicit false

/-!
The raw-sample fallback of `show` against the rollup tables: the same buckets.
-/

namespace Netmeter
open Keyed

def ifaceLabel (iface : Option String) : String := iface.getD "_all"

theorem iface_queryRange (db : Db) (src : Source) (lo hi : ℤ) (iface : Option String) :
    ∀ r ∈ queryRange db src lo hi iface, r.iface = ifaceLabel iface := by
  intro r hr
  cases iface with
  | none =>
    obtain ⟨x, -, rfl⟩ := List.mem_map.mp hr
    rfl
  | some i =>
    obtain ⟨x, hx, rfl⟩ := List.mem_map.mp hr
    exact of_decide_eq_true (List.mem_filter.mp hx).2

theorem iface_bucketRows {n : String} {rows : List Row} (h : ∀ r ∈ rows, r.iface = n)
    (floor : ℤ → ℤ) : ∀ r ∈ bucketRows floor rows, r.iface = n := by
  have hfold : ∀ m : Table ℤ Row, (∀ x ∈ m.rows, x.2.iface = n) →
      ∀ x ∈ (rows.foldl (fun (m : Table ℤ Row) r =>
        m.upsert (floor r.ts) { r with ts := floor r.ts } (fun e => e.addCounts r)) m).rows,
        x.2.iface = n := by
    induction rows with
    | nil => exact fun m hm => hm
    | cons r rows ih =>
      intro m hm
      refine ih (fun s hs => h s (by simp [hs])) _ (fun x hx => ?_)
      rcases Table.mem_upsert hx with rfl | ⟨v, hv, rfl⟩ | hx
      · exact h r (by simp)
      · exact hm (floor r.ts, v) hv
      · exact hm x hx
  intro r hr
  obtain ⟨x, hx, rfl⟩ := List.mem_map.mp hr
  exact hfold ∅ (by simp) x hx

theorem eq_of_pairs {n : String} {rows rows' : List Row} (h : ∀ r ∈ rows, r.iface = n)
    (h' : ∀ r ∈ rows', r.iface = n) (hpairs : pairs rows = pairs rows') : rows = rows' := by
  have hrows : ∀ rows : List Row, (∀ r ∈ rows, r.iface = n) →
      (pairs rows).map (fun p => ({ p.2 with ts := p.1, iface := n } : Row)) = rows := by
    intro rows h
    unfold pairs
    rw [List.map_map]
    refine (List.map_congr_left (fun r hr => ?_)).trans (List.map_id rows)
    rw [← h r hr]
    rfl
  rw [← hrows rows h, ← hrows rows' h', hpairs]

variable {tz : TimeZone} {db : Db} {lo hi : ℤ}

/-- Every sample and every bucket it falls in lies in `[lo, hi)`. -/
def Covers (tz : TimeZone) (db : Db) (lo hi : ℤ) : Prop :=
  ∀ x ∈ db.samples.rows, (lo ≤ x.1.ts ∧ x.1.ts < hi) ∧
    ∀ L : Level, lo ≤ L.floor tz x.1.ts ∧ L.floor tz x.1.ts < hi

theorem queryRange_firstRollup (hmarker : db.lastRollupTs = none) (hempty : ∀ L, db.level L = ∅)
    (hcover : Covers tz db lo hi) (L : Level) (iface : Option String) :
    queryRange (rollupCall (Level.floor tz) noFaults db) (.rollup L) lo hi iface =
      bucketRows (L.floor tz)
        (queryRange (rollupCall (Level.floor tz) noFaults db) .samples lo hi iface) := by
  refine eq_of_pairs (iface_queryRange _ _ _ _ _)
    (iface_bucketRows (iface_queryRange _ _ _ _ _) _) ?_
  rw [pairs_bucketRows]
  refine pairs_eq_group (queryRange_ascending _ _ _ _ _) (fun t => ?_)
  have hitems : ∀ rows : List Row, rows.map (fun r => (L.floor tz r.ts, r.toCounts)) =
      (pairs rows).map (fun p => (L.floor tz p.1, p.2)) := by
    simp [pairs, List.map_map, Function.comp_def]
  rw [hitems, total_rekey (L.floor tz), total_queryRange, total_queryRange]
  unfold Db.table
  dsimp only
  rw [level_firstRollup hmarker hempty, samples_rollupCall, Table.total_group]
  unfold bucketed
  rw [total_rekey (fun k : Key => (⟨L.floor tz k.ts, k.name⟩ : Key))]
  refine total_congr (fun x hx => ?_)
  obtain ⟨⟨hlo, hhi⟩, hfloor⟩ := hcover x hx
  have hmatch : matchesIface iface ⟨L.floor tz x.1.ts, x.1.name⟩ = matchesIface iface x.1 := by
    cases iface <;> rfl
  simp [hmatch, hlo, hhi, (hfloor L).1, (hfloor L).2]

theorem rollup_noFaults_ok (bucket : Level → ℤ → ℤ) (db : Db) :
    rollup bucket noFaults db = .ok (rollupCall bucket noFaults db) := by
  have hok : ∃ db', rollup bucket noFaults db = .ok db' := by
    unfold rollup
    dsimp only
    rw [if_neg (by simp [noFaults])]
    split
    · exact ⟨_, rfl⟩
    · exact ⟨_, Transaction.run_of_succeeds (fun _ _ => rfl) db⟩
  obtain ⟨db', h⟩ := hok
  rw [rollupCall, h]
  rfl

/-- After the first rollup of any samples in any time zone, the rows of every
period are those of the raw-sample fallback, with the same labels and in the
same order. -/
theorem fallback_eq_rollup (tz : TimeZone) (db : Db) (iface : Option String) (lo hi : ℤ)
    (hmarker : db.lastRollupTs = none) (hempty : ∀ L, db.level L = ∅)
    (hcover : Covers tz db lo hi) :
    rollup (Level.floor tz) noFaults db = .ok (rollupCall (Level.floor tz) noFaults db) ∧
    let rolled := rollupCall (Level.floor tz) noFaults db
    let raw := queryRange rolled .samples lo hi iface
    (queryRange rolled (.rollup .hourly) lo hi iface = bucketSamples tz .hour raw ∧
      queryRange rolled (.rollup .daily) lo hi iface = bucketSamples tz .day raw ∧
      queryRange rolled (.rollup .monthly) lo hi iface = bucketSamples tz .month raw ∧
      rebucketWeek tz (queryRange rolled (.rollup .daily) lo hi iface) =
        bucketSamples tz .week raw) ∧
    ∀ period, (bucketSamples tz period raw).Pairwise (fun a b => a.ts < b.ts) ∧
      ∀ r ∈ bucketSamples tz period raw, r.iface = ifaceLabel iface := by
  refine ⟨rollup_noFaults_ok _ db, ?_⟩
  intro rolled raw
  have hrolled : ∀ L, queryRange rolled (.rollup L) lo hi iface = bucketRows (L.floor tz) raw :=
    fun L => queryRange_firstRollup hmarker hempty hcover L iface
  refine ⟨⟨hrolled .hourly, hrolled .daily, hrolled .monthly,
    congrArg (rebucketWeek tz) (hrolled .daily)⟩, fun period => ?_⟩
  have hlabel := iface_bucketRows (iface_queryRange rolled .samples lo hi iface)
    (period.sampleFloor tz)
  unfold bucketSamples
  dsimp only
  split
  · exact ⟨bucketRows_ascending _ _, iface_bucketRows hlabel _⟩
  · exact ⟨bucketRows_ascending _ _, hlabel⟩

instance : Fintype Level := ⟨{.hourly, .daily, .monthly}, fun L => by cases L <;> decide⟩

def midnightDb : Db :=
  { Db.init with samples := Table.setAll ∅ [(⟨1788307190,"eth0"⟩, ⟨100, 10, 5, 0⟩),
      (⟨1788307190,"wlan0"⟩, ⟨7, 1, 0, 0⟩), (⟨1788307260,"eth0"⟩, ⟨50, 5, 1, 0⟩)] }

theorem fallback_eq_rollup_midnight :
    rebucketWeek .utc (queryRange (rollupCall (Level.floor .utc) noFaults midnightDb)
        (.rollup .daily) 0 2000000000 (some "eth0")) =
      bucketSamples .utc .week (queryRange (rollupCall (Level.floor .utc) noFaults midnightDb)
        .samples 0 2000000000 (some "eth0")) :=
  (fallback_eq_rollup .utc midnightDb (some "eth0") 0 2000000000 rfl (by decide)
    (by unfold Covers; decide +kernel)).2.1.2.2.2

end Netmeter
