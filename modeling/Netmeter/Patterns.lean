import Netmeter.Anchor
set_option autoImplicit false

/-!
The interface patterns of the configuration, over whole runs: what `exclude_ifaces`
keeps out of every table and view, and what `force_lan_ifaces` keeps out of the WAN.
-/

namespace Netmeter
open Keyed

def Db.Each (R : String → Counts → Prop) (db : Db) : Prop :=
  ∀ src, ∀ x ∈ (db.table src).rows, R x.1.name x.2

variable {R : String → Counts → Prop} {cfg : Config} {tz : TimeZone} {db : Db}

theorem each_init : Db.init.Each R := by
  intro src x hx
  cases src with
  | samples => simp [Db.table, Db.init] at hx
  | rollup L => cases L <;> simp [Db.table, Db.level, Db.init] at hx

theorem each_rollupCall (hadd : ∀ i a b, R i a → R i b → R i (a + b)) (h : db.Each R)
    (bucket : Level → ℤ → ℤ) (f : Faults) : (rollupCall bucket f db).Each R := by
  intro src x hx
  cases src with
  | samples =>
    refine h .samples x ?_
    simpa [Db.table] using hx
  | rollup L =>
    change x ∈ ((rollupCall bucket f db).level L).rows at hx
    rcases rollupCall_cases bucket f db with ⟨-, he⟩ | ⟨-, he⟩
    · -- a bucket adds samples of its own interface
      obtain ⟨k,c⟩ := x
      rw [he, Db.level_folded, ← Table.cell_eq_coe, Table.cell_addAll, ← Table.total_key,
        ← total_append] at hx
      refine total_closed (hadd k.name) (fun y hy hkey => ?_) hx
      obtain rfl := of_decide_eq_true hkey
      rcases List.mem_append.mp hy with hy | hy
      · split at hy
        · simp at hy
        · exact h (.rollup L) y hy
      · obtain ⟨z, hz, rfl⟩ := List.mem_map.mp hy
        exact h .samples z (mem_of_rollupRows hz)
    · rw [he] at hx
      exact h (.rollup L) x hx

theorem each_step (hadd : ∀ i a b, R i a → R i b → R i (a + b))
    (hrow : ∀ d r, ∀ x ∈ sampleRows cfg d r, R x.1 x.2) (s : State) (e : Event)
    (h : s.db.Each R) : (step cfg tz s e).db.Each R := by
  cases e with
  | tick r =>
    cases hgap : gapBranch cfg r with
    | true => rwa [step, tick_gap hgap]
    | false =>
      have htick := ticked hgap tz s
      intro src x hx
      cases src with
      | samples =>
        change x ∈ (tick cfg tz s r).db.samples.rows at hx
        rw [htick.samples] at hx
        rcases mem_insertSamples hx with hx | hx
        · exact h .samples x hx
        · obtain ⟨p, hp, rfl⟩ := List.mem_map.mp hx
          exact hrow s.daemon r p hp
      | rollup L =>
        change x ∈ ((tick cfg tz s r).db.level L).rows at hx
        rw [htick.level] at hx
        exact h (.rollup L) x hx
  | rollup f => exact each_rollupCall hadd h _ f
  | retain now =>
    intro src x hx
    cases src with
    | samples => exact h .samples x (List.mem_of_mem_filter hx)
    | rollup L =>
      cases L with
      | hourly => exact h (.rollup .hourly) x (List.mem_of_mem_filter hx)
      | daily => exact h (.rollup .daily) x hx
      | monthly => exact h (.rollup .monthly) x hx
  | restart => exact h

/-- No row of an excluded interface, and none of a forced one with WAN bytes. -/
structure Patterned (cfg : Config) (iface : String) (c : Counts) : Prop where
  shown : cfg.excluded iface = false
  lan : cfg.forcedLan iface = true → c.lanRx = c.rx ∧ c.lanTx = c.tx

theorem Patterned.add {i : String} {a b : Counts} (ha : Patterned cfg i a)
    (hb : Patterned cfg i b) : Patterned cfg i (a + b) where
  shown := ha.shown
  lan hforced := by
    obtain ⟨hrx, htx⟩ := ha.lan hforced
    obtain ⟨hrx', htx'⟩ := hb.lan hforced
    exact ⟨congrArg₂ (· + ·) hrx hrx', congrArg₂ (· + ·) htx htx'⟩

theorem patterned_sampleRows (d : Daemon) (r : Reading) :
    ∀ x ∈ sampleRows cfg d r, Patterned cfg x.1 x.2 := by
  intro x hx
  obtain ⟨p, hp, rfl⟩ := List.mem_map.mp hx
  obtain ⟨y, hy, hp⟩ := List.mem_filterMap.mp hp
  obtain ⟨e, -, he⟩ := List.mem_filterMap.mp hy
  have hname : p.iface = e.1 ∧ cfg.excluded e.1 = false := by
    unfold ifaceDelta at he
    split at he
    · simp at he
    · next hshown =>
      obtain ⟨o, -, rfl⟩ := Option.map_eq_some_iff.mp he
      unfold perIf at hp
      split at hp
      · obtain rfl := Option.some.inj hp
        exact ⟨rfl, by simpa using hshown⟩
      · simp at hp
  constructor
  · rw [hname.1]
    exact hname.2
  · intro hforced
    simp [sampleCounts, lanShare, hforced]

theorem patterned_run (cfg : Config) (tz : TimeZone) (es : List Event) :
    (es.foldl (step cfg tz) State.init).db.Each (Patterned cfg) :=
  Transaction.invariant (fun s : State => s.db.Each (Patterned cfg))
    (each_step (fun _ _ _ => Patterned.add) patterned_sampleRows) each_init es

theorem closed_showRows {Q : Counts → Prop} (hadd : ∀ a b, Q a → Q b → Q (a + b))
    {period : Period} {last : ℤ} {i : String}
    (h : ∀ src, ∀ x ∈ (db.table src).rows, x.1.name = i → Q x.2) :
    ∀ r ∈ showRows tz period last (some i) db, Q r.toCounts := by
  intro r hr
  have hpair : (r.ts, r.toCounts) ∈ pairs (showRows tz period last (some i) db) :=
    List.mem_map_of_mem hr
  rw [pairs_showRows, ← Table.cell_eq_coe, Table.cell_group] at hpair
  refine total_closed hadd (fun x hx _ => ?_) hpair
  obtain ⟨y, hy, rfl⟩ := List.mem_map.mp hx
  obtain ⟨hrow, -, -, hiface⟩ := mem_shownInput.mp hy
  exact h _ y hrow (by simpa [matchesIface] using hiface)

theorem showRows_excluded (h : db.Each (Patterned cfg)) {i : String}
    (hi : cfg.excluded i = true) (period : Period) (last : ℤ) :
    showRows tz period last (some i) db = [] := by
  refine List.eq_nil_iff_forall_not_mem.mpr ?_
  refine closed_showRows (Q := fun _ => False) (fun _ _ h _ => h) (fun src x hx hname => ?_)
  have hshown := (h src x hx).shown
  rw [hname, hi] at hshown
  exact Bool.noConfusion hshown

theorem showRows_forced (h : db.Each (Patterned cfg)) {i : String}
    (hi : cfg.forcedLan i = true) (period : Period) (last : ℤ) :
    ∀ r ∈ showRows tz period last (some i) db, r.wanRx = 0 ∧ r.wanTx = 0 := by
  intro r hr
  have hlan := closed_showRows (Q := fun c => c.lanRx = c.rx ∧ c.lanTx = c.tx)
    (fun a b ha hb => ⟨congrArg₂ (· + ·) ha.1 hb.1, congrArg₂ (· + ·) ha.2 hb.2⟩)
    (fun src x hx hname => (h src x hx).lan (hname ▸ hi)) r hr
  simp [Counts.wanRx, Counts.wanTx, hlan]

def Direction.wanHom : Direction → Counts →+ ℤ
  | .rx => Counts.rxHom - Counts.lanRxHom
  | .tx => Counts.txHom - Counts.lanTxHom

theorem wanHom_windowSum (h : db.Each (Patterned cfg)) (dir : Direction) (start : ℤ) :
    dir.wanHom (db.windowSum start) = dir.wanHom (Db.windowSum
      { db with samples := db.samples.filter (fun k => !cfg.forcedLan k.name) } start) := by
  have hforced : dir.wanHom (value (total (fun k : Key => decide (start ≤ k.ts) &&
      cfg.forcedLan k.name) db.samples.rows)) = 0 := by
    rw [map_value_total]
    refine List.sum_eq_zero (fun n hn => ?_)
    obtain ⟨x, hx, rfl⟩ := List.mem_map.mp hn
    obtain ⟨hx, hp⟩ := List.mem_filter.mp hx
    obtain ⟨hrx, htx⟩ := (h .samples x hx).lan (by simpa using (Bool.and_eq_true_iff.mp hp).2)
    cases dir with
    | rx => exact sub_eq_zero.mpr hrx.symm
    | tx => exact sub_eq_zero.mpr htx.symm
  unfold Db.windowSum
  rw [total_split _ (fun k : Key => cfg.forcedLan k.name), value_add, map_add, hforced, zero_add,
    Table.rows_filter, total_filter _ (fun k : Key => !cfg.forcedLan k.name)]
  simp only [Bool.and_comm]

theorem basisUsed_wan (hwan : cfg.budgetBasis = "wan") (c : Counts) :
    basisUsed cfg c = max (Direction.rx.wanHom c) 0 + max (Direction.tx.wanHom c) 0 := by
  rw [basisUsed, if_pos hwan]
  rfl

/-- In every run no table has a row of an excluded interface and no view of one shows
anything; a forced LAN interface has no WAN bytes in any table or view, and none of
its bytes count towards a WAN budget. -/
theorem patterns_hold (cfg : Config) (tz : TimeZone) (es : List Event) :
    let db := (es.foldl (step cfg tz) State.init).db
    (∀ src, ∀ x ∈ (db.table src).rows, Patterned cfg x.1.name x.2) ∧
      (∀ period last i, cfg.excluded i = true → showRows tz period last (some i) db = []) ∧
      (∀ period last i, cfg.forcedLan i = true →
        ∀ r ∈ showRows tz period last (some i) db, r.wanRx = 0 ∧ r.wanTx = 0) ∧
      (cfg.budgetBasis = "wan" → ∀ now period, checkBudgetUsed cfg tz now period db =
        checkBudgetUsed cfg tz now period
          { db with samples := db.samples.filter (fun k => !cfg.forcedLan k.name) }) := by
  intro db
  have h : db.Each (Patterned cfg) := patterned_run cfg tz es
  refine ⟨h, fun period last i hi => showRows_excluded h hi period last,
    fun period last i hi => showRows_forced h hi period last, fun hwan now period => ?_⟩
  unfold checkBudgetUsed
  rw [basisUsed_wan hwan, basisUsed_wan hwan, wanHom_windowSum h, wanHom_windowSum h]

end Netmeter
