import Netmeter.Live
set_option autoImplicit false

/-!
Runs of the dashboard: every frame it draws, against all the readings and keys
before it.
-/

namespace Netmeter
open Keyed Ranking Binary64

inductive LiveEvent where
  | key (k : KeyCode)
  | tick (o : Look)

structure Shown where
  before : Dashboard
  look : Look

def liveLoop (cfg : Config) (tz : TimeZone) (filter : Option String) :
    Dashboard → List LiveEvent → List Shown
  | _, [] => []
  | d, .key k :: es =>
    match d.key k with
    | none => []
    | some d => liveLoop cfg tz filter d es
  | d, .tick o :: es => ⟨d,o⟩ :: liveLoop cfg tz filter (d.tick cfg tz filter o) es

namespace Shown

variable (cfg : Config) (tz : TimeZone) (filter : Option String)

def after (s : Shown) : Dashboard := s.before.tick cfg tz filter s.look

def rows (s : Shown) : List LiveRow := s.before.rows cfg filter s.look

def frame (s : Shown) : LiveFrame :=
  (s.after cfg tz filter).frame cfg (s.rows cfg filter) s.look.uptime

def down (s : Shown) : UInt64 := ((s.rows cfg filter).map LiveRow.down).sum

def up (s : Shown) : UInt64 := ((s.rows cfg filter).map LiveRow.up).sum

end Shown

def history (totals : List UInt64) : List UInt64 :=
  (List.replicate 120 0 ++ totals).drop totals.length

theorem history_length (totals : List UInt64) : (history totals).length = 120 := by
  rw [history, List.length_drop, List.length_append, List.length_replicate]
  omega

theorem drop_push {α : Type} {l : List α} {n : ℕ} (h : n ≤ l.length) (x : α) :
    (l.drop n ++ [x]).drop 1 = (l ++ [x]).drop (n + 1) := by
  rw [← List.drop_append_of_le_length h, List.drop_drop]

theorem pushHist_history (totals : List UInt64) (x : UInt64) :
    pushHist (history totals) x = history (totals ++ [x]) := by
  have hlen : (history totals ++ [x]).length - 120 = 1 := by
    rw [List.length_append, history_length, List.length_singleton]
  have hle : totals.length ≤ (List.replicate 120 0 ++ totals).length := by
    rw [List.length_append]
    exact Nat.le_add_left _ _
  have hpush := drop_push hle x
  rw [List.append_assoc] at hpush
  unfold pushHist
  rw [hlen]
  unfold history
  rw [hpush, List.length_append, List.length_singleton]

theorem toNat_max (a b : UInt64) : (max a b).toNat = max a.toNat b.toNat := by
  show (if a ≤ b then b else a).toNat = _
  split
  · next h => rw [max_eq_right (UInt64.le_iff_toNat_le.mp h)]
  · next h =>
    rw [UInt64.le_iff_toNat_le] at h
    omega

theorem toNat_min (a b : UInt64) : (min a b).toNat = min a.toNat b.toNat := by
  show (if a ≤ b then a else b).toNat = _
  split
  · next h => rw [min_eq_left (UInt64.le_iff_toNat_le.mp h)]
  · next h =>
    rw [UInt64.le_iff_toNat_le] at h
    omega

/-- The refresh interval: 250 ms to 5 s in steps of 250 ms. -/
def Dashboard.Paced (d : Dashboard) : Prop :=
  ∃ n, 1 ≤ n ∧ n ≤ 20 ∧ d.intervalMs.toNat = 250 * n

theorem paced_key {d d' : Dashboard} {k : KeyCode} (h : d.Paced) (hk : d.key k = some d') :
    d'.Paced := by
  obtain ⟨n, hlo, hhi, hn⟩ := h
  have hfast : ∃ m, 1 ≤ m ∧ m ≤ 20 ∧ (max (d.intervalMs - 250) 250).toNat = 250 * m := by
    have hsub : (d.intervalMs - 250).toNat = d.intervalMs.toNat - 250 :=
      UInt64.toNat_sub_of_le _ _ (UInt64.le_iff_toNat_le.mpr (by
        show 250 ≤ _
        omega))
    refine ⟨max (n - 1) 1, by omega, by omega, ?_⟩
    rw [toNat_max, hsub, hn]
    show max _ 250 = _
    omega
  have hslow : ∃ m, 1 ≤ m ∧ m ≤ 20 ∧ (min (d.intervalMs + 250) 5000).toNat = 250 * m := by
    have hadd : (d.intervalMs + 250).toNat = d.intervalMs.toNat + 250 := by
      rw [UInt64.toNat_add]
      show (_ + 250) % _ = _
      omega
    refine ⟨min (n + 1) 20, by omega, by omega, ?_⟩
    rw [toNat_min, hadd, hn]
    show min _ 5000 = _
    omega
  unfold Dashboard.key at hk
  split at hk
  · cases hk
  · cases hk
  · obtain rfl := Option.some.inj hk
    exact ⟨n, hlo, hhi, hn⟩
  · obtain rfl := Option.some.inj hk
    exact hfast
  · obtain rfl := Option.some.inj hk
    exact hfast
  · obtain rfl := Option.some.inj hk
    exact hslow
  · obtain rfl := Option.some.inj hk
    exact ⟨n, hlo, hhi, hn⟩

theorem key_eq {d d' : Dashboard} {k : KeyCode} (hk : d.key k = some d') :
    d' = { d with dec := d'.dec, intervalMs := d'.intervalMs } := by
  unfold Dashboard.key at hk
  split at hk
  · cases hk
  · cases hk
  all_goals
    obtain rfl := Option.some.inj hk
    rfl

def sessionTotal (dir : Direction) (d : Dashboard) (iface : String) : ℕ :=
  (dir.counter ((d.session.lookup iface).getD (0,0))).toNat

def growthOf (dir : Direction) (iface : String) (prev cur : Table String (UInt64 × UInt64)) : ℕ :=
  match prev.lookup iface, cur.lookup iface with
  | some old, some now => (dir.counter now).toNat - (dir.counter old).toNat
  | _, _ => 0

def growthSum (dir : Direction) (iface : String) :
    Table String (UInt64 × UInt64) → List (Table String (UInt64 × UInt64)) → ℕ
  | _, [] => 0
  | prev, cur :: curs => growthOf dir iface prev cur + growthSum dir iface cur curs

def showsIface (cfg : Config) (filter : Option String) (iface : String) : Bool :=
  !cfg.excluded iface && !filter.any (iface ≠ ·)

theorem grown_counter (cfg : Config) (filter : Option String) (dir : Direction) (d : Dashboard)
    (o : Look) (iface : String) :
    (dir.counter (((d.grown cfg filter o).lookup iface).getD (0,0))).toNat =
      if showsIface cfg filter iface then growthOf dir iface d.prev o.cur else 0 := by
  unfold Dashboard.grown Dashboard.growth showsIface growthOf
  rw [Table.lookup_filterMapVal]
  cases o.cur.lookup iface with
  | none => cases dir <;> cases d.prev.lookup iface <;> simp [Direction.counter]
  | some now =>
    dsimp only [Option.bind_some]
    cases cfg.excluded iface with
    | true => cases dir <;> simp [Direction.counter]
    | false =>
      cases filter.any (iface ≠ ·) with
      | true => cases dir <;> simp [Direction.counter]
      | false =>
        cases d.prev.lookup iface with
        | none => cases dir <;> simp [Direction.counter]
        | some old => cases dir <;> simp [Direction.counter, satSub_toNat]

theorem growthSum_concat (dir : Direction) (iface : String)
    (prev : Table String (UInt64 × UInt64)) (curs : List (Table String (UInt64 × UInt64)))
    (cur : Table String (UInt64 × UInt64)) :
    growthSum dir iface prev (curs ++ [cur]) =
      growthSum dir iface prev curs + growthOf dir iface (curs.getLast?.getD prev) cur := by
  induction curs generalizing prev with
  | nil => simp [growthSum]
  | cons c curs ih =>
    rw [List.cons_append, growthSum, ih c, growthSum, List.getLast?_cons, Nat.add_assoc]
    rfl

theorem sessionTotal_after (cfg : Config) (tz : TimeZone) (filter : Option String)
    (dir : Direction) (s : Shown) (iface : String) :
    sessionTotal dir (s.after cfg tz filter) iface = (sessionTotal dir s.before iface +
      if showsIface cfg filter iface then growthOf dir iface s.before.prev s.look.cur else 0) %
        2 ^ 64 := by
  have hcell : ((s.after cfg tz filter).session.lookup iface).getD (0,0) =
      (s.before.session.lookup iface).getD (0,0) +
        ((s.before.grown cfg filter s.look).lookup iface).getD (0,0) := by
    have hadd := congrArg value
      (Table.cell_addAll s.before.session (s.before.grown cfg filter s.look).rows iface)
    rw [Table.total_key, value_add] at hadd
    exact hadd
  have hcounter : ∀ a b : UInt64 × UInt64, dir.counter (a + b) = dir.counter a + dir.counter b := by
    intro a b
    cases dir <;> rfl
  rw [← grown_counter]
  unfold sessionTotal
  rw [hcell, hcounter, UInt64.toNat_add]

/-- The reading whose figures are shown after the ticks `past`. -/
def refreshed (past : List Shown) : Option Shown := past[(past.length - 1) / 5 * 5]?

section
variable (cfg : Config) (tz : TimeZone) (filter : Option String)

structure Tracks (prev0 : Table String (UInt64 × UInt64)) (past : List Shown) (d : Dashboard) :
    Prop where
  paced : d.Paced
  count : d.tickN = past.length
  prev : d.prev = ((past.map (·.look.cur)).getLast?).getD prev0
  down : d.histDown = history (past.map (Shown.down cfg filter))
  up : d.histUp = history (past.map (Shown.up cfg filter))
  figures : d.figures = ((refreshed past).map (fun s => figuresOf cfg tz s.look)).getD {}
  session : ∀ dir i, sessionTotal dir d i =
    if showsIface cfg filter i then growthSum dir i prev0 (past.map (·.look.cur)) % 2 ^ 64 else 0

def Dashboard.start (dec : Bool) (prev : Table String (UInt64 × UInt64))
    (prevLan : Option (UInt64 × UInt64)) : Dashboard where
  dec := dec
  prev := prev
  prevLan := prevLan

variable {cfg tz filter} {prev : Table String (UInt64 × UInt64)} {past : List Shown}
  {d : Dashboard}

theorem tracks_start (dec : Bool) (prevLan : Option (UInt64 × UInt64)) :
    Tracks cfg tz filter prev [] (.start dec prev prevLan) where
  paced := ⟨4, by decide, by decide, rfl⟩
  count := rfl
  prev := rfl
  down := by simp [Dashboard.start, history]
  up := by simp [Dashboard.start, history]
  figures := rfl
  session dir i := by
    cases dir <;> simp [sessionTotal, growthSum, Dashboard.start, Direction.counter]

theorem tracks_key (h : Tracks cfg tz filter prev past d) {k : KeyCode} {d' : Dashboard}
    (hk : d.key k = some d') : Tracks cfg tz filter prev past d' := by
  have hpaced := paced_key h.paced hk
  have heq := key_eq hk
  generalize d'.dec = dec at heq
  generalize hms : d'.intervalMs = ms at heq
  subst heq
  exact ⟨hpaced, h.count, h.prev, h.down, h.up, h.figures, h.session⟩

theorem tracks_tick (h : Tracks cfg tz filter prev past d) (o : Look) :
    Tracks cfg tz filter prev (past ++ [⟨d,o⟩]) (d.tick cfg tz filter o) where
  paced := h.paced
  count := by simp [Dashboard.tick, h.count]
  prev := by simp [Dashboard.tick]
  down := by
    rw [List.map_append, List.map_singleton, ← pushHist_history, ← h.down]
    rfl
  up := by
    rw [List.map_append, List.map_singleton, ← pushHist_history, ← h.up]
    rfl
  figures := by
    have hcount := h.count
    have hfig := h.figures
    simp only [Dashboard.tick, refreshed, List.length_append, List.length_singleton] at hfig ⊢
    by_cases hdue : (d.tickN + 1) % 5 = 1
    · -- the tick just drawn is the one that refreshes
      have hidx : (past.length + 1 - 1) / 5 * 5 = past.length := by omega
      rw [if_pos hdue, hidx, List.getElem?_concat_length]
      rfl
    · have hidx : (past.length + 1 - 1) / 5 * 5 = (past.length - 1) / 5 * 5 := by omega
      have hlt : (past.length - 1) / 5 * 5 < past.length := by omega
      rw [if_neg hdue, hidx, List.getElem?_append_left hlt, hfig]
  session dir i := by
    have hstep := sessionTotal_after cfg tz filter dir ⟨d,o⟩ i
    rw [h.session dir i, h.prev] at hstep
    rw [List.map_append, List.map_singleton, growthSum_concat]
    refine hstep.trans ?_
    split
    · exact Nat.mod_add_mod _ _ _
    · rfl

theorem tracks_loop {es : List LiveEvent} (h : Tracks cfg tz filter prev past d) {n : ℕ}
    {s : Shown} (hs : (liveLoop cfg tz filter d es)[n]? = some s) :
    Tracks cfg tz filter prev (past ++ (liveLoop cfg tz filter d es).take n) s.before := by
  induction es generalizing past d n with
  | nil => simp [liveLoop] at hs
  | cons e es ih =>
    cases e with
    | key k =>
      unfold liveLoop at hs ⊢
      cases hk : d.key k with
      | none => simp [hk] at hs
      | some d' =>
        rw [hk] at hs
        exact ih (tracks_key h hk) hs
    | tick o =>
      unfold liveLoop at hs ⊢
      cases n with
      | zero =>
        obtain rfl := Option.some.inj hs
        simpa using h
      | succ n =>
        rw [List.getElem?_cons_succ] at hs
        have hrest := ih (tracks_tick h o) hs
        rwa [List.append_assoc] at hrest

end

theorem percent_le (frac : ℚ) : percent frac ≤ 100 := by
  have hclamp : max 0 (min frac 1) * 100 ≤ (100 : ℕ) := by
    have hone := max_le zero_le_one (min_le_right frac 1)
    push_cast
    linarith
  have hnonneg : 0 ≤ max 0 (min frac 1) * 100 := by
    have hzero := le_max_left 0 (min frac 1)
    linarith
  have hle : f64 (max 0 (min frac 1) * 100) ≤ (100 : ℤ) :=
    (f64_mono hnonneg hclamp).trans (le_of_eq (f64_natCast (n := 100) (by norm_num)))
  have hfloor := Int.floor_mono hle
  rw [Int.floor_intCast] at hfloor
  unfold percent
  omega

theorem rate_le_maxRow {rows : List LiveRow} {r : LiveRow} (hr : r ∈ rows) :
    r.rate ≤ maxRow rows := by
  unfold maxRow
  cases hmax : (rows.map LiveRow.rate).max? with
  | none => simp [List.max?_eq_none_iff.mp hmax |> List.map_eq_nil_iff.mp] at hr
  | some m => exact (List.max?_eq_some_iff.mp hmax).2 _ (List.mem_map_of_mem hr)

/-- The frame of the tick `n` of a run, against the ticks `drawn` in it. -/
structure Drawn (cfg : Config) (tz : TimeZone) (filter : Option String) (drawn : List Shown)
    (n : ℕ) (s : Shown) : Prop where
  paced : (s.after cfg tz filter).Paced
  sparkDown : (s.frame cfg tz filter).sparkDown =
    history ((drawn.take (n + 1)).map (Shown.down cfg filter))
  sparkUp : (s.frame cfg tz filter).sparkUp =
    history ((drawn.take (n + 1)).map (Shown.up cfg filter))
  figures : ∃ s', drawn[n / 5 * 5]? = some s' ∧
    (s.after cfg tz filter).figures = figuresOf cfg tz s'.look
  sorted : (s.rows cfg filter).Pairwise (fun a b => b.rate ≤ a.rate)
  shares : ∀ r ∈ s.rows cfg filter, rowShare (maxRow (s.rows cfg filter)) r ≤ 10 ∧
    barFill (f64 ((rowShare (maxRow (s.rows cfg filter)) r : ℚ) / 10)) 10 =
      rowShare (maxRow (s.rows cfg filter)) r
  gauge : ∀ title pct color, (s.frame cfg tz filter).strip = .gauge title pct color →
    pct ≤ 100 ∧ color = gaugeColor pct

/-- A budget of a hundred bytes, and twenty-nine used. -/
def gaugeConfig : Config := { budgetGb := 100 / 1073741824 }

def gaugeDb : Db :=
  { Db.init with samples := Table.set ∅ ⟨1750000000,"eth0"⟩ ⟨20, 9, 0, 0⟩ }

def readsAs (dir : Direction) (iface : String) (v : ℕ) (cur : Table String (UInt64 × UInt64)) :
    Prop :=
  ∀ c, cur.lookup iface = some c → (dir.counter c).toNat = v

/-- The readings show the interface, where they show it at all, with a counter that
starts at `v` and goes as the polls say. -/
inductive Follows (dir : Direction) (iface : String) :
    ℕ → List Poll → List (Table String (UInt64 × UInt64)) → Prop where
  | nil (v : ℕ) : Follows dir iface v [] []
  | cons {v : ℕ} {p : Poll} {ps : List Poll} {cur : Table String (UInt64 × UInt64)}
    {curs : List (Table String (UInt64 × UInt64))} (hvalid : p.Valid v)
    (hcur : readsAs dir iface (p.next v) cur) (hrest : Follows dir iface (p.next v) ps curs) :
    Follows dir iface v (p :: ps) (cur :: curs)

section
variable {dir : Direction} {iface : String} {v : ℕ} {p : Poll} {ps : List Poll}
  {prev cur : Table String (UInt64 × UInt64)} {curs : List (Table String (UInt64 × UInt64))}

theorem growthOf_le (hprev : readsAs dir iface v prev) (hcur : readsAs dir iface (p.next v) cur) :
    growthOf dir iface prev cur ≤ p.bytes := by
  unfold growthOf
  split
  · next old now hold hnow =>
    rw [hprev old hold, hcur now hnow]
    by_cases hreset : p.afterReset = []
    · rw [Poll.next_of_noReset hreset]
      unfold Poll.bytes
      omega
    · have hle := (Poll.next_of_reset hreset v).2
      omega
  · exact Nat.zero_le _

theorem growthOf_eq (hprev : readsAs dir iface v prev) (hcur : readsAs dir iface (p.next v) cur)
    (hreset : p.afterReset = []) (hold : (prev.lookup iface).isSome)
    (hnow : (cur.lookup iface).isSome) : growthOf dir iface prev cur = p.bytes := by
  obtain ⟨old, hold⟩ := Option.isSome_iff_exists.mp hold
  obtain ⟨now, hnow⟩ := Option.isSome_iff_exists.mp hnow
  have hbytes : p.bytes = p.before := by simp [Poll.bytes, hreset]
  have hnext := Poll.next_of_noReset hreset v
  simp only [growthOf, hold, hnow]
  rw [hprev old hold, hcur now hnow, hbytes]
  omega

theorem growthSum_le (hprev : readsAs dir iface v prev) (h : Follows dir iface v ps curs) :
    growthSum dir iface prev curs ≤ (ps.map Poll.bytes).sum := by
  induction h generalizing prev with
  | nil v => exact Nat.zero_le _
  | cons hvalid hcur hrest ih =>
    rw [growthSum, List.map_cons, List.sum_cons]
    exact Nat.add_le_add (growthOf_le hprev hcur) (ih hcur)

theorem bytes_lt (h : Follows dir iface v ps curs) (hreset : ∀ p ∈ ps, p.afterReset = [])
    (hv : v < 2 ^ 64) : v + (ps.map Poll.bytes).sum < 2 ^ 64 := by
  induction h with
  | nil v => simpa using hv
  | @cons v p ps cur curs hvalid _ _ ih =>
    have hnone := hreset p List.mem_cons_self
    have hbytes : p.bytes = p.before := by simp [Poll.bytes, hnone]
    have hnext := Poll.next_of_noReset hnone v
    have hrest := ih (fun p hp => hreset p (List.mem_cons_of_mem _ hp)) (hnext ▸ hvalid.1)
    rw [List.map_cons, List.sum_cons, hbytes]
    omega

theorem growthSum_eq (hprev : readsAs dir iface v prev) (h : Follows dir iface v ps curs)
    (hreset : ∀ p ∈ ps, p.afterReset = [])
    (hshown : ∀ cur ∈ prev :: curs, (cur.lookup iface).isSome) :
    growthSum dir iface prev curs = (ps.map Poll.bytes).sum := by
  induction h generalizing prev with
  | nil v => rfl
  | cons hvalid hcur hrest ih =>
    rw [growthSum, List.map_cons, List.sum_cons,
      growthOf_eq hprev hcur (hreset _ (.head _)) (hshown _ (.head _))
        (hshown _ (.tail _ (.head _))),
      ih hcur (fun p hp => hreset p (.tail _ hp)) (fun cur hc => hshown cur (.tail _ hc))]

end

/-- Whatever is reset, whatever comes and goes, the session totals of an interface
never exceed what it carried since the dashboard started; they are exactly that
where it is shown, stays and is never reset. -/
theorem session_never_invents (cfg : Config) (tz : TimeZone) (filter : Option String) (dec : Bool)
    (prev : Table String (UInt64 × UInt64)) (prevLan : Option (UInt64 × UInt64))
    (es : List LiveEvent) (n : ℕ) (s : Shown) (dir : Direction) (iface : String) (v : ℕ)
    (ps : List Poll)
    (hs : (liveLoop cfg tz filter (.start dec prev prevLan) es)[n]? = some s)
    (hprev : readsAs dir iface v prev)
    (hfollows : Follows dir iface v ps
      (((liveLoop cfg tz filter (.start dec prev prevLan) es).take (n + 1)).map (·.look.cur))) :
    sessionTotal dir (s.after cfg tz filter) iface ≤ (ps.map Poll.bytes).sum ∧
      (showsIface cfg filter iface →
        (∀ cur ∈ prev :: ((liveLoop cfg tz filter (.start dec prev prevLan) es).take (n + 1)).map
          (·.look.cur), (cur.lookup iface).isSome) →
        (∀ p ∈ ps, p.afterReset = []) →
        sessionTotal dir (s.after cfg tz filter) iface = (ps.map Poll.bytes).sum) := by
  have hbefore := tracks_loop (tracks_start dec prevLan) hs
  have hafter := tracks_tick hbefore s.look
  rw [List.nil_append] at hafter
  have htake : (liveLoop cfg tz filter (.start dec prev prevLan) es).take n ++ [s] =
      (liveLoop cfg tz filter (.start dec prev prevLan) es).take (n + 1) := by
    rw [List.take_add_one, hs]
    rfl
  have hsession := (htake ▸ hafter).session dir iface
  have htotal : sessionTotal dir (s.after cfg tz filter) iface = _ := hsession
  rw [htotal]
  constructor
  · split
    · exact (Nat.mod_le _ _).trans (growthSum_le hprev hfollows)
    · exact Nat.zero_le _
  · intro hshow hshown hreset
    obtain ⟨c, hc⟩ := Option.isSome_iff_exists.mp (hshown prev List.mem_cons_self)
    have hcounter : v < 2 ^ 64 := hprev c hc ▸ (dir.counter c).toNat_lt
    have hsum := bytes_lt hfollows hreset hcounter
    rw [if_pos hshow, growthSum_eq hprev hfollows hreset hshown, Nat.mod_eq_of_lt (by omega)]

theorem session_never_invents_reset :
    let reading (rx : UInt64) : Table String (UInt64 × UInt64) := (∅ : Table _ _).set "eth0" (rx,0)
    let look (rx : UInt64) : Look := ⟨reading rx, none, false, none, 0, 0, 0, 0, 1⟩
    let drawn := liveLoop {} .utc none (.start false (reading 1000) none)
      [.tick (look 3000), .key (.char '-'), .tick (look 200)]
    ∃ s, drawn[1]? = some s ∧ sessionTotal .rx (s.after {} .utc none) "eth0" ≤ 2300 := by
  intro reading look drawn
  have hread (rx : UInt64) : readsAs .rx "eth0" rx.toNat (reading rx) := by
    rintro c ⟨⟩
    rfl
  have hfollows : Follows .rx "eth0" 1000 [⟨none, 2000, []⟩, ⟨none, 100, [200]⟩]
      [reading 3000, reading 200] :=
    .cons ⟨by decide, by decide⟩ (hread 3000)
      (.cons ⟨by decide, by decide⟩ (hread 200) (.nil 200))
  have h := session_never_invents {} .utc none false (reading 1000) none
    [.tick (look 3000), .key (.char '-'), .tick (look 200)] 1 _ .rx "eth0" 1000 _ rfl
    (hread 1000) hfollows
  exact ⟨_, rfl, h.1⟩

end Netmeter
