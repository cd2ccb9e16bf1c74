import Netmeter.MonthEntry
import Netmeter.Lib.FixedWidth
set_option autoImplicit false

/-!
The dates `show` prints beside its rows: as texts they are in the order of the rows,
and read back they are the dates of the rows.
-/

namespace Netmeter
open Keyed Transaction Floor Gregorian FixedWidth

theorem toList_padZero_fixed {w n : ℕ} (h : n < 10 ^ (w + 1)) :
    (padZero (w + 1) n).toList = (fixed 10 (w + 1) n).map Nat.digitChar := by
  rw [toList_padZero, length_toString]
  induction w generalizing n with
  | zero =>
    have hn : n < 10 := by simpa using h
    simp [Nat.toDigits_of_lt_base hn, fixed, Nat.mod_eq_of_lt hn]
  | succ w ih =>
    rw [fixed_concat, List.map_append, List.map_singleton]
    by_cases hn : n < 10
    · have hzero : n / 10 = 0 := Nat.div_eq_of_lt hn
      rw [Nat.toDigits_of_lt_base hn, hzero, fixed_zero, Nat.mod_eq_of_lt hn, List.map_replicate]
      rfl
    · have hdiv : n / 10 < 10 ^ (w + 1) := by
        rw [pow_succ] at h
        omega
      have hlen := ih hdiv
      rw [Nat.toDigits_of_base_le (by norm_num) (not_lt.mp hn), List.length_append,
        List.length_singleton, Nat.add_sub_add_right, ← List.append_assoc, hlen]

theorem digitChar_lt {m n : ℕ} (hm : m < 10) (hn : n < 10) :
    Nat.digitChar m < Nat.digitChar n ↔ m < n := by
  interval_cases m <;> interval_cases n <;> decide

theorem digitChar_inj {m n : ℕ} (hm : m < 10) (hn : n < 10) :
    Nat.digitChar m = Nat.digitChar n ↔ m = n := by
  interval_cases m <;> interval_cases n <;> decide

theorem padZero_lt {w m n : ℕ} (hm : m < 10 ^ (w + 1)) (hn : n < 10 ^ (w + 1)) :
    (padZero (w + 1) m).toList < (padZero (w + 1) n).toList ↔ m < n := by
  have hlt : ∀ {k d : ℕ}, d ∈ fixed 10 (w + 1) k → d < 10 :=
    fun h => lt_of_mem_fixed (by norm_num) h
  rw [toList_padZero_fixed hm, toList_padZero_fixed hn,
    map_lt_map (fun a ha b hb => digitChar_lt (hlt ha) (hlt hb))
      (fun a ha b hb => digitChar_inj (hlt ha) (hlt hb)), fixed_lt (by norm_num) hm hn]

theorem padZero_append_lt {w m n : ℕ} (hm : m < 10 ^ (w + 1)) (hn : n < 10 ^ (w + 1))
    (l l' : List Char) :
    (padZero (w + 1) m).toList ++ l < (padZero (w + 1) n).toList ++ l' ↔
      m < n ∨ m = n ∧ l < l' := by
  have hlen : (padZero (w + 1) m).toList.length = (padZero (w + 1) n).toList.length := by
    rw [length_padZero w.succ_pos hm, length_padZero w.succ_pos hn]
  have hsame : (padZero (w + 1) m).toList = (padZero (w + 1) n).toList ↔ m = n :=
    String.toList_inj.trans (padZero_injective (w + 1)).eq_iff
  rw [append_lt_append hlen, padZero_lt hm hn, hsame]

def DateBefore (d e : Date) : Prop :=
  d.year < e.year ∨ d.year = e.year ∧ (d.month < e.month ∨ d.month = e.month ∧ d.day < e.day)

theorem DateBefore.toDays_lt {d e : Date} (h : DateBefore d e) : d.toDays < e.toDays := by
  rcases h with hyear | ⟨hyear, hmonth | ⟨hmonth, hday⟩⟩
  · have hend := d.toDays_year.2
    have hstart := e.toDays_year.1
    have hle : yearStart (d.year + 1) ≤ yearStart e.year := yearStart_strictMono.monotone hyear
    omega
  · have hend := d.toDays_bounds.2
    have hstart := e.toDays_bounds.1
    rw [← hyear] at hstart
    have hle := monthStart_mono (leap d.year) (Nat.succ_le_of_lt hmonth)
    simp only [Nat.succ_eq_add_one] at hle
    omega
  · unfold Date.toDays
    rw [hyear, hmonth]
    omega

theorem toDays_lt_iff (d e : Date) : d.toDays < e.toDays ↔ DateBefore d e := by
  refine ⟨fun hlt => ?_, DateBefore.toDays_lt⟩
  by_contra hnot
  by_cases heq : d = e
  · rw [heq] at hlt
    exact lt_irrefl _ hlt
  · have hafter : DateBefore e d := by
      have hparts : ¬ (d.year = e.year ∧ d.month = e.month ∧ d.day = e.day) :=
        fun h => heq (Date.ext h.1 h.2.1 h.2.2)
      unfold DateBefore at hnot ⊢
      omega
    have hgt := hafter.toDays_lt
    omega

theorem toList_dateText (d : Date) : (dateText d).toList = (padZero 4 d.year.toNat).toList ++
    '-' :: ((padZero 2 d.month).toList ++ '-' :: (padZero 2 d.day).toList) := by
  simp [dateText]

def FourDigits (d : Date) : Prop := 0 ≤ d.year ∧ d.year < 10000

theorem dateText_lt {d e : Date} (hd : FourDigits d) (he : FourDigits e) :
    (dateText d).toList < (dateText e).toList ↔ d.toDays < e.toDays := by
  obtain ⟨hm, hm', hday, hday'⟩ := d.valid
  obtain ⟨hem, hem', heday, heday'⟩ := e.valid
  have hle := daysIn_le (leap d.year) d.month
  have hele := daysIn_le (leap e.year) e.month
  obtain ⟨hlo, hhi⟩ := hd
  obtain ⟨helo, hehi⟩ := he
  rw [toList_dateText, toList_dateText, padZero_append_lt (by omega) (by omega),
    List.cons_lt_cons_self, padZero_append_lt (by omega) (by omega), List.cons_lt_cons_self,
    padZero_lt (by omega) (by omega), toDays_lt_iff]
  unfold DateBefore
  omega

theorem toDays_utc (ts : ℤ) : (TimeZone.utc.toZoned ts).date.toDays = ts / 86400 :=
  Date.toDays_ofDays _

theorem fmtDate_lt_day {ts ts' : ℤ} (h : FourDigits (TimeZone.utc.toZoned ts).date)
    (h' : FourDigits (TimeZone.utc.toZoned ts').date) :
    fmtDate .utc ts false < fmtDate .utc ts' false ↔ ts / 86400 < ts' / 86400 := by
  rw [String.lt_iff, ← toDays_utc ts, ← toDays_utc ts']
  exact dateText_lt h h'

theorem fmtDate_lt_hour {ts ts' : ℤ} (h : FourDigits (TimeZone.utc.toZoned ts).date)
    (h' : FourDigits (TimeZone.utc.toZoned ts').date) :
    fmtDate .utc ts true < fmtDate .utc ts' true ↔ ts / 3600 < ts' / 3600 := by
  have htext : ∀ ts, (fmtDate .utc ts true).toList =
      (dateText (TimeZone.utc.toZoned ts).date).toList ++
        ' ' :: ((padZero 2 (TimeZone.utc.toZoned ts).hour).toList ++ [':', '0', '0']) := by
    simp [fmtDate]
  have hhour : ∀ ts, (TimeZone.utc.toZoned ts).hour < 10 ^ (1 + 1) := by
    intro ts
    have hv := (TimeZone.utc.toZoned ts).valid.1
    omega
  have hlen : (dateText (TimeZone.utc.toZoned ts).date).toList.length =
      (dateText (TimeZone.utc.toZoned ts').date).toList.length := by
    rw [length_dateText h.2, length_dateText h'.2]
  have hsame : (dateText (TimeZone.utc.toZoned ts).date).toList =
      (dateText (TimeZone.utc.toZoned ts').date).toList ↔ ts / 86400 = ts' / 86400 := by
    rw [← toDays_utc ts, ← toDays_utc ts']
    constructor
    · intro htexts
      rw [dateText_injective h.1 h'.1 (String.toList_injective htexts)]
    · intro hdays
      have hdate : (TimeZone.utc.toZoned ts).date = (TimeZone.utc.toZoned ts').date :=
        congrArg Date.ofDays (by rwa [toDays_utc, toDays_utc] at hdays)
      rw [hdate]
  rw [String.lt_iff, htext, htext, append_lt_append hlen, List.cons_lt_cons_self,
    padZero_append_lt (hhour ts) (hhour ts'), dateText_lt h h', hsame, toDays_utc, toDays_utc]
  have hclock : ∀ ts : ℤ, (TimeZone.utc.toZoned ts).hour = (ts % 86400 / 3600).toNat := fun _ => rfl
  rw [hclock, hclock]
  simp only [lt_irrefl, and_false, or_false]
  omega

/-- A date parser of `--from` that reads what `fmt_date` prints. -/
def ReadsDates (civil : String → Option Date) : Prop :=
  ∀ d, FourDigits d → civil (dateText d) = some d

theorem digitChar_spec {n : ℕ} (h : n < 10) :
    (Nat.digitChar n).isDigit = true ∧ ((Nat.digitChar n).toNat : ℤ) - 48 = n := by
  interval_cases n <;> decide

theorem toList_padZero_four {n : ℕ} (h : n < 10000) : (padZero 4 n).toList =
    [Nat.digitChar (n / 1000 % 10), Nat.digitChar (n / 100 % 10), Nat.digitChar (n / 10 % 10),
      Nat.digitChar (n % 10)] := by
  rw [toList_padZero_fixed (by omega)]
  simp [fixed]

theorem toList_padZero_two {n : ℕ} (h : n < 100) : (padZero 2 n).toList =
    [Nat.digitChar (n / 10 % 10), Nat.digitChar (n % 10)] := by
  rw [toList_padZero_fixed (by omega)]
  simp [fixed]

theorem date_new_self (d : Date) : Date.new d.year d.month d.day = some d := by
  have hv := d.valid
  unfold Date.new
  rw [dif_pos (by simp; omega)]
  simp

theorem readsDates_isoDate : ReadsDates isoDate := by
  intro d h
  obtain ⟨hm, hm', hday, hday'⟩ := d.valid
  have hle := daysIn_le (leap d.year) d.month
  obtain ⟨hlo, hhi⟩ := h
  have hdig : ∀ n : ℕ, (Nat.digitChar (n % 10)).isDigit = true ∧
      ((Nat.digitChar (n % 10)).toNat : ℤ) - 48 = (n % 10 : ℕ) :=
    fun n => digitChar_spec (Nat.mod_lt n (by norm_num))
  unfold isoDate
  rw [toList_dateText, toList_padZero_four (by omega), toList_padZero_two (by omega),
    toList_padZero_two (by omega)]
  simp only [List.cons_append, List.nil_append, List.all_cons, List.all_nil, (hdig _).1,
    Bool.and_self, if_true, (hdig _).2]
  rw [← date_new_self d]
  congr 1 <;> omega

/-- The instants a clock of the daemon can read. -/
def OnClock (ts : ℤ) : Prop := 0 ≤ ts ∧ ts ≤ 253402207200

/-- Samples carry readings of the clock, and buckets their starts. -/
structure Dated (db : Db) : Prop where
  samples : ∀ x ∈ db.samples.rows, OnClock x.1.ts
  level : ∀ L, ∀ x ∈ (db.level L).rows, x.1.ts ∈ L.starts ∩ {ts | OnClock ts}

theorem onClock_floor (L : Level) {ts : ℤ} (h : OnClock ts) : OnClock (L.floor .utc ts) := by
  obtain ⟨hlo, hhi⟩ := h
  have hle := (isFloor_level L).le ts
  have hzero : (0 : ℤ) ∈ L.starts := by
    cases L with
    | hourly => exact ⟨0, by norm_num⟩
    | daily => exact ⟨0, by norm_num⟩
    | monthly => exact ⟨⟨1970, 1, 1, by decide⟩, rfl, by decide⟩
  exact ⟨(isFloor_level L).greatest 0 hzero ts hlo, hle.trans hhi⟩

variable {cfg : Config} {db : Db}

theorem dated_rollup (h : Dated db) (f : Faults) : Dated (rollupCall (Level.floor .utc) f db) := by
  refine ⟨by simpa using h.samples, fun L => ?_⟩
  rcases rollupCall_cases (Level.floor .utc) f db with ⟨-, he⟩ | ⟨-, he⟩
  · intro x hx
    rw [he, Db.level_folded] at hx
    obtain ⟨y, hy, hkey⟩ := Table.exists_of_mem_addAll hx
    rw [← hkey]
    rcases List.mem_append.mp hy with hy | hy
    · split at hy
      · simp at hy
      · exact h.level L y hy
    · obtain ⟨z, hz, rfl⟩ := List.mem_map.mp hy
      exact ⟨(isFloor_level L).mem z.1.ts, onClock_floor L (h.samples z (mem_of_rollupRows hz))⟩
  · rw [he]
    exact h.level L

theorem dated_step (cfg : Config) (s : State) (e : Event) (h : Dated s.db) :
    Dated (step cfg .utc s e).db := by
  cases e with
  | tick r =>
    cases hgap : gapBranch cfg r with
    | true => rwa [step, tick_gap hgap]
    | false =>
      have htick := ticked hgap .utc s
      constructor
      · intro x hx
        rw [step, htick.samples] at hx
        rcases mem_insertSamples hx with hx | hx
        · exact h.samples x hx
        · rw [ts_of_mem_tickRows hx]
          exact r.nowWall.valid
      · intro L
        rw [step, htick.level L]
        exact h.level L
  | rollup f => exact dated_rollup h f
  | retain now =>
    refine ⟨fun x hx => h.samples x (List.mem_of_mem_filter hx), fun L x hx => h.level L x ?_⟩
    cases L with
    | hourly => exact List.mem_of_mem_filter hx
    | daily => exact hx
    | monthly => exact hx
  | restart => exact h

theorem dated_run (cfg : Config) (es : List Event) :
    Dated (es.foldl (step cfg .utc) State.init).db :=
  invariant (fun s : State => Dated s.db) (dated_step cfg)
    ⟨by simp [State.init, Db.init], fun L => by cases L <;> simp [State.init, Db.init, Db.level]⟩ es

/-- Between two starts of the rows of a period lie full hours or full days. -/
def Period.grain (period : Period) : ℤ := if period = .hour then 3600 else 86400

theorem starts_grain {period : Period} {ts : ℤ} (h : ts ∈ period.level.starts) :
    period.grain ∣ ts := by
  cases period with
  | hour => exact h.imp (fun _ hk => hk)
  | day => exact h.imp (fun _ hk => hk)
  | week => exact h.imp (fun _ hk => hk)
  | month => exact (monthStarts_subset h).imp (fun _ hk => hk)

theorem row_aligned (h : Dated db) {period : Period} {last : ℤ} {iface : Option String} {r : Row}
    (hr : r ∈ showRows .utc period last iface db) :
    period.grain ∣ r.ts ∧ -259200 ≤ r.ts ∧ r.ts ≤ 253402207200 := by
  obtain ⟨x, hx, hts⟩ := (exists_shown_iff .utc period last iface db r.ts).mp ⟨r, hr, rfl⟩
  obtain ⟨hrow, -⟩ := mem_shownInput.mp hx
  have hbucket : bucketStart .utc period (shownTable period last iface db) x.1.ts ∈
      period.level.starts ∩ {ts | OnClock ts} := by
    rcases shownTable_or period last iface db with hsrc | hsrc
    · rw [hsrc] at hrow ⊢
      show period.sampleFloor .utc x.1.ts ∈ _
      rw [sampleFloor_eq]
      exact ⟨(isFloor_level _).mem _, onClock_floor _ (h.samples x hrow)⟩
    · rw [hsrc] at hrow ⊢
      exact h.level _ x hrow
  obtain ⟨hstart, hlo, hhi⟩ := hbucket
  rw [← hts]
  unfold shownStart
  generalize bucketStart .utc period (shownTable period last iface db) x.1.ts = b
    at hstart hlo hhi ⊢
  split
  · next hweek =>
    obtain ⟨k, hk⟩ := isFloor_week.mem b
    have hle := isFloor_week.le b
    have hge := isFloor_week.greatest (-259200) ⟨-1, by norm_num⟩ b (by omega)
    rw [hweek]
    exact ⟨⟨_, hk⟩, hge, by omega⟩
  · exact ⟨starts_grain hstart, by omega, hhi⟩

theorem fourDigits_utc {ts : ℤ} (hlo : -259200 ≤ ts) (hhi : ts ≤ 253402207200) :
    FourDigits (TimeZone.utc.toZoned ts).date := by
  obtain ⟨hyear, hyear'⟩ := year_utc (by omega) hhi
  exact ⟨by omega, hyear'⟩

theorem label_lt {period : Period} {ts ts' : ℤ} (hlt : ts < ts')
    (h : period.grain ∣ ts ∧ -259200 ≤ ts ∧ ts ≤ 253402207200)
    (h' : period.grain ∣ ts' ∧ -259200 ≤ ts' ∧ ts' ≤ 253402207200) :
    fmtDate .utc ts (period = .hour) < fmtDate .utc ts' (period = .hour) := by
  obtain ⟨hgrain, hlo, hhi⟩ := h
  obtain ⟨hgrain', hlo', hhi'⟩ := h'
  have hyear := fourDigits_utc hlo hhi
  have hyear' := fourDigits_utc hlo' hhi'
  unfold Period.grain at hgrain hgrain'
  by_cases hp : period = .hour
  · simp only [hp, if_true, decide_true] at *
    rw [fmtDate_lt_hour hyear hyear']
    omega
  · simp only [hp, if_false, decide_false] at *
    rw [fmtDate_lt_day hyear hyear']
    omega

theorem parseDate_label {civil : String → Option Date} (hcivil : ReadsDates civil) {ts : ℤ}
    (hday : 86400 ∣ ts) (hlo : -259200 ≤ ts) (hhi : ts ≤ 253402207200) :
    parseDate civil .utc (fmtDate .utc ts false) = .ok (ts + 86400) := by
  have hdate : civil (fmtDate .utc ts false) = some (TimeZone.utc.toZoned ts).date :=
    hcivil _ (fourDigits_utc hlo hhi)
  have hmid : midnight .utc (TimeZone.utc.toZoned ts).date = ts := by
    rw [midnight_utc, toDays_utc]
    omega
  have hrange : TimestampRange ts := ⟨by omega, hhi⟩
  unfold parseDate
  rw [hdate]
  dsimp only
  rw [hmid, if_pos hrange]

/-- Whatever the daemon has recorded, rolled up and pruned: the dates that `show`
prints are strictly ascending as texts, so that no two rows carry the same, and each
date without an hour is read back by every parser of `--from` that reads dates. -/
theorem show_labels (cfg : Config) (es : List Event) (civil : String → Option Date)
    (period : Period) (start : Option String) (now : ℤ) (iface : Option String) (reply : ShowJson)
    (h : cmdShowJson civil .utc period start now iface
      (some (es.foldl (step cfg .utc) State.init).db) = .ok reply) :
    reply.rows.Pairwise (fun a b => a.date < b.date) ∧
      (period ≠ .hour → ∀ civil', ReadsDates civil' → ∀ row ∈ reply.rows,
        parseDate civil' .utc row.date = .ok (row.ts + 86400)) := by
  have hdated := dated_run cfg es
  generalize (es.foldl (step cfg .utc) State.init).db = db at h hdated
  obtain ⟨last, rfl⟩ : ∃ last, reply = ⟨apiVersion, some period.view,
      (showRows .utc period last iface db).map (Row.json .utc period)⟩ := by
    unfold cmdShowJson cmdShow at h
    cases start with
    | none => exact ⟨now, (Except.ok.inj h).symm⟩
    | some s =>
      dsimp only at h
      cases hs : parseDate civil .utc s with
      | error e => simp [hs, Except.map] at h
      | ok last =>
        rw [hs] at h
        exact ⟨last, (Except.ok.inj h).symm⟩
  have hasc : (showRows .utc period last iface db).Pairwise (fun a b => a.ts < b.ts) :=
    ascending_of_pairs (pairs_showRows .utc period last iface db)
  constructor
  · rw [List.pairwise_map]
    refine hasc.imp_of_mem (fun {a b} ha hb hlt => ?_)
    exact label_lt hlt (row_aligned hdated ha) (row_aligned hdated hb)
  · intro hp civil' hcivil row hrow
    obtain ⟨r, hr, rfl⟩ := List.mem_map.mp hrow
    obtain ⟨hgrain, hlo, hhi⟩ := row_aligned hdated hr
    rw [Period.grain, if_neg hp] at hgrain
    have hlabel : (Row.json .utc period r).date = fmtDate .utc r.ts false := by
      simp [Row.json, hp]
    rw [hlabel]
    exact parseDate_label hcivil hgrain hlo hhi

theorem show_labels_twoDays :
    let es : List Event := [.tick (rxReading 86400 1000), .tick (rxReading 86405 3000),
      .tick (rxReading 172805 4000), .rollup noFaults]
    ∃ reply, cmdShowJson isoDate .utc .day none 172810 none
        (some (es.foldl (step {} .utc) State.init).db) = .ok reply ∧
      reply.rows.map (·.date) = ["1970-01-02", "1970-01-03"] ∧
      reply.rows.Pairwise (fun a b => a.date < b.date) ∧
      ∀ row ∈ reply.rows, parseDate isoDate .utc row.date = .ok (row.ts + 86400) :=
  have h := show_labels {} [.tick (rxReading 86400 1000), .tick (rxReading 86405 3000),
    .tick (rxReading 172805 4000), .rollup noFaults] isoDate .day none 172810 none _ rfl
  ⟨_, rfl, by decide +kernel, h.1, h.2 (by decide) isoDate readsDates_isoDate⟩

end Netmeter
