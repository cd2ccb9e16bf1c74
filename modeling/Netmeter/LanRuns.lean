import Netmeter.Ruleset
import Netmeter.CountedOnce
import Netmeter.Apportion
set_option autoImplicit false

/-!
From packets to the database: packets that pass the table, the daemon that reads its
counters and installs it anew, and whoever flushes it.
-/

namespace Netmeter
open Nftables PacketFilter Keyed Transaction

/-- Whether `destroy` removes the old table, and whether `nft -f` runs. -/
structure InstallRun where
  destroyed : Bool
  ran : Bool

/-- `install_nft`: a table that is still there aborts the batch. -/
def installNft (nft : Loader) (lanSubnets : List String) (i : InstallRun) (live : Option Live) :
    Option Live :=
  match if i.destroyed then none else live with
  | some l => some l
  | none => if i.ran then (lanTable lanSubnets).load nft else none

def liveLan (l : Live) : UInt64 × UInt64 :=
  (.ofNat (l.bytes "lan_rx_bytes"), .ofNat (l.bytes "lan_tx_bytes"))

/-- nft's table, where there is one, and the daemon with its database; `replaced` since the
daemon started. For the account: the jobs and packets so far, and the LAN bytes when the
daemon last looked. -/
structure Machine where
  live : Option Live := none
  state : State := State.init
  replaced : Bool := false
  log : List Event := []
  packets : List (Hook × Packet) := []
  seen : Direction → ℕ := fun _ => 0

inductive Happening where
  | packet (hook : Hook) (p : Packet)
  /-- Someone removes the table. -/
  | flush
  /-- The daemon starts, and installs the table where it finds none. -/
  | start (found : Bool) (i : InstallRun)
  /-- `daemon install` puts a new table under the running daemon, which it restarts last. -/
  | install (i : InstallRun)
  /-- A pass of the loop; nft may fail to list a table that is there. -/
  | tick (r : Reading) (listed : Bool) (i : InstallRun)
  | rollup (f : Faults)
  | retain (now : WallClock)

section Runs
variable (cfg : Config) (tz : TimeZone) (nft : Loader) (lanSubnets : List String)

namespace Machine

def job (m : Machine) (e : Event) : Machine :=
  { m with state := Netmeter.step cfg tz m.state e, log := m.log ++ [e] }

def look (m : Machine) : Machine :=
  { m with seen := fun dir => lanTraffic nft lanSubnets dir m.packets }

def install (m : Machine) (i : InstallRun) : Machine :=
  { m with live := installNft nft lanSubnets i m.live }

def reading (m : Machine) (r : Reading) (listed : Bool) : Reading :=
  { r with lanNow := if listed then m.live.map liveLan else none }

def step (m : Machine) : Happening → Machine
  | .packet hook p =>
    { m with live := m.live.map (fun l => l.pass hook p), packets := m.packets ++ [(hook,p)] }
  | .flush => { m with live := none }
  | .start found i =>
    let m := { (m.job cfg tz .restart).look nft lanSubnets with replaced := false }
    if found then m else m.install nft lanSubnets i
  | .install i => { m.install nft lanSubnets i with replaced := true }
  | .tick r listed i =>
    let r := m.reading r listed
    let m' := (m.job cfg tz (.tick r)).look nft lanSubnets
    if gapBranch cfg r then m'
    else if (nftStep m.state.daemon r.lanNow r.tableExists).2 then m'.install nft lanSubnets i
    else m'
  | .rollup f => m.job cfg tz (.rollup f)
  | .retain now => m.job cfg tz (.retain now)

end Machine

def packetsOf (hs : List Happening) : List (Hook × Packet) :=
  hs.filterMap (fun
    | .packet hook p => some (hook,p)
    | _ => none)

/-- The LAN bytes of rows whose interface is not forced to be LAN. -/
def unforcedLan (dir : Direction) (rows : List Sample) : ℤ :=
  ((rows.filter (fun x => !cfg.forcedLan x.1.name)).map (fun x => dir.lan x.2)).sum

def Happening.Bounded : Happening → Prop
  | .tick r _ _ => BoundedSpeeds cfg r
  | _ => True

/-- No pass of the loop falls between a `daemon install`'s new table and its restart. -/
def Happening.Restarted (m : Machine) : Happening → Prop
  | .tick _ _ _ => m.replaced = false
  | _ => True

/-- The table is the daemon's own, its counters have grown since the daemon's last reading of
them by the LAN bytes since then, and what is recorded was there to be seen. -/
structure Machine.Balanced (m : Machine) : Prop where
  state : m.state = m.log.foldl (Netmeter.step cfg tz) State.init
  bounded : Along (Netmeter.step cfg tz) (Bounded cfg) State.init m.log
  program : ∀ l, m.live = some l →
    ∃ fresh, (lanTable lanSubnets).load nft = some fresh ∧ l = { fresh with bytes := l.bytes }
  counters : m.replaced = false → ∀ l o, m.live = some l → m.state.daemon.prevLan = some o →
    ∀ dir : Direction, (dir.counter (liveLan l)).toNat = ((dir.counter o).toNat +
      (lanTraffic nft lanSubnets dir m.packets - m.seen dir)) % 2 ^ 64
  seen : ∀ dir, m.seen dir ≤ lanTraffic nft lanSubnets dir m.packets
  rows : ∀ dir, unforcedLan cfg dir (written cfg tz State.init m.log) ≤ m.seen dir

end Runs

theorem deltaNat_le_grown {o n b x : ℕ} (ho : o < 2 ^ 64) (hn : n = (o + x) % 2 ^ 64) :
    deltaNat o n b ≤ x := by
  rcases le_or_gt o n with hle | hlt
  · have hgrown : n ≤ o + x := hn ▸ Nat.mod_le _ _
    rw [deltaNat_of_le hle]
    split <;> omega
  · -- a smaller value is a wrap of all 64 bits, further than any rule takes it
    have hwrapped : n + 2 ^ 64 ≤ o + x := by
      have hdiv := Nat.mod_add_div (o + x) (2 ^ 64)
      have hone : 1 ≤ (o + x) / 2 ^ 64 := by
        by_contra hzero
        have hzero' : (o + x) / 2 ^ 64 = 0 := by omega
        rw [hzero'] at hdiv
        omega
      omega
    have hpoint : wrapPoint o ≤ 2 ^ 64 := by
      unfold wrapPoint
      split <;> omega
    unfold deltaNat
    rw [diffNat_of_lt hlt ho]
    split
    · omega
    · split <;> omega

theorem lanTraffic_concat (nft : Loader) (lanSubnets : List String) (dir : Direction)
    (packets : List (Hook × Packet)) (x : Hook × Packet) :
    lanTraffic nft lanSubnets dir (packets ++ [x]) =
      lanTraffic nft lanSubnets dir packets +
        if isLan nft lanSubnets dir x then x.2.length else 0 := by
  unfold lanTraffic
  rw [List.filter_append, List.map_append, List.sum_append]
  cases hx : isLan nft lanSubnets dir x <;> simp [hx]

theorem counter_liveLan (l : Live) (dir : Direction) :
    dir.counter (liveLan l) = .ofNat (l.bytes dir.lanCounter) := by
  cases dir <;> rfl

theorem unforcedLan_append (cfg : Config) (dir : Direction) (rows rows' : List Sample) :
    unforcedLan cfg dir (rows ++ rows') = unforcedLan cfg dir rows + unforcedLan cfg dir rows' := by
  unfold unforcedLan
  rw [List.filter_append, List.map_append, List.sum_append]

section Account
variable {cfg : Config} {tz : TimeZone} {nft : Loader} {lanSubnets : List String} {m : Machine}

theorem unforcedLan_tick {r : Reading} (hb : BoundedSpeeds cfg r) (d : Daemon) (dir : Direction) :
    unforcedLan cfg dir (rowsOf cfg d (.tick r)) ≤ dir.pick (lanDelta cfg d r) := by
  have hlan : 0 ≤ dir.pick (lanDelta cfg d r) := by
    cases dir with
    | rx => exact (lanDelta_nonneg hb d).1
    | tx => exact (lanDelta_nonneg hb d).2
  have hper : ∀ p ∈ perIfs cfg d r, 0 ≤ dir.bytes p := by
    intro p hp
    cases dir with
    | rx => exact (perIfs_nonneg hb hp).1
    | tx => exact (perIfs_nonneg hb hp).2
  cases hgap : gapBranch cfg r with
  | true =>
    have hnone : rowsOf cfg d (.tick r) = [] := by simp [rowsOf, hgap]
    rw [hnone]
    exact hlan
  | false =>
    refine le_of_eq_of_le ?_ (sum_unforced_le hlan hper)
    simp only [unforcedLan, rowsOf, hgap, Bool.false_eq_true, if_false, tickRows,
      List.filter_map, List.map_map]
    rfl

theorem pick_lanDelta {d : Daemon} {r : Reading} {o n : UInt64 × UInt64}
    (hprev : d.prevLan = some o) (hnow : r.lanNow = some n) (dir : Direction) :
    dir.pick (lanDelta cfg d r) =
      asI64 (delta (dir.counter o) (dir.counter n) (maxBytesPerTick cfg (r.speed "lan"))).1 := by
  have hboth : lanDelta cfg d r =
      (asI64 (delta o.1 n.1 (maxBytesPerTick cfg (r.speed "lan"))).1,
        asI64 (delta o.2 n.2 (maxBytesPerTick cfg (r.speed "lan"))).1) := by
    unfold lanDelta
    rw [hprev, hnow]
  have hpick : ∀ a b : ℤ, dir.pick (a,b) = if dir = .rx then a else b := by
    intro a b
    cases dir <;> rfl
  rw [hboth, hpick]
  cases dir with
  | rx => rw [if_pos rfl, Direction.counter]
  | tx => rw [if_neg (by decide), Direction.counter]

theorem lanDelta_of_unread {d : Daemon} {r : Reading} (h : d.prevLan = none ∨ r.lanNow = none) :
    lanDelta cfg d r = (0,0) := by
  unfold lanDelta
  rcases h with h | h
  · rw [h]
  · rw [h]
    cases d.prevLan <;> rfl

theorem reading_lanNow {r : Reading} {listed : Bool} {n : UInt64 × UInt64}
    (h : (m.reading r listed).lanNow = some n) : ∃ l, m.live = some l ∧ liveLan l = n := by
  cases listed with
  | false => cases h
  | true => exact Option.map_eq_some_iff.mp h

theorem lanDelta_le (h : m.Balanced cfg tz nft lanSubnets) (hown : m.replaced = false)
    {r : Reading} {listed : Bool} (hb : BoundedSpeeds cfg r) (dir : Direction) :
    dir.pick (lanDelta cfg m.state.daemon (m.reading r listed)) ≤
      (lanTraffic nft lanSubnets dir m.packets - m.seen dir : ℕ) := by
  have hzero : dir.pick ((0,0) : ℤ × ℤ) = 0 := by cases dir <;> rfl
  cases hprev : m.state.daemon.prevLan with
  | none =>
    rw [lanDelta_of_unread (.inl hprev), hzero]
    exact Int.natCast_nonneg _
  | some o =>
    cases hnow : (m.reading r listed).lanNow with
    | none =>
      rw [lanDelta_of_unread (.inr hnow), hzero]
      exact Int.natCast_nonneg _
    | some n =>
      obtain ⟨l, hl, rfl⟩ := reading_lanNow hnow
      have hspeed : (m.reading r listed).speed = r.speed := rfl
      rw [pick_lanDelta hprev hnow, hspeed, asI64_of_lt (delta_lt (hb "lan")), delta_toNat]
      exact Int.ofNat_le.mpr
        (deltaNat_le_grown (dir.counter o).toNat_lt (h.counters hown l o hl hprev dir))

theorem balanced_init : ({} : Machine).Balanced cfg tz nft lanSubnets where
  state := rfl
  bounded := trivial
  program := fun l hl => by cases hl
  counters := fun _ l o hl => by cases hl
  seen := fun _ => le_rfl
  rows := fun _ => le_rfl

theorem written_job (h : m.Balanced cfg tz nft lanSubnets) (e : Event) :
    written cfg tz State.init (m.job cfg tz e).log =
      written cfg tz State.init m.log ++ rowsOf cfg m.state.daemon e := by
  rw [Machine.job, written_append, ← h.state, written, written, List.append_nil]

theorem job_state (h : m.Balanced cfg tz nft lanSubnets) (e : Event) :
    (m.job cfg tz e).state = (m.job cfg tz e).log.foldl (step cfg tz) State.init := by
  rw [Machine.job, List.foldl_append, ← h.state]
  rfl

theorem job_bounded (h : m.Balanced cfg tz nft lanSubnets) {e : Event}
    (he : Bounded cfg m.state e) :
    Along (step cfg tz) (Bounded cfg) State.init (m.job cfg tz e).log := by
  rw [Machine.job, along_append, ← h.state]
  exact ⟨h.bounded, he, trivial⟩

theorem balanced_job (h : m.Balanced cfg tz nft lanSubnets) {e : Event} (he : Bounded cfg m.state e)
    (hrows : rowsOf cfg m.state.daemon e = [])
    (hdaemon : (step cfg tz m.state e).daemon = m.state.daemon) :
    (m.job cfg tz e).Balanced cfg tz nft lanSubnets where
  state := job_state h e
  bounded := job_bounded h he
  program := h.program
  counters := fun hown l o hl ho => h.counters hown l o hl (hdaemon ▸ ho)
  seen := h.seen
  rows := fun dir => by
    rw [written_job h, hrows, List.append_nil]
    exact h.rows dir

theorem balanced_look (h : m.Balanced cfg tz nft lanSubnets) {e : Event}
    (he : Bounded cfg m.state e)
    (hrows : ∀ dir, unforcedLan cfg dir (rowsOf cfg m.state.daemon e) ≤
      (lanTraffic nft lanSubnets dir m.packets - m.seen dir : ℕ))
    (hlook : ∀ l o, m.live = some l → (step cfg tz m.state e).daemon.prevLan = some o →
      o = liveLan l) :
    ((m.job cfg tz e).look nft lanSubnets).Balanced cfg tz nft lanSubnets where
  state := job_state h e
  bounded := job_bounded h he
  program := h.program
  counters := fun _ l o hl ho dir => by
    obtain rfl := hlook l o hl ho
    have hlt := (dir.counter (liveLan l)).toNat_lt
    show _ = ((dir.counter (liveLan l)).toNat + (lanTraffic nft lanSubnets dir m.packets -
      lanTraffic nft lanSubnets dir m.packets)) % 2 ^ 64
    rw [Nat.sub_self, Nat.add_zero, Nat.mod_eq_of_lt hlt]
  seen := fun _ => le_rfl
  rows := fun dir => by
    have hseen := h.seen dir
    have hold := h.rows dir
    have hnew := hrows dir
    show unforcedLan cfg dir (written cfg tz State.init (m.job cfg tz e).log) ≤
      (lanTraffic nft lanSubnets dir m.packets : ℕ)
    rw [written_job h, unforcedLan_append]
    omega

theorem program_install (h : m.Balanced cfg tz nft lanSubnets) (i : InstallRun) :
    ∀ l, (m.install nft lanSubnets i).live = some l →
      ∃ fresh, (lanTable lanSubnets).load nft = some fresh ∧ l = { fresh with bytes := l.bytes } := by
  intro l hl
  have hcases : m.live = some l ∨ (lanTable lanSubnets).load nft = some l := by
    unfold Machine.install installNft at hl
    dsimp only at hl
    split at hl
    · next left hleft =>
      split at hleft
      · cases hleft
      · exact .inl (hleft.trans hl)
    · split at hl
      · exact .inr hl
      · cases hl
  rcases hcases with hlive | hload
  · exact h.program l hlive
  · exact ⟨l, hload, rfl⟩

theorem balanced_install (h : m.Balanced cfg tz nft lanSubnets)
    (hprev : m.state.daemon.prevLan = none) (i : InstallRun) :
    (m.install nft lanSubnets i).Balanced cfg tz nft lanSubnets where
  state := h.state
  bounded := h.bounded
  program := program_install h i
  counters := fun _ l o _ ho => by
    have hnone : m.state.daemon.prevLan = some o := ho
    rw [hprev] at hnone
    cases hnone
  seen := h.seen
  rows := h.rows

theorem balanced_replace (h : m.Balanced cfg tz nft lanSubnets) (i : InstallRun) :
    (m.step cfg tz nft lanSubnets (.install i)).Balanced cfg tz nft lanSubnets where
  state := h.state
  bounded := h.bounded
  program := program_install h i
  counters := fun hown => by cases hown
  seen := h.seen
  rows := h.rows

theorem balanced_packet (hcolon : ColonTells nft) (h : m.Balanced cfg tz nft lanSubnets)
    (hook : Hook) (p : Packet) :
    (m.step cfg tz nft lanSubnets (.packet hook p)).Balanced cfg tz nft lanSubnets where
  state := h.state
  bounded := h.bounded
  program := fun l hl => by
    obtain ⟨l', hl', rfl⟩ := Option.map_eq_some_iff.mp hl
    obtain ⟨fresh, hload, hfresh⟩ := h.program l' hl'
    refine ⟨fresh, hload, ?_⟩
    rw [hfresh]
    rfl
  counters := fun hown l o hl ho dir => by
    obtain ⟨l', hl', rfl⟩ := Option.map_eq_some_iff.mp hl
    obtain ⟨fresh, hload, hfresh⟩ := h.program l' hl'
    have hold := h.counters hown l' o hl' ho dir
    have hseen := h.seen dir
    have hbytes : (l'.pass hook p).bytes dir.lanCounter = l'.bytes dir.lanCounter +
        if isLan nft lanSubnets dir (hook,p) then p.length else 0 := by
      have hcount := count_lanCounter hcolon hload dir (hook,p)
      have hrun : l'.run = fresh.run := by rw [hfresh]; rfl
      show l'.bytes dir.lanCounter + (l'.run hook p).1.count dir.lanCounter * p.length = _
      rw [hrun, hcount]
      split <;> simp
    rw [counter_liveLan, UInt64.toNat_ofNat'] at hold ⊢
    rw [hbytes]
    show _ = ((dir.counter o).toNat +
      (lanTraffic nft lanSubnets dir (m.packets ++ [(hook,p)]) - m.seen dir)) % 2 ^ 64
    rw [lanTraffic_concat]
    generalize (if isLan nft lanSubnets dir (hook,p) then p.length else 0) = x
    rw [Nat.sub_add_comm hseen, ← Nat.add_assoc]
    exact Nat.ModEq.add_right x hold
  seen := fun dir => by
    show m.seen dir ≤ lanTraffic nft lanSubnets dir (m.packets ++ [(hook,p)])
    rw [lanTraffic_concat]
    exact (h.seen dir).trans (Nat.le_add_right _ _)
  rows := h.rows

theorem prevLan_tick (s : State) (r : Reading) :
    (tick cfg tz s r).daemon.prevLan = r.lanNow := by
  cases hgap : gapBranch cfg r with
  | true => simp [tick, tickSamples, hgap]
  | false => exact (ticked hgap tz s).prevLan

theorem unread_of_install {d : Daemon} {lanNow : Option (UInt64 × UInt64)} {found : Bool}
    (h : (nftStep d lanNow found).2 = true) : lanNow = none := by
  unfold nftStep at h
  cases lanNow with
  | none => rfl
  | some n => cases h

theorem balanced_restart (h : m.Balanced cfg tz nft lanSubnets) :
    ({ (m.job cfg tz .restart).look nft lanSubnets with replaced := false } : Machine).Balanced
      cfg tz nft lanSubnets := by
  have hlooked : ((m.job cfg tz .restart).look nft lanSubnets).Balanced cfg tz nft lanSubnets :=
    balanced_look h trivial (fun dir => Int.natCast_nonneg _) (fun l o _ ho => by cases ho)
  exact ⟨hlooked.state, hlooked.bounded, hlooked.program, (fun _ l o _ ho => by cases ho),
    hlooked.seen, hlooked.rows⟩

theorem balanced_tick (h : m.Balanced cfg tz nft lanSubnets) (hown : m.replaced = false)
    {r : Reading} (hb : BoundedSpeeds cfg r) (listed : Bool) (i : InstallRun) :
    (m.step cfg tz nft lanSubnets (.tick r listed i)).Balanced cfg tz nft lanSubnets := by
  have hprev : (step cfg tz m.state (.tick (m.reading r listed))).daemon.prevLan =
      (m.reading r listed).lanNow := prevLan_tick m.state _
  have hlooked : ((m.job cfg tz (.tick (m.reading r listed))).look nft lanSubnets).Balanced
      cfg tz nft lanSubnets := by
    have hspeeds : BoundedSpeeds cfg (m.reading r listed) := fun j => hb j
    have hrows : ∀ dir, unforcedLan cfg dir
        (rowsOf cfg m.state.daemon (.tick (m.reading r listed))) ≤
          (lanTraffic nft lanSubnets dir m.packets - m.seen dir : ℕ) :=
      fun dir => (unforcedLan_tick hspeeds _ dir).trans (lanDelta_le h hown hb dir)
    refine balanced_look h hspeeds hrows (fun l o hl ho => ?_)
    obtain ⟨l', hl', rfl⟩ := reading_lanNow (hprev.symm.trans ho)
    obtain rfl := Option.some.inj (hl.symm.trans hl')
    rfl
  unfold Machine.step
  dsimp only
  split
  · exact hlooked
  · split
    · next hinstall => exact balanced_install hlooked (hprev.trans (unread_of_install hinstall)) i
    · exact hlooked

theorem balanced_step (hcolon : ColonTells nft) (h : m.Balanced cfg tz nft lanSubnets)
    {e : Happening} (he : e.Bounded cfg) (hown : e.Restarted m) :
    (m.step cfg tz nft lanSubnets e).Balanced cfg tz nft lanSubnets := by
  cases e with
  | packet hook p => exact balanced_packet hcolon h hook p
  | flush =>
    exact ⟨h.state, h.bounded, fun l hl => absurd hl (Option.some_ne_none l).symm,
      fun _ l o hl => absurd hl (Option.some_ne_none l).symm, h.seen, h.rows⟩
  | start found i =>
    unfold Machine.step
    dsimp only
    split
    · exact balanced_restart h
    · exact balanced_install (balanced_restart h) rfl i
  | install i => exact balanced_replace h i
  | tick r listed i => exact balanced_tick h hown he listed i
  | rollup f => exact balanced_job h trivial rfl rfl
  | retain now => exact balanced_job h trivial rfl rfl

theorem balanced_run (hcolon : ColonTells nft) (h : m.Balanced cfg tz nft lanSubnets)
    {hs : List Happening} (hb : ∀ e ∈ hs, e.Bounded cfg)
    (hown : Along (Machine.step cfg tz nft lanSubnets) (fun m e => e.Restarted m) m hs) :
    (hs.foldl (Machine.step cfg tz nft lanSubnets) m).Balanced cfg tz nft lanSubnets := by
  induction hs generalizing m with
  | nil => exact h
  | cons e hs ih =>
    exact ih (balanced_step hcolon h (hb e List.mem_cons_self) hown.1)
      (fun e' he' => hb e' (List.mem_cons_of_mem e he')) hown.2

theorem packets_run (hs : List Happening) :
    (hs.foldl (Machine.step cfg tz nft lanSubnets) m).packets = m.packets ++ packetsOf hs := by
  induction hs generalizing m with
  | nil => exact (List.append_nil _).symm
  | cons e hs ih =>
    have hstep : (m.step cfg tz nft lanSubnets e).packets = m.packets ++ packetsOf [e] := by
      cases e with
      | packet hook p => rfl
      | start found i => cases found <;> exact (List.append_nil _).symm
      | tick r listed i =>
        unfold Machine.step
        dsimp only
        split
        · exact (List.append_nil _).symm
        · split <;> exact (List.append_nil _).symm
      | _ => exact (List.append_nil _).symm
    rw [List.foldl_cons, ih, hstep, List.append_assoc]
    congr 1
    exact (List.filterMap_append (l := [e])).symm

end Account

def Direction.lanHom : Direction → Counts →+ ℤ
  | .rx => Counts.lanRxHom
  | .tx => Counts.lanTxHom

theorem lanHom_apply (dir : Direction) (c : Counts) : dir.lanHom c = dir.lan c := by
  cases dir <;> rfl

theorem table_lan_le {cfg : Config} {tz : TimeZone} {es : List Event}
    (h : Along (step cfg tz) (Bounded cfg) State.init es) (src : Source) (p : Key → Bool)
    (dir : Direction) :
    dir.lan (value (total (fun k => p k && !cfg.forcedLan k.name)
      ((es.foldl (step cfg tz) State.init).db.table src).rows)) ≤
        unforcedLan cfg dir (written cfg tz State.init es) := by
  obtain ⟨j, hstate, hj⟩ := countsOnce_run cfg (countsOnce_init tz) es
  obtain ⟨part, rekey, hpart, hname, htotal⟩ := exists_part hj src
  have hstate' : es.foldl (step cfg tz) State.init = j.state := hstate.symm
  rw [hstate', htotal, ← lanHom_apply, map_value_total]
  have hsub : (part.filter (fun x => p (rekey x.1) && !cfg.forcedLan (rekey x.1).name)).Subperm
      ((written cfg tz State.init es).filter (fun x => !cfg.forcedLan x.1.name)) := by
    have hfilter : part.filter (fun x => p (rekey x.1) && !cfg.forcedLan (rekey x.1).name) =
        (part.filter (fun x => !cfg.forcedLan x.1.name)).filter (fun x => p (rekey x.1)) := by
      rw [List.filter_filter]
      exact List.filter_congr (fun x _ => by rw [hname])
    rw [hfilter]
    exact List.filter_sublist.subperm.trans (hpart.filter _)
  have hnonneg : ∀ x ∈ (written cfg tz State.init es).filter (fun x => !cfg.forcedLan x.1.name),
      0 ≤ dir.lanHom x.2 := by
    intro x hx
    obtain ⟨hrx, -, htx, -⟩ := split_written h x (List.mem_of_mem_filter hx)
    cases dir with
    | rx => exact hrx
    | tx => exact htx
  refine (sum_map_le_of_subperm hsub hnonneg).trans (le_of_eq ?_)
  simp only [unforcedLan, lanHom_apply]

def homeRun : List Happening :=
  [.start false ⟨true,true⟩, .tick (rxReading 1800000005 1000) true ⟨true,true⟩,
    .packet .input ⟨.ip, 3232235786, 3232235777, 1500⟩,
    .tick (rxReading 1800000010 2600) true ⟨true,true⟩, .flush,
    .packet .input ⟨.ip, 3232235786, 3232235777, 700⟩,
    .tick (rxReading 1800000015 3400) true ⟨true,true⟩, .install ⟨true,true⟩,
    .start true ⟨true,true⟩, .tick (rxReading 1800000020 3500) true ⟨true,true⟩]

theorem homeRun_bounded : ∀ e ∈ homeRun, e.Bounded {} := by
  intro e he
  simp only [homeRun, List.mem_cons, List.not_mem_nil, or_false] at he
  rcases he with rfl | rfl | rfl | rfl | rfl | rfl | rfl | rfl | rfl | rfl
  · trivial
  · exact fun _ => defaultBound_lt
  · trivial
  · exact fun _ => defaultBound_lt
  · trivial
  · trivial
  · exact fun _ => defaultBound_lt
  · trivial
  · trivial
  · exact fun _ => defaultBound_lt

example : (homeRun.foldl (Machine.step {} .utc homeNft ["192.168.0.0/16"])
      {}).state.db.samples.rows.map (fun x => (x.2.rx, x.2.lanRx)) = [(1600, 1500), (800, 0)] := by
  decide +kernel

-- read before the restart, the new table's counters pass for a wrap
example :
    let hs : List Happening := homeRun.take 4 ++ [.install ⟨true,true⟩,
      .tick (rxReading 1800000015 3400) true ⟨true,true⟩]
    (hs.foldl (Machine.step {} .utc homeNft ["192.168.0.0/16"])
      {}).state.db.samples.rows.map (fun x => (x.2.rx, x.2.lanRx)) = [(1600, 1500), (800, 800)] := by
  decide +kernel

end Netmeter
