import Netmeter.UserAgent
set_option autoImplicit false

/-!
Delivery of the agent's notifications: the two channels of `notify`, whose
outcome no sentinel depends on.
-/

namespace Netmeter
open Transaction

inductive NotifyChannel where
  | dbus | notifySend
  deriving DecidableEq, Repr

structure Outcome where
  dbus : Bool
  notifySend : Bool

/-- `notify`: the channel that delivers, if any; the caller is not told. -/
def notify (o : Outcome) : Option NotifyChannel :=
  let ok := o.dbus
  if !ok then
    if o.notifySend then some .notifySend else none
  else some .dbus

theorem notify_isSome {o : Outcome} :
    (notify o).isSome = true ↔ o.dbus = true ∨ o.notifySend = true := by
  obtain ⟨dbus, notifySend⟩ := o
  cases dbus <;> cases notifySend <;> decide

/-- One poll: the clock, whether there is a session, the database it reads, and
what would become of a notification of each threshold. -/
structure AgentPoll where
  now : ℤ
  session : Bool
  db : Db
  outcome : ℕ → Outcome

structure Attempt where
  key : String
  notice : Notice
  channel : Option NotifyChannel

structure Agent where
  dir : CacheDir := ∅
  attempts : List Attempt := []

section
variable (cfg : Config) (tz : TimeZone)

def AgentPoll.key (p : AgentPoll) : String := budgetKey tz p.now (livePeriod cfg)

def AgentPoll.active (p : AgentPoll) : Bool :=
  cfg.effectiveBudget.isSome && cfg.notifyOnBudget && p.session

def Agent.poll (a : Agent) (p : AgentPoll) : Agent :=
  let out := checkOnce cfg tz p.now p.session p.db a.dir
  { dir := out.2
    attempts := a.attempts ++ out.1.map (fun n => ⟨p.key cfg tz, n, notify (p.outcome n.pct)⟩) }

def AgentPoll.attempt (p : AgentPoll) (T : Threshold) : Attempt :=
  ⟨p.key cfg tz, T.notice (periodAdverb (livePeriod cfg)) (p.key cfg tz), notify (p.outcome T.pct)⟩

theorem Agent.poll_active {p : AgentPoll} (h : p.active cfg = true) (a : Agent) :
    a.poll cfg tz p =
      { dir := (fresh p.db a.dir (p.key cfg tz)).foldl
          (fun d T => markSent d (p.key cfg tz) T.pct) a.dir
        attempts := a.attempts ++
          (fresh p.db a.dir (p.key cfg tz)).map (p.attempt cfg tz) } := by
  simp only [AgentPoll.active, Bool.and_eq_true] at h
  obtain ⟨⟨hsome, hon⟩, hsession⟩ := h
  obtain ⟨⟨period, gb⟩, hbudget⟩ := Option.isSome_iff_exists.mp hsome
  have hperiod : livePeriod cfg = period := by simp [livePeriod, hbudget]
  unfold poll AgentPoll.attempt AgentPoll.key
  rw [hsession, checkOnce_eq hbudget hon, hperiod]
  dsimp only
  rw [List.map_map]
  rfl

theorem Agent.poll_inactive {p : AgentPoll} (h : p.active cfg = false) (a : Agent) :
    a.poll cfg tz p = a := by
  have hnone : checkOnce cfg tz p.now p.session p.db a.dir = ([], a.dir) := by
    cases hbudget : cfg.effectiveBudget with
    | none => simp [checkOnce, hbudget]
    | some b =>
      refine checkOnce_guarded ?_ tz p.now p.db a.dir
      simpa [AgentPoll.active, hbudget] using h
  unfold poll
  rw [hnone]
  simp

def Agent.Delivered (a : Agent) (key : String) (pct : ℕ) : Prop :=
  ∃ x ∈ a.attempts, x.key = key ∧ x.notice.pct = pct ∧ x.channel.isSome = true

/-- A sentinel means a delivery; without one the file is absent, and any poll of
the window that finds the flag set tries again. -/
structure Agent.Honest (a : Agent) : Prop where
  marked : ∀ key pct, sentinel a.dir key pct = true → a.Delivered key pct
  retried : ∀ (p : AgentPoll) (T : Threshold), ¬ a.Delivered (p.key cfg tz) T.pct →
    sentinel a.dir (p.key cfg tz) T.pct = false ∧
      (p.active cfg = true → T.flag (p.db.crossed (p.key cfg tz)) = 1 →
        ∃ new, (a.poll cfg tz p).attempts = a.attempts ++ new ∧ p.attempt cfg tz T ∈ new)

theorem Agent.honest_of_marked {a : Agent}
    (h : ∀ key pct, sentinel a.dir key pct = true → a.Delivered key pct) : a.Honest cfg tz where
  marked := h
  retried p T hnot := by
    have habsent : sentinel a.dir (p.key cfg tz) T.pct = false := by
      rw [← Bool.not_eq_true]
      exact fun hs => hnot (h _ _ hs)
    refine ⟨habsent, fun hactive hflag => ?_⟩
    refine ⟨(fresh p.db a.dir (p.key cfg tz)).map (p.attempt cfg tz), ?_, ?_⟩
    · rw [Agent.poll_active cfg tz hactive]
    · exact List.mem_map_of_mem (mem_fresh.mpr ⟨hflag, habsent⟩)

/-- A channel works for every threshold that the poll finds flagged, with no sentinel. -/
def Agent.ChannelWorks (a : Agent) (p : AgentPoll) : Prop :=
  p.active cfg = true → ∀ T : Threshold, T.flag (p.db.crossed (p.key cfg tz)) = 1 →
    sentinel a.dir (p.key cfg tz) T.pct = false →
      (p.outcome T.pct).dbus = true ∨ (p.outcome T.pct).notifySend = true

def Agent.Marks (a : Agent) : Prop := ∀ x ∈ a.attempts, sentinel a.dir x.key x.notice.pct = true

theorem Agent.marks_poll (a : Agent) (p : AgentPoll) (h : a.Marks) :
    (a.poll cfg tz p).Marks := by
  cases hactive : p.active cfg with
  | false => rwa [Agent.poll_inactive cfg tz hactive]
  | true =>
    rw [Agent.poll_active cfg tz hactive]
    intro x hx
    rw [sentinel_foldl_markSent]
    rcases List.mem_append.mp hx with hx | hx
    · exact .inl (h x hx)
    · obtain ⟨T, hT, rfl⟩ := List.mem_map.mp hx
      exact .inr ⟨rfl, T, hT, rfl⟩

theorem Agent.honest_poll_iff {a : Agent} (hmarks : a.Marks) (h : a.Honest cfg tz)
    (p : AgentPoll) : (a.poll cfg tz p).Honest cfg tz ↔ a.ChannelWorks cfg tz p := by
  cases hactive : p.active cfg with
  | false =>
    rw [Agent.poll_inactive cfg tz hactive]
    exact iff_of_true h (fun he => by simp [hactive] at he)
  | true =>
    constructor
    · intro hafter _ T hflag habsent
      have hfresh : T ∈ fresh p.db a.dir (p.key cfg tz) := mem_fresh.mpr ⟨hflag, habsent⟩
      have hsent : sentinel (a.poll cfg tz p).dir (p.key cfg tz) T.pct = true := by
        rw [Agent.poll_active cfg tz hactive, sentinel_foldl_markSent]
        exact .inr ⟨rfl, T, hfresh, rfl⟩
      obtain ⟨x, hx, hkey, hpct, hchannel⟩ := hafter.marked _ _ hsent
      rw [Agent.poll_active cfg tz hactive] at hx
      rcases List.mem_append.mp hx with hx | hx
      · -- an earlier attempt would have left the sentinel
        have hold := hmarks x hx
        rw [hkey, hpct, habsent] at hold
        exact absurd hold (by decide)
      · obtain ⟨T', -, rfl⟩ := List.mem_map.mp hx
        obtain rfl := Threshold.pct_injective hpct
        exact notify_isSome.mp hchannel
    · intro hall
      refine Agent.honest_of_marked cfg tz (fun key pct hs => ?_)
      rw [Agent.poll_active cfg tz hactive] at hs ⊢
      rcases (sentinel_foldl_markSent _ _ _ _ _).mp hs with hs | ⟨rfl, T, hT, rfl⟩
      · obtain ⟨x, hx, hdelivered⟩ := h.marked key pct hs
        exact ⟨x, List.mem_append_left _ hx, hdelivered⟩
      · obtain ⟨hflag, habsent⟩ := mem_fresh.mp hT
        exact ⟨p.attempt cfg tz T, List.mem_append_right _ (List.mem_map_of_mem hT), rfl, rfl,
          notify_isSome.mpr (hall hactive T hflag habsent)⟩

/-- From an empty cache directory every sentinel stands for a delivery, at every
point of the run, exactly when every poll delivers what it attempts. -/
theorem sentinels_delivered_iff (polls : List AgentPoll) :
    (∀ pre, pre <+: polls → (pre.foldl (Agent.poll cfg tz) {}).Honest cfg tz) ↔
      Along (Agent.poll cfg tz) (Agent.ChannelWorks cfg tz) {} polls := by
  refine along_iff_prefixes Agent.Marks (Agent.Honest cfg tz) (Agent.marks_poll cfg tz)
    (fun a p hmarks h => Agent.honest_poll_iff cfg tz hmarks h p) (fun x hx => by simp at hx) ?_
  exact Agent.honest_of_marked cfg tz (fun key pct hs => by simp [sentinel] at hs)

end

/-- A day at four fifths of its budget, read while neither channel works. -/
def lostNotice : AgentPoll where
  now := 1800000060
  session := true
  db := { budgetEvents := (∅ : Keyed.Table String (ℤ × ℤ)).set "day:2027-01-15" (1,0) }
  outcome _ := ⟨false, false⟩

theorem not_sentinels_delivered :
    ¬ ∀ (cfg : Config) (tz : TimeZone) (polls : List AgentPoll),
      (polls.foldl (Agent.poll cfg tz) {}).Honest cfg tz := by
  intro h
  obtain ⟨x, hx, -, -, hchannel⟩ := (h { budgetGb := 1, budgetPeriod := "day" } .utc
    [lostNotice]).marked "day:2027-01-15" 80 (by decide +kernel)
  have hnone : ∀ x ∈ ([lostNotice].foldl
      (Agent.poll { budgetGb := 1, budgetPeriod := "day" } .utc) {}).attempts,
      x.channel = none := by decide +kernel
  rw [hnone x hx] at hchannel
  exact absurd hchannel (by decide)

end Netmeter
