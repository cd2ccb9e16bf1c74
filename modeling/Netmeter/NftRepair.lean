import Netmeter.Daemon
set_option autoImplicit false

/-!
The repair of a lost nftables table: what a run of ticks checks and installs.
-/

namespace Netmeter

/-- `nft_table_exists` and its answer, `install_nft` and whether it worked. -/
inductive NftAct where
  | checked (present : Bool)
  | installed (ok : Bool)
  deriving DecidableEq, Repr

def NftAct.isInstall : NftAct → Bool
  | .checked _ => false
  | .installed _ => true

/-- A tick that is no gap: what it reads, and what an install would come to. Its
result is only logged; whether the table is back shows in later readings. -/
structure NftTick where
  reading : Reading
  installOk : Bool

def checkThenInstall (tableExists installOk : Bool) : List NftAct :=
  .checked tableExists :: if !tableExists then [.installed installOk] else []

def nftActs (d : Daemon) (t : NftTick) : List NftAct :=
  if t.reading.lanNow.isSome then []
  else if d.nftMissingTicks + 1 = 12 then checkThenInstall t.reading.tableExists t.installOk
  else []

theorem nftActs_install (d : Daemon) (t : NftTick) :
    (nftActs d t).any NftAct.isInstall =
      (nftStep d t.reading.lanNow t.reading.tableExists).2 := by
  unfold nftActs nftStep
  dsimp only
  split
  · rfl
  · split
    · next h =>
      rw [h]
      cases t.reading.tableExists <;> rfl
    · next h => simp [h]

section
variable (cfg : Config) (tz : TimeZone)

def nftRun (s : State) (ts : List NftTick) : State :=
  ts.foldl (fun s t => tick cfg tz s t.reading) s

def runActs : State → List NftTick → List (List NftAct)
  | _, [] => []
  | s, t :: ts => nftActs s.daemon t :: runActs (tick cfg tz s t.reading) ts

/-- The whole run, from the check at startup. -/
def daemonActs (tableExists installOk : Bool) (ts : List NftTick) : List NftAct :=
  checkThenInstall tableExists installOk ++ (runActs cfg tz State.init ts).flatten

end

/-- Every install comes right after a check that found no table. -/
def SafeInstalls (acts : List NftAct) : Prop :=
  ∀ before ok after, acts = before ++ .installed ok :: after →
    ∃ earlier, before = earlier ++ [.checked false]

theorem SafeInstalls.append {l l' : List NftAct} (h : SafeInstalls l) (h' : SafeInstalls l') :
    SafeInstalls (l ++ l') := by
  intro before ok after he
  rcases List.append_eq_append_iff.mp he with ⟨mid, rfl, hl'⟩ | ⟨mid, hl, hmid⟩
  · obtain ⟨earlier, rfl⟩ := h' mid ok after hl'
    exact ⟨l ++ earlier, by simp⟩
  · cases mid with
    | nil =>
      obtain ⟨earlier, hearlier⟩ := h' [] ok after (by simpa using hmid.symm)
      simp at hearlier
    | cons a mid =>
      obtain ⟨rfl, -⟩ := List.cons.inj hmid
      exact h before ok mid hl

theorem safeInstalls_nil : SafeInstalls [] := by
  intro before ok after he
  simp at he

theorem safeInstalls_checkThenInstall (tableExists installOk : Bool) :
    SafeInstalls (checkThenInstall tableExists installOk) := by
  intro before ok after he
  cases tableExists with
  | true =>
    rcases List.cons_eq_append_iff.mp he with ⟨-, h⟩ | ⟨rest, -, h⟩
    · simp at h
    · simp at h
  | false =>
    rcases List.cons_eq_append_iff.mp he with ⟨-, h⟩ | ⟨rest, rfl, h⟩
    · simp at h
    · rcases List.cons_eq_append_iff.mp h with ⟨rfl, -⟩ | ⟨rest', -, h'⟩
      · exact ⟨[], rfl⟩
      · simp at h'

theorem safeInstalls_nftActs (d : Daemon) (t : NftTick) : SafeInstalls (nftActs d t) := by
  unfold nftActs
  split
  · exact safeInstalls_nil
  · split
    · exact safeInstalls_checkThenInstall _ _
    · exact safeInstalls_nil

section
variable (cfg : Config) (tz : TimeZone)

theorem safeInstalls_runActs (s : State) (ts : List NftTick) :
    SafeInstalls (runActs cfg tz s ts).flatten := by
  induction ts generalizing s with
  | nil => exact safeInstalls_nil
  | cons t ts ih => exact (safeInstalls_nftActs s.daemon t).append (ih _)

def NftTick.unreadable (t : NftTick) : Bool := t.reading.lanNow.isNone

def NftTick.Lost (t : NftTick) : Prop :=
  t.reading.lanNow = none ∧ t.reading.tableExists = false

theorem nftMissingTicks_tick {r : Reading} (h : gapBranch cfg r = false) (s : State) :
    (tick cfg tz s r).daemon.nftMissingTicks =
      if r.lanNow.isNone then s.daemon.nftMissingTicks + 1 else 0 := by
  simp only [tick, tickSamples, h, Bool.false_eq_true, if_false, nftStep]
  cases r.lanNow <;> rfl

def trailingUnreadable (ts : List NftTick) : ℕ := (ts.rtakeWhile NftTick.unreadable).length

theorem nftMissingTicks_run {ts : List NftTick}
    (hgap : ∀ t ∈ ts, gapBranch cfg t.reading = false) :
    (nftRun cfg tz State.init ts).daemon.nftMissingTicks =
      UInt32.ofNat (trailingUnreadable ts) := by
  induction ts using List.reverseRecOn with
  | nil => rfl
  | append_singleton ts t ih =>
    have hbefore := ih (fun t' ht' => hgap t' (List.mem_append_left _ ht'))
    have hlast := nftMissingTicks_tick cfg tz (hgap t (by simp)) (nftRun cfg tz State.init ts)
    unfold nftRun trailingUnreadable at *
    rw [List.foldl_append, List.foldl_cons, List.foldl_nil, hlast, hbefore,
      List.rtakeWhile_concat]
    unfold NftTick.unreadable
    cases t.reading.lanNow with
    | none => simp
    | some n => simp

def Installs (acts : List (List NftAct)) : Prop := ∃ a ∈ acts, a.any NftAct.isInstall = true

/-- Over lost ticks an install comes only where the counter passes twelve. -/
theorem installs_lost_iff {s : State} {w : List NftTick}
    (hgap : ∀ t ∈ w, gapBranch cfg t.reading = false) (hlost : ∀ t ∈ w, t.Lost) :
    Installs (runActs cfg tz s w) ↔
      ∃ j < w.length, s.daemon.nftMissingTicks + UInt32.ofNat (j+1) = 12 := by
  induction w generalizing s with
  | nil => simp [Installs, runActs]
  | cons t w ih =>
    obtain ⟨hnone, habsent⟩ := hlost t List.mem_cons_self
    have hnext := nftMissingTicks_tick cfg tz (hgap t List.mem_cons_self) s
    have hrest := ih (s := tick cfg tz s t.reading)
      (fun t' ht' => hgap t' (List.mem_cons_of_mem t ht'))
      (fun t' ht' => hlost t' (List.mem_cons_of_mem t ht'))
    have hhead : (nftActs s.daemon t).any NftAct.isInstall = true ↔
        s.daemon.nftMissingTicks + UInt32.ofNat (0+1) = 12 := by
      simp [nftActs_install, nftStep, hnone, habsent]
    have hcons : Installs (runActs cfg tz s (t :: w)) ↔
        (nftActs s.daemon t).any NftAct.isInstall = true ∨
          Installs (runActs cfg tz (tick cfg tz s t.reading) w) := List.exists_mem_cons_iff ..
    rw [hnone] at hnext
    rw [List.length_cons, Nat.exists_lt_succ_left, ← hhead, hcons, hrest, hnext]
    refine or_congr_right (exists_congr (fun j => and_congr_right (fun _ => ?_)))
    rw [show j + 1 + 1 = 1 + (j+1) by omega, UInt32.ofNat_add 1 (j+1), ← add_assoc]
    rfl

theorem passes_twelve_iff (n : ℕ) :
    (∃ j < 12, UInt32.ofNat n + UInt32.ofNat (j+1) = 12) ↔ n % 2 ^ 32 ≤ 11 := by
  have hsum : ∀ j, UInt32.ofNat n + UInt32.ofNat (j+1) = 12 ↔ (n + (j+1)) % 2 ^ 32 = 12 := by
    intro j
    rw [← UInt32.ofNat_add, ← UInt32.toNat_inj, UInt32.toNat_ofNat']
    rfl
  simp only [hsum]
  constructor
  · rintro ⟨j, hj, h⟩
    omega
  · intro h
    exact ⟨11 - n % 2 ^ 32, by omega, by omega⟩

end

/-- An install is tried in any twelve ticks in a row that find the counters
unreadable and the table gone. -/
def RetriesInstall (cfg : Config) (tz : TimeZone) (ts : List NftTick) : Prop :=
  ∀ before w after, ts = before ++ w ++ after → w.length = 12 → (∀ t ∈ w, t.Lost) →
    Installs (runActs cfg tz (nftRun cfg tz State.init before) w)

/-- No install without a check that found no table; one in every twelve lost
ticks exactly when no twelve lost ticks come later than the twelfth of a loss. -/
theorem nft_repaired_iff (cfg : Config) (tz : TimeZone) (tableExists installOk : Bool)
    {ts : List NftTick} (hgap : ∀ t ∈ ts, gapBranch cfg t.reading = false) :
    SafeInstalls (daemonActs cfg tz tableExists installOk ts) ∧
    (RetriesInstall cfg tz ts ↔
      ∀ before w after, ts = before ++ w ++ after → w.length = 12 → (∀ t ∈ w, t.Lost) →
        trailingUnreadable before % 2 ^ 32 ≤ 11) := by
  refine ⟨(safeInstalls_checkThenInstall tableExists installOk).append
    (safeInstalls_runActs cfg tz State.init ts), ?_⟩
  unfold RetriesInstall
  refine forall₃_congr (fun before w after => forall_congr' (fun he => forall_congr' (fun hlen =>
    forall_congr' (fun hlost => ?_))))
  have hw : ∀ t ∈ w, gapBranch cfg t.reading = false := fun t ht => hgap t (by simp [he, ht])
  have hbefore : ∀ t ∈ before, gapBranch cfg t.reading = false := fun t ht =>
    hgap t (by simp [he, ht])
  rw [installs_lost_iff cfg tz hw hlost, hlen, nftMissingTicks_run cfg tz hbefore,
    passes_twelve_iff]

/-- Ticks of a machine that has lost the table for good: no install works. -/
def lostTicks (n : ℕ) : List NftTick :=
  List.replicate n ⟨{ gap := 5, nowWall := .at 1800000000, totals := ∅, tableExists := false },
    false⟩

theorem not_nft_repaired :
    ¬ ∀ (cfg : Config) (tz : TimeZone) (tableExists installOk : Bool) (ts : List NftTick),
      (∀ t ∈ ts, gapBranch cfg t.reading = false) →
        SafeInstalls (daemonActs cfg tz tableExists installOk ts) ∧ RetriesInstall cfg tz ts := by
  intro h
  have hd := (h {} .utc true false (lostTicks 24) (by decide)).2 (lostTicks 12) (lostTicks 12) []
    rfl rfl
    (fun t ht => by rw [List.eq_of_mem_replicate ht]; exact ⟨rfl, rfl⟩)
  unfold Installs at hd
  exact absurd hd (by decide +kernel)

theorem nft_repaired_lostTicks :
    SafeInstalls (daemonActs {} .utc true false (lostTicks 12)) ∧
    (RetriesInstall {} .utc (lostTicks 12) ↔
      ∀ before w after, lostTicks 12 = before ++ w ++ after → w.length = 12 →
        (∀ t ∈ w, t.Lost) → trailingUnreadable before % 2 ^ 32 ≤ 11) :=
  nft_repaired_iff {} .utc true false (by decide)

end Netmeter
