import Netmeter.ProcNames
set_option autoImplicit false

/-!
The re-resolve step of the capture thread over runs in which the eligible
interfaces stay the same.
-/

namespace Netmeter

variable {exclude : List String}

def receiverNames (rs : List Receiver) : List String := rs.map (·.name)

def eligibleNames (exclude : List String) (interfaces : List Interface) : List String :=
  (eligible exclude interfaces).map (·.1)

def resolves (o : Resolve) (rs : List Receiver) : Bool := rs.isEmpty || o.due

def reopens (exclude : List String) (o : Resolve) (rs : List Receiver) : Bool :=
  resolves o rs && setChanged (receiverNames rs) (eligibleNames exclude o.interfaces)

/-- The step keeps the receivers; when it resolves, with the current addresses of each. -/
structure RefreshesOnly (exclude : List String) (o : Resolve) (rs : List Receiver) : Prop where
  closed : reopens exclude o rs = false
  kept : receiverNames (resolve exclude o rs) = receiverNames rs
  current : resolves o rs = true →
    ∀ r ∈ resolve exclude o rs, (r.name, r.ips) ∈ eligible exclude o.interfaces

/-- The same names are eligible, and each opens as it always does. -/
structure SameIfaces (exclude names : List String) (channel : String → Channel) (o : Resolve) :
    Prop where
  wanted : (eligibleNames exclude o.interfaces).Perm names
  relisted : (eligibleNames exclude o.reopened).Perm names
  outcome : ∀ n ∈ names, o.channel n = channel n

theorem setChanged_eq_false {haveNames wantNames : List String} :
    setChanged haveNames wantNames = false ↔ haveNames.Perm wantNames := by
  rw [setChanged, bne_eq_false_iff_eq]
  constructor
  · intro h
    exact (List.perm_insertionSort _ haveNames).symm.trans (h ▸ List.perm_insertionSort _ wantNames)
  · intro h
    exact ((List.perm_insertionSort _ haveNames).trans
      (h.trans (List.perm_insertionSort _ wantNames).symm)).eq_of_sortedLE
        List.sortedLE_insertionSort List.sortedLE_insertionSort

theorem openAll_names (interfaces : List Interface) (channel : String → Channel) :
    receiverNames (openAll exclude interfaces channel) =
      (eligibleNames exclude interfaces).filter (fun n => channel n = .ethernet) := by
  unfold receiverNames eligibleNames openAll eligible
  rw [List.map_map]
  induction candidates exclude interfaces with
  | nil => rfl
  | cons ni nis ih =>
    rw [List.map_cons, List.filter_cons, ← ih]
    cases hc : channel ni.name <;> simp [hc]

def Receiver.refresh (r : Receiver) (w : String × List IpAddr) : Receiver :=
  if r.name = w.1 then { r with ips := w.2 } else r

theorem refreshIps_eq {rs : List Receiver} (h : (receiverNames rs).Nodup) (name : String)
    (ips : List IpAddr) : refreshIps name ips rs = rs.map (·.refresh (name,ips)) := by
  induction rs with
  | nil => rfl
  | cons r rs ih =>
    obtain ⟨hr, hrs⟩ := List.nodup_cons.mp h
    rw [refreshIps, List.map_cons]
    split
    · next hname =>
      have hrest : ∀ r' ∈ rs, r'.refresh (name,ips) = r' := fun r' hr' => if_neg (fun hn =>
        hr (List.mem_map.mpr ⟨r', hr', hn.trans hname.symm⟩))
      rw [List.map_congr_left hrest, List.map_id', Receiver.refresh, if_pos hname]
    · next hname => rw [ih hrs, Receiver.refresh, if_neg hname]

@[simp] theorem Receiver.refresh_name (r : Receiver) (w : String × List IpAddr) :
    (r.refresh w).name = r.name := by
  unfold Receiver.refresh
  split <;> rfl

theorem Receiver.refreshAll_name (want : List (String × List IpAddr)) (r : Receiver) :
    (want.foldl Receiver.refresh r).name = r.name := by
  induction want generalizing r with
  | nil => rfl
  | cons w want ih => rw [List.foldl_cons, ih, Receiver.refresh_name]

theorem receiverNames_refreshAll (want : List (String × List IpAddr)) (rs : List Receiver) :
    receiverNames (rs.map (fun r => want.foldl Receiver.refresh r)) = receiverNames rs := by
  rw [receiverNames, List.map_map]
  exact List.map_congr_left (fun r _ => Receiver.refreshAll_name want r)

theorem refreshAll_eq (want : List (String × List IpAddr)) {rs : List Receiver}
    (h : (receiverNames rs).Nodup) :
    want.foldl (fun rs w => refreshIps w.1 w.2 rs) rs =
      rs.map (fun r => want.foldl Receiver.refresh r) := by
  induction want generalizing rs with
  | nil => exact (List.map_id' rs).symm
  | cons w want ih =>
    have hnames := receiverNames_refreshAll [w] rs
    simp only [List.foldl_cons, List.foldl_nil] at hnames
    rw [List.foldl_cons, refreshIps_eq h, ih (hnames ▸ h), List.map_map]
    rfl

theorem Receiver.refreshAll_cases (want : List (String × List IpAddr)) (r : Receiver) :
    (r.name, (want.foldl Receiver.refresh r).ips) ∈ want ∨
      (want.foldl Receiver.refresh r = r ∧ r.name ∉ want.map (·.1)) := by
  induction want generalizing r with
  | nil => exact .inr ⟨rfl, List.not_mem_nil⟩
  | cons w want ih =>
    rw [List.foldl_cons]
    rcases ih (r.refresh w) with h | ⟨heq, hnot⟩
    · rw [Receiver.refresh_name] at h
      exact .inl (List.mem_cons_of_mem w h)
    · rw [Receiver.refresh_name] at hnot
      rw [heq]
      unfold Receiver.refresh
      split
      · next hname => exact .inl (by rw [hname]; exact List.mem_cons_self)
      · next hname => exact .inr ⟨rfl, by simp [hname, hnot]⟩

theorem resolve_eq (o : Resolve) (rs : List Receiver) : resolve exclude o rs =
    if resolves o rs then
      if setChanged (receiverNames rs) (eligibleNames exclude o.interfaces) then
        openAll exclude o.reopened o.channel
      else (eligible exclude o.interfaces).foldl (fun rs w => refreshIps w.1 w.2 rs) rs
    else rs := rfl

theorem resolve_of_reopens {o : Resolve} {rs : List Receiver} (h : reopens exclude o rs = true) :
    resolve exclude o rs = openAll exclude o.reopened o.channel := by
  obtain ⟨hdue, hset⟩ := (Bool.and_eq_true _ _).mp h
  rw [resolve_eq, if_pos hdue, if_pos hset]

theorem resolve_idle {o : Resolve} {rs : List Receiver} (h : resolves o rs = false) :
    resolve exclude o rs = rs := by
  rw [resolve_eq, h]
  rfl

theorem resolves_of_ne_nil {o : Resolve} {rs : List Receiver} (h : rs ≠ []) :
    resolves o rs = o.due := by
  cases rs with
  | nil => exact absurd rfl h
  | cons r rs => rfl

section Step
variable {names : List String} {channel : String → Channel} {o : Resolve} {rs : List Receiver}

theorem reopens_eq_false (ho : SameIfaces exclude names channel o) (hres : resolves o rs = true) :
    reopens exclude o rs = false ↔ (receiverNames rs).Perm names := by
  rw [reopens, hres, Bool.true_and, setChanged_eq_false]
  exact ⟨fun h => h.trans ho.wanted, fun h => h.trans ho.wanted.symm⟩

theorem refreshesOnly_idle (h : resolves o rs = false) : RefreshesOnly exclude o rs := by
  refine ⟨by rw [reopens, h, Bool.false_and], by rw [resolve_idle h], fun hres => ?_⟩
  rw [h] at hres
  cases hres

theorem refreshesOnly (hnames : names.Nodup) (ho : SameIfaces exclude names channel o)
    (hrs : (receiverNames rs).Perm names) : RefreshesOnly exclude o rs := by
  cases hres : resolves o rs with
  | false => exact refreshesOnly_idle hres
  | true =>
    have hclosed := (reopens_eq_false ho hres).mpr hrs
    have hset := hclosed
    rw [reopens, hres, Bool.true_and] at hset
    have heq : resolve exclude o rs =
        rs.map (fun r => (eligible exclude o.interfaces).foldl Receiver.refresh r) := by
      rw [← refreshAll_eq _ (hrs.nodup_iff.mpr hnames), resolve_eq, hres, hset]
      rfl
    refine ⟨hclosed, by rw [heq, receiverNames_refreshAll], fun _ r hr => ?_⟩
    rw [heq] at hr
    obtain ⟨r, hmem, rfl⟩ := List.mem_map.mp hr
    have hwant : r.name ∈ eligibleNames exclude o.interfaces :=
      (hrs.trans ho.wanted.symm).subset (List.mem_map_of_mem hmem)
    rcases Receiver.refreshAll_cases (eligible exclude o.interfaces) r with h | ⟨-, h⟩
    · rwa [Receiver.refreshAll_name]
    · exact absurd hwant h

theorem openAll_perm (ho : SameIfaces exclude names channel o) :
    (receiverNames (openAll exclude o.reopened o.channel)).Perm
      (names.filter (fun n => channel n = .ethernet)) := by
  rw [openAll_names]
  refine (ho.relisted.filter _).trans ?_
  rw [List.filter_congr (fun n hn => by rw [ho.outcome n hn])]

theorem resolve_first (hnames : names.Nodup) (ho : SameIfaces exclude names channel o)
    (hres : resolves o rs = true) :
    (receiverNames (resolve exclude o rs)).Perm (names.filter (fun n => channel n = .ethernet)) ∨
      (receiverNames rs).Perm names ∧ (receiverNames (resolve exclude o rs)).Perm names := by
  cases hre : reopens exclude o rs with
  | true =>
    rw [resolve_of_reopens hre]
    exact .inl (openAll_perm ho)
  | false =>
    have hrs := (reopens_eq_false ho hres).mp hre
    exact .inr ⟨hrs, by rw [(refreshesOnly hnames ho hrs).kept]; exact hrs⟩

end Step

theorem filter_perm {names : List String} {channel : String → Channel} :
    (names.filter (fun n => channel n = .ethernet)).Perm names ↔
      ∀ n ∈ names, channel n = .ethernet := by
  constructor
  · intro h
    have heq := List.Sublist.eq_of_length List.filter_sublist h.length_eq
    simpa using List.filter_eq_self.mp heq
  · intro h
    rw [List.filter_eq_self.mpr (by simpa using h)]

def captureRun (p : Pnet) (exclude : List String) (s : Capture × Shared) (os : List Pass) :
    Capture × Shared :=
  os.foldl (fun s o => capturePass p exclude o s.1 s.2) s

/-- After the first pass the sockets stay. -/
def NoChurn (p : Pnet) (exclude : List String) (s : Capture × Shared) (os : List Pass) : Prop :=
  ∀ pre o post, os = pre ++ o :: post → pre ≠ [] →
    RefreshesOnly exclude o.resolve (captureRun p exclude s pre).1.receivers

def Pass.Alive (o : Pass) : Prop := ∀ i, dies (o.next i) = false

section Runs
variable {p : Pnet} {names : List String} {channel : String → Channel} {o : Pass}
  {os : List Pass} {s : Capture × Shared}

theorem drainAll_alive {owners : Owners} {locals : List IpAddr} {streams : List (ℕ → Recv)}
    (h : ∀ next ∈ streams, dies next = false) (cum : Cum) :
    (drainAll p owners locals streams cum).2 = false := by
  induction streams generalizing cum with
  | nil => rfl
  | cons next streams ih =>
    obtain ⟨hnext, hstreams⟩ := List.forall_mem_cons.mp h
    have hone : (drainOne p next owners locals cum).2 = false := by rw [drainOne_eq]; exact hnext
    rw [drainAll]
    simp only [hone, Bool.false_eq_true, if_false]
    exact ih hstreams _

theorem capturePass_receivers (h : o.Alive) (s : Capture × Shared) :
    (capturePass p exclude o s.1 s.2).1.receivers = resolve exclude o.resolve s.1.receivers := by
  unfold capturePass
  dsimp only
  split
  · rfl
  · rw [drainAll_alive (by simpa using fun i _ => h i)]
    simp only [Bool.false_eq_true, if_false]
    split <;> rfl

theorem captureRun_cons (s : Capture × Shared) (o : Pass) (os : List Pass) :
    captureRun p exclude s (o :: os) = captureRun p exclude (capturePass p exclude o s.1 s.2) os :=
  rfl

theorem captureRun_kept (hnames : names.Nodup) (halive : ∀ o ∈ os, o.Alive)
    (h : ∀ o ∈ os, SameIfaces exclude names channel o.resolve)
    (hs : (receiverNames s.1.receivers).Perm names) :
    (receiverNames (captureRun p exclude s os).1.receivers).Perm names := by
  induction os generalizing s with
  | nil => exact hs
  | cons o os ih =>
    obtain ⟨ho, hos⟩ := List.forall_mem_cons.mp h
    obtain ⟨ha, has⟩ := List.forall_mem_cons.mp halive
    rw [captureRun_cons]
    refine ih has hos ?_
    rw [capturePass_receivers ha, (refreshesOnly hnames ho hs).kept]
    exact hs

theorem captureRun_idle (halive : ∀ o ∈ os, o.Alive) (hdue : ∀ o ∈ os, o.resolve.due = false)
    (hs : s.1.receivers ≠ []) : (captureRun p exclude s os).1.receivers = s.1.receivers := by
  induction os generalizing s with
  | nil => rfl
  | cons o os ih =>
    obtain ⟨ho, hos⟩ := List.forall_mem_cons.mp hdue
    obtain ⟨ha, has⟩ := List.forall_mem_cons.mp halive
    have hstay : (capturePass p exclude o s.1 s.2).1.receivers = s.1.receivers := by
      rw [capturePass_receivers ha, resolve_idle (by rw [resolves_of_ne_nil hs, ho])]
    rw [captureRun_cons, ih has hos (by rw [hstay]; exact hs), hstay]

theorem noChurn_cons : NoChurn p exclude s (o :: os) ↔ ∀ pre o' post, os = pre ++ o' :: post →
    RefreshesOnly exclude o'.resolve
      (captureRun p exclude (capturePass p exclude o s.1 s.2) pre).1.receivers := by
  constructor
  · intro hno pre o' post heq
    exact hno (o :: pre) o' post (congrArg (o :: ·) heq) (List.cons_ne_nil o pre)
  · intro hrest pre o' post heq hpre
    cases pre with
    | nil => exact absurd rfl hpre
    | cons o₁ pre =>
      obtain ⟨rfl, htail⟩ := List.cons.inj heq
      exact hrest pre o' post htail

theorem noChurn_of_idle (halive : ∀ o' ∈ o :: os, o'.Alive)
    (hs : resolve exclude o.resolve s.1.receivers ≠ []) (hdue : ∀ o' ∈ os, o'.resolve.due = false) :
    NoChurn p exclude s (o :: os) := by
  obtain ⟨ha, has⟩ := List.forall_mem_cons.mp halive
  rw [← capturePass_receivers (p := p) ha] at hs
  refine noChurn_cons.mpr (fun pre o' post heq => refreshesOnly_idle ?_)
  subst heq
  rw [captureRun_idle (fun q hq => has q (List.mem_append_left _ hq))
    (fun q hq => hdue q (List.mem_append_left _ hq)) hs, resolves_of_ne_nil hs]
  exact hdue o' (by simp)

theorem noChurn_of_kept (hnames : names.Nodup) (halive : ∀ o' ∈ o :: os, o'.Alive)
    (h : ∀ o' ∈ o :: os, SameIfaces exclude names channel o'.resolve)
    (hs : (receiverNames (resolve exclude o.resolve s.1.receivers)).Perm names) :
    NoChurn p exclude s (o :: os) := by
  obtain ⟨ha, has⟩ := List.forall_mem_cons.mp halive
  obtain ⟨-, hos⟩ := List.forall_mem_cons.mp h
  rw [← capturePass_receivers (p := p) ha] at hs
  refine noChurn_cons.mpr (fun pre o' post heq => ?_)
  subst heq
  have hkept := captureRun_kept (p := p) hnames (fun q hq => has q (List.mem_append_left _ hq))
    (fun q hq => hos q (List.mem_append_left _ hq)) hs
  exact refreshesOnly hnames (hos o' (by simp)) hkept

theorem kept_of_noChurn (halive : ∀ o' ∈ o :: os, o'.Alive)
    (h : ∀ o' ∈ o :: os, SameIfaces exclude names channel o'.resolve)
    (hs : resolve exclude o.resolve s.1.receivers ≠ [])
    (hno : NoChurn p exclude s (o :: os)) (hdue : ∃ o' ∈ os, o'.resolve.due = true) :
    (receiverNames (resolve exclude o.resolve s.1.receivers)).Perm names := by
  obtain ⟨o', idle, post, hsplit, hdue', hidle⟩ : ∃ o' idle post, os = idle ++ o' :: post ∧
      o'.resolve.due = true ∧ ∀ q ∈ idle, q.resolve.due = false := by
    obtain ⟨o', hfind⟩ := Option.isSome_iff_exists.mp (List.find?_isSome.mpr hdue)
    obtain ⟨hdue', idle, post, hsplit, hidle⟩ := List.find?_eq_some_iff_append.mp hfind
    exact ⟨o', idle, post, hsplit, hdue', by simpa using hidle⟩
  subst hsplit
  obtain ⟨ha, has⟩ := List.forall_mem_cons.mp halive
  have hpass : (capturePass p exclude o s.1 s.2).1.receivers =
      resolve exclude o.resolve s.1.receivers := capturePass_receivers ha s
  have hstay : (captureRun p exclude (capturePass p exclude o s.1 s.2) idle).1.receivers =
      resolve exclude o.resolve s.1.receivers := by
    rw [captureRun_idle (fun q hq => has q (List.mem_append_left _ hq)) hidle
      (by rw [hpass]; exact hs), hpass]
  have hclosed := (noChurn_cons.mp hno idle o' post rfl).closed
  rw [hstay] at hclosed
  exact (reopens_eq_false (h o' (by simp)) (by rw [resolves_of_ne_nil hs, hdue'])).mp hclosed

theorem resolve_ne_nil (hnames : names.Nodup) (hopen : ∃ n ∈ names, channel n = .ethernet)
    {o : Resolve} {rs : List Receiver} (ho : SameIfaces exclude names channel o)
    (hres : resolves o rs = true) : resolve exclude o rs ≠ [] := by
  obtain ⟨n, hn, hch⟩ := hopen
  intro hnil
  rcases resolve_first hnames ho hres with hperm | ⟨-, hperm⟩
  · have hmem := hperm.mem_iff.mpr (List.mem_filter.mpr ⟨hn, by simpa using hch⟩)
    rw [hnil] at hmem
    cases hmem
  · have hmem := hperm.mem_iff.mpr hn
    rw [hnil] at hmem
    cases hmem

/-- From the first resolving pass on, passes that resolve again open nothing exactly
when all the eligible interfaces were open before or all of them open. -/
theorem noChurn_iff (hnames : names.Nodup) (hopen : ∃ n ∈ names, channel n = .ethernet)
    (halive : ∀ o' ∈ o :: os, o'.Alive)
    (h : ∀ o' ∈ o :: os, SameIfaces exclude names channel o'.resolve)
    (hfirst : resolves o.resolve s.1.receivers = true) :
    NoChurn p exclude s (o :: os) ↔ (∀ o' ∈ os, o'.resolve.due = false) ∨
      (receiverNames s.1.receivers).Perm names ∨ ∀ n ∈ names, channel n = .ethernet := by
  have ho : SameIfaces exclude names channel o.resolve := h o List.mem_cons_self
  have hne := resolve_ne_nil hnames hopen ho hfirst
  have hcases := resolve_first hnames ho hfirst
  constructor
  · intro hno
    by_cases hdue : ∃ o' ∈ os, o'.resolve.due = true
    · have hkept := kept_of_noChurn halive h hne hno hdue
      rcases hcases with hperm | ⟨hrs, -⟩
      · exact .inr (.inr (filter_perm.mp (hperm.symm.trans hkept)))
      · exact .inr (.inl hrs)
    · refine .inl (fun o' ho' => ?_)
      rw [← Bool.not_eq_true]
      exact fun hd => hdue ⟨o', ho', hd⟩
  · rintro (hdue | hrs | hall)
    · exact noChurn_of_idle halive hne hdue
    · refine noChurn_of_kept hnames halive h ?_
      rw [(refreshesOnly hnames ho hrs).kept]
      exact hrs
    · refine noChurn_of_kept hnames halive h ?_
      rcases hcases with hperm | ⟨-, hperm⟩
      · exact hperm.trans (filter_perm.mpr hall)
      · exact hperm

end Runs

def laptop : List Interface := [⟨"eth0", [], true, false⟩, ⟨"tun0", [], true, false⟩]

def laptopNames : List String := ["eth0", "tun0"]

def laptopChannel (name : String) : Channel := if name = "eth0" then .ethernet else .other

def laptopPass : Pass where
  resolve := { due := true, interfaces := laptop, channel := laptopChannel }
  next := fun _ _ => .err .timedOut
  snapshot := none
  flushDue := false

def laptopStart : Capture × Shared := ({ owners := {} }, ∅)

theorem laptopNames_nodup : laptopNames.Nodup := by decide

theorem laptop_opens : ∃ n ∈ laptopNames, laptopChannel n = .ethernet := ⟨"eth0", by decide⟩

theorem laptopPass_alive : laptopPass.Alive := fun _ => rfl

theorem laptop_same : SameIfaces [] laptopNames laptopChannel laptopPass.resolve where
  wanted := .of_eq (by decide +kernel)
  relisted := .of_eq (by decide +kernel)
  outcome _ _ := rfl

theorem laptop_two {q : Pass → Prop} (h : q laptopPass) : ∀ o ∈ [laptopPass, laptopPass], q o := by
  simpa using h

theorem noChurn_iff_laptop :
    NoChurn .wire [] laptopStart [laptopPass, laptopPass] ↔
      (∀ o' ∈ [laptopPass], o'.resolve.due = false) ∨
        (receiverNames laptopStart.1.receivers).Perm laptopNames ∨
        ∀ n ∈ laptopNames, laptopChannel n = .ethernet :=
  noChurn_iff laptopNames_nodup laptop_opens (laptop_two laptopPass_alive) (laptop_two laptop_same)
    rfl

/-- The second pass finds the tunnel missing and opens anew. -/
theorem not_noChurn :
    ¬ ∀ (p : Pnet) (exclude names : List String) (channel : String → Channel)
      (s : Capture × Shared) (o : Pass) (os : List Pass), names.Nodup →
      (∃ n ∈ names, channel n = .ethernet) → (∀ o' ∈ o :: os, o'.Alive) →
      (∀ o' ∈ o :: os, SameIfaces exclude names channel o'.resolve) →
      resolves o.resolve s.1.receivers = true → NoChurn p exclude s (o :: os) := by
  intro h
  have hno := h .wire [] laptopNames laptopChannel laptopStart laptopPass [laptopPass]
    laptopNames_nodup laptop_opens (laptop_two laptopPass_alive) (laptop_two laptop_same) rfl
  have hclosed := (hno [laptopPass] laptopPass [] rfl (List.cons_ne_nil _ _)).closed
  rw [captureRun_cons, show ∀ s, captureRun .wire [] s [] = s from fun _ => rfl,
    capturePass_receivers laptopPass_alive] at hclosed
  have hopened : reopens [] laptopPass.resolve (resolve [] laptopPass.resolve []) = true := by
    decide +kernel
  rw [show laptopStart.1.receivers = [] from rfl, hopened] at hclosed
  cases hclosed

end Netmeter
