import Mathlib
set_option autoImplicit false

/-!
Text as Rust's `str` reads it: characters for scalar values, offsets in the bytes
of their UTF-8 encoding. And the loops that read items until one fails for good.
-/

namespace Text

def isWhitespace (c : Char) : Bool :=
  let n := c.toNat
  (9 ≤ n && n ≤ 13) || n = 0x20 || n = 0x85 || n = 0xA0 || n = 0x1680 ||
    (0x2000 ≤ n && n ≤ 0x200A) || n = 0x2028 || n = 0x2029 || n = 0x202F || n = 0x205F ||
    n = 0x3000

def stripCr (line : List Char) : List Char :=
  if line.getLast? = some '\r' then line.dropLast else line

/-- Lines end in "\n" or "\r\n"; the end of the last one may be missing. -/
def lines (s : List Char) : List (List Char) :=
  let parts := s.splitOn '\n'
  parts.dropLast.map stripCr ++ (parts.getLast?.filter (· ≠ [])).toList

def splitWhitespace (s : List Char) : List (List Char) :=
  (s.splitOnP isWhitespace).filter (· ≠ [])

def splitOnce (c : Char) (s : List Char) : Option (List Char × List Char) :=
  if c ∈ s then some (s.takeWhile (· ≠ c), (s.dropWhile (· ≠ c)).tail) else none

def digit (radix : ℕ) (c : Char) : Option ℕ :=
  let n := c.toNat
  let d :=
    if 48 ≤ n ∧ n ≤ 57 then some (n - 48)
    else if 97 ≤ n ∧ n ≤ 122 then some (n - 87)
    else if 65 ≤ n ∧ n ≤ 90 then some (n - 55)
    else none
  d.filter (· < radix)

/-- An unsigned number below `bound`, perhaps after a plus sign. -/
def fromStrRadix (radix bound : ℕ) (s : List Char) : Option ℕ :=
  let digits := if s.head? = some '+' then s.tail else s
  if digits = [] then none
  else digits.foldlM (fun n c =>
    ((digit radix c).map (n * radix + ·)).filter (· < bound)) 0

def byteLen (s : List Char) : ℕ := (s.map Char.utf8Size).sum

/-- `none` where the offset is not between two characters. -/
def dropBytes : ℕ → List Char → Option (List Char)
  | 0, s => some s
  | _+1, [] => none
  | n+1, c :: s => if c.utf8Size ≤ n+1 then dropBytes (n+1 - c.utf8Size) s else none

def takeBytes : ℕ → List Char → Option (List Char)
  | 0, _ => some []
  | _+1, [] => none
  | n+1, c :: s =>
    if c.utf8Size ≤ n+1 then (takeBytes (n+1 - c.utf8Size) s).map (c :: ·) else none

/-- The bytes from `i` to `j`, where both are boundaries of characters. -/
def slice (i j : ℕ) (s : List Char) : Option (List Char) := (dropBytes i s).bind (takeBytes (j-i))

example : (lines "a\r\n\nb\r".toList).map String.ofList = ["a", "", "b\r"] := by decide

example : fromStrRadix 16 (2^16) "01bB".toList = some 443 := by decide

def Ascii (s : List Char) : Prop := ∀ c ∈ s, c.utf8Size = 1

instance (s : List Char) : Decidable (Ascii s) :=
  decidable_of_iff (s.all (fun c => c.utf8Size = 1) = true) (by simp [Ascii])

theorem Ascii.mono {s t : List Char} (ht : Ascii t) (h : s ⊆ t) : Ascii s :=
  fun c hc => ht c (h hc)

theorem subset_splitOnP {sep : Char → Bool} {s part : List Char} (h : part ∈ s.splitOnP sep) :
    part ⊆ s := by
  induction s generalizing part with
  | nil =>
    rw [List.splitOnP_nil, List.mem_singleton] at h
    rw [h]
    exact List.nil_subset _
  | cons c s ih =>
    rw [List.splitOnP_cons_eq_if_modifyHead] at h
    split at h
    · rcases List.mem_cons.mp h with rfl | h
      · exact List.nil_subset _
      · exact List.Subset.trans (ih h) (List.subset_cons_self c s)
    · cases hs : s.splitOnP sep with
      | nil => exact absurd hs (List.splitOnP_ne_nil sep s)
      | cons first rest =>
        rw [hs] at h ih
        rcases List.mem_cons.mp h with rfl | h
        · exact List.cons_subset_cons c (ih List.mem_cons_self)
        · exact List.Subset.trans (ih (List.mem_cons_of_mem _ h)) (List.subset_cons_self c s)

theorem stripCr_subset (line : List Char) : stripCr line ⊆ line := by
  unfold stripCr
  split
  · exact List.dropLast_subset line
  · exact List.Subset.refl line

theorem subset_lines {s line : List Char} (h : line ∈ lines s) : line ⊆ s := by
  have hpart : ∀ part ∈ s.splitOn '\n', part ⊆ s := by
    rw [List.splitOn_eq_splitOnP]
    exact fun part => subset_splitOnP
  rcases List.mem_append.mp h with h | h
  · obtain ⟨part, hmem, rfl⟩ := List.mem_map.mp h
    exact List.Subset.trans (stripCr_subset part) (hpart part (List.mem_of_mem_dropLast hmem))
  · obtain ⟨hlast, -⟩ := Option.filter_eq_some_iff.mp (Option.mem_toList.mp h)
    exact hpart line (List.mem_of_getLast? hlast)

theorem subset_splitWhitespace {s word : List Char} (h : word ∈ splitWhitespace s) : word ⊆ s :=
  subset_splitOnP (List.mem_of_mem_filter h)

theorem splitOnce_subset {c : Char} {s left right : List Char}
    (h : splitOnce c s = some (left,right)) : left ⊆ s ∧ right ⊆ s := by
  unfold splitOnce at h
  split at h
  · obtain ⟨rfl, rfl⟩ := Prod.mk.inj (Option.some.inj h)
    exact ⟨(List.takeWhile_sublist _).subset,
      ((List.tail_sublist _).trans (List.dropWhile_sublist _)).subset⟩
  · cases h

/-! ## Slices of ASCII text -/

theorem byteLen_ascii {s : List Char} (h : Ascii s) : byteLen s = s.length := by
  rw [byteLen, List.map_congr_left h]
  simp

theorem dropBytes_ascii {n : ℕ} {s : List Char} (h : Ascii s) (hn : n ≤ s.length) :
    dropBytes n s = some (s.drop n) := by
  induction s generalizing n with
  | nil =>
    obtain rfl := Nat.le_zero.mp hn
    rfl
  | cons c s ih =>
    cases n with
    | zero => rfl
    | succ n =>
      rw [dropBytes, h c List.mem_cons_self, if_pos (Nat.le_add_left 1 n)]
      exact ih (h.mono (List.subset_cons_self c s)) (Nat.le_of_succ_le_succ hn)

theorem takeBytes_ascii {n : ℕ} {s : List Char} (h : Ascii s) (hn : n ≤ s.length) :
    takeBytes n s = some (s.take n) := by
  induction s generalizing n with
  | nil =>
    obtain rfl := Nat.le_zero.mp hn
    rfl
  | cons c s ih =>
    cases n with
    | zero => rfl
    | succ n =>
      rw [takeBytes, h c List.mem_cons_self, if_pos (Nat.le_add_left 1 n), Nat.add_sub_cancel,
        ih (h.mono (List.subset_cons_self c s)) (Nat.le_of_succ_le_succ hn)]
      rfl

theorem slice_ascii {i j : ℕ} {s : List Char} (h : Ascii s) (hij : i ≤ j) (hj : j ≤ s.length) :
    slice i j s = some ((s.drop i).take (j-i)) := by
  rw [slice, dropBytes_ascii h (hij.trans hj), Option.bind_some]
  exact takeBytes_ascii (h.mono (List.drop_subset i s)) (by rw [List.length_drop]; omega)

section Chunks
variable {α : Type} {f : ℕ → List α} {w : ℕ}

theorem length_chunks (hw : ∀ i, (f i).length = w) (n : ℕ) :
    ((List.range n).flatMap f).length = n * w := by
  simp [List.length_flatMap, hw]

theorem chunk_eq (hw : ∀ i, (f i).length = w) {i n : ℕ} (h : i < n) :
    (((List.range n).flatMap f).drop (i*w)).take w = f i := by
  induction n with
  | zero => exact absurd h (Nat.not_lt_zero i)
  | succ n ih =>
    rw [List.range_succ, List.flatMap_append, List.flatMap_singleton]
    have hlen := length_chunks hw n
    rcases Nat.lt_succ_iff_lt_or_eq.mp h with h | rfl
    · have hle : i * w + w ≤ n * w := by
        rw [← Nat.succ_mul]
        exact Nat.mul_le_mul_right w h
      rw [List.drop_append_of_le_length (by omega), List.take_append_of_le_length
        (by rw [List.length_drop]; omega), ih h]
    · rw [← hlen, List.drop_left, ← hw i, List.take_length]

theorem take_chunks (l : List α) (w n : ℕ) :
    l.take (n*w) = (List.range n).flatMap (fun i => (l.drop (i*w)).take w) := by
  induction n with
  | zero => simp
  | succ n ih =>
    rw [Nat.succ_mul, List.take_add, ih, List.range_succ, List.flatMap_append,
      List.flatMap_singleton]

end Chunks

theorem split_at_first {a : Char} {x x' z z' : List Char} (hx : a ∉ x) (hx' : a ∉ x')
    (h : x ++ a :: z = x' ++ a :: z') : x = x' ∧ z = z' := by
  induction x generalizing x' with
  | nil =>
    cases x' with
    | nil => exact ⟨rfl, (List.cons.inj h).2⟩
    | cons b x' => exact absurd (List.cons.inj h).1 (by simp at hx'; exact hx'.1)
  | cons b x ih =>
    cases x' with
    | nil => exact absurd (List.cons.inj h).1.symm (by simp at hx; exact hx.1)
    | cons b' x' =>
      obtain ⟨rfl, htail⟩ := List.cons.inj h
      simp only [List.mem_cons, not_or] at hx hx'
      obtain ⟨rfl, hz⟩ := ih hx.2 hx'.2 htail
      exact ⟨rfl, hz⟩

theorem split_at_last {a : Char} {x x' z z' : List Char} (hz : a ∉ z) (hz' : a ∉ z')
    (h : x ++ a :: z = x' ++ a :: z') : x = x' ∧ z = z' := by
  have hrev := congrArg List.reverse h
  simp only [List.reverse_append, List.reverse_cons, List.append_assoc, List.singleton_append]
    at hrev
  obtain ⟨hrz, hrx⟩ := split_at_first (by simpa using hz) (by simpa using hz') hrev
  exact ⟨List.reverse_injective hrx, List.reverse_injective hrz⟩

/-! ## Words of a line -/

def trim (s : List Char) : List Char := (s.dropWhile isWhitespace).rdropWhile isWhitespace

theorem splitWhitespace_break (s : List Char) {c : Char} (hc : isWhitespace c = true)
    (t : List Char) : splitWhitespace (s ++ c :: t) = splitWhitespace s ++ splitWhitespace t := by
  rw [splitWhitespace, List.splitOnP_append_cons s t hc, List.filter_append]
  rfl

theorem splitWhitespace_pad {pad : List Char} (hpad : ∀ c ∈ pad, isWhitespace c = true)
    (s : List Char) : splitWhitespace (pad ++ s) = splitWhitespace s := by
  induction pad with
  | nil => rfl
  | cons c pad ih =>
    rw [← ih (fun c hc => hpad c (List.mem_cons_of_mem _ hc))]
    exact splitWhitespace_break [] (hpad c List.mem_cons_self) (pad ++ s)

theorem splitWhitespace_concat (s : List Char) {c : Char} (hc : isWhitespace c = true) :
    splitWhitespace (s ++ [c]) = splitWhitespace s := by
  rw [splitWhitespace_break s hc]
  exact List.append_nil _

theorem splitWhitespace_single {w : List Char} (hne : w ≠ [])
    (hw : ∀ c ∈ w, isWhitespace c = false) : splitWhitespace w = [w] := by
  simp [splitWhitespace, List.splitOnP_eq_singleton hw, hne]

theorem splitWhitespace_word {w : List Char} (hne : w ≠ [])
    (hw : ∀ c ∈ w, isWhitespace c = false) {c : Char} {pad : List Char}
    (hpad : ∀ a ∈ c :: pad, isWhitespace a = true) (s : List Char) :
    splitWhitespace (w ++ (c :: pad ++ s)) = w :: splitWhitespace s := by
  rw [List.cons_append, splitWhitespace_break w (hpad c List.mem_cons_self),
    splitWhitespace_single hne hw,
    splitWhitespace_pad (fun a ha => hpad a (List.mem_cons_of_mem c ha))]
  rfl

theorem trim_pad {pad w : List Char} (hpad : ∀ c ∈ pad, isWhitespace c = true)
    (hw : ∀ c ∈ w, isWhitespace c = false) : trim (pad ++ w) = w := by
  have hdrop : ∀ w : List Char, (∀ c ∈ w, isWhitespace c = false) →
      w.dropWhile isWhitespace = w := by
    intro w hw
    rw [List.dropWhile_eq_self_iff]
    intro h
    simpa using hw _ (List.getElem_mem h)
  have hleft : (pad ++ w).dropWhile isWhitespace = w := by
    rw [List.dropWhile_append_of_pos hpad, hdrop w hw]
  rw [trim, hleft, List.rdropWhile, hdrop _ (fun c hc => hw c (List.mem_reverse.mp hc)),
    List.reverse_reverse]

theorem splitOnce_at {c : Char} {left right : List Char} (h : c ∉ left) :
    splitOnce c (left ++ c :: right) = some (left,right) := by
  have hne : ∀ a ∈ left, decide (a ≠ c) = true := fun a ha => by
    rw [decide_eq_true_eq]
    rintro rfl
    exact h ha
  rw [splitOnce, if_pos (by simp)]
  rw [List.takeWhile_append_of_pos hne, List.dropWhile_append_of_pos hne]
  simp

theorem lines_intercalate {ls : List (List Char)} {l : List Char}
    (h : ∀ a ∈ ls ++ [l], '\n' ∉ a) : lines (['\n'].intercalate (ls ++ [l])) =
      ls.map stripCr ++ if l = [] then [] else [l] := by
  rw [lines, List.splitOn_intercalate '\n' h (by simp)]
  by_cases hl : l = [] <;> simp [hl, Option.filter]

theorem stripCr_cases (l : List Char) : stripCr l = l ∨ l = stripCr l ++ ['\r'] := by
  unfold stripCr
  split
  · next h => exact .inr (List.dropLast_append_getLast? _ h).symm
  · exact .inl rfl

/-- A reader that minds neither a final "\r" nor an empty line reads the lines
that were joined. -/
theorem filterMap_lines {α : Type} {read : List Char → Option α}
    (hcr : ∀ l, read (l ++ ['\r']) = read l) (hnil : read [] = none) {ls : List (List Char)}
    (h : ∀ l ∈ ls, '\n' ∉ l) (n : ℕ) :
    ((lines (['\n'].intercalate ls)).drop n).filterMap read = (ls.drop n).filterMap read := by
  have hstrip : ∀ l, read (stripCr l) = read l := fun l => by
    rcases stripCr_cases l with heq | heq
    · rw [heq]
    · conv_rhs => rw [heq, hcr]
  rcases List.eq_nil_or_concat ls with rfl | ⟨init, l, rfl⟩
  · rfl
  · rw [List.concat_eq_append] at h ⊢
    rw [lines_intercalate h, List.drop_append, List.drop_append, List.filterMap_append,
      List.filterMap_append, List.length_map, ← List.map_drop, List.filterMap_map]
    congr 1
    · exact List.filterMap_congr (fun l _ => hstrip l)
    · by_cases hl : l = []
      · cases n - init.length <;> simp [hl, hnil]
      · rw [if_neg hl]

/-! ## Numerals -/

/-- `s` writes `n` in the radix, the most significant digit first. -/
inductive Numeral (radix : ℕ) : List Char → ℕ → Prop
  | single {c : Char} {d : ℕ} (hd : digit radix c = some d) : Numeral radix [c] d
  | snoc {s : List Char} {n : ℕ} {c : Char} {d : ℕ} (h : Numeral radix s n)
      (hd : digit radix c = some d) : Numeral radix (s ++ [c]) (n * radix + d)

theorem digit_some {radix d : ℕ} {c : Char} (h : digit radix c = some d) :
    d < radix ∧ 48 ≤ c.toNat ∧ c.toNat ≤ 122 ∧ c.toNat ≠ 58 := by
  simp only [digit, Option.filter_eq_some_iff, decide_eq_true_eq] at h
  obtain ⟨h, hd⟩ := h
  split at h
  · omega
  · split at h
    · omega
    · split at h
      · omega
      · cases h

namespace Numeral
variable {radix n : ℕ} {s : List Char}

theorem digits (h : Numeral radix s n) : ∀ c ∈ s, ∃ d, digit radix c = some d := by
  induction h with
  | single hd =>
    simp only [List.mem_singleton, forall_eq]
    exact ⟨_, hd⟩
  | snoc h hd ih =>
    intro c hc
    rcases List.mem_append.mp hc with hc | hc
    · exact ih c hc
    · rw [List.mem_singleton.mp hc]
      exact ⟨_, hd⟩

theorem ne_nil (h : Numeral radix s n) : s ≠ [] := by
  cases h <;> simp

theorem not_isWhitespace (h : Numeral radix s n) : ∀ c ∈ s, isWhitespace c = false := by
  intro c hc
  obtain ⟨d, hd⟩ := h.digits c hc
  have hcode := digit_some hd
  simp only [isWhitespace, Bool.or_eq_false_iff, Bool.and_eq_false_iff, decide_eq_false_iff_not]
  omega

theorem not_mem (h : Numeral radix s n) {c : Char} (hc : c.toNat < 48 ∨ c.toNat = 58) : c ∉ s := by
  intro hmem
  obtain ⟨d, hd⟩ := h.digits c hmem
  have hcode := digit_some hd
  omega

theorem ascii (h : Numeral radix s n) : Ascii s := by
  intro c hc
  obtain ⟨d, hd⟩ := h.digits c hc
  have hcode := digit_some hd
  rw [Char.utf8Size_eq_one_iff, UInt32.le_iff_toNat_le]
  exact le_trans hcode.2.2.1 (by decide)

theorem foldlM_eq (h : Numeral radix s n) {bound : ℕ} (hn : n < bound) :
    s.foldlM (fun n c => ((digit radix c).map (n * radix + ·)).filter (· < bound)) 0 = some n := by
  induction h with
  | single hd => simp [hd, Option.filter, hn]
  | @snoc s m c d h hd ih =>
    obtain ⟨hdr, -⟩ := digit_some hd
    have hm : m < bound := lt_of_le_of_lt (le_trans (Nat.le_mul_of_pos_right m (by omega))
      (Nat.le_add_right _ d)) hn
    rw [List.foldlM_append, ih hm]
    simp [hd, Option.filter, hn]

theorem toDigits (n : ℕ) : Numeral 10 (Nat.toDigits 10 n) n := by
  induction n using Nat.strong_induction_on with
  | _ n ih =>
    have hdigit : ∀ d, d < 10 → digit 10 d.digitChar = some d := by decide
    by_cases h : n < 10
    · rw [Nat.toDigits_of_lt_base h]
      exact .single (hdigit n h)
    · have hsnoc := Numeral.snoc (ih (n / 10) (by omega))
        (hdigit (n % 10) (Nat.mod_lt n (by norm_num)))
      rw [Nat.toDigits_of_base_le (by norm_num) (not_lt.mp h)]
      rwa [Nat.div_add_mod'] at hsnoc

theorem fromStrRadix_eq (h : Numeral radix s n) {bound : ℕ} (hn : n < bound) :
    fromStrRadix radix bound s = some n := by
  have hplus : s.head? ≠ some '+' := fun hp =>
    h.not_mem (c := '+') (by decide) (List.mem_of_head? hp)
  rw [fromStrRadix, if_neg hplus, if_neg h.ne_nil]
  exact h.foldlM_eq hn

end Numeral

section Reading
variable {ε α β γ : Type}

def readFold (read : α → Except ε (Option γ)) (step : β → γ → β) (b : β) (l : List α) :
    Except ε β :=
  l.foldlM (fun b a => (read a).map (fun r => (r.map (step b)).getD b)) b

def readItems (read : α → Except ε (Option γ)) (l : List α) : List γ :=
  l.filterMap (fun a => (read a).toOption.join)

variable {read : α → Except ε (Option γ)} {step : β → γ → β}

theorem readFold_eq {b : β} {l : List α} (h : ∀ a ∈ l, ∃ r, read a = .ok r) :
    readFold read step b l = .ok ((readItems read l).foldl step b) := by
  induction l generalizing b with
  | nil => rfl
  | cons a l ih =>
    obtain ⟨r, hr⟩ := h a List.mem_cons_self
    have hl := ih (b := (r.map (step b)).getD b) (fun a ha => h a (List.mem_cons_of_mem _ ha))
    unfold readFold readItems at hl ⊢
    rw [List.foldlM_cons, hr]
    refine hl.trans ?_
    cases r <;> simp [hr, Except.toOption]

theorem readFold_ok {b b' : β} {l : List α} (h : readFold read step b l = .ok b') :
    ∀ a ∈ l, ∃ r, read a = .ok r := by
  induction l generalizing b with
  | nil => simp
  | cons a l ih =>
    unfold readFold at h ih
    rw [List.foldlM_cons] at h
    cases hr : read a with
    | error e =>
      rw [hr] at h
      cases h
    | ok r =>
      rw [hr] at h
      exact List.forall_mem_cons.mpr ⟨⟨r, hr⟩, ih h⟩

end Reading
end Text
