import Netmeter.Sockets
set_option autoImplicit false

/-! The text the kernel writes for a local socket address, and its way back. -/

namespace Netmeter
open Text

def hexChar (upper : Bool) (d : ℕ) : Char :=
  .ofNat (if d < 10 then 48 + d else if upper then 55 + d else 87 + d)

/-- `w` digits of `n`; the `k`-th is a capital letter where `upper k`. -/
def hexText (upper : ℕ → Bool) : ℕ → ℕ → List Char
  | 0, _ => []
  | w+1, n => hexText upper w (n / 16) ++ [hexChar (upper w) (n % 16)]

/-- The `i`-th word of an address on a little-endian host. -/
def leWord (octets : Bytes) (i : ℕ) : ℕ :=
  (octets.getD (4*i) 0).toNat + 2^8 * (octets.getD (4*i+1) 0).toNat +
    2^16 * (octets.getD (4*i+2) 0).toNat + 2^24 * (octets.getD (4*i+3) 0).toNat

def wordText (upper : ℕ → Bool) (octets : Bytes) (i : ℕ) : List Char :=
  hexText (fun k => upper (i*8+k)) 8 (leWord octets i)

def addrText (upper : ℕ → Bool) (octets : Bytes) : List Char :=
  (List.range (octets.length / 4)).flatMap (wordText upper octets)

def portText (upper : ℕ → Bool) (port : UInt16) : List Char := hexText upper 4 port.toNat

def kernelLocal (upper : ℕ → Bool) (ep : Endpoint) : List Char :=
  addrText upper ep.ip.octets ++
    ':' :: portText (fun k => upper (2 * ep.ip.octets.length + k)) ep.port

example : kernelLocal (fun k => k % 2 = 0) ⟨.v4 #v[172, 16, 0, 1], 443⟩ =
    "010010Ac:01Bb".toList := by decide +kernel

def IpAddr.isV6 : IpAddr → Bool
  | .v4 _ => false
  | .v6 _ => true

theorem digit_hexChar (upper : Bool) {d : ℕ} (hd : d < 16) :
    digit 16 (hexChar upper d) = some d := by
  revert upper d
  decide

theorem length_hexText (upper : ℕ → Bool) (w n : ℕ) : (hexText upper w n).length = w := by
  induction w generalizing n with
  | zero => rfl
  | succ w ih => simp [hexText, ih]

theorem numeral_hexText (upper : ℕ → Bool) {w n : ℕ} (hw : 0 < w) (hn : n < 16^w) :
    Numeral 16 (hexText upper w n) n := by
  induction w generalizing n with
  | zero => exact absurd hw (lt_irrefl 0)
  | succ w ih =>
    have hlast := digit_hexChar (upper w) (Nat.mod_lt n (by norm_num : 0 < 16))
    rw [pow_succ] at hn
    cases w with
    | zero =>
      rw [Nat.mod_eq_of_lt (by simpa using hn)] at hlast
      simpa [hexText, Nat.mod_eq_of_lt (show n < 16 by simpa using hn)] using Numeral.single hlast
    | succ w =>
      have hsnoc := Numeral.snoc (ih (Nat.succ_pos w) (n := n / 16) (by omega)) hlast
      rwa [Nat.div_add_mod'] at hsnoc

theorem leWord_lt (octets : Bytes) (i : ℕ) : leWord octets i < 2^32 := by
  have h : ∀ k, (octets.getD k 0).toNat < 2^8 := fun k => UInt8.toNat_lt _
  have h0 := h (4*i)
  have h1 := h (4*i+1)
  have h2 := h (4*i+2)
  have h3 := h (4*i+3)
  unfold leWord
  omega

theorem ofNat_byte {b : UInt8} {n : ℕ} (h : n % 2^8 = b.toNat) : UInt8.ofNat n = b := by
  rw [← UInt8.toNat_inj, UInt8.toNat_ofNat', h]

theorem leBytes_leWord {octets : Bytes} {i : ℕ} (h : i * 4 + 4 ≤ octets.length) :
    leBytes (leWord octets i) = (octets.drop (i*4)).take 4 := by
  have hlen : 4 ≤ (octets.drop (i*4)).length := by
    rw [List.length_drop]
    omega
  have hget : ∀ k, octets.getD (4*i+k) 0 = (octets.drop (i*4)).getD k 0 := fun k => by
    rw [List.getD_eq_getElem?_getD, List.getD_eq_getElem?_getD, List.getElem?_drop, mul_comm]
  have hfirst := hget 0
  rw [add_zero] at hfirst
  unfold leBytes leWord
  rw [hfirst, hget 1, hget 2, hget 3]
  match octets.drop (i*4), hlen with
  | a :: b :: c :: d :: rest, _ =>
    have ha := a.toNat_lt
    have hb := b.toNat_lt
    have hc := c.toNat_lt
    have hd := d.toNat_lt
    simp only [List.getD_cons_zero, List.getD_cons_succ, List.take_succ_cons, List.take_zero]
    rw [ofNat_byte (b := a) (by omega), ofNat_byte (b := b) (by omega),
      ofNat_byte (b := c) (by omega), ofNat_byte (b := d) (by omega)]

theorem numeral_wordText (upper : ℕ → Bool) (octets : Bytes) (i : ℕ) :
    Numeral 16 (wordText upper octets i) (leWord octets i) :=
  numeral_hexText _ (by norm_num) (leWord_lt octets i)

theorem numeral_portText (upper : ℕ → Bool) (port : UInt16) :
    Numeral 16 (portText upper port) port.toNat :=
  numeral_hexText _ (by norm_num) port.toNat_lt

theorem mem_addrText {upper : ℕ → Bool} {octets : Bytes} {c : Char}
    (h : c ∈ addrText upper octets) : ∃ i, c ∈ wordText upper octets i := by
  obtain ⟨i, -, hc⟩ := List.mem_flatMap.mp h
  exact ⟨i, hc⟩

theorem colon_notMem_addrText (upper : ℕ → Bool) (octets : Bytes) :
    ':' ∉ addrText upper octets := fun h => by
  obtain ⟨i, hc⟩ := mem_addrText h
  exact (numeral_wordText upper octets i).not_mem (by decide) hc

theorem ascii_addrText (upper : ℕ → Bool) (octets : Bytes) : Ascii (addrText upper octets) :=
  fun c h => by
    obtain ⟨i, hc⟩ := mem_addrText h
    exact (numeral_wordText upper octets i).ascii c hc

theorem length_addrText (upper : ℕ → Bool) (octets : Bytes) :
    (addrText upper octets).length = octets.length / 4 * 8 :=
  length_chunks (fun _ => length_hexText _ _ _) _

theorem slice_addrText (upper : ℕ → Bool) {octets : Bytes} {i : ℕ} (h : i < octets.length / 4) :
    slice (i*8) (i*8+8) (addrText upper octets) = some (wordText upper octets i) := by
  rw [slice_ascii (ascii_addrText upper octets) (Nat.le_add_right _ _)
    (by rw [length_addrText]; omega), Nat.add_sub_cancel_left]
  exact congrArg some (chunk_eq (fun _ => length_hexText _ _ _) h)

theorem readWords_addrText (upper : ℕ → Bool) {octets : Bytes} {is : List ℕ}
    (h : ∀ i ∈ is, i < octets.length / 4) : readWords (addrText upper octets) is =
      .ok (some (is.flatMap (fun i => leBytes (leWord octets i)))) := by
  induction is with
  | nil => rfl
  | cons i is ih =>
    have hword := (numeral_wordText upper octets i).fromStrRadix_eq (leWord_lt octets i)
    rw [readWords, slice_addrText upper (h i List.mem_cons_self)]
    dsimp only
    rw [hword, ih (fun i hi => h i (List.mem_cons_of_mem _ hi))]
    rfl

theorem words_octets {octets : Bytes} {n : ℕ} (h : octets.length = n * 4) :
    (List.range n).flatMap (fun i => leBytes (leWord octets i)) = octets := by
  have hword : ∀ i ∈ List.range n, leBytes (leWord octets i) = (octets.drop (i*4)).take 4 :=
    fun i hi => leBytes_leWord (by have := List.mem_range.mp hi; omega)
  rw [List.flatMap_congr hword, ← take_chunks, ← h, List.take_length]

theorem octetsAt_toList {n : ℕ} (b : Vector UInt8 n) : octetsAt n b.toList 0 = b := by
  ext i hi
  simp [octetsAt]

theorem splitOnce_kernelLocal (upper : ℕ → Bool) (ep : Endpoint) :
    splitOnce ':' (kernelLocal upper ep) = some (addrText upper ep.ip.octets,
      portText (fun k => upper (2 * ep.ip.octets.length + k)) ep.port) :=
  splitOnce_at (colon_notMem_addrText upper ep.ip.octets)

theorem parseLocal_false {s addr text : List Char} {w port : ℕ}
    (hs : splitOnce ':' s = some (addr,text)) (hport : fromStrRadix 16 (2^16) text = some port)
    (haddr : fromStrRadix 16 (2^32) addr = some w) :
    parseLocal s false = .ok (some ⟨.v4 (octetsAt 4 (leBytes w) 0), .ofNat port⟩) := by
  simp only [parseLocal, hs, hport, haddr, Option.map_some, Bool.false_eq_true, if_false]

theorem parseLocal_true {s addr text : List Char} {b : Bytes} {port : ℕ}
    (hs : splitOnce ':' s = some (addr,text)) (hport : fromStrRadix 16 (2^16) text = some port)
    (hlen : byteLen addr = 32) (haddr : readWords addr [0, 1, 2, 3] = .ok (some b)) :
    parseLocal s true = .ok (some ⟨.v6 (octetsAt 16 b 0), .ofNat port⟩) := by
  simp only [parseLocal, hs, hport, hlen, haddr, if_true, ne_eq, not_true_eq_false, if_false,
    Except.map, Option.map_some]

/-- The kernel's text reads back in any case of its letters. -/
theorem parseLocal_kernelLocal (upper : ℕ → Bool) (ep : Endpoint) :
    parseLocal (kernelLocal upper ep) ep.ip.isV6 = .ok (some ep) := by
  obtain ⟨ip, port⟩ := ep
  have hs := splitOnce_kernelLocal upper ⟨ip,port⟩
  have hport := (numeral_portText (fun k => upper (2 * ip.octets.length + k)) port).fromStrRadix_eq
    port.toNat_lt
  cases ip with
  | v4 b =>
    have haddr : addrText upper b.toList = wordText upper b.toList 0 := by
      simp [addrText]
    have hword := (numeral_wordText upper b.toList 0).fromStrRadix_eq (leWord_lt b.toList 0)
    rw [← haddr] at hword
    have hone : b.toList.length = 1 * 4 := by simp
    have hbytes := words_octets hone
    rw [List.range_one, List.flatMap_singleton] at hbytes
    refine (parseLocal_false hs hport hword).trans ?_
    rw [hbytes, octetsAt_toList, UInt16.ofNat_toNat]
  | v6 b =>
    have hlen : byteLen (addrText upper b.toList) = 32 := by
      rw [byteLen_ascii (ascii_addrText upper b.toList), length_addrText]
      simp
    have hfour : b.toList.length = 4 * 4 := by simp
    have hmem : ∀ i ∈ List.range 4, i < b.toList.length / 4 := by simp
    have hwords := readWords_addrText upper hmem
    rw [words_octets hfour] at hwords
    refine (parseLocal_true hs hport hlen hwords).trans ?_
    rw [octetsAt_toList, UInt16.ofNat_toNat]

/-- Every endpoint has a key of its own. -/
theorem parseLocal_inverts (upper upper' : ℕ → Bool) (ep ep' : Endpoint) :
    parseLocal (kernelLocal upper ep) ep.ip.isV6 = .ok (some ep) ∧
      (parseLocal (kernelLocal upper ep) ep.ip.isV6 =
        parseLocal (kernelLocal upper' ep') ep'.ip.isV6 ↔ ep = ep') := by
  refine ⟨parseLocal_kernelLocal upper ep, ?_⟩
  rw [parseLocal_kernelLocal, parseLocal_kernelLocal]
  constructor
  · intro h
    exact Option.some.inj (Except.ok.inj h)
  · rintro rfl
    rfl

end Netmeter
