import CronMonitor.HealthCheck.Ssrf
import CronMonitor.Lib.Inet

/-!
# `isBlockedIp` and the spellings of an address

The arithmetic of `ssrf.ts` on 32 bits, with `isIP` as it is documented. The test of an IPv4 address asks for its
number, which has one spelling; the tests of an IPv6 address ask for the beginning of its text. `blocked_right_iff`
says for which addresses that is the same.
-/

namespace CronMonitor.HealthCheck

open Inet

def isIP (ip : String) : Option IpKind :=
  if (parseV4 ip.toList).isSome then some .v4 else if (parseV6 ip.toList).isSome then some .v6 else none

/-! ### 32 bits -/

namespace Int32

/-- The digits of `parts[i]`; a part that is missing counts nothing. -/
def part (parts : List (List Char)) (i : Nat) : BitVec 32 := BitVec.ofNat 32 ((parts[i]?.map digits).getD 0)

def ipv4ToInt (ip : String) : BitVec 32 :=
  let parts := ip.toList.splitOn '.'
  (part parts 0 <<< 24) ||| (part parts 1 <<< 16) ||| (part parts 2 <<< 8) ||| part parts 3

def inCidr (ip base : String) (maskBits : Nat) : Bool :=
  let mask : BitVec 32 := if maskBits = 0 then 0 else 0xffffffff#32 <<< (32 - maskBits)
  ipv4ToInt ip &&& mask = ipv4ToInt base &&& mask

def isBlockedV4 (ip : String) : Bool := BLOCKED_V4.any fun b => inCidr ip b.1 b.2

def isBlockedIp (ip : String) : Bool :=
  match isIP ip with
  | some .v4 => isBlockedV4 ip
  | some .v6 =>
    let v := ip.toLower
    v = "::1" || v = "::" || v = "::ffff:0:0" || startsWith v "fe80" || startsWith v "fc" || startsWith v "fd" ||
      (mappedV4 v).any fun mapped => isIP mapped = some .v4 && isBlockedV4 mapped
  | none => false

end Int32

/-! ### What is asked for -/

/-- The block of the addresses that agree with `base` in their first `bits` bits. -/
def inBlock (n base : BitVec 32) (bits : Nat) : Bool := n.toNat / 2 ^ (32 - bits) = base.toNat / 2 ^ (32 - bits)

/-- The address is in one of the listed blocks. -/
def listed (n : BitVec 32) : Bool := BLOCKED_V4.any fun b => (parseV4 b.1.toList).any fun base => inBlock n base b.2

namespace V6

/-- `fe80::/10`. -/
def linkLocal (a : V6) : Bool := a.hextets.head?.any fun h => h / 64 = 0xfe80 / 64

/-- `fc00::/7`. -/
def uniqueLocal (a : V6) : Bool := a.hextets.head?.any fun h => h / 512 = 0xfc00 / 512

/-- The IPv4 address in `::ffff:0:0/96`. -/
def mapped (a : V6) : Option (BitVec 32) :=
  match a.hextets with
  | [0, 0, 0, 0, 0, 0xffff, hi, lo] => some (BitVec.ofNat 32 (65536 * hi + lo))
  | _ => none

/-- The addresses of version 6 that have to be blocked. -/
def mustBlock (a : V6) : Bool :=
  a.hextets = [0, 0, 0, 0, 0, 0, 0, 0] || a.hextets = [0, 0, 0, 0, 0, 0, 0, 1] || linkLocal a || uniqueLocal a ||
    (mapped a).any listed

/-- An address that is blocked in every spelling if it has to be, and in none or in every one otherwise: not `::`, not
`::1`, not the rest of `fe80::/10`, not the image of a blocked IPv4 address, and no first hextet below `0x1000` that
starts with `fc` or `fd` when its zeros are left out. -/
def steady (a : V6) : Bool :=
  ¬ (a.hextets = [0, 0, 0, 0, 0, 0, 0, 0]) && ¬ (a.hextets = [0, 0, 0, 0, 0, 0, 0, 1]) &&
    ¬ (a.hextets.head?.any fun h => 0xfe81 ≤ h && h ≤ 0xfebf) && ¬ ((mapped a).any listed) &&
      ¬ (a.hextets.head?.any fun h => h = 0xfc || h = 0xfd || 0xfc0 ≤ h && h ≤ 0xfdf)

end V6

/-! ### Version 4 -/

theorem or_bytes {a b c d : Nat} (ha : a ≤ 255) (hb : b ≤ 255) (hc : c ≤ 255) (hd : d ≤ 255) :
    (BitVec.ofNat 32 a <<< 24) ||| (BitVec.ofNat 32 b <<< 16) ||| (BitVec.ofNat 32 c <<< 8) ||| BitVec.ofNat 32 d =
      BitVec.ofNat 32 (65536 * (256 * a + b) + (256 * c + d)) := by
  have hmod : ∀ x i : Nat, x ≤ 255 → i ≤ 24 → x <<< i % 2 ^ 32 = x <<< i := by
    intro x i hx hi
    refine Nat.mod_eq_of_lt ?_
    rw [Nat.shiftLeft_eq]
    calc x * 2 ^ i ≤ 255 * 2 ^ 24 := Nat.mul_le_mul hx (Nat.pow_le_pow_right (by decide) hi)
      _ < 2 ^ 32 := by decide
  have hsum : ∀ x y i : Nat, y < 2 ^ i → x <<< i ||| y = x * 2 ^ i + y := by
    intro x y i hy
    rw [← Nat.shiftLeft_add_eq_or_of_lt hy, Nat.shiftLeft_eq]
  have hsmall : ∀ x : Nat, x ≤ 255 → x % 2 ^ 32 = x := fun x hx => Nat.mod_eq_of_lt (by omega)
  apply BitVec.eq_of_toNat_eq
  simp only [BitVec.toNat_or, BitVec.toNat_shiftLeft, BitVec.toNat_ofNat, hsmall a ha, hsmall b hb, hsmall c hc,
    hsmall d hd, hmod a 24 ha (by omega), hmod b 16 hb (by omega), hmod c 8 hc (by omega)]
  have hcd : c <<< 8 ||| d = c * 2 ^ 8 + d := hsum c d 8 (by omega)
  have hbcd : b <<< 16 ||| (c * 2 ^ 8 + d) = b * 2 ^ 16 + (c * 2 ^ 8 + d) := hsum b _ 16 (by omega)
  have habcd : a <<< 24 ||| (b * 2 ^ 16 + (c * 2 ^ 8 + d)) = a * 2 ^ 24 + (b * 2 ^ 16 + (c * 2 ^ 8 + d)) :=
    hsum a _ 24 (by omega)
  rw [Nat.or_assoc, Nat.or_assoc, hcd, hbcd, habcd]
  omega

theorem octet_digits {cs : List Char} {n : Nat} (h : octet cs = some n) : digits cs = n ∧ n ≤ 255 := by
  have hle := octet_le h
  unfold octet at h
  split_ifs at h
  exact ⟨Option.some.inj h, hle⟩

theorem Int32.ipv4ToInt_eq {ip : String} {n : BitVec 32} (h : parseV4 ip.toList = some n) : Int32.ipv4ToInt ip = n := by
  obtain ⟨q, hq, rfl⟩ := Option.map_eq_some_iff.1 h
  obtain ⟨as, bs, cs, ds, a, b, c, d, hsplit, ha, hb, hc, hd, rfl⟩ := quad_cases hq
  obtain ⟨ha, ha'⟩ := octet_digits ha
  obtain ⟨hb, hb'⟩ := octet_digits hb
  obtain ⟨hc, hc'⟩ := octet_digits hc
  obtain ⟨hd, hd'⟩ := octet_digits hd
  rw [← or_bytes ha' hb' hc' hd']
  simp [ipv4ToInt, hsplit, part, ha, hb, hc, hd]

/-- Masks of any length. -/
theorem and_mask_iff (x y : BitVec 32) (bits : Nat) (hbits : bits ≤ 32) :
    (x &&& (if bits = 0 then 0 else 0xffffffff#32 <<< (32 - bits)) =
      y &&& (if bits = 0 then 0 else 0xffffffff#32 <<< (32 - bits))) ↔ inBlock x y bits = true := by
  have hdiv : inBlock x y bits = true ↔ x >>> (32 - bits) = y >>> (32 - bits) := by
    rw [inBlock, decide_eq_true_iff, ← BitVec.toNat_inj, BitVec.toNat_ushiftRight, BitVec.toNat_ushiftRight,
      Nat.shiftRight_eq_div_pow, Nat.shiftRight_eq_div_pow]
  rw [hdiv]
  by_cases hzero : bits = 0
  · subst hzero
    have hshift : ∀ z : BitVec 32, z >>> 32 = 0#32 := fun z => BitVec.ushiftRight_eq_zero (le_refl 32)
    rw [if_pos rfl, Nat.sub_zero, hshift, hshift]
    simp
  · rw [if_neg hzero]
    have hone : ∀ i, i < 32 → (0xffffffff#32).getLsbD i = true := by decide
    have hmask : ∀ i, i < 32 → (0xffffffff#32 <<< (32 - bits)).getLsbD i = decide (32 - bits ≤ i) := by
      intro i hi
      rw [BitVec.getLsbD_shiftLeft]
      by_cases hle : 32 - bits ≤ i
      · simp [hi, hle, hone (i - (32 - bits)) (by omega)]
      · simp [hle]
    constructor
    · intro h
      apply BitVec.eq_of_getLsbD_eq
      intro i hi
      rw [BitVec.getLsbD_ushiftRight, BitVec.getLsbD_ushiftRight]
      by_cases hin : 32 - bits + i < 32
      · have hbit := congrArg (fun z => BitVec.getLsbD z (32 - bits + i)) h
        simpa [BitVec.getLsbD_and, hmask _ hin] using hbit
      · rw [BitVec.getLsbD_of_ge _ _ (by omega), BitVec.getLsbD_of_ge _ _ (by omega)]
    · intro h
      apply BitVec.eq_of_getLsbD_eq
      intro i hi
      rw [BitVec.getLsbD_and, BitVec.getLsbD_and, hmask i hi]
      by_cases hle : 32 - bits ≤ i
      · have hbit := congrArg (fun z => BitVec.getLsbD z (i - (32 - bits))) h
        rw [BitVec.getLsbD_ushiftRight, BitVec.getLsbD_ushiftRight, Nat.add_sub_cancel' hle] at hbit
        rw [hbit]
      · simp [hle]

/-- Every listed block has an address and at most 32 bits. -/
theorem blocked_wellFormed : ∀ b ∈ BLOCKED_V4, (parseV4 b.1.toList).isSome = true ∧ b.2 ≤ 32 := by decide +kernel

theorem any_congr_mem {α : Type} {l : List α} {p q : α → Bool} (h : ∀ a ∈ l, p a = q a) : l.any p = l.any q := by
  induction l with
  | nil => rfl
  | cons a l ih =>
    obtain ⟨ha, hl⟩ := List.forall_mem_cons.1 h
    rw [List.any_cons, List.any_cons, ha, ih hl]

theorem Int32.isBlockedV4_eq {ip : String} {n : BitVec 32} (h : parseV4 ip.toList = some n) :
    Int32.isBlockedV4 ip = listed n := by
  refine any_congr_mem fun b hb => ?_
  obtain ⟨hsome, hbits⟩ := blocked_wellFormed b hb
  obtain ⟨base, hbase⟩ := Option.isSome_iff_exists.1 hsome
  rw [hbase, Option.any_some, inCidr, ipv4ToInt_eq h, ipv4ToInt_eq hbase, Bool.eq_iff_iff, decide_eq_true_iff]
  exact and_mask_iff n base b.2 hbits

theorem ipv4ToInt_toNat {ip : String} {n : BitVec 32} (h : parseV4 ip.toList = some n) : ipv4ToInt ip = n.toNat := by
  obtain ⟨q, hq, rfl⟩ := Option.map_eq_some_iff.1 h
  obtain ⟨as, bs, cs, ds, a, b, c, d, hsplit, ha, hb, hc, hd, rfl⟩ := quad_cases hq
  obtain ⟨ha, ha'⟩ := octet_digits ha
  obtain ⟨hb, hb'⟩ := octet_digits hb
  obtain ⟨hc, hc'⟩ := octet_digits hc
  obtain ⟨hd, hd'⟩ := octet_digits hd
  simp only [ipv4ToInt, hsplit, List.map_cons, List.map_nil, ha, hb, hc, hd, List.foldl_cons, List.foldl_nil,
    BitVec.toNat_ofNat]
  omega

/-- The arithmetic on natural numbers gives the same. -/
theorem isBlockedV4_eq {ip : String} {n : BitVec 32} (h : parseV4 ip.toList = some n) : isBlockedV4 ip = listed n := by
  refine any_congr_mem fun b hb => ?_
  obtain ⟨hsome, -⟩ := blocked_wellFormed b hb
  obtain ⟨base, hbase⟩ := Option.isSome_iff_exists.1 hsome
  rw [hbase, Option.any_some, inCidr, ipv4ToInt_toNat h, ipv4ToInt_toNat hbase, Nat.shiftRight_eq_div_pow,
    Nat.shiftRight_eq_div_pow]
  rfl

theorem isIP_v4 {ip : String} (h : isIP ip = some .v4) : ∃ n, parseV4 ip.toList = some n := by
  unfold isIP at h
  split_ifs at h with h₁ h₂
  · exact Option.isSome_iff_exists.1 h₁
  · exact nomatch Option.some.inj h

theorem isBlockedIp_eq {api : UrlApi} (hapi : api.isIP = isIP) (ip : String) :
    isBlockedIp api ip = Int32.isBlockedIp ip := by
  have hmapped : ∀ mapped, (decide (isIP mapped = some .v4) && isBlockedV4 mapped) =
      (decide (isIP mapped = some .v4) && Int32.isBlockedV4 mapped) := by
    intro mapped
    by_cases hv4 : isIP mapped = some .v4
    · obtain ⟨n, hn⟩ := isIP_v4 hv4
      rw [isBlockedV4_eq hn, Int32.isBlockedV4_eq hn]
    · rw [decide_eq_false hv4, Bool.false_and, Bool.false_and]
  unfold isBlockedIp Int32.isBlockedIp
  rw [hapi]
  cases hkind : isIP ip with
  | none => rfl
  | some kind =>
    cases kind with
    | v4 =>
      obtain ⟨n, hn⟩ := isIP_v4 hkind
      show isBlockedV4 ip = Int32.isBlockedV4 ip
      rw [isBlockedV4_eq hn, Int32.isBlockedV4_eq hn]
    | v6 => simp only [hmapped]

/-! ### Version 6 -/

theorem isIP_v6 {ip : String} {hs : List Nat} (h : parseV6 ip.toList = some hs) : isIP ip = some .v6 := by
  rw [isIP, parseV4_of_parseV6 h, h]
  rfl

/-- Below sixteen, digits are told apart. -/
theorem digitChar_beq {a b : Nat} (ha : a < 16) (hb : b < 16) :
    (Nat.digitChar a == Nat.digitChar b) = decide (a = b) := by
  rw [Bool.eq_iff_iff, beq_iff_eq, decide_eq_true_iff]
  constructor
  · intro h
    have hdigit := congrArg hexDigit h
    rw [hexDigit_digitChar ha, hexDigit_digitChar hb] at hdigit
    exact Option.some.inj hdigit
  · rintro rfl
    rfl

theorem digitChar_bne_colon {a : Nat} (ha : a < 16) : (':' == Nat.digitChar a) = false := by
  interval_cases a <;> rfl

/-- When a first group of these digits passes the tests for `fe80`, `fc` and `fd`. -/
def LooksLocal (length x : Nat) : Prop :=
  x = 0xfe80 ∨ length = 2 ∧ (x = 0xfc ∨ x = 0xfd) ∨ length = 3 ∧ 0xfc0 ≤ x ∧ x ≤ 0xfdf ∨
    length = 4 ∧ 0xfc00 ≤ x ∧ x ≤ 0xfdff

instance (length x : Nat) : Decidable (LooksLocal length x) := inferInstanceAs (Decidable (_ ∨ _))

theorem prefixes_iff {ds : List Nat} (hlt : ∀ d ∈ ds, d < 16) (hpos : 1 ≤ ds.length) (hle : ds.length ≤ 4)
    (rest : List Char) :
    ("fe80".toList.isPrefixOf (ds.map Nat.digitChar ++ ':' :: rest) ||
      "fc".toList.isPrefixOf (ds.map Nat.digitChar ++ ':' :: rest) ||
      "fd".toList.isPrefixOf (ds.map Nat.digitChar ++ ':' :: rest)) = true ↔
        LooksLocal ds.length (ds.foldl (fun n d => 16 * n + d) 0) := by
  have hchars : "fe80".toList = [Nat.digitChar 15, Nat.digitChar 14, Nat.digitChar 8, Nat.digitChar 0] ∧
      "fc".toList = [Nat.digitChar 15, Nat.digitChar 12] ∧ "fd".toList = [Nat.digitChar 15, Nat.digitChar 13] := by decide
  obtain ⟨h₁, h₂, h₃⟩ := hchars
  have hcolon : ∀ b : Nat, b < 16 → (Nat.digitChar b == ':') = false := by
    intro b hb
    rw [BEq.comm]
    exact digitChar_bne_colon hb
  rw [h₁, h₂, h₃]
  obtain ⟨a, rfl⟩ | ⟨a, b, rfl⟩ | ⟨a, b, c, rfl⟩ | ⟨a, b, c, d, rfl⟩ := digits_cases hpos hle
  all_goals simp only [List.mem_cons, List.not_mem_nil, or_false, forall_eq_or_imp, forall_eq] at hlt
  all_goals simp only [List.map_cons, List.map_nil, List.cons_append, List.nil_append, List.isPrefixOf, digitChar_beq,
    hcolon, hlt, Nat.reduceLT, Bool.false_and, Bool.and_false, Bool.and_true, Bool.or_false, Bool.or_eq_true,
    Bool.and_eq_true, decide_eq_true_iff, Bool.false_eq_true, false_or, LooksLocal, List.length_cons, List.length_nil,
    List.foldl_cons, List.foldl_nil, true_and, false_iff]
  all_goals omega

theorem toList_toLower (s : String) : s.toLower.toList = s.toList.map Char.toLower := String.toList_map

theorem startsWith_eq (s pre : String) : startsWith s pre = pre.toList.isPrefixOf s.toList := rfl

/-- An address that starts with a group: its text is asked for the first digits. -/
theorem blocked_group {ip : String} {hs : List Nat} (hparse : parseV6 ip.toList = some hs) {g rest : List Char} {x : Nat}
    (hx : hextet g = some x) (hip : ip.toList = g ++ ':' :: rest) :
    Int32.isBlockedIp ip = decide (LooksLocal g.length x) := by
  obtain ⟨ds, hlen, hlt, hmap, hpos, hle, rfl⟩ := hextet_cases hx
  have hlower : ip.toLower.toList = ds.map Nat.digitChar ++ ':' :: rest.map Char.toLower := by
    rw [toList_toLower, hip, List.map_append, hmap, List.map_cons]
    rfl
  have hcolon : ∀ cs, ip.toLower.toList ≠ ':' :: cs := by
    intro cs heq
    rw [hlower] at heq
    obtain ⟨d, ds', rfl⟩ := List.exists_cons_of_length_pos (Nat.lt_of_lt_of_le Nat.zero_lt_one hpos)
    have hd := digitChar_bne_colon (hlt d List.mem_cons_self)
    rw [List.map_cons, List.cons_append, List.cons.injEq] at heq
    rw [heq.1] at hd
    exact absurd hd (by decide)
  have hne : ∀ t : String, t.toList.head? = some ':' → (ip.toLower = t) = False := by
    intro t ht
    refine eq_false fun heq => ?_
    cases htl : t.toList with
    | nil => simp [htl] at ht
    | cons c cs =>
      obtain rfl : c = ':' := by simpa [htl] using ht
      exact hcolon cs (by rw [heq, htl])
  have hmapped : mappedV4 ip.toLower = none := by
    rw [mappedV4, startsWith_eq, if_neg]
    intro hpre
    obtain ⟨cs, hcs⟩ := List.isPrefixOf_iff_prefix.1 hpre
    exact hcolon (':' :: ("ffff:".toList ++ cs)) hcs.symm
  rw [Bool.eq_iff_iff, decide_eq_true_iff, ← hlen, ← prefixes_iff hlt hpos hle (rest.map Char.toLower), ← hlower]
  simp only [Int32.isBlockedIp, isIP_v6 hparse, hmapped, Option.any_none, Bool.or_false, startsWith_eq]
  rw [decide_eq_false (by rw [hne "::1" rfl]; exact id), decide_eq_false (by rw [hne "::" rfl]; exact id),
    decide_eq_false (by rw [hne "::ffff:0:0" rfl]; exact id)]
  simp only [Bool.false_or]

theorem mapped_of_hextets {a : V6} {hi lo : Nat} (h : a.hextets = [0, 0, 0, 0, 0, 0xffff, hi, lo]) :
    V6.mapped a = some (BitVec.ofNat 32 (65536 * hi + lo)) := by
  rw [V6.mapped, h]
  rfl

/-- What the pattern `^::ffff:(\d+\.\d+\.\d+\.\d+)$` finds. -/
theorem mappedV4_eq {v m : String} (h : mappedV4 v = some m) :
    v.toList = "::ffff:".toList ++ m.toList ∧ '.' ∈ m.toList := by
  unfold mappedV4 at h
  dsimp only at h
  split_ifs at h with hpre hparts
  obtain rfl := Option.some.inj h
  obtain ⟨rest, hrest⟩ := List.isPrefixOf_iff_prefix.1 (show "::ffff:".toList.isPrefixOf v.toList = true from hpre)
  have hdrop : v.toList.drop 7 = rest := by
    rw [← hrest]
    rfl
  rw [hdrop] at hparts ⊢
  refine ⟨?_, ?_⟩
  · rw [← hrest]
    exact congrArg ("::ffff:".toList ++ ·) String.toList_ofList.symm
  · show '.' ∈ (String.ofList rest).toList
    rw [String.toList_ofList]
    by_contra hdot
    rw [List.splitOn_eq_singleton hdot] at hparts
    simp at hparts

/-- An address that starts with `::` is blocked only if it has to be. -/
theorem blocked_elided {ip : String} {a : V6} (hparse : parseV6 ip.toList = some a.hextets) {rest : List Char}
    (hip : ip.toList = ':' :: ':' :: rest) (h : Int32.isBlockedIp ip = true) :
    a.hextets = [0, 0, 0, 0, 0, 0, 0, 0] ∨ a.hextets = [0, 0, 0, 0, 0, 0, 0, 1] ∨ (V6.mapped a).any listed = true := by
  have hlower : ip.toLower.toList = ':' :: ':' :: rest.map Char.toLower := by
    rw [toList_toLower, hip]
    rfl
  have hparse' : parseV6 ip.toLower.toList = some a.hextets := by rw [toList_toLower, parseV6_toLower, hparse]
  have hfe : startsWith ip.toLower "fe80" = false := by rw [startsWith_eq, hlower]; rfl
  have hfc : startsWith ip.toLower "fc" = false := by rw [startsWith_eq, hlower]; rfl
  have hfd : startsWith ip.toLower "fd" = false := by rw [startsWith_eq, hlower]; rfl
  simp only [Int32.isBlockedIp, isIP_v6 hparse, hfe, hfc, hfd, Bool.or_false, Bool.or_eq_true, decide_eq_true_iff] at h
  have htext : ∀ t : String, ip.toLower = t → parseV6 t.toList = some a.hextets := fun t ht => ht ▸ hparse'
  rcases h with ((hone | hzero) | hffff) | hmapped
  · exact .inr (.inl (Option.some.inj ((htext _ hone).symm.trans (by decide +kernel))))
  · exact .inl (Option.some.inj ((htext _ hzero).symm.trans (by decide +kernel)))
  · have heq : a.hextets = [0, 0, 0, 0, 0, 0xffff, 0, 0] :=
      Option.some.inj ((htext _ hffff).symm.trans (by decide +kernel))
    right
    right
    rw [mapped_of_hextets heq]
    decide +kernel
  · obtain ⟨m, hm, hblocked⟩ := (Option.any_eq_true ..).1 hmapped
    simp only [Bool.and_eq_true, decide_eq_true_iff] at hblocked
    obtain ⟨htext, hdot⟩ := mappedV4_eq hm
    obtain ⟨n, hn⟩ := isIP_v4 hblocked.1
    obtain ⟨q, hq, rfl⟩ := Option.map_eq_some_iff.1 hn
    rw [htext, parseV6_mapped (quad_mem hq) hdot, hq] at hparse'
    right
    right
    rw [mapped_of_hextets (Option.some.inj hparse').symm, Option.any_some, ← Int32.isBlockedV4_eq hn]
    exact hblocked.2

/-! ### Every spelling -/

/-- Every text that `isIP` accepts spells an address. -/
theorem spelled_of_isIP {ip : String} (h : (isIP ip).isSome = true) : ∃ a : Address, a.Spelled ip.toList := by
  unfold isIP at h
  split_ifs at h with hv4 hv6
  · obtain ⟨n, hn⟩ := Option.isSome_iff_exists.1 hv4
    exact ⟨.v4 n, hn⟩
  · obtain ⟨hs, hhs⟩ := Option.isSome_iff_exists.1 hv6
    obtain ⟨hlen, hlt⟩ := parseV6_spells hhs
    exact ⟨.v6 ⟨hs, hlen, hlt⟩, hhs⟩
  · cases h

/-- All spellings of an address get one answer; it is the right one for version 4, and for version 6 it is yes when the
address has to be blocked. -/
def Right (a : Address) : Prop :=
  (∀ ip ip' : String, a.Spelled ip.toList → a.Spelled ip'.toList → Int32.isBlockedIp ip = Int32.isBlockedIp ip') ∧
    match a with
    | .v4 n => ∀ ip : String, a.Spelled ip.toList → Int32.isBlockedIp ip = listed n
    | .v6 a' => V6.mustBlock a' = true → ∀ ip : String, a.Spelled ip.toList → Int32.isBlockedIp ip = true

def steady : Address → Bool
  | .v4 _ => true
  | .v6 a => V6.steady a

theorem isBlockedIp_v4 {ip : String} {n : BitVec 32} (h : parseV4 ip.toList = some n) :
    Int32.isBlockedIp ip = listed n := by
  have hkind : isIP ip = some .v4 := by
    rw [isIP, h]
    rfl
  rw [Int32.isBlockedIp, hkind]
  exact Int32.isBlockedV4_eq h

/-- The answer for a steady address of version 6. -/
theorem isBlockedIp_steady {ip : String} {a : V6} (hparse : parseV6 ip.toList = some a.hextets)
    (hsteady : V6.steady a = true) :
    Int32.isBlockedIp ip = (a.hextets.head?.any fun h => h = 0xfe80 || 0xfc00 ≤ h && h ≤ 0xfdff) := by
  simp only [V6.steady, Bool.and_eq_true, decide_eq_true_iff] at hsteady
  obtain ⟨⟨⟨⟨hzero, hone⟩, -⟩, hmapped⟩, hshort⟩ := hsteady
  obtain ⟨hhead, rest, hip⟩ | ⟨g, rest, x, hx, hhead, hip⟩ := parseV6_first hparse
  · rw [hhead, Bool.eq_iff_iff]
    constructor
    · intro h
      rcases blocked_elided hparse hip h with h | h | h
      · exact absurd h hzero
      · exact absurd h hone
      · exact absurd h hmapped
    · intro h
      exact absurd h (by decide)
  · have hlen := hextet_cases hx
    obtain ⟨ds, hlen, hlt, -, hpos, hle, hfold⟩ := hlen
    rw [blocked_group hparse hx hip, hhead, Bool.eq_iff_iff, decide_eq_true_iff]
    rw [hhead] at hshort
    simp only [Option.any_some, Bool.or_eq_true, Bool.and_eq_true, decide_eq_true_iff, LooksLocal] at hshort ⊢
    have hfour : 0xfc00 ≤ x → g.length = 4 := by
      intro hge
      rw [← hlen]
      obtain ⟨a, rfl⟩ | ⟨a, b, rfl⟩ | ⟨a, b, c, rfl⟩ | ⟨a, b, c, d, rfl⟩ := digits_cases hpos hle
      all_goals simp only [List.mem_cons, List.not_mem_nil, or_false, forall_eq_or_imp, forall_eq] at hlt
      all_goals simp only [List.foldl_cons, List.foldl_nil] at hfold
      all_goals simp only [List.length_cons, List.length_nil]
      all_goals omega
    omega

/-- What has to be blocked of the steady addresses is what the tests find. -/
theorem mustBlock_steady {a : V6} (hsteady : V6.steady a = true) (hmust : V6.mustBlock a = true) :
    (a.hextets.head?.any fun h => h = 0xfe80 || 0xfc00 ≤ h && h ≤ 0xfdff) = true := by
  simp only [V6.steady, Bool.and_eq_true, decide_eq_true_iff] at hsteady
  obtain ⟨⟨⟨⟨hzero, hone⟩, hlink⟩, hmapped⟩, -⟩ := hsteady
  simp only [V6.mustBlock, V6.linkLocal, V6.uniqueLocal, Bool.or_eq_true, decide_eq_true_iff] at hmust
  obtain ⟨h, hhead⟩ : ∃ h, a.hextets.head? = some h := by
    cases hcases : a.hextets with
    | nil => exact absurd a.length_eq (by simp [hcases])
    | cons h hs => exact ⟨h, rfl⟩
  simp only [hhead, Option.any_some, Bool.or_eq_true, Bool.and_eq_true, decide_eq_true_iff] at hlink hmust ⊢
  rcases hmust with (((hm | hm) | hm) | hm) | hm
  · exact absurd hm hzero
  · exact absurd hm hone
  · omega
  · omega
  · exact absurd hm hmapped

/-- An address in full, its first group in the digits given. -/
theorem blocked_write (ds : List Nat) (hlt : ∀ d ∈ ds, d < 16) (hpos : 1 ≤ ds.length) (hle : ds.length ≤ 4) {x : Nat}
    {hs : List Nat} (hx : x = ds.foldl (fun n d => 16 * n + d) 0) (hlen : hs.length = 7) (hhs : ∀ h ∈ hs, h < 65536) :
    parseV6 (String.ofList (write (ds.map Nat.digitChar :: hs.map padded))).toList = some (x :: hs) ∧
      Int32.isBlockedIp (String.ofList (write (ds.map Nat.digitChar :: hs.map padded))) =
        decide (LooksLocal ds.length x) := by
  have hgroup : hextet (ds.map Nat.digitChar) = some x := hx ▸ hextet_digits hlt hpos hle
  have hparse : parseV6 (String.ofList (write (ds.map Nat.digitChar :: hs.map padded))).toList = some (x :: hs) := by
    rw [String.toList_ofList]
    refine parseV6_write ?_ (by rw [List.length_cons, List.length_map, hlen])
    rw [List.mapM_cons, hgroup, mapM_padded hhs]
    rfl
  refine ⟨hparse, ?_⟩
  obtain ⟨h, hs', rfl⟩ := List.exists_cons_of_length_pos (by omega : 0 < hs.length)
  have htext : (String.ofList (write (ds.map Nat.digitChar :: (h :: hs').map padded))).toList =
      ds.map Nat.digitChar ++ ':' :: write ((h :: hs').map padded) := by
    rw [String.toList_ofList, write, List.map_cons, List.intercalate_cons_cons]
    simp [write]
  rw [blocked_group hparse hgroup htext, List.length_map]

theorem foldl_padded {x : Nat} (hx : x < 65536) :
    x = [x / 4096, x / 256 % 16, x / 16 % 16, x % 16].foldl (fun n d => 16 * n + d) 0 := by
  simp only [List.foldl_cons, List.foldl_nil]
  omega

/-- The spelling in full passes the tests when the first hextet is in `fc00::/7` or `fe80`. -/
theorem blocked_spell {a : V6} {x : Nat} {hs : List Nat} (ha : a.hextets = x :: hs) : ∃ ip : String,
    parseV6 ip.toList = some a.hextets ∧ Int32.isBlockedIp ip = decide (LooksLocal 4 x) := by
  obtain ⟨hx, hhs⟩ := List.forall_mem_cons.1 (ha ▸ a.lt)
  have hlen := a.length_eq
  rw [ha, List.length_cons] at hlen
  obtain ⟨hparse, hblocked⟩ := blocked_write [x / 4096, x / 256 % 16, x / 16 % 16, x % 16] (by simp; omega)
    (by simp) (by simp) (foldl_padded hx) (by omega) hhs
  exact ⟨_, by rw [ha]; exact hparse, hblocked⟩

/-- A short first group that starts with `fc` or `fd`, written without zeros. -/
theorem blocked_short {a : V6} {x : Nat} {hs : List Nat} (ha : a.hextets = x :: hs)
    (hx : x = 0xfc ∨ x = 0xfd ∨ 0xfc0 ≤ x ∧ x ≤ 0xfdf) : ∃ ip : String,
      parseV6 ip.toList = some a.hextets ∧ Int32.isBlockedIp ip = true := by
  obtain ⟨-, hhs⟩ := List.forall_mem_cons.1 (ha ▸ a.lt)
  have hlen := a.length_eq
  rw [ha, List.length_cons] at hlen
  rw [ha]
  rcases Nat.lt_or_ge x 0x100 with hlt | hge
  · obtain ⟨hparse, hblocked⟩ := blocked_write [x / 16, x % 16] (by simp; omega) (by simp) (by simp)
      (show x = 16 * (16 * 0 + x / 16) + x % 16 by omega) (by omega) hhs
    refine ⟨_, hparse, ?_⟩
    rw [hblocked, decide_eq_true_iff]
    exact .inr (.inl ⟨rfl, by omega⟩)
  · obtain ⟨hparse, hblocked⟩ := blocked_write [x / 256, x / 16 % 16, x % 16] (by simp; omega) (by simp) (by simp)
      (show x = 16 * (16 * (16 * 0 + x / 256) + x / 16 % 16) + x % 16 by omega) (by omega) hhs
    refine ⟨_, hparse, ?_⟩
    rw [hblocked, decide_eq_true_iff]
    exact .inr (.inr (.inl ⟨rfl, by omega⟩))

/-- The addresses that are treated alike, and rightly, in all their spellings are the steady ones. -/
theorem blocked_right_iff (a : Address) : Right a ↔ steady a = true := by
  cases a with
  | v4 n =>
    have hright : ∀ ip : String, (Address.v4 n).Spelled ip.toList → Int32.isBlockedIp ip = listed n :=
      fun ip hip => isBlockedIp_v4 hip
    exact iff_of_true ⟨fun ip ip' hip hip' => (hright ip hip).trans (hright ip' hip').symm, hright⟩ rfl
  | v6 a =>
    constructor
    · rintro ⟨hsame, hmust⟩
      obtain ⟨x, hs, ha⟩ : ∃ x hs, a.hextets = x :: hs :=
        List.exists_cons_of_length_pos (by rw [a.length_eq]; decide)
      obtain ⟨hx, hhs⟩ := List.forall_mem_cons.1 (ha ▸ a.lt)
      obtain ⟨full, hfull, hblocked⟩ := blocked_spell ha
      have hlocal : V6.mustBlock a = true → x = 0xfe80 ∨ 0xfc00 ≤ x ∧ x ≤ 0xfdff := by
        intro hm
        have hlooks : LooksLocal 4 x := of_decide_eq_true (hblocked ▸ hmust hm full hfull)
        unfold LooksLocal at hlooks
        omega
      have hzero : x = 0 → V6.mustBlock a = false := by
        intro hx
        rw [← Bool.not_eq_true]
        intro hm
        have := hlocal hm
        omega
      have hshort : ¬ (x = 0xfc ∨ x = 0xfd ∨ 0xfc0 ≤ x ∧ x ≤ 0xfdf) := by
        intro hx
        obtain ⟨ip, hip, hyes⟩ := blocked_short ha hx
        have heq := hsame ip full hip hfull
        rw [hyes, hblocked, eq_comm, decide_eq_true_iff] at heq
        unfold LooksLocal at heq
        omega
      simp only [steady, V6.steady, ha, List.head?_cons, Option.any_some, Bool.and_eq_true, decide_eq_true_iff,
        Bool.or_eq_true]
      refine ⟨⟨⟨⟨?_, ?_⟩, ?_⟩, ?_⟩, fun h => hshort (by tauto)⟩
      · intro heq
        obtain ⟨rfl, rfl⟩ := List.cons.inj heq
        exact absurd (hzero rfl) (by simp [V6.mustBlock, ha])
      · intro heq
        obtain ⟨rfl, rfl⟩ := List.cons.inj heq
        exact absurd (hzero rfl) (by simp [V6.mustBlock, ha])
      · intro hrange
        have hm : V6.mustBlock a = true := by
          simp only [V6.mustBlock, V6.linkLocal, ha, List.head?_cons, Option.any_some, Bool.or_eq_true,
            decide_eq_true_iff]
          omega
        have := hlocal hm
        omega
      · intro hlisted
        have hm : V6.mustBlock a = true := by simp [V6.mustBlock, hlisted]
        have hx : x = 0 := by
          obtain ⟨n, hn, -⟩ := (Option.any_eq_true ..).1 hlisted
          unfold V6.mapped at hn
          rw [ha] at hn
          split at hn
          · next heq => exact (List.cons.inj heq).1
          · cases hn
        exact absurd (hzero hx) (by simp [hm])
    · intro hsteady
      have hanswer : ∀ ip : String, (Address.v6 a).Spelled ip.toList → Int32.isBlockedIp ip =
          (a.hextets.head?.any fun h => h = 0xfe80 || 0xfc00 ≤ h && h ≤ 0xfdff) :=
        fun ip hip => isBlockedIp_steady hip hsteady
      refine ⟨fun ip ip' hip hip' => (hanswer ip hip).trans (hanswer ip' hip').symm, fun hm ip hip => ?_⟩
      rw [hanswer ip hip]
      exact mustBlock_steady hsteady hm

/-- `::1` and the image of `127.0.0.1`, in other words than the code expects. -/
theorem loopback_passes : isIP "0:0:0:0:0:0:0:1" = some .v6 ∧
    parseV6 "0:0:0:0:0:0:0:1".toList = parseV6 "::1".toList ∧ Int32.isBlockedIp "::1" = true ∧
    Int32.isBlockedIp "0:0:0:0:0:0:0:1" = false ∧
    parseV6 "::ffff:7f00:1".toList = parseV6 "::ffff:127.0.0.1".toList ∧
    Int32.isBlockedIp "::ffff:127.0.0.1" = true ∧ Int32.isBlockedIp "::ffff:7f00:1" = false := by
  decide +kernel

end CronMonitor.HealthCheck
