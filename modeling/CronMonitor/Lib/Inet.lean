import Mathlib

/-!
# Internet addresses as text

`parseV4` and `parseV6` read an address the way `inet_pton` does, and the second also a zone: four decimal numbers;
or hextets in hexadecimal, of which `::` stands for one or more that are zero and the last two may be written as
four decimal numbers. An address has many spellings; `spell` is one of them.
-/

namespace Inet

/-- Eight numbers of sixteen bits. -/
structure V6 where
  hextets : List Nat
  length_eq : hextets.length = 8
  lt : ∀ h ∈ hextets, h < 65536
deriving DecidableEq

inductive Address
  | v4 (n : BitVec 32)
  | v6 (a : V6)
deriving DecidableEq

/-! ### Reading -/

def hexDigits : List Char := "0123456789abcdef".toList

def hexDigit (c : Char) : Option Nat := hexDigits.idxOf? c.toLower

/-- One to four hexadecimal digits. -/
def hextet (cs : List Char) : Option Nat :=
  if cs = [] ∨ 4 < cs.length then none else (cs.mapM hexDigit).map fun ds => ds.foldl (fun n d => 16 * n + d) 0

def decimal (cs : List Char) : Nat := cs.foldl (fun n c => 10 * n + (c.toNat - '0'.toNat)) 0

/-- A decimal number up to 255, without leading zeros. -/
def octet (cs : List Char) : Option Nat :=
  if cs ≠ [] ∧ cs.all Char.isDigit ∧ (cs.head? = some '0' → cs.length = 1) ∧ decimal cs ≤ 255 then some (decimal cs)
  else none

/-- Four decimal numbers, as two of sixteen bits. -/
def quad (cs : List Char) : Option (Nat × Nat) :=
  match (cs.splitOn '.').map octet with
  | [some a, some b, some c, some d] => some (256 * a + b, 256 * c + d)
  | _ => none

def parseV4 (cs : List Char) : Option (BitVec 32) := (quad cs).map fun q => BitVec.ofNat 32 (65536 * q.1 + q.2)

/-- The hextets on the left of `::`. -/
def groups (cs : List Char) : Option (List Nat) :=
  if cs = [] then some [] else (cs.splitOn ':').mapM hextet

/-- The hextets at the end of the text; the last two may be written as four decimal numbers. -/
def lastGroups (cs : List Char) : Option (List Nat) :=
  if cs = [] then some []
  else
    match quad ((cs.splitOn ':').getLastD []) with
    | some q => ((cs.splitOn ':').dropLast.mapM hextet).map (· ++ [q.1, q.2])
    | none => (cs.splitOn ':').mapM hextet

/-- What stands before and after the first `::`. -/
def elision : List Char → Option (List Char × List Char)
  | [] => none
  | [_] => none
  | c :: d :: cs =>
    if c = ':' ∧ d = ':' then some ([], cs) else (elision (d :: cs)).map fun p => (c :: p.1, p.2)

def parseHextets (cs : List Char) : Option (List Nat) :=
  match elision cs with
  | some (l, r) =>
    match groups l, lastGroups r with
    | some l, some r =>
      if l.length + r.length < 8 then some (l ++ List.replicate (8 - l.length - r.length) 0 ++ r) else none
    | _, _ => none
  | none => (lastGroups cs).filter fun hs => hs.length = 8

def isZoneChar (c : Char) : Bool := c.isAlphanum || c = '-' || c = '.' || c = ':'

/-- The text in front of a zone such as `%eth0`. -/
def withoutZone (cs : List Char) : Option (List Char) :=
  match cs.dropWhile (· ≠ '%') with
  | [] => some cs
  | _ :: zone => if zone ≠ [] ∧ zone.all isZoneChar then some (cs.takeWhile (· ≠ '%')) else none

def parseV6 (cs : List Char) : Option (List Nat) := (withoutZone cs).bind parseHextets

def Address.Spelled (cs : List Char) : Address → Prop
  | .v4 n => parseV4 cs = some n
  | .v6 a => parseV6 cs = some a.hextets

/-! ### What is read -/

theorem forall_of_mapM {α β : Type} {f : α → Option β} {l : List α} {m : List β} (h : l.mapM f = some m) :
    List.Forall₂ (fun a b => f a = some b) l m := by
  induction l generalizing m with
  | nil =>
    obtain rfl : [] = m := Option.some.inj h
    exact .nil
  | cons a l ih =>
    rw [List.mapM_cons] at h
    obtain ⟨b, hb, h⟩ := Option.bind_eq_some_iff.1 h
    obtain ⟨m', hm', h⟩ := Option.bind_eq_some_iff.1 h
    obtain rfl := Option.some.inj h
    exact .cons hb (ih hm')

theorem forall_mem_of_mapM {α β : Type} {f : α → Option β} {l : List α} {m : List β} {P : β → Prop}
    (h : l.mapM f = some m) (hP : ∀ a b, f a = some b → P b) : ∀ b ∈ m, P b := by
  have hall := forall_of_mapM h
  clear h
  induction hall with
  | nil => exact fun _ hb => absurd hb List.not_mem_nil
  | cons hab _ ih =>
    intro b hb
    rcases List.mem_cons.1 hb with rfl | hb
    · exact hP _ _ hab
    · exact ih b hb

theorem hexDigit_lt {c : Char} {d : Nat} (h : hexDigit c = some d) : d < 16 :=
  (List.idxOf?_eq_some_iff.1 h).1

theorem hexDigits_eq : hexDigits = (List.range 16).map Nat.digitChar := by decide

theorem hexDigit_char {c : Char} {d : Nat} (h : hexDigit c = some d) : c.toLower = Nat.digitChar d := by
  obtain ⟨hlt, hget, -⟩ := List.idxOf?_eq_some_iff.1 h
  rw [← hget]
  simp only [hexDigits_eq, List.getElem_map, List.getElem_range]

/-- The value of one to four digits. -/
theorem hextet_cases {cs : List Char} {h : Nat} (hh : hextet cs = some h) : ∃ ds : List Nat, ds.length = cs.length ∧
    (∀ d ∈ ds, d < 16) ∧ cs.map Char.toLower = ds.map Nat.digitChar ∧ 1 ≤ ds.length ∧ ds.length ≤ 4 ∧
      h = ds.foldl (fun n d => 16 * n + d) 0 := by
  unfold hextet at hh
  split_ifs at hh with hcs
  obtain ⟨ds, hds, rfl⟩ := Option.map_eq_some_iff.1 hh
  have hall := forall_of_mapM hds
  have hlen := hall.length_eq
  refine ⟨ds, hlen.symm, forall_mem_of_mapM hds fun _ _ => hexDigit_lt, ?_, ?_, ?_, rfl⟩
  · clear hds hh hcs hlen
    induction hall with
    | nil => rfl
    | cons hab _ ih => rw [List.map_cons, List.map_cons, hexDigit_char hab, ih]
  · have hpos := List.length_pos_iff.2 (not_or.1 hcs).1
    omega
  · have hle := (not_or.1 hcs).2
    omega

/-- The digits as far as they go. -/
theorem digits_cases {ds : List Nat} (hpos : 1 ≤ ds.length) (hle : ds.length ≤ 4) :
    (∃ a, ds = [a]) ∨ (∃ a b, ds = [a, b]) ∨ (∃ a b c, ds = [a, b, c]) ∨ ∃ a b c d, ds = [a, b, c, d] := by
  rcases ds with _ | ⟨a, _ | ⟨b, _ | ⟨c, _ | ⟨d, _ | ⟨e, ds⟩⟩⟩⟩⟩
  · simp at hpos
  · exact .inl ⟨a, rfl⟩
  · exact .inr (.inl ⟨a, b, rfl⟩)
  · exact .inr (.inr (.inl ⟨a, b, c, rfl⟩))
  · exact .inr (.inr (.inr ⟨a, b, c, d, rfl⟩))
  · simp only [List.length_cons] at hle
    omega

theorem hextet_lt {cs : List Char} {h : Nat} (hh : hextet cs = some h) : h < 65536 := by
  obtain ⟨ds, -, hlt, -, hpos, hle, rfl⟩ := hextet_cases hh
  obtain ⟨a, rfl⟩ | ⟨a, b, rfl⟩ | ⟨a, b, c, rfl⟩ | ⟨a, b, c, d, rfl⟩ := digits_cases hpos hle
  all_goals simp only [List.mem_cons, List.not_mem_nil, or_false, forall_eq_or_imp, forall_eq] at hlt
  all_goals simp only [List.foldl_cons, List.foldl_nil]
  all_goals omega

theorem octet_le {cs : List Char} {n : Nat} (h : octet cs = some n) : n ≤ 255 := by
  unfold octet at h
  split_ifs at h with hcs
  obtain rfl := Option.some.inj h
  exact hcs.2.2.2

theorem quad_cases {cs : List Char} {q : Nat × Nat} (h : quad cs = some q) : ∃ as bs cs' ds a b c d,
    cs.splitOn '.' = [as, bs, cs', ds] ∧ octet as = some a ∧ octet bs = some b ∧ octet cs' = some c ∧
      octet ds = some d ∧ q = (256 * a + b, 256 * c + d) := by
  unfold quad at h
  split at h
  · next a b c d hsplit =>
    obtain rfl := Option.some.inj h
    rcases hpieces : cs.splitOn '.' with _ | ⟨as, _ | ⟨bs, _ | ⟨cs', _ | ⟨ds, _ | ⟨e, es⟩⟩⟩⟩⟩
    all_goals simp only [hpieces, List.map_cons, List.map_nil, List.cons.injEq, reduceCtorEq, and_false, and_true] at hsplit
    obtain ⟨ha, hb, hc, hd⟩ := hsplit
    exact ⟨as, bs, cs', ds, a, b, c, d, rfl, ha, hb, hc, hd, rfl⟩
  · cases h

theorem quad_lt {cs : List Char} {q : Nat × Nat} (h : quad cs = some q) : q.1 < 65536 ∧ q.2 < 65536 := by
  obtain ⟨as, bs, cs', ds, a, b, c, d, -, ha, hb, hc, hd, rfl⟩ := quad_cases h
  have := octet_le ha
  have := octet_le hb
  have := octet_le hc
  have := octet_le hd
  constructor
  · show 256 * a + b < 65536
    omega
  · show 256 * c + d < 65536
    omega

theorem groups_lt {cs : List Char} {hs : List Nat} (h : groups cs = some hs) : ∀ x ∈ hs, x < 65536 := by
  unfold groups at h
  split_ifs at h
  · obtain rfl := Option.some.inj h
    simp
  · exact forall_mem_of_mapM h fun _ _ => hextet_lt

theorem lastGroups_lt {cs : List Char} {hs : List Nat} (h : lastGroups cs = some hs) : ∀ x ∈ hs, x < 65536 := by
  unfold lastGroups at h
  split_ifs at h
  · obtain rfl := Option.some.inj h
    simp
  · split at h
    · next q hq =>
      obtain ⟨front, hfront, rfl⟩ := Option.map_eq_some_iff.1 h
      intro x hx
      rcases List.mem_append.1 hx with hx | hx
      · exact forall_mem_of_mapM hfront (fun _ _ => hextet_lt) x hx
      · obtain ⟨h₁, h₂⟩ := quad_lt hq
        rcases List.mem_pair.1 hx with rfl | rfl
        · exact h₁
        · exact h₂
    · exact forall_mem_of_mapM h fun _ _ => hextet_lt

/-- A text with `::`, or eight groups. -/
theorem parseHextets_cases {cs : List Char} {hs : List Nat} (h : parseHextets cs = some hs) :
    (∃ l r ls rs, elision cs = some (l, r) ∧ groups l = some ls ∧ lastGroups r = some rs ∧
      ls.length + rs.length < 8 ∧ hs = ls ++ List.replicate (8 - ls.length - rs.length) 0 ++ rs) ∨
    elision cs = none ∧ lastGroups cs = some hs ∧ hs.length = 8 := by
  unfold parseHextets at h
  split at h
  · next l r helision =>
    split at h
    · next ls rs hl hr =>
      split_ifs at h with hlt
      exact .inl ⟨l, r, ls, rs, helision, hl, hr, hlt, (Option.some.inj h).symm⟩
    · cases h
  · next helision =>
    obtain ⟨hlast, hlen⟩ := Option.filter_eq_some_iff.1 h
    exact .inr ⟨helision, hlast, by simpa using hlen⟩

theorem parseV6_spells {cs : List Char} {hs : List Nat} (h : parseV6 cs = some hs) :
    hs.length = 8 ∧ ∀ x ∈ hs, x < 65536 := by
  obtain ⟨text, -, h⟩ := Option.bind_eq_some_iff.1 h
  obtain ⟨l, r, ls, rs, -, hl, hr, hlt, rfl⟩ | ⟨-, hlast, hlen⟩ := parseHextets_cases h
  · refine ⟨?_, fun x hx => ?_⟩
    · simp only [List.length_append, List.length_replicate]
      omega
    · rcases List.mem_append.1 hx with hx | hx
      · rcases List.mem_append.1 hx with hx | hx
        · exact groups_lt hl x hx
        · obtain rfl := (List.mem_replicate.1 hx).2
          omega
      · exact lastGroups_lt hr x hx
  · exact ⟨hlen, lastGroups_lt hlast⟩

/-! ### The first group -/

theorem elision_eq {cs l r : List Char} (h : elision cs = some (l, r)) : cs = l ++ ':' :: ':' :: r := by
  induction cs using elision.induct generalizing l with
  | case1 => cases h
  | case2 => cases h
  | case3 c d cs hcd =>
    obtain ⟨rfl, rfl⟩ := hcd
    simp only [elision, and_self, if_true, Option.some.injEq, Prod.mk.injEq] at h
    obtain ⟨rfl, rfl⟩ := h
    rfl
  | case4 c d cs hcd ih =>
    rw [elision, if_neg hcd] at h
    obtain ⟨⟨l', r'⟩, hp, heq⟩ := Option.map_eq_some_iff.1 h
    obtain ⟨rfl, rfl⟩ := Prod.mk.inj heq
    rw [ih hp]
    rfl

theorem splitOn_cases {cs p : List Char} {ps : List (List Char)} (h : cs.splitOn ':' = p :: ps) :
    (ps = [] ∧ cs = p) ∨ ∃ q qs rest, ps = q :: qs ∧ cs = p ++ ':' :: rest := by
  have hcs : [':'].intercalate (cs.splitOn ':') = cs := List.intercalate_splitOn ':'
  rw [h] at hcs
  cases ps with
  | nil => exact .inl ⟨rfl, by simpa using hcs.symm⟩
  | cons q qs => exact .inr ⟨q, qs, [':'].intercalate (q :: qs), rfl, by rw [← hcs]; simp [List.intercalate]⟩

/-- A text starts with `::`, or with its first group and a colon. -/
theorem parseHextets_first {cs : List Char} {hs : List Nat} (h : parseHextets cs = some hs) :
    (hs.head? = some 0 ∧ ∃ rest, cs = ':' :: ':' :: rest) ∨
      ∃ g rest x, hextet g = some x ∧ hs.head? = some x ∧ cs = g ++ ':' :: rest := by
  obtain ⟨l, r, ls, rs, helision, hl, hr, hlt, rfl⟩ | ⟨-, hlast, hlen⟩ := parseHextets_cases h
  · have hcs := elision_eq helision
    unfold groups at hl
    split_ifs at hl with hnil
    · obtain rfl := Option.some.inj hl
      left
      refine ⟨?_, r, by rw [hcs, hnil]; rfl⟩
      simp only [List.length_nil] at hlt ⊢
      obtain ⟨n, hn⟩ : ∃ n, 8 - 0 - rs.length = n + 1 := ⟨8 - 0 - rs.length - 1, by omega⟩
      rw [hn, List.replicate_succ]
      rfl
    · right
      cases hsplit : l.splitOn ':' with
      | nil => exact absurd hsplit (List.splitOn_ne_nil _ _)
      | cons p ps =>
        rw [hsplit] at hl
        obtain ⟨x, xs, hx, rfl⟩ : ∃ x xs, hextet p = some x ∧ ls = x :: xs := by
          cases forall_of_mapM hl with
          | cons hab _ => exact ⟨_, _, hab, rfl⟩
        rcases splitOn_cases hsplit with ⟨-, rfl⟩ | ⟨q, qs, rest, -, rfl⟩
        · exact ⟨l, ':' :: r, x, hx, rfl, hcs⟩
        · exact ⟨p, rest ++ ':' :: ':' :: r, x, hx, rfl, by rw [hcs]; simp⟩
  · right
    unfold lastGroups at hlast
    split_ifs at hlast with hnil
    · obtain rfl := Option.some.inj hlast
      simp at hlen
    · cases hsplit : cs.splitOn ':' with
      | nil => exact absurd hsplit (List.splitOn_ne_nil _ _)
      | cons p ps =>
        rw [hsplit] at hlast
        rcases splitOn_cases hsplit with ⟨rfl, rfl⟩ | ⟨q, qs, rest, rfl, hcs⟩
        · exfalso
          split at hlast
          · obtain ⟨front, hfront, rfl⟩ := Option.map_eq_some_iff.1 hlast
            obtain rfl : [] = front := by simpa using hfront
            simp at hlen
          · have := (forall_of_mapM hlast).length_eq
            simp only [List.length_cons, List.length_nil] at this
            omega
        · split at hlast
          · obtain ⟨front, hfront, rfl⟩ := Option.map_eq_some_iff.1 hlast
            rw [List.dropLast_cons_of_ne_nil (by simp)] at hfront
            cases forall_of_mapM hfront with
            | cons hab _ => exact ⟨p, rest, _, hab, rfl, hcs⟩
          · cases forall_of_mapM hlast with
            | cons hab _ => exact ⟨p, rest, _, hab, rfl, hcs⟩

theorem withoutZone_eq {cs text : List Char} (h : withoutZone cs = some text) : ∃ zone, cs = text ++ zone := by
  unfold withoutZone at h
  split at h
  · exact ⟨[], by rw [Option.some.inj h, List.append_nil]⟩
  · split_ifs at h
    obtain rfl := Option.some.inj h
    exact ⟨_, (List.takeWhile_append_dropWhile ..).symm⟩

theorem parseV6_first {cs : List Char} {hs : List Nat} (h : parseV6 cs = some hs) :
    (hs.head? = some 0 ∧ ∃ rest, cs = ':' :: ':' :: rest) ∨
      ∃ g rest x, hextet g = some x ∧ hs.head? = some x ∧ cs = g ++ ':' :: rest := by
  obtain ⟨text, htext, htexts⟩ := Option.bind_eq_some_iff.1 h
  obtain ⟨zone, rfl⟩ := withoutZone_eq htext
  obtain ⟨hhead, rest, rfl⟩ | ⟨g, rest, x, hx, hhead, rfl⟩ := parseHextets_first htexts
  · exact .inl ⟨hhead, rest ++ zone, rfl⟩
  · exact .inr ⟨g, rest ++ zone, x, hx, hhead, by simp⟩

theorem quad_mem {cs : List Char} {q : Nat × Nat} (h : quad cs = some q) : ∀ c ∈ cs, c.isDigit = true ∨ c = '.' := by
  have hdigits : ∀ ds n, octet ds = some n → ∀ c ∈ ds, c.isDigit = true := by
    intro ds n hn
    unfold octet at hn
    split_ifs at hn with hds
    exact List.all_eq_true.1 hds.2.1
  obtain ⟨as, bs, cs', ds, a, b, c, d, hsplit, ha, hb, hc, hd, -⟩ := quad_cases h
  have hcs : ['.'].intercalate (cs.splitOn '.') = cs := List.intercalate_splitOn '.'
  rw [hsplit] at hcs
  intro x hx
  rw [← hcs] at hx
  simp only [List.intercalate_cons_cons, List.intercalate_singleton, List.mem_append, List.mem_singleton] at hx
  rcases hx with (hx | hx) | (hx | hx) | (hx | hx) | hx
  · exact .inl (hdigits _ _ ha x hx)
  · exact .inr hx
  · exact .inl (hdigits _ _ hb x hx)
  · exact .inr hx
  · exact .inl (hdigits _ _ hc x hx)
  · exact .inr hx
  · exact .inl (hdigits _ _ hd x hx)

/-- A text is an address of one version. -/
theorem parseV4_of_parseV6 {cs : List Char} {hs : List Nat} (h : parseV6 cs = some hs) : parseV4 cs = none := by
  have hcolon : ':' ∈ cs := by
    obtain ⟨-, rest, rfl⟩ | ⟨g, rest, x, -, -, rfl⟩ := parseV6_first h
    · exact List.mem_cons_self
    · exact List.mem_append_right _ List.mem_cons_self
  cases hquad : quad cs with
  | none => rw [parseV4, hquad, Option.map_none]
  | some q =>
    rcases quad_mem hquad ':' hcolon with hdigit | hdot
    · exact absurd hdigit (by decide)
    · exact absurd hdot (by decide)

/-! ### Upper and lower case -/

theorem toNat_toLower (c : Char) :
    c.toLower.toNat = if 65 ≤ c.toNat ∧ c.toNat ≤ 90 then c.toNat + 32 else c.toNat := by
  unfold Char.toLower
  by_cases h : c.val ≥ 'A'.val ∧ c.val ≤ 'Z'.val
  · have h' : 65 ≤ c.toNat ∧ c.toNat ≤ 90 := by simpa [UInt32.le_iff_toNat_le] using h
    rw [dif_pos h, if_pos h']
    show (c.val + ('a'.val - 'A'.val)).toNat = c.toNat + 32
    rw [UInt32.toNat_add]
    have : c.val.toNat = c.toNat := rfl
    have : ('a'.val - 'A'.val).toNat = 32 := by decide
    omega
  · have h' : ¬ (65 ≤ c.toNat ∧ c.toNat ≤ 90) := by simpa [UInt32.le_iff_toNat_le] using h
    rw [dif_neg h, if_neg h']

/-- A character that is no letter comes from itself only. -/
theorem toLower_eq_iff {c d : Char} (hd : d.toNat < 65) : c.toLower = d ↔ c = d := by
  rw [← Char.toNat_inj, ← Char.toNat_inj, toNat_toLower]
  split_ifs <;> omega

theorem toLower_toLower (c : Char) : c.toLower.toLower = c.toLower := by
  rw [← Char.toNat_inj, toNat_toLower c.toLower, toNat_toLower c]
  split_ifs <;> omega

theorem isDigit_iff (c : Char) : c.isDigit = true ↔ 48 ≤ c.toNat ∧ c.toNat ≤ 57 := by
  simp [Char.isDigit, UInt32.le_iff_toNat_le]

theorem isDigit_toLower (c : Char) : c.toLower.isDigit = c.isDigit := by
  rw [Bool.eq_iff_iff, isDigit_iff, isDigit_iff, toNat_toLower]
  split_ifs <;> omega

theorem isAlphanum_iff (c : Char) : c.isAlphanum = true ↔
    65 ≤ c.toNat ∧ c.toNat ≤ 90 ∨ 97 ≤ c.toNat ∧ c.toNat ≤ 122 ∨ 48 ≤ c.toNat ∧ c.toNat ≤ 57 := by
  simp [Char.isAlphanum, Char.isAlpha, Char.isUpper, Char.isLower, Char.isDigit, UInt32.le_iff_toNat_le, or_assoc]

theorem isAlphanum_toLower (c : Char) : c.toLower.isAlphanum = c.isAlphanum := by
  rw [Bool.eq_iff_iff, isAlphanum_iff, isAlphanum_iff, toNat_toLower]
  split_ifs <;> omega

theorem isZoneChar_toLower (c : Char) : isZoneChar c.toLower = isZoneChar c := by
  have h₁ : c.toLower = '-' ↔ c = '-' := toLower_eq_iff (by decide)
  have h₂ : c.toLower = '.' ↔ c = '.' := toLower_eq_iff (by decide)
  have h₃ : c.toLower = ':' ↔ c = ':' := toLower_eq_iff (by decide)
  simp only [isZoneChar, isAlphanum_toLower, h₁, h₂, h₃]

theorem hexDigit_toLower (c : Char) : hexDigit c.toLower = hexDigit c := by rw [hexDigit, toLower_toLower, hexDigit]

theorem hextet_toLower (cs : List Char) : hextet (cs.map Char.toLower) = hextet cs := by
  have hcomp : hexDigit ∘ Char.toLower = hexDigit := funext hexDigit_toLower
  simp only [hextet, List.map_eq_nil_iff, List.length_map, List.mapM_map, hcomp]

theorem map_toLower_digits {cs : List Char} (h : cs.all Char.isDigit = true) : cs.map Char.toLower = cs := by
  conv_rhs => rw [← List.map_id cs]
  refine List.map_congr_left fun c hc => ?_
  have hdigit := (isDigit_iff c).1 (List.all_eq_true.1 h c hc)
  rw [id_eq, ← Char.toNat_inj, toNat_toLower, if_neg (by omega)]

theorem octet_toLower (cs : List Char) : octet (cs.map Char.toLower) = octet cs := by
  by_cases h : cs.all Char.isDigit = true
  · rw [map_toLower_digits h]
  · have hall : (cs.map Char.toLower).all Char.isDigit = cs.all Char.isDigit := by
      rw [List.all_map]
      exact congrArg cs.all (funext isDigit_toLower)
    rw [octet, octet, hall, if_neg fun hc => h hc.2.1, if_neg fun hc => h hc.2.1]

theorem splitOn_map {f : Char → Char} {sep : Char} (hf : ∀ c, f c = sep ↔ c = sep) (cs : List Char) :
    (cs.map f).splitOn sep = (cs.splitOn sep).map (List.map f) := by
  induction cs with
  | nil => rfl
  | cons c cs ih =>
    rw [List.map_cons, List.splitOn_cons_eq_if_modifyHead, List.splitOn_cons_eq_if_modifyHead, ih]
    simp only [beq_iff_eq, hf]
    split_ifs
    · rfl
    · cases cs.splitOn sep with
      | nil => rfl
      | cons p ps => rfl

theorem quad_toLower (cs : List Char) : quad (cs.map Char.toLower) = quad cs := by
  have hcomp : octet ∘ List.map Char.toLower = octet := funext octet_toLower
  rw [quad, quad, splitOn_map (fun _ => toLower_eq_iff (by decide)), List.map_map, hcomp]

theorem groups_toLower (cs : List Char) : groups (cs.map Char.toLower) = groups cs := by
  have hcomp : hextet ∘ List.map Char.toLower = hextet := funext hextet_toLower
  rw [groups, groups, splitOn_map (fun _ => toLower_eq_iff (by decide)), List.mapM_map, hcomp]
  simp only [List.map_eq_nil_iff]

theorem lastGroups_toLower (cs : List Char) : lastGroups (cs.map Char.toLower) = lastGroups cs := by
  have hcomp : hextet ∘ List.map Char.toLower = hextet := funext hextet_toLower
  have hlast : ((cs.splitOn ':').map (List.map Char.toLower)).getLastD [] =
      ((cs.splitOn ':').getLastD []).map Char.toLower := by
    rw [List.getLastD_eq_getLast?, List.getLastD_eq_getLast?, List.getLast?_map]
    cases (cs.splitOn ':').getLast? with
    | none => rfl
    | some p => rfl
  rw [lastGroups, lastGroups, splitOn_map (fun _ => toLower_eq_iff (by decide)), hlast, quad_toLower, ← List.map_dropLast,
    List.mapM_map, List.mapM_map, hcomp]
  simp only [List.map_eq_nil_iff]

theorem elision_toLower (cs : List Char) : elision (cs.map Char.toLower) =
    (elision cs).map fun p => (p.1.map Char.toLower, p.2.map Char.toLower) := by
  induction cs using elision.induct with
  | case1 => rfl
  | case2 => rfl
  | case3 c d cs hcd =>
    obtain ⟨rfl, rfl⟩ := hcd
    rfl
  | case4 c d cs hcd ih =>
    have h : ¬ (c.toLower = ':' ∧ d.toLower = ':') := by
      rw [toLower_eq_iff (by decide), toLower_eq_iff (by decide)]
      exact hcd
    rw [List.map_cons, List.map_cons, elision, if_neg h, elision, if_neg hcd, ← List.map_cons, ih, Option.map_map,
      Option.map_map]
    rfl

theorem parseHextets_toLower (cs : List Char) : parseHextets (cs.map Char.toLower) = parseHextets cs := by
  rw [parseHextets, parseHextets, elision_toLower]
  cases elision cs with
  | none =>
    show (lastGroups (cs.map Char.toLower)).filter _ = _
    rw [lastGroups_toLower]
  | some p =>
    simp only [Option.map_some, groups_toLower, lastGroups_toLower]

theorem withoutZone_toLower (cs : List Char) :
    withoutZone (cs.map Char.toLower) = (withoutZone cs).map (List.map Char.toLower) := by
  have hcomp : (fun c => decide (c ≠ '%')) ∘ Char.toLower = fun c => decide (c ≠ '%') := by
    funext c
    have h : c.toLower = '%' ↔ c = '%' := toLower_eq_iff (by decide)
    simp only [Function.comp, h, ne_eq]
  rw [withoutZone, withoutZone, List.dropWhile_map, List.takeWhile_map, hcomp]
  cases cs.dropWhile fun c => decide (c ≠ '%') with
  | nil => rfl
  | cons c zone =>
    have hzone : (zone.map Char.toLower).all isZoneChar = zone.all isZoneChar := by
      rw [List.all_map]
      exact congrArg zone.all (funext isZoneChar_toLower)
    simp only [List.map_cons, hzone, ne_eq, List.map_eq_nil_iff]
    split_ifs
    · rfl
    · rfl

/-- Case does not matter. -/
theorem parseV6_toLower (cs : List Char) : parseV6 (cs.map Char.toLower) = parseV6 cs := by
  rw [parseV6, parseV6, withoutZone_toLower]
  cases withoutZone cs with
  | none => rfl
  | some text => exact parseHextets_toLower text

/-! ### Writing -/

/-- Eight groups, all written out. -/
def write (gs : List (List Char)) : List Char := [':'].intercalate gs

theorem hexDigit_digitChar {d : Nat} (h : d < 16) : hexDigit (Nat.digitChar d) = some d := by
  interval_cases d <;> rfl

/-- A hextet is written in characters that mean nothing else. -/
theorem hextet_mem {g : List Char} {x : Nat} (h : hextet g = some x) {c : Char} (hc : c.toNat < 48 ∨ c.toNat = 58) :
    c ∉ g := by
  intro hmem
  obtain ⟨ds, -, hlt, hmap, -⟩ := hextet_cases h
  have hlower : c.toLower ∈ g.map Char.toLower := List.mem_map_of_mem hmem
  rw [hmap] at hlower
  obtain ⟨d, hd, heq⟩ := List.mem_map.1 hlower
  have hnat := congrArg Char.toNat heq
  rw [toNat_toLower, if_neg (by omega)] at hnat
  have hd := hlt d hd
  have hrange : 48 ≤ (Nat.digitChar d).toNat ∧ (Nat.digitChar d).toNat ≠ 58 := by
    interval_cases d <;> decide
  omega

theorem hextet_ne_nil {g : List Char} {x : Nat} (h : hextet g = some x) : g ≠ [] := by
  rintro rfl
  simp [hextet] at h

theorem elision_cons {c : Char} {cs : List Char} (hc : c ≠ ':') (h : elision cs = none) : elision (c :: cs) = none := by
  cases cs with
  | nil => rfl
  | cons d cs => rw [elision, if_neg fun hcd => hc hcd.1, h, Option.map_none]

theorem elision_append {g cs : List Char} (hg : ':' ∉ g) (h : elision cs = none) : elision (g ++ cs) = none := by
  induction g with
  | nil => exact h
  | cons c g ih =>
    have hg := not_or.1 (fun hmem => hg (List.mem_cons.2 hmem))
    exact elision_cons (Ne.symm hg.1) (ih hg.2)

theorem elision_colon {g cs : List Char} (hg : ':' ∉ g) (hne : g ≠ []) (h : elision (g ++ cs) = none) :
    elision (':' :: (g ++ cs)) = none := by
  cases g with
  | nil => exact absurd rfl hne
  | cons d g =>
    have hd : d ≠ ':' := fun hd => hg (List.mem_cons.2 (.inl hd.symm))
    rw [List.cons_append, elision, if_neg fun hcd => hd hcd.2, ← List.cons_append, h, Option.map_none]

theorem elision_write {gs : List (List Char)} (hg : ∀ g ∈ gs, ':' ∉ g ∧ g ≠ []) : elision (write gs) = none := by
  induction gs with
  | nil => rfl
  | cons g gs ih =>
    obtain ⟨hg', hrest⟩ := List.forall_mem_cons.1 hg
    have ih := ih hrest
    cases gs with
    | nil =>
      have h : elision (g ++ []) = none := elision_append hg'.1 rfl
      simpa [write, List.intercalate] using h
    | cons g₂ gs =>
      have hwrite : write (g :: g₂ :: gs) = g ++ ':' :: write (g₂ :: gs) := by simp [write, List.intercalate]
      obtain ⟨rest, hrest'⟩ : ∃ rest, write (g₂ :: gs) = g₂ ++ rest := by
        cases gs with
        | nil => exact ⟨[], by simp [write, List.intercalate]⟩
        | cons g₃ gs => exact ⟨':' :: write (g₃ :: gs), by simp [write, List.intercalate]⟩
      obtain ⟨hcolon, hne⟩ := hrest g₂ List.mem_cons_self
      rw [hwrite]
      refine elision_append hg'.1 ?_
      rw [hrest'] at ih ⊢
      exact elision_colon hcolon hne ih

theorem quad_hextet {g : List Char} {x : Nat} (h : hextet g = some x) : quad g = none := by
  cases hquad : quad g with
  | none => rfl
  | some q =>
    obtain ⟨as, bs, cs, ds, a, b, c, d, hsplit, -⟩ := quad_cases hquad
    rw [List.splitOn_eq_singleton (hextet_mem h (by decide))] at hsplit
    simp at hsplit

theorem mem_write {gs : List (List Char)} {c : Char} (h : c ∈ write gs) : c = ':' ∨ ∃ g ∈ gs, c ∈ g := by
  induction gs with
  | nil => cases h
  | cons g gs ih =>
    cases gs with
    | nil =>
      rw [write, List.intercalate_singleton] at h
      exact .inr ⟨g, List.mem_cons_self, h⟩
    | cons g₂ gs =>
      rw [write, List.intercalate_cons_cons, List.mem_append, List.mem_append, List.mem_singleton] at h
      rcases h with (hg | hcolon) | hrest
      · exact .inr ⟨g, List.mem_cons_self, hg⟩
      · exact .inl hcolon
      · rcases ih hrest with hcolon | ⟨g', hg', hin⟩
        · exact .inl hcolon
        · exact .inr ⟨g', List.mem_cons_of_mem _ hg', hin⟩

/-- Eight hextets joined by colons are the address. -/
theorem parseV6_write {gs : List (List Char)} {hs : List Nat} (h : gs.mapM hextet = some hs) (hlen : gs.length = 8) :
    parseV6 (write gs) = some hs := by
  have hall := forall_of_mapM h
  have hmem : ∀ g ∈ gs, ∃ x, hextet g = some x := by
    clear h hlen
    induction hall with
    | nil => exact fun _ hg => absurd hg List.not_mem_nil
    | cons hab _ ih =>
      intro g hg
      rcases List.mem_cons.1 hg with rfl | hg
      · exact ⟨_, hab⟩
      · exact ih g hg
  have hclean : ∀ g ∈ gs, ∀ c : Char, c.toNat < 48 ∨ c.toNat = 58 → c ∉ g := by
    intro g hg c hc
    obtain ⟨x, hx⟩ := hmem g hg
    exact hextet_mem hx hc
  have hne : gs ≠ [] := by
    rintro rfl
    simp at hlen
  have hzone : withoutZone (write gs) = some (write gs) := by
    have hpercent : ∀ c ∈ write gs, decide (c ≠ '%') = true := by
      intro c hc
      rw [decide_eq_true_iff]
      rintro rfl
      rcases mem_write hc with hcolon | ⟨g, hg, hin⟩
      · exact absurd hcolon (by decide)
      · exact hclean g hg '%' (by decide) hin
    rw [withoutZone, List.dropWhile_eq_nil_iff.2 hpercent]
  have hsplit : (write gs).splitOn ':' = gs := List.splitOn_intercalate ':' (fun g hg => hclean g hg ':' (by decide)) hne
  have hwrite : write gs ≠ [] := by
    intro hnil
    rw [hnil] at hsplit
    obtain rfl : [[]] = gs := hsplit
    simp at hlen
  have helision : elision (write gs) = none := by
    refine elision_write fun g hg => ⟨hclean g hg ':' (by decide), ?_⟩
    obtain ⟨x, hx⟩ := hmem g hg
    exact hextet_ne_nil hx
  have hlast : quad (gs.getLastD []) = none := by
    rw [List.getLastD_eq_getLast?, List.getLast?_eq_some_getLast hne, Option.getD_some]
    obtain ⟨x, hx⟩ := hmem _ (List.getLast_mem hne)
    exact quad_hextet hx
  rw [parseV6, hzone, Option.bind_some, parseHextets, helision]
  simp only [lastGroups, if_neg hwrite, hsplit, hlast, h]
  exact Option.filter_eq_some_iff.2 ⟨rfl, by simpa using hall.length_eq ▸ hlen⟩

/-- Four digits. -/
def padded (x : Nat) : List Char := [x / 4096, x / 256 % 16, x / 16 % 16, x % 16].map Nat.digitChar

theorem mapM_digitChar {ds : List Nat} (h : ∀ d ∈ ds, d < 16) : (ds.map Nat.digitChar).mapM hexDigit = some ds := by
  induction ds with
  | nil => rfl
  | cons d ds ih =>
    obtain ⟨hd, hds⟩ := List.forall_mem_cons.1 h
    rw [List.map_cons, List.mapM_cons, hexDigit_digitChar hd, ih hds]
    rfl

theorem hextet_digits {ds : List Nat} (h : ∀ d ∈ ds, d < 16) (hpos : 1 ≤ ds.length) (hle : ds.length ≤ 4) :
    hextet (ds.map Nat.digitChar) = some (ds.foldl (fun n d => 16 * n + d) 0) := by
  have hcs : ¬ (ds.map Nat.digitChar = [] ∨ 4 < (ds.map Nat.digitChar).length) := by
    rw [List.length_map, List.map_eq_nil_iff]
    rintro (rfl | hlt)
    · simp at hpos
    · omega
  rw [hextet, if_neg hcs, mapM_digitChar h, Option.map_some]

theorem hextet_padded {x : Nat} (h : x < 65536) : hextet (padded x) = some x := by
  rw [padded, hextet_digits (by simp; omega) (by simp) (by simp)]
  simp only [List.foldl_cons, List.foldl_nil, Option.some.injEq]
  omega

/-- An address in full. -/
def spell (hs : List Nat) : List Char := write (hs.map padded)

theorem mapM_padded {hs : List Nat} (h : ∀ x ∈ hs, x < 65536) : (hs.map padded).mapM hextet = some hs := by
  induction hs with
  | nil => rfl
  | cons x hs ih =>
    obtain ⟨hx, hhs⟩ := List.forall_mem_cons.1 h
    rw [List.map_cons, List.mapM_cons, hextet_padded hx, ih hhs]
    rfl

/-! ### Addresses of version 4 inside those of version 6 -/

/-- `::ffff:` and four decimal numbers. -/
theorem parseV6_mapped {rest : List Char} (hrest : ∀ c ∈ rest, c.isDigit = true ∨ c = '.') (hdot : '.' ∈ rest) :
    parseV6 ("::ffff:".toList ++ rest) = (quad rest).map fun q => [0, 0, 0, 0, 0, 65535, q.1, q.2] := by
  have hout : ∀ c : Char, c.toNat = 37 ∨ c.toNat = 58 → c ∉ rest := by
    intro c hc hmem
    rcases hrest c hmem with hdigit | rfl
    · have := (isDigit_iff c).1 hdigit
      omega
    · exact absurd hc (by decide)
  have hzone : withoutZone ("::ffff:".toList ++ rest) = some ("::ffff:".toList ++ rest) := by
    have hpercent : ∀ c ∈ "::ffff:".toList ++ rest, decide (c ≠ '%') = true := by
      intro c hc
      rw [decide_eq_true_iff]
      rintro rfl
      rcases List.mem_append.1 hc with hc | hc
      · exact absurd hc (by decide)
      · exact hout '%' (.inl (by decide)) hc
    rw [withoutZone, List.dropWhile_eq_nil_iff.2 hpercent]
  have hsplit : ("ffff:".toList ++ rest).splitOn ':' = ["ffff".toList, rest] := by
    have hcolon : ':' ∉ rest := hout ':' (.inr (by decide))
    show ("ffff".toList ++ ':' :: rest).splitOn ':' = _
    rw [List.splitOn_append_cons_self_of_not_mem (by decide), List.splitOn_eq_singleton hcolon]
  have hlast : lastGroups ("ffff:".toList ++ rest) = (quad rest).map fun q => [65535, q.1, q.2] := by
    have hne : "ffff:".toList ++ rest ≠ [] := by simp
    have hgroup : hextet rest = none := by
      cases hx : hextet rest with
      | none => rfl
      | some x => exact absurd hdot (hextet_mem hx (by decide))
    rw [lastGroups, if_neg hne, hsplit]
    show (match quad rest with
      | some q => (["ffff".toList].mapM hextet).map (· ++ [q.1, q.2])
      | none => ["ffff".toList, rest].mapM hextet) = _
    cases quad rest with
    | some q => rfl
    | none => simp [hgroup]
  have helision : elision ("::ffff:".toList ++ rest) = some ([], "ffff:".toList ++ rest) := rfl
  rw [parseV6, hzone, Option.bind_some, parseHextets, helision]
  simp only [groups, if_true, hlast]
  cases quad rest with
  | none => rfl
  | some q => rfl

end Inet
