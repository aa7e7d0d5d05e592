import CronMonitor.Lib.JsonAlike
import CronMonitor.Lib.Sha256

/-!
# `canon` and `hashOf`

A request is hashed as the JSON text of its body, the members of each object sorted by `localeCompare`. That is a
parameter: it may hold two names for equal that are not, and then their order in the body shows in the hash. For the
rest two bodies have one text exactly if they are one JSON value.
-/

namespace CronMonitor

namespace Simulator
open Json Utf16

variable {ν : Type}

/-- A name that objects list before all others, in numerical order. -/
def isIndex (name : JsString) : Bool :=
  name ≠ [] && name.all isDigit && (name = [0x30] || name.head? ≠ some 0x30) && readDecimal name < 4294967295

/-- `Object.fromEntries`, as its members are listed. -/
def fromEntries (entries : List (JsString × Value ν)) : List (JsString × Value ν) :=
  (entries.filter fun e => isIndex e.1).insertionSort (fun a b => readDecimal a.1 ≤ readDecimal b.1) ++
    entries.filter fun e => !isIndex e.1

section Canon

variable (F : NumberFormat ν) (localeCompare : JsString → JsString → Int)

/-- `.sort(([a], [b]) => a.localeCompare(b))`. -/
def sortEntries (entries : List (JsString × Value ν)) : List (JsString × Value ν) :=
  entries.insertionSort fun a b => localeCompare a.1 b.1 ≤ 0

mutual

/-- The value that the replacer of `canon` makes of a value. -/
def sorted : Value ν → Value ν
  | .arr xs => .arr (sortedElements xs)
  | .obj ms => .obj (fromEntries (sortEntries localeCompare (sortedMembers ms)))
  | .null => .null
  | .bool b => .bool b
  | .num x => .num x
  | .str s => .str s

def sortedElements : List (Value ν) → List (Value ν)
  | [] => []
  | x :: xs => sorted x :: sortedElements xs

def sortedMembers : List (JsString × Value ν) → List (JsString × Value ν)
  | [] => []
  | (name, v) :: ms => (name, sorted v) :: sortedMembers ms

end

def canon (v : Value ν) : JsString := compact F (sorted localeCompare v)

def hashOf (v : Value ν) : String :=
  String.ofList ((Sha256.sha256 (encode (canon F localeCompare v))).map fun u => Char.ofNat u.toNat)

end Canon

/-- A comparator that orders names consistently. -/
structure Collates (localeCompare : JsString → JsString → Int) : Prop where
  total : ∀ a b, localeCompare a b ≤ 0 ∨ localeCompare b a ≤ 0
  trans : ∀ a b c, localeCompare a b ≤ 0 → localeCompare b c ≤ 0 → localeCompare a c ≤ 0

section Told

variable (localeCompare : JsString → JsString → Int)

/-- The comparator tells the names apart. -/
def Apart (names : List JsString) : Prop :=
  names.Pairwise fun a b => ¬ (localeCompare a b ≤ 0 ∧ localeCompare b a ≤ 0)

mutual

/-- It does so with the names of each object. -/
def ToldApart : Value ν → Prop
  | .arr xs => ToldApartElements xs
  | .obj ms => Apart localeCompare (ms.map Prod.fst) ∧ ToldApartMembers ms
  | _ => True

def ToldApartElements : List (Value ν) → Prop
  | [] => True
  | x :: xs => ToldApart x ∧ ToldApartElements xs

def ToldApartMembers : List (JsString × Value ν) → Prop
  | [] => True
  | (_, v) :: ms => ToldApart v ∧ ToldApartMembers ms

end

end Told

variable {F : NumberFormat ν} {localeCompare : JsString → JsString → Int}

/-! ### Names that are told apart -/

theorem Apart.nodup (hc : Collates localeCompare) {names : List JsString} (h : Apart localeCompare names) : names.Nodup := by
  refine h.imp ?_
  rintro a b hne rfl
  have hself : localeCompare a a ≤ 0 := (hc.total a a).elim id id
  exact hne ⟨hself, hself⟩

theorem Apart.eq {names : List JsString} (h : Apart localeCompare names) {a b : JsString} (ha : a ∈ names) (hb : b ∈ names)
    (hab : localeCompare a b ≤ 0) (hba : localeCompare b a ≤ 0) : a = b := by
  by_contra hne
  have : Std.Symm fun x y : JsString => ¬ (localeCompare x y ≤ 0 ∧ localeCompare y x ≤ 0) :=
    ⟨fun _ _ hxy hyx => hxy hyx.symm⟩
  exact h.forall ha hb hne ⟨hab, hba⟩

mutual

theorem ToldApart.distinct (hc : Collates localeCompare) : ∀ v : Value ν, ToldApart localeCompare v → Distinct v
  | .arr xs, h => ToldApartElements.distinct hc xs h
  | .obj ms, h => ⟨Apart.nodup hc h.1, ToldApartMembers.distinct hc ms h.2⟩
  | .null, _ => trivial
  | .bool _, _ => trivial
  | .num _, _ => trivial
  | .str _, _ => trivial

theorem ToldApartElements.distinct (hc : Collates localeCompare) :
    ∀ xs : List (Value ν), ToldApartElements localeCompare xs → DistinctElements xs
  | [], _ => trivial
  | x :: xs, h => ⟨ToldApart.distinct hc x h.1, ToldApartElements.distinct hc xs h.2⟩

theorem ToldApartMembers.distinct (hc : Collates localeCompare) :
    ∀ ms : List (JsString × Value ν), ToldApartMembers localeCompare ms → DistinctMembers ms
  | [], _ => trivial
  | (_, v) :: ms, h => ⟨ToldApart.distinct hc v h.1, ToldApartMembers.distinct hc ms h.2⟩

end

theorem ToldApartMembers.mem : ∀ {ms : List (JsString × Value ν)}, ToldApartMembers localeCompare ms →
    ∀ m ∈ ms, ToldApart localeCompare m.2
  | [], _, m, hm => absurd hm List.not_mem_nil
  | (_, v) :: ms, h, m, hm => by
    rcases List.mem_cons.1 hm with rfl | hm
    · exact h.1
    · exact ToldApartMembers.mem h.2 m hm

theorem distinctMembers_mem : ∀ {ms : List (JsString × Value ν)}, DistinctMembers ms → ∀ m ∈ ms, Distinct m.2
  | [], _, m, hm => absurd hm List.not_mem_nil
  | (_, v) :: ms, h, m, hm => by
    rcases List.mem_cons.1 hm with rfl | hm
    · exact h.1
    · exact distinctMembers_mem h.2 m hm

/-! ### Sorting -/

theorem sortedMembers_eq (ms : List (JsString × Value ν)) :
    sortedMembers localeCompare ms = ms.map fun m => (m.1, sorted localeCompare m.2) := by
  induction ms with
  | nil => rw [sortedMembers, List.map_nil]
  | cons m ms ih =>
    obtain ⟨name, v⟩ := m
    rw [sortedMembers, ih, List.map_cons]

theorem fst_sortedMembers (ms : List (JsString × Value ν)) :
    (sortedMembers localeCompare ms).map Prod.fst = ms.map Prod.fst := by
  rw [sortedMembers_eq, List.map_map]
  rfl

theorem fromEntries_perm (entries : List (JsString × Value ν)) : (fromEntries entries).Perm entries := by
  refine ((List.perm_insertionSort _ _).append_right _).trans ?_
  exact List.filter_append_perm (fun e : JsString × Value ν => isIndex e.1) entries

theorem sortEntries_perm (entries : List (JsString × Value ν)) : (sortEntries localeCompare entries).Perm entries :=
  List.perm_insertionSort _ _

theorem sortEntries_pairwise (hc : Collates localeCompare) (entries : List (JsString × Value ν)) :
    (sortEntries localeCompare entries).Pairwise fun a b => localeCompare a.1 b.1 ≤ 0 := by
  have : Std.Total fun a b : JsString × Value ν => localeCompare a.1 b.1 ≤ 0 := ⟨fun a b => hc.total a.1 b.1⟩
  have : IsTrans (JsString × Value ν) fun a b => localeCompare a.1 b.1 ≤ 0 := ⟨fun a b c => hc.trans a.1 b.1 c.1⟩
  exact List.pairwise_insertionSort _ _

/-- Where names are told apart, the order in which members come does not matter. -/
theorem sortEntries_congr (hc : Collates localeCompare) {entries entries' : List (JsString × Value ν)}
    (happart : Apart localeCompare (entries.map Prod.fst)) (hperm : entries.Perm entries') :
    sortEntries localeCompare entries = sortEntries localeCompare entries' := by
  have hnodup := happart.nodup hc
  refine List.Perm.eq_of_pairwise (fun a b ha hb hab hba => ?_) (sortEntries_pairwise hc _) (sortEntries_pairwise hc _) ?_
  · have ha' := (sortEntries_perm entries).mem_iff.1 ha
    have hb' := hperm.mem_iff.2 ((sortEntries_perm entries').mem_iff.1 hb)
    exact List.inj_on_of_nodup_map hnodup ha' hb'
      (happart.eq (List.mem_map_of_mem ha') (List.mem_map_of_mem hb') hab hba)
  · exact (sortEntries_perm entries).trans (hperm.trans (sortEntries_perm entries').symm)

/-- A member that an object has under its name. -/
theorem mem_of_get? {ms : List (JsString × Value ν)} {name : JsString} {v : Value ν}
    (h : (Value.obj ms).get? name = some v) : (name, v) ∈ ms := by
  obtain ⟨m, hm, rfl⟩ := Option.map_eq_some_iff.1 h
  have hname : m.1 = name := by simpa using List.find?_some hm
  rw [← hname]
  exact List.mem_reverse.1 (List.mem_of_find?_eq_some hm)

/-! ### One text for one value -/

mutual

/-- Values that are sorted alike are alike. -/
theorem alike_of_sorted [DecidableEq ν] : ∀ v w : Value ν, Distinct w → sorted localeCompare v = sorted localeCompare w →
    alike v w = true
  | .null, w, _, h => by cases w <;> simp [sorted] at h; rfl
  | .bool a, w, _, h => by cases w <;> simp [sorted] at h; simp [alike, h]
  | .num x, w, _, h => by cases w <;> simp [sorted] at h; simp [alike, h]
  | .str s, w, _, h => by cases w <;> simp [sorted] at h; simp [alike, h]
  | .arr xs, w, hw, h => by
    cases w <;> simp only [sorted, Value.arr.injEq, reduceCtorEq] at h
    exact alikeElements_of_sorted xs _ hw h
  | .obj ms, w, hw, h => by
    cases w <;> simp only [sorted, Value.obj.injEq, reduceCtorEq] at h
    rename_i ns
    have hlisted (entries : List (JsString × Value ν)) : (fromEntries (sortEntries localeCompare entries)).Perm entries :=
      (fromEntries_perm _).trans (sortEntries_perm _)
    have hperm : (sortedMembers localeCompare ms).Perm (sortedMembers localeCompare ns) := by
      refine (hlisted _).symm.trans ?_
      rw [h]
      exact hlisted _
    rw [alike, Bool.and_eq_true, decide_eq_true_eq]
    refine ⟨by simpa [sortedMembers_eq] using hperm.length_eq, alikeMembers_of_sorted ms ns fun m hm => ?_⟩
    rw [sortedMembers_eq, sortedMembers_eq] at hperm
    obtain ⟨n, hn, heq⟩ := List.mem_map.1 (hperm.mem_iff.1 (List.mem_map_of_mem hm))
    obtain ⟨hname, hvalue⟩ := Prod.mk.inj heq
    exact ⟨n.2, hname ▸ get?_of_mem hw.1 hn, distinctMembers_mem hw.2 n hn, hvalue.symm⟩

theorem alikeElements_of_sorted [DecidableEq ν] : ∀ xs ys : List (Value ν), DistinctElements ys →
    sortedElements localeCompare xs = sortedElements localeCompare ys → alikeElements xs ys = true
  | [], ys, _, h => by cases ys <;> simp [sortedElements] at h; rfl
  | x :: xs, [], _, h => by simp [sortedElements] at h
  | x :: xs, y :: ys, hy, h => by
    simp only [sortedElements, List.cons.injEq] at h
    rw [alikeElements, alike_of_sorted x y hy.1 h.1, alikeElements_of_sorted xs ys hy.2 h.2, Bool.and_true]

theorem alikeMembers_of_sorted [DecidableEq ν] : ∀ ms object : List (JsString × Value ν),
    (∀ m ∈ ms, ∃ w, (Value.obj object).get? m.1 = some w ∧ Distinct w ∧ sorted localeCompare m.2 = sorted localeCompare w) →
    alikeMembers ms object = true
  | [], _, _ => rfl
  | (name, v) :: ms, object, h => by
    obtain ⟨w, hget, hw, hsorted⟩ := h (name, v) List.mem_cons_self
    rw [alikeMembers, hget, Option.any_some, alike_of_sorted v w hw hsorted, Bool.true_and]
    exact alikeMembers_of_sorted ms object fun m hm => h m (List.mem_cons_of_mem _ hm)

end

mutual

/-- Values that are alike are sorted alike, where names are told apart. -/
theorem sorted_of_alike [DecidableEq ν] (hc : Collates localeCompare) : ∀ v w : Value ν, ToldApart localeCompare v →
    ToldApart localeCompare w → alike v w = true → sorted localeCompare v = sorted localeCompare w
  | .null, w, _, _, h => by cases w <;> simp [alike] at h; rfl
  | .bool a, w, _, _, h => by cases w <;> simp [alike] at h; rw [h]
  | .num x, w, _, _, h => by cases w <;> simp [alike] at h; rw [h]
  | .str s, w, _, _, h => by cases w <;> simp [alike] at h; rw [h]
  | .arr xs, w, hv, hw, h => by
    cases w <;> simp only [alike, Bool.false_eq_true] at h
    rw [sorted, sorted, sortedElements_of_alike hc xs _ hv hw h]
  | .obj ms, w, hv, hw, h => by
    cases w <;> simp only [alike, Bool.false_eq_true] at h
    rename_i ns
    rw [Bool.and_eq_true, decide_eq_true_eq] at h
    have happart : Apart localeCompare ((sortedMembers localeCompare ms).map Prod.fst) := by
      rw [fst_sortedMembers]
      exact hv.1
    have hsub : sortedMembers localeCompare ms ⊆ sortedMembers localeCompare ns := by
      intro e he
      rw [sortedMembers_eq] at he ⊢
      obtain ⟨m, hm, rfl⟩ := List.mem_map.1 he
      obtain ⟨w, hmem, hvalue⟩ := sorted_mem_of_alike hc ms ns hv.2 hw.2 h.2 m hm
      exact List.mem_map.2 ⟨(m.1, w), hmem, by rw [hvalue]⟩
    have hperm : (sortedMembers localeCompare ms).Perm (sortedMembers localeCompare ns) := by
      refine ((happart.nodup hc).of_map _ |>.subperm hsub).perm_of_length_le ?_
      simp [sortedMembers_eq, h.1]
    rw [sorted, sorted, sortEntries_congr hc happart hperm]

theorem sortedElements_of_alike [DecidableEq ν] (hc : Collates localeCompare) : ∀ xs ys : List (Value ν),
    ToldApartElements localeCompare xs → ToldApartElements localeCompare ys → alikeElements xs ys = true →
      sortedElements localeCompare xs = sortedElements localeCompare ys
  | [], ys, _, _, h => by cases ys <;> simp [alikeElements] at h; rfl
  | x :: xs, [], _, _, h => by simp [alikeElements] at h
  | x :: xs, y :: ys, hx, hy, h => by
    rw [alikeElements, Bool.and_eq_true] at h
    rw [sortedElements, sortedElements, sorted_of_alike hc x y hx.1 hy.1 h.1,
      sortedElements_of_alike hc xs ys hx.2 hy.2 h.2]

theorem sorted_mem_of_alike [DecidableEq ν] (hc : Collates localeCompare) : ∀ ms object : List (JsString × Value ν),
    ToldApartMembers localeCompare ms → ToldApartMembers localeCompare object → alikeMembers ms object = true →
      ∀ m ∈ ms, ∃ w, (m.1, w) ∈ object ∧ sorted localeCompare m.2 = sorted localeCompare w
  | [], _, _, _, _, m, hm => absurd hm List.not_mem_nil
  | (name, v) :: ms, object, hv, hobject, h, m, hm => by
    rw [alikeMembers, Bool.and_eq_true] at h
    rcases List.mem_cons.1 hm with rfl | hm
    · obtain ⟨w, hget, halike⟩ := (Option.any_eq_true _ _).1 h.1
      have hmem := mem_of_get? hget
      exact ⟨w, hmem, sorted_of_alike hc v w hv.1 (ToldApartMembers.mem hobject _ hmem) halike⟩
    · exact sorted_mem_of_alike hc ms object hv.2 hobject h.2 m hm

end

/-! ### Numbers that have no text -/

/-- The members are listed by their names alone. -/
theorem map_sortEntries (f : Value ν → Value ν) (entries : List (JsString × Value ν)) :
    (fromEntries (sortEntries localeCompare entries)).map (fun e => (e.1, f e.2)) =
      fromEntries (sortEntries localeCompare (entries.map fun e => (e.1, f e.2))) := by
  have hsort : (sortEntries localeCompare entries).map (fun e => (e.1, f e.2)) =
      sortEntries localeCompare (entries.map fun e => (e.1, f e.2)) :=
    List.map_insertionSort _ _ _ _ fun _ _ _ _ => Iff.rfl
  have hindices (l : List (JsString × Value ν)) :
      (l.insertionSort fun a b => readDecimal a.1 ≤ readDecimal b.1).map (fun e => (e.1, f e.2)) =
        (l.map fun e => (e.1, f e.2)).insertionSort fun a b => readDecimal a.1 ≤ readDecimal b.1 :=
    List.map_insertionSort _ _ _ _ fun _ _ _ _ => Iff.rfl
  rw [← hsort, fromEntries, fromEntries, List.map_append, hindices, List.filter_map, List.filter_map]
  rfl

mutual

theorem settle_sorted (F : NumberFormat ν) : ∀ v : Value ν,
    settle F (sorted localeCompare v) = sorted localeCompare (settle F v)
  | .null => by rw [sorted, settle, sorted]
  | .bool b => by rw [sorted, settle, sorted]
  | .num x => by
    rw [sorted, settle]
    split
    · rw [sorted]
    · rw [sorted]
  | .str s => by rw [sorted, settle, sorted]
  | .arr xs => by rw [sorted, settle, settle, sorted, settleElements_sorted F xs]
  | .obj ms => by
    rw [sorted, settle, settle, sorted, settleMembers_eq, map_sortEntries, ← settleMembers_eq, settleMembers_sorted F ms]

theorem settleElements_sorted (F : NumberFormat ν) : ∀ xs : List (Value ν),
    settleElements F (sortedElements localeCompare xs) = sortedElements localeCompare (settleElements F xs)
  | [] => rfl
  | x :: xs => by
    rw [sortedElements, settleElements, settleElements, sortedElements, settle_sorted F x, settleElements_sorted F xs]

theorem settleMembers_sorted (F : NumberFormat ν) : ∀ ms : List (JsString × Value ν),
    settleMembers F (sortedMembers localeCompare ms) = sortedMembers localeCompare (settleMembers F ms)
  | [] => rfl
  | (name, v) :: ms => by
    rw [sortedMembers, settleMembers, settleMembers, sortedMembers, settle_sorted F v, settleMembers_sorted F ms]

end

mutual

theorem compact_settle (F : NumberFormat ν) : ∀ v : Value ν, compact F (settle F v) = compact F v
  | .null => by rw [settle]
  | .bool b => by rw [settle]
  | .num x => by
    rw [settle]
    split
    · rfl
    · next hx => rw [compact, compact, if_neg hx]
  | .str s => by rw [settle]
  | .arr [] => by rw [settle, settleElements]
  | .arr (x :: xs) => by rw [settle, settleElements, compact, compact, compact_settle F x, compactElements_settle F xs]
  | .obj [] => by rw [settle, settleMembers]
  | .obj ((name, v) :: ms) => by
    rw [settle, settleMembers, compact, compact, compact_settle F v, compactMembers_settle F ms]

theorem compactElements_settle (F : NumberFormat ν) : ∀ xs : List (Value ν),
    compactElements F (settleElements F xs) = compactElements F xs
  | [] => rfl
  | x :: xs => by
    rw [settleElements, compactElements, compactElements, compact_settle F x, compactElements_settle F xs]

theorem compactMembers_settle (F : NumberFormat ν) : ∀ ms : List (JsString × Value ν),
    compactMembers F (settleMembers F ms) = compactMembers F ms
  | [] => rfl
  | (name, v) :: ms => by
    rw [settleMembers, compactMembers, compactMembers, compact_settle F v, compactMembers_settle F ms]

end

mutual

theorem ToldApart.settle (F : NumberFormat ν) : ∀ v : Value ν, ToldApart localeCompare v →
    ToldApart localeCompare (settle F v)
  | .arr xs, h => by
    rw [Json.settle]
    exact ToldApartElements.settle F xs h
  | .obj ms, h => by
    rw [Json.settle]
    refine ⟨?_, ToldApartMembers.settle F ms h.2⟩
    rw [settleMembers_eq, List.map_map]
    exact h.1
  | .null, _ => by
    rw [Json.settle]
    trivial
  | .bool _, _ => by
    rw [Json.settle]
    trivial
  | .num _, _ => by
    rw [Json.settle]
    split
    · trivial
    · trivial
  | .str _, _ => by
    rw [Json.settle]
    trivial

theorem ToldApartElements.settle (F : NumberFormat ν) : ∀ xs : List (Value ν), ToldApartElements localeCompare xs →
    ToldApartElements localeCompare (settleElements F xs)
  | [], _ => trivial
  | x :: xs, h => ⟨ToldApart.settle F x h.1, ToldApartElements.settle F xs h.2⟩

theorem ToldApartMembers.settle (F : NumberFormat ν) : ∀ ms : List (JsString × Value ν),
    ToldApartMembers localeCompare ms → ToldApartMembers localeCompare (settleMembers F ms)
  | [], _ => trivial
  | (_, v) :: ms, h => ⟨ToldApart.settle F v h.1, ToldApartMembers.settle F ms h.2⟩

end

/-- The same JSON value, up to the order of members; a number too large to be one is `null`. -/
def SameJson [DecidableEq ν] (F : NumberFormat ν) (v w : Value ν) : Prop := alike (settle F v) (settle F w) = true

/-- Two bodies have one text exactly if they are one JSON value. -/
theorem canon_eq_iff [DecidableEq ν] (hc : Collates localeCompare) {v w : Value ν} (hv : ToldApart localeCompare v)
    (hw : ToldApart localeCompare w) : canon F localeCompare v = canon F localeCompare w ↔ SameJson F v w := by
  have hw' := ToldApart.settle F w hw
  constructor
  · intro htext
    have hsettled := settle_eq_of_compact_eq htext
    rw [settle_sorted, settle_sorted] at hsettled
    exact alike_of_sorted _ _ (ToldApart.distinct hc _ hw') hsettled
  · intro hsame
    have hsorted := sorted_of_alike hc _ _ (ToldApart.settle F v hv) hw' hsame
    rw [canon, canon, ← compact_settle F (sorted localeCompare v), ← compact_settle F (sorted localeCompare w), settle_sorted,
      settle_sorted, hsorted]

end Simulator

end CronMonitor
