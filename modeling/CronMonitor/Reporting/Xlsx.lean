import CronMonitor.Lib.JsonRoundTrip

/-!
# `xlsx.ts`

The names that `rowsToXlsx` gives to its worksheets. A name that is taken is replaced by a numbered one, and that is built
from the sheet's name as it came, with its illegal characters, and grows with the number. Of `toLowerCase` is used that it
leaves a space and digits after a text as they are, and the text before them as it was without them.
-/

namespace CronMonitor.Reporting

open Utf16
open Json (decimalDigits readDecimal)

structure LowerCase where
  toLowerCase : JsString → JsString
  toLowerCase_numbered : ∀ s n, toLowerCase (s ++ 0x20 :: decimalDigits n) = toLowerCase s ++ 0x20 :: decimalDigits n

/-- `[[\]*?/\\:]`. -/
def isIllegal (c : UInt16) : Bool := c ∈ [0x5B, 0x5D, 0x2A, 0x3F, 0x2F, 0x5C, 0x3A]

/-- The name without illegal characters, cut, or `Sheet`. -/
def plainName (name : JsString) : JsString :=
  match (name.map fun c => if isIllegal c then 0x20 else c).take 31 with
  | [] => js "Sheet"
  | s => s

def numberedName (name : JsString) (n : ℕ) : JsString := name.take 28 ++ 0x20 :: decimalDigits n

variable (L : LowerCase)

/-- The loop over the names that are taken; it is left within `fuel` rounds or not at all. -/
def freeName (used : List JsString) (sheet : JsString) : (fuel n : ℕ) → JsString → Option JsString
  | 0, _, _ => none
  | fuel + 1, n, name =>
    if L.toLowerCase name ∈ used then freeName used sheet fuel (n + 1) (numberedName sheet (n + 1)) else some name

/-- The names of the worksheets, in order. -/
def worksheetNames (used : List JsString) : List JsString → Option (List JsString)
  | [] => some []
  | sheet :: sheets =>
    match freeName L used sheet (used.length + 2) 1 (plainName sheet) with
    | none => none
    | some name => (worksheetNames (used ++ [L.toLowerCase name]) sheets).map (name :: ·)

/-- What `addWorksheet` asks of a name. -/
def LegalName (name : JsString) : Prop := name ≠ [] ∧ name.length ≤ 31 ∧ ∀ c ∈ name, isIllegal c = false

/-- And of all names: no two of them are the same without regard to case. -/
def LegalNames (names : List JsString) : Prop :=
  (names.map L.toLowerCase).Nodup ∧ ∀ name ∈ names, LegalName name

variable {L} {used : List JsString} {sheet name : JsString} {n m : ℕ}

/-! ### Numbered names -/

theorem decimalDigits_injective : Function.Injective decimalDigits :=
  Function.LeftInverse.injective Json.readDecimal_decimalDigits

theorem length_decimalDigits_mono (h : n ≤ m) : (decimalDigits n).length ≤ (decimalDigits m).length := by
  unfold decimalDigits
  split_ifs with hn hm hm
  · exact le_rfl
  · rw [List.length_map, List.length_reverse, Nat.length_digits 10 m (by omega) hm]
    exact Nat.succ_le_succ (Nat.zero_le _)
  · omega
  · simp only [List.length_map, List.length_reverse, Nat.length_digits 10 _ (by omega : 1 < 10) hn,
      Nat.length_digits 10 _ (by omega : 1 < 10) hm]
    exact Nat.succ_le_succ (Nat.log_mono_right h)

theorem mem_decimalDigits {c : UInt16} (hc : c ∈ decimalDigits n) : ∃ d < 10, c = UInt16.ofNat (0x30 + d) := by
  unfold decimalDigits at hc
  split_ifs at hc with hn
  · exact ⟨0, by omega, List.mem_singleton.1 hc⟩
  · obtain ⟨d, hd, rfl⟩ := List.mem_map.1 hc
    exact ⟨d, Nat.digits_lt_base (by omega) (List.mem_reverse.1 hd), rfl⟩

theorem isIllegal_decimalDigits {c : UInt16} (hc : c ∈ decimalDigits n) : isIllegal c = false := by
  have hdigit : ∀ d < 10, isIllegal (UInt16.ofNat (0x30 + d)) = false := by decide
  obtain ⟨d, hd, rfl⟩ := mem_decimalDigits hc
  exact hdigit d hd

theorem toLowerCase_numberedName (n : ℕ) :
    L.toLowerCase (numberedName sheet n) = L.toLowerCase (sheet.take 28) ++ 0x20 :: decimalDigits n :=
  L.toLowerCase_numbered _ _

theorem lowered_injective : Function.Injective fun n => L.toLowerCase (numberedName sheet n) := by
  intro n m h
  simp only [toLowerCase_numberedName] at h
  exact decimalDigits_injective (List.cons.inj (List.append_cancel_left h)).2

/-- One of the first numbers is free. -/
theorem exists_free (used : List JsString) (sheet : JsString) :
    ∃ n, 2 ≤ n ∧ n < used.length + 3 ∧ L.toLowerCase (numberedName sheet n) ∉ used := by
  have hcard : used.toFinset.card <
      ((Finset.Ico 2 (used.length + 3)).image fun n => L.toLowerCase (numberedName sheet n)).card := by
    rw [Finset.card_image_of_injective _ lowered_injective, Nat.card_Ico]
    have := used.toFinset_card_le
    omega
  obtain ⟨name, hname, hfree⟩ := Finset.exists_mem_notMem_of_card_lt_card hcard
  obtain ⟨n, hn, rfl⟩ := Finset.mem_image.1 hname
  exact ⟨n, (Finset.mem_Ico.1 hn).1, (Finset.mem_Ico.1 hn).2, fun h => hfree (List.mem_toFinset.2 h)⟩

/-- A numbered name is legal if it is not too long and nothing illegal is in the part of the sheet's name. -/
theorem legalName_numberedName :
    LegalName (numberedName sheet n) ↔
      (∀ c ∈ sheet.take 28, isIllegal c = false) ∧ (numberedName sheet n).length ≤ 31 := by
  constructor
  · rintro ⟨-, hlength, hlegal⟩
    exact ⟨fun c hc => hlegal c (List.mem_append_left _ hc), hlength⟩
  · rintro ⟨hlegal, hlength⟩
    refine ⟨by simp [numberedName], hlength, fun c hc => ?_⟩
    rcases List.mem_append.1 hc with hc | hc
    · exact hlegal c hc
    · rcases List.mem_cons.1 hc with rfl | hc
      · decide
      · exact isIllegal_decimalDigits hc

theorem legalName_plainName (name : JsString) : LegalName (plainName name) := by
  unfold plainName
  split
  · exact ⟨by decide, by decide, forall_of_any_eq_false (by decide)⟩
  · rename_i hs
    refine ⟨hs, List.length_take_le _ _, fun c hc => ?_⟩
    obtain ⟨d, -, rfl⟩ := List.mem_map.1 (List.mem_of_mem_take hc)
    split_ifs with hd
    · decide
    · exact eq_false_of_ne_true hd

/-! ### The loop -/

/-- What the loop comes to from the `n`-th try on: the name at hand, or the first numbered one that is free. -/
inductive Chosen (L : LowerCase) (used : List JsString) (sheet : JsString) (n : ℕ) (name : JsString) : JsString → Prop
  | here (hfree : L.toLowerCase name ∉ used) : Chosen L used sheet n name name
  | numbered (m : ℕ) (htaken : L.toLowerCase name ∈ used) (hlater : n < m)
      (hfree : L.toLowerCase (numberedName sheet m) ∉ used)
      (hfirst : ∀ k, n < k → k < m → L.toLowerCase (numberedName sheet k) ∈ used) :
      Chosen L used sheet n name (numberedName sheet m)

theorem Chosen.free {result : JsString} (h : Chosen L used sheet n name result) : L.toLowerCase result ∉ used := by
  cases h <;> assumption

theorem freeName_chosen : ∀ {fuel n : ℕ} {name result : JsString},
    freeName L used sheet fuel n name = some result → Chosen L used sheet n name result := by
  intro fuel
  induction fuel with
  | zero => exact fun h => nomatch h
  | succ fuel ih =>
    intro n name result h
    rw [freeName] at h
    split_ifs at h with htaken
    · cases ih h with
      | here hfree =>
        exact .numbered (n + 1) htaken (Nat.lt_succ_self n) hfree fun k hk hk' => by omega
      | numbered m htaken' hlater hfree hfirst =>
        refine .numbered m htaken (by omega) hfree fun k hk hkm => ?_
        rcases Nat.lt_or_ge (n + 1) k with hk' | hk'
        · exact hfirst k hk' hkm
        · obtain rfl : k = n + 1 := by omega
          exact htaken'
    · obtain rfl := Option.some.inj h
      exact .here htaken

/-- The loop is left at the latest at a number that is free. -/
theorem freeName_ne_none : ∀ {fuel n : ℕ} {name : JsString}, n < m → m < n + fuel →
    L.toLowerCase (numberedName sheet m) ∉ used → freeName L used sheet fuel n name ≠ none := by
  intro fuel
  induction fuel with
  | zero => exact fun hn hm => by omega
  | succ fuel ih =>
    intro n name hn hm hfree
    rw [freeName]
    split_ifs with htaken
    · rcases Nat.lt_or_ge (n + 1) m with hlater | hnow
      · exact ih hlater (by omega) hfree
      · obtain rfl : m = n + 1 := by omega
        obtain ⟨fuel, rfl⟩ : ∃ k, fuel = k + 1 := ⟨fuel - 1, by omega⟩
        rw [freeName, if_neg hfree]
        exact Option.some_ne_none _
    · exact Option.some_ne_none _

/-- The loop ends for every sheet. -/
theorem exists_chosen (used : List JsString) (sheet : JsString) :
    ∃ name, freeName L used sheet (used.length + 2) 1 (plainName sheet) = some name ∧
      Chosen L used sheet 1 (plainName sheet) name := by
  obtain ⟨m, hm, hm', hfree⟩ := exists_free (L := L) used sheet
  have hends : freeName L used sheet (used.length + 2) 1 (plainName sheet) ≠ none :=
    freeName_ne_none hm (by omega) hfree
  obtain ⟨name, hname⟩ := Option.ne_none_iff_exists'.1 hends
  exact ⟨name, hname, freeName_chosen hname⟩

/-! ### The names -/

/-- A sheet's name at this point: it is free as it is, or its start is legal and a number that is free fits behind it. -/
def Fits (L : LowerCase) (used : List JsString) (sheet : JsString) : Prop :=
  L.toLowerCase (plainName sheet) ∉ used ∨
    (∀ c ∈ sheet.take 28, isIllegal c = false) ∧
      ∃ n, 2 ≤ n ∧ L.toLowerCase (numberedName sheet n) ∉ used ∧ (numberedName sheet n).length ≤ 31

theorem Chosen.legal_iff {result : JsString} (h : Chosen L used sheet 1 (plainName sheet) result) :
    LegalName result ↔ Fits L used sheet := by
  cases h with
  | here hfree => exact ⟨fun _ => .inl hfree, fun _ => legalName_plainName sheet⟩
  | numbered m htaken hlater hfree hfirst =>
    rw [legalName_numberedName]
    constructor
    · rintro ⟨hlegal, hlength⟩
      exact .inr ⟨hlegal, m, hlater, hfree, hlength⟩
    · rintro (hplain | ⟨hlegal, k, hk, hkfree, hklength⟩)
      · exact absurd htaken hplain
      · -- the number that is taken is the first one that is free
        have hmk : m ≤ k := by
          by_contra hlt
          exact hkfree (hfirst k hk (by omega))
        refine ⟨hlegal, le_trans ?_ hklength⟩
        simpa only [numberedName, List.length_append, List.length_cons, Nat.add_le_add_iff_left,
          Nat.add_le_add_iff_right] using length_decimalDigits_mono hmk

theorem worksheetNames_cons {result : JsString} {sheets : List JsString}
    (h : freeName L used sheet (used.length + 2) 1 (plainName sheet) = some result) :
    worksheetNames L used (sheet :: sheets) = (worksheetNames L (used ++ [L.toLowerCase result]) sheets).map (result :: ·) := by
  rw [worksheetNames, h]

/-- The loop gives every sheet a name, no two the same, and every one of them legal if and only if its sheet fits. -/
theorem exists_names (L : LowerCase) : ∀ sheets used : List JsString, ∃ names, worksheetNames L used sheets = some names ∧
    (names.map L.toLowerCase).Nodup ∧ (∀ name ∈ names, L.toLowerCase name ∉ used) ∧
    ((∀ name ∈ names, LegalName name) ↔
      ∀ before sheet after, sheets = before ++ sheet :: after → ∀ given, worksheetNames L used before = some given →
        Fits L (used ++ given.map L.toLowerCase) sheet) := by
  intro sheets
  induction sheets with
  | nil => exact fun used => ⟨[], rfl, List.nodup_nil, by simp, by simp⟩
  | cons sheet sheets ih =>
    intro used
    obtain ⟨result, hresult, hchosen⟩ := exists_chosen (L := L) used sheet
    obtain ⟨names, hnames, hdistinct, hfresh, hlegal⟩ := ih (used ++ [L.toLowerCase result])
    refine ⟨result :: names, by rw [worksheetNames_cons hresult, hnames]; rfl, ?_, ?_, ?_⟩
    · refine List.nodup_cons.2 ⟨fun hmem => ?_, hdistinct⟩
      obtain ⟨name, hname, hsame⟩ := List.mem_map.1 hmem
      exact hfresh name hname (List.mem_append_right _ (List.mem_singleton.2 hsame))
    · refine List.forall_mem_cons.2 ⟨hchosen.free, fun name hname hused => ?_⟩
      exact hfresh name hname (List.mem_append_left _ hused)
    · rw [List.forall_mem_cons, hchosen.legal_iff, hlegal]
      constructor
      · rintro ⟨hfits, hrest⟩ before s after hsheets given hgiven
        cases before with
        | nil =>
          obtain ⟨rfl, rfl⟩ := List.cons.inj hsheets
          obtain rfl : [] = given := Option.some.inj hgiven
          simpa using hfits
        | cons b before =>
          obtain ⟨rfl, rfl⟩ := List.cons.inj hsheets
          rw [worksheetNames_cons hresult] at hgiven
          obtain ⟨given', hgiven', rfl⟩ := Option.map_eq_some_iff.1 hgiven
          simpa using hrest before s after rfl given' hgiven'
      · intro h
        refine ⟨by simpa using h [] sheet sheets rfl [] rfl, fun before s after hsheets given hgiven => ?_⟩
        have hstep := h (sheet :: before) s after (by rw [hsheets]; rfl) (result :: given)
          (by rw [worksheetNames_cons hresult, hgiven]; rfl)
        simpa using hstep

/-- The names are legal for `addWorksheet` exactly if every sheet fits behind the names given before it. -/
theorem legalNames_iff (L : LowerCase) (sheets : List JsString) :
    (∃ names, worksheetNames L [] sheets = some names ∧ LegalNames L names) ↔
      ∀ before sheet after, sheets = before ++ sheet :: after → ∀ given, worksheetNames L [] before = some given →
        Fits L (given.map L.toLowerCase) sheet := by
  obtain ⟨names, hnames, hdistinct, -, hlegal⟩ := exists_names L sheets []
  simp only [List.nil_append] at hlegal
  rw [← hlegal]
  constructor
  · rintro ⟨names', hnames', hall⟩
    obtain rfl : names = names' := Option.some.inj (hnames.symm.trans hnames')
    exact hall.2
  · exact fun hall => ⟨names, hnames, hdistinct, hall⟩

/-! ### Two sheets of one name -/

/-- `toLowerCase` of an ASCII unit. -/
def lowerUnit (c : UInt16) : UInt16 := if 0x41 ≤ c.toNat && c.toNat ≤ 0x5A then c + 0x20 else c

theorem lowerUnit_decimalDigits (n : ℕ) : (decimalDigits n).map lowerUnit = decimalDigits n := by
  have hdigit : ∀ d < 10, lowerUnit (UInt16.ofNat (0x30 + d)) = UInt16.ofNat (0x30 + d) := by decide
  refine (List.map_congr_left fun c hc => ?_).trans (List.map_id _)
  obtain ⟨d, hd, rfl⟩ := mem_decimalDigits hc
  exact hdigit d hd

def asciiLower : LowerCase where
  toLowerCase s := s.map lowerUnit
  toLowerCase_numbered s n := by
    rw [List.map_append, List.map_cons, lowerUnit_decimalDigits]
    rfl

/-- The second sheet `a/b` gets the name `a/b 2`. -/
theorem repeatedName_illegal :
    ¬ ∃ names, worksheetNames asciiLower [] [js "a/b", js "a/b"] = some names ∧ LegalNames asciiLower names := by
  rintro ⟨names, hnames, -, hlegal⟩
  have hgiven : worksheetNames asciiLower [] [js "a/b", js "a/b"] = some [js "a b", js "a/b 2"] := by decide +kernel
  obtain rfl : [js "a b", js "a/b 2"] = names := Option.some.inj (hgiven.symm.trans hnames)
  obtain ⟨-, -, hunits⟩ := hlegal (js "a/b 2") (by decide +kernel)
  exact absurd (hunits 0x2F (by decide +kernel)) (by decide +kernel)

end CronMonitor.Reporting
