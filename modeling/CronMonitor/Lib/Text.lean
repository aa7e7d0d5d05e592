import Mathlib.Tactic

/-!
# Text as JavaScript treats it
-/

namespace Text

/-- The code points of white space and line ends. -/
def isWhite (n : Nat) : Bool :=
  n ∈ [9, 10, 11, 12, 13, 32, 0xA0, 0x1680, 0x2028, 0x2029, 0x202F, 0x205F, 0x3000, 0xFEFF] ||
    (0x2000 ≤ n && n ≤ 0x200A)

/-- The characters that `trim` removes. -/
def isJsSpace (c : Char) : Bool := isWhite c.toNat

def trim (s : String) : String :=
  String.ofList ((s.toList.dropWhile isJsSpace).reverse.dropWhile isJsSpace).reverse

/-- The digits of `n` units of `10 ^ -places`. -/
def fixedDigits (places n : Nat) : String :=
  let whole := toString (n / 10 ^ places)
  let fraction := String.ofList ((Nat.toDigits 10 (n % 10 ^ places)).leftpad places '0')
  if places = 0 then whole else whole ++ "." ++ fraction

/-- `x.toFixed(places)`: halves are rounded up; from `10 ^ 21` on it is the plain text of the number. -/
def toFixed (numberText : ℚ → String) (places : Nat) (x : ℚ) : String :=
  if |x| ≥ 10 ^ 21 then numberText x
  else if x < 0 then "-" ++ fixedDigits places ⌊-x * 10 ^ places + 1 / 2⌋.toNat
  else fixedDigits places ⌊x * 10 ^ places + 1 / 2⌋.toNat

/-- `s.replace(/\.?0+$/, '')`. -/
def stripZeros (s : String) : String :=
  let backwards := s.toList.reverse
  let rest := backwards.dropWhile (· = '0')
  if rest.length = backwards.length then s
  else
    match rest with
    | '.' :: rest => String.ofList rest.reverse
    | rest => String.ofList rest.reverse

/-- What is in front of the first separator. -/
theorem append_cons_inj {α : Type} {c : α} {as bs cs ds : List α} (ha : c ∉ as) (hb : c ∉ bs)
    (h : as ++ c :: cs = bs ++ c :: ds) : as = bs ∧ cs = ds := by
  induction as generalizing bs with
  | nil =>
    cases bs with
    | nil => exact ⟨rfl, List.tail_eq_of_cons_eq h⟩
    | cons b bs => exact absurd (List.head_eq_of_cons_eq h) (List.ne_of_not_mem_cons hb)
  | cons a as ih =>
    cases bs with
    | nil => exact absurd (List.head_eq_of_cons_eq h).symm (List.ne_of_not_mem_cons ha)
    | cons b bs =>
      obtain ⟨rfl, hrest⟩ := List.cons.inj h
      obtain ⟨rfl, hcs⟩ := ih (List.not_mem_of_not_mem_cons ha) (List.not_mem_of_not_mem_cons hb) hrest
      exact ⟨rfl, hcs⟩

end Text
