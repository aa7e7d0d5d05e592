import CronMonitor.LoadTest.DataRules

/-!
# The secrets of a valid data set

The checks are attached to the members of objects: `reached` are the members that `visit` comes to. A leaf that is an
element of an array is not one of them, and of the members `visit` passes over booleans, fractions and, for phone
numbers, all numbers. `valid_clean_iff` says when a valid data set is free of secrets all the same.
-/

namespace CronMonitor.LoadTest.TestData

open Json Utf16

variable {ν : Type}

/-! ### Members and leaves -/

mutual

/-- The members at any depth. -/
def reached : Value ν → List (JsString × Value ν)
  | .arr xs => reachedElements xs
  | .obj ms => reachedMembers ms
  | _ => []

def reachedElements : List (Value ν) → List (JsString × Value ν)
  | [] => []
  | x :: xs => reached x ++ reachedElements xs

def reachedMembers : List (JsString × Value ν) → List (JsString × Value ν)
  | [] => []
  | (key, v) :: ms => (key, v) :: (reached v ++ reachedMembers ms)

end

/-- A value that contains no other, under the nearest key; `inArray` if an array is between them. -/
structure Leaf (ν : Type) where
  key : JsString
  inArray : Bool
  value : Value ν

mutual

def leavesAt (key : JsString) (inArray : Bool) : Value ν → List (Leaf ν)
  | .arr xs => elementLeaves key xs
  | .obj ms => memberLeaves ms
  | v => [⟨key, inArray, v⟩]

def elementLeaves (key : JsString) : List (Value ν) → List (Leaf ν)
  | [] => []
  | x :: xs => leavesAt key true x ++ elementLeaves key xs

def memberLeaves : List (JsString × Value ν) → List (Leaf ν)
  | [] => []
  | (key, v) :: ms => leavesAt key false v ++ memberLeaves ms

end

/-- The leaves of a record; what is no object is no record and has none. -/
def leaves : Value ν → List (Leaf ν)
  | .obj ms => memberLeaves ms
  | _ => []

variable (env : DataEnv ν) (opts : DataValidationOptions) (record : Value ν)

/-- A card number: an integer, or a string once spaces and hyphens are gone. -/
def realPan : Value ν → Bool
  | .str s => suspectedPan opts (compactText s)
  | .num x => env.isInteger x && suspectedPan opts (env.numberText x)
  | _ => false

def plainSecret (key : JsString) : Value ν → Bool
  | .null => false
  | .str s => isSecretKey env key && !isSecretRef s
  | _ => isSecretKey env key

/-- A number that might belong to a real subscriber. -/
def realNumber (key : JsString) : Value ν → Bool
  | .str s => isPhoneKey (norm env key) && readsAsNumber s && !authorized record
  | .num x => isPhoneKey (norm env key) && readsAsNumber (env.numberText x) && !authorized record
  | _ => false

def Leaf.leaks (l : Leaf ν) : Bool :=
  realPan env opts l.value || plainSecret env l.key l.value || realNumber env record l.key l.value

/-- The tests that a leaf escapes. -/
def Leaf.escapes (l : Leaf ν) : Bool :=
  if l.inArray then realPan env opts l.value || realNumber env record l.key l.value
  else
    match l.value with
    | .bool _ => isSecretKey env l.key
    | .num x => (!env.isInteger x && isSecretKey env l.key) || realNumber env record l.key (.num x)
    | _ => false

/-- A member that is refused, or stops the validation. -/
def refusesMember (m : JsString × Value ν) : Bool :=
  match m.2 with
  | .null | .bool _ => false
  | .num x => env.isInteger x && (suspectedPan opts (env.numberText x) || isSecretKey env m.1)
  | .str s =>
    (isSecretKey env m.1 && !isSecretRef s) || norm env m.1 = js "constructor" || breaksConvention env m.1 s ||
      nonTestEmail env m.1 s || unauthorizedNumber env record m.1 s || suspectedPan opts (compactText s)
  | .arr _ | .obj _ => isSecretKey env m.1

/-- A record that is no object, that lacks a tag, or with a member that is refused. -/
def refusesRecord : Value ν → Bool
  | .obj ms =>
    !(tagViolations env (.obj ms) []).isEmpty || (reachedMembers ms).any (refusesMember env opts (.obj ms))
  | _ => true

def refuses (set : DataSetInput ν) : Bool :=
  !namesEnvironment env set.environment || set.records.any (refusesRecord env opts)

/-! ### What `validateDataSet` refuses -/

variable {env : DataEnv ν} {opts : DataValidationOptions} {record : Value ν}

theorem flag_eq_nil {bad : Bool} {path : JsString} {code message : String} :
    flag bad path code message = [] ↔ bad = false := by
  cases bad <;> simp [flag]

theorem both_eq_nil {x y : Checked} : both x y = .ok [] ↔ x = .ok [] ∧ y = .ok [] := by
  cases x with
  | error e => simp [both, bind, Except.bind]
  | ok a =>
    cases y with
    | error e => simp [both, bind, Except.bind]
    | ok b => simp [both, bind, Except.bind, pure, Except.pure]

theorem visitString_eq_nil {key s path : JsString} :
    visitString env opts record key s path = .ok [] ↔ refusesMember env opts record (key, .str s) = false := by
  simp only [refusesMember, Bool.or_eq_false_iff]
  unfold visitString
  by_cases hsecret : (isSecretKey env key && !isSecretRef s) = true
  · rw [if_pos hsecret]
    simp [hsecret]
  · rw [if_neg hsecret]
    rw [Bool.not_eq_true] at hsecret
    by_cases hctor : norm env key = js "constructor"
    · rw [if_pos hctor]
      simp [hctor]
    · rw [if_neg hctor]
      simp only [Except.ok.injEq, List.append_eq_nil_iff, flag_eq_nil, hsecret, hctor, decide_false, true_and]

theorem visitNumber_eq_nil (record : Value ν) {key path : JsString} {x : ν} :
    visitNumber env opts key x path = [] ↔ refusesMember env opts record (key, .num x) = false := by
  unfold visitNumber refusesMember
  by_cases hint : env.isInteger x = true
  · simp [hint, secretFlag, flag_eq_nil]
  · simp [hint]

mutual

theorem visit_eq_nil : ∀ (v : Value ν) (key path : JsString), visit env opts record key path v = .ok [] ↔
    refusesMember env opts record (key, v) = false ∧ ∀ m ∈ reached v, refusesMember env opts record m = false
  | .null, key, path => by simp [visit, refusesMember, reached]
  | .bool _, key, path => by simp [visit, refusesMember, reached]
  | .num x, key, path => by
    rw [visit, Except.ok.injEq, visitNumber_eq_nil record]
    simp [reached]
  | .str s, key, path => by
    rw [visit, visitString_eq_nil]
    simp [reached]
  | .arr xs, key, path => by
    rw [visit, both_eq_nil, Except.ok.injEq, secretFlag, flag_eq_nil, walkElements_eq_nil xs, reached]
    rfl
  | .obj ms, key, path => by
    rw [visit, both_eq_nil, Except.ok.injEq, secretFlag, flag_eq_nil, visitMembers_eq_nil ms, reached]
    rfl

theorem walk_eq_nil : ∀ (v : Value ν) (path : JsString), walk env opts record path v = .ok [] ↔
    ∀ m ∈ reached v, refusesMember env opts record m = false
  | .null, path => by simp [walk, reached]
  | .bool _, path => by simp [walk, reached]
  | .num _, path => by simp [walk, reached]
  | .str _, path => by simp [walk, reached]
  | .arr xs, path => by rw [walk, walkElements_eq_nil xs, reached]
  | .obj ms, path => by rw [walk, visitMembers_eq_nil ms, reached]

theorem walkElements_eq_nil : ∀ (xs : List (Value ν)) (path : JsString) (i : Nat),
    walkElements env opts record path i xs = .ok [] ↔
      ∀ m ∈ reachedElements xs, refusesMember env opts record m = false
  | [], path, i => by simp [walkElements, reachedElements]
  | x :: xs, path, i => by
    rw [walkElements, both_eq_nil, walk_eq_nil x, walkElements_eq_nil xs, reachedElements, List.forall_mem_append]

theorem visitMembers_eq_nil : ∀ (ms : List (JsString × Value ν)) (path : JsString),
    visitMembers env opts record path ms = .ok [] ↔
      ∀ m ∈ reachedMembers ms, refusesMember env opts record m = false
  | [], path => by simp [visitMembers, reachedMembers]
  | (key, v) :: ms, path => by
    rw [visitMembers, both_eq_nil, visit_eq_nil v, visitMembers_eq_nil ms, reachedMembers, List.forall_mem_cons,
      List.forall_mem_append, and_assoc]

end

theorem tagViolations_eq_nil (base base' : JsString) :
    tagViolations env record base = [] ↔ tagViolations env record base' = [] := by
  simp only [tagViolations, List.append_eq_nil_iff, flag_eq_nil]

theorem checkRecord_eq_nil (v : Value ν) (idx : Nat) :
    checkRecord env opts idx v = .ok [] ↔ refusesRecord env opts v = false := by
  cases v with
  | obj ms =>
    rw [checkRecord, both_eq_nil, visitMembers_eq_nil, refusesRecord, Bool.or_eq_false_iff, Except.ok.injEq,
      tagViolations_eq_nil _ [], Bool.not_eq_false', List.isEmpty_iff, List.any_eq_false]
    simp only [Bool.not_eq_true]
  | _ => simp [checkRecord, refusesRecord]

theorem checkRecords_eq_nil (rs : List (Value ν)) (idx : Nat) :
    checkRecords env opts idx rs = .ok [] ↔ ∀ r ∈ rs, refusesRecord env opts r = false := by
  induction rs generalizing idx with
  | nil => simp [checkRecords]
  | cons r rs ih => rw [checkRecords, both_eq_nil, checkRecord_eq_nil, ih, List.forall_mem_cons]

/-- `validateDataSet` reports a set valid when nothing in it is refused. -/
theorem valid_iff (set : DataSetInput ν) :
    (∃ r, validateDataSet env opts set = .ok r ∧ r.valid = true) ↔ refuses env opts set = false := by
  have hrefuses : refuses env opts set = false ↔ namesEnvironment env set.environment = true ∧
      ∀ r ∈ set.records, refusesRecord env opts r = false := by
    rw [refuses, Bool.or_eq_false_iff, Bool.not_eq_false', List.any_eq_false]
    simp only [Bool.not_eq_true]
  have hboth : both (.ok (flag (!namesEnvironment env set.environment) (js "environment") "ENVIRONMENT"
      "Data set must declare environment mock, sandbox or staging.")) (checkRecords env opts 0 set.records) = .ok [] ↔
        namesEnvironment env set.environment = true ∧ ∀ r ∈ set.records, refusesRecord env opts r = false := by
    rw [both_eq_nil, Except.ok.injEq, flag_eq_nil, Bool.not_eq_false', checkRecords_eq_nil]
  rw [hrefuses, ← hboth]
  unfold validateDataSet
  cases hchecked : both (.ok (flag (!namesEnvironment env set.environment) (js "environment") "ENVIRONMENT"
      "Data set must declare environment mock, sandbox or staging.")) (checkRecords env opts 0 set.records) with
  | error e => simp [bind, Except.bind]
  | ok violations =>
    simp only [bind, Except.bind, pure, Except.pure, Except.ok.injEq, exists_eq_left', List.isEmpty_iff]

/-! ### Leaves -/

theorem mem_dropWhile {s : JsString} {c : UInt16} (h : c ∈ s) (hc : isSpace c = false) : c ∈ s.dropWhile isSpace := by
  induction s with
  | nil => cases h
  | cons d s ih =>
    rw [List.dropWhile_cons]
    split_ifs with hd
    · rcases List.mem_cons.1 h with rfl | h
      · exact absurd hd (by simp [hc])
      · exact ih h
    · exact h

/-- A reference is no phone number. -/
theorem ref_reads {s : JsString} (h : isSecretRef s = true) : readsAsNumber s = false := by
  have hbrace : (0x7B : UInt16) ∈ s := by
    obtain ⟨rest, hrest, -⟩ := (Option.any_eq_true ..).1 h
    unfold after at hrest
    split_ifs at hrest with hpre
    obtain ⟨t, rfl⟩ := List.isPrefixOf_iff_prefix.1 hpre
    exact List.mem_append_left _ (by decide)
  have hraw : (0x7B : UInt16) ∈ trim s := by
    unfold trim
    rw [List.mem_reverse]
    refine mem_dropWhile ?_ (by decide)
    rw [List.mem_reverse]
    exact mem_dropWhile hbrace (by decide)
  have hall : ¬ (trim s).all (fun c => c = 0x2B || isDigit c || isSeparator c) = true := fun hall =>
    absurd (List.all_eq_true.1 hall _ hraw) (by decide)
  unfold readsAsNumber normalizeGhanaMsisdn
  dsimp only
  rw [if_pos (.inr hall)]

/-- A member that is not refused leaks only what is not tested. -/
theorem leaks_member {key : JsString} {v : Value ν} (h : refusesMember env opts record (key, v) = false) :
    Leaf.leaks env opts record ⟨key, false, v⟩ = Leaf.escapes env opts record ⟨key, false, v⟩ ∨
      (∃ xs, v = .arr xs) ∨ ∃ ms, v = .obj ms := by
  cases v with
  | null => simp [Leaf.leaks, Leaf.escapes, realPan, plainSecret, realNumber]
  | bool b => simp [Leaf.leaks, Leaf.escapes, realPan, plainSecret, realNumber]
  | num x =>
    left
    simp only [refusesMember, Bool.and_eq_false_iff, Bool.or_eq_false_iff] at h
    simp only [Leaf.leaks, Leaf.escapes, realPan, plainSecret, Bool.false_eq_true, if_false]
    rcases h with h | ⟨hpan, hsecret⟩
    · simp [h]
    · simp [hpan, hsecret]
  | str s =>
    left
    simp only [refusesMember, Bool.or_eq_false_iff] at h
    obtain ⟨⟨⟨⟨⟨hsecret, -⟩, -⟩, -⟩, hnumber⟩, hpan⟩ := h
    simp only [Leaf.leaks, Leaf.escapes, realPan, plainSecret, realNumber, hpan, hsecret, Bool.false_or, Bool.false_eq_true,
      if_false]
    by_cases href : isSecretRef s = true
    · simp [ref_reads href]
    · simpa [unauthorizedNumber, href] using hnumber
  | arr xs => exact .inr (.inl ⟨xs, rfl⟩)
  | obj ms => exact .inr (.inr ⟨ms, rfl⟩)

/-- Under a key that is not secret an element of an array leaks what is not tested. -/
theorem leaks_element {key : JsString} {v : Value ν} (h : isSecretKey env key = false) :
    Leaf.leaks env opts record ⟨key, true, v⟩ = Leaf.escapes env opts record ⟨key, true, v⟩ := by
  have hplain : plainSecret env key v = false := by
    cases v <;> simp [plainSecret, h]
  simp [Leaf.leaks, Leaf.escapes, hplain]

/-- What is known of a value once its key has been visited. -/
def Visited (env : DataEnv ν) (opts : DataValidationOptions) (record : Value ν) (key : JsString) (inArray : Bool)
    (v : Value ν) : Prop :=
  (∀ m ∈ reached v, refusesMember env opts record m = false) ∧
    if inArray then isSecretKey env key = false else refusesMember env opts record (key, v) = false

theorem leaks_scalar {key : JsString} {inArray : Bool} {v : Value ν} (h : Visited env opts record key inArray v)
    (harr : ∀ xs, v ≠ .arr xs) (hobj : ∀ ms, v ≠ .obj ms) :
    Leaf.leaks env opts record ⟨key, inArray, v⟩ = Leaf.escapes env opts record ⟨key, inArray, v⟩ := by
  cases inArray with
  | true => exact leaks_element h.2
  | false =>
    rcases leaks_member h.2 with heq | ⟨xs, hxs⟩ | ⟨ms, hms⟩
    · exact heq
    · exact absurd hxs (harr xs)
    · exact absurd hms (hobj ms)

theorem Visited.key {key : JsString} {inArray : Bool} {xs : List (Value ν)}
    (h : Visited env opts record key inArray (.arr xs)) : isSecretKey env key = false := by
  cases inArray with
  | true => exact h.2
  | false => exact h.2

mutual

theorem leaks_leavesAt : ∀ (v : Value ν) (key : JsString) (inArray : Bool), Visited env opts record key inArray v →
    ∀ l ∈ leavesAt key inArray v, l.leaks env opts record = l.escapes env opts record
  | .null, key, inArray, h => by
    rw [leavesAt, List.forall_mem_singleton]
    · exact leaks_scalar h (by simp) (by simp)
    · simp
    · simp
  | .bool b, key, inArray, h => by
    rw [leavesAt, List.forall_mem_singleton]
    · exact leaks_scalar h (by simp) (by simp)
    · simp
    · simp
  | .num x, key, inArray, h => by
    rw [leavesAt, List.forall_mem_singleton]
    · exact leaks_scalar h (by simp) (by simp)
    · simp
    · simp
  | .str s, key, inArray, h => by
    rw [leavesAt, List.forall_mem_singleton]
    · exact leaks_scalar h (by simp) (by simp)
    · simp
    · simp
  | .arr xs, key, inArray, h => by
    rw [leavesAt]
    exact leaks_elementLeaves xs key h.key h.1
  | .obj ms, key, inArray, h => by
    rw [leavesAt]
    exact leaks_memberLeaves ms h.1

theorem leaks_elementLeaves : ∀ (xs : List (Value ν)) (key : JsString), isSecretKey env key = false →
    (∀ m ∈ reachedElements xs, refusesMember env opts record m = false) →
      ∀ l ∈ elementLeaves key xs, l.leaks env opts record = l.escapes env opts record
  | [], key, hkey, h => by simp [elementLeaves]
  | x :: xs, key, hkey, h => by
    rw [reachedElements, List.forall_mem_append] at h
    rw [elementLeaves, List.forall_mem_append]
    exact ⟨leaks_leavesAt x key true ⟨h.1, hkey⟩, leaks_elementLeaves xs key hkey h.2⟩

theorem leaks_memberLeaves : ∀ ms : List (JsString × Value ν),
    (∀ m ∈ reachedMembers ms, refusesMember env opts record m = false) →
      ∀ l ∈ memberLeaves ms, l.leaks env opts record = l.escapes env opts record
  | [], h => by simp [memberLeaves]
  | (key, v) :: ms, h => by
    rw [reachedMembers, List.forall_mem_cons, List.forall_mem_append] at h
    rw [memberLeaves, List.forall_mem_append]
    exact ⟨leaks_leavesAt v key false ⟨h.2.1, h.1⟩, leaks_memberLeaves ms h.2.2⟩

end

/-- No leaf of the set is a real card number, a secret or a real phone number. -/
def Clean (env : DataEnv ν) (opts : DataValidationOptions) (set : DataSetInput ν) : Prop :=
  ∀ r ∈ set.records, ∀ l ∈ leaves r, l.leaks env opts r = false

theorem leaks_record {r : Value ν} (h : refusesRecord env opts r = false) :
    ∀ l ∈ leaves r, l.leaks env opts r = l.escapes env opts r := by
  cases r with
  | obj ms =>
    rw [refusesRecord, Bool.or_eq_false_iff, List.any_eq_false] at h
    exact leaks_memberLeaves ms fun m hm => Bool.not_eq_true _ ▸ h.2 m hm
  | _ => exact fun _ hl => absurd hl List.not_mem_nil

/-- A set that is found valid is clean exactly if it is refused, or no leaf escapes the tests. -/
theorem valid_clean_iff (env : DataEnv ν) (opts : DataValidationOptions) (set : DataSetInput ν) :
    ((∃ r, validateDataSet env opts set = .ok r ∧ r.valid = true) → Clean env opts set) ↔
      refuses env opts set = true ∨ ∀ r ∈ set.records, ∀ l ∈ leaves r, l.escapes env opts r = false := by
  rw [valid_iff]
  cases hrefuses : refuses env opts set with
  | true => simp
  | false =>
    simp only [true_implies, Bool.false_eq_true, false_or, Clean]
    refine forall₂_congr fun r hr => forall₂_congr fun l hl => ?_
    rw [refuses, Bool.or_eq_false_iff, List.any_eq_false] at hrefuses
    rw [leaks_record (Bool.not_eq_true _ ▸ hrefuses.2 r hr) l hl]

/-- Numbers are natural here, written in decimal; case is that of the Latin letters. -/
def plainData : DataEnv Nat where
  toLowerCase s := s.map fun c => if isUpper c then c + 0x20 else c
  isInteger _ := true
  numberText n := js (toString n)

/-- A record with its tags and one member more. -/
def taggedRecord (key : String) (v : Value Nat) : Value Nat :=
  .obj [(js "test_data", .bool true), (js "test_case_id", .str (js "CARD-001")), (js "environment", .str (js "sandbox")),
    (js key, v)]

/-- A card number in an array, a boolean as PIN, and a phone number that is an integer. -/
def leakyRecords : List (Value Nat) :=
  [taggedRecord "cards" (.arr [.str (js "5500000000000004")]), taggedRecord "pin" (.bool true),
    taggedRecord "phone" (.num 233241234567)]

/-- Each of them leaks, and the set is found valid. -/
theorem secrets_pass :
    (validateDataSet plainData ⟨[]⟩ ⟨some (js "sandbox"), leakyRecords⟩).map DataValidation.valid = .ok true ∧
      ∀ r ∈ leakyRecords, ∃ l ∈ leaves r, l.leaks plainData ⟨[]⟩ r = true := by
  decide +kernel

end CronMonitor.LoadTest.TestData
