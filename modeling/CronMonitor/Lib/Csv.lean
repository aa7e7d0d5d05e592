import CronMonitor.Lib.Utf16

/-!
# Comma-separated values

`parse` reads the texts of RFC 4180 with LF, CR or CRLF at the end of a record, of which the last may have none. A writer
puts a field in quotes if it has a unit of some set (`special`). If that set has the comma, the quote and LF, a table is
read back exactly if no field has a CR and is written without quotes (`parse_table_iff`).
-/

namespace Csv

open Utf16

def COMMA : UInt16 := 0x2C

def QUOTE : UInt16 := 0x22

def LF : UInt16 := 0x0A

def CR : UInt16 := 0x0D

section Parser

/-- Where the reader stands: before a record, before a field, in a field without quotes, inside quotes, behind a quote
that may close the field, and behind a CR that ended a record. -/
inductive Mode
  | fresh | start | plain | quoted | closed | cr
deriving DecidableEq, Repr

/-- What a unit leads to; `row` is the record that it ends. -/
structure Next where
  mode : Mode
  field : JsString
  record : List JsString
  row : Option (List JsString)

/-- A comma or the end of a line behind a field, or any other unit. -/
def separate (field : JsString) (record : List JsString) (c : UInt16) (other : Option Next) : Option Next :=
  if c = COMMA then some ⟨.start, [], record ++ [field], none⟩
  else if c = LF then some ⟨.fresh, [], [], some (record ++ [field])⟩
  else if c = CR then some ⟨.cr, [], [], some (record ++ [field])⟩
  else other

def step (mode : Mode) (field : JsString) (record : List JsString) (c : UInt16) : Option Next :=
  match mode with
  | .quoted => some (if c = QUOTE then ⟨.closed, field, record, none⟩ else ⟨.quoted, field ++ [c], record, none⟩)
  | .closed => if c = QUOTE then some ⟨.quoted, field ++ [QUOTE], record, none⟩ else separate field record c none
  | .plain => if c = QUOTE then none else separate field record c (some ⟨.plain, field ++ [c], record, none⟩)
  | .fresh | .start =>
    if c = QUOTE then some ⟨.quoted, field, record, none⟩
    else separate field record c (some ⟨.plain, field ++ [c], record, none⟩)
  | .cr =>
    if c = LF then some ⟨.fresh, [], [], none⟩
    else if c = QUOTE then some ⟨.quoted, [], [], none⟩
    else separate [] [] c (some ⟨.plain, [c], [], none⟩)

/-- The records from here on, with the field and the record that have begun. -/
def read (mode : Mode) (field : JsString) (record : List JsString) : JsString → Option (List (List JsString))
  | [] =>
    match mode with
    | .fresh | .cr => some []
    | .quoted => none
    | .start | .plain | .closed => some [record ++ [field]]
  | c :: s =>
    match step mode field record c with
    | none => none
    | some n => (read n.mode n.field n.record s).map (n.row.toList ++ ·)

def parse (text : JsString) : Option (List (List JsString)) := read .fresh [] [] text

end Parser

section Writer
variable (special : UInt16 → Bool)

/-- The text with its quotes doubled. -/
def doubled : JsString → JsString
  | [] => []
  | c :: s => if c = QUOTE then QUOTE :: QUOTE :: doubled s else c :: doubled s

def escape (s : JsString) : JsString := if s.any special then QUOTE :: (doubled s ++ [QUOTE]) else s

/-- `fields.join(',')` -/
def join (fields : List JsString) : JsString := [COMMA].intercalate fields

def line (fields : List JsString) : JsString := join (fields.map (escape special))

def table (rows : List (List JsString)) : JsString := [LF].intercalate (rows.map (line special))

/-- A field is in quotes if it has a CR. -/
def Clean (field : JsString) : Prop := CR ∈ field → field.any special = true

end Writer

/-! ### A field -/

variable {special : UInt16 → Bool} {field s rest : JsString} {record : List JsString} {c : UInt16}

/-- A unit of a field without quotes. -/
def IsPlain (c : UInt16) : Prop := c ≠ COMMA ∧ c ≠ QUOTE ∧ c ≠ LF ∧ c ≠ CR

/-- What may follow a field that is written. -/
inductive Stops : JsString → Prop
  | eof : Stops []
  | comma (s : JsString) : Stops (COMMA :: s)
  | line (s : JsString) : Stops (LF :: s)

/-- A unit that ends no record. -/
theorem read_cons {mode mode' : Mode} {field' : JsString} {record' : List JsString}
    (h : step mode field record c = some ⟨mode', field', record', none⟩) :
    read mode field record (c :: s) = read mode' field' record' s := by
  rw [read, h]
  exact Option.map_id'

theorem read_comma {mode : Mode} (h : mode ≠ .quoted) (hcr : mode ≠ .cr) :
    read mode field record (COMMA :: s) = read .start [] (record ++ [field]) s :=
  read_cons (by cases mode <;> first | rfl | contradiction)

theorem read_line {mode : Mode} (h : mode ≠ .quoted) (hcr : mode ≠ .cr) :
    read mode field record (LF :: s) = (read .fresh [] [] s).map ((record ++ [field]) :: ·) := by
  cases mode <;> first | rfl | contradiction

theorem read_doubled : ∀ {s field : JsString},
    read .quoted field record (doubled s ++ QUOTE :: rest) = read .closed (field ++ s) record rest := by
  intro s
  induction s with
  | nil =>
    intro field
    rw [doubled, List.nil_append, List.append_nil]
    exact read_cons rfl
  | cons c s ih =>
    intro field
    rw [doubled]
    split_ifs with hc
    · have htwo : read .quoted field record (QUOTE :: QUOTE :: (doubled s ++ QUOTE :: rest)) =
          read .quoted (field ++ [QUOTE]) record (doubled s ++ QUOTE :: rest) := (read_cons rfl).trans (read_cons rfl)
      rw [List.cons_append, List.cons_append, htwo, ih, hc, List.append_assoc, List.singleton_append]
    · rw [List.cons_append, read_cons (by rw [step, if_neg hc]), ih, List.append_assoc, List.singleton_append]

theorem separate_plain (hc : IsPlain c) (other : Option Next) : separate field record c other = other := by
  rw [separate, if_neg hc.1, if_neg hc.2.2.1, if_neg hc.2.2.2]

theorem read_plain : ∀ {s field : JsString}, (∀ c ∈ s, IsPlain c) →
    read .plain field record (s ++ rest) = read .plain (field ++ s) record rest := by
  intro s
  induction s with
  | nil => simp
  | cons c s ih =>
    intro field h
    obtain ⟨hc, hs⟩ := List.forall_mem_cons.1 h
    rw [List.cons_append, read_cons (by rw [step, if_neg hc.2.1, separate_plain hc]), ih hs, List.append_assoc,
      List.singleton_append]

theorem read_start_plain (h : ∀ d ∈ c :: s, IsPlain d) :
    read .start [] record (c :: s ++ rest) = read .plain (c :: s) record rest := by
  obtain ⟨hc, hs⟩ := List.forall_mem_cons.1 h
  rw [List.cons_append, read_cons (by rw [step, if_neg hc.2.1, separate_plain hc]), List.nil_append, read_plain hs]
  rfl

/-- Where a field ends it does not matter how it was written. -/
theorem read_stops (h : Stops rest) {mode : Mode} (hmode : mode = .plain ∨ mode = .closed) :
    read mode field record rest = read .start field record rest := by
  have hquoted : mode ≠ .quoted := by rcases hmode with rfl | rfl <;> decide
  have hcr : mode ≠ .cr := by rcases hmode with rfl | rfl <;> decide
  cases h with
  | eof => rcases hmode with rfl | rfl <;> rfl
  | comma s => rw [read_comma hquoted hcr, read_comma (by decide) (by decide)]
  | line s => rw [read_line hquoted hcr, read_line (by decide) (by decide)]

section Escape
variable (hcomma : special COMMA) (hquote : special QUOTE) (hlf : special LF)
include hcomma hquote hlf

theorem isPlain_of_not_special (hfield : field.any special = false) {part : JsString} (hpart : part ⊆ field) (hcr : CR ∉ part) :
    ∀ c ∈ part, IsPlain c := by
  intro c hc
  have hnot := List.any_eq_false.1 hfield c (hpart hc)
  exact ⟨fun h => hnot (h ▸ hcomma), fun h => hnot (h ▸ hquote), fun h => hnot (h ▸ hlf), fun h => hcr (h ▸ hc)⟩

/-- A field that is clean is read as it was. -/
theorem read_escape (hfield : Clean special field) (h : Stops rest) :
    read .start [] record (escape special field ++ rest) = read .start field record rest := by
  rw [escape]
  by_cases hspecial : field.any special = true
  · rw [if_pos hspecial, List.cons_append, List.append_assoc, List.singleton_append, read_cons rfl, read_doubled,
      List.nil_append, read_stops h (.inr rfl)]
  · rw [if_neg hspecial]
    have hplain := isPlain_of_not_special hcomma hquote hlf (eq_false_of_ne_true hspecial) (List.Subset.refl _)
      fun hcr => hspecial (hfield hcr)
    cases field with
    | nil => rfl
    | cons c s => rw [read_start_plain hplain, read_stops h (.inl rfl)]

/-- A field that is not clean ends its record at its first CR. -/
theorem read_unclean (hfield : ¬ Clean special field) (record : List JsString) (rest : JsString) : ∃ before after, CR ∉ before ∧
    read .start [] record (escape special field ++ rest) =
      (read .cr [] [] (after ++ rest)).map ((record ++ [before]) :: ·) := by
  obtain ⟨hcr, hspecial⟩ := Classical.not_imp.1 hfield
  obtain ⟨before, after, rfl, hfirst⟩ := List.eq_append_cons_of_mem hcr
  have hplain := isPlain_of_not_special hcomma hquote hlf (eq_false_of_ne_true hspecial)
    (List.subset_append_left before _) hfirst
  refine ⟨before, after, hfirst, ?_⟩
  rw [escape, if_neg hspecial, List.append_assoc, List.cons_append]
  cases before with
  | nil => rfl
  | cons c s =>
    rw [read_start_plain hplain]
    rfl

/-! ### A table -/

/-- What the end of a record leads to. -/
def ends (record : List JsString) : JsString → Option (List (List JsString))
  | [] => some [record]
  | _ :: s => (read .fresh [] [] s).map (record :: ·)

/-- Behind the last field of a record: nothing, or the next line. -/
inductive Ends : JsString → Prop
  | eof : Ends []
  | line (s : JsString) : Ends (LF :: s)

omit hcomma hquote hlf in
theorem Ends.stops (h : Ends rest) : Stops rest := by
  cases h with
  | eof => exact .eof
  | line s => exact .line s

omit hcomma hquote hlf in
theorem read_ends (h : Ends rest) : read .start field record rest = ends (record ++ [field]) rest := by
  cases h with
  | eof => rfl
  | line s => exact read_line (by decide) (by decide)

omit hcomma hquote hlf in
theorem line_cons_cons (f g : JsString) (fields : List JsString) :
    line special (f :: g :: fields) = escape special f ++ COMMA :: line special (g :: fields) := by
  rw [line, join, List.map_cons, List.map_cons, List.intercalate_cons_cons, List.append_assoc]
  rfl

omit hcomma hquote hlf in
theorem line_singleton (f : JsString) : line special [f] = escape special f :=
  List.append_nil _

/-- A record of clean fields is read as it was. -/
theorem read_record (h : Ends rest) : ∀ {fields record : List JsString} {f : JsString},
    (∀ d ∈ f :: fields, Clean special d) →
      read .start [] record (line special (f :: fields) ++ rest) = ends (record ++ f :: fields) rest := by
  intro fields
  induction fields with
  | nil =>
    intro record f hclean
    rw [line_singleton, read_escape hcomma hquote hlf (hclean f List.mem_cons_self) h.stops, read_ends h]
  | cons g fields ih =>
    intro record f hclean
    obtain ⟨hf, hfields⟩ := List.forall_mem_cons.1 hclean
    rw [line_cons_cons, List.append_assoc, List.cons_append, read_escape hcomma hquote hlf hf (.comma _),
      read_comma (by decide) (by decide), ih hfields, List.append_assoc, List.singleton_append]

/-- And only such a record is. -/
theorem clean_of_read_record {rows : List (List JsString)} :
    ∀ (fields record : List JsString) (f : JsString),
      read .start [] record (line special (f :: fields) ++ rest) = some ((record ++ f :: fields) :: rows) →
        ∀ d ∈ f :: fields, Clean special d := by
  -- the record that ends at the CR of a field has less than the field in its place
  have hhead {f : JsString} {record fields : List JsString} {after : JsString}
      (hread : read .start [] record (escape special f ++ after) = some ((record ++ f :: fields) :: rows)) :
      Clean special f := by
    by_contra hunclean
    obtain ⟨before, after, hbefore, hcut⟩ := read_unclean hcomma hquote hlf hunclean record after
    obtain ⟨more, -, hmore⟩ := Option.map_eq_some_iff.1 (hcut.symm.trans hread)
    obtain ⟨rfl, -⟩ := List.cons.inj (List.append_cancel_left (List.cons.inj hmore).1)
    exact hunclean fun hcr => absurd hcr hbefore
  intro fields
  induction fields with
  | nil =>
    intro record f hread
    rw [line_singleton] at hread
    exact List.forall_mem_singleton.2 (hhead hread)
  | cons g fields ih =>
    intro record f hread
    rw [line_cons_cons, List.append_assoc, List.cons_append] at hread
    have hf := hhead hread
    rw [read_escape hcomma hquote hlf hf (.comma _), read_comma (by decide) (by decide)] at hread
    refine List.forall_mem_cons.2 ⟨hf, ih (record ++ [f]) g ?_⟩
    rw [hread, List.append_assoc, List.singleton_append]

omit hcomma hquote hlf in
/-- The rows below a row, after its line. -/
theorem exists_below (special : UInt16 → Bool) (r : List JsString) (rows : List (List JsString)) :
    ∃ below, Ends below ∧ table special (r :: rows) = line special r ++ below ∧
      ∀ record, ends record below = (parse (table special rows)).map (record :: ·) := by
  cases rows with
  | nil => exact ⟨[], .eof, by simp [table], fun _ => rfl⟩
  | cons r' rows =>
    refine ⟨LF :: table special (r' :: rows), .line _, ?_, fun _ => rfl⟩
    rw [table, List.map_cons, List.map_cons, List.intercalate_cons_cons, List.append_assoc]
    rfl

omit hcomma hquote hlf in
/-- A line of two fields or more is not empty, and so is begun like a field. -/
theorem parse_line (f g : JsString) (fields : List JsString) (below : JsString) :
    parse (line special (f :: g :: fields) ++ below) = read .start [] [] (line special (f :: g :: fields) ++ below) := by
  have hne : line special (f :: g :: fields) ++ below ≠ [] := by
    rw [line_cons_cons]
    simp
  obtain ⟨c, s, hcs⟩ := List.exists_cons_of_ne_nil hne
  rw [hcs]
  rfl

/-- A table with two columns or more is read back exactly if its fields are clean. -/
theorem parse_table_iff : ∀ {rows : List (List JsString)}, (∀ r ∈ rows, 2 ≤ r.length) →
    (parse (table special rows) = some rows ↔ ∀ r ∈ rows, ∀ f ∈ r, Clean special f) := by
  intro rows
  induction rows with
  | nil => exact fun _ => ⟨fun _ _ h => (nomatch h), fun _ => rfl⟩
  | cons r rows ih =>
    intro hlong
    obtain ⟨hr, hrows⟩ := List.forall_mem_cons.1 hlong
    match r, hr with
    | f :: g :: fields, _ =>
      obtain ⟨below, hends, htable, hbelow⟩ := exists_below special (f :: g :: fields) rows
      rw [htable, parse_line, List.forall_mem_cons, ← ih hrows]
      constructor
      · intro hread
        have hclean := clean_of_read_record hcomma hquote hlf (g :: fields) [] f hread
        rw [read_record hcomma hquote hlf hends hclean, List.nil_append, hbelow] at hread
        obtain ⟨rows', hrows', hsame⟩ := Option.map_eq_some_iff.1 hread
        obtain ⟨-, rfl⟩ := List.cons.inj hsame
        exact ⟨hclean, hrows'⟩
      · rintro ⟨hclean, hread⟩
        rw [read_record hcomma hquote hlf hends hclean, List.nil_append, hbelow, hread]
        rfl

end Escape

end Csv
