import CronMonitor.Lib.Sha256
import CronMonitor.LoadTest.PackRoundTrip

/-!
# An assembled pack is accepted when its paths survive

`SHA256SUMS` is a text of lines, decoded and split by the check: a path with a line break is cut, and a lone surrogate
is replaced. `verify_assembled` says exactly which packs pass.
-/

namespace CronMonitor.LoadTest.Pack
open Utf16

variable {ν α : Type} {P : Platform ν α} {i : AssembleInput ν}

section Lines

variable {h p line : JsString}

theorem wellFormed_intercalate {c : UInt16} (hc : isSurrogate c = false) (ls : List JsString) :
    wellFormed ([c].intercalate ls) ↔ ∀ l ∈ ls, wellFormed l := by
  induction ls with
  | nil => exact ⟨fun _ => List.forall_mem_nil _, fun _ => rfl⟩
  | cons l ls ih =>
    cases ls with
    | nil => simp
    | cons m ls =>
      rw [List.intercalate_cons_cons, List.append_assoc, List.singleton_append, wellFormed_append_cons hc,
        Bool.and_eq_true, ih, List.forall_mem_cons (a := l)]

theorem not_isSurrogate_of_isLowerHex {c : UInt16} (hc : isLowerHex c) : isSurrogate c = false ∧ c.toNat ≠ 0xFEFF := by
  simp only [isLowerHex, Json.isDigit, Bool.or_eq_true, Bool.and_eq_true, decide_eq_true_eq] at hc
  simp only [isSurrogate, isHigh, isLow, Bool.or_eq_false_iff, Bool.and_eq_false_iff, decide_eq_false_iff_not]
  omega

theorem wellFormed_of_lowerHex (hhex : h.all isLowerHex) : wellFormed h :=
  Json.wellFormed_of_plain fun c hc => (not_isSurrogate_of_isLowerHex (List.all_eq_true.1 hhex c hc)).1

theorem matchLine_eq_some : matchLine line = some (h, p) ↔
    line = h ++ (js "  " ++ p) ∧ h.length = 64 ∧ h.all isLowerHex ∧ p ≠ [] ∧ p.all isDot := by
  have hspaces : (js "  ").length = 2 := by decide +kernel
  constructor
  · intro hmatch
    simp only [matchLine] at hmatch
    split_ifs at hmatch with hline
    obtain ⟨hlen, hhex, htwo, hne, hdot⟩ := hline
    cases hmatch
    refine ⟨?_, hlen, hhex, hne, hdot⟩
    rw [← htwo]
    have hdrop : line.drop 66 = (line.drop 64).drop 2 := by rw [List.drop_drop]
    rw [hdrop, List.take_append_drop, List.take_append_drop]
  · rintro ⟨rfl, hlen, hhex, hne, hdot⟩
    have htake : (h ++ (js "  " ++ p)).take 64 = h := by rw [← hlen, List.take_left]
    have hdrop64 : (h ++ (js "  " ++ p)).drop 64 = js "  " ++ p := by rw [← hlen, List.drop_left]
    have htwo : (js "  " ++ p).take 2 = js "  " := by rw [← hspaces, List.take_left]
    have hdrop66 : (h ++ (js "  " ++ p)).drop 66 = p := by
      rw [show 66 = 64 + 2 from rfl, ← List.drop_drop, hdrop64, ← hspaces, List.drop_left]
    unfold matchLine
    simp only [htake, hdrop64, htwo, hdrop66]
    rw [if_pos ⟨hlen, hhex, trivial, hne, hdot⟩]

/-- The path of a line is well-formed when the line is. -/
theorem wellFormed_of_matchLine (hline : wellFormed line) (hmatch : matchLine line = some (h, p)) : wellFormed p := by
  obtain ⟨rfl, -, hhex, -, -⟩ := matchLine_eq_some.1 hmatch
  rw [wellFormed_append (wellFormed_of_lowerHex hhex), wellFormed_append (s := js "  ") (by decide +kernel)] at hline
  exact hline

theorem mem_keys_gotDigests {lines : List JsString} :
    p ∈ (gotDigests lines).keys ↔ ∃ l ∈ lines, ∃ h, matchLine l = some (h, p) := by
  rw [OrderedMap.mem_keys_iff]
  unfold gotDigests
  simp only [OrderedMap.get?_foldl_set, Option.map_eq_some_iff]
  constructor
  · rintro ⟨v, e, he, -⟩
    have hmem := List.mem_reverse.1 (List.mem_of_find?_eq_some he)
    have hp : e.2 = p := by simpa using List.find?_some he
    obtain ⟨l, hl, hmatch⟩ := List.mem_filterMap.1 hmem
    exact ⟨l, hl, e.1, by rw [hmatch, ← hp]⟩
  · rintro ⟨l, hl, h, hmatch⟩
    obtain ⟨e, he⟩ := Option.isSome_iff_exists.1
      (List.find?_isSome (p := fun e : JsString × JsString => decide (e.2 = p)) |>.2
        ⟨(h, p), List.mem_reverse.2 (List.mem_filterMap.2 ⟨l, hl, hmatch⟩), by simp⟩)
    exact ⟨e.1, e, he, rfl⟩

end Lines

section SumsText

theorem mem_sumLines {l : JsString × JsString} : l ∈ sumLines P i ↔
    (∃ f ∈ withReadme P i, l = (P.sha256 (bytesOf f.data), f.path)) ∨ l = (P.sha256 (manifestBytes P i), MANIFEST) := by
  rw [sumLines, mem_sortByPath, List.mem_append, List.mem_singleton, List.mem_map]
  refine or_congr_left ⟨?_, ?_⟩
  · rintro ⟨m, hm, rfl⟩
    obtain ⟨f, hf, rfl⟩ := List.mem_map.1 hm
    exact ⟨f, hf, rfl⟩
  · rintro ⟨f, hf, rfl⟩
    exact ⟨manifestFile P f, List.mem_map_of_mem hf, rfl⟩

theorem digest_of_mem_sumLines {l : JsString × JsString} (hl : l ∈ sumLines P i) : l.1.length = 64 ∧ l.1.all isLowerHex := by
  rcases mem_sumLines.1 hl with ⟨f, -, rfl⟩ | rfl
  · exact ⟨P.length_sha256 _, P.isLowerHex_sha256 _⟩
  · exact ⟨P.length_sha256 _, P.isLowerHex_sha256 _⟩

/-- The text of the lines begins with a digit of a digest. -/
theorem codePoints_sumsText_head : (codePoints (sumsText P i)).head? ≠ some 0xFEFF := by
  have hmem : (P.sha256 (manifestBytes P i), MANIFEST) ∈ sumLines P i := mem_sumLines.2 (.inr rfl)
  obtain ⟨l, ls, hls⟩ := List.exists_cons_of_ne_nil (List.ne_nil_of_mem hmem)
  have hl : l ∈ sumLines P i := by
    rw [hls]
    exact List.mem_cons_self
  obtain ⟨hlen, hhex⟩ := digest_of_mem_sumLines hl
  obtain ⟨c, t, hc⟩ := List.exists_cons_of_length_pos (show 0 < l.1.length by omega)
  have hplain := not_isSurrogate_of_isLowerHex (List.all_eq_true.1 hhex c (by rw [hc]; exact List.mem_cons_self))
  have htext : ∃ u, sumsText P i = c :: u := by
    rw [sumsText, hls, List.map_cons]
    cases ls with
    | nil =>
      rw [List.map_nil, List.intercalate_singleton, hc]
      exact ⟨_, rfl⟩
    | cons m ls =>
      rw [List.map_cons, List.intercalate_cons_cons, hc]
      exact ⟨_, rfl⟩
  obtain ⟨u, hu⟩ := htext
  rw [hu, codePoints_cons hplain.1, List.head?_cons, ne_eq, Option.some.injEq]
  exact hplain.2

theorem wellFormed_of_mem_sumsLines {line : JsString} (hline : line ∈ sumsLines (encode (sumsText P i))) :
    wellFormed line := by
  rw [sumsLines, List.mem_filter, decode_encode codePoints_sumsText_head] at hline
  have hall := (wellFormed_intercalate (c := 0x0A) (by decide) ((toWellFormed (sumsText P i)).splitOn 0x0A)).1 (by
    rw [List.intercalate_splitOn]
    exact wellFormed_toWellFormed _)
  exact hall line hline.1

/-- Lines that survive are read back one by one. -/
theorem sumsLines_sumsText (hclean : ∀ f ∈ withReadme P i, wellFormed f.path ∧ f.path.all isDot) :
    sumsLines (encode (sumsText P i)) = (sumLines P i).map fun l => l.1 ++ js "  " ++ l.2 := by
  have hpath : ∀ l ∈ sumLines P i, wellFormed l.2 ∧ l.2.all isDot := by
    intro l hl
    rcases mem_sumLines.1 hl with ⟨f, hf, rfl⟩ | rfl
    · exact hclean f hf
    · exact show wellFormed MANIFEST ∧ MANIFEST.all isDot by decide +kernel
  have hline : ∀ line ∈ (sumLines P i).map (fun l => l.1 ++ js "  " ++ l.2),
      wellFormed line ∧ 0x0A ∉ line ∧ line ≠ [] := by
    intro line hmem
    obtain ⟨l, hl, rfl⟩ := List.mem_map.1 hmem
    obtain ⟨hlen, hhex⟩ := digest_of_mem_sumLines hl
    obtain ⟨hwf, hdot⟩ := hpath l hl
    refine ⟨?_, ?_, ?_⟩
    · rw [List.append_assoc, wellFormed_append (wellFormed_of_lowerHex hhex),
        wellFormed_append (s := js "  ") (by decide +kernel)]
      exact hwf
    · intro hlf
      rcases List.mem_append.1 hlf with hlf | hlf
      · rcases List.mem_append.1 hlf with hlf | hlf
        · exact absurd (List.all_eq_true.1 hhex _ hlf) (by decide)
        · exact absurd hlf (by decide +kernel)
      · exact absurd (List.all_eq_true.1 hdot _ hlf) (by decide)
    · intro hnil
      rw [List.append_assoc, List.append_eq_nil_iff] at hnil
      rw [hnil.1] at hlen
      cases hlen
  have htext : sumsText P i = [0x0A].intercalate (((sumLines P i).map fun l => l.1 ++ js "  " ++ l.2) ++ [[]]) := by
    rw [sumsText]
    have hne : (sumLines P i).map (fun l => l.1 ++ js "  " ++ l.2) ≠ [] := by
      intro hnil
      have := List.map_eq_nil_iff.1 hnil
      exact List.ne_nil_of_mem (mem_sumLines.2 (.inr rfl)) this
    generalize (sumLines P i).map (fun l => l.1 ++ js "  " ++ l.2) = ls at hne
    induction ls with
    | nil => exact absurd rfl hne
    | cons l ls ih =>
      cases ls with
      | nil =>
        rw [List.intercalate_singleton, List.singleton_append, List.intercalate_cons_cons, List.intercalate_singleton,
          List.append_nil]
        rfl
      | cons m ls =>
        rw [List.intercalate_cons_cons, List.append_assoc, ih (List.cons_ne_nil m ls), List.cons_append, List.cons_append,
          List.cons_append, List.intercalate_cons_cons]
  have hwf : wellFormed (sumsText P i) := by
    rw [htext, wellFormed_intercalate (by decide)]
    intro l hl
    rcases List.mem_append.1 hl with hl | hl
    · exact (hline l hl).1
    · rw [List.mem_singleton.1 hl]
      rfl
  rw [sumsLines, decode_encode codePoints_sumsText_head, toWellFormed_eq hwf, htext, List.splitOn_intercalate,
    List.filter_append]
  · rw [List.filter_eq_self.2 fun l hl => decide_eq_true (hline l hl).2.2]
    exact List.append_nil _
  · intro l hl
    rcases List.mem_append.1 hl with hl | hl
    · exact (hline l hl).2.1
    · rw [List.mem_singleton.1 hl]
      exact List.not_mem_nil
  · exact List.append_ne_nil_of_right_ne_nil _ (List.cons_ne_nil _ _)

end SumsText

section Verify

variable [DecidableEq ν] {zip : α} {e : Entries} {mBytes : Bytes} {files : List ManifestFile}

/-- What a check without problems has seen, for an archive whose manifest lists `files`. -/
structure Clean (P : Platform ν α) (e : Entries) (manifestSha256 : JsString) (files : List ManifestFile) : Prop where
  isSafe : ∀ p ∈ e.keys, isUnsafePath p = false
  intact : ∀ f ∈ files, Intact P e f
  listed : ∀ p ∈ e.keys, p ≠ MANIFEST → p ≠ SUMS → ∃ f ∈ files, f.path = p
  sums : ∃ sBytes, e.get? SUMS = some sBytes ∧
    sumsProblems P (files.map (ManifestFile.toJson P.numbers)) manifestSha256 sBytes = some []

/-- The check reports no problem. -/
def Passes (P : Platform ν α) (zip : α) : Prop := ∃ r, verifyPack P zip = some r ∧ r.ok = true ∧ r.problems = []

/-- The result for an archive whose manifest lists `files`. -/
theorem verifyPack_eq (hzip : P.zip.unzipSync zip = .ok e) (hm : e.get? MANIFEST = some mBytes)
    {listing : List (Json.Value ν)} (hfiles : (Json.parse P.numbers (decode mBytes)).bind listedFiles = some listing) :
    verifyPack P zip =
      (listedProblems P e listing).bind fun listed =>
        (match e.get? SUMS with
          | none => some []
          | some sBytes => sumsProblems P listing (P.sha256 mBytes) sBytes).bind
        fun sums =>
          let problems := unsafePaths e ++ (if (e.get? SUMS).isNone then [js "SHA256SUMS is missing"] else []) ++ listed ++
            unlistedFiles e listing ++ sums
          some ⟨problems.isEmpty, some (P.sha256 mBytes),
            (Json.parse P.numbers (decode mBytes)).bind (·.get? (js "packId")), e.keys.length, problems,
            Json.parse P.numbers (decode mBytes)⟩ := by
  unfold verifyPack
  simp only [hzip, hm, hfiles]
  cases e.get? SUMS with
  | none => rfl
  | some sBytes => rfl

theorem verifyPack_of_clean (hzip : P.zip.unzipSync zip = .ok e) (hm : e.get? MANIFEST = some mBytes)
    (hfiles : (Json.parse P.numbers (decode mBytes)).bind listedFiles =
      some (files.map (ManifestFile.toJson P.numbers))) (h : Clean P e (P.sha256 mBytes) files) :
    verifyPack P zip = some ⟨true, some (P.sha256 mBytes),
      (Json.parse P.numbers (decode mBytes)).bind (·.get? (js "packId")), e.keys.length, [],
      Json.parse P.numbers (decode mBytes)⟩ := by
  obtain ⟨hsafe, hintact, hlisted, sBytes, hs, hsums⟩ := h
  rw [verifyPack_eq hzip hm hfiles, (listedProblems_toJson e files).2 hintact, hs]
  simp only [hsums, Option.bind_some, unsafePaths_eq_nil.2 hsafe, unlistedFiles_eq_nil.2 hlisted]
  rfl

/-- A result without problems comes from an archive with a manifest that could be read. -/
theorem manifest_of_ok {r : VerifyResult ν} (hr : verifyPack P zip = some r) (hok : r.ok = true) :
    ∃ e mBytes listing, P.zip.unzipSync zip = .ok e ∧ e.get? MANIFEST = some mBytes ∧
      (Json.parse P.numbers (decode mBytes)).bind listedFiles = some listing ∧ r.manifestSha256 = some (P.sha256 mBytes) := by
  cases hzip : P.zip.unzipSync zip with
  | error message =>
    simp only [verifyPack, hzip] at hr
    cases hr
    cases hok
  | ok e =>
    cases hm : e.get? MANIFEST with
    | none =>
      simp only [verifyPack, hzip, hm] at hr
      cases hr
      cases hok
    | some mBytes =>
      cases hfiles : (Json.parse P.numbers (decode mBytes)).bind listedFiles with
      | none =>
        simp only [verifyPack, hzip, hm, hfiles] at hr
        cases hr
        cases hok
      | some listing =>
        rw [verifyPack_eq hzip hm hfiles] at hr
        obtain ⟨listed, -, hr⟩ := Option.bind_eq_some_iff.1 hr
        obtain ⟨sums, -, hr⟩ := Option.bind_eq_some_iff.1 hr
        cases hr
        exact ⟨e, mBytes, listing, rfl, hm, hfiles, rfl⟩

theorem clean_of_ok (hzip : P.zip.unzipSync zip = .ok e) (hm : e.get? MANIFEST = some mBytes)
    (hfiles : (Json.parse P.numbers (decode mBytes)).bind listedFiles =
      some (files.map (ManifestFile.toJson P.numbers))) {r : VerifyResult ν} (hr : verifyPack P zip = some r)
    (hok : r.ok = true) : Clean P e (P.sha256 mBytes) files := by
  rw [verifyPack_eq hzip hm hfiles] at hr
  obtain ⟨listed, hlisted, hr⟩ := Option.bind_eq_some_iff.1 hr
  obtain ⟨sums, hsums, hr⟩ := Option.bind_eq_some_iff.1 hr
  cases hr
  have hproblems := List.isEmpty_iff.1 hok
  simp only [List.append_eq_nil_iff] at hproblems
  obtain ⟨⟨⟨⟨hrisky, hmissing⟩, rfl⟩, hunlisted⟩, rfl⟩ := hproblems
  refine ⟨unsafePaths_eq_nil.1 hrisky, (listedProblems_toJson e files).1 hlisted, unlistedFiles_eq_nil.1 hunlisted, ?_⟩
  cases hs : e.get? SUMS with
  | none =>
    rw [hs] at hmissing
    exact absurd hmissing (List.cons_ne_nil _ _)
  | some sBytes =>
    rw [hs] at hsums
    exact ⟨sBytes, rfl, hsums⟩

theorem passes_iff (hzip : P.zip.unzipSync zip = .ok e) (hm : e.get? MANIFEST = some mBytes)
    (hfiles : (Json.parse P.numbers (decode mBytes)).bind listedFiles =
      some (files.map (ManifestFile.toJson P.numbers))) :
    Passes P zip ↔ Clean P e (P.sha256 mBytes) files := by
  constructor
  · rintro ⟨r, hr, hok, -⟩
    exact clean_of_ok hzip hm hfiles hr hok
  · intro h
    exact ⟨_, verifyPack_of_clean hzip hm hfiles h, rfl, rfl⟩

end Verify

section Survives

/-- A file whose path is one well-formed line and names an entry, and which agrees with the readme if it is in its place. -/
structure Survives (P : Platform ν α) (i : AssembleInput ν) (f : PackFile) : Prop where
  isWellFormed : wellFormed f.path = true
  isOneLine : f.path.all isDot = true
  isEntry : f.path ≠ PROTO
  asReadme : f.path = README →
    P.numbers.ofNat (bytesOf f.data).length = P.numbers.ofNat (bytesOf (readme i).data).length ∧
      P.sha256 (bytesOf f.data) = P.sha256 (bytesOf (readme i).data)

variable {packed : AssembledPack ν α} (ha : Accepted P i packed)
include ha

/-- Files of one path have one size and one digest. -/
theorem digest_unique (hs : ∀ f ∈ i.files, Survives P i f) {f g : PackFile} (hf : f ∈ withReadme P i)
    (hg : g ∈ withReadme P i) (hpath : f.path = g.path) :
    P.numbers.ofNat (bytesOf f.data).length = P.numbers.ofNat (bytesOf g.data).length ∧
      P.sha256 (bytesOf f.data) = P.sha256 (bytesOf g.data) := by
  rcases mem_withReadme.1 hf with hf | rfl
  · rcases mem_withReadme.1 hg with hg | rfl
    · obtain rfl := List.inj_on_of_nodup_map ha.nodup hf hg hpath
      exact ⟨rfl, rfl⟩
    · exact (hs f hf).asReadme hpath
  · rcases mem_withReadme.1 hg with hg | rfl
    · obtain ⟨hlen, hsha⟩ := (hs g hg).asReadme hpath.symm
      exact ⟨hlen.symm, hsha.symm⟩
    · exact ⟨rfl, rfl⟩

omit ha in
theorem clean_withReadme (hs : ∀ f ∈ i.files, Survives P i f) :
    ∀ f ∈ withReadme P i, wellFormed f.path ∧ f.path.all isDot ∧ f.path ≠ PROTO := by
  intro f hf
  rcases mem_withReadme.1 hf with hf | rfl
  · exact ⟨(hs f hf).isWellFormed, (hs f hf).isOneLine, (hs f hf).isEntry⟩
  · exact show wellFormed README ∧ README.all isDot ∧ README ≠ PROTO by decide +kernel

omit ha

theorem mem_sumLines_of_digests {p d : JsString}
    (h : (digests (manifestOf P i).files (P.sha256 (manifestBytes P i))).get? p = some d) : (d, p) ∈ sumLines P i := by
  rw [digests, OrderedMap.get?_set] at h
  split_ifs at h with hm
  · cases h
    subst hm
    exact mem_sumLines.2 (.inr rfl)
  · rw [OrderedMap.get?_foldl_set] at h
    obtain ⟨m, hfind, rfl⟩ := Option.map_eq_some_iff.1 h
    obtain ⟨f, hf, rfl⟩ := List.mem_map.1 (List.mem_reverse.1 (List.mem_of_find?_eq_some hfind))
    have hp : f.path = p := of_decide_eq_true (List.find?_some (p := fun m : ManifestFile => decide (m.path = p)) hfind)
    exact mem_sumLines.2 (.inl ⟨f, hf, by rw [← hp]; rfl⟩)

theorem mem_keys_digests {p d : JsString} (h : (d, p) ∈ sumLines P i) :
    p ∈ (digests (manifestOf P i).files (P.sha256 (manifestBytes P i))).keys := by
  rw [OrderedMap.mem_keys_iff, digests]
  simp only [OrderedMap.get?_set]
  split_ifs with hm
  · exact ⟨_, rfl⟩
  · rcases mem_sumLines.1 h with ⟨f, hf, heq⟩ | heq
    · cases heq
      rw [OrderedMap.get?_foldl_set]
      obtain ⟨m, hfind⟩ := Option.isSome_iff_exists.1
        (List.find?_isSome (p := fun m : ManifestFile => decide (m.path = f.path)) |>.2
          ⟨manifestFile P f, List.mem_reverse.2 (List.mem_map_of_mem hf), by simp [manifestFile]⟩)
      exact ⟨m.sha256, by rw [show (manifestOf P i).files.reverse.find? (fun m => decide (m.path = f.path)) = some m from hfind]; rfl⟩
    · cases heq
      exact absurd rfl hm

/-- Surviving lines are read back as they were written. -/
theorem filterMap_matchLine (hclean : ∀ f ∈ withReadme P i, wellFormed f.path ∧ f.path.all isDot ∧ f.path ≠ []) :
    (sumsLines (encode (sumsText P i))).filterMap matchLine = sumLines P i ∧
      ∀ line ∈ sumsLines (encode (sumsText P i)), (matchLine line).isSome := by
  have hmatch : ∀ l ∈ sumLines P i, matchLine (l.1 ++ js "  " ++ l.2) = some l := by
    intro l hl
    obtain ⟨hlen, hhex⟩ := digest_of_mem_sumLines hl
    refine matchLine_eq_some.2 ⟨List.append_assoc _ _ _, hlen, hhex, ?_⟩
    rcases mem_sumLines.1 hl with ⟨f, hf, rfl⟩ | rfl
    · exact ⟨(hclean f hf).2.2, (hclean f hf).2.1⟩
    · exact show MANIFEST ≠ [] ∧ MANIFEST.all isDot by decide +kernel
  rw [sumsLines_sumsText fun f hf => ⟨(hclean f hf).1, (hclean f hf).2.1⟩]
  constructor
  · rw [List.filterMap_map]
    refine (List.filterMap_congr fun l hl => ?_).trans List.filterMap_some
    exact hmatch l hl
  · intro line hline
    obtain ⟨l, hl, rfl⟩ := List.mem_map.1 hline
    rw [hmatch l hl]
    rfl

include ha

theorem ne_nil_of_withReadme {f : PackFile} (hf : f ∈ withReadme P i) : f.path ≠ [] := by
  intro hnil
  have hsafe := (unreserved_withReadme ha hf).2.2
  rw [hnil] at hsafe
  exact absurd hsafe (by decide)

/-- Surviving files leave a pack without problems. -/
theorem clean_of_survives [DecidableEq ν] (hs : ∀ f ∈ i.files, Survives P i f) :
    Clean P (tree P i) (P.sha256 (manifestBytes P i)) (manifestOf P i).files := by
  have hclean := clean_withReadme hs
  have hkeys : ∀ p ∈ (tree P i).keys, p = MANIFEST ∨ p = SUMS ∨ ∃ f ∈ withReadme P i, f.path = p := by
    intro p hp
    obtain ⟨d, hd⟩ := Entries.mem_keys_iff.1 hp
    by_cases hm : p = MANIFEST
    · exact .inl hm
    · by_cases hsums : p = SUMS
      · exact .inr (.inl hsums)
      · obtain ⟨f, hf, hpath, -⟩ := exists_file_of_tree hm hsums hd
        exact .inr (.inr ⟨f, hf, hpath⟩)
  refine ⟨?_, ?_, ?_, encode (sumsText P i), tree_sums, ?_⟩
  · intro p hp
    rcases hkeys p hp with rfl | rfl | ⟨f, hf, rfl⟩
    · exact readme_path_plain.2.2.2.2.2.2.1
    · exact readme_path_plain.2.2.2.2.2.2.2
    · exact (unreserved_withReadme ha hf).2.2
  · intro m hm
    obtain ⟨f, hf, rfl⟩ := List.mem_map.1 hm
    obtain ⟨g, hg, hpath, hentry⟩ := tree_withReadme ha hf (hclean f hf).2.2
    obtain ⟨hlen, hsha⟩ := digest_unique ha hs hf hg hpath.symm
    exact ⟨bytesOf g.data, hentry, hlen, hsha.symm⟩
  · intro p hp hm hsums
    rcases hkeys p hp with h | h | ⟨f, hf, rfl⟩
    · exact absurd h hm
    · exact absurd h hsums
    · exact ⟨manifestFile P f, List.mem_map_of_mem hf, rfl⟩
  · obtain ⟨hread, hmatch⟩ := filterMap_matchLine (P := P) (i := i)
      fun f hf => ⟨(hclean f hf).1, (hclean f hf).2.1, ne_nil_of_withReadme ha hf⟩
    refine (sumsProblems_toJson _ _ _).2 ⟨hmatch, fun p d hd => ?_, fun p hp => ?_⟩
    · have hmem := mem_sumLines_of_digests hd
      rw [gotDigests, hread, OrderedMap.get?_foldl_set]
      obtain ⟨l, hfind⟩ := Option.isSome_iff_exists.1
        (List.find?_isSome (p := fun l : JsString × JsString => decide (l.2 = p)) |>.2
          ⟨(d, p), List.mem_reverse.2 hmem, by simp⟩)
      have hl : l ∈ sumLines P i := List.mem_reverse.1 (List.mem_of_find?_eq_some hfind)
      have hpath : l.2 = p := by simpa using List.find?_some hfind
      rw [hfind, Option.map_some, Option.some.injEq]
      rcases mem_sumLines.1 hl with ⟨f, hf, rfl⟩ | rfl
      · rcases mem_sumLines.1 hmem with ⟨g, hg, heq⟩ | heq
        · cases heq
          exact (digest_unique ha hs hf hg hpath).2
        · cases heq
          exact absurd hpath (unreserved_withReadme ha hf).1
      · rcases mem_sumLines.1 hmem with ⟨g, hg, heq⟩ | heq
        · cases heq
          exact absurd hpath.symm (unreserved_withReadme ha hg).1
        · cases heq
          rfl
    · obtain ⟨line, hline, h, hh⟩ := mem_keys_gotDigests.1 hp
      refine mem_keys_digests (d := h) ?_
      rw [← hread]
      exact List.mem_filterMap.2 ⟨line, hline, hh⟩

omit ha in
theorem intact_manifestFile {e : Entries} {f : PackFile} (h : Intact P e (manifestFile P f)) :
    ∃ b, e.get? f.path = some b ∧ P.numbers.ofNat (bytesOf f.data).length = P.numbers.ofNat b.length ∧
      P.sha256 b = P.sha256 (bytesOf f.data) := h

omit ha in
/-- The files of a pack without problems survive. -/
theorem survives_of_clean [DecidableEq ν]
    (h : Clean P (tree P i) (P.sha256 (manifestBytes P i)) (manifestOf P i).files) : ∀ f ∈ i.files, Survives P i f := by
  intro f hf
  have hmem : f ∈ withReadme P i := mem_withReadme.2 (.inl hf)
  obtain ⟨b, hentry, hlen, hsha⟩ := intact_manifestFile (h.intact _ (List.mem_map_of_mem hmem))
  obtain ⟨sBytes, hsBytes, hsums⟩ := h.sums
  rw [tree_sums] at hsBytes
  cases hsBytes
  obtain ⟨-, hagree, -⟩ := (sumsProblems_toJson _ _ _).1 hsums
  obtain ⟨d, hd⟩ := OrderedMap.mem_keys_iff.1
    (mem_keys_digests (mem_sumLines.2 (.inl ⟨f, hmem, rfl⟩)))
  obtain ⟨line, hline, hd', hmatch⟩ := mem_keys_gotDigests.1 (OrderedMap.mem_keys_iff.2 ⟨d, hagree _ d hd⟩)
  refine ⟨?_, ?_, ?_, ?_⟩
  · exact wellFormed_of_matchLine (wellFormed_of_mem_sumsLines hline) hmatch
  · exact (matchLine_eq_some.1 hmatch).2.2.2.2
  · rintro hproto
    have hnone := Entries.get?_proto (tree P i)
    rw [← hproto] at hnone
    cases hnone.symm.trans hentry
  · intro hreadme
    obtain ⟨b', hentry', hlen', hsha'⟩ :=
      intact_manifestFile (h.intact _ (List.mem_map_of_mem (mem_withReadme.2 (.inr rfl))))
    have hpath : f.path = (readme i).path := hreadme
    rw [← hpath, hentry] at hentry'
    cases hentry'
    exact ⟨hlen.trans hlen'.symm, hsha.symm.trans hsha'⟩

end Survives

/-- A pack that was assembled passes the check exactly when its files survive. -/
theorem verify_assembled [DecidableEq ν] {packed : AssembledPack ν α} (h : assemblePack P i = .ok packed) :
    Passes P packed.zip ↔ ∀ f ∈ i.files, Survives P i f := by
  have ha := accepted h
  rw [passes_iff ha.unzip tree_manifest listedFiles_parse]
  exact ⟨survives_of_clean, clean_of_survives ha⟩

section Example

/-- A platform whose archives are entry maps and whose metadata holds whole numbers. -/
def simplePlatform : Platform Nat Entries where
  numbers := Json.decimal
  zip := {
    zipSync := fun t _ => .ok t
    unzipSync := fun t => .ok t
    bytes := fun _ => []
    unzipSync_zipSync := fun _ _ _ h => h ▸ rfl
  }
  sha256 := Sha256.sha256
  length_sha256 := Sha256.length_sha256
  isLowerHex_sha256 data := by
    have hlower : ∀ n < 16, isLowerHex (Json.hexDigit n) = true := by decide
    rw [List.all_eq_true]
    intro c hc
    obtain ⟨n, hn, rfl⟩ := Sha256.exists_hexDigit_of_mem_sha256 hc
    exact hlower n hn
  localeCompare p q := if p < q then -1 else if q < p then 1 else 0

def sampleInput (paths : List JsString) : AssembleInput Nat where
  packId := js "11111111-1111-4111-8111-111111111111"
  generatedAt := 1792152000000
  generatedBy := js "user:compliance@x.test"
  toolVersion := js "0.1.0"
  libraryVersion := js "2026.10.16-draft-1"
  target := ⟨js "api-1", js "Sandbox API", js "stg.example"⟩
  basis := js "real"
  disclaimer := js "Evidence mapping, not certification."
  sourceRuns := [⟨js "security", js "run-1", some (js "2026-10-15T10:00:00Z"), js "iSmartPay sandbox", true⟩]
  coverage := some (.obj [(js "frameworks", .num 4)])
  files := paths.map fun p => ⟨p, .text p⟩

def isAccepted (i : AssembleInput Nat) : Bool :=
  match assemblePack simplePlatform i with
  | .ok _ => true
  | .error _ => false

theorem exists_packed {i : AssembleInput Nat} (h : isAccepted i) :
    ∃ packed, assemblePack simplePlatform i = .ok packed := by
  unfold isAccepted at h
  split at h
  · exact ⟨_, by assumption⟩
  · cases h

/-- The path of this file holds a line break. -/
theorem broken_line_fails : ∃ packed, assemblePack simplePlatform (sampleInput [js "reports/a\nb.json"]) = .ok packed ∧
    ¬Passes simplePlatform packed.zip := by
  obtain ⟨packed, hpacked⟩ := exists_packed (i := sampleInput [js "reports/a\nb.json"]) (by decide +kernel)
  have ha := accepted hpacked
  refine ⟨packed, hpacked, fun h => ?_⟩
  have hline := (survives_of_clean ((passes_iff ha.unzip tree_manifest listedFiles_parse).1 h) _
    List.mem_cons_self).isOneLine
  exact absurd hline (by decide +kernel)

/-- Two files of the folders of a real pack. -/
def plainInput : AssembleInput Nat := sampleInput [js "reports/a.json", js "evidence/b.csv"]

theorem survives_plainInput : ∀ f ∈ plainInput.files, Survives simplePlatform plainInput f := by
  have hpath : ∀ p ∈ [js "reports/a.json", js "evidence/b.csv"],
      wellFormed p = true ∧ p.all isDot = true ∧ p ≠ PROTO ∧ p ≠ README := by decide +kernel
  intro f hf
  obtain ⟨p, hp, rfl⟩ := List.mem_map.1 hf
  obtain ⟨hwf, hdot, hproto, hreadme⟩ := hpath p hp
  exact ⟨hwf, hdot, hproto, fun h => absurd h hreadme⟩

theorem verify_assembled_plain : ∃ packed, assemblePack simplePlatform plainInput = .ok packed ∧
    Passes simplePlatform packed.zip := by
  obtain ⟨packed, hpacked⟩ := exists_packed (i := plainInput) (by decide +kernel)
  exact ⟨packed, hpacked, (verify_assembled hpacked).2 survives_plainInput⟩

end Example

end CronMonitor.LoadTest.Pack
