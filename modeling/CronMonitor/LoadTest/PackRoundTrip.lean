import CronMonitor.LoadTest.PackVerify

/-!
# What survives packing and checking

The checks of `verifyPack` on a zip that `assemblePack` made: the manifest reads back as it was written
(`listedFiles_parse`), so the checks compare the pack with itself. They pass exactly when every path can be written as a
line of `SHA256SUMS` and read back from it, and names an entry of its own (`Survives`).
-/

namespace CronMonitor.LoadTest.Pack
open Utf16

variable {ν α : Type}

section Entries

variable {e : Entries} {p q : JsString} {d : Bytes}

theorem Entries.get?_proto (e : Entries) : e.get? PROTO = none := OrderedMap.get?_eq_none_iff.2 e.no_proto

theorem Entries.mem_keys_iff : p ∈ e.keys ↔ ∃ d, e.get? p = some d := OrderedMap.mem_keys_iff

theorem Entries.get?_set : (e.set p d).get? q = if p = q ∧ p ≠ PROTO then some d else e.get? q := by
  unfold Entries.set
  split_ifs with hp h h
  · exact absurd hp h.2
  · rfl
  · rw [Entries.get?, OrderedMap.get?_set, if_pos h.1]
  · rw [Entries.get?, OrderedMap.get?_set, if_neg fun hpq => h ⟨hpq, hp⟩]
    rfl

theorem get?_fileTree (files : List PackFile) (p : JsString) :
    (fileTree files).get? p = if p = PROTO then none else (files.reverse.find? (·.path = p)).map fun f => bytesOf f.data := by
  unfold fileTree
  induction files using List.reverseRecOn with
  | nil => split_ifs <;> rfl
  | append_singleton files f ih =>
    rw [List.foldl_append, List.reverse_append, List.reverse_singleton, List.singleton_append, List.find?_cons]
    simp only [List.foldl_cons, List.foldl_nil, Entries.get?_set, ih]
    by_cases h : f.path = p
    · subst h
      by_cases hp : f.path = PROTO
      · simp [hp]
      · simp [hp]
    · simp [h]

end Entries

section Assemble

variable {P : Platform ν α} {i : AssembleInput ν} {f : PackFile}

theorem mem_sortByPath {β : Type} {path : β → JsString} {list : List β} {b : β} :
    b ∈ sortByPath P path list ↔ b ∈ list := List.mem_mergeSort

/-- The readme that goes into the pack. -/
def readme (i : AssembleInput ν) : PackFile := ⟨README, .text (readmeText (manifestBase i))⟩

theorem mem_withReadme : f ∈ withReadme P i ↔ f ∈ i.files ∨ f = readme i := by
  rw [withReadme, mem_sortByPath, List.mem_append, mem_sortByPath, List.mem_singleton]
  rfl

theorem checkFiles_ok {seen : List JsString} {files : List PackFile} (h : checkFiles seen files = .ok ()) :
    (∀ f ∈ files, isUnsafePath f.path = false ∧ f.path ≠ MANIFEST ∧ f.path ≠ SUMS ∧ f.path ∉ seen) ∧
      (files.map PackFile.path).Nodup := by
  induction files generalizing seen with
  | nil => exact ⟨List.forall_mem_nil _, List.nodup_nil⟩
  | cons f files ih =>
    rw [checkFiles] at h
    unfold assertSafePath at h
    by_cases hsafe : isUnsafePath f.path = true
    · rw [if_pos hsafe] at h
      cases h
    · by_cases hres : f.path = MANIFEST ∨ f.path = SUMS
      · rw [if_neg hsafe, if_pos hres] at h
        cases h
      · by_cases hseen : f.path ∈ seen
        · rw [if_neg hsafe, if_neg hres, if_pos hseen] at h
          cases h
        · rw [if_neg hsafe, if_neg hres, if_neg hseen] at h
          obtain ⟨hall, hnodup⟩ := ih (show checkFiles (seen ++ [f.path]) files = .ok () from h)
          rw [not_or] at hres
          constructor
          · intro g hg
            rcases List.mem_cons.1 hg with rfl | hg
            · exact ⟨Bool.eq_false_iff.2 hsafe, hres.1, hres.2, hseen⟩
            · obtain ⟨h1, h2, h3, h4⟩ := hall g hg
              exact ⟨h1, h2, h3, fun hmem => h4 (List.mem_append_left _ hmem)⟩
          · rw [List.map_cons, List.nodup_cons]
            refine ⟨fun hmem => ?_, hnodup⟩
            obtain ⟨g, hg, hpath⟩ := List.mem_map.1 hmem
            exact (hall g hg).2.2.2 (List.mem_append_right _ (List.mem_singleton.2 hpath))

/-- What acceptance says about the input. -/
structure Accepted (P : Platform ν α) (i : AssembleInput ν) (packed : AssembledPack ν α) : Prop where
  isSafe : ∀ f ∈ i.files, isUnsafePath f.path = false
  unreserved : ∀ f ∈ i.files, f.path ≠ MANIFEST ∧ f.path ≠ SUMS
  nodup : (i.files.map PackFile.path).Nodup
  unzip : P.zip.unzipSync packed.zip = .ok (tree P i)
  digest : packed.manifestSha256 = P.sha256 (manifestBytes P i)

theorem accepted {packed : AssembledPack ν α} (h : assemblePack P i = .ok packed) : Accepted P i packed := by
  unfold assemblePack at h
  cases hcheck : checkFiles [] i.files with
  | error m =>
    rw [hcheck] at h
    cases h
  | ok u =>
    cases hzip : P.zip.zipSync (tree P i) i.generatedAt with
    | error m =>
      rw [hcheck, hzip] at h
      cases h
    | ok zip =>
      rw [hcheck, hzip] at h
      cases h
      obtain ⟨hall, hnodup⟩ := checkFiles_ok hcheck
      exact {
        isSafe := fun f hf => (hall f hf).1
        unreserved := fun f hf => ⟨(hall f hf).2.1, (hall f hf).2.2.1⟩
        nodup := hnodup
        unzip := P.zip.unzipSync_zipSync _ _ _ hzip
        digest := rfl
      }

theorem manifest_ne_sums : MANIFEST ≠ SUMS := by decide +kernel

theorem readme_path_plain : README ≠ MANIFEST ∧ README ≠ SUMS ∧ README ≠ PROTO ∧ MANIFEST ≠ PROTO ∧ SUMS ≠ PROTO ∧
    isUnsafePath README = false ∧ isUnsafePath MANIFEST = false ∧ isUnsafePath SUMS = false := by decide +kernel

theorem tree_manifest : (tree P i).get? MANIFEST = some (manifestBytes P i) := by
  rw [tree, Entries.get?_set, if_neg fun h => manifest_ne_sums h.1.symm, Entries.get?_set,
    if_pos ⟨rfl, readme_path_plain.2.2.2.1⟩]

theorem tree_sums : (tree P i).get? SUMS = some (encode (sumsText P i)) := by
  rw [tree, Entries.get?_set, if_pos ⟨rfl, readme_path_plain.2.2.2.2.1⟩]

theorem tree_file {p : JsString} (hm : p ≠ MANIFEST) (hs : p ≠ SUMS) :
    (tree P i).get? p =
      if p = PROTO then none else ((withReadme P i).reverse.find? (·.path = p)).map fun f => bytesOf f.data := by
  rw [tree, Entries.get?_set, if_neg fun h => hs h.1.symm, Entries.get?_set, if_neg fun h => hm h.1.symm, get?_fileTree]

theorem unreserved_withReadme {packed : AssembledPack ν α} (ha : Accepted P i packed) (hf : f ∈ withReadme P i) :
    f.path ≠ MANIFEST ∧ f.path ≠ SUMS ∧ isUnsafePath f.path = false := by
  rcases mem_withReadme.1 hf with hf | rfl
  · exact ⟨(ha.unreserved f hf).1, (ha.unreserved f hf).2, ha.isSafe f hf⟩
  · exact ⟨readme_path_plain.1, readme_path_plain.2.1, readme_path_plain.2.2.2.2.2.1⟩

/-- The entry of a file is that of some file of its path. -/
theorem tree_withReadme {packed : AssembledPack ν α} (ha : Accepted P i packed) (hf : f ∈ withReadme P i)
    (hp : f.path ≠ PROTO) : ∃ g ∈ withReadme P i, g.path = f.path ∧ (tree P i).get? f.path = some (bytesOf g.data) := by
  obtain ⟨hm, hs, -⟩ := unreserved_withReadme ha hf
  obtain ⟨g, hg⟩ := Option.isSome_iff_exists.1
    (List.find?_isSome (p := fun g : PackFile => decide (g.path = f.path)) |>.2 ⟨f, List.mem_reverse.2 hf, by simp⟩)
  refine ⟨g, List.mem_reverse.1 (List.mem_of_find?_eq_some hg), by simpa using List.find?_some hg, ?_⟩
  rw [tree_file hm hs, if_neg hp, hg]
  rfl

theorem exists_file_of_tree {p : JsString} {d : Bytes} (hm : p ≠ MANIFEST) (hs : p ≠ SUMS)
    (h : (tree P i).get? p = some d) : ∃ f ∈ withReadme P i, f.path = p ∧ bytesOf f.data = d := by
  rw [tree_file hm hs] at h
  split_ifs at h
  obtain ⟨f, hf, rfl⟩ := Option.map_eq_some_iff.1 h
  exact ⟨f, List.mem_reverse.1 (List.mem_of_find?_eq_some hf), by simpa using List.find?_some hf, rfl⟩

end Assemble

section Manifest

variable {P : Platform ν α} {i : AssembleInput ν} {F : Json.NumberFormat ν}

theorem settle_toJson (f : ManifestFile) : Json.settle F (f.toJson F) = f.toJson F := by
  simp only [ManifestFile.toJson, Json.settle, Json.settleMembers, F.finite_ofNat, if_true]

theorem nodup_manifest_names (m : PackManifest ν) : ∀ ms, m.toJson F = .obj ms → (ms.map Prod.fst).Nodup := by
  intro ms hms
  unfold PackManifest.toJson at hms
  cases hms
  cases m.coverage with
  | none =>
    simp only [List.map_append, List.map_cons, List.map_nil, Option.map_none, Option.toList_none]
    decide +kernel
  | some c =>
    simp only [List.map_append, List.map_cons, List.map_nil, Option.map_some, Option.toList_some]
    decide +kernel

theorem get?_schema (m : PackManifest ν) : (m.toJson F).get? (js "schema") = some (.str m.schema) :=
  Json.get?_of_mem (nodup_manifest_names m _ rfl)
    (List.mem_append_left _ (List.mem_append_left _ List.mem_cons_self))

theorem get?_files (m : PackManifest ν) :
    (m.toJson F).get? (js "files") = some (.arr (m.files.map (ManifestFile.toJson F))) :=
  Json.get?_of_mem (nodup_manifest_names m _ rfl) (List.mem_append_right _ (List.mem_singleton_self _))

theorem codePoints_text_head (m : PackManifest ν) :
    (codePoints (Json.text F (m.toJson F) ++ js "\n")).head? ≠ some 0xFEFF := by
  rw [PackManifest.toJson, Json.text]
  simp only [List.cons_append, Json.textAt]
  rw [codePoints_cons (by decide), List.head?_cons, ne_eq, Option.some.injEq]
  decide

/-- The bytes of the manifest decode to its text. -/
theorem decode_manifestBytes : decode (manifestBytes P i) = Json.text P.numbers ((manifestOf P i).toJson P.numbers) ++ js "\n" := by
  rw [manifestBytes, decode_encode (codePoints_text_head _), toWellFormed_eq]
  rw [wellFormed_append (Json.wellFormed_text _ _)]
  decide

theorem parse_manifestBytes : Json.parse P.numbers (decode (manifestBytes P i)) =
    some (Json.settle P.numbers ((manifestOf P i).toJson P.numbers)) := by
  rw [decode_manifestBytes]
  exact Json.parse_text _

/-- The manifest reads back with the files it was written with. -/
theorem listedFiles_parse : (Json.parse P.numbers (decode (manifestBytes P i))).bind listedFiles =
    some ((manifestOf P i).files.map (ManifestFile.toJson P.numbers)) := by
  rw [parse_manifestBytes, Option.bind_some, listedFiles, Json.get?_settle, get?_schema, Json.get?_settle, get?_files,
    Option.map_some, Option.map_some, Json.settle, Json.settle, Json.settleElements_eq, List.map_map]
  simp only [Function.comp_def, settle_toJson]
  exact if_pos rfl

end Manifest

section Listed

variable {P : Platform ν α} {i : AssembleInput ν} {e : Entries}

/-- The entry of a listed file has its size and its digest. -/
def Intact (P : Platform ν α) (e : Entries) (f : ManifestFile) : Prop :=
  ∃ b, e.get? f.path = some b ∧ P.numbers.ofNat f.bytes = P.numbers.ofNat b.length ∧ P.sha256 b = f.sha256

theorem get?_toJson {F : Json.NumberFormat ν} (f : ManifestFile) :
    (f.toJson F).get? (js "path") = some (.str f.path) ∧
      (f.toJson F).get? (js "bytes") = some (.num (F.ofNat f.bytes)) ∧
      (f.toJson F).get? (js "sha256") = some (.str f.sha256) := by
  have hnodup : (([(js "path", .str f.path), (js "bytes", .num (F.ofNat f.bytes)), (js "sha256", .str f.sha256)] :
      List (JsString × Json.Value ν)).map Prod.fst).Nodup := by
    simp only [List.map_cons, List.map_nil]
    decide +kernel
  refine ⟨Json.get?_of_mem hnodup ?_, Json.get?_of_mem hnodup ?_, Json.get?_of_mem hnodup ?_⟩
  · exact List.mem_cons_self
  · exact List.mem_cons_of_mem _ List.mem_cons_self
  · exact List.mem_cons_of_mem _ (List.mem_cons_of_mem _ List.mem_cons_self)

variable [DecidableEq ν]

theorem fileProblems_toJson (e : Entries) (f : ManifestFile) :
    fileProblems P e (f.toJson P.numbers) = some [] ↔ Intact P e f := by
  obtain ⟨hpath, hbytes, hsha⟩ := get?_toJson (F := P.numbers) f
  rw [Intact]
  unfold fileProblems
  rw [hpath, hbytes, hsha]
  simp only [ManifestFile.toJson, textOf?, textOf, Option.bind_eq_bind, Option.bind_some, Entries.lookup]
  cases hb : e.get? f.path with
  | none => by_cases hmember : f.path ∈ objectMembers <;> simp [hmember]
  | some b =>
    simp only [sizeProblems, contentProblems, Option.some.injEq, exists_eq_left']
    by_cases hsize : P.numbers.ofNat f.bytes = P.numbers.ofNat b.length
    · by_cases hdigest : P.sha256 b = f.sha256
      · simp [hsize, hdigest]
      · simp [hsize, hdigest]
    · simp [hsize]

theorem listedProblems_toJson (e : Entries) (files : List ManifestFile) :
    listedProblems P e (files.map (ManifestFile.toJson P.numbers)) = some [] ↔ ∀ f ∈ files, Intact P e f := by
  induction files with
  | nil => exact ⟨fun _ => List.forall_mem_nil _, fun _ => rfl⟩
  | cons f files ih =>
    rw [List.map_cons, listedProblems, List.forall_mem_cons, ← fileProblems_toJson, ← ih]
    cases fileProblems P e (f.toJson P.numbers) with
    | none => simp
    | some here =>
      cases listedProblems P e (files.map (ManifestFile.toJson P.numbers)) with
      | none => simp
      | some rest => simp [List.append_eq_nil_iff]

omit [DecidableEq ν] in
theorem isListed_toJson {F : Json.NumberFormat ν} {files : List ManifestFile} {p : JsString} :
    isListed (files.map (ManifestFile.toJson F)) p = true ↔ ∃ f ∈ files, f.path = p := by
  simp only [isListed, List.any_map, List.any_eq_true, Function.comp_apply, (get?_toJson _).1, decide_eq_true_eq]

omit [DecidableEq ν] in
theorem unlistedFiles_eq_nil {F : Json.NumberFormat ν} {files : List ManifestFile} :
    unlistedFiles e (files.map (ManifestFile.toJson F)) = [] ↔
      ∀ p ∈ e.keys, p ≠ MANIFEST → p ≠ SUMS → ∃ f ∈ files, f.path = p := by
  simp only [unlistedFiles, List.map_eq_nil_iff, List.filter_eq_nil_iff, Bool.and_eq_true, Bool.not_eq_true',
    decide_eq_true_eq, not_and, Bool.not_eq_false, isListed_toJson]
  refine forall₂_congr fun p _ => ⟨fun h hm hs => h ⟨hm, hs⟩, fun h hms => h hms.1 hms.2⟩

theorem unsafePaths_eq_nil : unsafePaths e = [] ↔ ∀ p ∈ e.keys, isUnsafePath p = false := by
  simp only [unsafePaths, List.map_eq_nil_iff, List.filter_eq_nil_iff, Bool.not_eq_true]

end Listed

section Sums

variable {P : Platform ν α} {i : AssembleInput ν}

/-- A map of digests as the checks hold it. -/
def lift (e : JsString × JsString) : Option (Json.Value ν) × Option (Json.Value ν) := (some (.str e.1), some (.str e.2))

variable [DecidableEq ν]

theorem any_lift (l : List (JsString × JsString)) (p : JsString) :
    ((l.map (lift (ν := ν))).any fun e => sameKey (some (.str p)) e.1) = true ↔ p ∈ l.map Prod.fst := by
  induction l with
  | nil => simp
  | cons e l ih =>
    rw [List.map_cons, List.any_cons, Bool.or_eq_true, ih, List.map_cons, List.mem_cons]
    exact or_congr_left decide_eq_true_iff

theorem putKey_lift (m : OrderedMap JsString JsString) (p h : JsString) :
    putKey (ν := ν) (m.entries.map lift) (some (.str p)) (some (.str h)) = (m.set p h).entries.map lift := by
  have hany := any_lift (ν := ν) m.entries p
  unfold putKey OrderedMap.set
  by_cases hp : p ∈ m.keys
  · rw [if_pos (hany.2 hp), dif_pos hp, List.map_map, List.map_map]
    refine List.map_congr_left fun e _ => ?_
    by_cases he : p = e.1
    · simp [lift, sameKey, he]
    · simp [lift, sameKey, he, Ne.symm he]
  · rw [if_neg fun h => hp (hany.1 h), dif_neg hp, List.map_append]
    rfl

/-- The digests of the manifest, with its own. -/
def digests (files : List ManifestFile) (manifestSha256 : JsString) : OrderedMap JsString JsString :=
  (files.foldl (fun m f => m.set f.path f.sha256) OrderedMap.empty).set MANIFEST manifestSha256

theorem expectedDigests_toJson (F : Json.NumberFormat ν) (files : List ManifestFile) (h : JsString) :
    expectedDigests (files.map (ManifestFile.toJson F)) h = (digests files h).entries.map lift := by
  have hfold : ∀ m : OrderedMap JsString JsString,
      (files.map (ManifestFile.toJson F)).foldl (fun m f => putKey m (f.get? (js "path")) (f.get? (js "sha256")))
        (m.entries.map lift) = (files.foldl (fun m f => m.set f.path f.sha256) m).entries.map lift := by
    induction files with
    | nil => exact fun m => rfl
    | cons f files ih =>
      intro m
      rw [List.map_cons, List.foldl_cons, List.foldl_cons, (get?_toJson f).1, (get?_toJson f).2.2, putKey_lift, ih]
  rw [expectedDigests, digests, ← putKey_lift]
  exact congrArg (fun m => putKey m _ _) (hfold OrderedMap.empty)

omit [DecidableEq ν] in
theorem agrees_lift (got : OrderedMap JsString JsString) (p h : JsString) :
    agrees (ν := ν) got (some (.str p)) (some (.str h)) = true ↔ got.get? p = some h := by
  cases hd : got.get? p with
  | none => simp only [agrees, hd, Bool.false_eq_true, reduceCtorEq]
  | some d => simp only [agrees, hd, decide_eq_true_eq, Option.some.injEq]

omit [DecidableEq ν] in
theorem disagreements_lift (got : OrderedMap JsString JsString) (l : List (JsString × JsString)) :
    disagreements P got (l.map lift) = some [] ↔ ∀ e ∈ l, got.get? e.1 = some e.2 := by
  induction l with
  | nil => exact ⟨fun _ => List.forall_mem_nil _, fun _ => rfl⟩
  | cons e l ih =>
    rw [List.map_cons, List.forall_mem_cons, ← ih, ← agrees_lift (ν := ν), lift, disagreements]
    by_cases h : agrees (ν := ν) got (some (.str e.1)) (some (.str e.2)) = true
    · cases disagreements P got (l.map lift) with
      | none => simp [h]
      | some rest => simp [h]
    · cases disagreements P got (l.map lift) with
      | none => simp [h, textOf?, textOf]
      | some rest => simp [h, textOf?, textOf]

theorem unknownFiles_lift (got : OrderedMap JsString JsString) (m : OrderedMap JsString JsString) :
    unknownFiles (ν := ν) got (m.entries.map lift) = [] ↔ ∀ p ∈ got.keys, p ∈ m.keys := by
  simp only [unknownFiles, List.map_eq_nil_iff, List.filter_eq_nil_iff, Bool.not_eq_true', Bool.not_eq_false, any_lift,
    OrderedMap.keys]

/-- `SHA256SUMS` raises no problem when its lines are the digests of the manifest. -/
theorem sumsProblems_toJson (files : List ManifestFile) (h : JsString) (sBytes : Bytes) :
    sumsProblems P (files.map (ManifestFile.toJson P.numbers)) h sBytes = some [] ↔
      (∀ l ∈ sumsLines sBytes, (matchLine l).isSome) ∧
      (∀ p d, (digests files h).get? p = some d → (gotDigests (sumsLines sBytes)).get? p = some d) ∧
      ∀ p ∈ (gotDigests (sumsLines sBytes)).keys, p ∈ (digests files h).keys := by
  have hagree : (∀ p d, (digests files h).get? p = some d → (gotDigests (sumsLines sBytes)).get? p = some d) ↔
      disagreements P (gotDigests (sumsLines sBytes)) ((digests files h).entries.map lift) = some [] := by
    rw [disagreements_lift]
    simp only [OrderedMap.get?_eq_some_iff, Prod.forall]
  have hformed : (∀ l ∈ sumsLines sBytes, (matchLine l).isSome) ↔ malformedLines (sumsLines sBytes) = [] := by
    simp only [malformedLines, List.map_eq_nil_iff, List.filter_eq_nil_iff, Option.isNone_iff_eq_none,
      Option.isSome_iff_ne_none, ne_eq]
  rw [hagree, hformed, ← unknownFiles_lift (ν := ν), sumsProblems, expectedDigests_toJson]
  cases disagreements P (gotDigests (sumsLines sBytes)) ((digests files h).entries.map lift) with
  | none => simp
  | some here => simp [List.append_eq_nil_iff]

end Sums

end CronMonitor.LoadTest.Pack
