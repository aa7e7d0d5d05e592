import CronMonitor.LoadTest.PackLaw

/-!
# An authentic archive holds the files that were issued

`verifyUploadedPack` and the table of issued packs, which is only ever appended to. The chain of the argument is the
check's own: the digest on record fixes the manifest, the manifest fixes every listed file, and nothing else may be there.
-/

namespace CronMonitor.LoadTest.Pack
open Utf16

variable {ν α : Type}

/-- A row of `compliance_evidence_packs`. -/
structure PackRow (α : Type) where
  id : JsString
  targetName : JsString
  libraryVersion : JsString
  manifestSha256 : JsString
  zip : α
  createdByLabel : JsString
  createdAt : Time

/-- The end of `createEvidencePack`: the pack is assembled and recorded. -/
def storePack (P : Platform ν α) (rows : List (PackRow α)) (input : AssembleInput ν) (createdAt : Time) :
    Except JsString (List (PackRow α)) := do
  let packed ← assemblePack P input
  return rows ++ [{
    id := input.packId
    targetName := input.target.name
    libraryVersion := input.libraryVersion
    manifestSha256 := packed.manifestSha256
    zip := packed.zip
    createdByLabel := input.generatedBy
    createdAt }]

/-- The tables that packs are issued into. -/
inductive Issued (P : Platform ν α) : List (PackRow α) → Prop
  | nil : Issued P []
  | store {rows rows' : List (PackRow α)} {input : AssembleInput ν} {createdAt : Time} :
    Issued P rows → storePack P rows input createdAt = .ok rows' → Issued P rows'

/-- `WHERE manifest_sha256 = $1 ORDER BY created_at LIMIT 1`. -/
def findPackByManifest (rows : List (PackRow α)) (sha : JsString) : Option (PackRow α) :=
  ((rows.filter (·.manifestSha256 = sha)).mergeSort fun r r' => r.createdAt ≤ r'.createdAt).head?

inductive Verdict
  | authentic | intactButNotIssuedHere | tampered | invalid
deriving DecidableEq, Repr

structure IssuedMeta where
  id : JsString
  createdAt : Time
  createdByLabel : JsString
  targetName : JsString
  libraryVersion : JsString

structure PackVerification (ν : Type) where
  ok : Bool
  manifestSha256 : Option JsString
  packId : Option (Json.Value ν)
  fileCount : Nat
  problems : List JsString
  issued : Option IssuedMeta
  verdict : Verdict

def verifyUploadedPack [DecidableEq ν] (P : Platform ν α) (rows : List (PackRow α)) (zip : α) :
    Option (PackVerification ν) := do
  let v ← verifyPack P zip
  let issued := v.manifestSha256.bind (findPackByManifest rows)
  some {
    ok := v.ok
    manifestSha256 := v.manifestSha256
    packId := v.packId
    fileCount := v.fileCount
    problems := v.problems
    issued := issued.map fun r => ⟨r.id, r.createdAt, r.createdByLabel, r.targetName, r.libraryVersion⟩
    verdict :=
      if v.manifestSha256.isNone then .invalid
      else if !v.ok then .tampered
      else if issued.isSome then .authentic
      else .intactButNotIssuedHere }

section Table

variable {P : Platform ν α} {rows : List (PackRow α)} {row : PackRow α}

/-- Every row records a pack that was assembled. -/
theorem assembled_of_issued (h : Issued P rows) (hrow : row ∈ rows) :
    ∃ input packed, assemblePack P input = .ok packed ∧ row.zip = packed.zip ∧
      row.manifestSha256 = packed.manifestSha256 := by
  induction h with
  | nil => cases hrow
  | @store rows rows' input createdAt _ hstore ih =>
    unfold storePack at hstore
    cases hpacked : assemblePack P input with
    | error m =>
      rw [hpacked] at hstore
      cases hstore
    | ok packed =>
      rw [hpacked] at hstore
      cases hstore
      rcases List.mem_append.1 hrow with hrow | hrow
      · exact ih hrow
      · rw [List.mem_singleton.1 hrow]
        exact ⟨input, packed, hpacked, rfl, rfl⟩

theorem findPackByManifest_some {sha : JsString} (h : findPackByManifest rows sha = some row) :
    row ∈ rows ∧ row.manifestSha256 = sha := by
  have hmem := List.mem_filter.1 (List.mem_mergeSort.1 (List.mem_of_head? h))
  exact ⟨hmem.1, of_decide_eq_true hmem.2⟩

theorem findPackByManifest_isSome {sha : JsString} (hrow : row ∈ rows) (hsha : row.manifestSha256 = sha) :
    (findPackByManifest rows sha).isSome := by
  rw [findPackByManifest, List.isSome_head?]
  exact List.ne_nil_of_mem (List.mem_mergeSort.2 (List.mem_filter.2 ⟨hrow, decide_eq_true hsha⟩))

end Table

section Authentic

variable {P : Platform ν α} {rows : List (PackRow α)} {zip : α} {e e' : Entries}

/-- The same entries, with the same content except for `SHA256SUMS`. -/
def SameFiles (e e' : Entries) : Prop := (∀ p, p ∈ e.keys ↔ p ∈ e'.keys) ∧ ∀ p, p ≠ SUMS → e.get? p = e'.get? p

/-- Different contents of one path have different digests. -/
def NoCollision (P : Platform ν α) (e e' : Entries) : Prop :=
  ∀ p b b', e.get? p = some b → e'.get? p = some b' → P.sha256 b = P.sha256 b' → b = b'

variable [DecidableEq ν]

/-- A clean archive with the manifest of an assembled pack holds the files of that pack. -/
theorem sameFiles_of_clean {i : AssembleInput ν} (hm : e.get? MANIFEST = some (manifestBytes P i))
    (hclean : Clean P e (P.sha256 (manifestBytes P i)) (manifestOf P i).files) (hsha : NoCollision P e (tree P i)) :
    SameFiles e (tree P i) := by
  have hfile : ∀ p, p ≠ MANIFEST → p ≠ SUMS → e.get? p = (tree P i).get? p := by
    intro p hpm hps
    cases hd : (tree P i).get? p with
    | some d =>
      obtain ⟨f, hf, rfl, rfl⟩ := exists_file_of_tree hpm hps hd
      obtain ⟨b, hb, -, hdigest⟩ := intact_manifestFile (hclean.intact _ (List.mem_map_of_mem hf))
      rw [hb, hsha _ _ _ hb hd hdigest]
    | none =>
      cases hb : e.get? p with
      | none => rfl
      | some b =>
        obtain ⟨m, hmem, hpath⟩ := hclean.listed p (Entries.mem_keys_iff.2 ⟨b, hb⟩) hpm hps
        obtain ⟨f, hf, rfl⟩ := List.mem_map.1 hmem
        have hproto : p ≠ PROTO := by
          rintro rfl
          cases (Entries.get?_proto e).symm.trans hb
        rw [tree_file hpm hps, if_neg hproto, Option.map_eq_none_iff, List.find?_eq_none] at hd
        exact absurd (decide_eq_true hpath) (hd f (List.mem_reverse.2 hf))
  have hall : ∀ p, p ≠ SUMS → e.get? p = (tree P i).get? p := by
    intro p hps
    by_cases hpm : p = MANIFEST
    · rw [hpm, hm, tree_manifest]
    · exact hfile p hpm hps
  refine ⟨fun p => ?_, hall⟩
  rw [Entries.mem_keys_iff, Entries.mem_keys_iff]
  by_cases hps : p = SUMS
  · obtain ⟨sBytes, hs, -⟩ := hclean.sums
    rw [hps, hs, tree_sums]
    exact ⟨fun _ => ⟨_, rfl⟩, fun _ => ⟨_, rfl⟩⟩
  · rw [hall p hps]

/-- What an authentic answer rests on. -/
theorem ok_of_authentic {v : PackVerification ν} (hv : verifyUploadedPack P rows zip = some v)
    (hauth : v.verdict = .authentic) : ∃ r, verifyPack P zip = some r ∧ r.ok = true ∧
      r.manifestSha256 = v.manifestSha256 ∧ ∃ row ∈ rows, some row.manifestSha256 = v.manifestSha256 := by
  obtain ⟨r, hr, hv⟩ := Option.bind_eq_some_iff.1 hv
  cases hv
  simp only at hauth
  split_ifs at hauth with hnone hok hissued
  rw [Bool.not_eq_true', Bool.not_eq_false] at hok
  obtain ⟨row, hrow⟩ := Option.isSome_iff_exists.1 hissued
  obtain ⟨sha, hsha, hfind⟩ := Option.bind_eq_some_iff.1 hrow
  obtain ⟨hmem, hdigest⟩ := findPackByManifest_some hfind
  exact ⟨r, hr, hok, rfl, row, hmem, by rw [hdigest, hsha]⟩

/-- An archive without problems whose digest is on record is called authentic. -/
theorem authentic_of_ok {r : VerifyResult ν} (hr : verifyPack P zip = some r) (hok : r.ok = true) {row : PackRow α}
    (hrow : row ∈ rows) (hsha : r.manifestSha256 = some row.manifestSha256) :
    ∃ v, verifyUploadedPack P rows zip = some v ∧ v.verdict = .authentic := by
  have hissued : (r.manifestSha256.bind (findPackByManifest rows)).isSome := by
    rw [hsha]
    exact findPackByManifest_isSome hrow rfl
  rw [verifyUploadedPack, hr]
  refine ⟨_, rfl, ?_⟩
  simp only [hok, hsha, Option.isNone_some, Bool.not_true, Bool.false_eq_true, if_false] at hissued ⊢
  exact if_pos hissued

/-- An archive that is called authentic holds the files of every pack on record under its manifest digest. -/
theorem authentic_sameFiles (hrows : Issued P rows)
    (hsha : ∀ e, P.zip.unzipSync zip = .ok e → ∀ row ∈ rows, ∀ e', P.zip.unzipSync row.zip = .ok e' → NoCollision P e e')
    {v : PackVerification ν} (hv : verifyUploadedPack P rows zip = some v) (hauth : v.verdict = .authentic) :
    ∃ e, P.zip.unzipSync zip = .ok e ∧ (∃ row ∈ rows, some row.manifestSha256 = v.manifestSha256) ∧
      ∀ row ∈ rows, some row.manifestSha256 = v.manifestSha256 →
        ∃ e', P.zip.unzipSync row.zip = .ok e' ∧ SameFiles e e' := by
  obtain ⟨r, hr, hok, hdigest, hissued⟩ := ok_of_authentic hv hauth
  obtain ⟨e, mBytes, listing, hzip, hm, -, hsum⟩ := manifest_of_ok hr hok
  refine ⟨e, hzip, hissued, fun row hrow hrowDigest => ?_⟩
  obtain ⟨input, packed, hpacked, hrowZip, hrowSha⟩ := assembled_of_issued hrows hrow
  have ha := accepted hpacked
  have hunzip : P.zip.unzipSync row.zip = .ok (tree P input) := by
    rw [hrowZip]
    exact ha.unzip
  have hno := hsha e hzip row hrow _ hunzip
  have hmanifest : mBytes = manifestBytes P input := by
    refine hno MANIFEST _ _ hm tree_manifest ?_
    rw [hrowSha, ha.digest, ← hdigest, hsum] at hrowDigest
    exact (Option.some.inj hrowDigest).symm
  subst hmanifest
  exact ⟨tree P input, hunzip, sameFiles_of_clean hm (clean_of_ok hzip hm listedFiles_parse hr hok) hno⟩

theorem authentic_sameFiles_reissued : ∃ rows zip v e, Issued simplePlatform rows ∧
    verifyUploadedPack simplePlatform rows zip = some v ∧ v.verdict = .authentic ∧
    simplePlatform.zip.unzipSync zip = .ok e ∧
    ∀ row ∈ rows, some row.manifestSha256 = v.manifestSha256 →
      ∃ e', simplePlatform.zip.unzipSync row.zip = .ok e' ∧ SameFiles e e' := by
  obtain ⟨packed, hpacked⟩ := exists_packed (i := plainInput) (by decide +kernel)
  have ha := accepted hpacked
  have hverify := verifyPack_of_clean ha.unzip tree_manifest listedFiles_parse (clean_of_survives ha survives_plainInput)
  have hstore : storePack simplePlatform [] plainInput 0 = .ok [⟨plainInput.packId, plainInput.target.name,
      plainInput.libraryVersion, packed.manifestSha256, packed.zip, plainInput.generatedBy, 0⟩] := by
    rw [storePack, hpacked]
    rfl
  have hrows := Issued.store .nil hstore
  obtain ⟨v, hv, hauth⟩ := authentic_of_ok hverify rfl (List.mem_singleton_self ⟨plainInput.packId,
    plainInput.target.name, plainInput.libraryVersion, packed.manifestSha256, packed.zip, plainInput.generatedBy, 0⟩)
    (congrArg some ha.digest.symm)
  obtain ⟨e, hzip, -, hsame⟩ := authentic_sameFiles hrows (fun e he row hrow e' he' p b b' hb hb' _ => by
    rw [List.mem_singleton.1 hrow] at he'
    cases he.symm.trans he'
    exact Option.some.inj (hb.symm.trans hb')) hv hauth
  exact ⟨_, packed.zip, v, e, hrows, hv, hauth, hzip, hsame⟩

end Authentic

end CronMonitor.LoadTest.Pack
