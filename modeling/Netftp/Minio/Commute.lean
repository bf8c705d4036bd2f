import Netftp.Minio.Reachable

/-!
# Operations on disjoint footprints commute

Two FTP sessions that work on unrelated paths should not see each other. This module proves it
of the minio driver's operations on a reliable network: every operation reads and writes only
the keys of its footprint (`Op.footprint`), so two operations whose footprints are disjoint can
run in either order, each returning the same, and leave the same store.

## Main results

* `Netftp.Minio.Driver.sameOn_run` — on a reliable network, an operation started on two stores
  that agree on its footprint returns the same and leaves stores that agree on its footprint.
* `Netftp.Minio.Driver.run_comm_of_disjoint_footprints` — two operations with disjoint
  footprints commute on every store.

## Design

Locality is `Client.LocalTo`, built call by call: each client call is local to the keys it
reads, and `>>=` and `deferring` keep locality. `DeleteDir` reads the keys under its prefix
through its listing; two stores that agree there are listed alike, page by page and in the same
order (`Store.listPages_congr`), so its removal loop makes the same requests on both.
-/

set_option autoImplicit false

namespace Netftp

namespace Minio

namespace Driver

open Client

variable {keys : List Char → Prop}

/-! ### Each operation reads only its footprint -/

/-- `MakeDir` reads nothing. -/
lemma makeDir_local (path : List Char) : LocalTo keys (makeDir path) :=
  (putObject_local _ []).bind fun _ => .pure _

/-- The resumed upload reads only its target and its temporary object. -/
lemma putFileResume_local (p tempFile : List Char) (data : List UInt8) (offset : Int) :
    LocalTo (fun k => k = p ∨ k = tempFile) (putFileResume p tempFile data offset) := by
  refine (statObject_local (.inl rfl)).bind fun info => ?_
  have hrest : LocalTo (fun k => k = p ∨ k = tempFile) (do
      let size ← putObject tempFile data
      let dst ← newDestinationInfo p
      composeObject dst [tempFile, p]
      pure size) :=
    (putObject_local _ _).bind fun _ => (newDestinationInfo_local _).bind fun dst =>
      (composeObject_local dst (by simp)).bind fun _ => .pure _
  dsimp only
  split_ifs
  · exact (LocalTo.throw _).bind fun _ => hrest
  · exact (LocalTo.pure _).bind fun _ => hrest

lemma putFile_local (d : AbsPath) (data : List UInt8) (offset : Int) :
    LocalTo (fun k => k = buildMinioPath d.toPath ∨
      k = buildMinioPath d.toPath ++ ['.', 't', 'm', 'p']) (putFile d.toPath data offset) := by
  simp only [putFile, buildMinioPath_toPath, deleteFile, buildMinioPath_temp]
  split_ifs
  · exact (putObject_local _ data).bind fun _ => .pure _
  · exact (LocalTo.pure ()).bind fun _ =>
      (putFileResume_local _ _ data offset).deferring (removeObject_local _)

/-- `Rename` reads only its source. -/
lemma rename_local (fromPath toPath : List Char) :
    LocalTo (fun k => k = buildMinioPath fromPath ∨ k = buildMinioPath toPath)
      (rename fromPath toPath) :=
  (newDestinationInfo_local _).bind fun dst =>
    (copyObject_local dst (.inl rfl)).bind fun _ => removeObject_local _

/-- **One operation depends only on its footprint.** On a reliable network, an operation
started on two stores that agree on its footprint returns the same and leaves stores that agree
on its footprint. -/
lemma sameOn_run (op : Op) {σ₁ σ₂ : Store} (h : Store.AgreeOn op.footprint σ₁ σ₂) :
    SameOn op.footprint (op.run ⟨σ₁, []⟩) (op.run ⟨σ₂, []⟩) := by
  cases op with
  | makeDir d => exact makeDir_local d.toPath σ₁ σ₂ h
  | putFile d data offset => exact ((putFile_local d data offset).bind fun _ => .pure _) σ₁ σ₂ h
  | deleteFile d => exact removeObject_local _ σ₁ σ₂ h
  | deleteDir d => exact deleteDir_local d.toPath (fun _ => id) σ₁ σ₂ h
  | rename fromPath toPath => exact rename_local fromPath.toPath toPath.toPath σ₁ σ₂ h

/-- One operation on a reliable network: the network stays reliable, and every key off the
footprint is as it was. -/
lemma run_reliable (op : Op) (σ : Store) :
    ∃ τ, bucketOf (op.run ⟨σ, []⟩) = ⟨τ, []⟩ ∧ Store.AgreeOff op.footprint σ τ :=
  ⟨_, Bucket.eq_mk_of_faults_nil (sameOn_run op (.refl σ)).2.1, agreeOff_run op ⟨σ, []⟩⟩

/-! ### Commutation -/

/-- **Operations on disjoint footprints commute.** On a reliable network and any store, two
driver operations whose footprints share no key can run in either order: each returns the same
in both orders, and both orders leave every key holding the same.

**Proof sketch.** The first operation changes only its own footprint, so the second one starts
on a store that agrees, on the second's footprint, with the store it would start on if it ran
first; by `sameOn_run` it returns the same and writes the same there. A key of the first
footprint is then set by the first operation alone, a key of the second by the second alone, and
any other key by neither. -/
theorem run_comm_of_disjoint_footprints (a c : Op) (hdis : ∀ k, a.footprint k → ¬ c.footprint k)
    (σ : Store) :
    resultOf (c.run (bucketOf (a.run ⟨σ, []⟩))) = resultOf (c.run ⟨σ, []⟩) ∧
    resultOf (a.run (bucketOf (c.run ⟨σ, []⟩))) = resultOf (a.run ⟨σ, []⟩) ∧
    ∀ k, (bucketOf (c.run (bucketOf (a.run ⟨σ, []⟩)))).store.lookup k =
      (bucketOf (a.run (bucketOf (c.run ⟨σ, []⟩)))).store.lookup k := by
  obtain ⟨σa, ha, hfa⟩ := run_reliable a σ
  obtain ⟨σc, hc, hfc⟩ := run_reliable c σ
  -- each operation, run second, sees on its footprint what it sees when run first
  obtain ⟨hrc, -, -, hac⟩ := sameOn_run c fun k hk => hfa k fun h => hdis k h hk
  obtain ⟨hra, -, -, hca⟩ := sameOn_run a fun k hk => hfc k (hdis k hk)
  rw [ha, hc]
  rw [hc] at hac
  rw [ha] at hca
  refine ⟨hrc, hra, fun k => ?_⟩
  have hfc' := agreeOff_run c ⟨σa, []⟩
  have hfa' := agreeOff_run a ⟨σc, []⟩
  by_cases hka : a.footprint k
  · -- set by the first operation alone
    exact (hfc' k (hdis k hka)).trans (hca k hka).symm
  by_cases hkc : c.footprint k
  · -- set by the second operation alone
    exact (hac k hkc).trans (hfa' k hka).symm
  · -- set by neither
    calc (bucketOf (c.run ⟨σa, []⟩)).store.lookup k = σa.lookup k := hfc' k hkc
      _ = σ.lookup k := hfa k hka
      _ = σc.lookup k := (hfc k hkc).symm
      _ = (bucketOf (a.run ⟨σc, []⟩)).store.lookup k := (hfa' k hka).symm

/-- `run_comm_of_disjoint_footprints` for an upload to `/a` and the removal of the directory
`/b`, on the empty store. -/
theorem run_comm_of_disjoint_footprints_a :
    (∀ k, (Op.putFile ⟨[['a']], by decide⟩ [1] (-1)).footprint k →
      ¬ (Op.deleteDir ⟨[['b']], by decide⟩).footprint k) ∧
    resultOf ((Op.deleteDir ⟨[['b']], by decide⟩).run
        (bucketOf ((Op.putFile ⟨[['a']], by decide⟩ [1] (-1)).run ⟨∅, []⟩))) =
      resultOf ((Op.deleteDir ⟨[['b']], by decide⟩).run ⟨∅, []⟩) ∧
    resultOf ((Op.putFile ⟨[['a']], by decide⟩ [1] (-1)).run
        (bucketOf ((Op.deleteDir ⟨[['b']], by decide⟩).run ⟨∅, []⟩))) =
      resultOf ((Op.putFile ⟨[['a']], by decide⟩ [1] (-1)).run ⟨∅, []⟩) ∧
    ∀ k, (bucketOf ((Op.deleteDir ⟨[['b']], by decide⟩).run
        (bucketOf ((Op.putFile ⟨[['a']], by decide⟩ [1] (-1)).run ⟨∅, []⟩)))).store.lookup k =
      (bucketOf ((Op.putFile ⟨[['a']], by decide⟩ [1] (-1)).run
        (bucketOf ((Op.deleteDir ⟨[['b']], by decide⟩).run ⟨∅, []⟩)))).store.lookup k :=
  ⟨fun k hk => by rcases hk with rfl | rfl <;> decide,
    run_comm_of_disjoint_footprints _ _ (fun k hk => by rcases hk with rfl | rfl <;> decide) ∅⟩

end Driver

end Minio

end Netftp
