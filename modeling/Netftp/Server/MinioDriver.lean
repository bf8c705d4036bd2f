import Netftp.Minio.DeleteDir

/-!
# The older minio driver: `server.MinioDriver`

The first revision of the minio driver (`src/unnamed/part_001`), which lived in the `server`
package. It keeps files as objects under the same keys as the later `Driver`, but knows no
directory markers: `MakeDir` does nothing, `Stat` reports an object as a file whatever its key,
and `isDir`, `ListDir` and `DeleteDir` list under the bare key of the path, with no trailing
`'/'`. `GetFile` refuses an offset above `0`, and `PutFile` refuses to append.

## Main definitions

* `Netftp.Server.buildMinioPath` — the key of a path.
* `Netftp.Server.MinioDriver.isDir`, `stat`, `listDir`, `deleteDir`, `deleteFile`, `rename`,
  `makeDir`, `getFile`, `putFile`, `changeDir` — the driver's methods.

## Main results

* `Netftp.Server.MinioDriver.deleteDir_keeps_nested` — `DeleteDir` never touches a key that
  lies two or more levels below the path's key: it lists without recursion and removes the
  common prefixes it is handed as if they were objects.
* `Netftp.Server.MinioDriver.getFile_reads_back_putFile` — what `PutFile` stores, `GetFile`
  serves back whole, for every offset up to `0`.

## Design

`minioFileInfo` of this revision also carries the driver's `Perm`, read only by `Mode`,
`Owner` and `Group`; no modelled method reads them, and the permission is left out, so the
entries are `Netftp.Minio.FileInfo`. The `Init` hook does nothing and is left out.
-/

set_option autoImplicit false

namespace Netftp

namespace Server

open Client

/-- `buildMinioPath`: the key of a path, without its leading `'/'`. -/
def buildMinioPath (p : List Char) : List Char := trimPrefix p ['/']

namespace MinioDriver

/-- `MinioDriver.ChangeDir`: not implemented. -/
def changeDir (_path : List Char) : Client Unit := throw .notImplemented

/-- `MinioDriver.isDir`: whether the delimited listing under the bare key of `path` delivers
anything; the error of its first item, if that carries one. -/
def isDir (path : List Char) : Client Bool := do
  let p := buildMinioPath path
  let objects ← listObjects p false
  match objects with
  | [] => return false
  | object :: _ =>
    if let some e := object.err then throw e
    return true

/-- `MinioDriver.Stat`: an object is reported as a file, whatever its key. -/
def stat (path : List Char) : Client Minio.FileInfo := do
  if path = ['/'] then return { p := ['/'], info := default, isDir := true }
  let p := buildMinioPath path
  match ← attempt (statObject p) with
  | .error _ =>
    if ← isDir path then return { p := path, info := default, isDir := true }
    throw .notADirectory
  | .ok objInfo => return { p := p, info := objInfo, isDir := false }

/-- The loop of `MinioDriver.ListDir`: every listed item is handed to `callback` under its whole
key, as a file. -/
def visitObjects (callback : Minio.FileInfo → Except Error Unit) :
    List ObjectInfo → List Minio.FileInfo × Except Error Unit
  | [] => ([], .ok ())
  | object :: objects =>
    match object.err with
    | some e => ([], .error e)
    | none =>
      let info : Minio.FileInfo := { p := object.key, info := object, isDir := false }
      match callback info with
      | .error e => ([info], .error e)
      | .ok () => ((info :: (visitObjects callback objects).1), (visitObjects callback objects).2)

/-- `MinioDriver.ListDir`: the entries handed to `callback`, and what `ListDir` returns. -/
def listDir (path : List Char) (callback : Minio.FileInfo → Except Error Unit) :
    Client (List Minio.FileInfo × Except Error Unit) := do
  let p := buildMinioPath path
  let objects ← listObjects p false
  return visitObjects callback objects

/-- `MinioDriver.DeleteDir`: remove each item of the delimited listing under the bare key of
`path`. -/
def deleteDir (path : List Char) : Client Unit :=
  Minio.Driver.removeListed (buildMinioPath path) false

/-- `MinioDriver.DeleteFile`. -/
def deleteFile (path : List Char) : Client Unit :=
  removeObject (buildMinioPath path)

/-- `MinioDriver.Rename`: copy the object, then remove the original. -/
def rename (fromPath toPath : List Char) : Client Unit := do
  let src := buildMinioPath fromPath
  let dst ← newDestinationInfo (buildMinioPath toPath)
  copyObject dst src
  removeObject (buildMinioPath fromPath)

/-- `MinioDriver.MakeDir`: nothing is stored. -/
def makeDir (_path : List Char) : Client Unit := pure ()

/-- `MinioDriver.GetFile`: only offset `0` (or below) is served; the size of the object, and
the object after its `Stat`. -/
def getFile (path : List Char) (offset : Int) : Client (Int × Object) := do
  if offset > 0 then throw .notImplemented
  let object ← getObject (buildMinioPath path)
  let (info, object) ← object.stat
  return (info.size, object)

/-- `MinioDriver.PutFile`: the object is uploaded whole; appending is not implemented. -/
def putFile (destPath : List Char) (data : List UInt8) (appendData : Bool) : Client Nat :=
  if !appendData then putObject (buildMinioPath destPath) data
  else throw .notImplemented

/-! ### `DeleteDir` -/

/-- **`DeleteDir` leaves the nested keys.** Whichever requests fail and whatever it returns,
`DeleteDir path` leaves every key `p ++ t ++ "/" ++ u` with `t` free of `'/'` and `u` non-empty,
where `p` is the path's key: the delimited listing folds such a key into its common prefix
`p ++ t ++ "/"`, and removing that prefix removes at most a marker object of that name.

**Proof sketch.** The loop changes only the listed keys; an object the listing reports has no
`'/'` after `p`, and a common prefix ends at the first `'/'` after `p`, so neither is the
nested key. -/
theorem deleteDir_keeps_nested (path t u : List Char) (ht : '/' ∉ t) (hu : u ≠ []) (b : Bucket) :
    (bucketOf (deleteDir path b)).store.lookup (buildMinioPath path ++ t ++ '/' :: u) =
      b.store.lookup (buildMinioPath path ++ t ++ '/' :: u) := by
  refine (Minio.Driver.removeListed_run (buildMinioPath path) false b).1 _ fun hm => ?_
  rcases Store.mem_keys_listObjects_false.1 hm with ⟨-, r, he, hr⟩ | ⟨t', ht', he, -⟩ <;>
    simp only [List.append_assoc, List.append_cancel_left_eq] at he
  · -- an object the listing reports has no `'/'` after the prefix
    exact hr (by simp [← he])
  · -- a common prefix ends at the first `'/'` after the prefix
    have hsame := congrArg (List.takeWhile (· != '/')) he
    rw [takeWhile_append_slash u ht, takeWhile_append_slash [] ht'] at hsame
    subst hsame
    exact hu (by simpa using he)

theorem deleteDir_keeps_nested_a :
    '/' ∉ ['b'] ∧ ['c'] ≠ [] ∧
    (bucketOf (deleteDir ['/', 'a'] ⟨(∅ : Store).insert ['a', 'b', '/', 'c'] [], []⟩)).store.lookup
        (buildMinioPath ['/', 'a'] ++ ['b'] ++ '/' :: ['c']) =
      ((∅ : Store).insert ['a', 'b', '/', 'c'] []).lookup
        (buildMinioPath ['/', 'a'] ++ ['b'] ++ '/' :: ['c']) :=
  ⟨by decide, by decide, deleteDir_keeps_nested _ _ _ (by decide) (by decide) _⟩

/-- Deleting the directory `/foo` from a bucket holding `foo/x` and its sibling `foobar` returns
nil, removes `foobar`, which does not lie under `foo/`, and leaves `foo/x`, which does. -/
theorem deleteDir_keeps_child_removes_sibling :
    deleteDir ['/', 'f', 'o', 'o'] ⟨((∅ : Store).insert ['f', 'o', 'o', '/', 'x'] []).insert
        ['f', 'o', 'o', 'b', 'a', 'r'] [], []⟩ =
      .ok () ⟨(∅ : Store).insert ['f', 'o', 'o', '/', 'x'] [], []⟩ :=
  rfl

/-! ### `PutFile` and `GetFile` -/

/-- `GetFile` of a path whose key minio-go sends and which holds `v`, when no request fails: an
offset above `0` is refused, and any other serves the whole object from its start, with its
size. -/
lemma getFile_of_lookup (path : List Char) (σ : Store) {v : List UInt8}
    (hp : ValidObjectName (buildMinioPath path)) (hv : σ.lookup (buildMinioPath path) = some v)
    (offset : Int) :
    getFile path offset ⟨σ, []⟩ = if offset > 0 then .error .notImplemented ⟨σ, []⟩
      else .ok (v.length, ⟨buildMinioPath path,
        some ({ key := buildMinioPath path, size := v.length }, v), 0⟩) ⟨σ, []⟩ := by
  split_ifs with ho
  · simp [getFile, ho]
  · simp [getFile, ho, getObject_apply, checkValidObjectName_eq_ok.2 hp, Object.stat_apply, hv]

/-- **What `PutFile` stores, `GetFile` serves back, from the start only.** Whichever requests
fail, once `PutFile(path, data, false)` has returned a size, that size is the data's, and on a
reliable network `GetFile path k` serves the whole data with its size for every offset `k ≤ 0`
(a negative offset is read as `0`), and refuses every offset above `0` as not implemented. -/
theorem getFile_reads_back_putFile (path : List Char) (data : List UInt8) {n : Nat}
    {b b' : Bucket} (hput : putFile path data false b = .ok n b') :
    n = data.length ∧
    (∀ k : Int, k ≤ 0 → ∃ o, getFile path k ⟨b'.store, []⟩ =
      .ok (data.length, o) ⟨b'.store, []⟩ ∧ o.bytes = data) ∧
    ∀ k : Int, 0 < k → getFile path k ⟨b'.store, []⟩ = .error .notImplemented ⟨b'.store, []⟩ := by
  simp only [putFile, Bool.not_false, if_true, putObject_apply] at hput
  rcases checkValidObjectName_cases (buildMinioPath path) with ⟨hp, hc⟩ | ⟨-, e, hc⟩ <;>
    simp only [hc] at hput
  swap
  · cases hput
  split_ifs at hput
  cases hput
  have hv : (b.store.insert (buildMinioPath path) data).lookup (buildMinioPath path) = some data :=
    AList.lookup_insert _
  refine ⟨rfl, fun k hk => ⟨⟨buildMinioPath path,
      some ({ key := buildMinioPath path, size := data.length }, data), 0⟩,
    by rw [getFile_of_lookup path _ hp hv, if_neg (not_lt.2 hk)], rfl⟩,
    fun k hk => by rw [getFile_of_lookup path _ hp hv, if_pos hk]⟩

/-- `getFile_reads_back_putFile` for two bytes uploaded to `/a` on the empty store. -/
theorem getFile_reads_back_putFile_a :
    putFile ['/', 'a'] [1, 2] false ⟨∅, []⟩ = .ok 2 ⟨(∅ : Store).insert ['a'] [1, 2], []⟩ ∧
    2 = ([1, 2] : List UInt8).length ∧
    (∀ k : Int, k ≤ 0 → ∃ o, getFile ['/', 'a'] k ⟨(∅ : Store).insert ['a'] [1, 2], []⟩ =
      .ok (([1, 2] : List UInt8).length, o) ⟨(∅ : Store).insert ['a'] [1, 2], []⟩ ∧
        o.bytes = [1, 2]) ∧
    ∀ k : Int, 0 < k → getFile ['/', 'a'] k ⟨(∅ : Store).insert ['a'] [1, 2], []⟩ =
      .error .notImplemented ⟨(∅ : Store).insert ['a'] [1, 2], []⟩ :=
  have hput : putFile ['/', 'a'] [1, 2] false ⟨∅, []⟩ =
      .ok 2 ⟨(∅ : Store).insert ['a'] [1, 2], []⟩ := rfl
  ⟨hput, getFile_reads_back_putFile _ _ hput⟩

end MinioDriver

end Server

end Netftp
