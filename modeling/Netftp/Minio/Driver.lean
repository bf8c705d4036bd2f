import Netftp.Client
import Netftp.Path

/-!
# The minio driver

The `Driver` of `src/driver/minio/minio.go`, which keeps the FTP tree in one bucket: a file
`/a/b` is the object `a/b`, and a directory `/a` is the marker object `a/` that `MakeDir`
creates, or only the common prefix `a/` of the objects below it. Each method is a `Client`
computation over the bucket; the `ctx *server.Context` argument is not read by any of them and
is left out.

## Main definitions

* `Netftp.Minio.buildMinioPath`, `Netftp.Minio.buildMinioDir` — the key of a file and the
  marker key of a directory.
* `Netftp.Minio.FileInfo` — `minioFileInfo`, what `Stat` and `ListDir` report.
* `Netftp.Minio.Driver.stat`, `isDir`, `listDir`, `deleteDir`, `deleteFile`, `rename`,
  `makeDir`, `getFile`, `putFile` — the driver's methods.

## Main results

* `Netftp.Minio.buildMinioPath_toPath`, `Netftp.Minio.buildMinioDir_toPath` — the keys of a
  cleaned absolute path.

## Design

`ListDir` hands each entry to a callback and returns an error; the callback is a function
`FileInfo → Except Error Unit`, and `listDir` returns the entries it handed over, in order,
with what `ListDir` returns. The deferred `DeleteFile` of `PutFile` is `Client.deferring`: it
runs after the body and its error is only logged, so the body's result stands.
-/

set_option autoImplicit false

namespace Netftp

namespace Minio

open Client

/-- `buildMinioPath`: the key of a path, without its leading `'/'`. -/
def buildMinioPath (p : List Char) : List Char := trimPrefix p ['/']

/-- `buildMinioDir`: the key of a path followed by `'/'`, the marker of a directory. -/
def buildMinioDir (p : List Char) : List Char :=
  let v := buildMinioPath p
  if !hasSuffix v ['/'] then v ++ ['/'] else v

/-- `minioFileInfo`: the name `Name()` reports, the object's info (whose `Size` is `Size()`),
and `IsDir()`. -/
structure FileInfo where
  p : List Char
  info : ObjectInfo
  isDir : Bool
  deriving DecidableEq, Repr

namespace Driver

/-- `Driver.isDir`: whether the marker of `path` exists, or any object lies under it. -/
def isDir (path : List Char) : Client Bool := do
  let p := buildMinioDir path
  match ← attempt (statObject p) with
  | .ok info => return hasSuffix info.key ['/']
  | .error _ =>
    let objects ← listObjects p false
    return objects.any fun object => hasPrefix object.key p

/-- `Driver.Stat`. -/
def stat (path : List Char) : Client FileInfo := do
  if path = ['/'] then return { p := ['/'], info := default, isDir := true }
  let p := buildMinioPath path
  match ← attempt (statObject p) with
  | .error _ =>
    if ← isDir p then return { p := path, info := default, isDir := true }
    throw .notADirectory
  | .ok objInfo => return { p := p, info := objInfo, isDir := hasSuffix objInfo.key ['/'] }

/-- The loop of `Driver.ListDir` over the objects listed under `p`: the entries handed to
`callback`, in order, and what `ListDir` returns. -/
def visitObjects (p : List Char) (callback : FileInfo → Except Error Unit) :
    List ObjectInfo → List FileInfo × Except Error Unit
  | [] => ([], .ok ())
  | object :: objects =>
    match object.err with
    | some e => ([], .error e)
    | none =>
      -- ignore itself
      if object.key = p then visitObjects p callback objects
      else
        let info : FileInfo :=
          { p := trimPrefix object.key p, info := object, isDir := hasSuffix object.key ['/'] }
        match callback info with
        | .error e => ([info], .error e)
        | .ok () => ((info :: (visitObjects p callback objects).1),
            (visitObjects p callback objects).2)

/-- `Driver.ListDir`: the entries handed to `callback`, and what `ListDir` returns. -/
def listDir (path : List Char) (callback : FileInfo → Except Error Unit) :
    Client (List FileInfo × Except Error Unit) := do
  let p := buildMinioDir path
  let p := if p = ['/'] then [] else p
  let objects ← listObjects p false
  return visitObjects p callback objects

/-- The loop both driver revisions run in `DeleteDir`: remove each listed object in turn,
stopping at the first error. -/
def removeObjects : List ObjectInfo → Client Unit
  | [] => pure ()
  | object :: objects => do
    if let some e := object.err then throw e
    removeObject object.key
    removeObjects objects

/-- The body of `DeleteDir` in both driver revisions: list what lies under `p`, recursively or
folded at the next `'/'`, and remove each listed key in turn. -/
def removeListed (p : List Char) (recursive : Bool) : Client Unit := do
  let objects ← listObjects p recursive
  removeObjects objects

/-- `Driver.DeleteDir`: remove every object whose key starts with `buildMinioPath path`. -/
def deleteDir (path : List Char) : Client Unit :=
  removeListed (buildMinioPath path) true

/-- `Driver.DeleteFile`. -/
def deleteFile (path : List Char) : Client Unit :=
  removeObject (buildMinioPath path)

/-- `Driver.Rename`: copy the object, then remove the original. -/
def rename (fromPath toPath : List Char) : Client Unit := do
  let src := buildMinioPath fromPath
  let dst ← newDestinationInfo (buildMinioPath toPath)
  copyObject dst src
  removeObject (buildMinioPath fromPath)

/-- `Driver.MakeDir`: store an empty marker object. -/
def makeDir (path : List Char) : Client Unit := do
  let dirPath := buildMinioDir path
  let _ ← putObject dirPath []

/-- `Driver.GetFile`: the number of bytes left after `offset`, and the object positioned at
`offset`. -/
def getFile (path : List Char) (offset : Int) : Client (Int × Object) := do
  let object ← getObject (buildMinioPath path)
  let object ← object.seek offset
  let (info, object) ← object.stat
  return ((info.size : Int) - offset, object)

/-- The body of `Driver.PutFile` for a resumed upload, once the temporary object `tempFile` and
its deferred removal are set up (`src/driver/minio/minio.go`, lines 265-287): the object `p`
must be `offset` bytes long; the data is uploaded to `tempFile`, and `p` becomes the compose
of `tempFile` and `p`, in that order. -/
def putFileResume (p tempFile : List Char) (data : List UInt8) (offset : Int) : Client Nat := do
  let info ← statObject p
  if offset ≠ info.size then throw (.unsupportedOffset offset info.size)
  let size ← putObject tempFile data
  let dst ← newDestinationInfo p
  composeObject dst [tempFile, p]
  return size

/-- `Driver.PutFile`: with offset `-1` the object is uploaded whole; otherwise the resumed
upload runs with `driver.DeleteFile(ctx, tempFile)` deferred. -/
def putFile (destPath : List Char) (data : List UInt8) (offset : Int) : Client Nat := do
  let p := buildMinioPath destPath
  if offset = -1 then
    let size ← putObject p data
    return size
  let tempFile := p ++ ['.', 't', 'm', 'p']
  deferring (putFileResume p tempFile data offset) (deleteFile tempFile)

end Driver

/-! ### The keys of a path -/

/-- A directory's marker ends in `'/'`. -/
lemma hasSuffix_buildMinioDir (p : List Char) : hasSuffix (buildMinioDir p) ['/'] = true := by
  unfold buildMinioDir
  dsimp only
  split_ifs with h
  · exact hasSuffix_iff.2 (List.suffix_append _ _)
  · simpa using h

lemma slash_mem_buildMinioDir (p : List Char) : '/' ∈ buildMinioDir p :=
  (hasSuffix_iff.1 (hasSuffix_buildMinioDir p)).subset (List.mem_singleton_self _)


/-- The key of a cleaned absolute path: its elements joined by `'/'`. -/
@[simp] lemma buildMinioPath_toPath (d : AbsPath) :
    buildMinioPath d.toPath = ['/'].intercalate d.names :=
  trimPrefix_append ['/'] _

/-- The joined elements of a cleaned path do not end in `'/'`: the last one is a name. -/
lemma not_slash_suffix_intercalate (d : AbsPath) : ¬ ['/'] <:+ ['/'].intercalate d.names := by
  rintro ⟨t, ht⟩
  rcases List.eq_nil_or_concat d.names with h | ⟨l, s, h⟩
  · simp [h, List.intercalate] at ht
  · have hs := d.isName s (by simp [h])
    obtain ⟨s', c, rfl⟩ := (List.eq_nil_or_concat s).resolve_left hs.ne_nil
    have hend : ∃ X, ['/'].intercalate d.names = X ++ (s' ++ [c]) := by
      rw [h, List.concat_eq_append]
      rcases eq_or_ne l [] with rfl | hl
      · exact ⟨[], by simp [List.intercalate]⟩
      · exact ⟨['/'].intercalate l ++ ['/'], by rw [intercalate_append_singleton hl]; simp⟩
    obtain ⟨X, hX⟩ := hend
    rw [hX] at ht
    have hc : '/' = c := by simpa using congrArg List.getLast? ht
    exact hs.slash_not_mem (by simp [← hc])

@[simp] lemma hasSuffix_intercalate (d : AbsPath) :
    hasSuffix (['/'].intercalate d.names) ['/'] = false :=
  Bool.eq_false_iff.2 fun h => not_slash_suffix_intercalate d (hasSuffix_iff.1 h)

/-- The marker key of a cleaned absolute path: its key followed by `'/'` (for the root,
`'/'` alone). -/
@[simp] lemma buildMinioDir_toPath (d : AbsPath) :
    buildMinioDir d.toPath = ['/'].intercalate d.names ++ ['/'] := by
  simp [buildMinioDir]

end Minio

end Netftp
