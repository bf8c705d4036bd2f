import Netftp.Minio.Lookup

/-!
# Changing objects: `DeleteFile`, `Rename`, `GetFile` and `PutFile`

What the minio driver's object operations do to the bucket, for every store and every point at
which a request can fail in transit.

## Main results

* `Netftp.Minio.Driver.deleteFile_removes_key` — `DeleteFile` changes only the path's key, and
  reports success whenever minio-go sends the key and the request goes through, whatever the
  key held.
* `Netftp.Minio.Driver.rename_moves_object` — a successful `Rename` moves the object, and a
  failed one leaves the original in place and changes at most the destination.
* `Netftp.Minio.Driver.rename_ok` — on a reliable network `Rename` between two names minio-go
  sends returns nil.
* `Netftp.Minio.Driver.getFile_after_putFile` — `GetFile` reads back what `PutFile` wrote.
* `Netftp.Minio.Driver.putFile_changes_only_target` — `PutFile` changes only its target and its
  temporary object, and a failed one leaves its target as it was.
* `Netftp.Minio.Driver.putFile_resume_ok` — a resumed `PutFile` that returns nil puts the data
  before the old content.
* `Netftp.Minio.Driver.rename_agreeOff`, `Netftp.Minio.Driver.putFile_agreeOff` — the keys
  `Rename` and `PutFile` can change, as `Client.Preserves` facts.
-/

set_option autoImplicit false

namespace Netftp

namespace Minio

namespace Driver

open Client

variable (b : Bucket)

/-! ### `DeleteFile` -/

/-- **`DeleteFile` removes one key, whatever that key holds.** `DeleteFile p` changes no key
but `buildMinioPath p`; when it returns nil that key holds no object; and it returns nil
whenever minio-go sends the key (it is not blank and at most 1024 bytes long) and the request
goes through, whether the key held a file, a directory's marker, or nothing at all (S3 deletes a
missing key without complaint). -/
theorem deleteFile_removes_key (path : List Char) :
    (∀ k, k ≠ buildMinioPath path →
      (bucketOf (deleteFile path b)).store.lookup k = b.store.lookup k) ∧
    (∀ b', deleteFile path b = .ok () b' → buildMinioPath path ∉ b'.store) ∧
    (ValidObjectName (buildMinioPath path) → ¬ b.drops → ∃ b', deleteFile path b = .ok () b') := by
  rw [deleteFile, removeObject_apply]
  rcases checkValidObjectName_cases (buildMinioPath path) with ⟨-, hc⟩ | ⟨hv, e, hc⟩ <;>
    simp only [hc]
  · split_ifs with hd
    · exact ⟨fun _ _ => rfl, by simp, fun _ h => absurd hd h⟩
    · exact ⟨fun k hk => AList.lookup_erase_ne hk, by simp [AList.mem_erase], fun _ _ => ⟨_, rfl⟩⟩
  · exact ⟨fun _ _ => rfl, by simp, fun h => absurd h hv⟩

/-- Deleting the directory `/a`, present as its marker `a/`, with `DeleteFile` returns nil,
although `Stat` reports `/a` as a directory. -/
theorem deleteFile_directory_returns_nil :
    deleteFile ['/', 'a'] ⟨(∅ : Store).insert ['a', '/'] [], []⟩ =
        .ok () ⟨(∅ : Store).insert ['a', '/'] [], []⟩ ∧
      stat ['/', 'a'] ⟨(∅ : Store).insert ['a', '/'] [], []⟩ =
        .ok ⟨['/', 'a'], default, true⟩ ⟨(∅ : Store).insert ['a', '/'] [], []⟩ :=
  ⟨rfl, rfl⟩

/-! ### `Rename` -/

/-- **`Rename` never loses the object.** Let the key `f = buildMinioPath from` hold `v`, and
`t = buildMinioPath to`. If `Rename from to` returns nil, the store is the old one with `f`
removed and then `t` set to `v`; if it returns an error, `f` still holds `v` and no key but `t`
has changed. In particular a rename onto itself fails: S3 refuses to copy an object onto
itself, so the removal of `f` that follows the copy never runs.

**Proof sketch.** The copy either fails, leaving the store as it was, or sets `t` to `v`, which
needs `t ≠ f`; the removal of `f` that follows either fails, leaving that, or removes `f`. -/
theorem rename_moves_object (fromPath toPath : List Char) {v : List UInt8}
    (hv : b.store.lookup (buildMinioPath fromPath) = some v) :
    (∀ b', rename fromPath toPath b = .ok () b' → ∀ k, b'.store.lookup k =
      ((b.store.erase (buildMinioPath fromPath)).insert (buildMinioPath toPath) v).lookup k) ∧
    (∀ e b', rename fromPath toPath b = .error e b' →
      b'.store.lookup (buildMinioPath fromPath) = some v ∧
      ∀ k, k ≠ buildMinioPath toPath → b'.store.lookup k = b.store.lookup k) := by
  simp only [rename, bind_apply, newDestinationInfo_apply]
  rcases checkValidObjectName_cases (buildMinioPath toPath) with ⟨-, hc⟩ | ⟨-, e, hc⟩ <;>
    simp only [hc]
  swap
  · simp [hv]
  simp only [copyObject_apply, hv]
  split_ifs with hd htf
  · simp [hv]
  · simp [hv]
  -- the copy has set `t` to `v`; the removal of `f` follows
  have hkept : (b.store.insert (buildMinioPath toPath) v).lookup (buildMinioPath fromPath) = some v ∧
      ∀ k, k ≠ buildMinioPath toPath →
        (b.store.insert (buildMinioPath toPath) v).lookup k = b.store.lookup k :=
    ⟨by rw [AList.lookup_insert_ne (Ne.symm htf), hv], fun k hk => AList.lookup_insert_ne hk⟩
  simp only [removeObject_apply]
  rcases checkValidObjectName_cases (buildMinioPath fromPath) with ⟨-, hc'⟩ | ⟨-, e', hc'⟩ <;>
    simp only [hc']
  · split_ifs
    · exact ⟨fun _ h => (nomatch h), fun _ _ h => by cases h; exact hkept⟩
    · exact ⟨fun _ h _ => by cases h; rw [Store.erase_insert_of_ne htf], fun _ _ h => by cases h⟩
  · exact ⟨fun _ h => (nomatch h), fun _ _ h => by cases h; exact hkept⟩

/-- **`Rename` succeeds on a reliable network.** When the key `f = buildMinioPath from` holds
`v`, both `f` and `t = buildMinioPath to` are names minio-go sends, and `t ≠ f`, `Rename from to`
returns nil, leaving `f` removed and `t` set to `v`. -/
lemma rename_ok (fromPath toPath : List Char) {σ : Store} {v : List UInt8}
    (hv : σ.lookup (buildMinioPath fromPath) = some v) (hf : ValidObjectName (buildMinioPath fromPath))
    (ht : ValidObjectName (buildMinioPath toPath))
    (hne : buildMinioPath toPath ≠ buildMinioPath fromPath) :
    rename fromPath toPath ⟨σ, []⟩ =
      .ok () ⟨(σ.erase (buildMinioPath fromPath)).insert (buildMinioPath toPath) v, []⟩ := by
  simp [rename, newDestinationInfo_apply, copyObject_apply, removeObject_apply,
    checkValidObjectName_eq_ok.2 hf, checkValidObjectName_eq_ok.2 ht, hv, hne,
    Store.erase_insert_of_ne hne]

theorem rename_moves_object_a :
    rename ['/', 'a'] ['/', 'b'] ⟨(∅ : Store).insert ['a'] [1], []⟩ =
      .ok () ⟨(((∅ : Store).insert ['a'] [1]).erase (buildMinioPath ['/', 'a'])).insert
        (buildMinioPath ['/', 'b']) [1], []⟩ ∧
    ((∅ : Store).insert ['a'] [1]).lookup (buildMinioPath ['/', 'a']) = some [1] ∧
    (∀ b', rename ['/', 'a'] ['/', 'b'] ⟨(∅ : Store).insert ['a'] [1], []⟩ = .ok () b' →
      ∀ k, b'.store.lookup k = ((((∅ : Store).insert ['a'] [1]).erase (buildMinioPath ['/', 'a'])).insert
        (buildMinioPath ['/', 'b']) [1]).lookup k) ∧
    (∀ e b', rename ['/', 'a'] ['/', 'b'] ⟨(∅ : Store).insert ['a'] [1], []⟩ = .error e b' →
      b'.store.lookup (buildMinioPath ['/', 'a']) = some [1] ∧
      ∀ k, k ≠ buildMinioPath ['/', 'b'] →
        b'.store.lookup k = ((∅ : Store).insert ['a'] [1]).lookup k) :=
  ⟨rename_ok ['/', 'a'] ['/', 'b'] rfl (by decide) (by decide) (by decide), rfl,
    rename_moves_object ⟨(∅ : Store).insert ['a'] [1], []⟩ ['/', 'a'] ['/', 'b'] rfl⟩

/-- `Rename` changes no key but those of its two paths, whichever requests fail. -/
lemma rename_agreeOff (fromPath toPath : List Char) :
    Preserves (Store.AgreeOff fun k => k = buildMinioPath fromPath ∨ k = buildMinioPath toPath)
      (rename fromPath toPath) := fun b => by
  simp only [rename, bind_apply, newDestinationInfo_apply]
  rcases checkValidObjectName_cases (buildMinioPath toPath) with ⟨-, hc⟩ | ⟨-, e, hc⟩ <;>
    simp only [hc]
  swap
  · rfl
  simp only [copyObject_apply]
  split_ifs
  · rfl
  · rcases b.store.lookup (buildMinioPath fromPath) with _ | v <;> rfl
  · rcases b.store.lookup (buildMinioPath fromPath) with _ | v
    · rfl
    · exact (Store.AgreeOff.insert (.inr rfl) v).trans
        ((removeObject_agreeOff _ _).mono fun _ => Or.inl)

/-! ### `GetFile` -/

/-- What `GetFile path offset` does: it stats the object when it seeks, and positions the
stream at `offset` when `0 ≤ offset ≤ size`. -/
lemma getFile_apply (path : List Char) (offset : Int) : getFile path offset b =
    match S3Utils.checkValidObjectName (buildMinioPath path) with
    | .error e => .error e b
    | .ok () =>
      if offset < 0 then .error .negativePosition b
      else if b.drops then .error .network ⟨b.store, b.faults.tail⟩
      else match b.store.lookup (buildMinioPath path) with
        | none => .error .noSuchKey ⟨b.store, b.faults.tail⟩
        | some v =>
          if (v.length : Int) < offset then .error .eof ⟨b.store, b.faults.tail⟩
          else .ok ((v.length : Int) - offset, ⟨buildMinioPath path,
            some ({ key := buildMinioPath path, size := v.length }, v), offset.toNat⟩)
            ⟨b.store, b.faults.tail⟩ := by
  rcases checkValidObjectName_cases (buildMinioPath path) with ⟨-, hc⟩ | ⟨-, e, hc⟩
  swap
  · simp [getFile, getObject_apply, hc]
  simp only [getFile, bind_apply, getObject_apply, hc, Object.seek_apply]
  split_ifs with hn hd
  · rfl
  · rfl
  rcases b.store.lookup (buildMinioPath path) with _ | v
  · rfl
  · simp only
    split_ifs <;> rfl

/-- The count `GetFile` returns is the number of bytes its stream yields, never negative. -/
lemma getFile_count_eq_bytes {path : List Char} {offset : Int} {c : Int} {o : Object}
    {b' : Bucket} (h : getFile path offset b = .ok (c, o) b') : 0 ≤ c ∧ c = o.bytes.length := by
  rw [getFile_apply] at h
  split at h
  · cases h
  split_ifs at h with hn hd
  rcases hv : b.store.lookup (buildMinioPath path) with _ | v
  · simp [hv] at h
  simp only [hv] at h
  split_ifs at h with hlt
  simp only [EStateM.Result.ok.injEq, Prod.mk.injEq] at h
  obtain ⟨⟨rfl, rfl⟩, rfl⟩ := h
  simp only [Object.bytes, List.length_drop]
  omega

/-- **`GetFile` reads back what `PutFile` wrote.** Once `PutFile path data (-1)` has returned,
`GetFile path k` returns the count `|data| - k` and a stream of `data[k:]` for every
`0 ≤ k ≤ |data|`, and an error for every other `k`, whatever the network does; and whatever
it returns, the count is never negative and is the number of bytes the stream yields. -/
theorem getFile_after_putFile (path : List Char) (data : List UInt8) {n : Nat} {b₀ b₁ : Bucket}
    (hput : putFile path data (-1) b₀ = .ok n b₁) :
    (∀ k : Int, 0 ≤ k → k ≤ data.length → ∃ o, getFile path k ⟨b₁.store, []⟩ =
        .ok ((data.length : Int) - k, o) ⟨b₁.store, []⟩ ∧ o.bytes = data.drop k.toNat) ∧
    (∀ k : Int, k < 0 ∨ (data.length : Int) < k →
      ∀ faults, ∃ e b', getFile path k ⟨b₁.store, faults⟩ = .error e b') ∧
    (∀ k (b : Bucket) c o b', getFile path k b = .ok (c, o) b' → 0 ≤ c ∧ c = o.bytes.length) := by
  have hstored : S3Utils.checkValidObjectName (buildMinioPath path) = .ok () ∧
      b₁.store.lookup (buildMinioPath path) = some data := by
    simp only [putFile, if_true, bind_apply, putObject_apply, pure_apply] at hput
    rcases checkValidObjectName_cases (buildMinioPath path) with ⟨-, hc⟩ | ⟨-, e, hc⟩ <;>
      simp only [hc] at hput
    swap
    · cases hput
    split_ifs at hput with hd
    simp only [EStateM.Result.ok.injEq] at hput
    exact ⟨hc, by rw [← hput.2]; exact AList.lookup_insert _⟩
  obtain ⟨hp, hv⟩ := hstored
  refine ⟨fun k h0 hk => ?_, fun k hk faults => ?_, fun k b c o b' => getFile_count_eq_bytes b⟩
  · simp [getFile_apply, hp, hv, not_lt.2 h0, not_lt.2 hk, Object.bytes]
  · -- every branch but the one `hk` rules out is an error
    simp only [getFile_apply, hp, hv]
    split_ifs with hn hd hlt <;> try exact ⟨_, _, rfl⟩
    omega

theorem getFile_after_putFile_x :
    putFile ['/', 'x'] [1, 2] (-1) ⟨∅, []⟩ = .ok 2 ⟨(∅ : Store).insert ['x'] [1, 2], []⟩ ∧
    (∀ k : Int, 0 ≤ k → k ≤ 2 → ∃ o, getFile ['/', 'x'] k ⟨(∅ : Store).insert ['x'] [1, 2], []⟩ =
        .ok (2 - k, o) ⟨(∅ : Store).insert ['x'] [1, 2], []⟩ ∧ o.bytes = [1, 2].drop k.toNat) ∧
    (∀ k : Int, k < 0 ∨ 2 < k → ∀ faults,
      ∃ e b', getFile ['/', 'x'] k ⟨(∅ : Store).insert ['x'] [1, 2], faults⟩ = .error e b') ∧
    (∀ k (b : Bucket) c o b', getFile ['/', 'x'] k b = .ok (c, o) b' →
      0 ≤ c ∧ c = o.bytes.length) :=
  ⟨rfl, @getFile_after_putFile ['/', 'x'] [1, 2] 2 ⟨∅, []⟩ _ rfl⟩

/-! ### `PutFile` -/

section PutFile

variable {p tempFile : List Char} (data : List UInt8) (offset : Int)

/-- What the resumed upload of `PutFile` can end with, for any faults. On success `p` is a name
minio-go sends and held `offset` bytes `old`, the data was at least `absMinPartSize` long (it is
the first source of the compose), and `p` holds the data followed by `old`, the data also left
at `tempFile`. On failure `p` is unchanged and no key but `tempFile` has changed. -/
lemma putFileResume_spec (htp : tempFile ≠ p) :
    match putFileResume p tempFile data offset b with
    | .ok size b' => ValidObjectName p ∧ ∃ old, b.store.lookup p = some old ∧
        offset = old.length ∧ absMinPartSize ≤ data.length ∧ size = data.length ∧
        b'.store = (b.store.insert tempFile data).insert p (data ++ old)
    | .error _ b' => b'.store.lookup p = b.store.lookup p ∧
        Store.AgreeOff (· = tempFile) b.store b'.store := by
  simp only [putFileResume, bind_apply, statObject_apply]
  rcases checkValidObjectName_cases p with ⟨hpv, hc⟩ | ⟨-, e, hc⟩
  swap
  · rw [hc]
    exact ⟨rfl, .refl _⟩
  simp only [hc]
  split_ifs with hd
  · exact ⟨rfl, .refl _⟩
  rcases hv : b.store.lookup p with _ | old
  · exact ⟨hv, .refl _⟩
  dsimp only
  split_ifs with hoff
  · exact ⟨hv, .refl _⟩
  simp only [bind_apply, pure_apply, putObject_apply]
  rcases checkValidObjectName_cases tempFile with ⟨-, ht⟩ | ⟨-, e, ht⟩
  swap
  · rw [ht]
    exact ⟨hv, .refl _⟩
  simp only [ht]
  split_ifs with hd'
  · exact ⟨hv, .refl _⟩
  have hp' : (b.store.insert tempFile data).lookup p = some old := by
    rw [AList.lookup_insert_ne (Ne.symm htp), hv]
  simp only [bind_apply, pure_apply, newDestinationInfo_apply, hc, composeObject_apply,
    composeSources_pair, AList.lookup_insert, hp']
  split_ifs with hd'' hsmall
  · exact ⟨hp', .insert (by rfl) data⟩
  · exact ⟨hp', .insert (by rfl) data⟩
  · exact ⟨hpv, old, rfl, not_not.1 hoff, not_lt.1 hsmall, rfl, rfl⟩

/-- The resumed upload when no request fails: it succeeds when `p` and `tempFile` are names
minio-go sends, `p` holds `offset` bytes and the data is at least `absMinPartSize` long. -/
lemma putFileResume_of_fits (σ : Store) {old : List UInt8} (hp : ValidObjectName p)
    (ht : ValidObjectName tempFile) (htp : tempFile ≠ p) (hv : σ.lookup p = some old)
    (ho : offset = old.length) (hlen : absMinPartSize ≤ data.length) :
    putFileResume p tempFile data offset ⟨σ, []⟩ =
      .ok data.length ⟨(σ.insert tempFile data).insert p (data ++ old), []⟩ := by
  simp [putFileResume, statObject_apply, putObject_apply, newDestinationInfo_apply,
    composeObject_apply, composeSources_pair, checkValidObjectName_eq_ok.2 hp,
    checkValidObjectName_eq_ok.2 ht, hv, ho, AList.lookup_insert_ne (Ne.symm htp),
    not_lt.2 hlen]

/-- The resumed upload changes no key but `p` and `tempFile`, whichever requests fail. -/
lemma putFileResume_agreeOff (htp : tempFile ≠ p) :
    Preserves (Store.AgreeOff fun k => k = p ∨ k = tempFile)
      (putFileResume p tempFile data offset) := fun b => by
  have hs := putFileResume_spec b data offset htp
  rcases hr : putFileResume p tempFile data offset b with ⟨size, b₁⟩ | ⟨e, b₁⟩ <;> rw [hr] at hs
  · obtain ⟨-, old, -, -, -, -, hst⟩ := hs
    rw [bucketOf_ok, hst]
    exact (Store.AgreeOff.insert (.inr rfl) data).trans (.insert (.inl rfl) _)
  · exact hs.2.mono fun _ => Or.inr

/-- The key of the temporary object of an upload to a cleaned path. -/
lemma buildMinioPath_temp (d : AbsPath) :
    buildMinioPath (['/'].intercalate d.names ++ ['.', 't', 'm', 'p']) =
      ['/'].intercalate d.names ++ ['.', 't', 'm', 'p'] := by
  apply trimPrefix_of_not_prefix
  have h := not_slash_prefix_intercalate d
  rcases hc : ['/'].intercalate d.names with _ | ⟨c, l⟩
  · simp
  · rw [hc] at h
    simpa using h

lemma temp_ne (p : List Char) : p ++ ['.', 't', 'm', 'p'] ≠ p := by simp

/-- `PutFile` to a cleaned path at an offset other than `-1`: the resumed upload, with the
removal of the temporary object deferred. -/
lemma putFile_resume_apply (d : AbsPath) (hoff : offset ≠ -1) :
    putFile d.toPath data offset b =
      deferring (putFileResume (['/'].intercalate d.names)
        (['/'].intercalate d.names ++ ['.', 't', 'm', 'p']) data offset)
        (removeObject (['/'].intercalate d.names ++ ['.', 't', 'm', 'p'])) b := by
  simp only [putFile, buildMinioPath_toPath, if_neg hoff, bind_apply, pure_apply, deleteFile,
    buildMinioPath_temp]

/-- `PutFile` to a cleaned path changes no key but its target and the temporary object,
whichever requests fail. -/
lemma putFile_agreeOff (d : AbsPath) :
    Preserves (Store.AgreeOff fun k => k = buildMinioPath d.toPath ∨
      k = buildMinioPath d.toPath ++ ['.', 't', 'm', 'p']) (putFile d.toPath data offset) := by
  simp only [putFile, buildMinioPath_toPath, deleteFile, buildMinioPath_temp]
  split_ifs
  · exact ((putObject_agreeOff _ data).agreeOff_mono fun _ => Or.inl).bind fun _ => .pure _
  · exact (Preserves.pure ()).bind fun _ =>
      (putFileResume_agreeOff data offset (temp_ne _)).deferring
        ((removeObject_agreeOff _).agreeOff_mono fun _ => Or.inr)

/-- **A `PutFile` changes only its target and its temporary object.** Whatever `PutFile` to a
cleaned path returns, and whichever requests fail, no key but the target `p` and the temporary
object `p.tmp` has changed; and when it returns an error, `p` is unchanged as well. The
temporary object is not covered by the second part: the deferred `DeleteFile` removes it
whatever the upload did, also when it held an object of its own before the call.

**Proof sketch.** An upload at offset `-1` is one `PutObject` of `p`. A resumed one changes at
most `p` and `p.tmp`, and `p` only when it succeeds (`putFileResume_spec`); the deferred
`DeleteFile` then changes at most `p.tmp`. -/
theorem putFile_changes_only_target (d : AbsPath) (data : List UInt8) (offset : Int) :
    (∀ k, k ≠ buildMinioPath d.toPath → k ≠ buildMinioPath d.toPath ++ ['.', 't', 'm', 'p'] →
      (bucketOf (putFile d.toPath data offset b)).store.lookup k = b.store.lookup k) ∧
    (∀ e b', putFile d.toPath data offset b = .error e b' →
      b'.store.lookup (buildMinioPath d.toPath) = b.store.lookup (buildMinioPath d.toPath)) := by
  refine ⟨fun k hp ht => putFile_agreeOff data offset d b k (not_or.2 ⟨hp, ht⟩), ?_⟩
  rw [buildMinioPath_toPath]
  by_cases ho : offset = -1
  · simp only [putFile, ho, if_true, buildMinioPath_toPath, bind_apply, pure_apply,
      putObject_apply]
    rcases checkValidObjectName_cases (['/'].intercalate d.names) with ⟨-, hc⟩ | ⟨-, e, hc⟩ <;>
      simp only [hc]
    · split_ifs <;> simp
    · simp
  rw [putFile_resume_apply b data offset d ho, deferring_apply]
  have hs := putFileResume_spec b data offset (temp_ne (['/'].intercalate d.names))
  rcases hr : putFileResume _ _ data offset b with ⟨size, b₁⟩ | ⟨e, b₁⟩ <;> rw [hr] at hs
  · simp
  · rintro e' b' ⟨⟩
    exact (removeObject_agreeOff _ b₁ _ (temp_ne _).symm).trans hs.1

/-- A resumed upload to `/a` that fails because `a` does not exist removes the unrelated object
`a.tmp` the bucket held. -/
theorem putFile_failure_removes_temp_object :
    putFile ['/', 'a'] [] 0 ⟨(∅ : Store).insert ['a', '.', 't', 'm', 'p'] [7], []⟩ =
      .error .noSuchKey ⟨∅, []⟩ :=
  rfl

/-- A resumed `PutFile` to a cleaned path when no request fails: when its key `p` and the
temporary object's key are names minio-go sends, `p` holds `offset` bytes `old` and the data is
at least `absMinPartSize` long, it returns nil and the data's size, `p` holds the data followed
by `old`, and the temporary object is gone. -/
lemma putFile_of_fits (d : AbsPath) (σ : Store) {old : List UInt8}
    (hp : ValidObjectName (['/'].intercalate d.names))
    (ht : ValidObjectName (['/'].intercalate d.names ++ ['.', 't', 'm', 'p']))
    (hv : σ.lookup (['/'].intercalate d.names) = some old) (ho : offset = old.length)
    (hlen : absMinPartSize ≤ data.length) :
    putFile d.toPath data offset ⟨σ, []⟩ = .ok data.length
      ⟨((σ.insert (['/'].intercalate d.names ++ ['.', 't', 'm', 'p']) data).insert
        (['/'].intercalate d.names) (data ++ old)).erase
          (['/'].intercalate d.names ++ ['.', 't', 'm', 'p']), []⟩ := by
  rw [putFile_resume_apply _ data offset d (by omega), deferring_apply,
    putFileResume_of_fits data offset σ hp ht (temp_ne _) hv ho hlen]
  simp [removeObject_apply, checkValidObjectName_eq_ok.2 ht]

/-- **A resumed `PutFile` that returns nil puts the data before the old content.** Whichever
requests fail, when `PutFile` to a cleaned path at an offset other than `-1` returns nil, its
target held `offset` bytes `old`, the data is at least `absMinPartSize` long, the size returned
is the data's, and the target holds the data followed by `old`. -/
theorem putFile_resume_ok (d : AbsPath) (data : List UInt8) (offset : Int) (hoff : offset ≠ -1)
    {size : Nat} {b' : Bucket} (h : putFile d.toPath data offset b = .ok size b') :
    ∃ old, b.store.lookup (buildMinioPath d.toPath) = some old ∧ offset = old.length ∧
      absMinPartSize ≤ data.length ∧ size = data.length ∧
      b'.store.lookup (buildMinioPath d.toPath) = some (data ++ old) := by
  rw [buildMinioPath_toPath]
  rw [putFile_resume_apply b data offset d hoff, deferring_apply] at h
  have hs := putFileResume_spec b data offset (temp_ne (['/'].intercalate d.names))
  rcases hr : putFileResume _ _ data offset b with ⟨size', b₁⟩ | ⟨e, b₁⟩ <;> rw [hr] at hs h
  · obtain ⟨-, old, hv, ho, hlen, rfl, hst⟩ := hs
    simp only [EStateM.Result.ok.injEq] at h
    obtain ⟨rfl, rfl⟩ := h
    refine ⟨old, hv, ho, hlen, rfl, ?_⟩
    rw [removeObject_agreeOff _ b₁ _ (temp_ne _).symm, hst, AList.lookup_insert]
  · cases h

/-- A resumed upload onto `/a`, which holds the one byte `[1]`, at offset `1`, of
`absMinPartSize` zero bytes, when no request fails. -/
lemma putFile_replicate_onto_a :
    putFile (AbsPath.toPath ⟨[['a']], by decide⟩) (List.replicate absMinPartSize 0) 1
        ⟨(∅ : Store).insert ['a'] [1], []⟩ = .ok absMinPartSize
      ⟨((((∅ : Store).insert ['a'] [1]).insert ['a', '.', 't', 'm', 'p']
        (List.replicate absMinPartSize 0)).insert ['a'] (List.replicate absMinPartSize 0 ++ [1])).erase
          ['a', '.', 't', 'm', 'p'], []⟩ := by
  have hput := putFile_of_fits (List.replicate absMinPartSize 0) 1 ⟨[['a']], by decide⟩
    ((∅ : Store).insert ['a'] [1]) (by decide) (by decide)
    (show ((∅ : Store).insert ['a'] [1]).lookup (['/'].intercalate [['a']]) = some [1] from rfl)
    rfl (by simp)
  rwa [List.length_replicate] at hput

theorem putFile_resume_ok_a :
    (1 : Int) ≠ -1 ∧
    putFile (AbsPath.toPath ⟨[['a']], by decide⟩) (List.replicate absMinPartSize 0) 1
        ⟨(∅ : Store).insert ['a'] [1], []⟩ = .ok absMinPartSize
      ⟨((((∅ : Store).insert ['a'] [1]).insert ['a', '.', 't', 'm', 'p']
        (List.replicate absMinPartSize 0)).insert ['a'] (List.replicate absMinPartSize 0 ++ [1])).erase
          ['a', '.', 't', 'm', 'p'], []⟩ ∧
    ∃ old, ((∅ : Store).insert ['a'] [1]).lookup ['a'] = some old ∧ 1 = (old.length : Int) ∧
      absMinPartSize ≤ (List.replicate absMinPartSize (0 : UInt8)).length ∧
      absMinPartSize = (List.replicate absMinPartSize (0 : UInt8)).length ∧
      (((((∅ : Store).insert ['a'] [1]).insert ['a', '.', 't', 'm', 'p']
        (List.replicate absMinPartSize 0)).insert ['a'] (List.replicate absMinPartSize 0 ++ [1])).erase
          ['a', '.', 't', 'm', 'p']).lookup ['a'] = some (List.replicate absMinPartSize 0 ++ old) :=
  ⟨by decide, putFile_replicate_onto_a,
    putFile_resume_ok _ _ _ _ (by decide) putFile_replicate_onto_a⟩

/-- A resumed upload onto `/a`, which holds the one byte `[1]`, at offset `1`, of
`absMinPartSize` zero bytes: it returns nil and the size of the data, and `a` then holds the
data followed by its old byte, not its old byte followed by the data. -/
theorem putFile_resume_prepends :
    ∃ b', putFile ['/', 'a'] (List.replicate absMinPartSize 0) 1
        ⟨(∅ : Store).insert ['a'] [1], []⟩ = .ok absMinPartSize b' ∧
      b'.store.lookup ['a'] = some (List.replicate absMinPartSize 0 ++ [1]) ∧
      List.replicate absMinPartSize 0 ++ [1] ≠ [1] ++ List.replicate absMinPartSize 0 := by
  refine ⟨_, putFile_replicate_onto_a,
    (AList.lookup_erase_ne (by decide)).trans (AList.lookup_insert _), ?_⟩
  -- the two contents differ in their first byte
  obtain ⟨n, hn⟩ : ∃ n, absMinPartSize = n + 1 := ⟨_, rfl⟩
  rw [hn, List.replicate_succ]
  simp

/-- What `PutFile` to a cleaned path leaves at its target when it returns a size, whichever
requests fail: an object as long as that size plus the offset it resumed at (nothing for `-1`);
and the target's key is a name minio-go sends, so the path is not the root, whose key is
empty. -/
lemma putFile_ok_target (d : AbsPath) {size : Nat} {b' : Bucket}
    (h : putFile d.toPath data offset b = .ok size b') :
    d.names ≠ [] ∧ ValidObjectName (['/'].intercalate d.names) ∧
      ∃ v, b'.store.lookup (['/'].intercalate d.names) = some v ∧
        (v.length : Int) = size + if offset = -1 then 0 else offset := by
  have hne : ValidObjectName (['/'].intercalate d.names) → d.names ≠ [] :=
    fun hp hn => hp.ne_nil (by rw [hn]; rfl)
  by_cases hoff : offset = -1
  · simp only [putFile, hoff, if_true, buildMinioPath_toPath, bind_apply, pure_apply,
      putObject_apply] at h
    rcases checkValidObjectName_cases (['/'].intercalate d.names) with ⟨hp, hc⟩ | ⟨-, e, hc⟩ <;>
      simp only [hc] at h
    swap
    · cases h
    split_ifs at h with hd
    cases h
    exact ⟨hne hp, hp, data, AList.lookup_insert _, by simp [hoff]⟩
  rw [putFile_resume_apply b data offset d hoff, deferring_apply] at h
  have hs := putFileResume_spec b data offset (temp_ne (['/'].intercalate d.names))
  rcases hr : putFileResume _ _ data offset b with ⟨size', b₁⟩ | ⟨e, b₁⟩ <;> rw [hr] at hs h
  · obtain ⟨hp, old, hv, ho, -, rfl, hst⟩ := hs
    cases h
    refine ⟨hne hp, hp, data ++ old, ?_, by simp [hoff, ho]⟩
    rw [removeObject_agreeOff _ b₁ _ (temp_ne _).symm, hst, AList.lookup_insert]
  · cases h

end PutFile

end Driver

end Minio

end Netftp
