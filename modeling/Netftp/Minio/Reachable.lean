import Netftp.Minio.Objects
import Netftp.Minio.DeleteDir

/-!
# The stores the driver builds, and what `ListDir` and `Stat` say about them

Run from an empty bucket, the driver's operations on cleaned absolute paths only ever write
keys whose non-empty segments are names: the key of a path, a directory's marker (the key and
a `'/'`), and the temporary object of an upload (the key and `.tmp`); and only keys minio-go
accepts as object names, since `PutObject` and `NewDestinationInfo` check the name before any
write. This module states that invariant, proves it of every run of `MakeDir`, `PutFile`,
`DeleteFile`, `DeleteDir` and `Rename` whichever requests fail, and uses it to compare each entry
`ListDir` reports with what `Stat` says of the entry's path. It also bounds what a run changes:
the keys its operations name.

## Main definitions

* `Netftp.WellFormedKey`, `Netftp.Store.WellFormed` — keys whose non-empty segments are names.
* `Netftp.DriverKey` — a well-formed key minio-go accepts as a name.
* `Netftp.Store.AllKeys`, `Netftp.KeepsKeys` — a store all of whose keys satisfy a predicate,
  and a computation that keeps it so.
* `Netftp.Minio.Driver.Op`, `Netftp.Minio.Driver.runOps` — a sequence of driver operations.
* `Netftp.Minio.Driver.Op.footprint` — the keys one operation can change.

## Main results

* `Netftp.Minio.Driver.runOps_allKeys` — every run keeps the store's keys ones the driver can
  write: well formed, and names minio-go sends.
* `Netftp.Minio.Driver.runOps_changes_only_footprints` — every run leaves the keys outside its
  operations' footprints as they were.
* `Netftp.Minio.Driver.listDir_stat_agree` — on every reachable store, for a directory whose
  marker minio-go can list, `Stat` of each entry `ListDir` reports succeeds; it reports a file of the same size for a file entry, and a
  directory for a directory entry unless a file object has the same key.
* `Netftp.Minio.Driver.makeDir_shows_directory` — after `MakeDir`, `Stat` sees the directory
  and the parent's `ListDir` lists it.
-/

set_option autoImplicit false

namespace Netftp

/-! ### Well-formed keys -/

/-- A key the driver writes: not empty, and each non-empty segment between `'/'`s is a name. -/
def WellFormedKey (k : List Char) : Prop := k ≠ [] ∧ ∀ s ∈ k.splitOn '/', s ≠ [] → IsName s

instance : DecidablePred WellFormedKey := fun _ => inferInstanceAs (Decidable (_ ∧ _))

/-- A key the driver can have written: well formed, and a name minio-go sends. -/
def DriverKey (k : List Char) : Prop := WellFormedKey k ∧ ValidObjectName k

instance : DecidablePred DriverKey := fun _ => inferInstanceAs (Decidable (_ ∧ _))

/-- A store all of whose keys satisfy `P`. -/
def Store.AllKeys (P : List Char → Prop) (σ : Store) : Prop := ∀ k ∈ σ.keys, P k

instance (P : List Char → Prop) [DecidablePred P] : DecidablePred (Store.AllKeys P) :=
  fun _ => inferInstanceAs (Decidable (∀ _ ∈ _, _))

/-- A store whose keys are all well formed. -/
def Store.WellFormed (σ : Store) : Prop := ∀ k ∈ σ.keys, WellFormedKey k

instance : DecidablePred Store.WellFormed := fun _ => inferInstanceAs (Decidable (∀ _ ∈ _, _))

lemma splitOn_append_slash {a : List Char} (ha : '/' ∉ a) (z : List Char) :
    (a ++ '/' :: z).splitOn '/' = a :: z.splitOn '/' :=
  List.splitOnP_first _ a (fun x hx h => ha (by rwa [beq_iff_eq.1 h] at hx)) '/' (by simp) z

/-- The segments of a key that continues, after a `'/'`, past the joined segments `ls`. -/
lemma splitOn_intercalate_append {ls : List (List Char)} (hls : ls ≠ [])
    (h : ∀ l ∈ ls, '/' ∉ l) (z : List Char) :
    (['/'].intercalate ls ++ '/' :: z).splitOn '/' = ls ++ z.splitOn '/' := by
  induction ls with
  | nil => exact absurd rfl hls
  | cons a ls ih =>
    have ha := h a (List.mem_cons_self _ _)
    rcases eq_or_ne ls [] with rfl | hne
    · simp [List.intercalate, splitOn_append_slash ha]
    · obtain ⟨b, ls', rfl⟩ := List.exists_cons_of_ne_nil hne
      rw [intercalate_cons_cons, List.append_assoc, List.cons_append, splitOn_append_slash ha,
        ih hne fun l hl => h l (List.mem_cons_of_mem _ hl)]
      rfl

lemma wellFormedKey_intercalate {ls : List (List Char)} (hne : ['/'].intercalate ls ≠ [])
    (h : ∀ s ∈ ls, s = [] ∨ IsName s) : WellFormedKey (['/'].intercalate ls) := by
  have hls : ls ≠ [] := by rintro rfl; exact hne rfl
  refine ⟨hne, fun s hs hs' => ?_⟩
  rw [List.splitOn_intercalate ls '/' (fun l hl => ?_) hls] at hs
  · exact (h s hs).resolve_left hs'
  · rcases h l hl with rfl | hl
    · simp
    · exact hl.slash_not_mem

namespace WellFormedKey

variable {k : List Char}

/-- Every non-empty segment of a well-formed key after a joined prefix is a name. -/
lemma isName_of_intercalate_slash (hk : WellFormedKey k) {ls : List (List Char)} (hls : ls ≠ [])
    (h : ∀ l ∈ ls, '/' ∉ l) {z : List Char} (hz : ['/'].intercalate ls ++ '/' :: z = k)
    {s : List Char} (hs : s ∈ ls) (hs' : s ≠ []) : IsName s :=
  hk.2 s (by rw [← hz, splitOn_intercalate_append hls h]; exact List.mem_append_left _ hs) hs'

/-- The last segment of a well-formed key that is the joined segments `ls` is a name. -/
lemma isName_of_eq_intercalate (hk : WellFormedKey k) {ls : List (List Char)} (hls : ls ≠ [])
    (h : ∀ l ∈ ls, '/' ∉ l) (hz : ['/'].intercalate ls = k) {s : List Char} (hs : s ∈ ls)
    (hs' : s ≠ []) : IsName s :=
  hk.2 s (by rw [← hz, List.splitOn_intercalate ls '/' h hls]; exact hs) hs'

end WellFormedKey

namespace Store.AllKeys

variable {P : List Char → Prop} {σ σ' : Store}

/-- A store that agrees with one whose keys satisfy `P` off `keys` has all its keys in `P` when
every key of `keys` it holds was held before or satisfies `P`. -/
lemma of_agreeOff {keys : List Char → Prop} (h : σ.AllKeys P) (hag : Store.AgreeOff keys σ σ')
    (hk : ∀ k ∈ σ', keys k → k ∈ σ ∨ P k) : σ'.AllKeys P := by
  intro k hk'
  replace hk' : k ∈ σ' := hk'
  by_cases hkk : keys k
  · exact (hk k hk' hkk).elim (h k) id
  · exact h k ((hag.mem_iff hkk).1 hk')

lemma insert (h : σ.AllKeys P) {k : List Char} (hk : P k) (v : List UInt8) :
    Store.AllKeys P (σ.insert k v) :=
  h.of_agreeOff (Store.AgreeOff.insert (by rfl) v : Store.AgreeOff (· = k) σ _)
    fun _ _ h => .inr (h ▸ hk)

lemma erase (h : σ.AllKeys P) (k : List Char) : Store.AllKeys P (σ.erase k) :=
  fun k' hk' => h k' (AList.mem_erase.1 hk').2

/-- On a store of keys the driver can have written, minio-go sends every key the store holds. -/
lemma validObjectName_of_mem (h : σ.AllKeys DriverKey) {k : List Char} (hk : k ∈ σ) :
    ValidObjectName k :=
  (h k hk).2

end Store.AllKeys

/-! ### The keys the driver writes -/

lemma wellFormedKey_path (d : AbsPath) (h : ['/'].intercalate d.names ≠ []) :
    WellFormedKey (['/'].intercalate d.names) :=
  wellFormedKey_intercalate h d.intercalate_names_not_slash

/-- A directory's marker, `'/'` alone for the root. -/
lemma wellFormedKey_marker (d : AbsPath) : WellFormedKey (['/'].intercalate d.names ++ ['/']) := by
  rcases eq_or_ne d.names [] with h | h
  · rw [h]
    decide
  · rw [← intercalate_append_singleton h []]
    refine wellFormedKey_intercalate (by rw [intercalate_append_singleton h]; simp) fun e he => ?_
    rcases List.mem_append.1 he with he | he
    · exact .inr (d.isName e he)
    · exact .inl (List.mem_singleton.1 he)

lemma isName_append_temp {s : List Char} (hs : IsName s) : IsName (s ++ ['.', 't', 'm', 'p']) where
  ne_nil := by simp
  slash_not_mem := by simp [hs.slash_not_mem]
  ne_dot h := by simpa using congrArg List.length h
  ne_dotDot h := by simpa using congrArg List.length h

/-- The temporary object of an upload: the last name of the path with `.tmp` appended, or
`.tmp` alone for the root. -/
lemma wellFormedKey_temp (d : AbsPath) :
    WellFormedKey (['/'].intercalate d.names ++ ['.', 't', 'm', 'p']) := by
  rcases List.eq_nil_or_concat d.names with h | ⟨l, s, h⟩
  · rw [h]
    decide
  have hs := isName_append_temp (d.isName s (by simp [h]))
  have hl : ∀ e ∈ l, e = [] ∨ IsName e := fun e he => .inr (d.isName e (by simp [h, he]))
  rw [h, List.concat_eq_append]
  rcases eq_or_ne l [] with rfl | hl'
  · have h1 : ['/'].intercalate ([] ++ [s]) ++ ['.', 't', 'm', 'p'] =
        ['/'].intercalate [s ++ ['.', 't', 'm', 'p']] := by simp [List.intercalate]
    rw [h1]
    exact wellFormedKey_intercalate (by simp [List.intercalate]) (by simpa using hs)
  · rw [intercalate_append_singleton hl', List.append_assoc, List.cons_append,
      ← intercalate_append_singleton hl']
    refine wellFormedKey_intercalate (by rw [intercalate_append_singleton hl']; simp)
      fun e he => ?_
    rcases List.mem_append.1 he with he | he
    · exact hl e he
    · exact .inr (List.mem_singleton.1 he ▸ hs)

/-! ### Computations that keep the store well formed -/

open Client

/-- The store after has all its keys in `P` when the store before has. -/
def Store.AllKeysAfter (P : List Char → Prop) (σ σ' : Store) : Prop :=
  σ.AllKeys P → σ'.AllKeys P

instance (P : List Char → Prop) : IsPreorder Store (Store.AllKeysAfter P) where
  refl _ := id
  trans _ _ _ h₁ h₂ := h₂ ∘ h₁

/-- A computation that keeps every key of the store in `P`, whatever it returns. -/
def KeepsKeys (P : List Char → Prop) {α : Type} (x : Client α) : Prop :=
  Preserves (Store.AllKeysAfter P) x

namespace KeepsKeys

variable {P : List Char → Prop} {α β : Type}

/-- A computation that changes only keys of `keys`, all of which satisfy `P`. -/
lemma of_agreeOff {keys : List Char → Prop} {x : Client α} (hx : Preserves (Store.AgreeOff keys) x)
    (hk : ∀ k, keys k → P k) : KeepsKeys P x :=
  fun b h => h.of_agreeOff (hx b) fun k _ hkk => .inr (hk k hkk)

lemma removeObject (objectName : List Char) : KeepsKeys P (Client.removeObject objectName) :=
  fun b h => by
    rw [removeObject_apply]
    split
    · exact h
    · split_ifs
      · exact h
      · exact h.erase _

/-- `PutObject` writes its key only once minio-go has checked the name. -/
lemma putObject {objectName : List Char} (hk : ValidObjectName objectName → P objectName)
    (data : List UInt8) : KeepsKeys P (Client.putObject objectName data) := fun b h => by
  rw [putObject_apply]
  rcases checkValidObjectName_cases objectName with ⟨hv, hc⟩ | ⟨-, e, hc⟩ <;> simp only [hc]
  · split_ifs
    · exact h
    · exact h.insert (hk hv) data
  · exact h

/-- A computation that goes on from `NewDestinationInfo object` only once the name is checked. -/
lemma newDestinationInfo_bind {object : List Char} {f : List Char → Client β}
    (hf : ValidObjectName object → KeepsKeys P (f object)) :
    KeepsKeys P (Client.newDestinationInfo object >>= f) := fun b h => by
  rw [bind_apply, newDestinationInfo_apply]
  rcases checkValidObjectName_cases object with ⟨hv, hc⟩ | ⟨-, e, hc⟩ <;> simp only [hc]
  · exact hf hv b h
  · exact h

end KeepsKeys

namespace Minio

namespace Driver

/-! ### Every driver operation keeps the keys of the store in `P` -/

section Keeps

-- `P` holds of every key the driver can write
variable {P : List Char → Prop} (hP : ∀ k, WellFormedKey k → ValidObjectName k → P k)
include hP

lemma keepsKeys_makeDir (d : AbsPath) : KeepsKeys P (makeDir d.toPath) :=
  (KeepsKeys.putObject (fun hv => hP _ (by rw [buildMinioDir_toPath]; exact wellFormedKey_marker d)
    hv) []).bind fun _ => .pure _

/-- The resumed upload writes only its temporary object, which `PutObject` checked, and its
target, which `NewDestinationInfo` checked. -/
lemma keepsKeys_putFileResume (d : AbsPath) (data : List UInt8) (offset : Int) :
    KeepsKeys P (putFileResume (['/'].intercalate d.names)
      (['/'].intercalate d.names ++ ['.', 't', 'm', 'p']) data offset) := by
  refine (statObject_preserves _).bind fun info => ?_
  have hrest : KeepsKeys P (do
      let size ← putObject (['/'].intercalate d.names ++ ['.', 't', 'm', 'p']) data
      let dst ← newDestinationInfo (['/'].intercalate d.names)
      composeObject dst [['/'].intercalate d.names ++ ['.', 't', 'm', 'p'],
        ['/'].intercalate d.names]
      pure size) :=
    (KeepsKeys.putObject (hP _ (wellFormedKey_temp d)) data).bind fun _ =>
      KeepsKeys.newDestinationInfo_bind fun hv =>
        (KeepsKeys.of_agreeOff (composeObject_agreeOff _ _) fun _ hk =>
          hk ▸ hP _ (wellFormedKey_path d hv.ne_nil) hv).bind fun _ => .pure _
  dsimp only
  split_ifs
  · exact (Preserves.throw _).bind fun _ => hrest
  · exact (Preserves.pure _).bind fun _ => hrest

lemma keepsKeys_putFile (d : AbsPath) (data : List UInt8) (offset : Int) :
    KeepsKeys P (putFile d.toPath data offset) := by
  simp only [putFile, buildMinioPath_toPath]
  split_ifs
  · exact (KeepsKeys.putObject (fun hv => hP _ (wellFormedKey_path d hv.ne_nil) hv) data).bind
      fun _ => .pure _
  · exact (Preserves.pure ()).bind fun _ =>
      (keepsKeys_putFileResume hP d data offset).deferring (KeepsKeys.removeObject _)

/-- `Rename` writes only the key of its destination, which `NewDestinationInfo` checked. -/
lemma keepsKeys_rename (d d' : AbsPath) : KeepsKeys P (rename d.toPath d'.toPath) := by
  simp only [rename, buildMinioPath_toPath]
  exact KeepsKeys.newDestinationInfo_bind fun hv =>
    (KeepsKeys.of_agreeOff (copyObject_agreeOff _ _) fun _ hk =>
      hk ▸ hP _ (wellFormedKey_path d' hv.ne_nil) hv).bind fun _ => KeepsKeys.removeObject _

omit hP in
/-- `DeleteDir` removes only keys the store held. -/
lemma keepsKeys_deleteDir (path : List Char) : KeepsKeys P (deleteDir path) := fun b h => by
  refine h.of_agreeOff (removeListed_run (buildMinioPath path) true b).1 fun k _ hk => .inl ?_
  obtain ⟨o, ho, rfl⟩ := List.mem_map.1 hk
  obtain ⟨k, v, hv, -, rfl⟩ := Store.mem_listObjects_true.1 ho
  exact AList.lookup_isSome.1 (by simp [hv])

end Keeps

/-! ### Runs of driver operations -/

/-- The driver operations that change the bucket, on cleaned absolute paths. -/
inductive Op
  | makeDir (d : AbsPath)
  | putFile (d : AbsPath) (data : List UInt8) (offset : Int)
  | deleteFile (d : AbsPath)
  | deleteDir (d : AbsPath)
  | rename (fromPath toPath : AbsPath)

/-- One operation, its result dropped. -/
def Op.run : Op → Client Unit
  | .makeDir d => Driver.makeDir d.toPath
  | .putFile d data offset => do let _ ← Driver.putFile d.toPath data offset
  | .deleteFile d => Driver.deleteFile d.toPath
  | .deleteDir d => Driver.deleteDir d.toPath
  | .rename fromPath toPath => Driver.rename fromPath.toPath toPath.toPath

/-- The bucket after a sequence of operations, each started on the bucket the one before left,
whether that one returned nil or an error. -/
def runOps (ops : List Op) (b : Bucket) : Bucket :=
  ops.foldl (fun b op => bucketOf (op.run b)) b

/-- Every operation keeps the keys of the store in `P`, when `P` holds of every key the driver
can write. -/
lemma keepsKeys_run {P : List Char → Prop} (hP : ∀ k, WellFormedKey k → ValidObjectName k → P k) :
    ∀ op : Op, KeepsKeys P op.run
  | .makeDir d => keepsKeys_makeDir hP d
  | .putFile d data offset => (keepsKeys_putFile hP d data offset).bind fun _ => .pure _
  | .deleteFile _ => KeepsKeys.removeObject _
  | .deleteDir _ => keepsKeys_deleteDir _
  | .rename d d' => keepsKeys_rename hP d d'

/-- **Every run keeps the keys of the store in `P`**, whichever requests fail, when `P` holds of
every key the driver can write. -/
lemma runOps_allKeys {P : List Char → Prop} (hP : ∀ k, WellFormedKey k → ValidObjectName k → P k) :
    ∀ (ops : List Op) (b : Bucket), b.store.AllKeys P → (runOps ops b).store.AllKeys P
  | [], _, h => h
  | op :: ops, b, h => runOps_allKeys hP ops _ (keepsKeys_run hP op b h)

/-! ### What a run changes -/

/-- The keys an operation can change: the key of its path, and the temporary object for an
upload; the marker for `MakeDir`; the keys of both paths for `Rename`; and for `DeleteDir` every
key that starts with the path's key. -/
def Op.footprint : Op → List Char → Prop
  | .makeDir d, k => k = buildMinioDir d.toPath
  | .putFile d _ _, k =>
    k = buildMinioPath d.toPath ∨ k = buildMinioPath d.toPath ++ ['.', 't', 'm', 'p']
  | .deleteFile d, k => k = buildMinioPath d.toPath
  | .deleteDir d, k => buildMinioPath d.toPath <+: k
  | .rename fromPath toPath, k =>
    k = buildMinioPath fromPath.toPath ∨ k = buildMinioPath toPath.toPath

instance (op : Op) : DecidablePred op.footprint := fun k =>
  match op with
  | .makeDir _ | .deleteFile _ => inferInstanceAs (Decidable (k = _))
  | .putFile .. | .rename .. => inferInstanceAs (Decidable (_ ∨ _))
  | .deleteDir _ => inferInstanceAs (Decidable (_ <+: k))

lemma makeDir_agreeOff (path : List Char) :
    Preserves (Store.AgreeOff (· = buildMinioDir path)) (makeDir path) :=
  (putObject_agreeOff _ []).bind fun _ => .pure _

/-- One operation changes no key outside its footprint, whichever requests fail. -/
lemma agreeOff_run : ∀ op : Op, Preserves (Store.AgreeOff op.footprint) op.run
  | .makeDir d => makeDir_agreeOff d.toPath
  | .putFile d data offset => (putFile_agreeOff data offset d).bind fun _ => .pure _
  | .deleteFile _ => removeObject_agreeOff _
  | .deleteDir d => deleteDir_agreeOff d.toPath
  | .rename fromPath toPath => rename_agreeOff fromPath.toPath toPath.toPath

/-- **A run changes only what its operations name.** Whichever requests fail, a run of driver
operations leaves every key outside the footprints of its operations as it was: an upload
touches its target and the target's `.tmp` object, and `DeleteDir` every key under the bare key
of its path, siblings such as `foobar` of `/foo` included. -/
theorem runOps_changes_only_footprints : ∀ (ops : List Op) (b : Bucket),
    Store.AgreeOff (fun k => ∃ op ∈ ops, op.footprint k) b.store (runOps ops b).store
  | [], _ => .refl _
  | op :: ops, b =>
    ((agreeOff_run op b).mono fun _ hk => ⟨op, List.mem_cons_self _ _, hk⟩).trans
      ((runOps_changes_only_footprints ops _).mono fun _ ⟨op', hop', hk⟩ =>
        ⟨op', List.mem_cons_of_mem _ hop', hk⟩)

example : (Op.deleteDir ⟨[['f', 'o', 'o']], by decide⟩).footprint ['f', 'o', 'o', 'b', 'a', 'r'] := by
  decide

/-! ### What `Stat` says of the entries of `ListDir` -/

section Entries

variable (σ : Store)

/-- The prefix `ListDir` lists under, followed by a segment: the names of the directory and the
segment, joined. -/
lemma listPrefix_append (d : AbsPath) (s : List Char) :
    (if d.toPath = ['/'] then [] else buildMinioDir d.toPath) ++ s =
      ['/'].intercalate (d.names ++ [s]) := by
  rcases eq_or_ne d.names [] with hn | hn
  · have hroot : d.toPath = ['/'] := by simp [AbsPath.toPath, hn, List.intercalate]
    simp [hroot, hn, List.intercalate]
  · rw [if_neg (toPath_ne_root hn), buildMinioDir_toPath, intercalate_append_singleton hn]
    simp

/-- `Stat` of a cleaned path whose key minio-go sends and the store holds, when no request
fails. -/
lemma stat_of_lookup {q : AbsPath} (hq : q.names ≠ []) {v : List UInt8}
    (hf : ValidObjectName (['/'].intercalate q.names))
    (hv : σ.lookup (['/'].intercalate q.names) = some v) :
    stat q.toPath ⟨σ, []⟩ = .ok ⟨['/'].intercalate q.names,
      { key := ['/'].intercalate q.names, size := v.length }, false⟩ ⟨σ, []⟩ := by
  rw [stat_toPath σ q hq]
  simp only [if_pos hf, hv]

/-- `Stat` of a cleaned path under whose marker lies a key of at most 1024 bytes, when no
request fails: it succeeds, and reports a directory exactly when it finds no file, that is
unless the store holds the path's key and minio-go sends it. -/
lemma stat_of_key_below_marker (q : AbsPath) {k : List Char} (hk : k ∈ σ.keys)
    (hb : byteLength k ≤ 1024) (hp : ['/'].intercalate q.names ++ ['/'] <+: k) :
    ∃ i, stat q.toPath ⟨σ, []⟩ = .ok i ⟨σ, []⟩ ∧
      (i.isDir = true ↔
        ¬ (ValidObjectName (buildMinioPath q.toPath) ∧ buildMinioPath q.toPath ∈ σ)) := by
  rcases eq_or_ne q.names [] with hn | hn
  · -- the root: a directory, whose empty key minio-go never sends
    have hroot : q.toPath = ['/'] := by simp [AbsPath.toPath, hn, List.intercalate]
    rw [hroot]
    exact ⟨_, rfl, by simp [buildMinioPath, trimPrefix, ValidObjectName]⟩
  have hdir : byteLength (['/'].intercalate q.names ++ ['/']) ≤ 1024 ∧
      ∃ k ∈ σ.keys, ['/'].intercalate q.names ++ ['/'] <+: k :=
    ⟨(byteLength_le_of_isPrefix hp).trans hb, k, hk, hp⟩
  rw [stat_toPath σ q hn, buildMinioPath_toPath]
  by_cases hf : ValidObjectName (['/'].intercalate q.names)
  · rcases hv : σ.lookup (['/'].intercalate q.names) with _ | v
    · simp only [if_pos hf, hv, if_pos hdir]
      exact ⟨_, rfl, by simp [← AList.lookup_isSome, hv]⟩
    · simp only [if_pos hf, hv]
      exact ⟨_, rfl, by simp [← AList.lookup_isSome, hv, hf]⟩
  · simp only [if_neg hf, if_pos hdir]
    exact ⟨_, rfl, by simp [hf]⟩

lemma names_append_slash_free (d : AbsPath) {s : List Char} (hs : '/' ∉ s) :
    ∀ l ∈ d.names ++ [s], '/' ∉ l := fun l hl => by
  rcases List.mem_append.1 hl with hl | hl
  · exact (d.isName l hl).slash_not_mem
  · rwa [List.mem_singleton.1 hl]

/-- A file `s` of the directory `d` in a store of keys the driver can write: `s` is a name,
being the last segment of a key, and `Stat` of `path.Join d s` reports the file. -/
lemma stat_of_file_entry (hσ : σ.AllKeys DriverKey) (d : AbsPath) {s : List Char} (hs0 : s ≠ [])
    (hc : '/' ∉ s) {v : List UInt8} (hv : σ.lookup (['/'].intercalate (d.names ++ [s])) = some v) :
    stat (join [d.toPath, s]) ⟨σ, []⟩ = .ok ⟨['/'].intercalate (d.names ++ [s]),
      { key := ['/'].intercalate (d.names ++ [s]), size := v.length }, false⟩ ⟨σ, []⟩ := by
  have hk := hσ (['/'].intercalate (d.names ++ [s])) (AList.lookup_isSome.1 (by simp [hv]))
  have hs : IsName s := hk.1.isName_of_eq_intercalate (by simp) (names_append_slash_free d hc) rfl
    (by simp) hs0
  rw [d.join_child hs]
  exact stat_of_lookup σ (q := d.child s hs) (by simp [AbsPath.child]) hk.2 hv

/-- On a store of keys the driver can write, `Stat` finds a file exactly at the keys the store
holds. -/
lemma not_valid_and_mem_iff (hσ : σ.AllKeys DriverKey) (f : List Char) :
    ¬ (ValidObjectName f ∧ f ∈ σ) ↔ f ∉ σ :=
  ⟨fun h hf => h ⟨hσ.validObjectName_of_mem hf, hf⟩, fun h hf => h hf.2⟩

/-- A directory `t` of the directory `d` in a store of keys the driver can write, seen in a key
that continues `d`'s names and `t` with a `'/'`: `Stat` of `path.Join d (t ++ "/")` succeeds,
and reports a directory exactly when no object has that path's key. For an empty `t` the path
is `d`. -/
lemma stat_of_dir_entry (hσ : σ.AllKeys DriverKey) (d : AbsPath) {t u : List Char} (ht : '/' ∉ t)
    (hk : ['/'].intercalate (d.names ++ [t]) ++ '/' :: u ∈ σ) :
    ∃ i, stat (join [d.toPath, t ++ ['/']]) ⟨σ, []⟩ = .ok i ⟨σ, []⟩ ∧
      (i.isDir = true ↔ buildMinioPath (join [d.toPath, t ++ ['/']]) ∉ σ) := by
  have hb : byteLength (['/'].intercalate (d.names ++ [t]) ++ '/' :: u) ≤ 1024 :=
    (hσ.validObjectName_of_mem hk).2
  suffices h : ∃ i, stat (join [d.toPath, t ++ ['/']]) ⟨σ, []⟩ = .ok i ⟨σ, []⟩ ∧
      (i.isDir = true ↔ ¬ (ValidObjectName (buildMinioPath (join [d.toPath, t ++ ['/']])) ∧
        buildMinioPath (join [d.toPath, t ++ ['/']]) ∈ σ)) by
    obtain ⟨i, hi, hdir⟩ := h
    exact ⟨i, hi, hdir.trans (not_valid_and_mem_iff σ hσ _)⟩
  rcases eq_or_ne t [] with rfl | ht0
  · -- the name `"/"`: `path.Join` gives back the directory itself
    rw [List.nil_append, d.join_slash]
    refine stat_of_key_below_marker σ d hk hb ?_
    rcases eq_or_ne d.names [] with hn | hn
    · simp [hn, List.intercalate]
    · rw [intercalate_append_singleton hn]
      exact ⟨'/' :: u, by simp⟩
  · -- a name `t`: the child `d/t`, whose marker starts the key
    have htn : IsName t := (hσ _ hk).1.isName_of_intercalate_slash (by simp)
      (names_append_slash_free d ht) rfl (by simp) ht0
    rw [d.join_child_slash htn]
    exact stat_of_key_below_marker σ (d.child t htn) hk hb ⟨u, by simp [AbsPath.child]⟩

/-- What `Stat` says of the path of an entry of the delimited listing under the prefix `P` of
a directory `d`, on a store of keys the driver can write: `stat_of_file_entry` for an object the
listing reports, `stat_of_dir_entry` for a common prefix. -/
lemma stat_of_listed (hσ : σ.AllKeys DriverKey) (d : AbsPath) {P : List Char}
    (hP : P = if d.toPath = ['/'] then [] else buildMinioDir d.toPath) {o : ObjectInfo}
    (ho : o ∈ (σ.listObjects P false).filter fun o => o.key != P) :
    ∃ i, stat (join [d.toPath, trimPrefix o.key P]) ⟨σ, []⟩ = .ok i ⟨σ, []⟩ ∧
      (hasSuffix o.key ['/'] = false → i.isDir = false ∧ i.info.size = o.size) ∧
      (hasSuffix o.key ['/'] = true →
        (i.isDir = true ↔ buildMinioPath (join [d.toPath, trimPrefix o.key P]) ∉ σ)) := by
  rw [List.mem_filter, bne_iff_ne, ne_eq] at ho
  rcases Store.mem_listObjects_false.1 ho.1 with
    ⟨k, v, hv, ⟨s, rfl⟩, hc, rfl⟩ | ⟨k, c, hk, ⟨r, rfl⟩, hc, rfl⟩
  · -- an object `P ++ s`, with no `'/'` in `s`
    rw [commonPrefix_append_eq_none] at hc
    have hs0 : s ≠ [] := fun h => ho.2 (by simp [h])
    rw [hP, listPrefix_append] at hv
    simp only [trimPrefix_append, hasSuffix_append_eq_false hs0 hc]
    exact ⟨_, stat_of_file_entry σ hσ d hs0 hc hv, fun _ => ⟨rfl, rfl⟩, by simp⟩
  · -- a common prefix `P ++ t ++ "/"`, from a key `P ++ t ++ "/" ++ u`
    obtain ⟨t, u, ht, rfl, rfl⟩ := commonPrefix_append_eq_some.1 hc
    rw [← List.append_assoc, hP, listPrefix_append] at hk
    obtain ⟨i, hi, hdir⟩ := stat_of_dir_entry σ hσ d ht hk
    rw [hasSuffix_iff.2 (List.suffix_append (P ++ t) ['/']), List.append_assoc, trimPrefix_append]
    exact ⟨i, hi, fun h => absurd h (by simp), fun _ => hdir⟩

end Entries

/-- **On every store the driver builds, `Stat` agrees with `ListDir`, but for a file and a
directory of one name.** Let `σ` be the store any run of `MakeDir`, `PutFile`, `DeleteFile`,
`DeleteDir` and `Rename` on cleaned paths leaves in an empty bucket, whichever requests fail,
and `d` a directory whose marker `buildMinioDir d` is at most 1024 bytes long (minio-go refuses
a longer listing prefix). With a callback that never fails and no request of `ListDir` or `Stat`
failing, `ListDir d` returns nil, and for every entry `e` it hands over,
`Stat (path.Join d e.Name())` succeeds: for a file entry it reports a file of the same size; for
a directory entry it reports a directory unless an object has that path's key, in which case it
reports the file.

**Proof sketch.** `runOps_allKeys` makes every key of the store one the driver can write;
`listDir_toPath` reduces `ListDir` to the delimited listing, and `stat_of_listed` reads `Stat`
of each entry. -/
theorem listDir_stat_agree (ops : List Op) (faults : List Bool) (d : AbsPath)
    (hd : byteLength (buildMinioDir d.toPath) ≤ 1024) (callback : FileInfo → Except Error Unit)
    (hcb : ∀ i, callback i = .ok ()) :
    let σ := (runOps ops ⟨∅, faults⟩).store
    ∃ calls, listDir d.toPath callback ⟨σ, []⟩ = .ok (calls, .ok ()) ⟨σ, []⟩ ∧
      ∀ e ∈ calls, ∃ i, stat (join [d.toPath, e.p]) ⟨σ, []⟩ = .ok i ⟨σ, []⟩ ∧
        (e.isDir = false → i.isDir = false ∧ i.info.size = e.info.size) ∧
        (e.isDir = true → (i.isDir = true ↔ buildMinioPath (join [d.toPath, e.p]) ∉ σ)) := by
  intro σ
  have hσ : σ.AllKeys DriverKey :=
    runOps_allKeys (fun _ => And.intro) ops _ fun _ h => absurd h (List.not_mem_nil _)
  refine ⟨_, listDir_toPath σ d hd hcb, fun e he => ?_⟩
  obtain ⟨o, ho, rfl⟩ := List.mem_map.1 he
  exact stat_of_listed σ hσ d rfl ho

theorem listDir_stat_agree_a :
    byteLength (buildMinioDir AbsPath.root.toPath) ≤ 1024 ∧
    (∀ i : FileInfo, (fun _ => .ok ()) i = (.ok () : Except Error Unit)) ∧
    let σ := (runOps [.makeDir (AbsPath.root.child ['a'] (by decide))] ⟨∅, []⟩).store
    ∃ calls, listDir AbsPath.root.toPath (fun _ => .ok ()) ⟨σ, []⟩ = .ok (calls, .ok ()) ⟨σ, []⟩ ∧
      ∀ e ∈ calls, ∃ i, stat (join [AbsPath.root.toPath, e.p]) ⟨σ, []⟩ = .ok i ⟨σ, []⟩ ∧
        (e.isDir = false → i.isDir = false ∧ i.info.size = e.info.size) ∧
        (e.isDir = true →
          (i.isDir = true ↔ buildMinioPath (join [AbsPath.root.toPath, e.p]) ∉ σ)) :=
  ⟨by decide, fun _ => rfl, listDir_stat_agree _ _ _ (by decide) _ fun _ => rfl⟩

/-- A file and a directory of one name: after `PutFile "/a"` and `MakeDir "/a"` the bucket holds
the object `a` and the marker `a/`; `ListDir "/"` reports both, the marker as the directory
`a/`, and `Stat` of `path.Join("/", "a/")`, which is `/a`, reports the file. -/
theorem listDir_stat_disagree_file_and_dir :
    let σ := (runOps [.putFile (AbsPath.root.child ['a'] (by decide)) [1] (-1),
      .makeDir (AbsPath.root.child ['a'] (by decide))] ⟨∅, []⟩).store
    listDir ['/'] (fun _ => .ok ()) ⟨σ, []⟩ =
      .ok ([⟨['a'], { key := ['a'], size := 1 }, false⟩,
        ⟨['a', '/'], { key := ['a', '/'], size := 0 }, true⟩], .ok ()) ⟨σ, []⟩ ∧
    stat (join [['/'], ['a', '/']]) ⟨σ, []⟩ =
      .ok ⟨['a'], { key := ['a'], size := 1 }, false⟩ ⟨σ, []⟩ :=
  ⟨rfl, rfl⟩

/-! ### What `MakeDir` makes -/

/-- `MakeDir` returns nil only once minio-go has checked the marker and it is stored. -/
lemma makeDir_ok {path : List Char} {b b' : Bucket} (h : makeDir path b = .ok () b') :
    ValidObjectName (buildMinioDir path) ∧ b'.store = b.store.insert (buildMinioDir path) [] := by
  simp only [makeDir, bind_apply, putObject_apply, pure_apply] at h
  rcases checkValidObjectName_cases (buildMinioDir path) with ⟨hv, hc⟩ | ⟨-, e, hc⟩ <;>
    simp only [hc] at h
  · split_ifs at h
    cases h
    exact ⟨hv, rfl⟩
  · cases h

/-- A directory's marker is no longer than the marker of any of its children. -/
lemma byteLength_buildMinioDir_le_child (d : AbsPath) {s : List Char} (hs : IsName s) :
    byteLength (buildMinioDir d.toPath) ≤ byteLength (buildMinioDir (d.child s hs).toPath) := by
  rw [buildMinioDir_toPath, buildMinioDir_toPath]
  rcases eq_or_ne d.names [] with hn | hn
  · -- the root's marker `/`, against `s/`
    simp [hn, AbsPath.child, List.intercalate, byteLength_append]
  · exact byteLength_le_of_isPrefix ⟨s ++ ['/'], by simp [AbsPath.child, intercalate_append_singleton hn]⟩

/-- **`MakeDir` makes a directory that `Stat` and the parent's `ListDir` show.** Once
`MakeDir (d/s)` has returned nil, and when no request fails: `Stat (d/s)` succeeds, and reports
a directory unless it finds a file, an object minio-go can stat at the key of `d/s` itself (a
file of the same name hides the directory); and `ListDir d`, with a callback that never fails,
hands over the directory entry `s ++ "/"`.

**Proof sketch.** The marker of `d/s` is now held, and minio-go checked that it is at most 1024
bytes long; it starts with the marker of `d/s` and with the listing prefix of `d` followed by
`s` and `'/'`: `stat_of_key_below_marker` and `Store.mem_children_iff`. -/
theorem makeDir_shows_directory (d : AbsPath) {s : List Char} (hs : IsName s) {b b' : Bucket}
    (h : makeDir (d.child s hs).toPath b = .ok () b')
    (callback : FileInfo → Except Error Unit) (hcb : ∀ i, callback i = .ok ()) :
    (∃ i, stat (d.child s hs).toPath ⟨b'.store, []⟩ = .ok i ⟨b'.store, []⟩ ∧
      (i.isDir = true ↔ ¬ (ValidObjectName (buildMinioPath (d.child s hs).toPath) ∧
        buildMinioPath (d.child s hs).toPath ∈ b'.store))) ∧
    ∃ calls, listDir d.toPath callback ⟨b'.store, []⟩ = .ok (calls, .ok ()) ⟨b'.store, []⟩ ∧
      ∃ i ∈ calls, i.p = s ++ ['/'] ∧ i.isDir = true := by
  obtain ⟨hvalid, hst⟩ := makeDir_ok h
  have hP := (byteLength_buildMinioDir_le_child d hs).trans hvalid.2
  rw [buildMinioDir_toPath] at hst hvalid
  have hk : ['/'].intercalate (d.child s hs).names ++ ['/'] ∈ b'.store.keys := by
    rw [hst]
    exact AList.mem_keys.1 ((AList.mem_insert _).2 (.inl rfl))
  refine ⟨stat_of_key_below_marker _ _ hk hvalid.2 List.prefix_rfl, _,
    listDir_toPath _ d hP hcb, ?_⟩
  obtain ⟨o, ho, hname⟩ := List.mem_map.1 (Store.mem_children_iff.2 (.inr ⟨rfl, s, rfl,
    hs.slash_not_mem, _, hk, by rw [listPrefix_append]; exact List.prefix_rfl⟩))
  exact ⟨_, List.mem_map_of_mem _ ho, (Prod.ext_iff.1 hname).1, (Prod.ext_iff.1 hname).2⟩

theorem makeDir_shows_directory_a :
    IsName ['a'] ∧
    makeDir (AbsPath.root.child ['a'] (by decide)).toPath ⟨∅, []⟩ =
      .ok () ⟨(∅ : Store).insert ['a', '/'] [], []⟩ ∧
    (∀ i : FileInfo, (fun _ => .ok ()) i = (.ok () : Except Error Unit)) ∧
    (∃ i, stat (AbsPath.root.child ['a'] (by decide)).toPath
        ⟨(∅ : Store).insert ['a', '/'] [], []⟩ = .ok i ⟨(∅ : Store).insert ['a', '/'] [], []⟩ ∧
      (i.isDir = true ↔
        ¬ (ValidObjectName (buildMinioPath (AbsPath.root.child ['a'] (by decide)).toPath) ∧
          buildMinioPath (AbsPath.root.child ['a'] (by decide)).toPath ∈
            (∅ : Store).insert ['a', '/'] []))) ∧
    ∃ calls, listDir AbsPath.root.toPath (fun _ => .ok ()) ⟨(∅ : Store).insert ['a', '/'] [], []⟩ =
        .ok (calls, .ok ()) ⟨(∅ : Store).insert ['a', '/'] [], []⟩ ∧
      ∃ i ∈ calls, i.p = ['a'] ++ ['/'] ∧ i.isDir = true :=
  ⟨by decide, rfl, fun _ => rfl,
    @makeDir_shows_directory AbsPath.root ['a'] (by decide) ⟨∅, []⟩
      ⟨(∅ : Store).insert ['a', '/'] [], []⟩ rfl _ fun _ => rfl⟩

end Driver

end Minio

end Netftp
