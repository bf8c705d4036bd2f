import Netftp.Server.MinioDriver
import Netftp.Minio.Reachable

/-!
# Reading the tree with the older driver: `Stat` and `ListDir`

What `server.MinioDriver`'s `Stat` and `ListDir` report for a cleaned absolute path when no
request fails in transit. Both read the store through a listing delimited by `'/'` under the
bare key of the path, without the trailing `'/'` the later `Driver` adds. A key that merely
continues the path's key, such as `foobar` for `/foo`, therefore counts as much as a key under
`foo/`; and the listing of a directory `/foo` holding only files is the one entry `foo/`.

## Main results

* `Netftp.Server.MinioDriver.stat_toPath` — `Stat` of a path other than the root: the object
  of its key if minio-go sends the name and the store holds it, else a directory when some key
  starts with that key, else `Not a directory`.
* `Netftp.Server.MinioDriver.stat_succeeds_iff_key_extends` — `Stat` succeeds exactly when
  some key starts with the path's key, and reports a directory exactly when it finds no file.
* `Netftp.Server.MinioDriver.listDir_reports_listing` — `ListDir` hands over the delimited
  listing under the path's key, each item once, under its whole key and as a file.

## Design

As for the later driver (`Netftp.Minio.Lookup`), minio-go's checks of names and listing prefixes
are part of what `Stat` and `ListDir` report: a path whose key is blank, or longer than 1024
bytes, is not stat'ed as an object, and a listing prefix longer than 1024 bytes is refused.
-/

set_option autoImplicit false

namespace Netftp

namespace Server

open Client

/-- The key of a cleaned absolute path: its elements joined by `'/'`. -/
@[simp] lemma buildMinioPath_toPath (d : AbsPath) :
    buildMinioPath d.toPath = ['/'].intercalate d.names :=
  trimPrefix_append ['/'] _

namespace MinioDriver

variable (σ : Store)

/-! ### `Stat` -/

/-- `isDir` when no request fails: whether some key starts with the path's key, when that key
is at most 1024 bytes long; for a longer key, minio-go's refusal of the listing prefix. -/
lemma isDir_reliable (path : List Char) :
    isDir path ⟨σ, []⟩ =
      if byteLength (buildMinioPath path) ≤ 1024 then
        .ok (decide (∃ k ∈ σ.keys, buildMinioPath path <+: k)) ⟨σ, []⟩
      else .error .objectNameTooLong ⟨σ, []⟩ := by
  simp only [isDir, bind_apply, listObjects_reliable]
  split_ifs with hb
  · rcases h : σ.listObjects (buildMinioPath path) false with _ | ⟨o, os⟩
    · -- the listing is empty: no key lies under the path's key
      have hk : ¬ ∃ k ∈ σ.keys, buildMinioPath path <+: k := fun hk => by
        obtain ⟨o, ho⟩ := Store.exists_mem_listObjects_false_iff.2 hk
        simp [h] at ho
      simp [hk]
    · have ho : o ∈ σ.listObjects (buildMinioPath path) false := by simp [h]
      simp [Store.err_of_mem_listObjects ho, Store.exists_mem_listObjects_false_iff.1 ⟨o, ho⟩]
  · simp [errItem]

/-- `Stat` of a cleaned path other than the root, with `f` its key, when no request fails: the
object `f` if minio-go sends the name and the store holds it; else, when `f` is at most 1024
bytes long, a directory if some key starts with `f` and the error `Not a directory` if none
does; else minio-go's refusal of the listing prefix `f`. -/
lemma stat_toPath (d : AbsPath) (hd : d.names ≠ []) :
    stat d.toPath ⟨σ, []⟩ =
      let f := ['/'].intercalate d.names
      match if ValidObjectName f then σ.lookup f else none with
      | some v => .ok ⟨f, { key := f, size := v.length }, false⟩ ⟨σ, []⟩
      | none =>
        if byteLength f ≤ 1024 then
          if ∃ k ∈ σ.keys, f <+: k then .ok ⟨d.toPath, default, true⟩ ⟨σ, []⟩
          else .error .notADirectory ⟨σ, []⟩
        else .error .objectNameTooLong ⟨σ, []⟩ := by
  simp only [stat, Minio.toPath_ne_root hd, if_false, buildMinioPath_toPath, bind_apply,
    pure_apply, attempt_apply, statObject_apply]
  have hdir := isDir_reliable σ d.toPath
  rw [buildMinioPath_toPath] at hdir
  by_cases hb : byteLength (['/'].intercalate d.names) ≤ 1024
  · rw [if_pos hb] at hdir
    rcases checkValidObjectName_cases (['/'].intercalate d.names) with ⟨hf, hc⟩ | ⟨hf, e, hc⟩
    · rw [hc, if_pos hf]
      rcases hv : σ.lookup (['/'].intercalate d.names) with _ | v
      · simp only [Bucket.not_drops_nil, if_false, List.tail_nil, hv, bind_apply, hdir,
          decide_eq_true_eq, if_pos hb]
        split_ifs <;> rfl
      · simp [hv]
    · simp only [hc, if_neg hf, bind_apply, hdir, decide_eq_true_eq, if_pos hb]
      split_ifs <;> rfl
  · rw [if_neg hb] at hdir
    have hf : ¬ ValidObjectName (['/'].intercalate d.names) := fun h => hb h.2
    obtain ⟨e, hc⟩ : ∃ e, S3Utils.checkValidObjectName (['/'].intercalate d.names) = .error e :=
      ((checkValidObjectName_cases _).resolve_left fun h => hf h.1).2
    simp only [hc, if_neg hf, bind_apply, hdir, if_neg hb]

/-- **What the older `Stat` reports.** For a cleaned path `d` other than the root, with
`f = buildMinioPath d`, and no request failing: `Stat d` succeeds exactly when `f` is at most
1024 bytes long and some key starts with `f` (the object `f`, a key under `f/`, or a sibling
such as `fbar`), and then it reports a directory exactly when it finds no file, that is unless
the store holds the object `f` and minio-go sends the name `f` (not blank).

**Proof sketch.** Read off `stat_toPath`: the object `f` is found first and reported as a
file; otherwise `isDir` asks whether the listing under `f` delivers anything. -/
theorem stat_succeeds_iff_key_extends (d : AbsPath) (hd : d.toPath ≠ ['/']) :
    ((∃ i b, stat d.toPath ⟨σ, []⟩ = .ok i b) ↔
      byteLength (buildMinioPath d.toPath) ≤ 1024 ∧ ∃ k ∈ σ.keys, buildMinioPath d.toPath <+: k) ∧
    ∀ i b, stat d.toPath ⟨σ, []⟩ = .ok i b →
      (i.isDir = true ↔ ¬ (ValidObjectName (buildMinioPath d.toPath) ∧ buildMinioPath d.toPath ∈ σ)) := by
  have hn : d.names ≠ [] := fun h => hd (by simp [AbsPath.toPath, h, List.intercalate])
  simp only [stat_toPath σ d hn, buildMinioPath_toPath, ← AList.lookup_isSome]
  by_cases hf : ValidObjectName (['/'].intercalate d.names)
  · simp only [hf, if_true, true_and]
    cases hv : σ.lookup (['/'].intercalate d.names) with
    | none =>
      by_cases hb : byteLength (['/'].intercalate d.names) ≤ 1024 <;>
        by_cases hk : ∃ k ∈ σ.keys, ['/'].intercalate d.names <+: k <;> simp [hb, hk]
    | some v =>
      -- the object `f` is itself a key starting with `f`, and minio-go sends its name
      have hk : ∃ k ∈ σ.keys, ['/'].intercalate d.names <+: k :=
        ⟨_, AList.mem_keys.1 (AList.lookup_isSome.1 (by simp [hv])), List.prefix_refl _⟩
      simp [hk, hf.2]
  · simp only [hf, if_false, false_and, not_false_eq_true, iff_true]
    by_cases hb : byteLength (['/'].intercalate d.names) ≤ 1024 <;>
      by_cases hk : ∃ k ∈ σ.keys, ['/'].intercalate d.names <+: k <;> simp [hb, hk]

/-- `stat_succeeds_iff_key_extends` at `/a` over a store holding only `a/x`. -/
theorem stat_succeeds_iff_key_extends_a :
    (AbsPath.mk [['a']] (by decide)).toPath ≠ ['/'] ∧
    (((∃ i b, stat (AbsPath.mk [['a']] (by decide)).toPath
          ⟨(∅ : Store).insert ['a', '/', 'x'] [], []⟩ = .ok i b) ↔
        byteLength (buildMinioPath (AbsPath.mk [['a']] (by decide)).toPath) ≤ 1024 ∧
        ∃ k ∈ ((∅ : Store).insert ['a', '/', 'x'] []).keys,
          buildMinioPath (AbsPath.mk [['a']] (by decide)).toPath <+: k) ∧
      ∀ i b, stat (AbsPath.mk [['a']] (by decide)).toPath
          ⟨(∅ : Store).insert ['a', '/', 'x'] [], []⟩ = .ok i b →
        (i.isDir = true ↔
          ¬ (ValidObjectName (buildMinioPath (AbsPath.mk [['a']] (by decide)).toPath) ∧
            buildMinioPath (AbsPath.mk [['a']] (by decide)).toPath ∈
              (∅ : Store).insert ['a', '/', 'x'] []))) :=
  ⟨by decide, stat_succeeds_iff_key_extends _ _ (by decide)⟩

/-- On a well-formed bucket holding only `foobar`, `Stat` of `/foo` succeeds and reports a
directory, although there is no object `foo` and no key starts with `foo/`. -/
theorem stat_sibling_makes_directory :
    Store.WellFormed ((∅ : Store).insert ['f', 'o', 'o', 'b', 'a', 'r'] []) ∧
    stat ['/', 'f', 'o', 'o'] ⟨(∅ : Store).insert ['f', 'o', 'o', 'b', 'a', 'r'] [], []⟩ =
      .ok ⟨['/', 'f', 'o', 'o'], default, true⟩
        ⟨(∅ : Store).insert ['f', 'o', 'o', 'b', 'a', 'r'] [], []⟩ ∧
    ['f', 'o', 'o'] ∉ (∅ : Store).insert ['f', 'o', 'o', 'b', 'a', 'r'] [] ∧
    ∀ k ∈ ((∅ : Store).insert ['f', 'o', 'o', 'b', 'a', 'r'] []).keys,
      ¬ ['f', 'o', 'o', '/'] <+: k :=
  ⟨by decide, rfl, by decide, by decide⟩

/-! ### `ListDir` -/

/-- With a callback that never fails, over items that carry no error, the loop of `ListDir`
hands over every item, under its whole key and as a file. -/
lemma visitObjects_of_ok {callback : Minio.FileInfo → Except Error Unit}
    (hcb : ∀ i, callback i = .ok ()) (objects : List ObjectInfo)
    (herr : ∀ o ∈ objects, o.err = none) :
    visitObjects callback objects = (objects.map fun o => ⟨o.key, o, false⟩, .ok ()) := by
  induction objects with
  | nil => rfl
  | cons o os ih =>
    simp [visitObjects, herr o (List.mem_cons_self _ _), hcb,
      ih fun o' h => herr o' (List.mem_cons_of_mem _ h)]

/-- `ListDir` with a callback that never fails, when no request fails and the path's key is at
most 1024 bytes long: the delimited listing under the path's key, each item under its whole key
and as a file. -/
lemma listDir_ok (path : List Char) (hP : byteLength (buildMinioPath path) ≤ 1024)
    {callback : Minio.FileInfo → Except Error Unit} (hcb : ∀ i, callback i = .ok ()) :
    listDir path callback ⟨σ, []⟩ =
      .ok ((σ.listObjects (buildMinioPath path) false).map fun o => ⟨o.key, o, false⟩, .ok ())
        ⟨σ, []⟩ := by
  simp only [listDir, bind_apply, pure_apply, listObjects_reliable, if_pos hP]
  rw [visitObjects_of_ok hcb _ fun o ho => Store.err_of_mem_listObjects ho]

/-- **What the older `ListDir` reports.** For a path with key `f = buildMinioPath path` (the
empty key for the root) at most 1024 bytes long (minio-go refuses a longer listing prefix), a
callback that never fails and no request failing, `ListDir path` returns nil and hands the callback one entry for each item of the listing delimited by `'/'`
under `f`, and for nothing else, each named by its whole key and reported as a file: each object
`f ++ r` with no `'/'` in `r` (the object `f` and siblings such as `fbar` included), and each
`f ++ t ++ "/"`, with no `'/'` in `t`, under which some key lies.

**Proof sketch.** `listDir_ok` reduces `ListDir` to the listing; `Store.mem_keys_listObjects_false`
and `Store.nodup_listObjects_false` describe its keys. -/
theorem listDir_reports_listing (path : List Char) (hP : byteLength (buildMinioPath path) ≤ 1024)
    (callback : Minio.FileInfo → Except Error Unit) (hcb : ∀ i, callback i = .ok ()) :
    let f := buildMinioPath path
    ∃ calls, listDir path callback ⟨σ, []⟩ = .ok (calls, .ok ()) ⟨σ, []⟩ ∧
      (calls.map fun i => i.p).Nodup ∧ (∀ i ∈ calls, i.isDir = false) ∧
      ∀ name, name ∈ calls.map (fun i => i.p) ↔
        (name ∈ σ ∧ ∃ r, name = f ++ r ∧ '/' ∉ r) ∨
        (∃ t, '/' ∉ t ∧ name = f ++ t ++ ['/'] ∧ ∃ k ∈ σ.keys, name <+: k) := by
  dsimp only
  refine ⟨_, listDir_ok σ path hP hcb, ?_, by simp, fun name => ?_⟩
  · simpa [List.map_map, Function.comp_def] using Store.nodup_listObjects_false
  · simpa [List.map_map, Function.comp_def] using Store.mem_keys_listObjects_false

/-- `listDir_reports_listing` at the root of an empty store. -/
theorem listDir_reports_listing_root :
    byteLength (buildMinioPath ['/']) ≤ 1024 ∧
    (∀ i : Minio.FileInfo, (fun _ => .ok ()) i = (.ok () : Except Error Unit)) ∧
    ∃ calls, listDir ['/'] (fun _ => .ok ()) ⟨∅, []⟩ = .ok (calls, .ok ()) ⟨∅, []⟩ ∧
      (calls.map fun i => i.p).Nodup ∧ (∀ i ∈ calls, i.isDir = false) ∧
      ∀ name, name ∈ calls.map (fun i => i.p) ↔
        (name ∈ (∅ : Store) ∧ ∃ r, name = buildMinioPath ['/'] ++ r ∧ '/' ∉ r) ∨
        (∃ t, '/' ∉ t ∧ name = buildMinioPath ['/'] ++ t ++ ['/'] ∧
          ∃ k ∈ (∅ : Store).keys, name <+: k) :=
  ⟨by decide, fun _ => rfl, listDir_reports_listing ∅ ['/'] (by decide) _ fun _ => rfl⟩

/-- Listing the directory `/foo` of a well-formed bucket holding only the file `foo/a` hands
the callback the one entry `foo/`, as a file, and never the child `a`. -/
theorem listDir_names_common_key :
    Store.WellFormed ((∅ : Store).insert ['f', 'o', 'o', '/', 'a'] []) ∧
    listDir ['/', 'f', 'o', 'o'] (fun _ => .ok ())
        ⟨(∅ : Store).insert ['f', 'o', 'o', '/', 'a'] [], []⟩ =
      .ok ([⟨['f', 'o', 'o', '/'], { key := ['f', 'o', 'o', '/'], size := 0 }, false⟩], .ok ())
        ⟨(∅ : Store).insert ['f', 'o', 'o', '/', 'a'] [], []⟩ :=
  ⟨by decide, rfl⟩

end MinioDriver

end Server

end Netftp
