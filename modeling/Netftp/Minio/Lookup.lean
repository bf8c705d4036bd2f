import Netftp.Minio.Driver

/-!
# Reading the tree: `Stat` and `ListDir`

What the minio driver's `Stat` and `ListDir` report for a cleaned absolute path, when no
request fails in transit. A file `/a/b` is the object `a/b`; a directory `/a` is either the
marker object `a/` or only the common prefix `a/` of the objects below it.

## Main results

* `Netftp.Minio.Driver.stat_toPath` — `Stat` of a path other than the root: the object of its
  key if minio-go sends the name and the store holds it, else a directory if any key lies under
  the key and `'/'` and that marker is short enough to list, else `Not a directory`.
* `Netftp.Minio.Driver.stat_succeeds_iff` — `Stat` succeeds exactly on files minio-go can name
  and on directories with a marker or with objects below them, and reports a directory exactly
  when it found no file.
* `Netftp.Minio.Driver.listDir_toPath` — `ListDir` is the delimited listing under the
  directory's prefix, without the prefix itself, when the prefix is at most 1024 bytes long.
* `Netftp.Minio.Driver.listDir_reports_children` — `ListDir` reports each immediate child
  once and nothing else; a directory child is named with its trailing `'/'`.
* `Netftp.Minio.Driver.listDir_stops_at_refused_entry` — for any callback, `ListDir` hands
  over the entries in listing order up to and including the first one the callback refuses,
  and returns that error.

## Design

minio-go checks a name before it sends a request: `StatObject` of a blank name or of one longer
than 1024 bytes fails without reaching the server, and `Stat` then takes the path for a
directory only if its marker can be listed. The results are stated with these checks; on the
stores the driver builds every key passes them.
-/

set_option autoImplicit false

namespace Netftp

namespace Minio

open Client

/-! ### The keys of a path other than the root -/

/-- The key of a cleaned path does not start with `'/'`: its first element is a name. -/
lemma not_slash_prefix_intercalate (d : AbsPath) : ¬ ['/'] <+: ['/'].intercalate d.names := by
  rcases hn : d.names with _ | ⟨a, l⟩
  · simp [List.intercalate]
  · have ha := d.isName a (by simp [hn])
    obtain ⟨c, a', rfl⟩ := List.exists_cons_of_ne_nil ha.ne_nil
    have hc : '/' ≠ c := fun h => ha.slash_not_mem (by simp [← h])
    cases l <;> simp [List.intercalate, hc]

@[simp] lemma buildMinioPath_intercalate (d : AbsPath) :
    buildMinioPath (['/'].intercalate d.names) = ['/'].intercalate d.names := by
  simp only [buildMinioPath]
  exact trimPrefix_of_not_prefix (not_slash_prefix_intercalate d)

@[simp] lemma buildMinioDir_intercalate (d : AbsPath) :
    buildMinioDir (['/'].intercalate d.names) = ['/'].intercalate d.names ++ ['/'] := by
  simp [buildMinioDir]

lemma intercalate_ne_nil {d : AbsPath} (hd : d.names ≠ []) : ['/'].intercalate d.names ≠ [] := by
  obtain ⟨a, l, hn⟩ := List.exists_cons_of_ne_nil hd
  have ha := (d.isName a (by simp [hn])).ne_nil
  cases l <;> simp [hn, List.intercalate, ha]

lemma toPath_ne_root {d : AbsPath} (hd : d.names ≠ []) : d.toPath ≠ ['/'] := by
  simpa [AbsPath.toPath] using intercalate_ne_nil hd

namespace Driver

variable (σ : Store)

/-! ### `Stat` -/

/-- `isDir` when no request fails: whether the marker `buildMinioDir path` is at most 1024 bytes
long and some key starts with it, the marker itself included. A longer marker is refused by
minio-go both as a name to stat and as a prefix to list. -/
lemma isDir_reliable (path : List Char) :
    isDir path ⟨σ, []⟩ = .ok (decide (byteLength (buildMinioDir path) ≤ 1024 ∧
      ∃ k ∈ σ.keys, buildMinioDir path <+: k)) ⟨σ, []⟩ := by
  have hc := checkValidObjectName_of_mem (slash_mem_buildMinioDir path) (by decide)
  have hl := listObjects_reliable σ (buildMinioDir path) false
  simp only [isDir, bind_apply, pure_apply, attempt_apply, statObject_apply, hc,
    S3Utils.checkValidObjectNamePrefix]
  by_cases hb : byteLength (buildMinioDir path) ≤ 1024
  · rw [if_pos hb] at hl
    simp only [not_lt.2 hb, if_false, Bucket.not_drops_nil, List.tail_nil, hb, true_and]
    cases hv : σ.lookup (buildMinioDir path) with
    | none =>
      simp only [bind_apply, hl, pure_apply, EStateM.Result.ok.injEq, and_true]
      exact Bool.eq_iff_iff.2 (Store.any_listObjects_false_iff.trans decide_eq_true_iff.symm)
    | some v =>
      have hk : ∃ k ∈ σ.keys, buildMinioDir path <+: k :=
        ⟨_, AList.mem_keys.1 (AList.lookup_isSome.1 (by simp [hv])), List.prefix_refl _⟩
      simp [hasSuffix_buildMinioDir, hk]
  · rw [if_neg hb] at hl
    have hne : hasPrefix [] (buildMinioDir path) = false := Bool.eq_false_iff.2 fun h =>
      List.ne_nil_of_mem (slash_mem_buildMinioDir path) (List.prefix_nil.1 (hasPrefix_iff.1 h))
    simp [lt_of_not_le hb, hb, hl, errItem, hne]

/-- `Stat` of a cleaned path other than the root, with `f` its key, when no request fails: the
object `f` if minio-go sends the name and the store holds it; else a directory when the marker
`f/` is at most 1024 bytes long and some key starts with it; else the error
`Not a directory`. -/
lemma stat_toPath (d : AbsPath) (hd : d.names ≠ []) :
    stat d.toPath ⟨σ, []⟩ =
      let f := ['/'].intercalate d.names
      match if ValidObjectName f then σ.lookup f else none with
      | some v => .ok ⟨f, { key := f, size := v.length }, false⟩ ⟨σ, []⟩
      | none =>
        if byteLength (f ++ ['/']) ≤ 1024 ∧ ∃ k ∈ σ.keys, f ++ ['/'] <+: k then
          .ok ⟨d.toPath, default, true⟩ ⟨σ, []⟩
        else .error .notADirectory ⟨σ, []⟩ := by
  simp only [stat, toPath_ne_root hd, if_false, buildMinioPath_toPath, bind_apply, pure_apply,
    attempt_apply, statObject_apply]
  have hdir := isDir_reliable σ (['/'].intercalate d.names)
  rw [buildMinioDir_intercalate] at hdir
  rcases checkValidObjectName_cases (['/'].intercalate d.names) with ⟨hf, hc⟩ | ⟨hf, e, hc⟩
  · rw [hc, if_pos hf]
    rcases hv : σ.lookup (['/'].intercalate d.names) with _ | v
    · simp only [Bucket.not_drops_nil, if_false, List.tail_nil, hv, bind_apply, hdir,
        decide_eq_true_eq]
      split_ifs <;> rfl
    · simp [hv]
  · simp only [hc, if_neg hf, bind_apply, hdir, decide_eq_true_eq]
    split_ifs <;> rfl

/-- **`Stat` tells files from directories.** For a cleaned path `d` other than the root, with
`f = buildMinioPath d` and `P = buildMinioDir d`, and no request failing: `Stat d` succeeds
exactly when the store holds the object `f` and minio-go sends the name `f` (not blank, at most
1024 bytes), or some key starts with `P` and `P` is at most 1024 bytes long; and then it reports
a directory exactly when the first does not hold.

**Proof sketch.** Read off `stat_toPath`: the object `f` is found first and reported as a
file, since `f` does not end in `'/'`; otherwise the directory test sees the marker `P` or a
listing under `P`. -/
theorem stat_succeeds_iff (d : AbsPath) (hd : d.toPath ≠ ['/']) :
    ((∃ i b, stat d.toPath ⟨σ, []⟩ = .ok i b) ↔
      (ValidObjectName (buildMinioPath d.toPath) ∧ buildMinioPath d.toPath ∈ σ) ∨
      (byteLength (buildMinioDir d.toPath) ≤ 1024 ∧ ∃ k ∈ σ.keys, buildMinioDir d.toPath <+: k)) ∧
    ∀ i b, stat d.toPath ⟨σ, []⟩ = .ok i b →
      (i.isDir = false ↔ ValidObjectName (buildMinioPath d.toPath) ∧ buildMinioPath d.toPath ∈ σ) := by
  have hn : d.names ≠ [] := fun h => hd (by simp [AbsPath.toPath, h, List.intercalate])
  simp only [stat_toPath σ d hn, buildMinioPath_toPath, buildMinioDir_toPath, ← AList.lookup_isSome]
  by_cases hf : ValidObjectName (['/'].intercalate d.names)
  · simp only [hf, if_true, true_and]
    cases σ.lookup (['/'].intercalate d.names) with
    | none => split_ifs with h <;> simp [h]
    | some v => simp
  · simp only [hf, if_false, false_and, false_or]
    split_ifs with h <;> simp [h]

/-- `stat_succeeds_iff` at `/a` over a store holding only `a/x`. -/
theorem stat_succeeds_iff_slash_a :
    (AbsPath.mk [['a']] (by decide)).toPath ≠ ['/'] ∧
    (((∃ i b, stat (AbsPath.mk [['a']] (by decide)).toPath
          ⟨(∅ : Store).insert ['a', '/', 'x'] [], []⟩ = .ok i b) ↔
        (ValidObjectName (buildMinioPath (AbsPath.mk [['a']] (by decide)).toPath) ∧
          buildMinioPath (AbsPath.mk [['a']] (by decide)).toPath ∈
            (∅ : Store).insert ['a', '/', 'x'] []) ∨
        (byteLength (buildMinioDir (AbsPath.mk [['a']] (by decide)).toPath) ≤ 1024 ∧
          ∃ k ∈ ((∅ : Store).insert ['a', '/', 'x'] []).keys,
            buildMinioDir (AbsPath.mk [['a']] (by decide)).toPath <+: k)) ∧
      ∀ i b, stat (AbsPath.mk [['a']] (by decide)).toPath
          ⟨(∅ : Store).insert ['a', '/', 'x'] [], []⟩ = .ok i b →
        (i.isDir = false ↔
          ValidObjectName (buildMinioPath (AbsPath.mk [['a']] (by decide)).toPath) ∧
          buildMinioPath (AbsPath.mk [['a']] (by decide)).toPath ∈
            (∅ : Store).insert ['a', '/', 'x'] [])) :=
  ⟨by decide, stat_succeeds_iff _ _ (by decide)⟩

/-- A store holding the object ` `, whose key is blank: minio-go refuses to stat the name, no
key lies under the marker ` /`, and `Stat "/ "` reports `Not a directory` although the store
holds the path's key. -/
theorem stat_blank_key_not_a_directory :
    buildMinioPath (AbsPath.mk [[' ']] (by decide)).toPath ∈ (∅ : Store).insert [' '] [] ∧
    stat (AbsPath.mk [[' ']] (by decide)).toPath ⟨(∅ : Store).insert [' '] [], []⟩ =
      .error .notADirectory ⟨(∅ : Store).insert [' '] [], []⟩ :=
  ⟨by decide, rfl⟩

/-! ### `ListDir` -/

/-- With a callback that never fails, over objects that carry no error, the loop of `ListDir`
hands over every object but the directory's own marker `p`, named by its key after `p`. -/
lemma visitObjects_of_ok (p : List Char) {callback : FileInfo → Except Error Unit}
    (hcb : ∀ i, callback i = .ok ()) (objects : List ObjectInfo)
    (herr : ∀ o ∈ objects, o.err = none) :
    visitObjects p callback objects =
      (((objects.filter fun o => o.key != p).map fun o =>
        ⟨trimPrefix o.key p, o, hasSuffix o.key ['/']⟩), .ok ()) := by
  induction objects with
  | nil => rfl
  | cons o os ih =>
    have ih' := ih fun o' h => herr o' (List.mem_cons_of_mem _ h)
    by_cases hk : o.key = p <;> simp [visitObjects, herr o (List.mem_cons_self _ _), hk, hcb, ih']

lemma buildMinioDir_eq_root_iff (d : AbsPath) : buildMinioDir d.toPath = ['/'] ↔ d.toPath = ['/'] := by
  by_cases hn : d.names = []
  · simp only [AbsPath.toPath, hn, List.intercalate, List.intersperse_nil, List.flatten_nil]
    decide
  · simp [toPath_ne_root hn, intercalate_ne_nil hn]

/-- The prefix `ListDir` lists under, the marker or nothing for the root, is no longer than the
marker. -/
lemma byteLength_listPrefix {path : List Char} (hP : byteLength (buildMinioDir path) ≤ 1024) :
    byteLength (if buildMinioDir path = ['/'] then [] else buildMinioDir path) ≤ 1024 := by
  split_ifs
  · exact Nat.zero_le _
  · exact hP

/-- `ListDir` of a cleaned path with a callback that never fails, when no request fails and the
directory's marker is at most 1024 bytes long: the entries of the delimited listing under the
directory's prefix `P` (empty for the root), but `P` itself, each named by its key after `P`. -/
lemma listDir_toPath (d : AbsPath) (hP : byteLength (buildMinioDir d.toPath) ≤ 1024)
    {callback : FileInfo → Except Error Unit} (hcb : ∀ i, callback i = .ok ()) :
    listDir d.toPath callback ⟨σ, []⟩ =
      let P := if d.toPath = ['/'] then [] else buildMinioDir d.toPath
      .ok ((((σ.listObjects P false).filter fun o => o.key != P).map fun o =>
        ⟨trimPrefix o.key P, o, hasSuffix o.key ['/']⟩), .ok ()) ⟨σ, []⟩ := by
  have hP' := byteLength_listPrefix hP
  simp only [buildMinioDir_eq_root_iff] at hP'
  simp only [listDir, buildMinioDir_eq_root_iff, bind_apply, pure_apply, listObjects_reliable,
    if_pos hP']
  rw [visitObjects_of_ok _ hcb _ fun o ho => Store.err_of_mem_listObjects ho]

/-- **`ListDir` lists the immediate children, directories with a trailing `'/'`.** For a
cleaned directory `d`, with `P = buildMinioDir d` (the empty prefix for the root), a callback
that never fails and no request failing, `ListDir d` returns no error and hands the callback
one entry for each immediate child of `d` and for nothing else, when `buildMinioDir d` is at
most 1024 bytes long (minio-go refuses a longer listing prefix): a file `P ++ s` (`s`
non-empty, without `'/'`) as the name `s` with `IsDir` false, and a directory `s` (some key
starts with `P ++ s ++ "/"`) as the name `s ++ "/"` with `IsDir` true.

**Proof sketch.** `listDir_toPath` reduces `ListDir` to the delimited listing under `P` with
`P` itself left out; `Store.mem_children_iff` and `Store.nodup_children` describe its entries. -/
theorem listDir_reports_children (d : AbsPath) (hP : byteLength (buildMinioDir d.toPath) ≤ 1024)
    (callback : FileInfo → Except Error Unit) (hcb : ∀ i, callback i = .ok ()) :
    let P := if d.toPath = ['/'] then [] else buildMinioDir d.toPath
    ∃ calls, listDir d.toPath callback ⟨σ, []⟩ = .ok (calls, .ok ()) ⟨σ, []⟩ ∧
      (calls.map fun i => (i.p, i.isDir)).Nodup ∧
      ∀ name isDir, (name, isDir) ∈ calls.map (fun i => (i.p, i.isDir)) ↔
        (isDir = false ∧ name ≠ [] ∧ '/' ∉ name ∧ P ++ name ∈ σ) ∨
        (isDir = true ∧ ∃ s, name = s ++ ['/'] ∧ '/' ∉ s ∧ ∃ k ∈ σ.keys, P ++ s ++ ['/'] <+: k) := by
  dsimp only
  refine ⟨_, listDir_toPath σ d hP hcb, ?_, fun name isDir => ?_⟩
  · simpa [List.map_map, Function.comp_def] using Store.nodup_children
  · simpa [List.map_map, Function.comp_def] using Store.mem_children_iff

/-- `listDir_reports_children` at the root of an empty store. -/
theorem listDir_reports_children_root :
    byteLength (buildMinioDir AbsPath.root.toPath) ≤ 1024 ∧
    (∀ i : FileInfo, (fun _ => .ok ()) i = (.ok () : Except Error Unit)) ∧
    ∃ calls, listDir AbsPath.root.toPath (fun _ => .ok ()) ⟨∅, []⟩ = .ok (calls, .ok ()) ⟨∅, []⟩ ∧
      (calls.map fun i => (i.p, i.isDir)).Nodup ∧
      ∀ name isDir, (name, isDir) ∈ calls.map (fun i => (i.p, i.isDir)) ↔
        (isDir = false ∧ name ≠ [] ∧ '/' ∉ name ∧
          (if AbsPath.root.toPath = ['/'] then [] else buildMinioDir AbsPath.root.toPath) ++ name ∈
            (∅ : Store)) ∨
        (isDir = true ∧ ∃ s, name = s ++ ['/'] ∧ '/' ∉ s ∧ ∃ k ∈ (∅ : Store).keys,
          (if AbsPath.root.toPath = ['/'] then [] else buildMinioDir AbsPath.root.toPath) ++ s ++ ['/']
            <+: k) :=
  ⟨by decide, fun _ => rfl, listDir_reports_children ∅ AbsPath.root (by decide) _ fun _ => rfl⟩

/-- The directory `/a`, present only as its marker `a/`, is listed at the root under the name
`a/`: the name keeps the delimiter. -/
theorem listDir_root_names_marker_with_slash :
    listDir ['/'] (fun _ => .ok ()) ⟨(∅ : Store).insert ['a', '/'] [], []⟩ =
      .ok ([⟨['a', '/'], { key := ['a', '/'], size := 0 }, true⟩], .ok ())
        ⟨(∅ : Store).insert ['a', '/'] [], []⟩ := by
  rfl

/-! ### A callback that refuses an entry -/

/-- The loop of `ListDir` over objects that carry no error, for any callback: either the
callback accepts every entry and all are handed over, or the entries split at the first one it
refuses, which is the last handed over, and its error is returned. -/
lemma visitObjects_accepts_all_or_stops (p : List Char) (callback : FileInfo → Except Error Unit) :
    ∀ objects : List ObjectInfo, (∀ o ∈ objects, o.err = none) →
      let full := (objects.filter fun o => o.key != p).map
        fun o => (⟨trimPrefix o.key p, o, hasSuffix o.key ['/']⟩ : FileInfo)
      ((∀ i ∈ full, callback i = .ok ()) ∧ visitObjects p callback objects = (full, .ok ())) ∨
      ∃ pre i post e, full = pre ++ i :: post ∧ (∀ j ∈ pre, callback j = .ok ()) ∧
        callback i = .error e ∧ visitObjects p callback objects = (pre ++ [i], .error e)
  | [], _ => .inl ⟨by simp, rfl⟩
  | o :: os, herr => by
    have ih := visitObjects_accepts_all_or_stops p callback os fun o' h => herr o' (List.mem_cons_of_mem _ h)
    dsimp only at ih ⊢
    have he := herr o (List.mem_cons_self _ _)
    by_cases hk : o.key = p
    · -- the directory's own marker is skipped
      simpa [visitObjects, he, hk] using ih
    rcases hc : callback ⟨trimPrefix o.key p, o, hasSuffix o.key ['/']⟩ with e | ⟨⟩
    · -- refused at once
      exact .inr ⟨[], ⟨trimPrefix o.key p, o, hasSuffix o.key ['/']⟩,
        ((os.filter fun o => o.key != p).map
          fun o => (⟨trimPrefix o.key p, o, hasSuffix o.key ['/']⟩ : FileInfo)), e,
        by simp [hk], by simp, hc, by simp [visitObjects, he, hk, hc]⟩
    · -- accepted: the rest of the loop decides
      rcases ih with ⟨hall, hv⟩ | ⟨pre, i, post, e, hfull, hpre, hi, hv⟩
      · exact .inl ⟨by simpa [hk, hc] using hall, by simp [visitObjects, he, hk, hc, hv]⟩
      · refine .inr ⟨⟨trimPrefix o.key p, o, hasSuffix o.key ['/']⟩ :: pre, i, post, e,
          by simp [hk, hfull], ?_, hi, by simp [visitObjects, he, hk, hc, hv]⟩
        simpa [hc] using hpre

/-- **`ListDir` stops at the first entry its callback refuses.** For any path and any callback,
when no request fails, `ListDir` walks in order the entries it would hand a callback that never
fails (`full`: the delimited listing under its prefix `P`, without `P` itself). Either the
callback accepts them all, and `ListDir` returns nil having handed over every one; or the
entries split as `pre ++ i :: post`, the callback accepting `pre` and refusing `i` with `e`, and
`ListDir` hands over `pre` and `i`, none of `post`, and returns `e`. The directory's marker is
at most 1024 bytes long: minio-go refuses a longer listing prefix before any entry is seen. -/
theorem listDir_stops_at_refused_entry (σ : Store) (path : List Char)
    (hP : byteLength (buildMinioDir path) ≤ 1024) (callback : FileInfo → Except Error Unit) :
    let P := if buildMinioDir path = ['/'] then [] else buildMinioDir path
    let full := ((σ.listObjects P false).filter fun o => o.key != P).map
      fun o => (⟨trimPrefix o.key P, o, hasSuffix o.key ['/']⟩ : FileInfo)
    ((∀ i ∈ full, callback i = .ok ()) ∧
      listDir path callback ⟨σ, []⟩ = .ok (full, .ok ()) ⟨σ, []⟩) ∨
    ∃ pre i post e, full = pre ++ i :: post ∧ (∀ j ∈ pre, callback j = .ok ()) ∧
      callback i = .error e ∧ listDir path callback ⟨σ, []⟩ = .ok (pre ++ [i], .error e) ⟨σ, []⟩ := by
  dsimp only
  simp only [listDir, bind_apply, pure_apply, listObjects_reliable, if_pos (byteLength_listPrefix hP)]
  rcases visitObjects_accepts_all_or_stops _ callback _ fun o ho => Store.err_of_mem_listObjects ho with
    ⟨hall, hv⟩ | ⟨pre, i, post, e, hfull, hpre, hi, hv⟩
  · exact .inl ⟨hall, by rw [hv]⟩
  · exact .inr ⟨pre, i, post, e, hfull, hpre, hi, by rw [hv]⟩

/-- `listDir_stops_at_refused_entry` at the root of the empty store. -/
theorem listDir_stops_at_refused_entry_root :
    byteLength (buildMinioDir ['/']) ≤ 1024 ∧
    let P := if buildMinioDir ['/'] = ['/'] then [] else buildMinioDir ['/']
    let full := (((∅ : Store).listObjects P false).filter fun o => o.key != P).map
      fun o => (⟨trimPrefix o.key P, o, hasSuffix o.key ['/']⟩ : FileInfo)
    ((∀ i ∈ full, (fun _ : FileInfo => (.ok () : Except Error Unit)) i = .ok ()) ∧
      listDir ['/'] (fun _ => .ok ()) ⟨∅, []⟩ = .ok (full, .ok ()) ⟨∅, []⟩) ∨
    ∃ pre i post e, full = pre ++ i :: post ∧
      (∀ j ∈ pre, (fun _ : FileInfo => (.ok () : Except Error Unit)) j = .ok ()) ∧
      (fun _ : FileInfo => (.ok () : Except Error Unit)) i = .error e ∧
      listDir ['/'] (fun _ => .ok ()) ⟨∅, []⟩ = .ok (pre ++ [i], .error e) ⟨∅, []⟩ :=
  ⟨by decide, listDir_stops_at_refused_entry ∅ ['/'] (by decide) _⟩

end Driver

end Minio

end Netftp
