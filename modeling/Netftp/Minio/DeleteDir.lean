import Netftp.Minio.Driver

/-!
# Removing a directory: `DeleteDir`

Both driver revisions remove a directory the same way: they list the keys under a prefix and
remove each listed key in turn, stopping at the first error (`removeListed`). This module says
what that loop does for every store and every point at which a request can fail, and then what
the minio driver's `DeleteDir` removes: every key that starts with the path's key, which has no
trailing `'/'`.

## Main results

* `Netftp.Minio.Driver.removeObjects_take` — whichever requests fail, the loop has removed the
  keys of some first objects it was given and changed nothing else.
* `Netftp.Minio.Driver.removeListed_run` — the same for the keys a listing delivers.
* `Netftp.Minio.Driver.deleteDir_agreeOff` — `DeleteDir` changes only the keys that start with
  `buildMinioPath path`, as a `Client.Preserves` fact.
* `Netftp.Minio.Driver.deleteDir_removes_prefix` — `DeleteDir` changes only the keys that start
  with `buildMinioPath path`, and when it returns nil no such key is left.
* `Netftp.Minio.Driver.deleteDir_removes_listing_prefix` — whichever requests fail, `DeleteDir`
  has removed the first `n` objects of its listing and nothing else.
* `Netftp.Minio.Driver.deleteDir_local` — on a reliable network `DeleteDir` reads only the keys
  under its prefix.
-/

set_option autoImplicit false

namespace Netftp

namespace Minio

namespace Driver

open Client

/-! ### The removal loop -/

lemma removeObjects_cons_apply (object : ObjectInfo) (objects : List ObjectInfo) (b : Bucket) :
    removeObjects (object :: objects) b =
      match object.err with
      | some e => .error e b
      | none => match removeObject object.key b with
        | .ok () b' => removeObjects objects b'
        | .error e b' => .error e b' := by
  rcases h : object.err with _ | e
  · simp only [removeObjects, h, bind_apply, pure_apply]
    rcases removeObject object.key b with ⟨⟨⟩, b'⟩ | ⟨e, b'⟩ <;> rfl
  · simp [removeObjects, h]

/-- The store with the keys of `objects` removed one after another. -/
def eraseKeys (objects : List ObjectInfo) (s : Store) : Store :=
  objects.foldl (fun s o => s.erase o.key) s

/-- Removing the keys of `objects` changes no other key. -/
lemma agreeOff_eraseKeys : ∀ (objects : List ObjectInfo) (s : Store),
    Store.AgreeOff (· ∈ objects.map ObjectInfo.key) s (eraseKeys objects s)
  | [], _ => .refl _
  | _ :: os, _ =>
    (Store.AgreeOff.erase (List.mem_cons_self _ _)).trans
      ((agreeOff_eraseKeys os _).mono fun _ hk => List.mem_cons_of_mem _ hk)

lemma not_mem_eraseKeys : ∀ {objects : List ObjectInfo} {s : Store} {o : ObjectInfo},
    o ∈ objects → o.key ∉ eraseKeys objects s
  | o' :: os, s, o, ho => by
    change o.key ∉ eraseKeys os (s.erase o'.key)
    by_cases hk : o.key ∈ os.map ObjectInfo.key
    · -- removed again later on
      obtain ⟨o'', ho'', he⟩ := List.mem_map.1 hk
      exact he ▸ not_mem_eraseKeys ho''
    · rw [(agreeOff_eraseKeys os _).mem_iff hk, AList.mem_erase]
      rcases List.mem_cons.1 ho with rfl | ho
      · exact fun h => h.1 rfl
      · exact absurd (List.mem_map_of_mem _ ho) hk

/-- **How far the removal loop got.** Whichever requests fail, the loop has removed the keys of
the first `n` objects it was given, none of which carries an error, for some `n`, and changed
nothing else; when it returns nil, it has removed the keys of all of them, and none carried an
error. -/
lemma removeObjects_take : ∀ (objects : List ObjectInfo) (b : Bucket),
    (∃ n, (∀ o ∈ objects.take n, o.err = none) ∧
      (bucketOf (removeObjects objects b)).store = eraseKeys (objects.take n) b.store) ∧
    ∀ b', removeObjects objects b = .ok () b' →
      (∀ o ∈ objects, o.err = none) ∧ b'.store = eraseKeys objects b.store
  | [], b => ⟨⟨0, by simp, rfl⟩, fun _ h => by cases h; exact ⟨by simp, rfl⟩⟩
  | object :: objects, b => by
    have hstop : (∃ n, (∀ o ∈ (object :: objects).take n, o.err = none) ∧
        b.store = eraseKeys ((object :: objects).take n) b.store) := ⟨0, by simp, rfl⟩
    rw [removeObjects_cons_apply]
    rcases he : object.err with _ | e
    · rw [removeObject_apply]
      rcases S3Utils.checkValidObjectName object.key with e | ⟨⟩
      · exact ⟨hstop, fun _ h => by cases h⟩
      by_cases hd : b.drops
      · simp only [hd, if_true]
        exact ⟨hstop, fun _ h => by cases h⟩
      · -- the first key is gone; the rest of the loop goes on from there
        simp only [hd, if_false]
        obtain ⟨⟨n, hn, hs⟩, hok⟩ :=
          removeObjects_take objects ⟨b.store.erase object.key, b.faults.tail⟩
        refine ⟨⟨n + 1, List.forall_mem_cons.2 ⟨he, hn⟩, hs⟩, fun b' h => ?_⟩
        obtain ⟨herr, hs'⟩ := hok b' h
        exact ⟨List.forall_mem_cons.2 ⟨he, herr⟩, hs'⟩
    · exact ⟨hstop, fun _ h => by cases h⟩

/-- The first `n` items of a listing cut short by an error item, when none of them is that
item, are the first `n` objects of the whole listing. -/
lemma take_eq_take_of_err_none {L pre : List ObjectInfo} (hp : pre <+: L) {e : Error} {n : Nat}
    (hn : ∀ o ∈ (pre ++ [errItem e]).take n, o.err = none) :
    (pre ++ [errItem e]).take n = L.take n := by
  have hle : n ≤ pre.length := by
    by_contra hlt
    obtain ⟨k, hk⟩ : ∃ k, n - pre.length = k + 1 := ⟨n - pre.length - 1, by omega⟩
    have hmem : errItem e ∈ (pre ++ [errItem e]).take n := by
      rw [List.take_append_eq_append_take, hk]
      simp
    exact absurd (hn _ hmem) (by simp [errItem])
  rw [List.take_append_of_le_length hle, List.prefix_iff_eq_take.1 hp, List.take_take,
    min_eq_left hle]

/-- **How far the body of `DeleteDir` got.** Whichever requests fail, `removeListed p recursive`
has removed the keys of the first `n` objects of the listing under `p`, for some `n`, and
changed nothing else; when it returns nil, the keys of all of them. A listing cut short by a
failed page or a refused prefix ends with an item carrying the error, at which the loop stops
at the latest. -/
lemma removeListed_take (p : List Char) (recursive : Bool) (b : Bucket) :
    (∃ n, (bucketOf (removeListed p recursive b)).store =
      eraseKeys ((b.store.listObjects p recursive).take n) b.store) ∧
    ∀ b', removeListed p recursive b = .ok () b' →
      b'.store = eraseKeys (b.store.listObjects p recursive) b.store := by
  obtain ⟨items, faults, hl, hi⟩ := listObjects_spec (b := b) p recursive
  have hrun : removeListed p recursive b = removeObjects items ⟨b.store, faults⟩ := by
    simp only [removeListed, bind_apply, hl]
  rw [hrun]
  obtain ⟨⟨n, hn, hs⟩, hok⟩ := removeObjects_take items ⟨b.store, faults⟩
  rcases hi with rfl | ⟨pre, e, hp, rfl⟩
  · exact ⟨⟨n, hs⟩, fun b' h => (hok b' h).2⟩
  · refine ⟨⟨n, hs.trans (by rw [take_eq_take_of_err_none hp hn])⟩, fun b' h => ?_⟩
    exact absurd ((hok b' h).1 _ (List.mem_append_right _ (List.mem_singleton_self _)))
      (by simp [errItem])

/-- **The body of `DeleteDir`, over any faults.** It changes no key but those the listing under
`p` delivers; and when it returns nil none of them is left. -/
lemma removeListed_run (p : List Char) (recursive : Bool) (b : Bucket) :
    Store.AgreeOff (· ∈ (b.store.listObjects p recursive).map ObjectInfo.key) b.store
      (bucketOf (removeListed p recursive b)).store ∧
    ∀ b', removeListed p recursive b = .ok () b' →
      ∀ o ∈ b.store.listObjects p recursive, o.key ∉ b'.store := by
  obtain ⟨⟨n, hn⟩, hok⟩ := removeListed_take p recursive b
  refine ⟨?_, fun b' h o ho => (hok b' h) ▸ not_mem_eraseKeys ho⟩
  rw [hn]
  exact (agreeOff_eraseKeys _ _).mono fun _ hk => List.map_subset _ (List.take_subset _ _) hk

/-! ### `DeleteDir` -/

/-- `DeleteDir` changes no key that does not start with `buildMinioPath path`, whichever
requests fail: the listing it removes delivers only keys under that prefix. -/
lemma deleteDir_agreeOff (path : List Char) :
    Preserves (Store.AgreeOff (buildMinioPath path <+: ·)) (deleteDir path) := fun b =>
  (removeListed_run (buildMinioPath path) true b).1.mono fun k hm => by
    obtain ⟨o, ho, rfl⟩ := List.mem_map.1 hm
    exact Store.prefix_key_of_mem_listObjects ho

/-- When `DeleteDir` returns nil, whichever requests failed, no key under `buildMinioPath path`
is left. -/
lemma deleteDir_ok_clears (path : List Char) {b b' : Bucket} (hb' : deleteDir path b = .ok () b') :
    ∀ k ∈ b'.store, ¬ buildMinioPath path <+: k := by
  intro k hk hp
  obtain ⟨hframe, hgone⟩ := removeListed_run (buildMinioPath path) true b
  replace hb' : removeListed (buildMinioPath path) true b = .ok () b' := hb'
  rw [hb', bucketOf_ok] at hframe
  by_cases hm : k ∈ (b.store.listObjects (buildMinioPath path) true).map ObjectInfo.key
  · obtain ⟨o, ho, rfl⟩ := List.mem_map.1 hm
    exact hgone b' hb' o ho hk
  · -- a key under the prefix that was not listed was not held, and is not held now
    obtain ⟨v, hv⟩ := Option.isSome_iff_exists.1 (AList.lookup_isSome.2 ((hframe.mem_iff hm).1 hk))
    exact hm (List.mem_map.2 ⟨_, Store.mem_listObjects_true.2 ⟨k, v, hv, hp, rfl⟩, rfl⟩)

/-- **What `DeleteDir` removes.** Whichever requests fail, `DeleteDir path` changes no key that
does not start with `buildMinioPath path`; and when it returns nil, no key starting with it is
left. The prefix has no trailing `'/'`: for the directory `/foo` it is `foo`, under which lie
the siblings `foobar` and `foo.txt` as well as the directory's own objects. -/
theorem deleteDir_removes_prefix (path : List Char) (b : Bucket) :
    (∀ k, ¬ buildMinioPath path <+: k →
      (bucketOf (deleteDir path b)).store.lookup k = b.store.lookup k) ∧
    (∀ b', deleteDir path b = .ok () b' → ∀ k ∈ b'.store, ¬ buildMinioPath path <+: k) :=
  ⟨deleteDir_agreeOff path b, fun _ => deleteDir_ok_clears path⟩

/-- **A `DeleteDir` that fails has removed a prefix of its listing.** Whichever requests fail,
`DeleteDir path` leaves the store with the keys of the first `n` objects of the recursive listing
under `buildMinioPath path` removed, for some `n`, and nothing else changed; when it returns nil,
with all of them removed. The removal is not atomic: a request failing half-way leaves the
directory half removed, in listing order. -/
theorem deleteDir_removes_listing_prefix (path : List Char) (b : Bucket) :
    (∃ n, (bucketOf (deleteDir path b)).store =
      eraseKeys ((b.store.listObjects (buildMinioPath path) true).take n) b.store) ∧
    ∀ b', deleteDir path b = .ok () b' →
      b'.store = eraseKeys (b.store.listObjects (buildMinioPath path) true) b.store :=
  removeListed_take (buildMinioPath path) true b

/-! ### What `DeleteDir` reads -/

section Local

variable {keys : List Char → Prop}

/-- The removal loop reads nothing: it removes the keys it is given, and stops at an item that
carries an error or a key the client refuses. -/
lemma removeObjects_local : ∀ objects : List ObjectInfo, LocalTo keys (removeObjects objects)
  | [] => .pure ()
  | o :: os => by
    have hrest : LocalTo keys (do removeObject o.key; removeObjects os) :=
      (removeObject_local _).bind fun _ => removeObjects_local os
    unfold removeObjects
    dsimp only
    split
    · exact (LocalTo.throw _).bind fun _ => hrest
    · exact (LocalTo.pure _).bind fun _ => hrest

/-- **`DeleteDir` reads only the keys under its prefix.** On a reliable network, two stores that
agree on every key starting with `buildMinioPath path` are listed alike, so `DeleteDir path`
removes the same keys from both and returns the same. -/
lemma deleteDir_local (path : List Char) (hk : ∀ k, buildMinioPath path <+: k → keys k) :
    LocalTo keys (deleteDir path) :=
  (listObjects_local hk true).bind removeObjects_local

end Local

/-- Deleting the directory `/foo` from a bucket holding `foo/x` and its sibling `foobar` returns
nil and removes both, although `foobar` does not lie under the directory's marker `foo/`. -/
theorem deleteDir_removes_sibling :
    deleteDir ['/', 'f', 'o', 'o'] ⟨((∅ : Store).insert ['f', 'o', 'o', '/', 'x'] []).insert
        ['f', 'o', 'o', 'b', 'a', 'r'] [], []⟩ = .ok () ⟨∅, []⟩ ∧
      ¬ buildMinioDir ['/', 'f', 'o', 'o'] <+: ['f', 'o', 'o', 'b', 'a', 'r'] :=
  ⟨rfl, by decide⟩

end Driver

end Minio

end Netftp
