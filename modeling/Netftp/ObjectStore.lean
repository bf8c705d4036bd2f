import Mathlib.Data.List.AList
import Mathlib.Data.List.Dedup
import Mathlib.Data.List.Sort
import Mathlib.Data.List.Lex
import Mathlib.Data.List.Perm.Basic
import Mathlib.Data.Char

/-!
# Object stores as the minio drivers see them

Both minio drivers of the repository (`src/driver/minio/minio.go` and the older
`server.MinioDriver` of `src/unnamed/part_001`) keep the FTP tree in one bucket of an
S3-compatible object store. This module fixes what a driver can observe of a bucket: its
objects by key, the `ObjectInfo` records the client hands back, the errors the client and the
drivers report, and what `ListObjects` delivers with and without the `'/'` delimiter.

## Main definitions

* `Netftp.hasPrefix`, `Netftp.hasSuffix`, `Netftp.trimPrefix` — Go's `strings` helpers.
* `Netftp.isSpace`, `Netftp.byteLength` — Go's `unicode.IsSpace`, and `len` of a string.
* `Netftp.S3Utils.checkValidObjectName`, `Netftp.S3Utils.checkValidObjectNamePrefix` —
  minio-go's checks of an object name and of a listing prefix; `Netftp.ValidObjectName` — a name
  that passes.
* `Netftp.Store` — the objects of a bucket, at most one per key.
* `Netftp.commonPrefix` — the common prefix a delimited listing folds a key into.
* `Netftp.Store.listPages`, `Netftp.Store.listObjects` — the pages of
  `ListObjects(bucket, prefix, recursive)`, and what it delivers.
* `Netftp.Store.AgreeOff`, `Netftp.Store.AgreeOn` — two stores that hold the same outside,
  or on, a set of keys.

## Main results

* `Netftp.Store.mem_listObjects_true`, `Netftp.Store.mem_listObjects_false` — the entries of a
  recursive and of a delimited listing.
* `Netftp.Store.nodup_listObjects_false` — a delimited listing names every key and every
  common prefix once.
* `Netftp.Store.listPages_congr` — stores that agree on the keys under a prefix list the same
  pages under it, in the same order.

## Design

Go strings are `List Char`. The keys and paths are UTF-8 text, on which Go's byte-level
`strings.HasPrefix` and `strings.TrimPrefix` agree with the character-level functions here, and
S3's order of keys, by their UTF-8 bytes, is the order of their code points, `List Char`'s `<`.
An object is its content; the object metadata the drivers never read (content type, ETag,
modification time) is left out. S3 returns a listing sorted by key, in pages of at most
1000 entries, objects and common prefixes counted together, and minio-go delivers each page's
objects before its common prefixes (`Store.listPages`). A listing thus depends only on the keys
under its prefix, in order as well as in content. minio-go checks a name before it sends a
request: it refuses a name that `strings.TrimSpace` leaves empty or that is longer than 1024
bytes, and a listing prefix longer than 1024 bytes; a `List Char` is always valid UTF-8, so its
third check, of the encoding, never fails.
-/

set_option autoImplicit false

namespace Netftp

/-! ### Go's `strings` helpers -/

/-- `strings.HasPrefix(s, prefix)`. -/
def hasPrefix (s pre : List Char) : Bool := pre.isPrefixOf s

/-- `strings.HasSuffix(s, suffix)`. -/
def hasSuffix (s suf : List Char) : Bool := suf.isSuffixOf s

/-- `strings.TrimPrefix(s, prefix)`: `s` without the leading `prefix`, or `s` itself when it
does not start with `prefix`. -/
def trimPrefix (s pre : List Char) : List Char :=
  if hasPrefix s pre then s.drop pre.length else s

@[simp] lemma hasPrefix_iff {s pre : List Char} : hasPrefix s pre = true ↔ pre <+: s := by
  simp [hasPrefix]

@[simp] lemma hasSuffix_iff {s suf : List Char} : hasSuffix s suf = true ↔ suf <:+ s := by
  simp [hasSuffix]

@[simp] lemma trimPrefix_append (pre s : List Char) : trimPrefix (pre ++ s) pre = s := by
  simp [trimPrefix]

/-- A key that ends in a non-empty segment without `'/'` does not end in `'/'`. -/
lemma hasSuffix_append_eq_false {pre r : List Char} (hr : r ≠ []) (h : '/' ∉ r) :
    hasSuffix (pre ++ r) ['/'] = false := by
  refine Bool.eq_false_iff.2 fun hs => h ?_
  obtain ⟨r', c, rfl⟩ := (List.eq_nil_or_concat r).resolve_left hr
  obtain ⟨t, ht⟩ := hasSuffix_iff.1 hs
  have hc : '/' = c := by simpa using congrArg List.getLast? ht
  simp [← hc]

lemma trimPrefix_of_not_prefix {s pre : List Char} (h : ¬ pre <+: s) : trimPrefix s pre = s := by
  simp [trimPrefix, h]

/-- Go's `unicode.IsSpace`: the Latin-1 spaces `'\t'`, `'\n'`, `'\v'`, `'\f'`, `'\r'`, `' '`,
U+0085 and U+00A0, and beyond Latin-1 the other characters of Unicode's `White_Space`. A string
is blank for `strings.TrimSpace` when every character is a space. -/
def isSpace (c : Char) : Bool :=
  match c.toNat with
  | 0x09 | 0x0A | 0x0B | 0x0C | 0x0D | 0x20 | 0x85 | 0xA0 => true
  | 0x1680 | 0x2028 | 0x2029 | 0x202F | 0x205F | 0x3000 => true
  | n => 0x2000 ≤ n && n ≤ 0x200A

/-- Go's `len` of a string: the number of bytes of its UTF-8 encoding. -/
def byteLength : List Char → Nat
  | [] => 0
  | c :: s => c.utf8Size + byteLength s

@[simp] lemma byteLength_nil : byteLength [] = 0 := rfl

@[simp] lemma byteLength_cons (c : Char) (s : List Char) :
    byteLength (c :: s) = c.utf8Size + byteLength s := rfl

lemma byteLength_append (s t : List Char) :
    byteLength (s ++ t) = byteLength s + byteLength t := by
  induction s with
  | nil => simp
  | cons c s ih => simp [ih, Nat.add_assoc]

/-- A prefix is no longer than the string, in bytes. -/
lemma byteLength_le_of_isPrefix {s t : List Char} (h : s <+: t) : byteLength s ≤ byteLength t := by
  obtain ⟨u, rfl⟩ := h
  simp [byteLength_append]

/-! ### Errors, objects and stores -/

/-- The errors the minio client and the drivers report. -/
inductive Error where
  /-- The server holds no object under the key (`NoSuchKey`). -/
  | noSuchKey
  /-- minio-go's `CheckValidObjectName` refuses, before any request, a name that
  `strings.TrimSpace` leaves empty ("Object name cannot be empty."). -/
  | emptyObjectName
  /-- minio-go's `CheckValidObjectNamePrefix` refuses, before any request, a name or a listing
  prefix longer than 1024 bytes ("Object name cannot be greater than 1024 characters."). -/
  | objectNameTooLong
  /-- The server refuses to `CopyObject` an object onto itself without new metadata. -/
  | invalidCopyDest
  /-- `ComposeObject`: a source other than the last is smaller than `absMinPartSize`. -/
  | partTooSmall (index size : Nat)
  /-- `Object.Seek` to a negative position. -/
  | negativePosition
  /-- `io.EOF`: `Object.Seek` past the end of the object. -/
  | eof
  /-- The request failed in transit; the server did not act on it. -/
  | network
  /-- `errors.New("Not a directory")` of `Stat`. -/
  | notADirectory
  /-- `fmt.Errorf("It's unsupported that offset %d is not equal to %d", offset, info.Size)`
  of `Driver.PutFile`. -/
  | unsupportedOffset (offset : Int) (size : Nat)
  /-- `ErrNotImplemented` (`errors.New("not implemented")`) of the older driver. -/
  | notImplemented
  /-- An error returned by the caller's `ListDir` callback. -/
  | callback (code : Nat)
  deriving DecidableEq, Repr

/-- The fields of minio-go's `ObjectInfo` the drivers read: the key, the size, and the error a
listing delivers in place of an object. -/
structure ObjectInfo where
  key : List Char
  size : Nat
  err : Option Error := none
  deriving DecidableEq, Repr

instance : Inhabited ObjectInfo := ⟨{ key := [], size := 0 }⟩

namespace S3Utils

/-- minio-go's `s3utils.CheckValidObjectNamePrefix`: a name or a listing prefix longer than 1024
bytes is refused. Its other test, that the name is valid UTF-8, holds of every `List Char`. -/
def checkValidObjectNamePrefix (objectName : List Char) : Except Error Unit :=
  if 1024 < byteLength objectName then .error .objectNameTooLong else .ok ()

/-- minio-go's `s3utils.CheckValidObjectName`: a name that `strings.TrimSpace` leaves empty is
refused, and then the test of `CheckValidObjectNamePrefix`. -/
def checkValidObjectName (objectName : List Char) : Except Error Unit :=
  if objectName.all isSpace then .error .emptyObjectName
  else checkValidObjectNamePrefix objectName

end S3Utils

/-- A name minio-go sends on to the server: not blank, and at most 1024 bytes long. -/
def ValidObjectName (s : List Char) : Prop := s.all isSpace = false ∧ byteLength s ≤ 1024

instance : DecidablePred ValidObjectName := fun _ => inferInstanceAs (Decidable (_ ∧ _))

lemma checkValidObjectNamePrefix_eq_ok {s : List Char} :
    S3Utils.checkValidObjectNamePrefix s = .ok () ↔ byteLength s ≤ 1024 := by
  unfold S3Utils.checkValidObjectNamePrefix
  split_ifs with h
  · exact ⟨fun h' => (nomatch h'), fun h' => absurd h' (by omega)⟩
  · exact ⟨fun _ => by omega, fun _ => rfl⟩

lemma checkValidObjectName_eq_ok {s : List Char} :
    S3Utils.checkValidObjectName s = .ok () ↔ ValidObjectName s := by
  unfold S3Utils.checkValidObjectName ValidObjectName
  split_ifs with h
  · simp [h]
  · simp [h, checkValidObjectNamePrefix_eq_ok]

/-- `CheckValidObjectName` passes a valid name and refuses any other with some error. -/
lemma checkValidObjectName_cases (s : List Char) :
    (ValidObjectName s ∧ S3Utils.checkValidObjectName s = .ok ()) ∨
      (¬ ValidObjectName s ∧ ∃ e, S3Utils.checkValidObjectName s = .error e) := by
  rcases hc : S3Utils.checkValidObjectName s with e | ⟨⟩
  · exact .inr ⟨fun h => absurd (checkValidObjectName_eq_ok.2 h) (by rw [hc]; exact nofun), e, rfl⟩
  · exact .inl ⟨checkValidObjectName_eq_ok.1 hc, rfl⟩

/-- A non-blank name is not empty. -/
lemma ValidObjectName.ne_nil {s : List Char} (h : ValidObjectName s) : s ≠ [] := by
  rintro rfl
  cases h.1

/-- A name holding a character that is not a space is valid exactly when it is at most 1024
bytes long: `CheckValidObjectName` then runs only the length check. -/
lemma checkValidObjectName_of_mem {s : List Char} {c : Char} (hc : c ∈ s)
    (hsp : isSpace c = false) :
    S3Utils.checkValidObjectName s = S3Utils.checkValidObjectNamePrefix s := by
  have hall : s.all isSpace = false := List.all_eq_false.2 ⟨c, hc, by simp [hsp]⟩
  simp [S3Utils.checkValidObjectName, hall]

lemma validObjectName_iff_of_mem {s : List Char} {c : Char} (hc : c ∈ s)
    (hsp : isSpace c = false) : ValidObjectName s ↔ byteLength s ≤ 1024 := by
  rw [← checkValidObjectName_eq_ok, checkValidObjectName_of_mem hc hsp,
    checkValidObjectNamePrefix_eq_ok]

/-- The objects of a bucket: the content stored under each key. -/
abbrev Store := AList fun _ : List Char => List UInt8

/-- The `ObjectInfo` of a stored object. -/
def objectInfo (e : Σ _ : List Char, List UInt8) : ObjectInfo :=
  { key := e.1, size := e.2.length }

/-- `s'` holds what `s` holds under every key outside `keys`. -/
def Store.AgreeOff (keys : List Char → Prop) (s s' : Store) : Prop :=
  ∀ k, ¬ keys k → s'.lookup k = s.lookup k

namespace Store.AgreeOff

variable {keys : List Char → Prop} {s s' s'' : Store}

@[refl] lemma refl (s : Store) : AgreeOff keys s s := fun _ _ => rfl

lemma trans (h₁ : AgreeOff keys s s') (h₂ : AgreeOff keys s' s'') : AgreeOff keys s s'' :=
  fun k hk => (h₂ k hk).trans (h₁ k hk)

lemma erase {k : List Char} (hk : keys k) : AgreeOff keys s (s.erase k) :=
  fun _ hk' => AList.lookup_erase_ne fun h => hk' (h ▸ hk)

lemma insert {k : List Char} (hk : keys k) (v : List UInt8) : AgreeOff keys s (s.insert k v) :=
  fun _ hk' => AList.lookup_insert_ne fun h => hk' (h ▸ hk)

/-- A key off `keys` is held after exactly when it was held before. -/
lemma mem_iff (h : AgreeOff keys s s') {k : List Char} (hk : ¬ keys k) : k ∈ s' ↔ k ∈ s := by
  rw [← AList.lookup_isSome, h k hk, AList.lookup_isSome]

lemma mono {keys' : List Char → Prop} (h : AgreeOff keys s s') (hk : ∀ k, keys k → keys' k) :
    AgreeOff keys' s s' :=
  fun k hk' => h k fun h' => hk' (hk k h')

end Store.AgreeOff

/-- `s` and `s'` hold the same under every key of `keys`. -/
def Store.AgreeOn (keys : List Char → Prop) (s s' : Store) : Prop :=
  ∀ k, keys k → s.lookup k = s'.lookup k

namespace Store.AgreeOn

variable {keys : List Char → Prop} {s s' s'' : Store}

@[refl] lemma refl (s : Store) : AgreeOn keys s s := fun _ _ => rfl

lemma symm (h : AgreeOn keys s s') : AgreeOn keys s' s := fun k hk => (h k hk).symm

lemma trans (h₁ : AgreeOn keys s s') (h₂ : AgreeOn keys s' s'') : AgreeOn keys s s'' :=
  fun k hk => (h₁ k hk).trans (h₂ k hk)

/-- Removing one key from both stores keeps them in agreement. -/
lemma erase (h : AgreeOn keys s s') (k : List Char) : AgreeOn keys (s.erase k) (s'.erase k) :=
  fun j hj => by
    by_cases hjk : j = k
    · subst hjk
      simp
    · rw [AList.lookup_erase_ne hjk, AList.lookup_erase_ne hjk, h j hj]

/-- Setting one key to the same content in both stores keeps them in agreement. -/
lemma insert (h : AgreeOn keys s s') (k : List Char) (v : List UInt8) :
    AgreeOn keys (s.insert k v) (s'.insert k v) :=
  fun j hj => by
    by_cases hjk : j = k
    · subst hjk
      simp
    · rw [AList.lookup_insert_ne hjk, AList.lookup_insert_ne hjk, h j hj]

/-- Stores that differ only on `keys'` agree on every set of keys disjoint from `keys'`. -/
lemma of_agreeOff {keys' : List Char → Prop} (h : AgreeOff keys' s s')
    (hk : ∀ k, keys k → ¬ keys' k) : AgreeOn keys s s' :=
  fun k hk' => (h k (hk k hk')).symm

end Store.AgreeOn

instance (keys : List Char → Prop) : IsPreorder Store (Store.AgreeOff keys) where
  refl := .refl
  trans _ _ _ := .trans

/-! ### Listings -/

/-- The common prefix under which a listing delimited by `'/'` folds `key`: `pfx`, then the
rest of the key up to and including its next `'/'`; `none` when no `'/'` follows `pfx`. -/
def commonPrefix (pfx key : List Char) : Option (List Char) :=
  let rest := key.drop pfx.length
  if '/' ∈ rest then some (pfx ++ rest.takeWhile (· != '/') ++ ['/']) else none

lemma takeWhile_append_slash {t : List Char} (u : List Char) (h : '/' ∉ t) :
    (t ++ '/' :: u).takeWhile (· != '/') = t := by
  induction t with
  | nil => simp
  | cons a t ih =>
    simp only [List.mem_cons, not_or] at h
    simp [List.takeWhile_cons, Ne.symm h.1, ih h.2]

/-- A list holding `'/'` splits at its first `'/'`. -/
lemma exists_split_slash {r : List Char} (h : '/' ∈ r) : ∃ t u, '/' ∉ t ∧ r = t ++ '/' :: u := by
  induction r with
  | nil => simp at h
  | cons a r ih =>
    by_cases ha : a = '/'
    · exact ⟨[], r, by simp, by simp [ha]⟩
    · obtain ⟨t, u, ht, rfl⟩ := ih (by simpa [Ne.symm ha] using h)
      exact ⟨a :: t, u, by simp [Ne.symm ha, ht], rfl⟩

/-- The keys under `pfx` that a delimited listing folds: the ones with a `'/'` after `pfx`,
folded into `pfx`, the segment before that `'/'`, and the `'/'`. -/
lemma commonPrefix_append_eq_some {pfx r c : List Char} :
    commonPrefix pfx (pfx ++ r) = some c ↔
      ∃ t u, '/' ∉ t ∧ r = t ++ '/' :: u ∧ c = pfx ++ t ++ ['/'] := by
  simp only [commonPrefix, List.drop_left]
  constructor
  · intro h
    split_ifs at h with hr
    obtain ⟨t, u, ht, rfl⟩ := exists_split_slash hr
    exact ⟨t, u, ht, rfl, by rw [← Option.some_inj, ← h, takeWhile_append_slash u ht]⟩
  · rintro ⟨t, u, ht, rfl, rfl⟩
    simp [takeWhile_append_slash u ht]

@[simp] lemma commonPrefix_append_eq_none {pfx r : List Char} :
    commonPrefix pfx (pfx ++ r) = none ↔ '/' ∉ r := by
  simp [commonPrefix]

/-- A common prefix is not a key a delimited listing reports as an object. -/
lemma commonPrefix_commonPrefix {pfx k c : List Char} (hk : pfx <+: k)
    (h : commonPrefix pfx k = some c) : commonPrefix pfx c ≠ none := by
  obtain ⟨r, rfl⟩ := hk
  obtain ⟨t, u, -, -, rfl⟩ := commonPrefix_append_eq_some.1 h
  simp [List.append_assoc]

/-- The entries a listing under `pfx` reports, before S3 orders them, each marked `true` when it
is a common prefix: every object under `pfx`; without `recursive`, the objects with a further
`'/'` are folded into their common prefixes, each reported once as a key with size `0`. -/
def Store.listEntries (s : Store) (pfx : List Char) (recursive : Bool) : List (ObjectInfo × Bool) :=
  let under := s.entries.filter fun e => pfx.isPrefixOf e.1
  if recursive then under.map fun e => (objectInfo e, false)
  else (under.filter fun e => (commonPrefix pfx e.1).isNone).map (fun e => (objectInfo e, false)) ++
    (under.filterMap fun e => commonPrefix pfx e.1).dedup.map fun k => ({ key := k, size := 0 }, true)

/-- The entries S3 returns for one listing request at most: minio-go asks for 1000, objects and
common prefixes counted together. -/
def maxKeys : Nat := 1000

/-- `l` cut into pages of `n` entries, the last one shorter; no entry at all is one empty page.
With `fuel` at least the length of `l`, every page but the last has `n` entries. -/
def pagesOf {α : Type} (n : Nat) : Nat → List α → List (List α)
  | 0, l => [l]
  | fuel + 1, l => if l.length ≤ n then [l] else l.take n :: pagesOf n fuel (l.drop n)

/-- The order of S3 listings on entries: by key, byte by byte, which on UTF-8 is the order of
the characters' code points. -/
def keyLE (a b : ObjectInfo × Bool) : Prop := a.1.key ≤ b.1.key

instance : DecidableRel keyLE := fun a b => inferInstanceAs (Decidable (a.1.key ≤ b.1.key))

/-- What a listing delivers, page by page, when its requests succeed: S3 sorts the entries by
key and returns `maxKeys` of them a request, and minio-go hands over each page's objects, then
the page's common prefixes. -/
def Store.listPages (s : Store) (pfx : List Char) (recursive : Bool) : List (List ObjectInfo) :=
  let sorted := (s.listEntries pfx recursive).insertionSort keyLE
  (pagesOf maxKeys sorted.length sorted).map fun page =>
    (page.filter fun e => !e.2).map Prod.fst ++ (page.filter fun e => e.2).map Prod.fst

/-- What `ListObjects(bucket, prefix, recursive)` delivers when its requests succeed. -/
def Store.listObjects (s : Store) (pfx : List Char) (recursive : Bool) : List ObjectInfo :=
  (s.listPages pfx recursive).flatten

lemma flatten_pagesOf {α : Type} (n : Nat) : ∀ (fuel : Nat) (l : List α),
    (pagesOf n fuel l).flatten = l
  | 0, l => by simp [pagesOf]
  | fuel + 1, l => by
    unfold pagesOf
    split_ifs
    · simp
    · simp [flatten_pagesOf n fuel]

instance : IsTotal (ObjectInfo × Bool) keyLE := ⟨fun a b => le_total a.1.key b.1.key⟩

instance : IsTrans (ObjectInfo × Bool) keyLE := ⟨fun _ _ _ => le_trans⟩

/-- Entries in strictly increasing key order. -/
def keyLT (a b : ObjectInfo × Bool) : Prop := a.1.key < b.1.key

instance : IsAntisymm (ObjectInfo × Bool) keyLT :=
  ⟨fun _ _ h h' => absurd (h.trans h') (lt_irrefl _)⟩

namespace Store

variable {s : Store} {pfx k : List Char} {o : ObjectInfo}

/-- Setting one key and then removing another is removing it and then setting the first. -/
lemma erase_insert_of_ne {t f : List Char} (h : t ≠ f) (v : List UInt8) :
    (s.insert t v).erase f = (s.erase f).insert t v :=
  AList.ext <| by
    show List.kerase f (⟨t, v⟩ :: List.kerase t s.entries) =
      ⟨t, v⟩ :: List.kerase t (List.kerase f s.entries)
    rw [List.kerase_cons_ne (Ne.symm h), List.kerase_comm]

lemma mem_entries_iff {v : List UInt8} : (⟨k, v⟩ : Σ _ : List Char, List UInt8) ∈ s.entries ↔
    s.lookup k = some v :=
  AList.mem_lookup_iff.symm

/-- The entries of a listing, without their marks. -/
lemma map_fst_listEntries {recursive : Bool} : (s.listEntries pfx recursive).map Prod.fst =
    if recursive then (s.entries.filter fun e => pfx.isPrefixOf e.1).map objectInfo
    else ((s.entries.filter fun e => pfx.isPrefixOf e.1).filter
        fun e => (commonPrefix pfx e.1).isNone).map objectInfo ++
      (((s.entries.filter fun e => pfx.isPrefixOf e.1).filterMap
        fun e => commonPrefix pfx e.1).dedup.map fun k => { key := k, size := 0 }) := by
  cases recursive <;> simp [listEntries, List.map_map, Function.comp_def]

/-- A listing delivers its entries, in S3's order. -/
lemma perm_listObjects {recursive : Bool} :
    (s.listObjects pfx recursive).Perm ((s.listEntries pfx recursive).map Prod.fst) := by
  -- each page is its objects and its common prefixes, regrouped
  have hpage : ∀ page : List (ObjectInfo × Bool),
      ((page.filter fun e => !e.2).map Prod.fst ++ (page.filter fun e => e.2).map Prod.fst).Perm
        (page.map Prod.fst) := fun page => by
    have h := List.filter_append_perm (fun e : ObjectInfo × Bool => !e.2) page
    simp only [Bool.not_not] at h
    rw [← List.map_append]
    exact h.map _
  simp only [listObjects, listPages, ← List.flatMap_def]
  refine (List.Perm.flatMap_left _ fun page _ => hpage page).trans ?_
  rw [List.flatMap_def, ← List.map_flatten, flatten_pagesOf]
  exact (List.perm_insertionSort _ _).map _

/-- A recursive listing holds exactly the objects under `pfx`. -/
lemma mem_listObjects_true : o ∈ s.listObjects pfx true ↔
    ∃ k v, s.lookup k = some v ∧ pfx <+: k ∧ o = { key := k, size := v.length } := by
  rw [perm_listObjects.mem_iff, map_fst_listEntries]
  simp only [if_true, List.mem_map, List.mem_filter, List.isPrefixOf_iff_prefix]
  constructor
  · rintro ⟨⟨k, v⟩, ⟨hm, hp⟩, rfl⟩
    exact ⟨k, v, mem_entries_iff.1 hm, hp, rfl⟩
  · rintro ⟨k, v, hl, hp, rfl⟩
    exact ⟨⟨k, v⟩, ⟨mem_entries_iff.2 hl, hp⟩, rfl⟩

/-- A delimited listing holds the objects under `pfx` with no further `'/'`, and the common
prefix of every other object under `pfx`, as a key of size `0`. -/
lemma mem_listObjects_false : o ∈ s.listObjects pfx false ↔
    (∃ k v, s.lookup k = some v ∧ pfx <+: k ∧ commonPrefix pfx k = none ∧
      o = { key := k, size := v.length }) ∨
    (∃ k c, k ∈ s ∧ pfx <+: k ∧ commonPrefix pfx k = some c ∧ o = { key := c, size := 0 }) := by
  rw [perm_listObjects.mem_iff, map_fst_listEntries]
  simp only [Bool.false_eq_true, if_false, List.mem_append, List.mem_map,
    List.mem_filter, List.mem_dedup, List.mem_filterMap, List.isPrefixOf_iff_prefix,
    Option.isNone_iff_eq_none]
  apply or_congr
  · constructor
    · rintro ⟨⟨k, v⟩, ⟨⟨hm, hp⟩, hc⟩, rfl⟩
      exact ⟨k, v, mem_entries_iff.1 hm, hp, hc, rfl⟩
    · rintro ⟨k, v, hl, hp, hc, rfl⟩
      exact ⟨⟨k, v⟩, ⟨⟨mem_entries_iff.2 hl, hp⟩, hc⟩, rfl⟩
  · constructor
    · rintro ⟨c, ⟨⟨k, v⟩, ⟨hm, hp⟩, hc⟩, rfl⟩
      exact ⟨k, c, AList.mem_keys.2 (List.mem_map_of_mem _ hm), hp, hc, rfl⟩
    · rintro ⟨k, c, hk, hp, hc, rfl⟩
      obtain ⟨v, hv⟩ := Option.isSome_iff_exists.1 (AList.lookup_isSome.2 hk)
      exact ⟨c, ⟨⟨k, v⟩, ⟨mem_entries_iff.2 hv, hp⟩, hc⟩, rfl⟩

lemma prefix_of_commonPrefix {pfx k c : List Char} (h : commonPrefix pfx k = some c) :
    pfx <+: c := by
  simp only [commonPrefix] at h
  split_ifs at h
  rw [← Option.some_inj.1 h, List.append_assoc]
  exact List.prefix_append _ _

/-- Every key a listing delivers lies under its prefix. -/
lemma prefix_key_of_mem_listObjects {recursive : Bool} (h : o ∈ s.listObjects pfx recursive) :
    pfx <+: o.key := by
  cases recursive
  · rcases mem_listObjects_false.1 h with ⟨k, v, -, hp, -, rfl⟩ | ⟨k, c, -, -, hc, rfl⟩
    · exact hp
    · exact prefix_of_commonPrefix hc
  · obtain ⟨k, v, -, hp, rfl⟩ := mem_listObjects_true.1 h
    exact hp

/-- A listing of the store carries no error. -/
lemma err_of_mem_listObjects {recursive : Bool} (h : o ∈ s.listObjects pfx recursive) :
    o.err = none := by
  cases recursive
  · rcases mem_listObjects_false.1 h with ⟨k, v, -, -, -, rfl⟩ | ⟨k, c, -, -, -, rfl⟩ <;> rfl
  · obtain ⟨k, v, -, -, rfl⟩ := mem_listObjects_true.1 h
    rfl

/-- A delimited listing delivers something exactly when some key lies under its prefix. -/
lemma any_listObjects_false_iff :
    (s.listObjects pfx false).any (fun o => hasPrefix o.key pfx) = true ↔ ∃ k ∈ s.keys, pfx <+: k := by
  simp only [List.any_eq_true, hasPrefix_iff]
  constructor
  · rintro ⟨o, ho, -⟩
    rcases mem_listObjects_false.1 ho with ⟨k, v, hv, hp, -, -⟩ | ⟨k, c, hk, hp, -, -⟩
    · exact ⟨k, AList.mem_keys.1 (AList.lookup_isSome.1 (by simp [hv])), hp⟩
    · exact ⟨k, AList.mem_keys.1 hk, hp⟩
  · rintro ⟨k, hk, hp⟩
    rcases hc : commonPrefix pfx k with _ | c
    · obtain ⟨v, hv⟩ := Option.isSome_iff_exists.1 (AList.lookup_isSome.2 (AList.mem_keys.2 hk))
      exact ⟨_, mem_listObjects_false.2 (.inl ⟨k, v, hv, hp, hc, rfl⟩), hp⟩
    · exact ⟨_, mem_listObjects_false.2 (.inr ⟨k, c, AList.mem_keys.2 hk, hp, hc, rfl⟩),
        prefix_of_commonPrefix hc⟩

/-- A delimited listing delivers an item exactly when some key lies under its prefix. -/
lemma exists_mem_listObjects_false_iff :
    (∃ o, o ∈ s.listObjects pfx false) ↔ ∃ k ∈ s.keys, pfx <+: k := by
  rw [← any_listObjects_false_iff, List.any_eq_true]
  exact ⟨fun ⟨o, ho⟩ => ⟨o, ho, hasPrefix_iff.2 (prefix_key_of_mem_listObjects ho)⟩,
    fun ⟨o, ho, _⟩ => ⟨o, ho⟩⟩

/-- The keys a delimited listing under `P` reports: each object `P ++ r` with no `'/'` in `r`
(`P` itself included), and each `P ++ t ++ "/"`, with no `'/'` in `t`, under which some key
lies. -/
lemma mem_keys_listObjects_false {P name : List Char} :
    name ∈ (s.listObjects P false).map ObjectInfo.key ↔
      (name ∈ s ∧ ∃ r, name = P ++ r ∧ '/' ∉ r) ∨
      (∃ t, '/' ∉ t ∧ name = P ++ t ++ ['/'] ∧ ∃ k ∈ s.keys, name <+: k) := by
  simp only [List.mem_map]
  constructor
  · rintro ⟨o, ho, rfl⟩
    rcases mem_listObjects_false.1 ho with
      ⟨k, v, hv, ⟨r, rfl⟩, hc, rfl⟩ | ⟨k, c, hk, ⟨r, rfl⟩, hc, rfl⟩
    · exact .inl ⟨AList.lookup_isSome.1 (by simp [hv]), r, rfl, commonPrefix_append_eq_none.1 hc⟩
    · obtain ⟨t, u, ht, rfl, rfl⟩ := commonPrefix_append_eq_some.1 hc
      exact .inr ⟨t, ht, rfl, _, AList.mem_keys.1 hk, u, by simp⟩
  · rintro (⟨hm, r, rfl, hr⟩ | ⟨t, ht, rfl, k, hk, u, rfl⟩)
    · obtain ⟨v, hv⟩ := Option.isSome_iff_exists.1 (AList.lookup_isSome.2 hm)
      exact ⟨_, mem_listObjects_false.2 (.inl ⟨_, v, hv, List.prefix_append _ _,
        commonPrefix_append_eq_none.2 hr, rfl⟩), rfl⟩
    · -- the key `P ++ t ++ "/" ++ u` is folded into `P ++ t ++ "/"`
      have hc : commonPrefix P (P ++ (t ++ '/' :: u)) = some (P ++ t ++ ['/']) :=
        commonPrefix_append_eq_some.2 ⟨t, u, ht, rfl, rfl⟩
      rw [show P ++ t ++ ['/'] ++ u = P ++ (t ++ '/' :: u) by simp] at hk
      exact ⟨_, mem_listObjects_false.2 (.inr ⟨_, _, AList.mem_keys.2 hk,
        List.prefix_append _ _, hc, rfl⟩), rfl⟩

/-- What a delimited listing under `P` shows besides the key `P` itself, as (name after `P`,
ends in `'/'`): the objects `P ++ s` with `s` a non-empty segment without `'/'`, as `(s, false)`,
and each segment `t` without `'/'` such that some key starts with `P ++ t ++ "/"`, as
`(t ++ "/", true)`. -/
lemma mem_children_iff {P name : List Char} {isDir : Bool} :
    (name, isDir) ∈ ((s.listObjects P false).filter fun o => o.key != P).map
        (fun o => (trimPrefix o.key P, hasSuffix o.key ['/'])) ↔
      (isDir = false ∧ name ≠ [] ∧ '/' ∉ name ∧ P ++ name ∈ s) ∨
      (isDir = true ∧ ∃ t, name = t ++ ['/'] ∧ '/' ∉ t ∧ ∃ k ∈ s.keys, P ++ t ++ ['/'] <+: k) := by
  -- the entries depend on the keys alone
  rw [show ((s.listObjects P false).filter fun o => o.key != P).map
      (fun o => (trimPrefix o.key P, hasSuffix o.key ['/'])) =
      (((s.listObjects P false).map ObjectInfo.key).filter (· != P)).map
        (fun k => (trimPrefix k P, hasSuffix k ['/'])) by
    rw [List.filter_map, List.map_map]; rfl, List.mem_map]
  simp only [List.mem_filter, mem_keys_listObjects_false, bne_iff_ne, ne_eq, Prod.mk.injEq]
  constructor
  · rintro ⟨k, ⟨⟨hm, r, rfl, hr⟩ | ⟨t, ht, rfl, hk⟩, hne⟩, rfl, rfl⟩
    · have hr0 : r ≠ [] := by rintro rfl; simp at hne
      exact .inl ⟨hasSuffix_append_eq_false hr0 hr, by simpa using hr0, by simpa using hr,
        by simpa using hm⟩
    · exact .inr ⟨hasSuffix_iff.2 ⟨P ++ t, by simp⟩, t, by simp, ht, hk⟩
  · rintro (⟨rfl, hr, hsl, hm⟩ | ⟨rfl, t, rfl, ht, hk⟩)
    · exact ⟨P ++ name, ⟨.inl ⟨hm, name, rfl, hsl⟩, by simpa using hr⟩, by simp,
        hasSuffix_append_eq_false hr hsl⟩
    · exact ⟨P ++ t ++ ['/'], ⟨.inr ⟨t, ht, rfl, hk⟩, by simp⟩, by simp,
        hasSuffix_iff.2 ⟨P ++ t, by simp⟩⟩

/-- A delimited listing reports every key once: the objects' keys are distinct in the store,
the common prefixes are deduplicated, and a common prefix is never an object's key. -/
lemma nodup_listObjects_false : ((s.listObjects pfx false).map ObjectInfo.key).Nodup := by
  rw [(perm_listObjects.map _).nodup_iff, map_fst_listEntries]
  simp only [Bool.false_eq_true, if_false, List.map_append, List.map_map]
  refine List.nodup_append.2 ⟨?_, ?_, ?_⟩
  · exact s.keys_nodup.sublist (((List.filter_sublist _).trans (List.filter_sublist _)).map _)
  · simpa [Function.comp_def] using List.nodup_dedup _
  · intro a ha hb
    simp only [List.mem_map, List.mem_filter, Function.comp_apply, List.isPrefixOf_iff_prefix,
      Option.isNone_iff_eq_none, objectInfo] at ha
    simp only [Function.comp_def, List.map_id', List.mem_dedup, List.mem_filterMap,
      List.mem_filter, List.isPrefixOf_iff_prefix] at hb
    obtain ⟨e, ⟨⟨-, hp⟩, hn⟩, rfl⟩ := ha
    obtain ⟨e', ⟨-, hp'⟩, hc⟩ := hb
    exact commonPrefix_commonPrefix hp' hc hn

/-- The children a delimited listing shows are pairwise distinct. -/
lemma nodup_children {P : List Char} :
    (((s.listObjects P false).filter fun o => o.key != P).map
        (fun o => (trimPrefix o.key P, hasSuffix o.key ['/']))).Nodup := by
  have hkeys : (((s.listObjects P false).filter fun o => o.key != P).map ObjectInfo.key).Nodup :=
    nodup_listObjects_false.sublist ((List.filter_sublist _).map _)
  have hinj : ∀ x ∈ ((s.listObjects P false).filter fun o => o.key != P).map ObjectInfo.key,
      ∀ y ∈ ((s.listObjects P false).filter fun o => o.key != P).map ObjectInfo.key,
      (trimPrefix x P, hasSuffix x ['/']) = (trimPrefix y P, hasSuffix y ['/']) → x = y := by
    simp only [List.mem_map, List.mem_filter, Prod.mk.injEq]
    rintro _ ⟨o, ⟨ho, -⟩, rfl⟩ _ ⟨o', ⟨ho', -⟩, rfl⟩ ⟨h, -⟩
    obtain ⟨a, ha⟩ := prefix_key_of_mem_listObjects ho
    obtain ⟨b, hb⟩ := prefix_key_of_mem_listObjects ho'
    rw [← ha, ← hb, trimPrefix_append, trimPrefix_append] at h
    rw [← ha, ← hb, h]
  simpa [List.map_map, Function.comp_def] using hkeys.map_on hinj

/-! ### What a listing depends on -/

/-- The objects under `pfx`, in the store's order, on two stores that agree under `pfx`. -/
lemma perm_entries_under {s' : Store} (h : AgreeOn (pfx <+: ·) s s') :
    (s.entries.filter fun e => pfx.isPrefixOf e.1).Perm
      (s'.entries.filter fun e => pfx.isPrefixOf e.1) := by
  refine (List.perm_ext_iff_of_nodup (s.nodupKeys.nodup.filter _)
    (s'.nodupKeys.nodup.filter _)).2 fun ⟨k, v⟩ => ?_
  simp only [List.mem_filter, List.isPrefixOf_iff_prefix, mem_entries_iff]
  exact and_congr_left fun hp => by rw [h k hp]

lemma perm_listEntries {s' : Store} {recursive : Bool} (h : AgreeOn (pfx <+: ·) s s') :
    (s.listEntries pfx recursive).Perm (s'.listEntries pfx recursive) := by
  have hu := perm_entries_under h
  cases recursive
  · exact ((hu.filter _).map _).append ((hu.filterMap _).dedup.map _)
  · exact hu.map _

/-- The entries of a listing have distinct keys. -/
lemma nodup_keys_listEntries {recursive : Bool} :
    ((s.listEntries pfx recursive).map fun e => e.1.key).Nodup := by
  have hk : (s.listEntries pfx recursive).map (fun e => e.1.key) =
      ((s.listEntries pfx recursive).map Prod.fst).map ObjectInfo.key := by
    simp [List.map_map, Function.comp_def]
  rw [hk]
  cases recursive
  · rw [← (perm_listObjects.map _).nodup_iff]
    exact nodup_listObjects_false
  · rw [map_fst_listEntries, if_pos rfl, List.map_map]
    exact s.keys_nodup.sublist ((List.filter_sublist _).map _)

/-- S3 sorts the entries of a listing into one order: strictly increasing keys. -/
lemma sorted_listEntries {recursive : Bool} :
    ((s.listEntries pfx recursive).insertionSort keyLE).Sorted keyLT := by
  have hne := List.pairwise_map.1 (((List.perm_insertionSort keyLE
    (s.listEntries pfx recursive)).map fun e => e.1.key).nodup_iff.2 nodup_keys_listEntries)
  exact ((List.sorted_insertionSort keyLE _).and hne).imp fun h => lt_of_le_of_ne h.1 h.2

/-- **A listing depends only on the keys under its prefix.** Two stores that agree under `pfx`
list the same pages under it, in the same order. -/
lemma listPages_congr {s' : Store} {recursive : Bool} (h : AgreeOn (pfx <+: ·) s s') :
    s.listPages pfx recursive = s'.listPages pfx recursive := by
  have hsort : (s.listEntries pfx recursive).insertionSort keyLE =
      (s'.listEntries pfx recursive).insertionSort keyLE :=
    List.eq_of_perm_of_sorted (((List.perm_insertionSort _ _).trans (perm_listEntries h)).trans
      (List.perm_insertionSort _ _).symm) sorted_listEntries sorted_listEntries
  simp only [listPages, hsort]

lemma listObjects_congr {s' : Store} {recursive : Bool} (h : AgreeOn (pfx <+: ·) s s') :
    s.listObjects pfx recursive = s'.listObjects pfx recursive := by
  rw [listObjects, listObjects, listPages_congr h]

/-- A store holding no key under a prefix lists nothing under it. -/
lemma listObjects_false_eq_nil (h : ∀ k ∈ s, ¬ pfx <+: k) : s.listObjects pfx false = [] :=
  List.eq_nil_iff_forall_not_mem.2 fun o ho => by
    rcases mem_listObjects_false.1 ho with ⟨k, v, hl, hp, -⟩ | ⟨k, c, hk, hp, -⟩
    · exact h k (AList.lookup_isSome.1 (by simp [hl])) hp
    · exact h k hk hp

end Store

end Netftp
