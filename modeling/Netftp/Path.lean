import Mathlib.Data.List.Basic

/-!
# Slash-separated paths

The FTP server resolves every path a client sends against the current directory and cleans
it with Go's `path.Clean` before it calls the driver, so a driver only ever sees cleaned
absolute paths; a listing's entries are turned back into paths with `path.Join`. This module
models `path.Clean` and `path.Join` and the cleaned absolute paths, as lists of path elements.

## Main definitions

* `Netftp.IsName` — a path element `path.Clean` keeps as it is.
* `Netftp.AbsPath` — a cleaned absolute path, as its elements; `Netftp.AbsPath.toPath` is its
  text.
* `Netftp.clean`, `Netftp.join` — Go's `path.Clean` and `path.Join`.

## Main results

* `Netftp.clean_slash_intercalate` — cleaning a rooted path whose elements are names or empty
  drops the empty elements.
* `Netftp.AbsPath.join_child`, `Netftp.AbsPath.join_child_slash` — `path.Join` of a directory
  and the name of one of its children, with or without a trailing `'/'`, is the child's path;
  `Netftp.AbsPath.join_slash` — with `"/"` alone, it is the directory itself.

## Design

`path.Clean` is specified by Go's documentation as the lexical processing of the path's
elements: empty elements and `.` are dropped, a `..` removes the element before it, a `..` at
the root of a rooted path is dropped, and an empty result is `.`. `Netftp.clean` is that
processing over `List.splitOn '/'`, with a stack of the elements kept so far.
-/

set_option autoImplicit false

namespace Netftp

/-- A path element that `path.Clean` keeps as it is: non-empty, without `'/'`, and neither
`.` nor `..`. -/
structure IsName (s : List Char) : Prop where
  ne_nil : s ≠ []
  slash_not_mem : '/' ∉ s
  ne_dot : s ≠ ['.']
  ne_dotDot : s ≠ ['.', '.']

instance : DecidablePred IsName := fun s =>
  decidable_of_iff (s ≠ [] ∧ '/' ∉ s ∧ s ≠ ['.'] ∧ s ≠ ['.', '.'])
    ⟨fun ⟨a, b, c, d⟩ => ⟨a, b, c, d⟩, fun ⟨a, b, c, d⟩ => ⟨a, b, c, d⟩⟩

/-! ### `path.Clean` and `path.Join` -/

/-- One element of `path.Clean`'s processing, on the elements kept so far (the last one
first): empty elements and `.` are dropped; `..` removes the last kept element, unless there is
none or it is itself `..`, in which case a rooted path drops the `..` and a relative one keeps
it. -/
def cleanStep (rooted : Bool) (kept : List (List Char)) (elem : List Char) : List (List Char) :=
  if elem = [] ∨ elem = ['.'] then kept
  else if elem = ['.', '.'] then
    match kept with
    | top :: rest => if top = ['.', '.'] then elem :: kept else rest
    | [] => if rooted then [] else [elem]
  else elem :: kept

/-- Go's `path.Clean`: the shortest path equivalent to `path` by lexical processing. -/
def clean (path : List Char) : List Char :=
  if path = [] then ['.'] else
  let rooted := path.head? = some '/'
  let kept := ((path.splitOn '/').foldl (cleanStep rooted) []).reverse
  let out := (if rooted then ['/'] else []) ++ ['/'].intercalate kept
  if out = [] then ['.'] else out

/-- Go's `path.Join(elem...)`: the non-empty elements joined by `'/'`, cleaned; the empty
path when every element is empty (their total size is `0`). -/
def join (elem : List (List Char)) : List Char :=
  if elem.foldl (fun size e => size + e.length) 0 = 0 then [] else
  clean (elem.foldl (fun buf e =>
    if buf ≠ [] ∨ e ≠ [] then (if buf ≠ [] then buf ++ ['/'] else buf) ++ e else buf) [])

lemma join_pair {a : List Char} (b : List Char) (ha : a ≠ []) :
    join [a, b] = clean (a ++ '/' :: b) := by
  simp [join, ha]

lemma intercalate_cons_cons (a b : List Char) (l : List (List Char)) :
    ['/'].intercalate (a :: b :: l) = a ++ '/' :: ['/'].intercalate (b :: l) := by
  simp [List.intercalate]

lemma intercalate_append_singleton {l : List (List Char)} (hl : l ≠ []) (s : List Char) :
    ['/'].intercalate (l ++ [s]) = ['/'].intercalate l ++ '/' :: s := by
  induction l with
  | nil => exact absurd rfl hl
  | cons a l ih =>
    cases l with
    | nil => simp [List.intercalate]
    | cons b l =>
      have ih' := ih (List.cons_ne_nil _ _)
      rw [List.cons_append] at ih'
      rw [List.cons_append, List.cons_append, intercalate_cons_cons, ih', intercalate_cons_cons]
      simp

/-- Over elements that are names or empty, `path.Clean`'s processing keeps the names. -/
lemma foldl_cleanStep (rooted : Bool) {parts : List (List Char)}
    (h : ∀ e ∈ parts, e = [] ∨ IsName e) (kept : List (List Char)) :
    parts.foldl (cleanStep rooted) kept = (parts.filter (· ≠ [])).reverse ++ kept := by
  induction parts generalizing kept with
  | nil => rfl
  | cons e parts ih =>
    have ih' := ih fun e' he' => h e' (List.mem_cons_of_mem _ he')
    rcases h e (List.mem_cons_self _ _) with rfl | he
    · simp [cleanStep, ih']
    · simp [cleanStep, he.ne_nil, he.ne_dot, he.ne_dotDot, ih']

/-- Cleaning a rooted path whose elements are names or empty drops the empty elements. -/
lemma clean_slash_intercalate {parts : List (List Char)} (hne : parts ≠ [])
    (h : ∀ e ∈ parts, e = [] ∨ IsName e) :
    clean ('/' :: ['/'].intercalate parts) =
      '/' :: ['/'].intercalate (parts.filter (· ≠ [])) := by
  obtain ⟨p, ps, rfl⟩ := List.exists_cons_of_ne_nil hne
  have hsplit : ('/' :: ['/'].intercalate (p :: ps)).splitOn '/' = [] :: p :: ps := by
    have := List.splitOn_intercalate ([] :: p :: ps) '/' ?_ (List.cons_ne_nil _ _)
    · simpa [intercalate_cons_cons] using this
    · intro l hl
      rcases List.mem_cons.1 hl with rfl | hl
      · simp
      · rcases h l hl with rfl | hn
        · simp
        · exact hn.slash_not_mem
  simp [clean, hsplit, cleanStep, foldl_cleanStep true h]

/-! ### Cleaned absolute paths -/

/-- A cleaned absolute path, as its elements: the paths the FTP server hands a driver. -/
structure AbsPath where
  names : List (List Char)
  isName : ∀ s ∈ names, IsName s

namespace AbsPath

/-- The text of the path: `'/'` followed by its elements joined with `'/'`. -/
def toPath (d : AbsPath) : List Char := '/' :: ['/'].intercalate d.names

/-- The root directory `/`. -/
def root : AbsPath := ⟨[], fun _ h => absurd h (List.not_mem_nil _)⟩

/-- The entry `s` of the directory `d`. -/
def child (d : AbsPath) (s : List Char) (hs : IsName s) : AbsPath :=
  ⟨d.names ++ [s], fun e he => by
    rcases List.mem_append.1 he with he | he
    · exact d.isName e he
    · rw [List.mem_singleton.1 he]; exact hs⟩

@[simp] lemma toPath_root : root.toPath = ['/'] := rfl

lemma toPath_ne_nil (d : AbsPath) : d.toPath ≠ [] := List.cons_ne_nil _ _

lemma intercalate_names_not_slash (d : AbsPath) : ∀ e ∈ d.names, e = [] ∨ IsName e :=
  fun e he => .inr (d.isName e he)

lemma filter_names (d : AbsPath) : d.names.filter (· ≠ []) = d.names :=
  List.filter_eq_self.2 fun e he => decide_eq_true (d.isName e he).ne_nil

/-- The elements of a child, as `path.Clean` keeps them. -/
lemma filter_child (d : AbsPath) {s : List Char} (hs : IsName s) (tail : List (List Char))
    (htail : ∀ e ∈ tail, e = []) :
    ((if d.names = [] then [[]] else d.names) ++ s :: tail).filter (· ≠ []) = d.names ++ [s] := by
  have ht : tail.filter (· ≠ []) = [] := List.filter_eq_nil_iff.2 fun e he => by simp [htail e he]
  rw [List.filter_append, List.filter_cons, if_pos (decide_eq_true hs.ne_nil), ht]
  split_ifs with h
  · simp [h]
  · rw [filter_names]

/-- The text of `d`, a `'/'`, then `e`, as a rooted path of elements. -/
lemma toPath_append_slash (d : AbsPath) (e : List Char) :
    d.toPath ++ '/' :: e =
      '/' :: ['/'].intercalate ((if d.names = [] then [[]] else d.names) ++ [e]) := by
  split_ifs with h
  · simp [toPath, h, List.intercalate]
  · simp [toPath, intercalate_append_singleton h]

/-- The elements `toPath_append_slash` splits a directory's text into, then `tail`, are names or
empty when those of `tail` are. -/
lemma elems_append_name_or_nil (d : AbsPath) {tail : List (List Char)}
    (h : ∀ e ∈ tail, e = [] ∨ IsName e) :
    ∀ e ∈ (if d.names = [] then [[]] else d.names) ++ tail, e = [] ∨ IsName e := by
  intro e he
  rcases List.mem_append.1 he with he | he
  · split_ifs at he
    · exact .inl (List.mem_singleton.1 he)
    · exact d.intercalate_names_not_slash e he
  · exact h e he

/-- `path.Join` of a directory and the name of one of its entries is the entry's path. -/
lemma join_child (d : AbsPath) {s : List Char} (hs : IsName s) :
    join [d.toPath, s] = (d.child s hs).toPath := by
  rw [join_pair _ d.toPath_ne_nil, toPath_append_slash,
    clean_slash_intercalate (by simp) (d.elems_append_name_or_nil (by simp [hs])),
    filter_child d hs [] (by simp)]
  rfl

/-- `path.Join` of a directory and the name of one of its entries followed by `'/'` (as a
listing reports a directory) is the entry's path: `path.Clean` drops the trailing `'/'`. -/
lemma join_child_slash (d : AbsPath) {s : List Char} (hs : IsName s) :
    join [d.toPath, s ++ ['/']] = (d.child s hs).toPath := by
  have hsplit : d.toPath ++ '/' :: (s ++ ['/']) =
      '/' :: ['/'].intercalate ((if d.names = [] then [[]] else d.names) ++ [s, []]) := by
    rw [List.append_cons _ s [[]], intercalate_append_singleton (l := _ ++ [s]) (by simp)]
    simpa using congrArg (· ++ ['/']) (d.toPath_append_slash s)
  rw [join_pair _ d.toPath_ne_nil, hsplit,
    clean_slash_intercalate (by simp) (d.elems_append_name_or_nil (by simp [hs])),
    filter_child d hs [[]] (by simp)]
  rfl

/-- `path.Join` of a directory and `"/"` (as a listing names a key that starts with `'/'`
right after the directory's prefix) is the directory itself. -/
lemma join_slash (d : AbsPath) : join [d.toPath, ['/']] = d.toPath := by
  have hsplit : d.toPath ++ '/' :: ['/'] =
      '/' :: ['/'].intercalate ((if d.names = [] then [[]] else d.names) ++ [[], []]) := by
    rw [List.append_cons _ [] [[]], intercalate_append_singleton (l := _ ++ [[]]) (by simp)]
    simpa using congrArg (· ++ ['/']) (d.toPath_append_slash [])
  rw [join_pair _ d.toPath_ne_nil, hsplit,
    clean_slash_intercalate (by simp) (d.elems_append_name_or_nil (by simp)), List.filter_append]
  split_ifs with h
  · simp [toPath, h]
  · rw [filter_names]
    simp [toPath]

end AbsPath

end Netftp
