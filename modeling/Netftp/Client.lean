import Netftp.ObjectStore

/-!
# The minio client calls

The drivers reach the bucket only through minio-go's client: `StatObject`, `ListObjects`,
`RemoveObject`, `CopyObject`, `PutObject`, `ComposeObject` and `GetObject` with the
`Object.Seek` and `Object.Stat` of the object it returns. This module models those calls as
computations of the `Client` monad, which reads and changes a `Bucket` and raises a Go `error`
the way the client returns one, keeping the bucket as the failure left it.

## Main definitions

* `Netftp.Bucket` — the objects, and which of the requests still to come fail in transit.
* `Netftp.Client` — `EStateM Error Bucket`.
* `Netftp.Client.request` — one round trip to the server.
* `Netftp.Client.checkValidObjectName` — minio-go's check of an object name.
* `Netftp.Client.fetchPages` — the page requests of a listing.
* `Netftp.Client.statObject`, `listObjects`, `removeObject`, `copyObject`, `putObject`,
  `composeObject`, `getObject`, `Object.seek`, `Object.stat` — the client calls.
* `Netftp.Client.Preserves` — a relation between the store before and after a computation
  that holds whatever the computation returns; it is kept by `>>=` and `deferring`.
* `Netftp.Client.LocalTo` — a computation whose outcome on a reliable network depends only on
  a set of keys; it is kept by `>>=` and `deferring`, and each call is local to the keys it
  reads (`statObject_local`, `listObjects_local`, `copyObject_local`, `composeObject_local`).

## Main results

* One `_apply` lemma per call, stating what it does to any bucket; the drivers' proofs use
  these and never unfold a call.
* `Netftp.Client.listObjects_spec` — whichever requests fail, a listing changes nothing and
  delivers the store's listing or some first items of it followed by an error item.
* `Netftp.Client.removeObject_agreeOff`, `putObject_agreeOff`, `copyObject_agreeOff`,
  `composeObject_agreeOff` — the calls that write change only the key they name.

## Design

A request can fail in transit at any point of a run; the list `Bucket.faults` says which ones
do, one entry per request (`true`: this request fails), and the empty list is a network that
never fails. A request that fails in transit has no effect on the store, and a request the
server refuses (a missing key, say) has none either: every S3 call the drivers make is atomic
on the server. Quantifying over every fault list covers every point at which a run can fail.

The server follows S3: removing a key that holds no object succeeds, copying an object onto
itself without new metadata is refused, and a listing is sorted by key and served in pages of at
most 1000 entries, one request each, of which minio-go delivers each page's objects before its
common prefixes; a page whose request fails ends the listing with an item carrying the error.
minio-go checks names before sending anything. `CheckValidObjectName`, which `StatObject`,
`RemoveObject`, `PutObject`, `GetObject` and `NewDestinationInfo` run, refuses a name that is
blank after `strings.TrimSpace` or longer than 1024 bytes (its UTF-8 check cannot fail on a
string of characters); `ListObjects` refuses a prefix longer than 1024 bytes, delivering the
error as its one item. `CopyObject` checks no source name on the client. `ComposeObject`
requires every source but the last to be at least `absMinPartSize` long; the stat requests it
makes for its sources are folded into its one request, and their name checks cannot fail where
the drivers call it, on sources they have just stat'ed or written.

MinIO, which the driver is named after, departs from S3 in two ways the model does not follow:
it keeps objects as files, so a delimited listing does not show keys under the name of an
object (`a` hides `a/b`), and it refuses the key `/`. Results about stores that hold a key and
keys under it, or the key `/`, describe an S3 server.
-/

set_option autoImplicit false

namespace Netftp

/-- A bucket as the drivers' client meets it: the objects it holds, and the fate of the
requests still to come (`true`: the request fails in transit; past the end of the list, none
fails). -/
structure Bucket where
  store : Store
  faults : List Bool

/-- Whether the next request fails in transit. -/
def Bucket.drops (b : Bucket) : Prop := b.faults.head? = some true

instance (b : Bucket) : Decidable b.drops := inferInstanceAs (Decidable (_ = _))

@[simp] lemma Bucket.not_drops_nil (s : Store) : ¬ (⟨s, []⟩ : Bucket).drops := by
  simp [Bucket.drops]

lemma Bucket.eq_mk_of_faults_nil {b : Bucket} (h : b.faults = []) : b = ⟨b.store, []⟩ := by
  cases b
  cases h
  rfl

/-- The minio client's calls against one bucket. -/
abbrev Client := EStateM Error Bucket

namespace Client

variable {α β : Type}

/-- The bucket a run of the client ends with, whether it returned or failed. -/
def bucketOf : EStateM.Result Error Bucket α → Bucket
  | .ok _ b => b
  | .error _ b => b

@[simp] lemma bucketOf_ok (a : α) (b : Bucket) : bucketOf (.ok a b) = b := rfl
@[simp] lemma bucketOf_error (e : Error) (b : Bucket) : bucketOf (.error e b : EStateM.Result _ _ α) = b :=
  rfl

@[simp] lemma bind_apply (x : Client α) (f : α → Client β) (b : Bucket) :
    (x >>= f) b = match x b with
      | .ok a b' => f a b'
      | .error e b' => .error e b' := by
  show EStateM.bind x f b = _
  unfold EStateM.bind
  cases x b <;> rfl

@[simp] lemma map_apply (f : α → β) (x : Client α) (b : Bucket) :
    (f <$> x) b = match x b with
      | .ok a b' => .ok (f a) b'
      | .error e b' => .error e b' := by
  show EStateM.map f x b = _
  unfold EStateM.map
  cases x b <;> rfl

@[simp] lemma pure_apply (a : α) (b : Bucket) : (pure a : Client α) b = .ok a b := rfl

@[simp] lemma throw_apply (e : Error) (b : Bucket) : (throw e : Client α) b = .error e b := rfl

@[simp] lemma tryCatch_apply (x : Client α) (h : Error → Client α) (b : Bucket) :
    tryCatch x h b = match x b with
      | .ok a b' => .ok a b'
      | .error e b' => h e b' := by
  show EStateM.tryCatch x h b = _
  unfold EStateM.tryCatch
  cases x b <;> rfl

/-- A call whose error the caller handles itself, as Go's `v, err := ...` does. -/
def attempt (x : Client α) : Client (Except Error α) :=
  tryCatch (Except.ok <$> x) fun e => pure (.error e)

@[simp] lemma attempt_apply (x : Client α) (b : Bucket) :
    attempt x b = match x b with
      | .ok a b' => .ok (.ok a) b'
      | .error e b' => .ok (.error e) b' := by
  simp only [attempt, tryCatch_apply, map_apply]
  cases x b <;> rfl

/-- Go's `defer f()` whose error is only logged: `deferred` runs after `body` whatever `body`
returned, and `body`'s result stands. -/
def deferring (body : Client α) (deferred : Client Unit) : Client α := do
  let r ← attempt body
  let _ ← attempt deferred
  match r with
  | .ok a => return a
  | .error e => throw e

@[simp] lemma deferring_apply (body : Client α) (deferred : Client Unit) (b : Bucket) :
    deferring body deferred b = match body b with
      | .ok a b' => .ok a (bucketOf (deferred b'))
      | .error e b' => .error e (bucketOf (deferred b')) := by
  simp only [deferring, bind_apply, attempt_apply]
  cases body b <;> simp only <;> cases deferred _ <;> rfl

/-! ### Relations a computation keeps -/

/-- A computation after which the store is related by `R` to the store before, whatever it
returns and whichever requests fail. -/
def Preserves (R : Store → Store → Prop) (x : Client α) : Prop :=
  ∀ b : Bucket, R b.store (bucketOf (x b)).store

namespace Preserves

variable {R : Store → Store → Prop}

lemma pure [IsRefl Store R] (a : α) : Preserves R (Pure.pure a : Client α) :=
  fun b => refl_of R b.store

lemma throw [IsRefl Store R] (e : Error) : Preserves R (MonadExcept.throw e : Client α) :=
  fun b => refl_of R b.store

lemma bind [IsTrans Store R] {x : Client α} {f : α → Client β} (hx : Preserves R x)
    (hf : ∀ a, Preserves R (f a)) : Preserves R (x >>= f) := fun b => by
  have h := hx b
  rw [bind_apply]
  rcases hr : x b with ⟨a, b'⟩ | ⟨e, b'⟩ <;> rw [hr] at h
  · exact trans_of R h (hf a b')
  · exact h

lemma deferring [IsTrans Store R] {body : Client α} {deferred : Client Unit}
    (hb : Preserves R body) (hd : Preserves R deferred) :
    Preserves R (Client.deferring body deferred) := fun b => by
  have h := hb b
  rw [deferring_apply]
  rcases hr : body b with ⟨a, b'⟩ | ⟨e, b'⟩ <;> rw [hr] at h <;> exact trans_of R h (hd b')

/-- A computation that changes only `keys` changes only any larger set of keys. -/
lemma agreeOff_mono {keys keys' : List Char → Prop} {x : Client α}
    (h : Preserves (Store.AgreeOff keys) x) (hk : ∀ k, keys k → keys' k) :
    Preserves (Store.AgreeOff keys') x :=
  fun b => (h b).mono hk

end Preserves

/-! ### Computations whose outcome depends only on some keys -/

/-- The result a run ends with, without its bucket. -/
def resultOf : EStateM.Result Error Bucket α → Except Error α
  | .ok a _ => .ok a
  | .error e _ => .error e

/-- Two runs on a reliable network that cannot be told apart on `keys`: the same result, the
network still reliable, and stores that agree on `keys`. -/
def SameOn (keys : List Char → Prop) (r₁ r₂ : EStateM.Result Error Bucket α) : Prop :=
  resultOf r₁ = resultOf r₂ ∧ (bucketOf r₁).faults = [] ∧ (bucketOf r₂).faults = [] ∧
    Store.AgreeOn keys (bucketOf r₁).store (bucketOf r₂).store

/-- A computation whose outcome on a reliable network depends only on the keys of `keys`:
started on two stores that agree there, its two runs cannot be told apart on `keys`. -/
def LocalTo (keys : List Char → Prop) (x : Client α) : Prop :=
  ∀ σ₁ σ₂, Store.AgreeOn keys σ₁ σ₂ → SameOn keys (x ⟨σ₁, []⟩) (x ⟨σ₂, []⟩)

variable {keys : List Char → Prop}

/-- The two shapes of a pair of runs that cannot be told apart. -/
lemma SameOn.inv {r₁ r₂ : EStateM.Result Error Bucket α} (h : SameOn keys r₁ r₂) :
    (∃ a τ₁ τ₂, r₁ = .ok a ⟨τ₁, []⟩ ∧ r₂ = .ok a ⟨τ₂, []⟩ ∧ Store.AgreeOn keys τ₁ τ₂) ∨
    (∃ e τ₁ τ₂, r₁ = .error e ⟨τ₁, []⟩ ∧ r₂ = .error e ⟨τ₂, []⟩ ∧ Store.AgreeOn keys τ₁ τ₂) := by
  obtain ⟨hr, h₁, h₂, hs⟩ := h
  rcases r₁ with ⟨a, τ₁, l₁⟩ | ⟨e, τ₁, l₁⟩ <;> rcases r₂ with ⟨a', τ₂, l₂⟩ | ⟨e', τ₂, l₂⟩ <;>
    simp only [resultOf, bucketOf, Except.ok.injEq, Except.error.injEq] at hr h₁ h₂ hs <;>
    subst_vars
  · exact .inl ⟨_, _, _, rfl, rfl, hs⟩
  · cases hr
  · cases hr
  · exact .inr ⟨_, _, _, rfl, rfl, hs⟩

namespace LocalTo

lemma pure (a : α) : LocalTo keys (Pure.pure a : Client α) := fun _ _ h => ⟨rfl, rfl, rfl, h⟩

lemma throw (e : Error) : LocalTo keys (MonadExcept.throw e : Client α) :=
  fun _ _ h => ⟨rfl, rfl, rfl, h⟩

lemma bind {x : Client α} {f : α → Client β} (hx : LocalTo keys x)
    (hf : ∀ a, LocalTo keys (f a)) : LocalTo keys (x >>= f) := fun σ₁ σ₂ h => by
  rw [bind_apply, bind_apply]
  rcases (hx σ₁ σ₂ h).inv with ⟨a, τ₁, τ₂, h₁, h₂, hs⟩ | ⟨e, τ₁, τ₂, h₁, h₂, hs⟩ <;>
    rw [h₁, h₂]
  · exact hf a τ₁ τ₂ hs
  · exact ⟨rfl, rfl, rfl, hs⟩

lemma deferring {body : Client α} {deferred : Client Unit} (hb : LocalTo keys body)
    (hd : LocalTo keys deferred) : LocalTo keys (Client.deferring body deferred) :=
  fun σ₁ σ₂ h => by
    rw [deferring_apply, deferring_apply]
    rcases (hb σ₁ σ₂ h).inv with ⟨a, τ₁, τ₂, h₁, h₂, hs⟩ | ⟨e, τ₁, τ₂, h₁, h₂, hs⟩ <;>
      rw [h₁, h₂] <;> exact ⟨rfl, (hd τ₁ τ₂ hs).2⟩

end LocalTo

/-- One request to the server. When the next fault is `true` the request fails in transit and
the server does not act on it; otherwise the server answers with `serve`, which leaves the
store as it was when it refuses the request. -/
def request (serve : Store → Except Error (α × Store)) : Client α := fun b =>
  if b.drops then .error .network ⟨b.store, b.faults.tail⟩
  else match serve b.store with
    | .ok (a, s) => .ok a ⟨s, b.faults.tail⟩
    | .error e => .error e ⟨b.store, b.faults.tail⟩

/-- minio-go's `s3utils.CheckValidObjectName`, run before any request is sent. -/
def checkValidObjectName (objectName : List Char) : Client Unit :=
  match S3Utils.checkValidObjectName objectName with
  | .error e => throw e
  | .ok () => pure ()

/-- `StatObject(bucket, objectName, opts)`. -/
def statObject (objectName : List Char) : Client ObjectInfo := do
  checkValidObjectName objectName
  request fun s => match s.lookup objectName with
    | some v => .ok ({ key := objectName, size := v.length }, s)
    | none => .error .noSuchKey

/-- The item a listing delivers in place of an object when it fails. -/
def errItem (e : Error) : ObjectInfo := { key := [], size := 0, err := some e }

/-- The pages of a listing, one request each, in order: a page whose request fails in transit
ends what the listing delivers with an item carrying the error. -/
def fetchPages : List (List ObjectInfo) → Client (List ObjectInfo)
  | [] => pure []
  | page :: pages => do
    match ← attempt (request fun s => .ok ((), s)) with
    | .error e => pure [errItem e]
    | .ok () => return page ++ (← fetchPages pages)

/-- `ListObjects(bucket, objectPrefix, recursive, doneCh)`: what it delivers. A prefix that
`CheckValidObjectNamePrefix` refuses is delivered as one item carrying the error, with no
request sent; otherwise the pages of the listing, one request each. -/
def listObjects (objectPrefix : List Char) (recursive : Bool) : Client (List ObjectInfo) :=
  fun b => match S3Utils.checkValidObjectNamePrefix objectPrefix with
    | .error e => .ok [errItem e] b
    | .ok () => fetchPages (b.store.listPages objectPrefix recursive) b

/-- `RemoveObject(bucket, objectName)`: S3 reports success whether or not the key held an
object. -/
def removeObject (objectName : List Char) : Client Unit := do
  checkValidObjectName objectName
  request fun s => .ok ((), s.erase objectName)

/-- `PutObject(bucket, objectName, reader, size, opts)` with the reader's bytes: the number of
bytes uploaded. -/
def putObject (objectName : List Char) (data : List UInt8) : Client Nat := do
  checkValidObjectName objectName
  request fun s => .ok (data.length, s.insert objectName data)

/-- `NewDestinationInfo(bucket, object, nil, nil)`: the destination of a copy or a compose. -/
def newDestinationInfo (object : List Char) : Client (List Char) := do
  checkValidObjectName object
  pure object

/-- `CopyObject(dst, src)`, the source given by `NewSourceInfo(bucket, src, nil)`. -/
def copyObject (dst src : List Char) : Client Unit :=
  request fun s => match s.lookup src with
    | none => .error .noSuchKey
    | some v => if dst = src then .error .invalidCopyDest else .ok ((), s.insert dst v)

/-- minio-go's `absMinPartSize`: every source of a compose but the last must be this long. -/
def absMinPartSize : Nat := 1024 * 1024 * 5

/-- The sources of a compose, read in order from source `i` on: their concatenated content,
or the error minio-go reports for the first source that is missing or, not being the last,
shorter than `absMinPartSize`. -/
def composeSources (s : Store) (i : Nat) : List (List Char) → Except Error (List UInt8)
  | [] => .ok []
  | src :: srcs => match s.lookup src with
    | none => .error .noSuchKey
    | some v =>
      if srcs ≠ [] ∧ v.length < absMinPartSize then .error (.partTooSmall i v.length)
      else (v ++ ·) <$> composeSources s (i + 1) srcs

/-- `ComposeObject(dst, srcs)`: the destination gets the sources' contents, concatenated in
the order given. -/
def composeObject (dst : List Char) (srcs : List (List Char)) : Client Unit :=
  request fun s => (fun data => ((), s.insert dst data)) <$> composeSources s 0 srcs

/-- minio-go's `*Object`: the key it reads, what its first request learnt (the object's info
and content), and the offset reading resumes from. -/
structure Object where
  key : List Char
  fetched : Option (ObjectInfo × List UInt8) := none
  currOffset : Nat := 0

/-- `GetObject(bucket, objectName, opts)`: a handle; no request is sent yet. -/
def getObject (objectName : List Char) : Client Object := do
  checkValidObjectName objectName
  pure { key := objectName }

/-- The first request of an `Object`: the object's info, and its content as of that request. -/
def Object.fetch (o : Object) : Client (ObjectInfo × List UInt8) :=
  match o.fetched with
  | some f => pure f
  | none => request fun s => match s.lookup o.key with
    | some v => .ok (({ key := o.key, size := v.length }, v), s)
    | none => .error .noSuchKey

/-- `Object.Seek(offset, io.SeekStart)`. -/
def Object.seek (o : Object) (offset : Int) : Client Object := do
  if offset < 0 then throw .negativePosition
  let (info, data) ← o.fetch
  if (info.size : Int) < offset then throw .eof
  pure { o with fetched := some (info, data), currOffset := offset.toNat }

/-- `Object.Stat()`: the object's info, and the handle, which Go updates in place, now holding
what its first request learnt. -/
def Object.stat (o : Object) : Client (ObjectInfo × Object) := do
  let (info, data) ← o.fetch
  pure (info, { o with fetched := some (info, data) })

/-- The bytes reading a fetched object yields, from its current offset to its end. -/
def Object.bytes (o : Object) : List UInt8 :=
  match o.fetched with
  | some (_, v) => v.drop o.currOffset
  | none => []

/-! ### What each call does -/

variable (b : Bucket)

lemma request_apply (serve : Store → Except Error (α × Store)) : request serve b =
    if b.drops then .error .network ⟨b.store, b.faults.tail⟩
    else match serve b.store with
      | .ok (a, s) => .ok a ⟨s, b.faults.tail⟩
      | .error e => .error e ⟨b.store, b.faults.tail⟩ := rfl

lemma checkValidObjectName_apply (objectName : List Char) : checkValidObjectName objectName b =
    match S3Utils.checkValidObjectName objectName with
    | .error e => .error e b
    | .ok () => .ok () b := by
  unfold checkValidObjectName
  rcases S3Utils.checkValidObjectName objectName with e | ⟨⟩ <;> rfl

lemma statObject_apply (objectName : List Char) : statObject objectName b =
    match S3Utils.checkValidObjectName objectName with
    | .error e => .error e b
    | .ok () => if b.drops then .error .network ⟨b.store, b.faults.tail⟩
      else match b.store.lookup objectName with
        | some v => .ok { key := objectName, size := v.length } ⟨b.store, b.faults.tail⟩
        | none => .error .noSuchKey ⟨b.store, b.faults.tail⟩ := by
  rcases hc : S3Utils.checkValidObjectName objectName with e | ⟨⟩ <;> by_cases hd : b.drops <;>
    cases h : b.store.lookup objectName <;>
    simp [statObject, checkValidObjectName_apply, request_apply, hc, hd, h]

/-- On a reliable network, the pages of a listing are delivered whole. -/
lemma fetchPages_reliable (σ : Store) :
    ∀ pages, fetchPages pages ⟨σ, []⟩ = .ok pages.flatten ⟨σ, []⟩
  | [] => rfl
  | page :: pages => by
    simp [fetchPages, request_apply, fetchPages_reliable σ pages]

/-- Whichever requests fail, fetching pages changes no object, and delivers the pages whole, or
the items of some first pages followed by an item carrying an error. -/
lemma fetchPages_spec : ∀ (pages : List (List ObjectInfo)) (b : Bucket),
    ∃ items faults, fetchPages pages b = .ok items ⟨b.store, faults⟩ ∧
      (items = pages.flatten ∨ ∃ pre e, pre <+: pages.flatten ∧ items = pre ++ [errItem e])
  | [], b => ⟨[], b.faults, rfl, .inl rfl⟩
  | page :: pages, b => by
    by_cases hd : b.drops
    · exact ⟨[errItem .network], b.faults.tail, by simp [fetchPages, request_apply, hd],
        .inr ⟨[], .network, List.nil_prefix, rfl⟩⟩
    · obtain ⟨items, faults, h, hi⟩ := fetchPages_spec pages ⟨b.store, b.faults.tail⟩
      refine ⟨page ++ items, faults, by simp [fetchPages, request_apply, hd, h], ?_⟩
      rcases hi with rfl | ⟨pre, e, hp, rfl⟩
      · exact .inl rfl
      · exact .inr ⟨page ++ pre, e, (List.prefix_append_right_inj page).2 hp, by simp⟩

lemma listObjects_apply (objectPrefix : List Char) (recursive : Bool) :
    listObjects objectPrefix recursive b =
      match S3Utils.checkValidObjectNamePrefix objectPrefix with
      | .error e => .ok [errItem e] b
      | .ok () => fetchPages (b.store.listPages objectPrefix recursive) b := rfl

/-- A listing on a reliable network: the store's listing, or the refusal of a prefix over 1024
bytes. -/
lemma listObjects_reliable (σ : Store) (objectPrefix : List Char) (recursive : Bool) :
    listObjects objectPrefix recursive ⟨σ, []⟩ =
      .ok (if byteLength objectPrefix ≤ 1024 then σ.listObjects objectPrefix recursive
        else [errItem .objectNameTooLong]) ⟨σ, []⟩ := by
  rw [listObjects_apply]
  by_cases h : byteLength objectPrefix ≤ 1024
  · rw [checkValidObjectNamePrefix_eq_ok.2 h, if_pos h]
    exact fetchPages_reliable σ _
  · simp only [S3Utils.checkValidObjectNamePrefix, if_pos (lt_of_not_le h), if_neg h]

/-- Whichever requests fail, a listing changes no object and delivers the store's listing, or
some first items of it followed by an item carrying an error. -/
lemma listObjects_spec (objectPrefix : List Char) (recursive : Bool) :
    ∃ items faults, listObjects objectPrefix recursive b = .ok items ⟨b.store, faults⟩ ∧
      (items = b.store.listObjects objectPrefix recursive ∨
        ∃ pre e, pre <+: b.store.listObjects objectPrefix recursive ∧ items = pre ++ [errItem e]) := by
  rw [listObjects_apply]
  split
  · exact ⟨_, _, rfl, .inr ⟨[], _, List.nil_prefix, rfl⟩⟩
  · exact fetchPages_spec _ b

lemma removeObject_apply (objectName : List Char) : removeObject objectName b =
    match S3Utils.checkValidObjectName objectName with
    | .error e => .error e b
    | .ok () => if b.drops then .error .network ⟨b.store, b.faults.tail⟩
      else .ok () ⟨b.store.erase objectName, b.faults.tail⟩ := by
  rcases hc : S3Utils.checkValidObjectName objectName with e | ⟨⟩ <;> by_cases hd : b.drops <;>
    simp [removeObject, checkValidObjectName_apply, request_apply, hc, hd]

lemma putObject_apply (objectName : List Char) (data : List UInt8) :
    putObject objectName data b =
      match S3Utils.checkValidObjectName objectName with
      | .error e => .error e b
      | .ok () => if b.drops then .error .network ⟨b.store, b.faults.tail⟩
        else .ok data.length ⟨b.store.insert objectName data, b.faults.tail⟩ := by
  rcases hc : S3Utils.checkValidObjectName objectName with e | ⟨⟩ <;> by_cases hd : b.drops <;>
    simp [putObject, checkValidObjectName_apply, request_apply, hc, hd]

lemma newDestinationInfo_apply (object : List Char) : newDestinationInfo object b =
    match S3Utils.checkValidObjectName object with
    | .error e => .error e b
    | .ok () => .ok object b := by
  rcases hc : S3Utils.checkValidObjectName object with e | ⟨⟩ <;>
    simp [newDestinationInfo, checkValidObjectName_apply, hc]

lemma copyObject_apply (dst src : List Char) : copyObject dst src b =
    if b.drops then .error .network ⟨b.store, b.faults.tail⟩
    else match b.store.lookup src with
      | none => .error .noSuchKey ⟨b.store, b.faults.tail⟩
      | some v =>
        if dst = src then .error .invalidCopyDest ⟨b.store, b.faults.tail⟩
        else .ok () ⟨b.store.insert dst v, b.faults.tail⟩ := by
  by_cases hd : b.drops <;> by_cases he : dst = src <;> cases h : b.store.lookup src <;>
    simp [copyObject, request_apply, hd, he, h]

lemma composeObject_apply (dst : List Char) (srcs : List (List Char)) :
    composeObject dst srcs b =
      if b.drops then .error .network ⟨b.store, b.faults.tail⟩
      else match composeSources b.store 0 srcs with
        | .ok data => .ok () ⟨b.store.insert dst data, b.faults.tail⟩
        | .error e => .error e ⟨b.store, b.faults.tail⟩ := by
  by_cases hd : b.drops <;> cases h : composeSources b.store 0 srcs <;>
    simp [composeObject, request_apply, hd, h, Functor.map, Except.map]

/-- A compose of two sources: the first one must be at least `absMinPartSize` long. -/
lemma composeSources_pair (s : Store) (i : Nat) (src₁ src₂ : List Char) :
    composeSources s i [src₁, src₂] =
      match s.lookup src₁ with
      | none => .error .noSuchKey
      | some u => if u.length < absMinPartSize then .error (.partTooSmall i u.length)
        else match s.lookup src₂ with
          | none => .error .noSuchKey
          | some v => .ok (u ++ v) := by
  rcases h₁ : s.lookup src₁ with _ | u <;> rcases h₂ : s.lookup src₂ with _ | v <;>
    simp [composeSources, h₁, h₂]

lemma getObject_apply (objectName : List Char) : getObject objectName b =
    match S3Utils.checkValidObjectName objectName with
    | .error e => .error e b
    | .ok () => .ok { key := objectName } b := by
  rcases hc : S3Utils.checkValidObjectName objectName with e | ⟨⟩ <;>
    simp [getObject, checkValidObjectName_apply, hc]

/-! ### Which keys each call can change -/

lemma removeObject_agreeOff (objectName : List Char) :
    Preserves (Store.AgreeOff (· = objectName)) (removeObject objectName) := fun b => by
  rw [removeObject_apply]
  split
  · rfl
  · split_ifs
    · rfl
    · exact .erase (by rfl)

lemma not_mem_of_removeObject_ok {objectName : List Char} {b' : Bucket}
    (h : removeObject objectName b = .ok () b') : objectName ∉ b'.store := by
  rw [removeObject_apply] at h
  split at h
  · cases h
  split_ifs at h
  cases h
  exact fun hm => by simpa using AList.mem_erase.1 hm

lemma putObject_agreeOff (objectName : List Char) (data : List UInt8) :
    Preserves (Store.AgreeOff (· = objectName)) (putObject objectName data) := fun b => by
  rw [putObject_apply]
  split
  · rfl
  · split_ifs
    · rfl
    · exact .insert (by rfl) data

lemma copyObject_agreeOff (dst src : List Char) :
    Preserves (Store.AgreeOff (· = dst)) (copyObject dst src) := fun b => by
  rw [copyObject_apply]
  split_ifs
  · rfl
  · cases b.store.lookup src <;> rfl
  · rcases b.store.lookup src with _ | v
    · rfl
    · exact .insert (by rfl) v

lemma composeObject_agreeOff (dst : List Char) (srcs : List (List Char)) :
    Preserves (Store.AgreeOff (· = dst)) (composeObject dst srcs) := fun b => by
  rw [composeObject_apply]
  split_ifs
  · rfl
  · rcases composeSources b.store 0 srcs with e | data
    · rfl
    · exact .insert (by rfl) data

/-- `StatObject` changes nothing. -/
lemma statObject_preserves {R : Store → Store → Prop} [IsRefl Store R] (objectName : List Char) :
    Preserves R (statObject objectName) := fun b => by
  rw [statObject_apply]
  split
  · exact refl_of R _
  · split_ifs
    · exact refl_of R _
    · cases b.store.lookup objectName <;> exact refl_of R _

/-! ### What each call reads -/

lemma removeObject_local (objectName : List Char) : LocalTo keys (removeObject objectName) :=
  fun σ₁ σ₂ h => by
    simp only [removeObject_apply, Bucket.not_drops_nil, if_false, List.tail_nil]
    split
    · exact ⟨rfl, rfl, rfl, h⟩
    · exact ⟨rfl, rfl, rfl, h.erase _⟩

lemma putObject_local (objectName : List Char) (data : List UInt8) :
    LocalTo keys (putObject objectName data) := fun σ₁ σ₂ h => by
  simp only [putObject_apply, Bucket.not_drops_nil, if_false, List.tail_nil]
  split
  · exact ⟨rfl, rfl, rfl, h⟩
  · exact ⟨rfl, rfl, rfl, h.insert _ data⟩

lemma newDestinationInfo_local (object : List Char) : LocalTo keys (newDestinationInfo object) :=
  fun σ₁ σ₂ h => by
    simp only [newDestinationInfo_apply]
    split <;> exact ⟨rfl, rfl, rfl, h⟩

/-- `StatObject` reads only the key it names. -/
lemma statObject_local {objectName : List Char} (hk : keys objectName) :
    LocalTo keys (statObject objectName) := fun σ₁ σ₂ h => by
  simp only [statObject_apply, Bucket.not_drops_nil, if_false, List.tail_nil, h objectName hk]
  split
  · exact ⟨rfl, rfl, rfl, h⟩
  · cases σ₂.lookup objectName <;> exact ⟨rfl, rfl, rfl, h⟩

/-- `ListObjects` reads only the keys under its prefix. -/
lemma listObjects_local {objectPrefix : List Char} (hk : ∀ k, objectPrefix <+: k → keys k)
    (recursive : Bool) : LocalTo keys (listObjects objectPrefix recursive) := fun σ₁ σ₂ h => by
  simp only [listObjects_reliable, Store.listObjects_congr fun k hp => h k (hk k hp)]
  exact ⟨rfl, rfl, rfl, h⟩

/-- `CopyObject` reads only its source. -/
lemma copyObject_local (dst : List Char) {src : List Char} (hk : keys src) :
    LocalTo keys (copyObject dst src) := fun σ₁ σ₂ h => by
  simp only [copyObject_apply, Bucket.not_drops_nil, if_false, List.tail_nil, h src hk]
  rcases σ₂.lookup src with _ | v
  · exact ⟨rfl, rfl, rfl, h⟩
  · dsimp only
    split_ifs
    · exact ⟨rfl, rfl, rfl, h⟩
    · exact ⟨rfl, rfl, rfl, h.insert dst v⟩

lemma composeSources_congr {σ₁ σ₂ : Store} :
    ∀ (srcs : List (List Char)) (i : Nat), (∀ s ∈ srcs, σ₁.lookup s = σ₂.lookup s) →
      composeSources σ₁ i srcs = composeSources σ₂ i srcs
  | [], _, _ => rfl
  | src :: srcs, i, h => by
    simp only [composeSources, h src (List.mem_cons_self _ _),
      composeSources_congr srcs (i + 1) fun s hs => h s (List.mem_cons_of_mem _ hs)]

/-- `ComposeObject` reads only its sources. -/
lemma composeObject_local (dst : List Char) {srcs : List (List Char)} (hk : ∀ s ∈ srcs, keys s) :
    LocalTo keys (composeObject dst srcs) := fun σ₁ σ₂ h => by
  simp only [composeObject_apply, Bucket.not_drops_nil, if_false, List.tail_nil,
    composeSources_congr srcs 0 fun s hs => h s (hk s hs)]
  rcases composeSources σ₂ 0 srcs with e | data
  · exact ⟨rfl, rfl, rfl, h⟩
  · exact ⟨rfl, rfl, rfl, h.insert dst data⟩

/-- `Seek` on a handle that has made no request yet: it stats the object first. -/
lemma Object.seek_apply (objectName : List Char) (offset : Int) :
    Object.seek { key := objectName } offset b =
      if offset < 0 then .error .negativePosition b
      else if b.drops then .error .network ⟨b.store, b.faults.tail⟩
      else match b.store.lookup objectName with
        | none => .error .noSuchKey ⟨b.store, b.faults.tail⟩
        | some v =>
          if (v.length : Int) < offset then .error .eof ⟨b.store, b.faults.tail⟩
          else .ok ⟨objectName, some ({ key := objectName, size := v.length }, v), offset.toNat⟩
            ⟨b.store, b.faults.tail⟩ := by
  by_cases hn : offset < 0 <;> by_cases hd : b.drops <;> cases h : b.store.lookup objectName <;>
    simp [Object.seek, Object.fetch, request_apply, hn, hd, h]
  split_ifs <;> rfl

/-- `Stat` on a handle that has made its request answers from what it learnt. -/
@[simp] lemma Object.stat_fetched (objectName : List Char) (info : ObjectInfo) (v : List UInt8)
    (currOffset : Nat) : Object.stat ⟨objectName, some (info, v), currOffset⟩ b =
      .ok (info, ⟨objectName, some (info, v), currOffset⟩) b :=
  rfl

/-- `Stat` on a handle that has made no request yet: its one request fetches the object. -/
lemma Object.stat_apply (objectName : List Char) : Object.stat { key := objectName } b =
    if b.drops then .error .network ⟨b.store, b.faults.tail⟩
    else match b.store.lookup objectName with
      | none => .error .noSuchKey ⟨b.store, b.faults.tail⟩
      | some v => .ok ({ key := objectName, size := v.length },
          ⟨objectName, some ({ key := objectName, size := v.length }, v), 0⟩)
          ⟨b.store, b.faults.tail⟩ := by
  by_cases hd : b.drops <;> cases h : b.store.lookup objectName <;>
    simp [Object.stat, Object.fetch, request_apply, hd, h]

end Client

end Netftp
