import TonIndex.Detect.Entities

/-!
The part of a `detect` call that the four detectors share: the `InterfaceManager`
verdict, `detect_continue`, and `CacheManager<T>::check_cache` with its fall-back
to the insert manager. Each `Stage` is one handler of one actor; `frontStep` is
what that handler does.
-/

set_option autoImplicit false

namespace TonIndex

inductive SmcInterface
  | itJettonMaster
  | itJettonWallet
  | itNftCollection
  | itNftItem
  deriving DecidableEq, Repr

/-- `InterfaceManager::cache_`: code hash and interface to a verdict. -/
abbrev Verdicts := StdMap (Bits256 × SmcInterface) Bool

def checkInterface (verdicts : Verdicts) (codeHash : Bits256) (i : SmcInterface) :
    Except Status Bool :=
  match verdicts (codeHash, i) with
  | some has => .ok has
  | none => .error ⟨.notFoundError, "Unknown code hash"⟩

inductive Gate
  | proceed
  | refuse (e : Status)
  deriving DecidableEq

/-- The promise of `detect`: an unknown code hash or a positive verdict goes
on to `detect_continue`, a negative verdict or another error fails the call. -/
def detectGate (notMessage : String) : Except Status Bool → Gate
  | .error e => if e.code = .notFoundError then .proceed else .refuse e
  | .ok true => .proceed
  | .ok false => .refuse ⟨.smcInterfaceParseError, notMessage⟩

/-- `InterfaceDetector<T>::detect` as each detector writes it: the verdict it
asks for and the message of its refusal. -/
def InterfaceDetector.detect (i : SmcInterface) (notMessage : String) (verdicts : Verdicts)
    (r : Request) : Gate :=
  detectGate notMessage (checkInterface verdicts r.codeCell.hash i)

def JettonMasterDetector.detect : Verdicts → Request → Gate :=
  InterfaceDetector.detect .itJettonMaster "Code hash is not a Jetton Master"

def JettonWalletDetector.detect : Verdicts → Request → Gate :=
  InterfaceDetector.detect .itJettonWallet "Code hash is not a Jetton Wallet"

def NFTCollectionDetector.detect : Verdicts → Request → Gate :=
  InterfaceDetector.detect .itNftCollection "Code hash is not a NFT Collection"

/-- The item detector asks for the collection verdict, and refuses with the
collection's message. -/
def NFTItemDetector.detect : Verdicts → Request → Gate :=
  InterfaceDetector.detect .itNftCollection "Code hash is not a NFT Collection"

/-- Modelled from the spec: the insert manager is not in the source.
`get_entity<T>(raw_address)` returns the stored entity, `NOT_FOUND` when there
is none, and `DB_ERROR` when the database fails. -/
def getEntity {T : Type} (db : StdMap String T) (fails : Bool) (key : String) : Except Status T :=
  if fails then .error ⟨.dbError, "Database error"⟩
  else match db key with
    | some e => .ok e
    | none => .error ⟨.notFoundError, "Entity not found"⟩

theorem getEntity_ok {T : Type} {db : StdMap String T} {fails : Bool} {key : String} {e : T}
    (h : getEntity db fails key = .ok e) : db key = some e := by
  unfold getEntity at h
  split at h
  · cases h
  · split at h <;> simp_all

/-- `CacheManager<T>::check_cache` as one call: the cached entity, else the
insert manager's answer, which the wrapped promise first emplaces in the cache. -/
def checkCache {T : Type} (cache db : StdMap String T) (fails : Bool) (address : StdAddress) :
    StdMap String T × Except Status T :=
  match cache address.toRaw with
  | some e => (cache, .ok e)
  | none =>
    match getEntity db fails address.toRaw with
    | .ok e => (cache.emplace address.toRaw e, .ok e)
    | .error err => (cache, .error err)

section CheckCache

variable {T : Type} {cache db : StdMap String T} {fails : Bool} {address : StdAddress}

theorem checkCache_ok_iff {e : T} : (checkCache cache db fails address).2 = .ok e ↔
    cache address.toRaw = some e ∨ (cache address.toRaw = none ∧ fails = false ∧ db address.toRaw = some e) := by
  unfold checkCache getEntity
  cases cache address.toRaw <;> cases fails <;> cases db address.toRaw <;> simp [eq_comm]

end CheckCache

structure DetectorState (T : Type) where
  cache : StdMap String T
  promises : Promises T

def DetectorState.empty {T : Type} : DetectorState T := ⟨StdMap.empty, StdMap.empty⟩

inductive Stage
  | detect
  | checkInterface
  | detectContinue
  | getEntity
  | detectImpl
  deriving DecidableEq, Repr

section Front

variable {T : Type} [CachedEntity T]

/-- The test of `detect_continue`: the cached entity answers the call when
the cells hash as it recorded, or when it is newer than the requested lt. -/
def cacheHit (r : Request) (cached : T) : Bool :=
  (r.dataCell.hash == CachedEntity.dataHash cached && r.codeCell.hash == CachedEntity.codeHash cached)
    || decide (r.lastTxLt < CachedEntity.lastTransactionLt cached)

def detectContinueReply (r : Request) (d : DetectorState T) :
    Except Status T → DetectorState T × List Stage
  | .ok cached =>
      if cacheHit r cached then ({d with promises := d.promises.set r.rid (.ok cached)}, [])
      else (d, [.detectImpl])
  | .error _ => (d, [.detectImpl])

/-- One handler of the shared stages. `check_cache` answers from the cache,
or asks the insert manager, whose answer is first written to the cache. -/
def frontStep (gate : Request → Gate) (db : StdMap String T) (fails : Bool) (r : Request)
    (d : DetectorState T) : Stage → DetectorState T × List Stage
  | .detect => (d, [.checkInterface])
  | .checkInterface =>
      match gate r with
      | .proceed => (d, [.detectContinue])
      | .refuse e => ({d with promises := d.promises.set r.rid (.error e)}, [])
  | .detectContinue =>
      match d.cache r.address.toRaw with
      | some cached => detectContinueReply r d (.ok cached)
      | none => (d, [.getEntity])
  | .getEntity =>
      match getEntity db fails r.address.toRaw with
      | .ok e => detectContinueReply r {d with cache := d.cache.emplace r.address.toRaw e} (.ok e)
      | .error err => detectContinueReply r d (.error err)
  | .detectImpl => (d, [.detectImpl])

theorem frontStep_cache {gate : Request → Gate} {db : StdMap String T} {fails : Bool}
    {r : Request} {d : DetectorState T} {st : Stage} {k : String} {x : T}
    (h : (frontStep gate db fails r d st).1.cache k = some x) :
    d.cache k = some x ∨ db k = some x := by
  cases st with
  | detect | detectImpl => exact .inl h
  | checkInterface => cases hg : gate r <;> simp_all [frontStep]
  | detectContinue =>
    cases hc : d.cache r.address.toRaw with
    | none => simp_all [frontStep]
    | some c => simp only [frontStep,hc,detectContinueReply] at h; split at h <;> exact .inl h
  | getEntity =>
    unfold frontStep at h
    cases hg : getEntity db fails r.address.toRaw with
    | error err => simp only [hg,detectContinueReply] at h; exact .inl h
    | ok e =>
      simp only [hg,detectContinueReply] at h
      rcases StdMap.emplace_eq_some (by split at h <;> exact h) with h' | ⟨rfl,-,rfl⟩
      · exact .inl h'
      · exact .inr (getEntity_ok hg)

theorem frontStep_cache_keep {gate : Request → Gate} {db : StdMap String T} {fails : Bool}
    {r : Request} {d : DetectorState T} {st : Stage} {k : String} {x : T}
    (h : d.cache k = some x) : (frontStep gate db fails r d st).1.cache k = some x := by
  cases st with
  | detect | detectImpl => exact h
  | checkInterface => cases hg : gate r <;> simp_all [frontStep]
  | detectContinue =>
    simp only [frontStep]
    split
    · simp only [detectContinueReply]; split <;> exact h
    · exact h
  | getEntity =>
    simp only [frontStep]
    split
    · simp only [detectContinueReply]; split <;> exact StdMap.emplace_of_some h
    · exact h

theorem frontStep_detectContinue_hit {gate : Request → Gate} {db : StdMap String T}
    {fails : Bool} {r : Request} {d : DetectorState T} {e : T}
    (hc : d.cache r.address.toRaw = some e) (hit : cacheHit r e = true) :
    frontStep gate db fails r d .detectContinue = ({d with promises := d.promises.set r.rid (.ok e)}, []) := by
  simp [frontStep,hc,detectContinueReply,hit]

theorem cacheHit_of_recorded {r : Request} {e : T}
    (hd : CachedEntity.dataHash e = r.dataCell.hash) (hc : CachedEntity.codeHash e = r.codeCell.hash) :
    cacheHit r e = true := by
  simp [cacheHit,hd,hc]

/-- The staged front computes `check_cache`: a hit answers at `detectContinue`,
and a miss answers at `getEntity` what one `check_cache` call gives. -/
theorem detectContinueReply_checkCache (gate : Request → Gate) (db : StdMap String T) (fails : Bool)
    (r : Request) (d : DetectorState T) :
    detectContinueReply r {d with cache := (checkCache d.cache db fails r.address).1}
        (checkCache d.cache db fails r.address).2 =
      match d.cache r.address.toRaw with
      | some _ => frontStep gate db fails r d .detectContinue
      | none => frontStep gate db fails r d .getEntity := by
  cases hc : d.cache r.address.toRaw with
  | some e => simp only [checkCache, frontStep, hc]
  | none => simp only [checkCache, frontStep, hc]; split <;> rfl

end Front

end TonIndex
