import TonIndex.Detect.JettonCache

/-!
The NFT collection and NFT item detectors as one system of actors, built as
the jetton system is. The item's `detect_impl` asks the collection detector's
`get_from_cache` for the collection entity; the promise it hands over runs
`get_content` and `verify_belonging_to_collection` on that entity and then
writes the item to the cache whatever the check said (`ItemEnd.cachedAfterError`).
-/

set_option autoImplicit false

namespace TonIndex

inductive NftMsg
  | collection (st : Stage) (r : Request)
  | item (st : Stage) (r : Request)
  | getFromCache (data : NFTItemData) (r : Request) (indContent : Cell) (collection : StdAddress)
  | getCollectionEntity (data : NFTItemData) (r : Request) (indContent : Cell)
      (collection : StdAddress)
  | upsertCollection (c : NFTCollectionData)
  | upsertItem (i : NFTItemData)
  deriving DecidableEq

structure NftSystem where
  verdicts : Verdicts
  collection : DetectorState NFTCollectionData
  item : DetectorState NFTItemData
  collectionDb : StdMap String NFTCollectionData
  itemDb : StdMap String NFTItemData
  inbox : List NftMsg
  halted : Bool

inductive ItemEnd
  | reject (e : Status)
  | accept (data : NFTItemData)
  /-- `promise.set_error(e)` with no `return`, then `add_to_cache(address, data)`
  and a `set_value` the used promise ignores. -/
  | cachedAfterError (e : Status) (data : NFTItemData)
  /-- `StdAddress::parse(collection_data.address).move_as_ok()` of an address that does not parse. -/
  | crash

def NFTItemData.withContent (ext : Ext) (data : NFTItemData) (contentRes : GetterResult) :
    NFTItemData :=
  match NFTItemDetector.getContent ext contentRes with
  | .ok content => {data with content := content}
  | .error _ => data

/-- The promise `NFTItemDetector::detect_impl` hands to `get_from_cache`, given
what `get_nft_content` and `get_nft_address_by_index` return on the collection. -/
def itemCollectionReply (ext : Ext) (data : NFTItemData) (address : StdAddress)
    (contentRes verifyRes : GetterResult) : Except Status NFTCollectionData → ItemEnd
  | .error e =>
      if e.code = .notFoundError then .reject ⟨.smcInterfaceParseError, "Collection was not indexed yet"⟩
      else .reject e
  | .ok coll =>
      match StdAddress.parse coll.address with
      | .error _ => .crash
      | .ok _ =>
          let data := data.withContent ext contentRes
          match verifyBelongingToCollection data verifyRes with
          | .ok () => .accept data
          | .error e =>
              .cachedAfterError (e.withPrefix
                ("Failed to verify belonging to collection for " ++ address.toRaw)) data

namespace NftSystem

def receive (s : NftSystem) (m : NftMsg) : NftSystem := {s with inbox := s.inbox.erase m}

def setCollection (s : NftSystem) (rid : Nat) (v : Except Status NFTCollectionData) : NftSystem :=
  {s with collection := {s.collection with promises := s.collection.promises.set rid v}}

def setItem (s : NftSystem) (rid : Nat) (v : Except Status NFTItemData) : NftSystem :=
  {s with item := {s.item with promises := s.item.promises.set rid v}}

def addItem (s : NftSystem) (address : StdAddress) (data : NFTItemData) : NftSystem :=
  {s with item := {s.item with cache := s.item.cache.emplace address.toRaw data},
          inbox := s.inbox ++ [.upsertItem data]}

def collectionFront (s : NftSystem) (fails : Bool) (r : Request) (st : Stage) : NftSystem :=
  let out := frontStep (NFTCollectionDetector.detect s.verdicts) s.collectionDb fails r s.collection st
  {s with collection := out.1, inbox := s.inbox ++ out.2.map (.collection · r)}

def itemFront (s : NftSystem) (fails : Bool) (r : Request) (st : Stage) : NftSystem :=
  let out := frontStep (NFTItemDetector.detect s.verdicts) s.itemDb fails r s.item st
  {s with item := out.1, inbox := s.inbox ++ out.2.map (.item · r)}

def collectionImplEnd (s : NftSystem) (r : Request) : ImplEnd NFTCollectionData → NftSystem
  | .fail e => s.setCollection r.rid (.error e)
  | .crash e => {s.setCollection r.rid (.error e) with halted := true}
  | .done c =>
      {s with collection := ⟨s.collection.cache.emplace r.address.toRaw c,
                             s.collection.promises.set r.rid (.ok c)⟩,
              inbox := s.inbox ++ [.upsertCollection c]}

def itemImplEnd (ext : Ext) (s : NftSystem) (r : Request) : ImplEnd (NFTItemData × Cell) → NftSystem
  | .fail e => s.setItem r.rid (.error e)
  | .crash e => {s.setItem r.rid (.error e) with halted := true}
  | .done (data, ind) =>
      if data.collectionAddress = "addr_none" then
        let data := {data with content := ext.contentOr ind}
        (s.addItem r.address data).setItem r.rid (.ok data)
      else match StdAddress.parse data.collectionAddress with
        | .error e => s.setItem r.rid (.error e)
        | .ok c => {s with inbox := s.inbox ++ [.getFromCache data r ind c]}

def onCollection (ext : Ext) (s : NftSystem) (data : NFTItemData) (r : Request)
    (contentRes verifyRes : GetterResult) (coll : Except Status NFTCollectionData) : NftSystem :=
  match itemCollectionReply ext data r.address contentRes verifyRes coll with
  | .reject e => s.setItem r.rid (.error e)
  | .accept data => (s.addItem r.address data).setItem r.rid (.ok data)
  | .cachedAfterError e data => ((s.setItem r.rid (.error e)).addItem r.address data).setItem r.rid (.ok data)
  | .crash => {s with halted := true}

def lookupCollection (s : NftSystem) (data : NFTItemData) (r : Request) (ind : Cell)
    (c : StdAddress) : NftSystem :=
  {s with inbox := s.inbox ++ [.getCollectionEntity data r ind c]}

def collectionEntity (ext : Ext) (s : NftSystem) (data : NFTItemData) (r : Request) (c : StdAddress)
    (fails : Bool) (contentRes verifyRes : GetterResult) : NftSystem :=
  match getEntity s.collectionDb fails c.toRaw with
  | .ok coll =>
      ({s with collection := {s.collection with cache := s.collection.cache.emplace c.toRaw coll}}
        ).onCollection ext data r contentRes verifyRes (.ok coll)
  | .error e => s.onCollection ext data r contentRes verifyRes (.error e)

end NftSystem

inductive NftStep (ext : Ext) : NftSystem → NftSystem → Prop
  | callCollection {s : NftSystem} (r : Request) (live : s.halted = false) :
      NftStep ext s {s with inbox := s.inbox ++ [.collection .detect r]}
  | callItem {s : NftSystem} (r : Request) (live : s.halted = false) :
      NftStep ext s {s with inbox := s.inbox ++ [.item .detect r]}
  | setInterface {s : NftSystem} (h : Bits256) (i : SmcInterface) (has : Bool)
      (live : s.halted = false) :
      NftStep ext s {s with verdicts := s.verdicts.assign (h, i) has}
  | writeCollectionDb {s : NftSystem} (k : String) (c : NFTCollectionData) (live : s.halted = false) :
      NftStep ext s {s with collectionDb := s.collectionDb.assign k c}
  | collectionFront {s : NftSystem} (st : Stage) (r : Request) (fails : Bool)
      (live : s.halted = false) (pending : .collection st r ∈ s.inbox) (shared : st ≠ .detectImpl) :
      NftStep ext s ((s.receive (.collection st r)).collectionFront fails r st)
  | itemFront {s : NftSystem} (st : Stage) (r : Request) (fails : Bool)
      (live : s.halted = false) (pending : .item st r ∈ s.inbox) (shared : st ≠ .detectImpl) :
      NftStep ext s ((s.receive (.item st r)).itemFront fails r st)
  | collectionImpl {s : NftSystem} (r : Request) (res : GetterResult) (unsetCodeHash : Bits256)
      (live : s.halted = false) (pending : .collection .detectImpl r ∈ s.inbox) :
      NftStep ext s ((s.receive (.collection .detectImpl r)).collectionImplEnd r
        (NFTCollectionDetector.detectImpl ext unsetCodeHash r res))
  | itemImpl {s : NftSystem} (r : Request) (res : GetterResult)
      (live : s.halted = false) (pending : .item .detectImpl r ∈ s.inbox) :
      NftStep ext s ((s.receive (.item .detectImpl r)).itemImplEnd ext r
        (NFTItemDetector.detectImpl ext r res))
  /-- `get_from_cache` with the collection cached: the promise runs at once,
  with any results of `get_nft_content` and `get_nft_address_by_index`. -/
  | collectionCached {s : NftSystem} (data : NFTItemData) (r : Request) (ind : Cell)
      (c : StdAddress) (coll : NFTCollectionData) (contentRes verifyRes : GetterResult)
      (live : s.halted = false) (pending : .getFromCache data r ind c ∈ s.inbox)
      (hit : s.collection.cache c.toRaw = some coll) :
      NftStep ext s ((s.receive (.getFromCache data r ind c)).onCollection ext data r contentRes
        verifyRes (.ok coll))
  | collectionMiss {s : NftSystem} (data : NFTItemData) (r : Request) (ind : Cell) (c : StdAddress)
      (live : s.halted = false) (pending : .getFromCache data r ind c ∈ s.inbox)
      (miss : s.collection.cache c.toRaw = none) :
      NftStep ext s ((s.receive (.getFromCache data r ind c)).lookupCollection data r ind c)
  | collectionEntity {s : NftSystem} (data : NFTItemData) (r : Request) (ind : Cell) (c : StdAddress)
      (fails : Bool) (contentRes verifyRes : GetterResult) (live : s.halted = false)
      (pending : .getCollectionEntity data r ind c ∈ s.inbox) :
      NftStep ext s ((s.receive (.getCollectionEntity data r ind c)).collectionEntity ext data r c fails
        contentRes verifyRes)
  | upsertCollection {s : NftSystem} (c : NFTCollectionData) (live : s.halted = false)
      (pending : .upsertCollection c ∈ s.inbox) :
      NftStep ext s {s.receive (.upsertCollection c) with
        collectionDb := s.collectionDb.assign c.address c}
  | upsertItem {s : NftSystem} (i : NFTItemData) (live : s.halted = false)
      (pending : .upsertItem i ∈ s.inbox) :
      NftStep ext s {s.receive (.upsertItem i) with itemDb := s.itemDb.assign i.address i}

def NftSystem.init (verdicts : Verdicts) (collectionDb : StdMap String NFTCollectionData) : NftSystem :=
  ⟨verdicts, .empty, .empty, collectionDb, StdMap.empty, [], false⟩

inductive NftReachable (ext : Ext) : NftSystem → Prop
  | init (verdicts : Verdicts) (collectionDb : StdMap String NFTCollectionData) :
      NftReachable ext (NftSystem.init verdicts collectionDb)
  | step {s s' : NftSystem} : NftReachable ext s → NftStep ext s s' → NftReachable ext s'

inductive NftAction
  | callCollection (r : Request)
  | callItem (r : Request)
  | collectionFront (st : Stage) (r : Request) (fails : Bool)
  | itemFront (st : Stage) (r : Request) (fails : Bool)
  | collectionImpl (r : Request) (res : GetterResult) (unsetCodeHash : Bits256)
  | itemImpl (r : Request) (res : GetterResult)
  | getFromCache (data : NFTItemData) (r : Request) (ind : Cell) (c : StdAddress)
      (contentRes verifyRes : GetterResult)
  | collectionEntity (data : NFTItemData) (r : Request) (ind : Cell) (c : StdAddress) (fails : Bool)
      (contentRes verifyRes : GetterResult)

def NftAction.run (ext : Ext) (s : NftSystem) : NftAction → Option NftSystem
  | .callCollection r =>
      if s.halted = false then some {s with inbox := s.inbox ++ [.collection .detect r]} else none
  | .callItem r => if s.halted = false then some {s with inbox := s.inbox ++ [.item .detect r]} else none
  | .collectionFront st r fails =>
      if s.halted = false ∧ .collection st r ∈ s.inbox ∧ st ≠ .detectImpl then
        some ((s.receive (.collection st r)).collectionFront fails r st) else none
  | .itemFront st r fails =>
      if s.halted = false ∧ .item st r ∈ s.inbox ∧ st ≠ .detectImpl then
        some ((s.receive (.item st r)).itemFront fails r st) else none
  | .collectionImpl r res u =>
      if s.halted = false ∧ .collection .detectImpl r ∈ s.inbox then
        some ((s.receive (.collection .detectImpl r)).collectionImplEnd r
          (NFTCollectionDetector.detectImpl ext u r res)) else none
  | .itemImpl r res =>
      if s.halted = false ∧ .item .detectImpl r ∈ s.inbox then
        some ((s.receive (.item .detectImpl r)).itemImplEnd ext r (NFTItemDetector.detectImpl ext r res))
      else none
  | .getFromCache data r ind c contentRes verifyRes =>
      if s.halted = false ∧ .getFromCache data r ind c ∈ s.inbox then
        let s' := s.receive (.getFromCache data r ind c)
        match s.collection.cache c.toRaw with
        | some coll => some (s'.onCollection ext data r contentRes verifyRes (.ok coll))
        | none => some (s'.lookupCollection data r ind c)
      else none
  | .collectionEntity data r ind c fails contentRes verifyRes =>
      if s.halted = false ∧ .getCollectionEntity data r ind c ∈ s.inbox then
        some ((s.receive (.getCollectionEntity data r ind c)).collectionEntity ext data r c fails
          contentRes verifyRes) else none

theorem NftAction.run_step {ext : Ext} {s s' : NftSystem} {a : NftAction}
    (h : a.run ext s = some s') : NftStep ext s s' := by
  cases a with
  | callCollection r => simp only [run] at h; split at h <;> cases h; exact .callCollection r ‹_›
  | callItem r => simp only [run] at h; split at h <;> cases h; exact .callItem r ‹_›
  | collectionFront st r fails =>
    simp only [run] at h; split at h <;> cases h
    obtain ⟨live, pending, shared⟩ := ‹_ ∧ _›
    exact .collectionFront st r fails live pending shared
  | itemFront st r fails =>
    simp only [run] at h; split at h <;> cases h
    obtain ⟨live, pending, shared⟩ := ‹_ ∧ _›
    exact .itemFront st r fails live pending shared
  | collectionImpl r res u =>
    simp only [run] at h; split at h <;> cases h
    exact .collectionImpl r res u ‹_ ∧ _›.1 ‹_ ∧ _›.2
  | itemImpl r res =>
    simp only [run] at h; split at h <;> cases h
    exact .itemImpl r res ‹_ ∧ _›.1 ‹_ ∧ _›.2
  | getFromCache data r ind c contentRes verifyRes =>
    simp only [run] at h; split at h
    · rename_i hg
      split at h <;> cases h
      · exact .collectionCached data r ind c _ contentRes verifyRes hg.1 hg.2 ‹_›
      · exact .collectionMiss data r ind c hg.1 hg.2 ‹_›
    · cases h
  | collectionEntity data r ind c fails contentRes verifyRes =>
    simp only [run] at h; split at h <;> cases h
    exact .collectionEntity data r ind c fails contentRes verifyRes ‹_ ∧ _›.1 ‹_ ∧ _›.2

def NftSystem.runActions (ext : Ext) : NftSystem → List NftAction → Option NftSystem
  | s, [] => some s
  | s, a :: as => (a.run ext s).bind fun s' => s'.runActions ext as

theorem NftReachable.runActions {ext : Ext} {s s' : NftSystem} {as : List NftAction}
    (hs : NftReachable ext s) (h : s.runActions ext as = some s') : NftReachable ext s' := by
  induction as generalizing s with
  | nil => cases h; exact hs
  | cons a as ih =>
    simp only [NftSystem.runActions, Option.bind_eq_some] at h
    obtain ⟨s₁, h₁, h₂⟩ := h
    exact ih (hs.step (NftAction.run_step h₁)) h₂

end TonIndex
