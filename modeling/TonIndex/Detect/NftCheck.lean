import TonIndex.Detect.NftSystem

set_option autoImplicit false

namespace TonIndex

theorem itemCollectionReply_verify_error {ext : Ext} {data : NFTItemData} {address : StdAddress}
    {contentRes verifyRes : GetterResult} {coll : NFTCollectionData} {a : StdAddress} {e : Status}
    (hp : StdAddress.parse coll.address = .ok a)
    (hv : verifyBelongingToCollection (data.withContent ext contentRes) verifyRes = .error e) :
    itemCollectionReply ext data address contentRes verifyRes (.ok coll) =
      .cachedAfterError (e.withPrefix ("Failed to verify belonging to collection for " ++ address.toRaw))
        (data.withContent ext contentRes) := by
  simp [itemCollectionReply, hp, hv]

/-- A failed collection check still caches and upserts the item: the promise
gets the error first, and `add_to_cache` runs after it. -/
theorem NftSystem.onCollection_unverified {ext : Ext} {s : NftSystem} {data : NFTItemData}
    {r : Request} {contentRes verifyRes : GetterResult} {coll : NFTCollectionData} {a : StdAddress}
    {e : Status} (hp : StdAddress.parse coll.address = .ok a)
    (hv : verifyBelongingToCollection (data.withContent ext contentRes) verifyRes = .error e)
    (fresh : s.item.cache r.address.toRaw = none) :
    let s' := s.onCollection ext data r contentRes verifyRes (.ok coll)
    s'.item.cache r.address.toRaw = some (data.withContent ext contentRes) ∧
      .upsertItem (data.withContent ext contentRes) ∈ s'.inbox := by
  simp [onCollection, itemCollectionReply_verify_error hp hv, addItem, setItem, StdMap.emplace, fresh]

def sampleCollectionAddress : StdAddress := ⟨0, Bits256.ofByte 8⟩
def sampleItemAddress : StdAddress := ⟨0, Bits256.ofByte 9⟩
def foreignItemAddress : StdAddress := ⟨0, Bits256.ofByte 10⟩
def sampleItemCode : Cell := ⟨Bits256.ofByte 11⟩
def sampleItemData : Cell := ⟨Bits256.ofByte 12⟩
def sampleIndContent : Cell := ⟨Bits256.ofByte 13⟩

def sampleCollection : NFTCollectionData :=
  ⟨sampleCollectionAddress.toRaw, 1, sampleOwnerAddress.toRaw, [], 50, Bits256.zero, Bits256.zero,
    ⟨Bits256.zero⟩, ⟨Bits256.zero⟩⟩

def NftSystem.sampleStart : NftSystem :=
  NftSystem.init StdMap.empty (StdMap.empty.assign sampleCollection.address sampleCollection)

def NftSystem.sampleRun (as : List NftAction) : NftSystem :=
  (NftSystem.sampleStart.runActions .plain as).getD NftSystem.sampleStart

theorem sampleRun_reachable (as : List NftAction)
    (h : (NftSystem.sampleStart.runActions .plain as).isSome = true) :
    NftReachable .plain (NftSystem.sampleRun as) := by
  obtain ⟨s, hs⟩ := Option.isSome_iff_exists.1 h
  have e : NftSystem.sampleRun as = s := by simp [NftSystem.sampleRun, hs]
  exact e ▸ NftReachable.runActions (.init _ _) hs

def firstItemCall : Request := ⟨1, sampleItemAddress, sampleItemCode, sampleItemData, 100⟩
def secondItemCall : Request := ⟨2, sampleItemAddress, sampleItemCode, sampleItemData, 200⟩

def sampleItemResult : GetterResult :=
  ⟨true, [.int 1, .int 0, .slice (.addrStd sampleCollectionAddress), .slice (.addrStd sampleOwnerAddress),
    .cell sampleIndContent]⟩

def sampleContentResult : GetterResult := ⟨true, [.cell ⟨Bits256.ofByte 14⟩]⟩

def foreignIndexResult : GetterResult := ⟨true, [.slice (.addrStd foreignItemAddress)]⟩

def unverifiedItem : NFTItemData :=
  ⟨sampleItemAddress.toRaw, true, 0, sampleCollectionAddress.toRaw, sampleOwnerAddress.toRaw, [], 100,
    sampleItemCode.hash, sampleItemData.hash⟩

def itemCallToImpl (r : Request) : List NftAction :=
  [.callItem r, .itemFront .detect r false, .itemFront .checkInterface r false,
   .itemFront .detectContinue r false]

def unverifiedItemRun : List NftAction :=
  itemCallToImpl firstItemCall ++
    [.itemFront .getEntity firstItemCall false, .itemImpl firstItemCall sampleItemResult,
     .getFromCache unverifiedItem firstItemCall sampleIndContent sampleCollectionAddress
       sampleContentResult foreignIndexResult,
     .collectionEntity unverifiedItem firstItemCall sampleIndContent sampleCollectionAddress false
       sampleContentResult foreignIndexResult] ++
    itemCallToImpl secondItemCall

def unverifiedItemState : NftSystem := NftSystem.sampleRun unverifiedItemRun

/-- The collection disowns the item, yet the item is cached and upserted, and
the second call completes with it from the cache. -/
theorem item_cached_after_failed_collection_check :
    NftReachable .plain unverifiedItemState ∧
      verifyBelongingToCollection unverifiedItem foreignIndexResult =
        .error ⟨.smcInterfaceParseError, "NFT Item doesn't belong to the referred collection"⟩ ∧
      unverifiedItemState.item.promises firstItemCall.rid = some (.error
        ((⟨.smcInterfaceParseError, "NFT Item doesn't belong to the referred collection"⟩ : Status).withPrefix
          ("Failed to verify belonging to collection for " ++ sampleItemAddress.toRaw))) ∧
      unverifiedItemState.item.cache sampleItemAddress.toRaw = some unverifiedItem ∧
      .upsertItem unverifiedItem ∈ unverifiedItemState.inbox ∧
      unverifiedItemState.item.promises secondItemCall.rid = some (.ok unverifiedItem) :=
  ⟨sampleRun_reachable _ (by decide), rfl, rfl, rfl, by decide, rfl⟩

namespace NftSystem

def ItemAt (s : NftSystem) (d : NFTItemData) : Prop :=
  (∃ k, s.item.cache k = some d) ∨ (∃ k, s.itemDb k = some d) ∨
    (∃ rid, s.item.promises rid = some (.ok d)) ∨ .upsertItem d ∈ s.inbox

def Lookup (inbox : List NftMsg) (data : NFTItemData) (c : StdAddress) : Prop :=
  ∃ r ind, .getFromCache data r ind c ∈ inbox ∨ .getCollectionEntity data r ind c ∈ inbox

end NftSystem

def Indexed (cache : StdMap String NFTCollectionData) (d : NFTItemData) : Prop :=
  d.collectionAddress = "addr_none" ∨
    ∃ c coll, StdAddress.parse d.collectionAddress = .ok c ∧ cache c.toRaw = some coll

/-- What every reachable state keeps: each item kept is indexed, and each
lookup in flight asks for the collection its item's address parses to. -/
structure ItemsIndexed (s : NftSystem) : Prop where
  items : ∀ d, s.ItemAt d → Indexed s.collection.cache d
  lookups : ∀ data c, NftSystem.Lookup s.inbox data c → StdAddress.parse data.collectionAddress = .ok c

def NftMsg.itemSide : NftMsg → Bool
  | .upsertItem _ | .getFromCache .. | .getCollectionEntity .. => true
  | _ => false

def NftMsg.isLookup : NftMsg → Bool
  | .getFromCache .. | .getCollectionEntity .. => true
  | _ => false

@[simp] theorem NFTItemData.withContent_collectionAddress (ext : Ext) (data : NFTItemData)
    (res : GetterResult) : (data.withContent ext res).collectionAddress = data.collectionAddress := by
  unfold NFTItemData.withContent; split <;> rfl

theorem itemCollectionReply_kept {ext : Ext} {data : NFTItemData} {address : StdAddress}
    {contentRes verifyRes : GetterResult} {res : Except Status NFTCollectionData} {d : NFTItemData}
    (h : itemCollectionReply ext data address contentRes verifyRes res = .accept d ∨
      ∃ e, itemCollectionReply ext data address contentRes verifyRes res = .cachedAfterError e d) :
    (∃ coll, res = .ok coll) ∧ d = data.withContent ext contentRes := by
  cases res with
  | error e => simp only [itemCollectionReply] at h; split at h <;> simp at h
  | ok coll =>
    refine ⟨⟨coll, rfl⟩, ?_⟩
    simp only [itemCollectionReply] at h
    split at h
    · simp at h
    · split at h <;> simp_all

section Items

variable {s s' : NftSystem}

theorem Indexed.mono {c c' : StdMap String NFTCollectionData} {d : NFTItemData} (h : Indexed c d)
    (hc : ∀ k x, c k = some x → c' k = some x) : Indexed c' d :=
  h.imp_right fun ⟨a, coll, hp, hs⟩ => ⟨a, coll, hp, hc _ _ hs⟩

theorem ItemsIndexed.of (hi : ItemsIndexed s)
    (hc : ∀ k x, s.collection.cache k = some x → s'.collection.cache k = some x)
    (hitems : ∀ d, s'.ItemAt d → s.ItemAt d ∨ Indexed s'.collection.cache d)
    (hl : ∀ data c, NftSystem.Lookup s'.inbox data c →
      NftSystem.Lookup s.inbox data c ∨ StdAddress.parse data.collectionAddress = .ok c) :
    ItemsIndexed s' where
  items d h := (hitems d h).elim (fun h => (hi.items d h).mono hc) id
  lookups data c h := (hl data c h).elim (hi.lookups data c) id

theorem NftSystem.lookup_of_inbox {inbox inbox' : List NftMsg} {data : NFTItemData} {c : StdAddress}
    (hin : ∀ m ∈ inbox', m ∈ inbox ∨ m.isLookup = false) (h : Lookup inbox' data c) :
    Lookup inbox data c :=
  let ⟨r, ind, h⟩ := h
  ⟨r, ind, h.imp (fun h => (hin _ h).resolve_right nofun) fun h => (hin _ h).resolve_right nofun⟩

theorem ItemsIndexed.congr (hi : ItemsIndexed s) (hitem : s'.item = s.item) (hdb : s'.itemDb = s.itemDb)
    (hc : ∀ k x, s.collection.cache k = some x → s'.collection.cache k = some x)
    (hin : ∀ m ∈ s'.inbox, m.itemSide → m ∈ s.inbox) : ItemsIndexed s' :=
  hi.of hc
    (fun d h => .inl <| by
      rcases h with ⟨k, h⟩ | ⟨k, h⟩ | ⟨rid, h⟩ | h
      · exact .inl ⟨k, hitem ▸ h⟩
      · exact .inr (.inl ⟨k, hdb ▸ h⟩)
      · exact .inr (.inr (.inl ⟨rid, hitem ▸ h⟩))
      · exact .inr (.inr (.inr (hin _ h rfl))))
    fun _ _ ⟨r, ind, h⟩ => .inl ⟨r, ind, h.imp (hin _ · rfl) (hin _ · rfl)⟩

theorem NftSystem.setItem_itemAt {rid : Nat} {v : Except Status NFTItemData} {d : NFTItemData}
    (h : (s.setItem rid v).ItemAt d) : s.ItemAt d ∨ v = .ok d := by
  rcases h with h | h | ⟨rid', h⟩ | h
  · exact .inl (.inl h)
  · exact .inl (.inr (.inl h))
  · rcases Promises.set_eq_some h with h | ⟨-, h⟩
    · exact .inl (.inr (.inr (.inl ⟨rid', h⟩)))
    · exact .inr h.symm
  · exact .inl (.inr (.inr (.inr h)))

theorem NftSystem.addItem_itemAt {a : StdAddress} {x d : NFTItemData} (h : (s.addItem a x).ItemAt d) :
    s.ItemAt d ∨ d = x := by
  rcases h with ⟨k, h⟩ | h | h | h
  · rcases StdMap.emplace_eq_some h with h | ⟨-, -, rfl⟩
    · exact .inl (.inl ⟨k, h⟩)
    · exact .inr rfl
  · exact .inl (.inr (.inl h))
  · exact .inl (.inr (.inr (.inl h)))
  · rcases List.mem_append.1 h with h | h
    · exact .inl (.inr (.inr (.inr h)))
    · simp only [List.mem_singleton, NftMsg.upsertItem.injEq] at h; exact .inr h

theorem NftSystem.onCollection_itemAt {ext : Ext} {data : NFTItemData} {r : Request}
    {contentRes verifyRes : GetterResult} {res : Except Status NFTCollectionData} {d : NFTItemData}
    (h : (s.onCollection ext data r contentRes verifyRes res).ItemAt d) :
    s.ItemAt d ∨ (∃ coll, res = .ok coll) ∧ d = data.withContent ext contentRes := by
  unfold onCollection at h
  split at h
  · exact .inl ((setItem_itemAt h).resolve_right (by simp))
  · rename_i hr
    rcases setItem_itemAt h with h | h
    · exact (addItem_itemAt h).imp_right fun e => by subst e; exact itemCollectionReply_kept (.inl hr)
    · cases h; exact .inr (itemCollectionReply_kept (.inl hr))
  · rename_i hr
    rcases setItem_itemAt h with h | h
    · refine (addItem_itemAt h).imp (fun h => (setItem_itemAt h).resolve_right (by simp)) fun e => ?_
      subst e; exact itemCollectionReply_kept (.inr ⟨_, hr⟩)
    · cases h; exact .inr (itemCollectionReply_kept (.inr ⟨_, hr⟩))
  · exact .inl h

theorem NftSystem.onCollection_inbox {ext : Ext} {data : NFTItemData} {r : Request}
    {contentRes verifyRes : GetterResult} {res : Except Status NFTCollectionData} {m : NftMsg}
    (h : m ∈ (s.onCollection ext data r contentRes verifyRes res).inbox) :
    m ∈ s.inbox ∨ ∃ x, m = .upsertItem x := by
  unfold onCollection at h
  split at h
  all_goals first
    | exact .inl h
    | exact (List.mem_append.1 h).imp_right fun h => ⟨_, by simpa using h⟩

@[simp] theorem NftSystem.onCollection_collection (ext : Ext) (data : NFTItemData) (r : Request)
    (contentRes verifyRes : GetterResult) (res : Except Status NFTCollectionData) :
    (s.onCollection ext data r contentRes verifyRes res).collection = s.collection := by
  unfold onCollection; split <;> rfl

theorem NftSystem.itemAt_push {m : NftMsg} {d : NFTItemData}
    (h : ({s with inbox := s.inbox ++ [m]} : NftSystem).ItemAt d) (hm : m.isLookup) : s.ItemAt d := by
  rcases h with h | h | h | h
  · exact .inl h
  · exact .inr (.inl h)
  · exact .inr (.inr (.inl h))
  · exact .inr (.inr (.inr ((List.mem_append.1 h).resolve_right fun h => by
      rw [← List.mem_singleton.1 h] at hm; cases hm)))

theorem NftSystem.lookup_push {inbox : List NftMsg} {m : NftMsg} {data : NFTItemData} {c : StdAddress}
    (h : Lookup (inbox ++ [m]) data c) :
    Lookup inbox data c ∨ ∃ r ind, m = .getFromCache data r ind c ∨ m = .getCollectionEntity data r ind c := by
  obtain ⟨r, ind, h | h⟩ := h <;> rcases List.mem_append.1 h with h | h
  · exact .inl ⟨r, ind, .inl h⟩
  · exact .inr ⟨r, ind, .inl (List.mem_singleton.1 h).symm⟩
  · exact .inl ⟨r, ind, .inr h⟩
  · exact .inr ⟨r, ind, .inr (List.mem_singleton.1 h).symm⟩

theorem NftMsg.mem_of_mem_push {l : List NftMsg} {x m : NftMsg} (h : m ∈ l ++ [x])
    (hx : x.itemSide = false) (hm : m.itemSide) : m ∈ l :=
  (List.mem_append.1 h).resolve_right fun h => by rw [List.mem_singleton.1 h, hx] at hm; cases hm

theorem ItemsIndexed.receive (hi : ItemsIndexed s) (m : NftMsg) : ItemsIndexed (s.receive m) :=
  hi.congr rfl rfl (fun _ _ h => h) fun _ h _ => List.mem_of_mem_erase h

theorem ItemsIndexed.setItem_error (hi : ItemsIndexed s) (rid : Nat) (e : Status) :
    ItemsIndexed (s.setItem rid (.error e)) :=
  hi.of (fun _ _ h => h) (fun _ h => .inl ((NftSystem.setItem_itemAt h).resolve_right (by simp)))
    fun _ _ h => .inl h

theorem ItemsIndexed.itemImplEnd (hi : ItemsIndexed s) (ext : Ext) (r : Request)
    (e : ImplEnd (NFTItemData × Cell)) : ItemsIndexed (s.itemImplEnd ext r e) := by
  cases e with
  | fail e => exact hi.setItem_error _ _
  | crash e => exact (hi.setItem_error r.rid e).congr rfl rfl (fun _ _ h => h) fun _ h _ => h
  | done p =>
    obtain ⟨data, ind⟩ := p
    simp only [NftSystem.itemImplEnd]
    split
    · rename_i hnone
      refine hi.of (fun _ _ h => h) (fun d h => ?_) fun _ _ h => .inl (NftSystem.lookup_of_inbox
        (fun m hm => (List.mem_append.1 hm).imp_right fun hm => by rw [List.mem_singleton.1 hm]; rfl) h)
      rcases NftSystem.setItem_itemAt h with h | h
      · exact (NftSystem.addItem_itemAt h).imp_right fun e => by subst e; exact .inl hnone
      · cases h; exact .inr (.inl hnone)
    · split
      · exact hi.setItem_error _ _
      · rename_i c hp
        refine hi.of (fun _ _ h => h) (fun d h => .inl (NftSystem.itemAt_push h rfl)) fun _ _ h =>
          (NftSystem.lookup_push h).imp_right ?_
        rintro ⟨_, _, h | h⟩
        · obtain ⟨rfl, -, -, rfl⟩ := NftMsg.getFromCache.inj h; exact hp
        · cases h

theorem ItemsIndexed.onCollection (hi : ItemsIndexed s) {ext : Ext} {data : NFTItemData} {r : Request}
    {contentRes verifyRes : GetterResult} {res : Except Status NFTCollectionData} {c : StdAddress}
    (hp : StdAddress.parse data.collectionAddress = .ok c)
    (hc : ∀ coll, res = .ok coll → ∃ x, s.collection.cache c.toRaw = some x) :
    ItemsIndexed (s.onCollection ext data r contentRes verifyRes res) := by
  refine hi.of (fun _ _ h => by simpa using h) (fun d h => ?_) fun _ _ h =>
    .inl (NftSystem.lookup_of_inbox (fun _ hm => (NftSystem.onCollection_inbox hm).imp_right
      fun ⟨_, e⟩ => by rw [e]; rfl) h)
  rcases NftSystem.onCollection_itemAt h with h | ⟨⟨coll, rfl⟩, rfl⟩
  · exact .inl h
  · obtain ⟨x, hx⟩ := hc coll rfl
    exact .inr (.inr ⟨c, x, by simpa using hp, by simpa using hx⟩)

theorem ItemsIndexed.collectionImplEnd (hi : ItemsIndexed s) (r : Request) (e : ImplEnd NFTCollectionData) :
    ItemsIndexed (s.collectionImplEnd r e) := by
  cases e with
  | fail e | crash e => exact hi.congr rfl rfl (fun _ _ h => h) fun _ h _ => h
  | done c => exact hi.congr rfl rfl (fun _ _ h => StdMap.emplace_of_some h) fun _ h => NftMsg.mem_of_mem_push h rfl

theorem ItemsIndexed.step {ext : Ext} (hi : ItemsIndexed s) (h : NftStep ext s s') : ItemsIndexed s' := by
  cases h with
  | callCollection r _ | callItem r _ =>
    exact hi.congr rfl rfl (fun _ _ h => h) fun _ h => NftMsg.mem_of_mem_push h rfl
  | setInterface | writeCollectionDb => exact hi.congr rfl rfl (fun _ _ h => h) fun _ h _ => h
  | upsertCollection => exact hi.congr rfl rfl (fun _ _ h => h) fun _ h _ => List.mem_of_mem_erase h
  | collectionFront st r fails _ _ _ =>
    exact (hi.receive _).congr rfl rfl (fun _ _ h => frontStep_cache_keep h) fun m h hm => by
      rcases List.mem_append.1 h with h | h
      · exact h
      · obtain ⟨_, -, rfl⟩ := List.mem_map.1 h; cases hm
  | itemFront st r fails _ _ _ =>
    refine (hi.receive _).of (fun _ _ h => h) (fun d h => .inl ?_) fun _ _ h =>
      .inl (NftSystem.lookup_of_inbox (fun m hm => (List.mem_append.1 hm).imp_right fun hm => ?_) h)
    · rcases h with ⟨k, h⟩ | h | ⟨rid, h⟩ | h
      · rcases frontStep_cache h with h | h
        exacts [.inl ⟨k, h⟩, .inr (.inl ⟨_, h⟩)]
      · exact .inr (.inl h)
      · rcases frontStep_promises h with h | ⟨k, h⟩ | ⟨k, h⟩
        exacts [.inr (.inr (.inl ⟨rid, h⟩)), .inl ⟨k, h⟩, .inr (.inl ⟨k, h⟩)]
      · rcases List.mem_append.1 h with h | h
        · exact .inr (.inr (.inr h))
        · obtain ⟨_, -, h⟩ := List.mem_map.1 h; cases h
    · obtain ⟨_, -, rfl⟩ := List.mem_map.1 hm; rfl
  | collectionImpl r res u _ _ => exact (hi.receive _).collectionImplEnd r _
  | itemImpl r res _ _ => exact (hi.receive _).itemImplEnd ext r _
  | collectionCached data r ind c coll contentRes verifyRes _ pending hit =>
    exact (hi.receive _).onCollection (hi.lookups data c ⟨r, ind, .inl pending⟩) fun _ _ => ⟨coll, hit⟩
  | collectionMiss data r ind c _ pending _ =>
    refine (hi.receive (.getFromCache data r ind c)).of (fun _ _ h => h)
      (fun d h => .inl (NftSystem.itemAt_push h rfl)) fun _ _ h => (NftSystem.lookup_push h).imp_right ?_
    rintro ⟨_, _, h | h⟩
    · cases h
    · obtain ⟨rfl, -, -, rfl⟩ := NftMsg.getCollectionEntity.inj h
      exact hi.lookups _ _ ⟨r, ind, .inl pending⟩
  | collectionEntity data r ind c fails contentRes verifyRes _ pending =>
    have hp := hi.lookups data c ⟨r, ind, .inr pending⟩
    have hr := hi.receive (.getCollectionEntity data r ind c)
    unfold NftSystem.collectionEntity
    split
    · refine ItemsIndexed.onCollection ?_ hp fun _ _ => by simp [StdMap.emplace]
      exact hr.congr rfl rfl (fun _ _ h => StdMap.emplace_of_some h) fun _ h _ => h
    · exact hr.onCollection hp fun _ h => nomatch h
  | upsertItem i _ pending =>
    refine hi.of (fun _ _ h => h) (fun d h => .inl ?_) fun _ _ h =>
      .inl (NftSystem.lookup_of_inbox (fun _ hm => .inl (List.mem_of_mem_erase hm)) h)
    rcases h with h | ⟨k, h⟩ | h | h
    · exact .inl h
    · by_cases hk : k = i.address
      · subst hk
        simp only [StdMap.assign_self, Option.some.injEq] at h
        exact h ▸ .inr (.inr (.inr pending))
      · exact .inr (.inl ⟨k, by simpa [hk] using h⟩)
    · exact .inr (.inr (.inl h))
    · exact .inr (.inr (.inr (List.mem_of_mem_erase h)))

end Items

/-- The invariant holds along every run from a state that has it. -/
theorem ItemsIndexed.run {ext : Ext} {s s' : NftSystem} (hi : ItemsIndexed s)
    (h : Relation.ReflTransGen (NftStep ext) s s') : ItemsIndexed s' := by
  induction h with
  | refl => exact hi
  | tail _ hs ih => exact ih.step hs

theorem itemsIndexed_init (verdicts : Verdicts) (collectionDb : StdMap String NFTCollectionData) :
    ItemsIndexed (NftSystem.init verdicts collectionDb) := by
  refine ⟨fun d h => ?_, fun _ _ ⟨_, _, h⟩ => by simp [NftSystem.init] at h⟩
  rcases h with ⟨_, h⟩ | ⟨_, h⟩ | ⟨_, h⟩ | h <;> simp [NftSystem.init, DetectorState.empty] at h

theorem NftReachable.exists_init {ext : Ext} {s : NftSystem} (h : NftReachable ext s) :
    ∃ verdicts collectionDb, Relation.ReflTransGen (NftStep ext) (NftSystem.init verdicts collectionDb) s := by
  induction h with
  | init verdicts collectionDb => exact ⟨verdicts, collectionDb, .refl⟩
  | step _ hs ih =>
    obtain ⟨verdicts, collectionDb, hr⟩ := ih
    exact ⟨verdicts, collectionDb, hr.tail hs⟩

theorem NftReachable.itemsIndexed {ext : Ext} {s : NftSystem} (h : NftReachable ext s) : ItemsIndexed s :=
  let ⟨verdicts, collectionDb, hr⟩ := h.exists_init
  (itemsIndexed_init verdicts collectionDb).run hr

/-- In every run of the NFT detectors, an item is cached, stored, upserted or returned
by `detect` only when it has no collection or its collection was found and is in the
collection detector's cache. -/
theorem item_kept_only_with_collection {ext : Ext} {s : NftSystem} (h : NftReachable ext s)
    {d : NFTItemData}
    (hd : (∃ k, s.item.cache k = some d) ∨ (∃ k, s.itemDb k = some d) ∨
      (∃ rid, s.item.promises rid = some (.ok d)) ∨ .upsertItem d ∈ s.inbox) :
    d.collectionAddress = "addr_none" ∨
      ∃ c coll, StdAddress.parse d.collectionAddress = .ok c ∧ s.collection.cache c.toRaw = some coll :=
  h.itemsIndexed.items d hd

theorem unverifiedItem_collection_found :
    NftReachable .plain unverifiedItemState ∧
      unverifiedItemState.item.cache sampleItemAddress.toRaw = some unverifiedItem ∧
      (unverifiedItem.collectionAddress = "addr_none" ∨ ∃ c coll,
        StdAddress.parse unverifiedItem.collectionAddress = .ok c ∧
          unverifiedItemState.collection.cache c.toRaw = some coll) :=
  have hr : NftReachable .plain unverifiedItemState := sampleRun_reachable _ (by decide)
  have hc : unverifiedItemState.item.cache sampleItemAddress.toRaw = some unverifiedItem := rfl
  ⟨hr, hc, item_kept_only_with_collection hr (.inl ⟨_, hc⟩)⟩

end TonIndex
