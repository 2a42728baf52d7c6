import TonIndex.Detect.Pipeline
import Mathlib.Algebra.Group.Int

set_option autoImplicit false

namespace TonIndex

/-- How the stack-reading part of a `detect_impl` ends. `crash` is a
`promise.set_error(e)` with no `return` after it, followed by `move_as_ok()` of
the failed `td::Result`, which aborts the process. -/
inductive ImplEnd (α : Type)
  | fail (e : Status)
  | crash (e : Status)
  | done (a : α)
  deriving DecidableEq

def Ext.contentOr (ext : Ext) (c : Cell) : Content :=
  match ext.parseTokenData c with
  | .ok content => content
  | .error _ => []

/-- `JettonMasterDetector::detect_impl` after `get_jetton_data`. The record's
`code_hash` is never assigned; `unsetCodeHash` is whatever the default member holds. -/
def JettonMasterDetector.detectImpl (ext : Ext) (unsetCodeHash : Bits256) (r : Request)
    (res : GetterResult) : ImplEnd JettonMasterData :=
  let failed : Status := ⟨.smcInterfaceParseError, "get_jetton_data failed"⟩
  if !res.success then .fail failed
  else match res.stack with
    | [.int totalSupply, .int mintable, .slice admin, .cell content, .cell walletCode] =>
        match admin.toRawAddress with
        | .error _ => .crash ⟨.smcInterfaceParseError, "get_jetton_data address parsing failed"⟩
        | .ok adminAddress => .done
            { address := r.address.toRaw
              totalSupply := ext.toLong totalSupply
              mintable := ext.toLong mintable != 0
              adminAddress := adminAddress
              jettonContent := ext.contentOr content
              jettonWalletCodeHash := walletCode.hash
              lastTransactionLt := r.lastTxLt
              codeHash := unsetCodeHash
              dataHash := r.dataCell.hash
              codeBoc := r.codeCell
              dataBoc := r.dataCell }
    | _ => .fail failed

/-- `JettonWalletDetector::detect_impl` after `get_wallet_data`, up to
`verify_belonging_to_master`. -/
def JettonWalletDetector.detectImpl (ext : Ext) (r : Request) (res : GetterResult) :
    ImplEnd JettonWalletData :=
  let failed : Status := ⟨.smcInterfaceParseError, "get_wallet_data failed"⟩
  if !res.success then .fail failed
  else match res.stack with
    | [.int balance, .slice owner, .slice jetton, .cell _] =>
        match owner.toRawAddress, jetton.toRawAddress with
        | .error e, _ => .fail e
        | .ok _, .error e => .fail e
        | .ok owner, .ok jetton => .done
            { address := r.address.toRaw
              balance := ext.toLong balance
              owner := owner
              jetton := jetton
              lastTransactionLt := r.lastTxLt
              codeHash := r.codeCell.hash
              dataHash := r.dataCell.hash }
    | _ => .fail failed

/-- `NFTCollectionDetector::detect_impl` after `get_collection_data`; as for the
master, `code_hash` is never assigned. -/
def NFTCollectionDetector.detectImpl (ext : Ext) (unsetCodeHash : Bits256) (r : Request)
    (res : GetterResult) : ImplEnd NFTCollectionData :=
  let failed : Status := ⟨.smcInterfaceParseError, "get_collection_data failed"⟩
  if !res.success then .fail failed
  else match res.stack with
    | [.int nextItemIndex, .cell content, .slice owner] =>
        match owner.toRawAddress with
        | .error _ => .crash ⟨.smcInterfaceParseError, "get_collection_data address parsing failed"⟩
        | .ok ownerAddress => .done
            { address := r.address.toRaw
              nextItemIndex := nextItemIndex
              ownerAddress := ownerAddress
              collectionContent := ext.contentOr content
              lastTransactionLt := r.lastTxLt
              codeHash := unsetCodeHash
              dataHash := r.dataCell.hash
              codeBoc := r.codeCell
              dataBoc := r.dataCell }
    | _ => .fail failed

/-- `NFTItemDetector::detect_impl` after `get_nft_data`: the record without
its content, and the individual content cell. -/
def NFTItemDetector.detectImpl (ext : Ext) (r : Request) (res : GetterResult) :
    ImplEnd (NFTItemData × Cell) :=
  let failed : Status := ⟨.smcInterfaceParseError, "get_nft_data failed"⟩
  if !res.success then .fail failed
  else match res.stack with
    | [.int init, .int index, .slice collection, .slice owner, .cell indContent] =>
        match collection.toRawAddress, owner.toRawAddress with
        | .error _, _ => .crash ⟨.smcInterfaceParseError, "get_nft_data collection address parsing failed"⟩
        | .ok _, .error _ => .crash ⟨.smcInterfaceParseError, "get_nft_data address parsing failed"⟩
        | .ok collectionAddress, .ok ownerAddress => .done
            ({ address := r.address.toRaw
               init := ext.toLong init != 0
               index := index
               collectionAddress := collectionAddress
               ownerAddress := ownerAddress
               content := []
               lastTransactionLt := r.lastTxLt
               codeHash := r.codeCell.hash
               dataHash := r.dataCell.hash }, indContent)
    | _ => .fail failed

/-- The end of `JettonMasterDetector::get_wallet_address_impl`: the address
`get_wallet_address` returned. -/
def walletAddressOf (res : GetterResult) : Except Status StdAddress :=
  let failed : Status := ⟨.smcInterfaceParseError, "get_wallet_address failed"⟩
  if !res.success then .error failed
  else match res.stack with
    | [.slice s] =>
        match s.toRawAddress with
        | .error e => .error e
        | .ok raw => StdAddress.parse raw
    | _ => .error failed

/-- `NFTItemDetector::verify_belonging_to_collection` after
`get_nft_address_by_index`. -/
def verifyBelongingToCollection (item : NFTItemData) (res : GetterResult) : Except Status Unit :=
  let failed : Status := ⟨.smcInterfaceParseError, "get_nft_address_by_index failed"⟩
  if !res.success then .error failed
  else match res.stack with
    | [.slice s] =>
        match s.toRawAddress with
        | .error _ => .error ⟨.smcInterfaceParseError, "get_nft_address_by_index parse address failed"⟩
        | .ok nftAddress =>
            if nftAddress = item.address then .ok ()
            else .error ⟨.smcInterfaceParseError, "NFT Item doesn't belong to the referred collection"⟩
    | _ => .error failed

def NFTItemDetector.getContent (ext : Ext) (res : GetterResult) : Except Status Content :=
  let failed : Status := ⟨.smcInterfaceParseError, "get_nft_content failed"⟩
  if !res.success then .error failed
  else match res.stack with
    | [.cell c] => ext.parseTokenData c
    | _ => .error failed

theorem JettonMasterDetector.detectImpl_done {ext : Ext} {u : Bits256} {r : Request}
    {res : GetterResult} {m : JettonMasterData} (h : detectImpl ext u r res = .done m) :
    m.codeHash = u ∧ m.dataHash = r.dataCell.hash ∧ m.lastTransactionLt = r.lastTxLt := by
  unfold detectImpl at h
  split at h
  · cases h
  · split at h
    · split at h <;> cases h; exact ⟨rfl, rfl, rfl⟩
    · cases h

theorem JettonWalletDetector.detectImpl_done {ext : Ext} {r : Request} {res : GetterResult}
    {w : JettonWalletData} (h : detectImpl ext r res = .done w) :
    w.codeHash = r.codeCell.hash ∧ w.dataHash = r.dataCell.hash ∧ w.lastTransactionLt = r.lastTxLt := by
  unfold detectImpl at h
  split at h
  · cases h
  · split at h
    · split at h <;> cases h; exact ⟨rfl, rfl, rfl⟩
    · cases h

theorem NFTCollectionDetector.detectImpl_done {ext : Ext} {u : Bits256} {r : Request}
    {res : GetterResult} {c : NFTCollectionData} (h : detectImpl ext u r res = .done c) :
    c.codeHash = u ∧ c.dataHash = r.dataCell.hash ∧ c.lastTransactionLt = r.lastTxLt := by
  unfold detectImpl at h
  split at h
  · cases h
  · split at h
    · split at h <;> cases h; exact ⟨rfl, rfl, rfl⟩
    · cases h

theorem NFTItemDetector.detectImpl_done {ext : Ext} {r : Request} {res : GetterResult}
    {item : NFTItemData} {ind : Cell} (h : detectImpl ext r res = .done (item, ind)) :
    item.codeHash = r.codeCell.hash ∧ item.dataHash = r.dataCell.hash ∧
      item.lastTransactionLt = r.lastTxLt := by
  unfold detectImpl at h
  split at h
  · cases h
  · split at h
    · split at h <;> cases h; exact ⟨rfl, rfl, rfl⟩
    · cases h

theorem verifyBelongingToCollection_ok {item : NFTItemData} {res : GetterResult}
    (h : verifyBelongingToCollection item res = .ok ()) :
    ∃ s, res.success = true ∧ res.stack = [.slice s] ∧ s.toRawAddress = .ok item.address := by
  unfold verifyBelongingToCollection at h
  split at h
  · cases h
  · split at h
    · rename_i s _
      split at h
      · cases h
      · split at h
        · simp_all
        · cases h
    · cases h

theorem JettonMasterDetector.detectImpl_done_iff {ext : Ext} {u : Bits256} {r : Request}
    {res : GetterResult} :
    (∃ m, detectImpl ext u r res = .done m) ↔ res.success = true ∧
      ∃ a b s c w x, res.stack = [.int a, .int b, .slice s, .cell c, .cell w] ∧
        s.toRawAddress = .ok x := by
  constructor
  · rintro ⟨m, h⟩
    unfold detectImpl at h
    split at h
    · cases h
    · split at h
      · split at h
        · cases h
        · exact ⟨by simpa using ‹¬(!res.success) = true›, _, _, _, _, _, _, ‹_›, ‹_›⟩
      · cases h
  · rintro ⟨hs, a, b, s, c, w, x, hst, hx⟩
    simp [detectImpl, hs, hst, hx]

theorem JettonMasterDetector.detectImpl_crash_iff {ext : Ext} {u : Bits256} {r : Request}
    {res : GetterResult} :
    (∃ e, detectImpl ext u r res = .crash e) ↔ res.success = true ∧
      ∃ a b s c w, res.stack = [.int a, .int b, .slice s, .cell c, .cell w] ∧
        s.toRawAddress.isOk = false := by
  constructor
  · rintro ⟨e, h⟩
    unfold detectImpl at h
    split at h
    · cases h
    · split at h
      · split at h
        · exact ⟨by simpa using ‹¬(!res.success) = true›, _, _, _, _, _, ‹_›,
            by simp_all [Except.isOk, Except.toBool]⟩
        · cases h
      · cases h
  · rintro ⟨hs, a, b, s, c, w, hst, he⟩
    cases hs' : s.toRawAddress <;> simp_all [detectImpl, Except.isOk, Except.toBool]

theorem JettonWalletDetector.detectImpl_done_iff {ext : Ext} {r : Request} {res : GetterResult} :
    (∃ w, detectImpl ext r res = .done w) ↔ res.success = true ∧
      ∃ a o j c x y, res.stack = [.int a, .slice o, .slice j, .cell c] ∧
        o.toRawAddress = .ok x ∧ j.toRawAddress = .ok y := by
  constructor
  · rintro ⟨w, h⟩
    unfold detectImpl at h
    split at h
    · cases h
    · split at h
      · split at h
        · cases h
        · cases h
        · exact ⟨by simpa using ‹¬(!res.success) = true›, _, _, _, _, _, _, ‹_›, ‹_›, ‹_›⟩
      · cases h
  · rintro ⟨hs, a, o, j, c, x, y, hst, hx, hy⟩
    simp [detectImpl, hs, hst, hx, hy]

theorem JettonWalletDetector.detectImpl_ne_crash (ext : Ext) (r : Request) (res : GetterResult)
    (e : Status) : detectImpl ext r res ≠ .crash e := by
  unfold detectImpl
  split
  · nofun
  · split
    · split <;> nofun
    · nofun

theorem NFTCollectionDetector.detectImpl_done_iff {ext : Ext} {u : Bits256} {r : Request}
    {res : GetterResult} :
    (∃ c, detectImpl ext u r res = .done c) ↔ res.success = true ∧
      ∃ n c s x, res.stack = [.int n, .cell c, .slice s] ∧ s.toRawAddress = .ok x := by
  constructor
  · rintro ⟨c, h⟩
    unfold detectImpl at h
    split at h
    · cases h
    · split at h
      · split at h
        · cases h
        · exact ⟨by simpa using ‹¬(!res.success) = true›, _, _, _, _, ‹_›, ‹_›⟩
      · cases h
  · rintro ⟨hs, n, c, s, x, hst, hx⟩
    simp [detectImpl, hs, hst, hx]

theorem NFTCollectionDetector.detectImpl_crash_iff {ext : Ext} {u : Bits256} {r : Request}
    {res : GetterResult} :
    (∃ e, detectImpl ext u r res = .crash e) ↔ res.success = true ∧
      ∃ n c s, res.stack = [.int n, .cell c, .slice s] ∧ s.toRawAddress.isOk = false := by
  constructor
  · rintro ⟨e, h⟩
    unfold detectImpl at h
    split at h
    · cases h
    · split at h
      · split at h
        · exact ⟨by simpa using ‹¬(!res.success) = true›, _, _, _, ‹_›,
            by simp_all [Except.isOk, Except.toBool]⟩
        · cases h
      · cases h
  · rintro ⟨hs, n, c, s, hst, he⟩
    cases hs' : s.toRawAddress <;> simp_all [detectImpl, Except.isOk, Except.toBool]

theorem NFTItemDetector.detectImpl_done_iff {ext : Ext} {r : Request} {res : GetterResult} :
    (∃ d, detectImpl ext r res = .done d) ↔ res.success = true ∧
      ∃ i n cl o c x y, res.stack = [.int i, .int n, .slice cl, .slice o, .cell c] ∧
        cl.toRawAddress = .ok x ∧ o.toRawAddress = .ok y := by
  constructor
  · rintro ⟨d, h⟩
    unfold detectImpl at h
    split at h
    · cases h
    · split at h
      · split at h
        · cases h
        · cases h
        · exact ⟨by simpa using ‹¬(!res.success) = true›, _, _, _, _, _, _, _, ‹_›, ‹_›, ‹_›⟩
      · cases h
  · rintro ⟨hs, i, n, cl, o, c, x, y, hst, hx, hy⟩
    simp [detectImpl, hs, hst, hx, hy]

theorem NFTItemDetector.detectImpl_crash_iff {ext : Ext} {r : Request} {res : GetterResult} :
    (∃ e, detectImpl ext r res = .crash e) ↔ res.success = true ∧
      ∃ i n cl o c, res.stack = [.int i, .int n, .slice cl, .slice o, .cell c] ∧
        (cl.toRawAddress.isOk = false ∨ o.toRawAddress.isOk = false) := by
  constructor
  · rintro ⟨e, h⟩
    unfold detectImpl at h
    split at h
    · cases h
    · split at h
      · split at h
        · exact ⟨by simpa using ‹¬(!res.success) = true›, _, _, _, _, _, ‹_›,
            .inl (by simp_all [Except.isOk, Except.toBool])⟩
        · exact ⟨by simpa using ‹¬(!res.success) = true›, _, _, _, _, _, ‹_›,
            .inr (by simp_all [Except.isOk, Except.toBool])⟩
        · cases h
      · cases h
  · rintro ⟨hs, i, n, cl, o, c, hst, hf⟩
    cases hcl : cl.toRawAddress <;> cases ho : o.toRawAddress <;>
      simp_all [detectImpl, Except.isOk, Except.toBool]

/-- Each `detect_impl` reaches a record exactly when the getter ran, its stack has the
getter's shape and every address slot decodes. On an address slot that fails to decode,
the master, the collection and the item set the error and then unwrap the failed result;
only the wallet returns. -/
theorem detectImpl_unwraps_failed_address (ext : Ext) (u : Bits256) (r : Request)
    (res : GetterResult) :
    ((∃ m, JettonMasterDetector.detectImpl ext u r res = .done m) ↔ res.success = true ∧
      ∃ a b s c w x, res.stack = [.int a, .int b, .slice s, .cell c, .cell w] ∧
        s.toRawAddress = .ok x) ∧
    ((∃ e, JettonMasterDetector.detectImpl ext u r res = .crash e) ↔ res.success = true ∧
      ∃ a b s c w, res.stack = [.int a, .int b, .slice s, .cell c, .cell w] ∧
        s.toRawAddress.isOk = false) ∧
    ((∃ w, JettonWalletDetector.detectImpl ext r res = .done w) ↔ res.success = true ∧
      ∃ a o j c x y, res.stack = [.int a, .slice o, .slice j, .cell c] ∧
        o.toRawAddress = .ok x ∧ j.toRawAddress = .ok y) ∧
    (∀ e, JettonWalletDetector.detectImpl ext r res ≠ .crash e) ∧
    ((∃ c, NFTCollectionDetector.detectImpl ext u r res = .done c) ↔ res.success = true ∧
      ∃ n c s x, res.stack = [.int n, .cell c, .slice s] ∧ s.toRawAddress = .ok x) ∧
    ((∃ e, NFTCollectionDetector.detectImpl ext u r res = .crash e) ↔ res.success = true ∧
      ∃ n c s, res.stack = [.int n, .cell c, .slice s] ∧ s.toRawAddress.isOk = false) ∧
    ((∃ d, NFTItemDetector.detectImpl ext r res = .done d) ↔ res.success = true ∧
      ∃ i n cl o c x y, res.stack = [.int i, .int n, .slice cl, .slice o, .cell c] ∧
        cl.toRawAddress = .ok x ∧ o.toRawAddress = .ok y) ∧
    ((∃ e, NFTItemDetector.detectImpl ext r res = .crash e) ↔ res.success = true ∧
      ∃ i n cl o c, res.stack = [.int i, .int n, .slice cl, .slice o, .cell c] ∧
        (cl.toRawAddress.isOk = false ∨ o.toRawAddress.isOk = false)) :=
  ⟨JettonMasterDetector.detectImpl_done_iff, JettonMasterDetector.detectImpl_crash_iff,
    JettonWalletDetector.detectImpl_done_iff, JettonWalletDetector.detectImpl_ne_crash ext r res,
    NFTCollectionDetector.detectImpl_done_iff, NFTCollectionDetector.detectImpl_crash_iff,
    NFTItemDetector.detectImpl_done_iff, NFTItemDetector.detectImpl_crash_iff⟩

/-- `td::RefInt256::to_long()` returns a `long long`: a value in
`[-2^63, 2^63)`, equal to the integer when the integer fits. -/
def Ext.LongLong (ext : Ext) : Prop :=
  ∀ v : Int, (-2 ^ 63 ≤ ext.toLong v ∧ ext.toLong v < 2 ^ 63) ∧
    (-2 ^ 63 ≤ v → v < 2 ^ 63 → ext.toLong v = v)

def Ext.saturating : Ext := ⟨fun v => if -2 ^ 63 ≤ v ∧ v < 2 ^ 63 then v else -2 ^ 63, fun _ => .ok []⟩

theorem Ext.saturating_longLong : Ext.saturating.LongLong := by
  intro v
  simp only [Ext.saturating]
  split <;> omega

theorem JettonMasterDetector.detectImpl_totalSupply {ext : Ext} {u : Bits256} {r : Request}
    {res : GetterResult} {m : JettonMasterData} {v : Int} (h : detectImpl ext u r res = .done m)
    (hv : res.stack.head? = some (.int v)) : m.totalSupply = ext.toLong v := by
  unfold detectImpl at h
  split at h
  · cases h
  · split at h
    · split at h
      · cases h
      · cases h; simp_all
    · cases h

theorem JettonWalletDetector.detectImpl_balance {ext : Ext} {r : Request} {res : GetterResult}
    {w : JettonWalletData} {v : Int} (h : detectImpl ext r res = .done w)
    (hv : res.stack.head? = some (.int v)) : w.balance = ext.toLong v := by
  unfold detectImpl at h
  split at h
  · cases h
  · split at h
    · split at h
      · cases h
      · cases h
      · cases h; simp_all
    · cases h

theorem Ext.LongLong.toLong_eq_iff {ext : Ext} (hl : ext.LongLong) {v : Int} (hv : 0 ≤ v) :
    ext.toLong v = v ↔ v < 2 ^ 63 := by
  obtain ⟨⟨-, hlt⟩, hfit⟩ := hl v
  constructor
  · intro h; omega
  · intro h; exact hfit (by omega) h

/-- Over the `Coins` range `[0, 2^120)`, the master keeps its total supply and the
wallet its balance exactly when the value is below `2^63`, since `to_long()` returns a
`long long`. -/
theorem detectImpl_coins_exact_iff (ext : Ext) (hl : ext.LongLong) :
    (∀ u r res m v, res.stack.head? = some (.int v) →
      JettonMasterDetector.detectImpl ext u r res = .done m → 0 ≤ v → v < 2 ^ 120 →
        (m.totalSupply = v ↔ v < 2 ^ 63)) ∧
    (∀ r res w v, res.stack.head? = some (.int v) →
      JettonWalletDetector.detectImpl ext r res = .done w → 0 ≤ v → v < 2 ^ 120 →
        (w.balance = v ↔ v < 2 ^ 63)) :=
  ⟨fun _ _ _ _ _ hv h h0 _ => JettonMasterDetector.detectImpl_totalSupply h hv ▸ hl.toLong_eq_iff h0,
    fun _ _ _ _ hv h h0 _ => JettonWalletDetector.detectImpl_balance h hv ▸ hl.toLong_eq_iff h0⟩

def coinsMasterResult : GetterResult :=
  ⟨true, [.int (2 ^ 64), .int 0, .slice .addrNone, .cell ⟨Bits256.zero⟩, .cell ⟨Bits256.zero⟩]⟩

def coinsRequest : Request := ⟨0, ⟨0, Bits256.zero⟩, ⟨Bits256.zero⟩, ⟨Bits256.zero⟩, 1⟩

theorem coins_master_total_supply_lost :
    ∃ m, JettonMasterDetector.detectImpl Ext.saturating Bits256.zero coinsRequest coinsMasterResult =
      .done m ∧ m.totalSupply ≠ 2 ^ 64 :=
  ⟨_, rfl, fun h => absurd (((detectImpl_coins_exact_iff Ext.saturating Ext.saturating_longLong).1
    Bits256.zero coinsRequest coinsMasterResult _ (2 ^ 64) rfl rfl (by decide) (by decide)).1 h)
    (by decide)⟩

end TonIndex
