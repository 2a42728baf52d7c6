import TonIndex.Detect.Impl

set_option autoImplicit false

namespace TonIndex

structure EventTx where
  hash : Bits256
  account : String
  inMsgFrom : Option String
  deriving DecidableEq

/-- `Record_transfer_jetton` as `csr_unpack` leaves it. The amounts are what
`t_VarUInteger_16.as_integer` returns (`none` for a null `RefInt256`) and the
payloads what `fetch_maybe_ref` reads (`none` when it fails). -/
structure JettonTransferBody where
  queryId : Nat
  amount : Option Nat
  destination : Slice
  responseDestination : Slice
  customPayload : Option (Option Cell)
  forwardTonAmount : Option Nat
  forwardPayload : Option (Option Cell)
  deriving DecidableEq

structure JettonBurnBody where
  queryId : Nat
  amount : Option Nat
  responseDestination : Slice
  customPayload : Option (Option Cell)
  deriving DecidableEq

structure NftTransferBody where
  queryId : Nat
  newOwner : Slice
  responseDestination : Slice
  customPayload : Option (Option Cell)
  forwardAmount : Option Nat
  forwardPayload : Option (Option Cell)
  deriving DecidableEq

structure JettonTransfer where
  transactionHash : Bits256
  queryId : Nat
  amount : Nat
  destination : String
  responseDestination : String
  customPayload : Option Cell
  forwardTonAmount : Option Nat
  forwardPayload : Option Cell
  deriving DecidableEq

structure JettonBurn where
  transactionHash : Bits256
  queryId : Nat
  amount : Nat
  responseDestination : String
  customPayload : Option Cell
  deriving DecidableEq

structure NFTTransfer where
  transactionHash : Bits256
  queryId : Nat
  nftItem : String
  oldOwner : String
  newOwner : String
  responseDestination : String
  customPayload : Option Cell
  forwardAmount : Option Nat
  forwardPayload : Option Cell
  deriving DecidableEq

def eventParseError (what : String) : Status := ⟨.eventParseError, what⟩

/-- `JettonWalletDetector::parse_transfer_impl`. A failed destination or response
destination is passed to `set_error` with no `return` and then unwrapped;
`forward_ton_amount` is not checked. -/
def JettonWalletDetector.parseTransferImpl (tx : EventTx) :
    Option JettonTransferBody → ImplEnd JettonTransfer
  | none => .fail (eventParseError "Failed to unpack transfer")
  | some b =>
    match b.amount with
    | none => .fail (eventParseError "Failed to unpack transfer amount")
    | some amount =>
      match b.destination.toRawAddress, b.responseDestination.toRawAddress with
      | .error e, _ => .crash e
      | .ok _, .error e => .crash e
      | .ok destination, .ok responseDestination =>
        match b.customPayload with
        | none => .fail (eventParseError "Failed to fetch custom payload")
        | some customPayload =>
          match b.forwardPayload with
          | none => .fail (eventParseError "Failed to fetch forward payload")
          | some forwardPayload => .done
              { transactionHash := tx.hash
                queryId := b.queryId
                amount := amount
                destination := destination
                responseDestination := responseDestination
                customPayload := customPayload
                forwardTonAmount := b.forwardTonAmount
                forwardPayload := forwardPayload }

/-- `JettonWalletDetector::parse_burn_impl`: its failed response destination
is returned as `to_raw_address` gave it. -/
def JettonWalletDetector.parseBurnImpl (tx : EventTx) : Option JettonBurnBody → ImplEnd JettonBurn
  | none => .fail (eventParseError "Failed to unpack burn")
  | some b =>
    match b.amount with
    | none => .fail (eventParseError "Failed to unpack burn amount")
    | some amount =>
      match b.responseDestination.toRawAddress with
      | .error e => .fail e
      | .ok responseDestination =>
        match b.customPayload with
        | none => .fail (eventParseError "Failed to fetch custom payload")
        | some customPayload => .done
            { transactionHash := tx.hash
              queryId := b.queryId
              amount := amount
              responseDestination := responseDestination
              customPayload := customPayload }

/-- `NFTItemDetector::parse_transfer_impl`. A missing `in_msg_from` sets the
error and then reads `in_msg_from.value()`; the two address failures set the
error and then unwrap it, as in the jetton transfer. -/
def NFTItemDetector.parseTransferImpl (tx : EventTx) :
    Option NftTransferBody → ImplEnd NFTTransfer
  | none => .fail (eventParseError "Failed to unpack transfer")
  | some b =>
    match tx.inMsgFrom with
    | none => .crash (eventParseError "Failed to fetch NFT old owner address")
    | some oldOwner =>
      match b.newOwner.toRawAddress, b.responseDestination.toRawAddress with
      | .error e, _ => .crash e
      | .ok _, .error e => .crash e
      | .ok newOwner, .ok responseDestination =>
        match b.customPayload with
        | none => .fail (eventParseError "Failed to fetch custom payload")
        | some customPayload =>
          match b.forwardPayload with
          | none => .fail (eventParseError "Failed to fetch forward payload")
          | some forwardPayload => .done
              { transactionHash := tx.hash
                queryId := b.queryId
                nftItem := tx.account
                oldOwner := oldOwner
                newOwner := newOwner
                responseDestination := responseDestination
                customPayload := customPayload
                forwardAmount := b.forwardAmount
                forwardPayload := forwardPayload }

namespace JettonWalletDetector

variable {tx : EventTx}

theorem parseTransferImpl_done_iff {body : Option JettonTransferBody} :
    (∃ t, parseTransferImpl tx body = .done t) ↔ ∃ b a d rd cp fp, body = some b ∧
      b.amount = some a ∧ b.destination.toRawAddress = .ok d ∧
      b.responseDestination.toRawAddress = .ok rd ∧ b.customPayload = some cp ∧
      b.forwardPayload = some fp := by
  constructor
  · rintro ⟨t, h⟩
    rcases body with _ | b
    · cases h
    simp only [parseTransferImpl] at h
    repeat' split at h
    all_goals first | cases h; done | exact ⟨b, _, _, _, _, _, rfl, ‹_›, ‹_›, ‹_›, ‹_›, ‹_›⟩
  · rintro ⟨b, a, d, rd, cp, fp, rfl, ha, hd, hr, hc, hf⟩
    simp [parseTransferImpl, ha, hd, hr, hc, hf]

theorem parseTransferImpl_crash_iff {body : Option JettonTransferBody} :
    (∃ e, parseTransferImpl tx body = .crash e) ↔ ∃ b, body = some b ∧ b.amount.isSome ∧
      (b.destination.toRawAddress.isOk = false ∨ b.responseDestination.toRawAddress.isOk = false) := by
  rcases body with _ | ⟨q, _ | a, d, rd, _ | cp, fa, _ | fp⟩
  · simp [parseTransferImpl]
  all_goals cases hd : d.toRawAddress <;> cases hr : rd.toRawAddress <;>
    simp [parseTransferImpl, hd, hr, Except.isOk, Except.toBool]

theorem parseTransferImpl_fail_code {body : Option JettonTransferBody} {e : Status}
    (h : parseTransferImpl tx body = .fail e) : e.code = .eventParseError := by
  rcases body with _ | b
  · cases h; rfl
  simp only [parseTransferImpl] at h
  repeat' split at h
  all_goals (cases h <;> rfl)

theorem parseBurnImpl_done_iff {body : Option JettonBurnBody} :
    (∃ t, parseBurnImpl tx body = .done t) ↔ ∃ b a rd cp, body = some b ∧
      b.amount = some a ∧ b.responseDestination.toRawAddress = .ok rd ∧
      b.customPayload = some cp := by
  constructor
  · rintro ⟨t, h⟩
    rcases body with _ | b
    · cases h
    simp only [parseBurnImpl] at h
    repeat' split at h
    all_goals first | cases h; done | exact ⟨b, _, _, _, rfl, ‹_›, ‹_›, ‹_›⟩
  · rintro ⟨b, a, rd, cp, rfl, ha, hr, hc⟩
    simp [parseBurnImpl, ha, hr, hc]

theorem parseBurnImpl_ne_crash (body : Option JettonBurnBody) (e : Status) :
    parseBurnImpl tx body ≠ .crash e := by
  rcases body with _ | b
  · nofun
  simp only [parseBurnImpl]
  repeat' split
  all_goals nofun

theorem parseBurnImpl_fail_code {body : Option JettonBurnBody} {e : Status}
    (h : parseBurnImpl tx body = .fail e) :
    e.code = .eventParseError ∨ ∃ b, body = some b ∧ b.responseDestination.toRawAddress = .error e := by
  rcases body with _ | b
  · cases h; exact .inl rfl
  simp only [parseBurnImpl] at h
  repeat' split at h
  all_goals first | cases h; done | (cases h; exact .inl rfl) | (cases h; exact .inr ⟨b, rfl, ‹_›⟩)

end JettonWalletDetector

namespace NFTItemDetector

variable {tx : EventTx}

theorem parseTransferImpl_done_iff {body : Option NftTransferBody} :
    (∃ t, parseTransferImpl tx body = .done t) ↔ ∃ b o no rd cp fp, body = some b ∧
      tx.inMsgFrom = some o ∧ b.newOwner.toRawAddress = .ok no ∧
      b.responseDestination.toRawAddress = .ok rd ∧ b.customPayload = some cp ∧
      b.forwardPayload = some fp := by
  constructor
  · rintro ⟨t, h⟩
    rcases body with _ | b
    · cases h
    simp only [parseTransferImpl] at h
    repeat' split at h
    all_goals first | cases h; done | exact ⟨b, _, _, _, _, _, rfl, ‹_›, ‹_›, ‹_›, ‹_›, ‹_›⟩
  · rintro ⟨b, o, no, rd, cp, fp, rfl, ho, hn, hr, hc, hf⟩
    simp [parseTransferImpl, ho, hn, hr, hc, hf]

theorem parseTransferImpl_crash_iff {body : Option NftTransferBody} :
    (∃ e, parseTransferImpl tx body = .crash e) ↔ ∃ b, body = some b ∧ (tx.inMsgFrom = none ∨
      b.newOwner.toRawAddress.isOk = false ∨ b.responseDestination.toRawAddress.isOk = false) := by
  rcases body with _ | ⟨q, no, rd, _ | cp, fa, _ | fp⟩
  · simp [parseTransferImpl]
  all_goals cases ho : tx.inMsgFrom <;> cases hn : no.toRawAddress <;>
    cases hr : rd.toRawAddress <;> simp [parseTransferImpl, ho, hn, hr, Except.isOk, Except.toBool]

theorem parseTransferImpl_fail_code {body : Option NftTransferBody} {e : Status}
    (h : parseTransferImpl tx body = .fail e) : e.code = .eventParseError := by
  rcases body with _ | b
  · cases h; rfl
  simp only [parseTransferImpl] at h
  repeat' split at h
  all_goals (cases h <;> rfl)

end NFTItemDetector

/-- What `JettonWalletDetector::parse_transfer`, `parse_burn` and
`NFTItemDetector::parse_transfer` share. An unparsable account aborts in
`move_as_ok` before any promise is set (the `crash` carries only its cause);
otherwise a `NOT_FOUND_ERROR` of `check_cache` becomes the given
`EVENT_PARSE_ERROR`, another error is passed on, and a found entity goes to the impl. -/
def parseCached {T B E : Type} (notFound : String) (impl : EventTx → B → ImplEnd E)
    (cache db : StdMap String T) (fails : Bool) (tx : EventTx) (body : B) :
    StdMap String T × ImplEnd E :=
  match StdAddress.parse tx.account with
  | .error e => (cache, .crash e)
  | .ok address =>
    match checkCache cache db fails address with
    | (c, .ok _) => (c, impl tx body)
    | (c, .error e) => (c, .fail (if e.code = .notFoundError then eventParseError notFound else e))

def JettonWalletDetector.parseTransfer : StdMap String JettonWalletData → StdMap String JettonWalletData →
    Bool → EventTx → Option JettonTransferBody → StdMap String JettonWalletData × ImplEnd JettonTransfer :=
  parseCached "Jetton Wallet not found" JettonWalletDetector.parseTransferImpl

def JettonWalletDetector.parseBurn : StdMap String JettonWalletData → StdMap String JettonWalletData →
    Bool → EventTx → Option JettonBurnBody → StdMap String JettonWalletData × ImplEnd JettonBurn :=
  parseCached "Jetton Wallet not found" JettonWalletDetector.parseBurnImpl

/-- The item's wrapper keeps the jetton wallet's not-found text. -/
def NFTItemDetector.parseTransfer : StdMap String NFTItemData → StdMap String NFTItemData →
    Bool → EventTx → Option NftTransferBody → StdMap String NFTItemData × ImplEnd NFTTransfer :=
  parseCached "Jetton Wallet not found" NFTItemDetector.parseTransferImpl

section Cached

variable {T B E : Type} {notFound : String} {impl : EventTx → B → ImplEnd E}
  {cache db : StdMap String T} {fails : Bool} {tx : EventTx} {body : B}

theorem parseCached_done_iff {ev : E} : (parseCached notFound impl cache db fails tx body).2 = .done ev ↔
    ∃ a x, StdAddress.parse tx.account = .ok a ∧ (checkCache cache db fails a).2 = .ok x ∧
      impl tx body = .done ev := by
  unfold parseCached
  cases StdAddress.parse tx.account with
  | error e => simp
  | ok a => rcases h : checkCache cache db fails a with ⟨c, err | x⟩ <;> simp [h]

end Cached

/-- The three event parsers reach their record exactly when the body unpacks and its
addresses, amount, payloads and (for the NFT) `in_msg_from` decode. The transfers set
`EVENT_PARSE_ERROR` on a failed address, and the NFT on a missing `in_msg_from`, then
unwrap the failure; the burn returns each time. -/
theorem parse_event_unwraps_failure (tx : EventTx) (jt : Option JettonTransferBody)
    (jb : Option JettonBurnBody) (nt : Option NftTransferBody) :
    ((∃ t, JettonWalletDetector.parseTransferImpl tx jt = .done t) ↔ ∃ b a d rd cp fp,
      jt = some b ∧ b.amount = some a ∧ b.destination.toRawAddress = .ok d ∧
      b.responseDestination.toRawAddress = .ok rd ∧ b.customPayload = some cp ∧
      b.forwardPayload = some fp) ∧
    ((∃ e, JettonWalletDetector.parseTransferImpl tx jt = .crash e) ↔ ∃ b, jt = some b ∧
      b.amount.isSome ∧ (b.destination.toRawAddress.isOk = false ∨
        b.responseDestination.toRawAddress.isOk = false)) ∧
    (∀ e, JettonWalletDetector.parseTransferImpl tx jt = .fail e → e.code = .eventParseError) ∧
    ((∃ t, JettonWalletDetector.parseBurnImpl tx jb = .done t) ↔ ∃ b a rd cp, jb = some b ∧
      b.amount = some a ∧ b.responseDestination.toRawAddress = .ok rd ∧
      b.customPayload = some cp) ∧
    (∀ e, JettonWalletDetector.parseBurnImpl tx jb ≠ .crash e) ∧
    (∀ e, JettonWalletDetector.parseBurnImpl tx jb = .fail e → e.code = .eventParseError ∨
      ∃ b, jb = some b ∧ b.responseDestination.toRawAddress = .error e) ∧
    ((∃ t, NFTItemDetector.parseTransferImpl tx nt = .done t) ↔ ∃ b o no rd cp fp,
      nt = some b ∧ tx.inMsgFrom = some o ∧ b.newOwner.toRawAddress = .ok no ∧
      b.responseDestination.toRawAddress = .ok rd ∧ b.customPayload = some cp ∧
      b.forwardPayload = some fp) ∧
    ((∃ e, NFTItemDetector.parseTransferImpl tx nt = .crash e) ↔ ∃ b, nt = some b ∧
      (tx.inMsgFrom = none ∨ b.newOwner.toRawAddress.isOk = false ∨
        b.responseDestination.toRawAddress.isOk = false)) ∧
    (∀ e, NFTItemDetector.parseTransferImpl tx nt = .fail e → e.code = .eventParseError) :=
  ⟨JettonWalletDetector.parseTransferImpl_done_iff, JettonWalletDetector.parseTransferImpl_crash_iff,
    fun _ => JettonWalletDetector.parseTransferImpl_fail_code,
    JettonWalletDetector.parseBurnImpl_done_iff, JettonWalletDetector.parseBurnImpl_ne_crash jb,
    fun _ => JettonWalletDetector.parseBurnImpl_fail_code,
    NFTItemDetector.parseTransferImpl_done_iff, NFTItemDetector.parseTransferImpl_crash_iff,
    fun _ => NFTItemDetector.parseTransferImpl_fail_code⟩

end TonIndex
