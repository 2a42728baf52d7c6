import TonIndex.Basic

set_option autoImplicit false

namespace TonIndex

/-- A cell, known to the modelled code by its representation hash. The code
and data cells of an entity are kept as cells rather than as their base64 BoC
strings. -/
structure Cell where
  hash : Bits256
  deriving DecidableEq

inductive Slice
  | addrNone
  | addrStd (a : StdAddress)
  | undecodable (bits : List Bool)
  deriving DecidableEq

/-- `convert::to_raw_address` of a slice; its failures carry no error code. -/
def Slice.toRawAddress : Slice → Except Status String
  | .addrNone => .ok "addr_none"
  | .addrStd a => .ok a.toRaw
  | .undecodable _ => .error ⟨.plain, "Failed to parse MsgAddress"⟩

theorem Slice.toRawAddress_error_code {sl : Slice} {e : Status} (h : sl.toRawAddress = .error e) :
    e.code = .plain := by
  cases sl <;> simp [Slice.toRawAddress] at h
  cases h; rfl

inductive StackType
  | tInt
  | tCell
  | tSlice
  | tOther
  deriving DecidableEq, Repr

inductive StackEntry
  | int (v : Int)
  | cell (c : Cell)
  | slice (s : Slice)
  | other
  deriving DecidableEq

def StackEntry.type : StackEntry → StackType
  | .int _ => .tInt
  | .cell _ => .tCell
  | .slice _ => .tSlice
  | .other => .tOther

/-- What `SmartContract::run_get_method` returns; `stack` lists `as_span()`. -/
structure GetterResult where
  success : Bool
  stack : List StackEntry
  deriving DecidableEq

abbrev Content := List (String × String)

/-- What the detectors take from code that is not part of the source. -/
structure Ext where
  /-- `td::RefInt256::to_long`. -/
  toLong : Int → Int
  /-- `parse_token_data`. -/
  parseTokenData : Cell → Except Status Content

def Ext.plain : Ext := ⟨id, fun _ => .ok []⟩

structure JettonMasterData where
  address : String
  totalSupply : Int
  mintable : Bool
  adminAddress : String
  jettonContent : Content
  jettonWalletCodeHash : Bits256
  lastTransactionLt : Nat
  codeHash : Bits256
  dataHash : Bits256
  codeBoc : Cell
  dataBoc : Cell
  deriving DecidableEq

structure JettonWalletData where
  address : String
  balance : Int
  owner : String
  jetton : String
  lastTransactionLt : Nat
  codeHash : Bits256
  dataHash : Bits256
  deriving DecidableEq

structure NFTCollectionData where
  address : String
  nextItemIndex : Int
  ownerAddress : String
  collectionContent : Content
  lastTransactionLt : Nat
  codeHash : Bits256
  dataHash : Bits256
  codeBoc : Cell
  dataBoc : Cell
  deriving DecidableEq

structure NFTItemData where
  address : String
  init : Bool
  index : Int
  collectionAddress : String
  ownerAddress : String
  content : Content
  lastTransactionLt : Nat
  codeHash : Bits256
  dataHash : Bits256
  deriving DecidableEq

/-- The fields `detect_continue` compares, common to the four records. -/
class CachedEntity (T : Type) where
  dataHash : T → Bits256
  codeHash : T → Bits256
  lastTransactionLt : T → Nat

instance : CachedEntity JettonMasterData := ⟨(·.dataHash), (·.codeHash), (·.lastTransactionLt)⟩
instance : CachedEntity JettonWalletData := ⟨(·.dataHash), (·.codeHash), (·.lastTransactionLt)⟩
instance : CachedEntity NFTCollectionData := ⟨(·.dataHash), (·.codeHash), (·.lastTransactionLt)⟩
instance : CachedEntity NFTItemData := ⟨(·.dataHash), (·.codeHash), (·.lastTransactionLt)⟩

/-- The arguments of one `detect(address, code_cell, data_cell, last_tx_lt,
promise)` call; `rid` names its promise. -/
structure Request where
  rid : Nat
  address : StdAddress
  codeCell : Cell
  dataCell : Cell
  lastTxLt : Nat
  deriving DecidableEq

end TonIndex
