import TonIndex.Detect.Entities
import Mathlib.Data.List.Nodup

/-!
The Redis data the trace inserter writes and the Go API reads: one hash per trace
id, with a field per node (the hex of its in-message hash) and per account (its
raw address), and one sorted set per account. msgpack is not modelled: a `Codec`
packs the two kinds of stored values and unpacks a node.
-/

set_option autoImplicit false

namespace TonIndex

/-- What `parse_tx` yields of a transaction and what a node stores of it: the
transaction hash, the account, the lt, the in-message hash (`in_msg` is an
optional), and the out-message hashes. -/
structure TxRecord where
  hash : Bits256
  account : StdAddress
  lt : Nat
  inMsg : Option Bits256
  outMsgs : List Bits256
  deriving DecidableEq

structure StoredNode where
  transaction : TxRecord
  emulated : Bool
  deriving DecidableEq

/-- msgpack on the values of a trace hash; `unpackNode` fails with the
library's message. -/
structure Codec (V : Type) where
  packNode : StoredNode → V
  packInterfaces : List String → V
  unpackNode : V → Except String StoredNode

structure RHash (V : Type) where
  get : String → Option V
  fields : List String
  nodup : fields.Nodup
  mem_fields : ∀ f, f ∈ fields ↔ (get f).isSome

namespace RHash

variable {V : Type}

def empty : RHash V := ⟨fun _ => none, [], List.nodup_nil, by simp⟩

def hset (h : RHash V) (f : String) (v : V) : RHash V where
  get f' := if f' = f then some v else h.get f'
  fields := if f ∈ h.fields then h.fields else h.fields ++ [f]
  nodup := by
    split
    · exact h.nodup
    · exact List.nodup_append.2 ⟨h.nodup, List.nodup_singleton f, by simpa⟩
  mem_fields f' := by
    by_cases hf : f' = f
    · subst hf; split <;> simp_all
    · have := h.mem_fields f'
      split <;> simp_all

def hdel (h : RHash V) (f : String) : RHash V where
  get f' := if f' = f then none else h.get f'
  fields := h.fields.erase f
  nodup := h.nodup.erase f
  mem_fields f' := by
    rw [h.nodup.mem_erase_iff, h.mem_fields]
    by_cases hf : f' = f <;> simp [hf]

@[simp] theorem empty_get (f : String) : (empty : RHash V).get f = none := rfl

@[simp] theorem hset_get (h : RHash V) (f f' : String) (v : V) :
    (h.hset f v).get f' = if f' = f then some v else h.get f' := rfl

@[simp] theorem hdel_get (h : RHash V) (f f' : String) :
    (h.hdel f).get f' = if f' = f then none else h.get f' := rfl

end RHash

/-- The commands the inserter queues between `MULTI` and `EXEC`. -/
inductive RedisCmd (V : Type)
  | hdel (key field : String)
  | zrem (key member : String)
  | hset (key field : String) (value : V)
  | zadd (key member : String) (score : Nat)
  | publish (channel message : String)

structure Redis (V : Type) where
  hashes : String → RHash V
  zsets : String → StdMap String Nat

namespace Redis

variable {V : Type}

def empty : Redis V := ⟨fun _ => RHash.empty, fun _ => StdMap.empty⟩

def updHash (r : Redis V) (key : String) (f : RHash V → RHash V) : Redis V :=
  {r with hashes := fun k => if k = key then f (r.hashes k) else r.hashes k}

def updZset (r : Redis V) (key : String) (f : StdMap String Nat → StdMap String Nat) : Redis V :=
  {r with zsets := fun k => if k = key then f (r.zsets k) else r.zsets k}

def apply (r : Redis V) : RedisCmd V → Redis V
  | .hdel key field => r.updHash key (·.hdel field)
  | .zrem key member => r.updZset key fun z k => if k = member then none else z k
  | .hset key field value => r.updHash key (·.hset field value)
  | .zadd key member score => r.updZset key (·.assign member score)
  | .publish _ _ => r

/-- `EXEC`: the queued commands, in order, with no other client in between. -/
def exec (r : Redis V) (cmds : List (RedisCmd V)) : Redis V := cmds.foldl apply r

end Redis

end TonIndex
