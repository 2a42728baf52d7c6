import TonIndex.Redis.Store

/-!
`TaskResultInserter::start_up` walks the trace breadth first and collects, for
every node that was not emulated, the subtree stored under its in-message key
for deletion, reading the stored hash with `HGET`s made outside the transaction
and with no `WATCH`. One `MULTI`/`EXEC` then deletes what was collected, writes
the nodes and the accounts' interfaces, and publishes the trace id.
-/

set_option autoImplicit false

namespace TonIndex

/-- The trace `TaskResultInserter` receives: per node, the transaction cell and
its workchain, whether the node was emulated, the detected interfaces of its
account, and the children. -/
inductive TraceTree
  | mk (transactionRoot : Cell) (workchain : Int) (emulated : Bool) (interfaces : List String)
      (children : List TraceTree)

namespace TraceTree

def children : TraceTree → List TraceTree
  | .mk _ _ _ _ cs => cs

mutual
def size : TraceTree → Nat
  | .mk _ _ _ _ cs => 1 + sizeList cs
def sizeList : List TraceTree → Nat
  | [] => 0
  | t :: ts => t.size + sizeList ts
end

def bfs : Nat → List TraceTree → List TraceTree
  | 0, _ => []
  | _ + 1, [] => []
  | n + 1, t :: q => t :: bfs n (q ++ t.children)

def nodes (t : TraceTree) : List TraceTree := bfs t.size [t]

end TraceTree

structure InsertExt where
  /-- `parse_tx(transaction_root, workchain)`. -/
  parseTx : Cell → Int → Except Status TxRecord

namespace TaskResultInserter

def exception (what : String) : Status := ⟨.plain, "Got exception while inserting trace: " ++ what⟩

def byAddrKey (traceKey : String) (inMsg : Bits256) : String := traceKey ++ ":" ++ inMsg.toHex

variable {V : Type} (codec : Codec V) (stored : RHash V) (traceKey : String)

/-- `delete_db_subtree(key, tx_keys, addr_keys)` on the stored hash: the nodes under the
in-message keys of the node's out-messages, then the node under `key`, are queued for
deletion; the fuel is the number of stored fields. -/
def deleteDbSubtree : Nat → String → List String × List (String × String) →
    ExceptT Status Option (List String × List (String × String))
  | 0, _, _ => ExceptT.lift none
  | n + 1, key, keys =>
    match stored.get key with
    | none => pure keys
    | some v =>
      match codec.unpackNode v with
      | .error what => throw (exception what)
      | .ok node => do
        let keys ← node.transaction.outMsgs.foldlM
          (fun keys h => deleteDbSubtree n h.toHex keys) keys
        match node.transaction.inMsg with
        | none => throw (exception "bad optional access")
        | some m => pure (keys.1 ++ [key],
            keys.2 ++ [(node.transaction.account.toRaw, byAddrKey traceKey m)])

structure Collected where
  txKeysToDelete : List String
  addrKeysToDelete : List (String × String)
  /-- `addr_interfaces`: one entry per account, the last assignment kept. -/
  addrInterfaces : List (StdAddress × List String)
  flattenedTrace : List StoredNode

def assignInterfaces (m : List (StdAddress × List String)) (a : StdAddress) (ifs : List String) :
    List (StdAddress × List String) :=
  if m.any (·.1 = a) then m.map fun p => if p.1 = a then (a, ifs) else p else m ++ [(a, ifs)]

def visit (ext : InsertExt) (c : Collected) : TraceTree → ExceptT Status Option Collected
  | .mk root wc emulated interfaces _ =>
    match ext.parseTx root wc with
    | .error e => throw (e.withPrefix "Failed to parse transaction: ")
    | .ok tx => do
      let keys := (c.txKeysToDelete, c.addrKeysToDelete)
      let keys ← if emulated then pure keys else
        match tx.inMsg with
        | none => throw (exception "bad optional access")
        | some m => deleteDbSubtree codec stored traceKey (stored.fields.length + 1) m.toHex keys
      pure ⟨keys.1, keys.2, assignInterfaces c.addrInterfaces tx.account interfaces,
        c.flattenedTrace ++ [⟨tx, emulated⟩]⟩

def nodeWrites (node : StoredNode) : Except Status (List (RedisCmd V)) :=
  match node.transaction.inMsg with
  | none => throw (exception "bad optional access")
  | some m => pure [RedisCmd.hset traceKey m.toHex (codec.packNode node),
      .zadd node.transaction.account.toRaw (byAddrKey traceKey m) node.transaction.lt]

/-- What is queued between `MULTI` and `EXEC`: the deletions, a field and a
sorted-set member per node, a field per account, and the publication. -/
def commands (c : Collected) : Except Status (List (RedisCmd V)) := do
  let writes ← c.flattenedTrace.mapM (nodeWrites codec traceKey)
  pure (c.txKeysToDelete.map (RedisCmd.hdel traceKey) ++
    c.addrKeysToDelete.map (fun k => RedisCmd.zrem k.1 k.2) ++ writes.flatten ++
    c.addrInterfaces.map (fun p => RedisCmd.hset traceKey p.1.toRaw (codec.packInterfaces p.2)) ++
    [.publish "new_trace" traceKey])

end TaskResultInserter

/-- `TaskResultInserter::start_up` for the trace `t` of id `traceId`, its reads
made on `store`: the commands its `EXEC` runs, or the error its promise gets
(nothing is written then). -/
def TaskResultInserter.startUp {V : Type} (ext : InsertExt) (codec : Codec V) (store : Redis V)
    (traceId : Bits256) (t : TraceTree) : ExceptT Status Option (List (RedisCmd V)) := do
  let traceKey := traceId.toHex
  let c ← t.nodes.foldlM (TaskResultInserter.visit codec (store.hashes traceKey) traceKey ext) ⟨[], [], [], []⟩
  ExceptT.mk (pure (TaskResultInserter.commands codec traceKey c))

end TonIndex
