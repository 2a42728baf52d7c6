import TonIndex.Redis.Overlap

set_option autoImplicit false

namespace TonIndex

inductive TraceNodeShort
  | mk (transactionHash : Bits256) (inMsgHash : Option Bits256) (children : List TraceNodeShort)

def base64Digit (n : Nat) : Char :=
  "ABCDEFGHIJKLMNOPQRSTUVWXYZabcdefghijklmnopqrstuvwxyz0123456789+/".toList.getD n 'A'

/-- `base64.StdEncoding`: four digits per three bytes, the last group padded with `=`. -/
def base64Encode : List UInt8 → List Char
  | [] => []
  | [a] => [base64Digit (a.toNat / 4), base64Digit (a.toNat % 4 * 16), '=', '=']
  | [a, b] => [base64Digit (a.toNat / 4), base64Digit (a.toNat % 4 * 16 + b.toNat / 16),
      base64Digit (b.toNat % 16 * 4), '=']
  | a :: b :: c :: rest => base64Digit (a.toNat / 4) :: base64Digit (a.toNat % 4 * 16 + b.toNat / 16) ::
      base64Digit (b.toNat % 16 * 4 + c.toNat / 64) :: base64Digit (c.toNat % 64) :: base64Encode rest

theorem length_base64Encode (bs : List UInt8) : (base64Encode bs).length = 4 * ((bs.length + 2) / 3) := by
  induction bs using base64Encode.induct with
  | case1 => rfl
  | case2 => simp [base64Encode]
  | case3 => simp [base64Encode]
  | case4 a b c rest ih => simp only [base64Encode, List.length_cons, ih]; omega

/-- The field the reader looks a child up by: `base64.StdEncoding.EncodeToString(outMsg.Hash[:])`. -/
def childKey (h : Bits256) : String := ⟨base64Encode h.bytes⟩

@[simp] theorem length_childKey (h : Bits256) : (childKey h).length = 44 := by
  simp [childKey, String.length, length_base64Encode, h.length_bytes]

/-- Go's `hset[k]`: a missing field reads as the empty string. -/
def goLookup (hset : RHash String) (k : String) : String := (hset.get k).getD ""

section Reader

variable (codec : Codec String) (hset : RHash String)

/-- `convertNode`: the node, then the child under each out-message's key, in
order; a child that is not there is skipped. The outer `Option` is `none` for a
recursion that does not end; the fuel is the number of fields. -/
def convertNode : Nat → String → StdMap Bits256 TxRecord →
    ExceptT String Option (TraceNodeShort × StdMap Bits256 TxRecord)
  | 0, _, _ => ExceptT.lift none
  | n + 1, nodeBytes, txMap =>
    match codec.unpackNode nodeBytes with
    | .error e => throw ("failed to unmarshal node: " ++ e)
    | .ok node => do
      let txMap := txMap.assign node.transaction.hash node.transaction
      let (children, txMap) ← node.transaction.outMsgs.foldlM (fun acc h =>
          match hset.get (childKey h) with
          | none => pure acc
          | some childBytes => do
            let r ← (convertNode n childBytes acc.2).tryCatch
              fun e => throw ("failed to convert child node: " ++ e)
            pure (acc.1 ++ [r.1], r.2))
        (([] : List TraceNodeShort), txMap)
      pure (.mk node.transaction.hash node.transaction.inMsg children, txMap)

/-- `ConvertHsetToTraceNodeShort`: the tree and the transaction map. -/
def convertHsetToTraceNodeShort : ExceptT String Option (TraceNodeShort × StdMap Bits256 TxRecord) :=
  let traceId := goLookup hset "root_node"
  let rootNodeBytes := goLookup hset traceId
  if rootNodeBytes = "" then throw "root node not found"
  else (convertNode codec hset (hset.fields.length + 1) rootNodeBytes StdMap.empty).tryCatch
    fun e => throw ("failed to convert root node: " ++ e)

end Reader

/-- A field name `TaskResultInserter` writes: a node's in-message hash in hex,
or an account's raw address. -/
def WrittenField (f : String) : Prop := (∃ m : Bits256, f = m.toHex) ∨ ∃ a : StdAddress, f = a.toRaw

theorem WrittenField.length {f : String} (h : WrittenField f) : f.length = 64 ∨ 65 ≤ f.length := by
  rcases h with ⟨m, rfl⟩ | ⟨a, rfl⟩
  · simp
  · have : (":" : String).length = 1 := rfl
    right; simp only [StdAddress.toRaw, String.length_append, Bits256.length_toHex, this]; omega

theorem mapM_ok_mem {α β ε : Type} {f : α → Except ε β} :
    ∀ {l : List α} {ys : List β}, l.mapM f = .ok ys → ∀ y ∈ ys, ∃ x ∈ l, f x = .ok y
  | [], ys, h, y, hy => by cases h; cases hy
  | x :: l, ys, h, y, hy => by
    rw [List.mapM_cons] at h
    cases hx : f x with
    | error e => simp only [hx, bind, Except.bind] at h; cases h
    | ok b =>
      cases hl : l.mapM f with
      | error e => simp only [hx, hl, bind, Except.bind] at h; cases h
      | ok bs =>
        simp only [hx, hl, bind, Except.bind, pure, Except.pure, Except.ok.injEq] at h
        subst h
        rcases List.mem_cons.1 hy with rfl | hy
        · exact ⟨x, List.mem_cons_self _ _, hx⟩
        · obtain ⟨x', hx', hf⟩ := mapM_ok_mem hl y hy
          exact ⟨x', List.mem_cons_of_mem _ hx', hf⟩

namespace TaskResultInserter

variable {V : Type} {codec : Codec V} {traceKey : String}

theorem commands_hset_field {c : Collected} {cmds : List (RedisCmd V)}
    (h : commands codec traceKey c = .ok cmds) {k f : String} {v : V} (hc : RedisCmd.hset k f v ∈ cmds) :
    WrittenField f := by
  cases hw : c.flattenedTrace.mapM (nodeWrites codec traceKey) with
  | error e => simp only [commands, hw, bind, Except.bind] at h; cases h
  | ok writes =>
    simp only [commands, hw, bind, Except.bind, pure, Except.pure, Except.ok.injEq] at h
    subst h
    simp only [List.mem_append, List.mem_map, List.mem_flatten, List.mem_singleton] at hc
    rcases hc with (((⟨_, _, h⟩ | ⟨_, _, h⟩) | ⟨w, hw', hc⟩) | ⟨p, _, h⟩) | h
    · cases h
    · cases h
    · obtain ⟨node, -, hn⟩ := mapM_ok_mem hw w hw'
      unfold nodeWrites at hn
      split at hn
      · cases hn
      · cases hn
        rcases List.mem_cons.1 hc with hc | hc
        · cases hc; exact .inl ⟨_, rfl⟩
        · cases List.mem_singleton.1 hc
    · cases h; exact .inr ⟨_, rfl⟩
    · cases h

theorem startUp_commands {ext : InsertExt} {store : Redis V} {traceId : Bits256} {t : TraceTree}
    {cmds : List (RedisCmd V)} (h : (startUp ext codec store traceId t).run = some (.ok cmds)) :
    ∃ c, commands codec traceId.toHex c = .ok cmds := by
  unfold startUp at h
  simp only [ExceptT.run_bind] at h
  cases hc : (t.nodes.foldlM (visit codec (store.hashes traceId.toHex) traceId.toHex ext)
      ⟨[], [], [], []⟩).run with
  | none => simp [hc] at h
  | some r =>
    cases r with
    | error e => simp [hc] at h
    | ok c => simp [hc, ExceptT.mk] at h; exact ⟨c, Option.some.inj h⟩

end TaskResultInserter

theorem Redis.exec_get {V : Type} {k f : String} :
    ∀ {r : Redis V} {cmds : List (RedisCmd V)}, ((r.exec cmds).hashes k).get f ≠ none →
      (r.hashes k).get f ≠ none ∨ ∃ v, RedisCmd.hset k f v ∈ cmds
  | _, [], h => .inl h
  | r, cmd :: cmds, h => by
    rcases @Redis.exec_get V k f (r.apply cmd) cmds h with h | ⟨v, hv⟩
    · cases cmd with
      | hset k' f' v =>
        by_cases hk : k = k' <;> by_cases hf : f = f' <;>
          simp_all [Redis.apply, Redis.updHash]
      | hdel k' f' =>
        by_cases hk : k = k' <;> simp_all [Redis.apply, Redis.updHash]
      | _ => exact .inl h
    · exact .inr ⟨v, List.mem_cons_of_mem _ hv⟩

theorem inserted_field {V : Type} {ext : InsertExt} {codec : Codec V} {traceId : Bits256}
    {t : TraceTree} {cmds : List (RedisCmd V)}
    (h : (TaskResultInserter.startUp ext codec Redis.empty traceId t).run = some (.ok cmds))
    {f : String} (hf : ((Redis.empty.exec cmds).hashes traceId.toHex).get f ≠ none) : WrittenField f := by
  obtain ⟨c, hc⟩ := TaskResultInserter.startUp_commands h
  rcases Redis.exec_get hf with h | ⟨v, hv⟩
  · exact absurd rfl h
  · exact TaskResultInserter.commands_hset_field hc hv

theorem childKey_not_written {V : Type} {ext : InsertExt} {codec : Codec V} {traceId : Bits256}
    {t : TraceTree} {cmds : List (RedisCmd V)}
    (h : (TaskResultInserter.startUp ext codec Redis.empty traceId t).run = some (.ok cmds))
    (m : Bits256) : ((Redis.empty.exec cmds).hashes traceId.toHex).get (childKey m) = none := by
  by_contra hf
  have := (inserted_field h hf).length
  simp at this

/-- On every trace `TaskResultInserter` has written into an empty store, the
reader fails: there is no `root_node` field, and no field named by the empty
string. -/
theorem reader_misses_inserted_root {ext : InsertExt} {codec : Codec String} {traceId : Bits256}
    {t : TraceTree} {cmds : List (RedisCmd String)}
    (h : (TaskResultInserter.startUp ext codec Redis.empty traceId t).run = some (.ok cmds)) :
    (convertHsetToTraceNodeShort codec ((Redis.empty.exec cmds).hashes traceId.toHex)).run =
      some (.error "root node not found") := by
  have absent : ∀ f : String, f.length < 64 →
      ((Redis.empty.exec cmds).hashes traceId.toHex).get f = none := fun f hl => by
    by_contra hf
    have := (inserted_field h hf).length
    omega
  have hroot : goLookup ((Redis.empty.exec cmds).hashes traceId.toHex) "root_node" = "" := by
    simp [goLookup, absent "root_node" (by decide)]
  have hempty : goLookup ((Redis.empty.exec cmds).hashes traceId.toHex) "" = "" := by
    simp [goLookup, absent "" (by decide)]
  simp only [convertHsetToTraceNodeShort, hroot, hempty]
  rfl

def hashCodec : Codec String where
  packNode n := n.transaction.hash.toHex
  packInterfaces _ := ""
  unpackNode _ := .error "msgpack: invalid code"

def sampleInsertCommands : List (RedisCmd String) :=
  match (TaskResultInserter.startUp TaskResultInserter.sampleInsertExt hashCodec Redis.empty
      TaskResultInserter.sampleTraceId (TaskResultInserter.sampleTrees .a)).run with
  | some (.ok cmds) => cmds
  | _ => []

theorem sampleTrace_reader_misses_root :
    (TaskResultInserter.startUp TaskResultInserter.sampleInsertExt hashCodec Redis.empty
        TaskResultInserter.sampleTraceId (TaskResultInserter.sampleTrees .a)).run =
      some (.ok sampleInsertCommands) ∧
    (convertHsetToTraceNodeShort hashCodec
        ((Redis.empty.exec sampleInsertCommands).hashes TaskResultInserter.sampleTraceId.toHex)).run =
      some (.error "root node not found") :=
  have h : (TaskResultInserter.startUp TaskResultInserter.sampleInsertExt hashCodec Redis.empty
      TaskResultInserter.sampleTraceId (TaskResultInserter.sampleTrees .a)).run =
      some (.ok sampleInsertCommands) := rfl
  ⟨h, reader_misses_inserted_root h⟩

end TonIndex
