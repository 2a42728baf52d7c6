import TonIndex.Emulator.McBlock
import Mathlib.Logic.Relation

set_option autoImplicit false

namespace TonIndex

/-- A node of an emulated trace: a transaction of the block, known by its root and its
in-message hash, or the subtree `TraceEmulatorImpl` returned for an out-message whose
consumer is not in the block. -/
inductive TraceNode
  | observed (transactionRoot nodeId : Bits256) (children : List TraceNode)
  | emulated (msgHash : Bits256) (destination : StdAddress)

namespace TraceNode

mutual
def observedTxs : TraceNode → List Bits256
  | .observed h _ cs => h :: observedList cs
  | .emulated _ _ => []
def observedList : List TraceNode → List Bits256
  | [] => []
  | t :: ts => t.observedTxs ++ observedList ts
end

theorem observedList_eq (ts : List TraceNode) : observedList ts = (ts.map observedTxs).flatten := by
  induction ts with
  | nil => rfl
  | cons t ts ih => simp [observedList, ih]

end TraceNode

def OutMsgInfo.slot (o : OutMsgInfo) : Option StdAddress := if o.extOut then none else o.destination

namespace TraceTailEmulator

/-- `emulate_tx` when every child's result arrives after the dispatch loop:
`byIn` is `tx_by_in_msg_hash_`, and `fuel` bounds the depth. -/
def emulateTx (byIn : StdMap Bits256 TransactionInfo) : Nat → TransactionInfo → TraceNode
  | 0, tx => .observed tx.hash tx.inMsgHash []
  | n + 1, tx => .observed tx.hash tx.inMsgHash (tx.outMsgs.filterMap fun o =>
      o.slot.map fun dest =>
        match byIn o.hash with
        | some c => emulateTx byIn n c
        | none => .emulated o.hash dest)

def Feeds (byIn : StdMap Bits256 TransactionInfo) (p c : TransactionInfo) : Prop :=
  ∃ o ∈ p.outMsgs, o.slot.isSome ∧ byIn o.hash = some c

section Pure

variable (byIn : StdMap Bits256 TransactionInfo)

theorem observed_reach : ∀ (n : Nat) (tx : TransactionInfo) (h : Bits256),
    h ∈ (emulateTx byIn n tx).observedTxs → ∃ c, Relation.ReflTransGen (Feeds byIn) tx c ∧ c.hash = h
  | 0, tx, h, hh => by
    simp only [emulateTx, TraceNode.observedTxs, TraceNode.observedList, List.mem_singleton] at hh
    exact ⟨tx, .refl, hh.symm⟩
  | n + 1, tx, h, hh => by
    simp only [emulateTx, TraceNode.observedTxs, TraceNode.observedList_eq, List.mem_cons,
      List.mem_flatten, List.mem_map, List.mem_filterMap, Option.map_eq_some'] at hh
    rcases hh with rfl | ⟨_, ⟨child, ⟨o, ho, dest, hd, rfl⟩, rfl⟩, hh⟩
    · exact ⟨tx, .refl, rfl⟩
    · split at hh
      · rename_i c hc
        obtain ⟨c', hr, rfl⟩ := observed_reach n c h hh
        exact ⟨c', .head ⟨o, ho, by simp [hd], hc⟩ hr, rfl⟩
      · simp [TraceNode.observedTxs] at hh

/-- The hypotheses under which the recursion ends: a set `S` of transactions
holding the root, closed under `Feeds` with lts growing along it, and bounded
by `L`. -/
structure Ordered (S : TransactionInfo → Prop) (L : Nat) : Prop where
  closed : ∀ p c, S p → Feeds byIn p c → S c ∧ p.lt < c.lt
  bounded : ∀ c, S c → c.lt < L

variable {byIn} {S : TransactionInfo → Prop} {L : Nat}

theorem reach_observed (ho : Ordered byIn S L) {tx c : TransactionInfo} (hs : S tx)
    (h : Relation.ReflTransGen (Feeds byIn) tx c) : ∀ n, L < tx.lt + n →
      c.hash ∈ (emulateTx byIn n tx).observedTxs := by
  induction h using Relation.ReflTransGen.head_induction_on with
  | refl => intro n _; cases n <;> simp [emulateTx, TraceNode.observedTxs]
  | head hf _ ih =>
    rename_i tx c'
    obtain ⟨o, hom, hsl, hc⟩ := hf
    obtain ⟨hs', hlt⟩ := ho.closed _ _ hs ⟨o, hom, hsl, hc⟩
    intro n hn
    have hb := ho.bounded _ hs'
    obtain ⟨m, rfl⟩ : ∃ m, n = m + 1 := ⟨n - 1, by omega⟩
    have hm := ih hs' m (by omega)
    obtain ⟨dest, hd⟩ := Option.isSome_iff_exists.1 hsl
    simp only [emulateTx, TraceNode.observedTxs, TraceNode.observedList_eq, List.mem_cons,
      List.mem_flatten, List.mem_map, List.mem_filterMap, Option.map_eq_some']
    exact .inr ⟨_, ⟨_, ⟨o, hom, dest, hd, rfl⟩, rfl⟩, by simpa [hc] using hm⟩

theorem emulateTx_fuel (ho : Ordered byIn S L) :
    ∀ (n m : Nat) (tx : TransactionInfo), S tx → L < tx.lt + n → L < tx.lt + m →
      emulateTx byIn n tx = emulateTx byIn m tx
  | 0, _, tx, hs, hn, _ => absurd (ho.bounded tx hs) (by omega)
  | _, 0, tx, hs, _, hm => absurd (ho.bounded tx hs) (by omega)
  | n + 1, m + 1, tx, hs, hn, hm => by
    simp only [emulateTx, TraceNode.observed.injEq, true_and]
    refine List.filterMap_congr fun o ho' => ?_
    cases hsl : o.slot with
    | none => rfl
    | some dest =>
      simp only [Option.map_some', Option.some.injEq]
      split
      · rename_i c hc
        obtain ⟨hs', hlt⟩ := ho.closed _ _ hs ⟨o, ho', by simp [hsl], hc⟩
        exact emulateTx_fuel ho n m c hs' (by omega) (by omega)
      · rfl

theorem Ordered.reach_mem (ho : Ordered byIn S L) {tx c : TransactionInfo} (hs : S tx)
    (h : Relation.ReflTransGen (Feeds byIn) tx c) : S c := by
  induction h with
  | refl => exact hs
  | tail _ hf ih => exact (ho.closed _ _ ih hf).1

theorem observed_iff_reach (ho : Ordered byIn S L)
    (hinj : ∀ a b, S a → S b → a.hash = b.hash → a = b) {tx c : TransactionInfo} (hs : S tx)
    (hc : S c) {n : Nat} (hn : L < tx.lt + n) :
    c.hash ∈ (emulateTx byIn n tx).observedTxs ↔ Relation.ReflTransGen (Feeds byIn) tx c := by
  refine ⟨fun h => ?_, fun h => reach_observed ho hs h n hn⟩
  obtain ⟨c', hr, he⟩ := observed_reach byIn n tx _ h
  rwa [← hinj c' c (ho.reach_mem hs hr) hc he]

end Pure

end TraceTailEmulator

namespace McBlockEmulator

open TraceTailEmulator

theorem foldl_startTrace_emulate {tx : TransactionInfo} {X : Bits256} :
    ∀ (txs : List TransactionInfo) (ids : List Bits256) (tasks : List Task),
      Task.emulate tx X ∈ (txs.foldl startTrace (ids, tasks)).2 ↔
        Task.emulate tx X ∈ tasks ∨ (X ∉ ids ∧ txs.find? (·.initialMsgHash = some X) = some tx)
  | [], ids, tasks => by simp
  | t :: rest, ids, tasks => by
    rw [List.foldl_cons, List.find?_cons]
    cases ht : t.initialMsgHash with
    | none =>
      rw [show startTrace (ids, tasks) t = (ids, tasks) by simp [startTrace, ht],
        foldl_startTrace_emulate rest]
      simp
    | some Y =>
      by_cases hY : Y ∈ ids
      · rw [show startTrace (ids, tasks) t = (ids, tasks) by simp [startTrace, ht, hY],
          foldl_startTrace_emulate rest]
        by_cases hXY : Y = X
        · subst hXY; simp [hY]
        · simp [hXY]
      · rw [show startTrace (ids, tasks) t = (ids ++ [Y], tasks ++ [.emulate t Y]) by
          simp [startTrace, ht, hY], foldl_startTrace_emulate rest]
        by_cases hXY : Y = X
        · subst hXY; simp [hY, eq_comm]
        · simp [hXY, Ne.symm hXY]

theorem emulateTraces_emulate {txs : List TransactionInfo} {tx : TransactionInfo} {X : Bits256} :
    Task.emulate tx X ∈ (emulateTraces [] txs).2 ↔ txs.find? (·.initialMsgHash = some X) = some tx := by
  simp [emulateTraces, foldl_startTrace_emulate]

theorem processTxs_unstamped (ib0 : StdMap Bits256 Bits256) (sorted : List TransactionInfo) :
    (processTxs ib0 sorted).txs.map TransactionInfo.unstamped = sorted.map TransactionInfo.unstamped := by
  suffices ∀ (rest : List TransactionInfo) (st : ProcessState),
      (rest.foldl (processTx (txsByOutMsgHash sorted)) st).txs.map TransactionInfo.unstamped =
        st.txs.map TransactionInfo.unstamped ++ rest.map TransactionInfo.unstamped from this sorted _
  intro rest
  induction rest with
  | nil => simp
  | cons c rest ih => intro st; simp [ih, processTx]

theorem processTxs_byIn {ib0 : StdMap Bits256 Bits256} {sorted : List TransactionInfo} {k : Bits256}
    {c : TransactionInfo} (h : (processTxs ib0 sorted).txByInMsgHash k = some c) :
    c ∈ (processTxs ib0 sorted).txs ∧ c.inMsgHash = k := by
  suffices ∀ (rest : List TransactionInfo) (st : ProcessState),
      (∀ k c, st.txByInMsgHash k = some c → c ∈ st.txs ∧ c.inMsgHash = k) →
      ∀ k c, (rest.foldl (processTx (txsByOutMsgHash sorted)) st).txByInMsgHash k = some c →
        c ∈ (rest.foldl (processTx (txsByOutMsgHash sorted)) st).txs ∧ c.inMsgHash = k from
    this sorted _ (by simp) k c h
  intro rest
  induction rest with
  | nil => exact fun _ h => h
  | cons t rest ih =>
    intro st hst
    refine ih _ fun k c hk => ?_
    rcases StdMap.emplace_eq_some hk with hk | ⟨rfl, -, rfl⟩
    · exact ⟨List.mem_append_left _ (hst k c hk).1, (hst k c hk).2⟩
    · exact ⟨List.mem_append_right _ (List.mem_singleton_self _), rfl⟩

/-- For every trace id `X` that `process_txs` assigns, `emulate_traces` starts one
trace, at the first stamped transaction carrying `X`, and a transaction of the block is
in it exactly when it hangs under the root. -/
theorem emulated_trace_is_reachable_part {txs sorted : List TransactionInfo} (hyp : ChainHyps txs)
    (hperm : sorted.Perm txs) (hhash : (txs.map (·.hash)).Nodup) (ib0 : StdMap Bits256 Bits256) {L : Nat}
    (hL : ∀ t ∈ txs, t.lt < L) {X : Bits256}
    (hX : ∃ t ∈ (processTxs ib0 sorted).txs, t.initialMsgHash = some X) :
    ∃ root, (∀ r, Task.emulate r X ∈ (emulateTraces [] (processTxs ib0 sorted).txs).2 ↔ r = root) ∧
      (processTxs ib0 sorted).txs.find? (·.initialMsgHash = some X) = some root ∧
      ∀ n, L < n → ∀ c ∈ (processTxs ib0 sorted).txs,
        (c.hash ∈ (emulateTx (processTxs ib0 sorted).txByInMsgHash n root).observedTxs ↔
          Relation.ReflTransGen (Feeds (processTxs ib0 sorted).txByInMsgHash) root c) := by
  have hs := hyp.perm hperm
  have hmap : (processTxs ib0 sorted).txs.map TransactionInfo.unstamped = sorted := by
    rw [processTxs_unstamped, List.map_congr_left fun t ht =>
      TransactionInfo.unstamped_of_none (hs.unstamped t ht), List.map_id']
  -- a stamped transaction is a transaction of the block with an id
  have hmem : ∀ c ∈ (processTxs ib0 sorted).txs, c.unstamped ∈ sorted := fun c hc =>
    hmap ▸ List.mem_map_of_mem _ hc
  have ho : Ordered (processTxs ib0 sorted).txByInMsgHash (· ∈ (processTxs ib0 sorted).txs) L := by
    refine ⟨fun p c hp ⟨o, hom, _, hc⟩ => ?_, fun c hc => by simpa using hL _ (hperm.subset (hmem c hc))⟩
    obtain ⟨hc', hin⟩ := processTxs_byIn hc
    have hout : c.unstamped.inMsgHash ∈ p.unstamped.outHashes := by
      simpa [hin, TransactionInfo.outHashes] using ⟨o, hom, rfl⟩
    exact ⟨hc', by simpa using hs.consumer_later _ (hmem p hp) _ (hmem c hc') hout⟩
  have hinj : ∀ a b, a ∈ (processTxs ib0 sorted).txs → b ∈ (processTxs ib0 sorted).txs →
      a.hash = b.hash → a = b := by
    have hnd : ((processTxs ib0 sorted).txs.map (·.hash)).Nodup := by
      have e : (processTxs ib0 sorted).txs.map (·.hash) =
          ((processTxs ib0 sorted).txs.map TransactionInfo.unstamped).map (·.hash) := by
        rw [List.map_map]; rfl
      rw [e, hmap]
      exact ((hperm.map _).nodup_iff).2 hhash
    exact fun a b ha hb => List.inj_on_of_nodup_map hnd ha hb
  obtain ⟨root, hroot⟩ : ∃ root, (processTxs ib0 sorted).txs.find? (·.initialMsgHash = some X) = some root := by
    obtain ⟨t, ht, hx⟩ := hX
    exact Option.isSome_iff_exists.1 (List.find?_isSome.2 ⟨t, ht, by simpa using hx⟩)
  have hrm := List.mem_of_find?_eq_some hroot
  refine ⟨root, fun r => ?_, hroot, fun n hn c hc => observed_iff_reach ho hinj hrm hc (by omega)⟩
  rw [emulateTraces_emulate, hroot, Option.some.injEq, eq_comm]

/-- Two transactions of a block, each consuming a message that an earlier
block's trace `X` sent, with no message between them. -/
def carriedTraceId : Bits256 := Bits256.ofByte 100

def carriedMsg (n : UInt8) : Bits256 := Bits256.ofByte (110 + n)

def carriedIds : StdMap Bits256 Bits256 :=
  (StdMap.empty.assign (carriedMsg 1) carriedTraceId).assign (carriedMsg 2) carriedTraceId

def siblingA : TransactionInfo := ⟨⟨0, Bits256.ofByte 121⟩, Bits256.ofByte 131, 1, carriedMsg 1, false, [], none⟩
def siblingB : TransactionInfo := ⟨⟨0, Bits256.ofByte 122⟩, Bits256.ofByte 132, 2, carriedMsg 2, false, [], none⟩

/-- Both transactions get `X`, one trace is started for `X`, at the first, and
the second is in it with no fuel whatever. -/
theorem carried_sibling_left_out :
    ChainHyps [siblingA, siblingB] ∧
      (processTxs carriedIds [siblingA, siblingB]).txs.map (·.initialMsgHash) =
        [some carriedTraceId, some carriedTraceId] ∧
      (emulateTraces [] (processTxs carriedIds [siblingA, siblingB]).txs).2 =
        [.emulate {siblingA with initialMsgHash := some carriedTraceId} carriedTraceId] ∧
      ∀ n, siblingB.hash ∉ (emulateTx (processTxs carriedIds [siblingA, siblingB]).txByInMsgHash n
        {siblingA with initialMsgHash := some carriedTraceId}).observedTxs := by
  refine ⟨⟨by decide, by decide, by decide⟩, rfl, rfl, fun n => ?_⟩
  cases n <;> simp [emulateTx, TraceNode.observedTxs, TraceNode.observedList, siblingA] <;> decide

theorem sampleBlock_trace :
    ChainHyps sampleBlockTxs ∧ ∃ root,
      (∀ r, Task.emulate r (Bits256.ofByte 41) ∈
        (emulateTraces [] (processTxs StdMap.empty (sortByLt sampleBlockTxs)).txs).2 ↔ r = root) ∧
      (processTxs StdMap.empty (sortByLt sampleBlockTxs)).txs.find?
        (·.initialMsgHash = some (Bits256.ofByte 41)) = some root ∧
      ∀ n, 3 < n → ∀ c ∈ (processTxs StdMap.empty (sortByLt sampleBlockTxs)).txs,
        (c.hash ∈ (emulateTx (processTxs StdMap.empty (sortByLt sampleBlockTxs)).txByInMsgHash n
          root).observedTxs ↔
          Relation.ReflTransGen (Feeds (processTxs StdMap.empty (sortByLt sampleBlockTxs)).txByInMsgHash)
            root c) :=
  have h : ChainHyps sampleBlockTxs := ⟨by decide, by decide, by decide⟩
  ⟨h, emulated_trace_is_reachable_part h (sortByLt_perm _) (by decide) StdMap.empty
    (by decide) (by decide)⟩

end McBlockEmulator

end TonIndex
