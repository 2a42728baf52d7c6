import TonIndex.Basic
import Mathlib.Data.List.Sort

/-!
`McBlockEmulator::process_txs`: the transactions of the new shard blocks, sorted
by lt, each get the trace id of their chain. The table of producers built before
the loop holds unstamped copies, so its rule never fires; `interblock_trace_ids_`,
written as the loop goes, does that work instead.
-/

set_option autoImplicit false

namespace TonIndex

/-- An out-message as `TraceTailEmulator::emulate_tx` reads it with
`fetch_msg_dest_address`: its hash, whether its `CommonMsgInfo` is
`ext_out_msg_info`, and its destination when that decodes. -/
structure OutMsgInfo where
  hash : Bits256
  extOut : Bool
  destination : Option StdAddress
  deriving DecidableEq

/-- `TransactionInfo` as `BlockParser::start_up` fills it; the transaction's
root cell is known by `hash`. `initialMsgHash` is the trace id, which the parser
leaves unset. -/
structure TransactionInfo where
  account : StdAddress
  hash : Bits256
  lt : Nat
  inMsgHash : Bits256
  isFirst : Bool
  outMsgs : List OutMsgInfo
  initialMsgHash : Option Bits256
  deriving DecidableEq

namespace TransactionInfo

def outHashes (tx : TransactionInfo) : List Bits256 := tx.outMsgs.map (·.hash)

def unstamped (tx : TransactionInfo) : TransactionInfo := {tx with initialMsgHash := none}

@[simp] theorem unstamped_inMsgHash (tx : TransactionInfo) : tx.unstamped.inMsgHash = tx.inMsgHash := rfl
@[simp] theorem unstamped_outHashes (tx : TransactionInfo) : tx.unstamped.outHashes = tx.outHashes := rfl

@[simp] theorem unstamped_lt (tx : TransactionInfo) : tx.unstamped.lt = tx.lt := rfl
@[simp] theorem unstamped_hash (tx : TransactionInfo) : tx.unstamped.hash = tx.hash := rfl

theorem unstamped_of_none {tx : TransactionInfo} (h : tx.initialMsgHash = none) : tx.unstamped = tx := by
  cases tx; simp_all [unstamped]

end TransactionInfo

namespace McBlockEmulator

/-- `txs_by_out_msg_hash`: each out-message hash to a copy of its producer,
taken before the loop; `insert` keeps the first. -/
def txsByOutMsgHash (txs : List TransactionInfo) : StdMap Bits256 TransactionInfo :=
  txs.foldl (fun m tx => tx.outMsgs.foldl (fun m o => m.emplace o.hash tx) m) StdMap.empty

/-- The trace id the loop gives `tx`, or `none` where it logs that the
transaction will be skipped. -/
def traceIdOf (byOutMsg : StdMap Bits256 TransactionInfo) (interblock : StdMap Bits256 Bits256)
    (tx : TransactionInfo) : Option Bits256 :=
  if tx.isFirst then some tx.inMsgHash
  else match (byOutMsg tx.inMsgHash).bind (·.initialMsgHash) with
    | some h => some h
    | none => interblock tx.inMsgHash

def stamp (byOutMsg : StdMap Bits256 TransactionInfo) (interblock : StdMap Bits256 Bits256)
    (tx : TransactionInfo) : TransactionInfo :=
  match traceIdOf byOutMsg interblock tx with
  | some h => {tx with initialMsgHash := some h}
  | none => tx

def recordOutMsgs (interblock : StdMap Bits256 Bits256) (tx : TransactionInfo) (traceId : Bits256) :
    StdMap Bits256 Bits256 :=
  tx.outMsgs.foldl (fun m o => m.assign o.hash traceId) interblock

structure ProcessState where
  txs : List TransactionInfo
  interblockTraceIds : StdMap Bits256 Bits256
  txByInMsgHash : StdMap Bits256 TransactionInfo

def processTx (byOutMsg : StdMap Bits256 TransactionInfo) (st : ProcessState) (tx : TransactionInfo) :
    ProcessState :=
  let tx := stamp byOutMsg st.interblockTraceIds tx
  { txs := st.txs ++ [tx]
    interblockTraceIds := match tx.initialMsgHash with
      | some traceId => recordOutMsgs st.interblockTraceIds tx traceId
      | none => st.interblockTraceIds
    txByInMsgHash := st.txByInMsgHash.emplace tx.inMsgHash tx }

/-- `process_txs` from the point where `txs_` is sorted: `sorted` is `txs_` in
the order `std::sort` left it, which among equal lts is unspecified. -/
def processTxs (interblock : StdMap Bits256 Bits256) (sorted : List TransactionInfo) : ProcessState :=
  sorted.foldl (processTx (txsByOutMsgHash sorted)) ⟨[], interblock, StdMap.empty⟩

def sortByLt (txs : List TransactionInfo) : List TransactionInfo :=
  txs.insertionSort fun a b => a.lt ≤ b.lt

theorem sortByLt_perm (txs : List TransactionInfo) : (sortByLt txs).Perm txs :=
  List.perm_insertionSort _ _

theorem sortByLt_sorted (txs : List TransactionInfo) :
    (sortByLt txs).Pairwise fun a b => a.lt ≤ b.lt :=
  haveI : IsTotal TransactionInfo fun a b => a.lt ≤ b.lt := ⟨fun _ _ => Nat.le_total _ _⟩
  haveI : IsTrans TransactionInfo fun a b => a.lt ≤ b.lt := ⟨fun _ _ _ => Nat.le_trans⟩
  List.sorted_insertionSort _ _

theorem stamp_eq (b : StdMap Bits256 TransactionInfo) (ib : StdMap Bits256 Bits256)
    (tx : TransactionInfo) :
    stamp b ib tx = {tx with initialMsgHash := (traceIdOf b ib tx).or tx.initialMsgHash} := by
  unfold stamp; split <;> simp_all

@[simp] theorem stamp_inMsgHash (b : StdMap Bits256 TransactionInfo) (ib : StdMap Bits256 Bits256)
    (tx : TransactionInfo) : (stamp b ib tx).inMsgHash = tx.inMsgHash := by
  rw [stamp_eq]

@[simp] theorem stamp_outHashes (b : StdMap Bits256 TransactionInfo) (ib : StdMap Bits256 Bits256)
    (tx : TransactionInfo) : (stamp b ib tx).outHashes = tx.outHashes := by
  rw [stamp_eq]; rfl

@[simp] theorem stamp_isFirst (b : StdMap Bits256 TransactionInfo) (ib : StdMap Bits256 Bits256)
    (tx : TransactionInfo) : (stamp b ib tx).isFirst = tx.isFirst := by
  rw [stamp_eq]

@[simp] theorem unstamped_stamp (b : StdMap Bits256 TransactionInfo) (ib : StdMap Bits256 Bits256)
    (tx : TransactionInfo) : (stamp b ib tx).unstamped = tx.unstamped := by
  rw [stamp_eq]; rfl

theorem recordOutMsgs_apply (ib : StdMap Bits256 Bits256) (tx : TransactionInfo) (h k : Bits256) :
    recordOutMsgs ib tx h k = if k ∈ tx.outHashes then some h else ib k := by
  unfold recordOutMsgs TransactionInfo.outHashes
  induction tx.outMsgs generalizing ib with
  | nil => simp
  | cons o os ih =>
    rw [List.foldl_cons, ih]
    by_cases hk : k = o.hash <;> simp [hk, StdMap.assign]

theorem txsByOutMsgHash_mem {txs : List TransactionInfo} {k : Bits256} {p : TransactionInfo}
    (h : txsByOutMsgHash txs k = some p) : p ∈ txs := by
  have inner : ∀ (tx : TransactionInfo) (os : List OutMsgInfo) (m : StdMap Bits256 TransactionInfo),
      (os.foldl (fun m o => m.emplace o.hash tx) m) k = some p → m k = some p ∨ p = tx := by
    intro tx os
    induction os with
    | nil => exact fun _ h => .inl h
    | cons o os ih =>
      intro m h
      rcases ih _ h with h | h
      · rcases StdMap.emplace_eq_some h with h | ⟨-, -, rfl⟩
        exacts [.inl h, .inr rfl]
      · exact .inr h
  have outer : ∀ (txs : List TransactionInfo) (m : StdMap Bits256 TransactionInfo),
      (txs.foldl (fun m tx => tx.outMsgs.foldl (fun m o => m.emplace o.hash tx) m) m) k = some p →
        m k = some p ∨ p ∈ txs := by
    intro txs
    induction txs with
    | nil => exact fun _ h => .inl h
    | cons tx txs ih =>
      intro m h
      rcases ih _ h with h | h
      · rcases inner tx _ m h with h | rfl
        exacts [.inl h, .inr (List.mem_cons_self _ _)]
      · exact .inr (List.mem_cons_of_mem _ h)
  simpa using outer txs StdMap.empty h

theorem traceIdOf_of_unstamped {b : StdMap Bits256 TransactionInfo} {ib : StdMap Bits256 Bits256}
    {tx : TransactionInfo} (hb : ∀ p, b tx.inMsgHash = some p → p.initialMsgHash = none) :
    traceIdOf b ib tx = if tx.isFirst then some tx.inMsgHash else ib tx.inMsgHash := by
  unfold traceIdOf
  cases hp : b tx.inMsgHash with
  | none => rfl
  | some p => simp [hb p hp]

section Loop

variable (ib0 : StdMap Bits256 Bits256)

/-- What the loop establishes about the transactions it has stamped, `acc`, and the
interblock map it has written, `ib`, from `ib0`. -/
structure TraceIdsAssigned (acc : List TransactionInfo) (ib : StdMap Bits256 Bits256) : Prop where
  first : ∀ t ∈ acc, t.isFirst = true → t.initialMsgHash = some t.inMsgHash
  inherit : ∀ p ∈ acc, ∀ c ∈ acc, c.isFirst = false → c.inMsgHash ∈ p.outHashes →
    p.initialMsgHash.isSome → c.initialMsgHash = p.initialMsgHash
  recorded : ∀ p ∈ acc, ∀ h, p.initialMsgHash = some h → ∀ k ∈ p.outHashes, ib k = some h
  frame : ∀ k, (∀ p ∈ acc, p.initialMsgHash.isSome → k ∉ p.outHashes) → ib k = ib0 k
  skipped : ∀ c ∈ acc, c.initialMsgHash = none → c.isFirst = false ∧
    (∀ p ∈ acc, c.inMsgHash ∈ p.outHashes → p.initialMsgHash = none) ∧ ib0 c.inMsgHash = none

theorem traceIdsAssigned_nil : TraceIdsAssigned ib0 [] ib0 :=
  ⟨by simp, by simp, by simp, fun _ _ => rfl, by simp⟩

variable {ib0}

theorem TraceIdsAssigned.step {acc : List TransactionInfo} {ib : StdMap Bits256 Bits256}
    {b : StdMap Bits256 TransactionInfo} {c : TransactionInfo} (byIn : StdMap Bits256 TransactionInfo)
    (hi : TraceIdsAssigned ib0 acc ib) (hb : ∀ p, b c.inMsgHash = some p → p.initialMsgHash = none)
    (hc : c.initialMsgHash = none) (hlater : ∀ p ∈ acc, p.inMsgHash ∉ c.outHashes)
    (hself : c.inMsgHash ∉ c.outHashes) (hdisj : ∀ p ∈ acc, ∀ k ∈ p.outHashes, k ∉ c.outHashes) :
    let st := processTx b ⟨acc, ib, byIn⟩ c
    TraceIdsAssigned ib0 st.txs st.interblockTraceIds := by
  set c' := stamp b ib c with hc'
  have hid : c'.initialMsgHash = if c.isFirst then some c.inMsgHash else ib c.inMsgHash := by
    simp [hc', stamp_eq, traceIdOf_of_unstamped hb, hc]
  -- the interblock map after the pass, key by key
  have hib : ∀ k, (match c'.initialMsgHash with
      | some h => recordOutMsgs ib c' h | none => ib) k =
        if k ∈ c.outHashes then c'.initialMsgHash.or (ib k) else ib k := by
    intro k
    cases c'.initialMsgHash <;> simp [recordOutMsgs_apply, hc']
  -- an in-message produced by a stamped transaction reads its id from the map
  have hread : ∀ p ∈ acc, c.inMsgHash ∈ p.outHashes → p.initialMsgHash.isSome →
      ib c.inMsgHash = p.initialMsgHash := fun p hp hk hs => by
    obtain ⟨h, hh⟩ := Option.isSome_iff_exists.1 hs
    rw [hi.recorded p hp h hh _ hk, hh]
  show TraceIdsAssigned ib0 (acc ++ [c']) (match c'.initialMsgHash with
    | some h => recordOutMsgs ib c' h | none => ib)
  refine ⟨?first, ?inherit, ?recorded, ?frame, ?skipped⟩
  case first =>
    intro t ht hf
    rcases List.mem_append.1 ht with ht | ht
    · exact hi.first t ht hf
    · obtain rfl := List.mem_singleton.1 ht
      rw [hid, if_pos (by simpa [hc'] using hf), hc', stamp_inMsgHash]
  case inherit =>
    intro p hp c₁ hc₁ hf hk hs
    rcases List.mem_append.1 hp with hp | hp <;> rcases List.mem_append.1 hc₁ with hc₁ | hc₁
    · exact hi.inherit p hp c₁ hc₁ hf hk hs
    · obtain rfl := List.mem_singleton.1 hc₁
      simp only [stamp_isFirst, stamp_inMsgHash, hc'] at hf hk
      rw [hid, if_neg (by simp [hf]), hread p hp hk hs]
    · obtain rfl := List.mem_singleton.1 hp
      exact absurd (by simpa [hc'] using hk) (hlater c₁ hc₁)
    · obtain rfl := List.mem_singleton.1 hp
      obtain rfl := List.mem_singleton.1 hc₁
      exact absurd (by simpa [hc'] using hk) hself
  case recorded =>
    intro p hp h hh k hk
    rw [hib]
    rcases List.mem_append.1 hp with hp | hp
    · rw [if_neg (hdisj p hp k hk)]
      exact hi.recorded p hp h hh k hk
    · obtain rfl := List.mem_singleton.1 hp
      simp only [hc', stamp_outHashes] at hk
      rw [if_pos hk, hh]; rfl
  case frame =>
    intro k hk
    have hacc : ∀ p ∈ acc, p.initialMsgHash.isSome → k ∉ p.outHashes :=
      fun p hp => hk p (List.mem_append_left _ hp)
    rw [hib, ← hi.frame k hacc]
    split
    · have hnone : c'.initialMsgHash = none := by
        by_contra hs
        exact hk c' (by simp) (Option.isSome_iff_ne_none.2 hs) (by simpa [hc'])
      rw [hnone]; rfl
    · rfl
  case skipped =>
    intro c₁ hc₁ hn
    rcases List.mem_append.1 hc₁ with hc₁ | hc₁
    · obtain ⟨hf, hprod, h0⟩ := hi.skipped c₁ hc₁ hn
      refine ⟨hf, fun p hp hk => ?_, h0⟩
      rcases List.mem_append.1 hp with hp | hp
      · exact hprod p hp hk
      · obtain rfl := List.mem_singleton.1 hp
        exact absurd (by simpa [hc'] using hk) (hlater c₁ hc₁)
    · obtain rfl := List.mem_singleton.1 hc₁
      have hf : c.isFirst = false := by
        cases hcf : c.isFirst <;> simp_all
      have hibn : ib c.inMsgHash = none := by simpa [hid, hf] using hn
      have hprod : ∀ p ∈ acc, c.inMsgHash ∈ p.outHashes → p.initialMsgHash = none :=
        fun p hp hk => by
          by_contra hs
          have := hread p hp hk (Option.isSome_iff_ne_none.2 hs)
          simp_all
      refine ⟨by simpa [hc'], fun p hp hk => ?_, ?_⟩
      · rcases List.mem_append.1 hp with hp | hp
        · exact hprod p hp (by simpa [hc'] using hk)
        · obtain rfl := List.mem_singleton.1 hp
          exact absurd (by simpa [hc'] using hk) hself
      · have h0 := hi.frame c.inMsgHash fun p hp hs hk => by simp [hprod p hp hk] at hs
        rw [hc', stamp_inMsgHash, ← h0, hibn]

/-- The hypotheses of chain identification, on the transactions as the parser
produced them: no trace id yet, out-message hashes pairwise distinct, and every
consumer of an in-block message later than its producer. -/
structure ChainHyps (txs : List TransactionInfo) : Prop where
  unstamped : ∀ t ∈ txs, t.initialMsgHash = none
  outs_nodup : (txs.flatMap TransactionInfo.outHashes).Nodup
  consumer_later : ∀ p ∈ txs, ∀ c ∈ txs, c.inMsgHash ∈ p.outHashes → p.lt < c.lt

theorem ChainHyps.perm {txs sorted : List TransactionInfo} (h : ChainHyps txs) (hp : sorted.Perm txs) :
    ChainHyps sorted :=
  ⟨fun t ht => h.unstamped t (hp.mem_iff.1 ht),
   ((hp.flatMap_right _).nodup_iff).2 h.outs_nodup,
   fun p hp' c hc => h.consumer_later p (hp.mem_iff.1 hp') c (hp.mem_iff.1 hc)⟩

theorem ChainHyps.no_forward {sorted : List TransactionInfo} (h : ChainHyps sorted)
    (hsort : sorted.Pairwise fun a b => a.lt ≤ b.lt) :
    sorted.Pairwise fun a b => a.inMsgHash ∉ b.outHashes :=
  hsort.imp_of_mem fun ha hb hab hk => absurd (h.consumer_later _ hb _ ha hk) (by omega)

theorem ChainHyps.not_self {sorted : List TransactionInfo} (h : ChainHyps sorted) {c : TransactionInfo}
    (hc : c ∈ sorted) : c.inMsgHash ∉ c.outHashes :=
  fun hk => lt_irrefl _ (h.consumer_later c hc c hc hk)

theorem traceIdsAssigned_foldl {sorted : List TransactionInfo} (hs : ChainHyps sorted)
    (hpair : sorted.Pairwise fun a b => a.inMsgHash ∉ b.outHashes) :
    ∀ (rest acc : List TransactionInfo) (ib : StdMap Bits256 Bits256)
      (byIn : StdMap Bits256 TransactionInfo),
      acc.map TransactionInfo.unstamped ++ rest = sorted → TraceIdsAssigned ib0 acc ib →
      let st := rest.foldl (processTx (txsByOutMsgHash sorted)) ⟨acc, ib, byIn⟩
      st.txs.map TransactionInfo.unstamped = sorted ∧ TraceIdsAssigned ib0 st.txs st.interblockTraceIds := by
  intro rest
  induction rest with
  | nil => intro acc ib byIn heq hi; exact ⟨by simpa using heq, hi⟩
  | cons c rest ih =>
    intro acc ib byIn heq hi
    have hc : c ∈ sorted := heq ▸ List.mem_append_right _ (List.mem_cons_self _ _)
    have hlater : ∀ p ∈ acc, p.inMsgHash ∉ c.outHashes := fun p hp => by
      rw [← heq, List.pairwise_append] at hpair
      simpa using hpair.2.2 _ (List.mem_map_of_mem _ hp) c (List.mem_cons_self _ _)
    have hdisj : ∀ p ∈ acc, ∀ k ∈ p.outHashes, k ∉ c.outHashes := fun p hp k hk hk' => by
      have hnd := hs.outs_nodup
      rw [← heq, List.flatMap_append, List.nodup_append] at hnd
      exact hnd.2.2 (List.mem_flatMap.2 ⟨_, List.mem_map_of_mem _ hp, by simpa using hk⟩)
        (by simp [List.flatMap_cons, hk'])
    refine ih _ _ _ ?_ (hi.step byIn (fun p hp => hs.unstamped p (txsByOutMsgHash_mem hp))
      (hs.unstamped c hc) hlater (hs.not_self hc) hdisj)
    simpa [TransactionInfo.unstamped_of_none (hs.unstamped c hc)] using heq

/-- A chain of in-block messages from `r` to `c`, each consumed by a
transaction whose in-message is not external. -/
inductive InBlockChain (txs : List TransactionInfo) (r : TransactionInfo) : TransactionInfo → Prop
  | root : r ∈ txs → InBlockChain txs r r
  | next {p c : TransactionInfo} : InBlockChain txs r p → c ∈ txs → c.isFirst = false →
      c.inMsgHash ∈ p.outHashes → InBlockChain txs r c

theorem TraceIdsAssigned.chain {acc : List TransactionInfo} {ib : StdMap Bits256 Bits256}
    (hi : TraceIdsAssigned ib0 acc ib) {r c : TransactionInfo} (hr : r.isFirst = true)
    (h : InBlockChain acc r c) : c ∈ acc ∧ c.initialMsgHash = some r.inMsgHash := by
  induction h with
  | root hm => exact ⟨hm, hi.first r hm hr⟩
  | next _ hc hf hk ih =>
    exact ⟨hc, (hi.inherit _ ih.1 _ hc hf hk (by simp [ih.2])).trans ih.2⟩

end Loop

/-- `process_txs` stamps a block's transactions, in every order `std::sort` may leave
them, as chain identification prescribes: roots take their in-message hash, consumers
their producer's id, out-messages are recorded in the interblock map, and a transaction
stays unstamped only when no rule applies. -/
theorem processTxs_assigns_chain_ids {txs sorted : List TransactionInfo} (hyp : ChainHyps txs)
    (hperm : sorted.Perm txs) (hsort : sorted.Pairwise fun a b => a.lt ≤ b.lt)
    (ib0 : StdMap Bits256 Bits256) :
    (processTxs ib0 sorted).txs.map TransactionInfo.unstamped = sorted ∧
      TraceIdsAssigned ib0 (processTxs ib0 sorted).txs (processTxs ib0 sorted).interblockTraceIds ∧
      ∀ r c, r.isFirst = true → InBlockChain (processTxs ib0 sorted).txs r c →
        c.initialMsgHash = some r.inMsgHash := by
  have hs := hyp.perm hperm
  obtain ⟨h1, h2⟩ := traceIdsAssigned_foldl hs (hs.no_forward hsort) sorted [] ib0 StdMap.empty rfl
    (traceIdsAssigned_nil ib0)
  exact ⟨h1, h2, fun r c hr hc => (h2.chain hr hc).2⟩

def sampleBlockTxs : List TransactionInfo :=
  [⟨⟨0, Bits256.ofByte 21⟩, Bits256.ofByte 31, 2, Bits256.ofByte 42, false, [], none⟩,
   ⟨⟨0, Bits256.ofByte 20⟩, Bits256.ofByte 30, 1, Bits256.ofByte 41, true,
     [⟨Bits256.ofByte 42, false, some ⟨0, Bits256.ofByte 21⟩⟩], none⟩]

theorem sampleBlock_trace_ids :
    ChainHyps sampleBlockTxs ∧
      (processTxs StdMap.empty (sortByLt sampleBlockTxs)).txs.map TransactionInfo.unstamped =
        sortByLt sampleBlockTxs ∧
      TraceIdsAssigned StdMap.empty (processTxs StdMap.empty (sortByLt sampleBlockTxs)).txs
        (processTxs StdMap.empty (sortByLt sampleBlockTxs)).interblockTraceIds ∧
      ∀ r c, r.isFirst = true → InBlockChain (processTxs StdMap.empty (sortByLt sampleBlockTxs)).txs r c →
        c.initialMsgHash = some r.inMsgHash :=
  have h : ChainHyps sampleBlockTxs := ⟨by decide, by decide, by decide⟩
  ⟨h, processTxs_assigns_chain_ids h (sortByLt_perm _) (sortByLt_sorted _) StdMap.empty⟩

end McBlockEmulator

end TonIndex
