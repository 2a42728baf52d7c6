import TonIndex.Emulator.TailActor

set_option autoImplicit false

namespace TonIndex

namespace TraceTailEmulator

open State

section Slots

variable (byIn : StdMap Bits256 TransactionInfo) (E : TransactionInfo → TraceNode)

/-- The subtree the slot of an out-message is to get: the tree `E` of its
consumer in the block, or the emulated node. -/
def slotTree (o : OutMsgInfo) : Option TraceNode :=
  o.slot.map fun dest =>
    match byIn o.hash with
    | some c => E c
    | none => .emulated o.hash dest

def slots (tx : TransactionInfo) : List TraceNode := tx.outMsgs.filterMap (slotTree byIn E)

theorem emulateTx_succ (n : Nat) (tx : TransactionInfo) :
    emulateTx byIn (n + 1) tx = .observed tx.hash tx.inMsgHash (slots byIn (emulateTx byIn n) tx) := rfl

end Slots

def Target.isSlot (k i : Nat) : Target → Bool
  | .root => false
  | .child k' i' => k' == k && i' == i

def Target.isOf (k : Nat) : Target → Bool
  | .root => false
  | .child k' _ => k' == k

@[simp] theorem isSlot_child (k i j i' : Nat) : (Target.child k i).isSlot j i' = (k == j && i == i') := rfl
@[simp] theorem isOf_child (k i j : Nat) : (Target.child k i).isOf j = (k == j) := rfl

namespace State

def owedAt (s : State) (k i : Nat) : Nat :=
  s.requests.countP (fun r => r.node == k && r.childInd == i) +
    s.mailbox.countP (fun e => e.2.isSlot k i) + s.nodes.countP (fun q => !q.fired && q.target.isSlot k i)

def owed (s : State) (k : Nat) : Nat :=
  s.requests.countP (fun r => r.node == k) + s.mailbox.countP (fun e => e.2.isOf k) +
    s.nodes.countP (fun q => !q.fired && q.target.isOf k)

end State

theorem owedAt_le_owed (s : State) (k i : Nat) : s.owedAt k i ≤ s.owed k := by
  have h₁ : s.requests.countP (fun r => r.node == k && r.childInd == i) ≤
      s.requests.countP (fun r => r.node == k) :=
    List.countP_mono_left fun r _ h => by simp_all
  have h₂ : s.mailbox.countP (fun e => e.2.isSlot k i) ≤ s.mailbox.countP (fun e => e.2.isOf k) :=
    List.countP_mono_left fun e _ h => by
      rcases e with ⟨_, _ | ⟨k', i'⟩⟩ <;> simp_all [Target.isSlot, Target.isOf]
  have h₃ : s.nodes.countP (fun q => !q.fired && q.target.isSlot k i) ≤
      s.nodes.countP (fun q => !q.fired && q.target.isOf k) :=
    List.countP_mono_left fun q _ h => by
      rcases hq : q.target with _ | ⟨k', i'⟩ <;> simp_all [Target.isSlot, Target.isOf]
  unfold owedAt owed
  omega

section Count

variable {α : Type} (P : α → Bool)

theorem countP_set_eq {l : List α} {k : Nat} {a b : α} (hk : l[k]? = some a) (h : P b = P a) :
    (l.set k b).countP P = l.countP P := by
  obtain ⟨hlt, rfl⟩ := List.getElem?_eq_some_iff.1 hk
  have hle : (if P l[k] = true then 1 else 0) ≤ l.countP P := by
    split
    · exact List.countP_pos_iff.2 ⟨_, List.getElem_mem _, ‹_›⟩
    · exact Nat.zero_le _
  rw [List.countP_set _ _ _ _ hlt, h]
  omega

theorem countP_set_drop {l : List α} {k : Nat} {a : α} (b : α) (hk : l[k]? = some a) (hb : P b = false) :
    (l.set k b).countP P + (if P a = true then 1 else 0) = l.countP P := by
  obtain ⟨hlt, rfl⟩ := List.getElem?_eq_some_iff.1 hk
  have hle : (if P l[k] = true then 1 else 0) ≤ l.countP P := by
    split
    · exact List.countP_pos_iff.2 ⟨_, List.getElem_mem _, ‹_›⟩
    · exact Nat.zero_le _
  rw [List.countP_set _ _ _ _ hlt, hb, if_neg Bool.false_ne_true]
  omega

theorem countP_modify_eq (f : α → α) (hf : ∀ a, P (f a) = P a) :
    ∀ (k : Nat) (l : List α), (l.modify f k).countP P = l.countP P
  | 0, [] | _ + 1, [] => rfl
  | 0, a :: l => by simp [List.modify_zero_cons, List.countP_cons, hf]
  | k + 1, a :: l => by simp [List.modify_succ_cons, List.countP_cons, countP_modify_eq f hf k l]

end Count

def holeAt (hole : Target) (k i : Nat) : Nat := if hole.isSlot k i then 1 else 0

def holeOf (hole : Target) (k : Nat) : Nat := if hole.isOf k then 1 else 0

@[simp] theorem holeAt_root (k i : Nat) : holeAt .root k i = 0 := rfl
@[simp] theorem holeOf_root (k : Nat) : holeOf .root k = 0 := rfl

theorem holeAt_ne {hole : Target} {k i : Nat} (h : hole.isOf k = false) : holeAt hole k i = 0 := by
  cases hole <;> simp_all [holeAt, Target.isSlot, Target.isOf]

theorem holeOf_ne {hole : Target} {k : Nat} (h : hole.isOf k = false) : holeOf hole k = 0 := by
  simp [holeOf, h]

theorem isOf_child_ne {k i j : Nat} (h : j ≠ k) : (Target.child k i).isOf j = false := by
  simp [Target.isOf, Ne.symm h]

section Owed

variable {s s' : State}

theorem owed_set_eq {k : Nat} {p q : NodeObj} (hk : s.nodes[k]? = some p) (hn : s'.nodes = s.nodes.set k q)
    (hm : s'.mailbox = s.mailbox) (hr : s'.requests = s.requests) (ht : q.target = p.target)
    (hf : q.fired = p.fired) : (∀ j i, s'.owedAt j i = s.owedAt j i) ∧ ∀ j, s'.owed j = s.owed j := by
  refine ⟨fun j i => ?_, fun j => ?_⟩ <;> simp only [owedAt, owed, hn, hm, hr] <;>
    rw [countP_set_eq _ hk (by simp [ht, hf])]

theorem owed_set_fire {k : Nat} {p q : NodeObj} (hk : s.nodes[k]? = some p) (hn : s'.nodes = s.nodes.set k q)
    (hm : s'.mailbox = s.mailbox) (hr : s'.requests = s.requests) (hp : p.fired = false) (hq : q.fired = true) :
    (∀ j i, s'.owedAt j i + holeAt p.target j i = s.owedAt j i) ∧
      ∀ j, s'.owed j + holeOf p.target j = s.owed j := by
  refine ⟨fun j i => ?_, fun j => ?_⟩
  · have h := countP_set_drop (fun q => !q.fired && q.target.isSlot j i) q hk (by simp [hq])
    simp only [hp, Bool.not_false, Bool.true_and] at h
    simp only [owedAt, holeAt, hn, hm, hr]
    omega
  · have h := countP_set_drop (fun q => !q.fired && q.target.isOf j) q hk (by simp [hq])
    simp only [hp, Bool.not_false, Bool.true_and] at h
    simp only [owed, holeOf, hn, hm, hr]
    omega

theorem owed_answer {pre post : List Request} {r : Request} (hq : s.requests = pre ++ r :: post) :
    (∀ j i, ({ s with requests := pre ++ post } : State).owedAt j i + holeAt (.child r.node r.childInd) j i =
      s.owedAt j i) ∧
    ∀ j, ({ s with requests := pre ++ post } : State).owed j + holeOf (.child r.node r.childInd) j = s.owed j := by
  refine ⟨fun j i => ?_, fun j => ?_⟩ <;>
    simp only [owedAt, owed, holeAt, holeOf, hq, List.countP_append, List.countP_cons, Target.isSlot, Target.isOf] <;>
    omega

end Owed

def isEmptySlot (l : List (Option TraceNode)) (i : Nat) : Bool :=
  match l[i]? with
  | some none => true
  | _ => false

def NodeObj.place (p : NodeObj) : Target × TransactionInfo := (p.target, p.tx)

def SamePlaces (s s' : State) : Prop :=
  ∀ k : Nat, (s'.nodes[k]?).map NodeObj.place = (s.nodes[k]?).map NodeObj.place

section Places

variable {s s' : State}

theorem NodesAlike.samePlaces (h : NodesAlike s s') : SamePlaces s s' := fun k => by
  have e := congrArg (Option.map fun x : Bool × Nat × Target × TransactionInfo => (x.2.2.1, x.2.2.2)) (h.shape k)
  simpa only [Option.map_map] using e

theorem samePlaces_set {k : Nat} {p q : NodeObj} (hk : s.nodes[k]? = some p) (hn : s'.nodes = s.nodes.set k q)
    (hq : q.place = p.place) : SamePlaces s s' := fun j => by
  rw [hn, List.getElem?_set]
  split_ifs with h h'
  · subst h; simp [hk, hq]
  · exact absurd (List.getElem?_eq_some_iff.1 hk).1 h'
  · rfl

theorem SamePlaces.node (h : SamePlaces s s') {k : Nat} {p : NodeObj} (hk : s.nodes[k]? = some p) :
    ∃ p', s'.nodes[k]? = some p' ∧ p'.target = p.target ∧ p'.tx = p.tx := by
  have e := h k
  rw [hk] at e
  cases hk' : s'.nodes[k]? with
  | none => simp [hk'] at e
  | some p' =>
    simp only [hk', Option.map_some', Option.some.injEq, NodeObj.place, Prod.mk.injEq] at e
    exact ⟨p', rfl, e⟩

theorem SamePlaces.node' (h : SamePlaces s s') {k : Nat} {p' : NodeObj} (hk : s'.nodes[k]? = some p') :
    ∃ p, s.nodes[k]? = some p ∧ p'.target = p.target ∧ p'.tx = p.tx := by
  have e := h k
  rw [hk] at e
  cases hk' : s.nodes[k]? with
  | none => simp [hk'] at e
  | some p =>
    simp only [hk', Option.map_some', Option.some.injEq, NodeObj.place, Prod.mk.injEq] at e
    exact ⟨p, rfl, e⟩

end Places

section Invariant

variable (byIn : StdMap Bits256 TransactionInfo) (E : TransactionInfo → TraceNode)
  (S : TransactionInfo → Prop) (tx : TransactionInfo)

/-- What no callback changes: every node's transaction is in `S`, node `0` is the root
and the only one whose promise goes to `start_up`, parents come before children, and
every promise is to bring the subtree its slot is to get. -/
structure Placed (s : State) : Prop where
  inS : ∀ (k : Nat) (p : NodeObj), s.nodes[k]? = some p → S p.tx
  root : ∀ (m : Nat) (q : NodeObj), s.nodes[m]? = some q → (q.target = .root ↔ m = 0)
  rootTx : ∀ q : NodeObj, s.nodes[0]? = some q → q.tx = tx
  parentLt : ∀ (m : Nat) (q : NodeObj) (k i : Nat), s.nodes[m]? = some q → q.target = .child k i → k < m
  made : ∀ (m : Nat) (q : NodeObj) (k i : Nat), s.nodes[m]? = some q → q.target = .child k i →
    ∃ p, s.nodes[k]? = some p ∧ (slots byIn E p.tx)[i]? = some (E q.tx)
  queued : ∀ e ∈ s.mailbox, S e.1 ∧ ∃ k i p, e.2 = .child k i ∧ s.nodes[k]? = some p ∧
    (slots byIn E p.tx)[i]? = some (E e.1)
  asked : ∀ r ∈ s.requests, ∃ p, s.nodes[r.node]? = some p ∧
    (slots byIn E p.tx)[r.childInd]? = some (.emulated r.msgHash r.destination)

/-- The counts, with the promise for `hole` out of the state: a node waits on the
promises owed to it, a slot of a finished loop is owed a promise exactly while empty and
otherwise holds its subtree, and `promise_` got the tree `E` of `tx`. -/
structure Counted (s : State) (hole : Target) : Prop where
  pending : ∀ (k : Nat) (p : NodeObj), s.nodes[k]? = some p → p.fired = false →
    p.pending = s.owed k + holeOf hole k
  closed : ∀ (k : Nat) (p : NodeObj), s.nodes[k]? = some p → p.fired = false → p.guarded = false →
    p.children.length = (slots byIn E p.tx).length ∧
      ∀ i : Nat, s.owedAt k i + holeAt hole k i = if isEmptySlot p.children i then 1 else 0
  filled : ∀ (k : Nat) (p : NodeObj), s.nodes[k]? = some p → p.fired = false → p.guarded = false →
    ∀ (i : Nat) (t : TraceNode), p.children[i]? = some (some t) → (slots byIn E p.tx)[i]? = some t
  frame : ∀ f : Frame, s.running = some f → ∃ p pre, s.nodes[f.node]? = some p ∧ p.children = [] ∧
    p.tx.outMsgs = pre ++ f.rest ∧ (pre.filterMap (slotTree byIn E)).length = f.childInd ∧
    (p.fired = false → ∀ i : Nat, s.owedAt f.node i + holeAt hole f.node i = if i < f.childInd then 1 else 0)
  result : ∀ t : TraceNode, s.result = some (.ok t) → t = E tx

def FuelFor (n : Nat) : Target → Prop
  | .root => True
  | .child k _ => k < n

def Brings (s : State) (v : TraceNode) : Target → Prop
  | .root => v = E tx
  | .child k i => ∃ p, s.nodes[k]? = some p ∧ (slots byIn E p.tx)[i]? = some v

variable {byIn E S tx} {s s' : State}

theorem Placed.of_places (h : Placed byIn E S tx s) (hp : SamePlaces s s') (hm : ∀ e ∈ s'.mailbox, e ∈ s.mailbox)
    (hr : ∀ r ∈ s'.requests, r ∈ s.requests) : Placed byIn E S tx s' where
  inS k p' hk := by
    obtain ⟨p, hp', -, e⟩ := hp.node' hk
    exact e ▸ h.inS k p hp'
  root m q' hq := by
    obtain ⟨q, hq', e, -⟩ := hp.node' hq
    rw [e]
    exact h.root m q hq'
  rootTx q' hq := by
    obtain ⟨q, hq', -, e⟩ := hp.node' hq
    rw [e]
    exact h.rootTx q hq'
  parentLt m q' k i hq ht := by
    obtain ⟨q, hq', e, -⟩ := hp.node' hq
    exact h.parentLt m q k i hq' (e ▸ ht)
  made m q' k i hq ht := by
    obtain ⟨q, hq', e, et⟩ := hp.node' hq
    obtain ⟨p, hk, hsl⟩ := h.made m q k i hq' (e ▸ ht)
    obtain ⟨p', hk', -, e'⟩ := hp.node hk
    exact ⟨p', hk', by rw [e', et]; exact hsl⟩
  queued e he := by
    obtain ⟨hS, k, i, p, ht, hk, hsl⟩ := h.queued e (hm e he)
    obtain ⟨p', hk', -, e'⟩ := hp.node hk
    exact ⟨hS, k, i, p', ht, hk', e' ▸ hsl⟩
  asked r hr' := by
    obtain ⟨p, hk, hsl⟩ := h.asked r (hr r hr')
    obtain ⟨p', hk', -, e'⟩ := hp.node hk
    exact ⟨p', hk', e' ▸ hsl⟩

theorem isEmptySlot_set_self (l : List (Option TraceNode)) (i : Nat) (t : TraceNode) :
    isEmptySlot (l.set i (some t)) i = false := by
  simp only [isEmptySlot, List.getElem?_set_self']
  cases l[i]? <;> rfl

theorem isEmptySlot_set_ne (l : List (Option TraceNode)) {i j : Nat} (t : TraceNode) (h : i ≠ j) :
    isEmptySlot (l.set i (some t)) j = isEmptySlot l j := by
  simp only [isEmptySlot, List.getElem?_set_ne h]

theorem Counted.children_eq {hole : Target} (hc : Counted byIn E tx s hole) {k : Nat} {p : NodeObj}
    (hk : s.nodes[k]? = some p) (hf : p.fired = false) (hg : p.guarded = false) (ho : s.owed k = 0)
    (hh : hole.isOf k = false) : p.children = (slots byIn E p.tx).map some := by
  obtain ⟨hlen, hcnt⟩ := hc.closed k p hk hf hg
  apply List.ext_getElem?
  intro i
  have hi := hcnt i
  have h0 : s.owedAt k i = 0 := by have := owedAt_le_owed s k i; omega
  rw [h0, holeAt_ne hh] at hi
  rw [List.getElem?_map]
  cases h : p.children[i]? with
  | none =>
    rw [List.getElem?_eq_none (hlen ▸ List.getElem?_eq_none_iff.1 h)]
    rfl
  | some x =>
    cases x with
    | none => simp [isEmptySlot, h] at hi
    | some t => rw [hc.filled k p hk hf hg i t h]; rfl

theorem Counted.fire {hole : Target} {s₁ : State} (hc : Counted byIn E tx s hole) {k : Nat}
    (hh : ∀ j, j ≠ k → hole.isOf j = false) {q q₁ : NodeObj} (hk : s.nodes[k]? = some q)
    (hq : q.fired = false) (hn : s₁.nodes = s.nodes.set k q₁) (hq₁ : q₁.fired = true) (ht : q₁.tx = q.tx)
    (hch : q₁.children = q.children) (hr : s₁.running = s.running) (hm : s₁.mailbox = s.mailbox)
    (hrq : s₁.requests = s.requests) (hres : s₁.result = s.result) : Counted byIn E tx s₁ q.target := by
  obtain ⟨hAt, hOf⟩ := owed_set_fire hk hn hm hrq hq hq₁
  have hlt : k < s.nodes.length := (List.getElem?_eq_some_iff.1 hk).1
  -- every node but `k` is as it was
  have hget : ∀ {j : Nat} {p : NodeObj}, s₁.nodes[j]? = some p → p.fired = false →
      j ≠ k ∧ s.nodes[j]? = some p :=
    fun {j p} hj hf => by
      rcases getElem?_set_eq_some (hn ▸ hj) with ⟨-, rfl⟩ | ⟨h, hj⟩
      · simp [hq₁] at hf
      · exact ⟨Ne.symm h, hj⟩
  refine ⟨fun j p hj hf => ?_, fun j p hj hf hg => ?_, fun j p hj hf hg => ?_, fun f hf => ?_, ?_⟩
  · obtain ⟨hne, hj'⟩ := hget hj hf
    have := hOf j
    rw [hc.pending j p hj' hf, holeOf_ne (hh j hne)]
    omega
  · obtain ⟨hne, hj'⟩ := hget hj hf
    refine ⟨(hc.closed j p hj' hf hg).1, fun i => ?_⟩
    have h₁ := (hc.closed j p hj' hf hg).2 i
    have h₂ : holeAt hole j i = 0 := holeAt_ne (hh j hne)
    have h₃ := hAt j i
    omega
  · exact hc.filled j p (hget hj hf).2 hf hg
  · obtain ⟨p, pre, hp, hpc, hpre, hlen, hcnt⟩ := hc.frame f (hr ▸ hf)
    by_cases hfk : f.node = k
    · subst hfk
      rw [hk, Option.some.injEq] at hp
      subst hp
      refine ⟨q₁, pre, by rw [hn, List.getElem?_set_self hlt], hch.trans hpc, by rw [ht]; exact hpre, hlen, ?_⟩
      simp [hq₁]
    · refine ⟨p, pre, by rw [hn, List.getElem?_set_ne (Ne.symm hfk)]; exact hp, hpc, hpre, hlen, fun hpf i => ?_⟩
      have h₁ := hcnt hpf i
      have h₂ : holeAt hole f.node i = 0 := holeAt_ne (hh _ hfk)
      have h₃ := hAt f.node i
      omega
  · exact hres ▸ hc.result

theorem Counted.answer (hc : Counted byIn E tx s .root) {pre post : List Request} {r : Request}
    (hq : s.requests = pre ++ r :: post) :
    Counted byIn E tx { s with requests := pre ++ post } (.child r.node r.childInd) := by
  obtain ⟨hAt, hOf⟩ := owed_answer hq
  refine ⟨fun j p hj hf => ?_, fun j p hj hf hg => ⟨(hc.closed j p hj hf hg).1, fun i => ?_⟩,
    hc.filled, fun f hf => ?_, hc.result⟩
  · have := hOf j
    rw [hc.pending j p hj hf, holeOf_root]
    omega
  · have := hAt j i
    have := (hc.closed j p hj hf hg).2 i
    simp only [holeAt_root, Nat.add_zero] at this
    omega
  · obtain ⟨p, pre', hp, hpc, hpre, hlen, hcnt⟩ := hc.frame f hf
    refine ⟨p, pre', hp, hpc, hpre, hlen, fun hpf i => ?_⟩
    have := hAt f.node i
    have := hcnt hpf i
    simp only [holeAt_root, Nat.add_zero] at this
    omega

theorem Counted.write {k i : Nat} {v : TraceNode} {p : NodeObj} (hc : Counted byIn E tx s (.child k i))
    (hk : s.nodes[k]? = some p) (hf : p.fired = false) (hg : p.guarded = false)
    (hv : (slots byIn E p.tx)[i]? = some v) (hrun : ∀ f, s.running = some f → f.node ≠ k)
    (hn : s'.nodes = s.nodes.set k { p with children := p.children.set i (some v), pending := p.pending - 1 })
    (hr : s'.running = s.running) (hm : s'.mailbox = s.mailbox) (hrq : s'.requests = s.requests)
    (hres : s'.result = s.result) : Counted byIn E tx s' .root := by
  obtain ⟨hAt, hOf⟩ := owed_set_eq hk hn hm hrq rfl rfl
  obtain ⟨hlen, hcnt⟩ := hc.closed k p hk hf hg
  -- the slot was empty, and nothing else is owed to it
  have hslot : s.owedAt k i = 0 ∧ isEmptySlot p.children i = true := by
    have h := hcnt i
    simp only [holeAt, Target.isSlot, beq_self_eq_true, Bool.and_self, if_true] at h
    split at h
    · exact ⟨by omega, ‹_›⟩
    · omega
  have hi : i < p.children.length := by
    by_contra h
    have h' := hslot.2
    simp [isEmptySlot, List.getElem?_eq_none (Nat.le_of_not_lt h)] at h'
  refine ⟨fun j q hj hqf => ?_, fun j q hj hqf hqg => ?_, fun j q hj hqf hqg i' t ht => ?_, fun f hf' => ?_, ?_⟩
  · rcases getElem?_set_eq_some (hn ▸ hj) with ⟨rfl, rfl⟩ | ⟨hkj, hj⟩
    · have h := hc.pending _ p hk hf
      simp only [holeOf, Target.isOf, beq_self_eq_true, if_true] at h
      simp only [holeOf_root, hOf]
      omega
    · rw [hc.pending j q hj hqf, hOf, holeOf_ne (isOf_child_ne (Ne.symm hkj))]; rfl
  · rcases getElem?_set_eq_some (hn ▸ hj) with ⟨rfl, rfl⟩ | ⟨hkj, hj⟩
    · refine ⟨by simp [hlen], fun i' => ?_⟩
      rw [hAt, holeAt_root, Nat.add_zero]
      by_cases hii : i = i'
      · subst hii
        rw [hslot.1, isEmptySlot_set_self]; rfl
      · have h := hcnt i'
        simp only [holeAt, Target.isSlot, beq_self_eq_true, Bool.true_and, beq_iff_eq, hii, if_false,
          Nat.add_zero] at h
        rw [isEmptySlot_set_ne _ _ hii, h]
    · have h := (hc.closed j q hj hqf hqg).2
      refine ⟨(hc.closed j q hj hqf hqg).1, fun i' => ?_⟩
      rw [hAt, holeAt_root, Nat.add_zero, ← h i', holeAt_ne (isOf_child_ne (Ne.symm hkj)), Nat.add_zero]
  · rcases getElem?_set_eq_some (hn ▸ hj) with ⟨rfl, rfl⟩ | ⟨hkj, hj⟩
    · by_cases hii : i = i'
      · subst hii
        rw [List.getElem?_set_self hi, Option.some.injEq, Option.some.injEq] at ht
        exact ht ▸ hv
      · rw [List.getElem?_set_ne hii] at ht
        exact hc.filled _ p hk hf hg i' t ht
    · exact hc.filled j q hj hqf hqg i' t ht
  · obtain ⟨q, pre, hq, hqc, hpre, hl, hcq⟩ := hc.frame f (hr ▸ hf')
    have hfk : k ≠ f.node := fun h => hrun f (hr ▸ hf') h.symm
    refine ⟨q, pre, by rw [hn, List.getElem?_set_ne hfk]; exact hq, hqc, hpre, hl, fun hqf i' => ?_⟩
    rw [hAt, holeAt_root, Nat.add_zero, ← hcq hqf i', holeAt_ne (isOf_child_ne (Ne.symm hfk)), Nat.add_zero]
  · exact hres ▸ hc.result

theorem Counted.set_fired {hole : Target} {k : Nat} {p q : NodeObj} (hc : Counted byIn E tx s hole)
    (hh : ∀ j, j ≠ k → hole.isOf j = false) (hk : s.nodes[k]? = some p) (hf : p.fired = true)
    (hn : s'.nodes = s.nodes.set k q) (hq : q.fired = true) (ht : q.target = p.target) (htx : q.tx = p.tx)
    (hch : ∀ f, s.running = some f → f.node = k → q.children = p.children) (hr : s'.running = s.running)
    (hm : s'.mailbox = s.mailbox) (hrq : s'.requests = s.requests) (hres : s'.result = s.result) :
    Counted byIn E tx s' .root := by
  obtain ⟨hAt, hOf⟩ := owed_set_eq hk hn hm hrq ht (hq.trans hf.symm)
  have hlt : k < s.nodes.length := (List.getElem?_eq_some_iff.1 hk).1
  have hget : ∀ {j : Nat} {p' : NodeObj}, s'.nodes[j]? = some p' → p'.fired = false →
      j ≠ k ∧ s.nodes[j]? = some p' :=
    fun {j p'} hj hf' => by
      rcases getElem?_set_eq_some (hn ▸ hj) with ⟨-, rfl⟩ | ⟨h, hj⟩
      · simp [hq] at hf'
      · exact ⟨Ne.symm h, hj⟩
  refine ⟨fun j p' hj hf' => ?_, fun j p' hj hf' hg => ?_, fun j p' hj hf' hg => ?_, fun f hf' => ?_,
    hres ▸ hc.result⟩
  · obtain ⟨hne, hj'⟩ := hget hj hf'
    rw [hc.pending j p' hj' hf', holeOf_ne (hh j hne), hOf]; rfl
  · obtain ⟨hne, hj'⟩ := hget hj hf'
    refine ⟨(hc.closed j p' hj' hf' hg).1, fun i => ?_⟩
    rw [hAt, ← (hc.closed j p' hj' hf' hg).2 i, holeAt_ne (hh j hne)]; rfl
  · exact hc.filled j p' (hget hj hf').2 hf' hg
  · obtain ⟨p', pre, hp', hpc, hpre, hl, hcnt⟩ := hc.frame f (hr ▸ hf')
    by_cases hfk : f.node = k
    · subst hfk
      rw [hk, Option.some.injEq] at hp'
      subst hp'
      refine ⟨q, pre, by rw [hn, List.getElem?_set_self hlt], (hch f (hr ▸ hf') rfl).trans hpc,
        by rw [htx]; exact hpre, hl, ?_⟩
      simp [hq]
    · refine ⟨p', pre, by rw [hn, List.getElem?_set_ne (Ne.symm hfk)]; exact hp', hpc, hpre, hl, fun hpf i => ?_⟩
      rw [hAt, ← hcnt hpf i, holeAt_ne (hh _ hfk)]; rfl

theorem Counted.of_absent {k i : Nat} (hc : Counted byIn E tx s (.child k i)) (hk : s.nodes[k]? = none) :
    Counted byIn E tx s .root := by
  have hne : ∀ {j : Nat} {p : NodeObj}, s.nodes[j]? = some p → (Target.child k i).isOf j = false :=
    fun {j p} hj => by
      simp only [Target.isOf, beq_eq_false_iff_ne]
      rintro rfl
      rw [hk] at hj
      cases hj
  refine ⟨fun j p hj hf => ?_, fun j p hj hf hg => ?_, hc.filled, fun f hf => ?_, hc.result⟩
  · rw [hc.pending j p hj hf, holeOf_ne (hne hj), holeOf_root]
  · refine ⟨(hc.closed j p hj hf hg).1, fun i' => ?_⟩
    rw [← (hc.closed j p hj hf hg).2 i', holeAt_ne (hne hj), holeAt_root]
  · obtain ⟨p, pre, hp, hpc, hpre, hl, hcnt⟩ := hc.frame f hf
    refine ⟨p, pre, hp, hpc, hpre, hl, fun hpf i => ?_⟩
    rw [← hcnt hpf i, holeAt_ne (hne hp), holeAt_root]

theorem Counted.with_result {hole : Target} (hc : Counted byIn E tx s hole) (res : Except Status TraceNode)
    (h : ∀ t, res = .ok t → t = E tx) : Counted byIn E tx { s with result := some res } hole :=
  ⟨hc.pending, hc.closed, hc.filled, hc.frame, fun t ht => h t (Option.some.inj ht)⟩

theorem deliver_root (n : Nat) (res : Except Status TraceNode) (s : State) :
    deliver n .root res s = { s with result := some res } := by
  cases n <;> rfl

theorem Placed.fuelFor (hpl : Placed byIn E S tx s) {k n : Nat} {p : NodeObj} (hk : s.nodes[k]? = some p)
    (hn : k ≤ n) : FuelFor n p.target := by
  cases ht : p.target with
  | root => trivial
  | child j i => have := hpl.parentLt k p j i hk ht; simp only [FuelFor]; omega

theorem deliver_error_counted (e : Status) : ∀ (n : Nat) (tgt : Target) (s : State), Placed byIn E S tx s →
    Counted byIn E tx s tgt → FuelFor n tgt → Counted byIn E tx (deliver n tgt (.error e) s) .root
  | n, .root, s, _, hc, _ => by rw [deliver_root]; exact hc.with_result _ (by simp)
  | 0, .child _ _, _, _, _, hn => absurd hn (Nat.not_lt_zero _)
  | n + 1, .child k i, s, hpl, hc, hn => by
    simp only [deliver]
    split
    · exact hc.of_absent ‹_›
    · rename_i p hk
      split
      · exact hc.set_fired (fun _ => isOf_child_ne) hk ‹_› rfl rfl rfl rfl (fun _ _ _ => rfl) rfl rfl rfl rfl
      · have hf : p.fired = false := by simpa using ‹¬p.fired = true›
        exact deliver_error_counted e n p.target _
          (hpl.of_places (samePlaces_set hk rfl rfl) (fun _ h => h) (fun _ h => h))
          (hc.fire (fun _ => isOf_child_ne) hk hf rfl rfl rfl rfl rfl rfl rfl rfl)
          (hpl.fuelFor hk (Nat.lt_succ_iff.1 hn))

theorem Counted.tree_eq (hE : ∀ c, S c → E c = .observed c.hash c.inMsgHash (slots byIn E c))
    (hc : Counted byIn E tx s .root) (hpl : Placed byIn E S tx s) {k : Nat} {p : NodeObj}
    (hk : s.nodes[k]? = some p) (hf : p.fired = false) (hg : p.guarded = false) (h0 : p.pending = 0) :
    p.tree = E p.tx := by
  have ho : s.owed k = 0 := by have := hc.pending k p hk hf; simp only [holeOf_root] at this; omega
  rw [NodeObj.tree, hc.children_eq hk hf hg ho rfl, List.filterMap_map, hE _ (hpl.inS k p hk)]
  simp

theorem Placed.brings (hpl : Placed byIn E S tx s) {k : Nat} {p : NodeObj} (hk : s.nodes[k]? = some p) :
    Brings byIn E tx s (E p.tx) p.target := by
  cases ht : p.target with
  | root => exact congrArg E (hpl.rootTx p (((hpl.root k p hk).1 ht) ▸ hk))
  | child j i => exact hpl.made k p j i hk ht

theorem Brings.of_places {s' : State} {v : TraceNode} (hp : SamePlaces s s') :
    ∀ {tgt : Target}, Brings byIn E tx s v tgt → Brings byIn E tx s' v tgt
  | .root, h => h
  | .child _ _, ⟨p, hk, hsl⟩ => by
    obtain ⟨p', hk', -, e⟩ := hp.node hk
    exact ⟨p', hk', e ▸ hsl⟩

theorem deliver_ok_counted (hE : ∀ c, S c → E c = .observed c.hash c.inMsgHash (slots byIn E c)) :
    ∀ (n : Nat) (tgt : Target) (v : TraceNode) (s : State), Placed byIn E S tx s → Counted byIn E tx s tgt →
      Sized s → InBounds s tgt → Brings byIn E tx s v tgt → FuelFor n tgt →
      Counted byIn E tx (deliver n tgt (.ok v) s) .root
  | n, .root, v, s, _, hc, _, _, hv, _ => by
    rw [deliver_root]
    exact hc.with_result _ fun t h => (Except.ok.inj h) ▸ hv
  | 0, .child _ _, _, _, _, _, _, _, _, hn => absurd hn (Nat.not_lt_zero _)
  | n + 1, .child k i, v, s, hpl, hc, hsz, ⟨p, hk, hg, _⟩, ⟨p₀, hk₀, hv⟩, hn => by
    rw [hk, Option.some.injEq] at hk₀
    subst hk₀
    have hrun : ∀ f, s.running = some f → f.node ≠ k := fun f hf h => by
      obtain ⟨p', hp', hg'⟩ := hsz.running f hf
      rw [h, hk, Option.some.injEq] at hp'
      subst hp'
      simp [hg] at hg'
    have hlt : k < s.nodes.length := (List.getElem?_eq_some_iff.1 hk).1
    simp only [deliver, hk]
    split
    · rename_i hcond
      have hf : p.fired = false := hcond.2.2
      -- the slot is written; the node is owed nothing more, so it hands on its tree
      have hw : Counted byIn E tx
          { s with
            outOfBounds := s.outOfBounds || decide (p.children.length ≤ i)
            nodes := s.nodes.set k { p with children := p.children.set i (some v), pending := p.pending - 1 } }
          .root := hc.write hk hf hg hv hrun rfl rfl rfl rfl rfl
      have hplw : Placed byIn E S tx
          { s with
            outOfBounds := s.outOfBounds || decide (p.children.length ≤ i)
            nodes := s.nodes.set k { p with children := p.children.set i (some v), pending := p.pending - 1 } } :=
        hpl.of_places (samePlaces_set hk rfl rfl) (fun _ h => h) (fun _ h => h)
      have htree := hw.tree_eq hE hplw (List.getElem?_set_self hlt) hf hg hcond.1
      have ha : NodesAlike s
          { s with
            outOfBounds := s.outOfBounds || decide (p.children.length ≤ i)
            nodes := s.nodes.set k
              { p with children := p.children.set i (some v), pending := p.pending - 1, fired := true } } :=
        nodesAlike_set hk rfl (by simp [NodeObj.shape]) (by simp)
      have hfire : Counted byIn E tx
          { s with
            outOfBounds := s.outOfBounds || decide (p.children.length ≤ i)
            nodes := s.nodes.set k
              { p with children := p.children.set i (some v), pending := p.pending - 1, fired := true } }
          ({ p with children := p.children.set i (some v), pending := p.pending - 1 } : NodeObj).target :=
        hw.fire (fun _ _ => rfl) (List.getElem?_set_self hlt) hf (List.set_set _ _ _ _).symm rfl rfl rfl rfl
          rfl rfl rfl
      refine deliver_ok_counted hE n p.target _ _ (hpl.of_places ha.samePlaces (fun _ h => h) (fun _ h => h))
        hfire (hsz.settles ⟨ha, rfl, rfl, rfl⟩) (ha.inBounds (hsz.made k p hk hf)) ?_
        (hpl.fuelFor hk (Nat.lt_succ_iff.1 hn))
      rw [htree]
      exact (hpl.brings hk).of_places ha.samePlaces
    · by_cases hf : p.fired = true
      · exact hc.set_fired (fun _ => isOf_child_ne) hk hf rfl hf rfl rfl (fun f hf' h => absurd h (hrun f hf'))
          rfl rfl rfl rfl
      · exact hc.write hk (by simpa using hf) hg hv hrun rfl rfl rfl rfl rfl

theorem Placed.owed_absent (hpl : Placed byIn E S tx s) {k : Nat} (hk : s.nodes[k]? = none) : s.owed k = 0 := by
  have hne : ∀ {p : NodeObj}, s.nodes[k]? ≠ some p := fun h => by rw [hk] at h; cases h
  have hlen : s.nodes.length ≤ k := List.getElem?_eq_none_iff.1 hk
  simp only [owed, Nat.add_eq_zero, List.countP_eq_zero]
  refine ⟨⟨fun r hr h => ?_, fun e he h => ?_⟩, fun q hq h => ?_⟩
  · obtain ⟨p, hp, -⟩ := hpl.asked r hr
    simp only [beq_iff_eq] at h
    exact hne (h ▸ hp)
  · obtain ⟨-, k', i, p, he', hp, -⟩ := hpl.queued e he
    simp only [he', Target.isOf, beq_iff_eq] at h
    exact hne (h ▸ hp)
  · obtain ⟨m, hm, rfl⟩ := List.getElem_of_mem hq
    simp only [Bool.and_eq_true, Bool.not_eq_true'] at h
    rcases ht : (s.nodes[m]).target with _ | ⟨k', i⟩ <;> simp only [ht, Target.isOf, beq_iff_eq] at h
    · exact Bool.false_ne_true h.2
    · have := hpl.parentLt m _ k' i (List.getElem?_eq_getElem hm) ht
      omega

theorem owed_dispatch {c : TransactionInfo} {tgt : Target} {rest : List (TransactionInfo × Target)}
    (hm : s.mailbox = (c, tgt) :: rest) :
    (∀ j i, ({ s with mailbox := rest }.beginEmulate c tgt).owedAt j i = s.owedAt j i) ∧
      ∀ j, ({ s with mailbox := rest }.beginEmulate c tgt).owed j = s.owed j := by
  refine ⟨fun j i => ?_, fun j => ?_⟩ <;>
    simp only [owedAt, owed, beginEmulate, hm, List.countP_cons, List.countP_append, List.countP_nil,
      Bool.not_false, Bool.true_and] <;> omega

theorem Placed.deliver (hpl : Placed byIn E S tx s) (n : Nat) (tgt : Target) (res : Except Status TraceNode) :
    Placed byIn E S tx (deliver n tgt res s) :=
  have h := deliver_settles n tgt res s
  hpl.of_places h.samePlaces (fun _ he => h.mailbox ▸ he) (fun _ hr => h.requests ▸ hr)

theorem getElem?_snoc {α : Type} {l : List α} {x y : α} {j : Nat} :
    (l ++ [x])[j]? = some y ↔ l[j]? = some y ∨ (j = l.length ∧ x = y) := by
  by_cases h : j < l.length
  · rw [List.getElem?_append_left h]
    exact ⟨.inl, fun h' => h'.elim id fun ⟨hj, _⟩ => absurd hj (Nat.ne_of_lt h)⟩
  · rw [List.getElem?_append_right (Nat.le_of_not_lt h), List.getElem?_eq_none (Nat.le_of_not_lt h)]
    cases hj : j - l.length with
    | zero => simp only [List.getElem?_cons_zero, Option.some.injEq]; constructor <;> intro h' <;> simp_all; omega
    | succ m => simp; omega

theorem init_node {k : Nat} {p : NodeObj} :
    (State.init tx).nodes[k]? = some p ↔ k = 0 ∧ p = ⟨tx, [], .root, 0, true, false⟩ := by
  cases k with
  | zero =>
    simp only [State.init, beginEmulate, List.nil_append, List.getElem?_cons_zero, Option.some.injEq]
    constructor
    · rintro rfl; simp
    · rintro ⟨-, rfl⟩; rfl
  | succ k => simp [State.init, beginEmulate]

theorem Placed.init (h : S tx) : Placed byIn E S tx (State.init tx) where
  inS _ _ hk := by obtain ⟨-, rfl⟩ := init_node.1 hk; exact h
  root _ _ hk := by obtain ⟨rfl, rfl⟩ := init_node.1 hk; simp
  rootTx _ hk := by obtain ⟨-, rfl⟩ := init_node.1 hk; rfl
  parentLt _ _ _ _ hk ht := by obtain ⟨-, rfl⟩ := init_node.1 hk; cases ht
  made _ _ _ _ hk ht := by obtain ⟨-, rfl⟩ := init_node.1 hk; cases ht
  queued _ he := by simp [State.init, beginEmulate] at he
  asked _ hr := by simp [State.init, beginEmulate] at hr

theorem Counted.init : Counted byIn E tx (State.init tx) .root where
  pending _ _ hk _ := by obtain ⟨rfl, rfl⟩ := init_node.1 hk; simp [owed, State.init, beginEmulate, Target.isOf]
  closed _ _ hk _ hg := by obtain ⟨-, rfl⟩ := init_node.1 hk; cases hg
  filled _ _ hk _ hg := by obtain ⟨-, rfl⟩ := init_node.1 hk; cases hg
  frame f hf := by
    simp only [State.init, beginEmulate, Option.some.injEq] at hf
    subst hf
    exact ⟨_, [], rfl, rfl, rfl, rfl, fun _ i => by simp [owedAt, State.init, beginEmulate, Target.isSlot]⟩
  result _ h := by simp [State.init, beginEmulate] at h

theorem Placed.dispatch (hpl : Placed byIn E S tx s) {c : TransactionInfo} {tgt : Target}
    {rest : List (TransactionInfo × Target)} (hm : s.mailbox = (c, tgt) :: rest) :
    Placed byIn E S tx ({ s with mailbox := rest }.beginEmulate c tgt) := by
  obtain ⟨hSc, k, i, p, ht, hk, hsl⟩ := hpl.queued (c, tgt) (by simp [hm])
  have hkl : k < s.nodes.length := (List.getElem?_eq_some_iff.1 hk).1
  have hold : ∀ {j : Nat} {q : NodeObj}, s.nodes[j]? = some q →
      ({ s with mailbox := rest }.beginEmulate c tgt).nodes[j]? = some q := fun hj => by
    simp only [beginEmulate]
    rw [List.getElem?_append_left (List.getElem?_eq_some_iff.1 hj).1, hj]
  have hrest : ∀ e ∈ rest, e ∈ s.mailbox := fun e he => by simp [hm, he]
  refine ⟨fun j q hj => ?_, fun j q hj => ?_, fun q hq => ?_, fun j q k' i' hj ht' => ?_,
    fun j q k' i' hj ht' => ?_, fun e he => ?_, fun r hr => ?_⟩
  all_goals simp only [beginEmulate, getElem?_snoc] at *
  · rcases hj with hj | ⟨-, rfl⟩
    · exact hpl.inS j q hj
    · exact hSc
  · rcases hj with hj | ⟨rfl, rfl⟩
    · exact hpl.root j q hj
    · rw [ht]
      exact ⟨fun h => (nomatch h), fun h => absurd h (by omega)⟩
  · rcases hq with hq | ⟨h0, -⟩
    · exact hpl.rootTx q hq
    · omega
  · rcases hj with hj | ⟨rfl, rfl⟩
    · exact hpl.parentLt j q k' i' hj ht'
    · rw [ht] at ht'; cases ht'; exact hkl
  · rcases hj with hj | ⟨rfl, rfl⟩
    · obtain ⟨p', hp', hs'⟩ := hpl.made j q k' i' hj ht'
      exact ⟨p', hold hp', hs'⟩
    · rw [ht] at ht'; cases ht'; exact ⟨p, hold hk, hsl⟩
  · obtain ⟨hSe, k', i', p', ht', hp', hs'⟩ := hpl.queued e (hrest e he)
    exact ⟨hSe, k', i', p', ht', hold hp', hs'⟩
  · obtain ⟨p', hp', hs'⟩ := hpl.asked r hr
    exact ⟨p', hold hp', hs'⟩

theorem Counted.dispatch (hpl : Placed byIn E S tx s) (hc : Counted byIn E tx s .root) {c : TransactionInfo}
    {tgt : Target} {rest : List (TransactionInfo × Target)} (hm : s.mailbox = (c, tgt) :: rest) :
    Counted byIn E tx ({ s with mailbox := rest }.beginEmulate c tgt) .root := by
  obtain ⟨hAt, hOf⟩ := owed_dispatch hm
  -- nothing is owed yet to the new node
  have h0 : s.owed s.nodes.length = 0 := hpl.owed_absent (List.getElem?_eq_none (le_refl _))
  refine ⟨fun j q hj hf => ?_, fun j q hj hf hg => ?_, fun j q hj hf hg i t ht => ?_, fun f hf => ?_, hc.result⟩
  rotate_right
  · simp only [beginEmulate, Option.some.injEq] at hf
    subst hf
    refine ⟨_, [], List.getElem?_concat_length _ _, rfl, rfl, rfl, fun _ i => ?_⟩
    have := owedAt_le_owed s s.nodes.length i
    simp only [hAt, holeAt_root, Nat.not_lt_zero, if_false]
    omega
  all_goals simp only [beginEmulate, getElem?_snoc] at hj
  · rw [hOf]
    rcases hj with hj | ⟨rfl, rfl⟩
    · exact hc.pending j q hj hf
    · simp [h0]
  · rcases hj with hj | ⟨-, rfl⟩
    · refine ⟨(hc.closed j q hj hf hg).1, fun i => ?_⟩
      rw [hAt]
      exact (hc.closed j q hj hf hg).2 i
    · cases hg
  · rcases hj with hj | ⟨-, rfl⟩
    · exact hc.filled j q hj hf hg i t ht
    · cases hg

theorem slots_getElem?_frame {p : TransactionInfo} {pre rest : List OutMsgInfo} {o : OutMsgInfo} {t : TraceNode}
    (hout : p.outMsgs = pre ++ o :: rest) (ht : slotTree byIn E o = some t) :
    (slots byIn E p)[(pre.filterMap (slotTree byIn E)).length]? = some t := by
  rw [slots, hout, List.filterMap_append, List.filterMap_cons_some ht, List.getElem?_append_right le_rfl,
    Nat.sub_self, List.getElem?_cons_zero]

theorem getElem?_addPending {l : List NodeObj} {k j : Nat} {q : NodeObj}
    (h : (l.modify (fun p => { p with pending := p.pending + 1 }) k)[j]? = some q) :
    ∃ p, l[j]? = some p ∧ q = { p with pending := p.pending + if k = j then 1 else 0 } := by
  rw [List.getElem?_modify] at h
  cases hj : l[j]? with
  | none => simp [hj] at h
  | some p =>
    simp only [hj, Option.map_eq_map, Option.map_some', Option.some.injEq] at h
    subst h
    exact ⟨p, rfl, by split_ifs <;> rfl⟩

theorem getElem?_addPending_self {l : List NodeObj} {k : Nat} {p : NodeObj} (h : l[k]? = some p) :
    (l.modify (fun p => { p with pending := p.pending + 1 }) k)[k]? = some { p with pending := p.pending + 1 } := by
  simp [List.getElem?_modify, h]

theorem Placed.enqueue (hpl : Placed byIn E S tx s) {c : TransactionInfo} {k i : Nat} {p : NodeObj} (hc : S c)
    (hk : s.nodes[k]? = some p) (hsl : (slots byIn E p.tx)[i]? = some (E c)) :
    Placed byIn E S tx { s with mailbox := s.mailbox ++ [(c, .child k i)] } :=
  { hpl with
    queued := fun e he => by
      rcases List.mem_append.1 he with he | he
      · exact hpl.queued e he
      · rw [List.mem_singleton.1 he]
        exact ⟨hc, k, i, p, rfl, hk, hsl⟩ }

theorem Placed.ask (hpl : Placed byIn E S tx s) (r : Request) {p : NodeObj} (hk : s.nodes[r.node]? = some p)
    (hsl : (slots byIn E p.tx)[r.childInd]? = some (.emulated r.msgHash r.destination)) :
    Placed byIn E S tx { s with requests := s.requests ++ [r] } :=
  { hpl with
    asked := fun r' hr => by
      rcases List.mem_append.1 hr with hr | hr
      · exact hpl.asked r' hr
      · rw [List.mem_singleton.1 hr]
        exact ⟨p, hk, hsl⟩ }

theorem Placed.loopStep (hS : ∀ p c, S p → Feeds byIn p c → S c) (hpl : Placed byIn E S tx s)
    (hc : Counted byIn E tx s .root) {f : Frame} {o : OutMsgInfo} {rest : List OutMsgInfo}
    (hr : s.running = some f) (hf : f.rest = o :: rest) : Placed byIn E S tx (s.loopStep byIn f o rest) := by
  obtain ⟨p, pre, hp, -, hpre, hlen, -⟩ := hc.frame f hr
  rw [hf] at hpre
  have ho : o ∈ p.tx.outMsgs := by simp [hpre]
  unfold State.loopStep
  split
  · exact hpl.of_places (fun _ => rfl) (fun _ h => h) (fun _ h => h)
  · rename_i dest hd
    have hpl₁ : Placed byIn E S tx
        { s with nodes := s.nodes.modify (fun p => { p with pending := p.pending + 1 }) f.node,
                 running := some ⟨f.node, rest, f.childInd + 1⟩ } :=
      hpl.of_places (fun k => map_getElem?_addPending NodeObj.place (fun _ => rfl) _ _ _) (fun _ h => h)
        (fun _ h => h)
    have hp₁ := getElem?_addPending_self hp
    split
    · rename_i c hb
      have hsl := slots_getElem?_frame hpre (by simp [slotTree, hd, hb] : slotTree byIn E o = some (E c))
      rw [hlen] at hsl
      exact hpl₁.enqueue (hS _ _ (hpl.inS _ _ hp) ⟨o, ho, by simp [hd], hb⟩) hp₁ hsl
    · rename_i hb
      have hsl := slots_getElem?_frame hpre
        (by simp [slotTree, hd, hb] : slotTree byIn E o = some (.emulated o.hash dest))
      rw [hlen] at hsl
      exact hpl₁.ask ⟨o.hash, dest, f.node, f.childInd⟩ hp₁ hsl

theorem loopStep_of_slot {f : Frame} {o : OutMsgInfo} {rest : List OutMsgInfo} {dest : StdAddress}
    (hd : o.slot = some dest) :
    (s.loopStep byIn f o rest).nodes = s.nodes.modify (fun p => { p with pending := p.pending + 1 }) f.node ∧
      (s.loopStep byIn f o rest).running = some ⟨f.node, rest, f.childInd + 1⟩ ∧
      (s.loopStep byIn f o rest).result = s.result ∧
      (∀ j i, (s.loopStep byIn f o rest).owedAt j i =
        s.owedAt j i + if f.node = j ∧ f.childInd = i then 1 else 0) ∧
      ∀ j, (s.loopStep byIn f o rest).owed j = s.owed j + if f.node = j then 1 else 0 := by
  have hmod : ∀ P : NodeObj → Bool, (∀ p : NodeObj, P { p with pending := p.pending + 1 } = P p) →
      (s.nodes.modify (fun p => { p with pending := p.pending + 1 }) f.node).countP P = s.nodes.countP P :=
    fun P hP => countP_modify_eq P _ hP _ _
  simp only [State.loopStep, hd]
  split <;> refine ⟨rfl, rfl, rfl, fun j i => ?_, fun j => ?_⟩ <;> simp only [owedAt, owed]
  all_goals first
    | rw [hmod (fun q => !q.fired && q.target.isSlot j i) (fun _ => rfl)]
    | rw [hmod (fun q => !q.fired && q.target.isOf j) (fun _ => rfl)]
  all_goals
    simp only [List.countP_append, List.countP_cons, List.countP_nil, isSlot_child, isOf_child, beq_iff_eq,
      Bool.and_eq_true, decide_eq_true_eq]
    omega

theorem Counted.loopStep (hsz : Sized s) (hc : Counted byIn E tx s .root) {f : Frame} {o : OutMsgInfo}
    {rest : List OutMsgInfo} (hr : s.running = some f) (hf : f.rest = o :: rest) :
    Counted byIn E tx (s.loopStep byIn f o rest) .root := by
  obtain ⟨p, pre, hp, hpc, hpre, hlen, hcnt⟩ := hc.frame f hr
  have hout : p.tx.outMsgs = (pre ++ [o]) ++ rest := by simp [hpre, hf]
  cases hd : o.slot with
  | none =>
    have hnone : slotTree byIn E o = none := by simp [slotTree, hd]
    have he : s.loopStep byIn f o rest = { s with running := some { f with rest := rest } } := by
      simp [State.loopStep, hd]
    rw [he]
    refine ⟨hc.pending, hc.closed, hc.filled, fun f' hf' => ?_, hc.result⟩
    cases hf'
    exact ⟨p, pre ++ [o], hp, hpc, hout, by simp [hnone, hlen], hcnt⟩
  | some dest =>
    obtain ⟨hn, hrun, hres, hAt, hOf⟩ := @loopStep_of_slot byIn s f o rest dest hd
    have hpg : p.guarded = true := by
      obtain ⟨p₀, hp₀, hg⟩ := hsz.running f hr
      rw [hp, Option.some.injEq] at hp₀
      exact hp₀ ▸ hg
    -- a node whose loop is over is not the running one, and is as it was
    have hdone : ∀ {j : Nat} {q : NodeObj}, (s.loopStep byIn f o rest).nodes[j]? = some q → q.guarded = false →
        f.node ≠ j ∧ s.nodes[j]? = some q := fun {j q} hj hg => by
      rw [hn] at hj
      obtain ⟨q₀, hq₀, rfl⟩ := getElem?_addPending hj
      have hne : f.node ≠ j := by
        rintro rfl
        rw [hp, Option.some.injEq] at hq₀
        subst hq₀
        simp [hpg] at hg
      simp only [hne, if_false, Nat.add_zero]
      exact ⟨hne, hq₀⟩
    refine ⟨fun j q hj hqf => ?_, fun j q hj hqf hqg => ?_,
      fun j q hj hqf hqg => hc.filled j q (hdone hj hqg).2 hqf hqg,
      fun f' hf' => ?_, hres ▸ hc.result⟩
    · rw [hn] at hj
      obtain ⟨q₀, hq₀, rfl⟩ := getElem?_addPending hj
      have := hc.pending j q₀ hq₀ hqf
      simp only [holeOf_root, hOf] at this ⊢
      omega
    · obtain ⟨hne, hj'⟩ := hdone hj hqg
      refine ⟨(hc.closed j q hj' hqf hqg).1, fun i => ?_⟩
      rw [hAt, ← (hc.closed j q hj' hqf hqg).2 i]
      simp [hne]
    · rw [hrun, Option.some.injEq] at hf'
      subst hf'
      have hsl : slotTree byIn E o ≠ none := by simp [slotTree, hd]
      refine ⟨{ p with pending := p.pending + 1 }, pre ++ [o], hn ▸ getElem?_addPending_self hp, hpc, hout, ?_,
        fun hpf i => ?_⟩
      · obtain ⟨t, ht⟩ := Option.ne_none_iff_exists'.1 hsl
        simp [ht, hlen]
      · have := hcnt hpf i
        rw [hAt]
        simp only [holeAt_root, Nat.add_zero, true_and] at this ⊢
        split_ifs at * <;> omega

theorem isEmptySlot_resize_nil (n i : Nat) : isEmptySlot (resize [] n) i = decide (i < n) := by
  simp only [isEmptySlot, resize, List.take_nil, List.nil_append, List.length_nil, Nat.sub_zero,
    List.getElem?_replicate]
  split_ifs with h <;> simp [h]

theorem Counted.close (hc : Counted byIn E tx s .root) {f : Frame} (hr : s.running = some f) (hf : f.rest = [])
    {p : NodeObj} (hk : s.nodes[f.node]? = some p)
    (hn : s'.nodes = s.nodes.set f.node { p with children := resize p.children f.childInd, guarded := false })
    (hr' : s'.running = none) (hm : s'.mailbox = s.mailbox) (hrq : s'.requests = s.requests)
    (hres : s'.result = s.result) : Counted byIn E tx s' .root := by
  obtain ⟨p₀, pre, hp₀, hpc, hpre, hlen, hcnt⟩ := hc.frame f hr
  rw [hk, Option.some.injEq] at hp₀
  subst hp₀
  obtain ⟨hAt, hOf⟩ := owed_set_eq hk hn hm hrq rfl rfl
  -- the node's vector is as long as its slots
  have hslots : (slots byIn E p.tx).length = f.childInd := by rw [slots, hpre, hf, List.append_nil, hlen]
  refine ⟨fun j q hj hqf => ?_, fun j q hj hqf hqg => ?_, fun j q hj hqf hqg i t ht => ?_,
    fun _ h => absurd (hr' ▸ h) (by simp), hres ▸ hc.result⟩
  · rcases getElem?_set_eq_some (hn ▸ hj) with ⟨rfl, rfl⟩ | ⟨-, hj⟩
    · exact (hc.pending _ p hk hqf).trans (by rw [hOf])
    · exact (hc.pending j q hj hqf).trans (by rw [hOf])
  · rcases getElem?_set_eq_some (hn ▸ hj) with ⟨rfl, rfl⟩ | ⟨-, hj⟩
    · refine ⟨by rw [length_resize, hslots], fun i => ?_⟩
      rw [hAt]
      simpa only [hpc, isEmptySlot_resize_nil, decide_eq_true_eq] using hcnt hqf i
    · refine ⟨(hc.closed j q hj hqf hqg).1, fun i => ?_⟩
      rw [hAt]
      exact (hc.closed j q hj hqf hqg).2 i
  · rcases getElem?_set_eq_some (hn ▸ hj) with ⟨rfl, rfl⟩ | ⟨-, hj⟩
    · simp [hpc, resize, List.getElem?_replicate] at ht
    · exact hc.filled j q hj hqf hqg i t ht

theorem Placed.set (hpl : Placed byIn E S tx s) {k : Nat} {p q : NodeObj} (hk : s.nodes[k]? = some p)
    (hn : s'.nodes = s.nodes.set k q) (hq : q.place = p.place) (hm : s'.mailbox = s.mailbox)
    (hr : s'.requests = s.requests) : Placed byIn E S tx s' :=
  hpl.of_places (samePlaces_set hk hn hq) (fun _ h => hm ▸ h) (fun _ h => hr ▸ h)

theorem Placed.finishLoop (hpl : Placed byIn E S tx s) (f : Frame) : Placed byIn E S tx (s.finishLoop f) := by
  unfold State.finishLoop
  split
  · exact hpl.of_places (fun _ => rfl) (fun _ h => h) (fun _ h => h)
  · rename_i p hk
    dsimp only
    split
    · refine Placed.deliver ?_ _ _ _
      exact hpl.set hk rfl rfl rfl rfl
    · exact hpl.set hk rfl rfl rfl rfl

theorem Counted.finishLoop (hE : ∀ c, S c → E c = .observed c.hash c.inMsgHash (slots byIn E c))
    (hpl : Placed byIn E S tx s) (hsz : Sized s) (hc : Counted byIn E tx s .root) {f : Frame}
    (hr : s.running = some f) (hf : f.rest = []) : Counted byIn E tx (s.finishLoop f) .root := by
  obtain ⟨p, hk, -⟩ := hsz.running f hr
  have hlt : f.node < s.nodes.length := (List.getElem?_eq_some_iff.1 hk).1
  have hclose : Counted byIn E tx
      { s with nodes := s.nodes.set f.node { p with children := resize p.children f.childInd, guarded := false },
               running := none } .root := hc.close hr hf hk rfl rfl rfl rfl rfl
  simp only [State.finishLoop, hk]
  split
  · rename_i hcond
    set p' : NodeObj := { p with children := resize p.children f.childInd, guarded := false }
    have hk' : (s.nodes.set f.node p')[f.node]? = some p' := List.getElem?_set_self hlt
    -- the loop is over and the node is owed nothing: its tree is `E` of its transaction
    have hpl' : Placed byIn E S tx { s with nodes := s.nodes.set f.node p', running := none } :=
      hpl.set hk rfl rfl rfl rfl
    have htree : p'.tree = E p.tx := hclose.tree_eq hE hpl' hk' hcond.2 rfl hcond.1
    have hfire : Counted byIn E tx { s with nodes := s.nodes.set f.node { p' with fired := true }, running := none }
        p'.target := hclose.fire (fun _ _ => rfl) hk' hcond.2 (List.set_set _ _ _ _).symm rfl rfl rfl rfl rfl rfl rfl
    refine deliver_ok_counted hE _ _ _ _ (hpl.set hk rfl rfl rfl rfl) hfire
      (hsz.finish hr hk rfl (length_resize _ _) rfl (by simp)) (hsz.inBounds_finish hr _ (hsz.made _ p hk hcond.2))
      ?_ (hpl.fuelFor hk (Nat.le_of_lt hlt))
    rw [htree]
    refine (hpl.brings hk).of_places ?_
    exact samePlaces_set hk rfl rfl
  · exact hclose

theorem Placed.answer (hpl : Placed byIn E S tx s) {pre post : List Request} {r : Request}
    (hq : s.requests = pre ++ r :: post) : Placed byIn E S tx { s with requests := pre ++ post } :=
  hpl.of_places (fun _ => rfl) (fun _ h => h)
    (fun _ h => by simp only [hq, List.mem_append, List.mem_cons] at h ⊢; tauto)

theorem Sized.answer (hsz : Sized s) {pre post : List Request} {r : Request} (hq : s.requests = pre ++ r :: post) :
    Sized { s with requests := pre ++ post } :=
  ⟨hsz.guarded, hsz.running, hsz.queued,
    fun r' h => hsz.asked r' (by simp only [hq, List.mem_append, List.mem_cons] at h ⊢; tauto), hsz.made⟩

theorem Counted.replyOk (hE : ∀ c, S c → E c = .observed c.hash c.inMsgHash (slots byIn E c))
    (hpl : Placed byIn E S tx s) (hsz : Sized s) (hc : Counted byIn E tx s .root) {pre post : List Request}
    {r : Request} (hq : s.requests = pre ++ r :: post)
    (hb : (deliver s.nodes.length (.child r.node r.childInd) (.ok (.emulated r.msgHash r.destination))
      { s with requests := pre ++ post }).outOfBounds = false) :
    Counted byIn E tx (deliver s.nodes.length (.child r.node r.childInd) (.ok (.emulated r.msgHash r.destination))
      { s with requests := pre ++ post }) .root := by
  have hr : r ∈ s.requests := by simp [hq]
  obtain ⟨p, hk, hsl⟩ := hpl.asked r hr
  obtain ⟨p₀, hk₀, hu, hg⟩ := hsz.asked r hr
  rw [hk, Option.some.injEq] at hk₀
  subst hk₀
  have hlt : r.node < s.nodes.length := (List.getElem?_eq_some_iff.1 hk).1
  cases hpg : p.guarded
  · exact deliver_ok_counted hE _ _ _ _ (hpl.answer hq) (hc.answer hq) (hsz.answer hq) ⟨p, hk, hpg, hu hpg⟩
      ⟨p, hk, hsl⟩ hlt
  · -- the node's loop still runs, so its vector is empty: the write goes out of bounds
    obtain ⟨f, hf, hn, -⟩ := hg hpg
    obtain ⟨p', -, hp', hpc, -⟩ := hc.frame f hf
    rw [hn, hk, Option.some.injEq] at hp'
    subst hp'
    obtain ⟨n, hn'⟩ : ∃ n, s.nodes.length = n + 1 :=
      ⟨_, (Nat.succ_pred_eq_of_pos (Nat.zero_lt_of_lt hlt)).symm⟩
    have hk' : ({ s with requests := pre ++ post } : State).nodes[r.node]? = some p := hk
    rw [hn', deliver_ok_outOfBounds hk' (by simp [hpc]) n _] at hb
    cases hb

theorem TailStep.outOfBounds_mono (h : TailStep byIn s s') (hb : s.outOfBounds = true) : s'.outOfBounds = true := by
  cases h with
  | dispatch => exact hb
  | loop => rw [loopStep_outOfBounds]; exact hb
  | finish =>
    unfold State.finishLoop
    split
    · exact hb
    · dsimp only
      split
      · exact deliver_outOfBounds _ _ _ _ hb
      · exact hb
  | replyOk => exact deliver_outOfBounds _ _ _ _ hb
  | replyError => exact deliver_outOfBounds _ _ _ _ hb

section Step

variable (hS : ∀ p c, S p → Feeds byIn p c → S c)
  (hE : ∀ c, S c → E c = .observed c.hash c.inMsgHash (slots byIn E c))
include hS hE

theorem TailStep.faithful (h : TailStep byIn s s') (hpl : Placed byIn E S tx s) (hc : Counted byIn E tx s .root)
    (hsz : Sized s) (hb : s'.outOfBounds = false) : Placed byIn E S tx s' ∧ Counted byIn E tx s' .root := by
  cases h with
  | dispatch _ hm => exact ⟨hpl.dispatch hm, hc.dispatch hpl hm⟩
  | loop hr hf => exact ⟨hpl.loopStep hS hc hr hf, hc.loopStep hsz hr hf⟩
  | finish hr hf => exact ⟨hpl.finishLoop _, hc.finishLoop hE hpl hsz hr hf⟩
  | replyOk hq => exact ⟨(hpl.answer hq).deliver _ _ _, hc.replyOk hE hpl hsz hq hb⟩
  | @replyError pre post r e hq =>
    obtain ⟨p, hk, -⟩ := hpl.asked r (by simp [hq])
    exact ⟨(hpl.answer hq).deliver _ _ _,
      deliver_error_counted e _ _ _ (hpl.answer hq) (hc.answer hq) (List.getElem?_eq_some_iff.1 hk).1⟩

theorem TailReachable.faithful (htx : S tx) (h : TailReachable byIn tx s) (hb : s.outOfBounds = false) :
    Placed byIn E S tx s ∧ Counted byIn E tx s .root := by
  induction h with
  | init => exact ⟨Placed.init htx, Counted.init⟩
  | @step s₀ _ hs hst ih =>
    have hb₀ : s₀.outOfBounds = false := Bool.eq_false_iff.2 fun h => by simp [hst.outOfBounds_mono h] at hb
    obtain ⟨hpl, hc⟩ := ih hb₀
    exact hst.faithful hS hE hpl hc hs.sized hb

end Step

end Invariant

theorem slots_congr (byIn : StdMap Bits256 TransactionInfo) {E E' : TransactionInfo → TraceNode}
    {c : TransactionInfo} (h : ∀ c', Feeds byIn c c' → E c' = E' c') : slots byIn E c = slots byIn E' c := by
  refine List.filterMap_congr fun o ho => ?_
  cases hd : o.slot with
  | none => simp [slotTree, hd]
  | some dest =>
    simp only [slotTree, hd, Option.map_some']
    split
    · rename_i c' hc'
      rw [h c' ⟨o, ho, by simp [hd], hc'⟩]
    · rfl

theorem emulateTx_unfold {byIn : StdMap Bits256 TransactionInfo} {S : TransactionInfo → Prop} {L : Nat}
    (ho : Ordered byIn S L) (c : TransactionInfo) (hc : S c) :
    emulateTx byIn (L + 1) c = .observed c.hash c.inMsgHash (slots byIn (emulateTx byIn (L + 1)) c) := by
  rw [emulateTx_succ, slots_congr byIn fun c' hf => ?_]
  obtain ⟨hc', hlt⟩ := ho.closed _ _ hc hf
  exact emulateTx_fuel ho L (L + 1) c' hc' (by omega) (by omega)

theorem Ordered.feeds_mem {byIn : StdMap Bits256 TransactionInfo} {S : TransactionInfo → Prop} {L : Nat}
    (ho : Ordered byIn S L) (p c : TransactionInfo) (hp : S p) (hf : Feeds byIn p c) : S c :=
  (ho.closed p c hp hf).1

theorem TailReachable.faithful_emulateTx {byIn : StdMap Bits256 TransactionInfo} {S : TransactionInfo → Prop}
    {L : Nat} {tx : TransactionInfo} {s : State} (ho : Ordered byIn S L) (htx : S tx) (hs : TailReachable byIn tx s)
    (hb : s.outOfBounds = false) :
    Placed byIn (emulateTx byIn (L + 1)) S tx s ∧ Counted byIn (emulateTx byIn (L + 1)) tx s .root :=
  hs.faithful ho.feeds_mem (emulateTx_unfold ho) htx hb

/-- In every run on a transaction of the block in which no callback writes out of
bounds, a tree handed to `promise_` is the one `emulateTx` builds. -/
theorem result_eq_emulateTx {byIn : StdMap Bits256 TransactionInfo} {S : TransactionInfo → Prop} {L : Nat}
    {tx : TransactionInfo} (ho : Ordered byIn S L) (htx : S tx) {s : State} (hs : TailReachable byIn tx s)
    (hb : s.outOfBounds = false) {t : TraceNode} (ht : s.result = some (.ok t)) : t = emulateTx byIn (L + 1) tx :=
  (hs.faithful_emulateTx ho htx hb).2.result t ht

theorem escapingTx_ordered : Ordered StdMap.empty (· = escapingTx) 2 :=
  ⟨fun _ _ _ ⟨_, _, _, h⟩ => (nomatch h), fun _ h => by subst h; decide⟩

/-- The transaction whose one out-message leaves the block, answered after its
loop: the tree handed on is the one `emulateTx` builds. -/
theorem escapingTx_result :
    ∃ s t, TailReachable StdMap.empty escapingTx s ∧ s.outOfBounds = false ∧ s.result = some (.ok t) ∧
      t = emulateTx StdMap.empty 3 escapingTx := by
  have hs := (((TailReachable.init : TailReachable StdMap.empty escapingTx _).step (.loop rfl rfl)).step
    (.finish rfl rfl)).step (@TailStep.replyOk StdMap.empty _ [] [] _ rfl)
  exact ⟨_, _, hs, rfl, rfl, result_eq_emulateTx escapingTx_ordered rfl hs rfl rfl⟩

end TraceTailEmulator

end TonIndex
